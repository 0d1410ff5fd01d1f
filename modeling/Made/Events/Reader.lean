import Made.Runs.Soundness

/-!
# Reading sealed events back

A record names the type of its event and the schema version of its payload.  The version is
computed from which optional coordinates a payload carries, and the reader keeps its own table of
the versions it reads for each type.

* `CeremonyEventReader.readable_iff_of_admitted`: an admitted event reads back exactly when it is
  not a move under a state timeout, whose version the reader's table leaves out.
-/

namespace Made

open Outcome CeremonyEvent CeremonyInstance

/-! ## The reader -/

structure EventCodec (Raw : Type) where
  encode : CeremonyEvent → Raw
  decode : Raw → Option CeremonyEvent
  decode_encode : ∀ event, decode (encode event) = some event

namespace CeremonyEventReader

variable {e : CeremonyEvent}

def supports (version : EventSchemaVersion) (eventType : AuditEventType) : Bool :=
  match version.val with
  | 1 => true
  | 2 => [.ceremonyInstanceStarted, .stepLeaseRenewed, .stepStarted, .stepCompleted, .stepFailed,
      .transitionApplied, .contextWritten, .stateIterationStarted].contains eventType
  | 3 => [.ceremonyInstanceStarted, .stepStarted, .stepCompleted, .stepFailed,
      .transitionApplied].contains eventType
  | 4 => [.ceremonyInstanceStarted, .stepStarted, .stepFailed].contains eventType
  | 5 | 6 => eventType == .stepStarted
  | _ => false

def unreadable (eventType : AuditEventType) (version : EventSchemaVersion) (reason : String) :
    DomainError :=
  .unreadableCeremonyEvent eventType.asStr version.val reason

def validateSeals (event : CeremonyEvent) (eventType : AuditEventType)
    (version : EventSchemaVersion) : Result Unit :=
  match event with
  | .stepCompleted completed =>
    require (completed.result.failureKind = none)
      (unreadable eventType version "step completion cannot carry a failure kind")
  | .stepFailed failed =>
    require (failed.result.failureKind = none ∨ failed.result.status = .failed)
      (unreadable eventType version "only failed results carry a failure kind")
  | .stepStarted started => do
    require (started.roleFrom = none ∨ started.sealedRole = none) (unreadable eventType version
        "a step start cannot carry both dynamic and static role seals")
    require (started.sealedRole.all (· = started.startedBy) = true)
      (unreadable eventType version "the sealed static role differs from started_by")
  | .executionReceiptLinked linked =>
    match linked.link.validate with
    | .ok () => .ok ()
    | .error _ => refuse (unreadable eventType version "execution receipt link is invalid")
  | _ => .ok ()

/-- Whether a visit is accompanied by an iteration, as every writer of visits does. -/
def visitHasIteration (stateVisit : Option StateVisit) (stateIteration : Option StateIteration) :
    Bool :=
  stateVisit.isNone || stateIteration.isSome

def coordinatesValid : CeremonyEvent → Bool
  | .stepStarted e | .stepCompleted e | .stepFailed e =>
    visitHasIteration e.stateVisit e.stateIteration
  | .transitionApplied e =>
    match e.destination with
    | some destination =>
      e.transition.stateVisit.isSome && e.transition.stateIteration.isSome &&
        decide ((e.transition.stateVisit.getD StateVisit.first).next =
          .ok destination.stateVisit) &&
        decide destination.stepIds.Nodup
    | none => e.transition.stateVisit.isNone
  | _ => true

variable {Raw : Type} (codec : EventCodec Raw)

def read (eventType : AuditEventType) (version : EventSchemaVersion) (raw : Raw) :
    Result CeremonyEvent := do
  require (supports version eventType = true)
    (unreadable eventType version "no reader exists for this schema version")
  let event ← okOr (codec.decode raw)
    (unreadable eventType version "the payload does not deserialize as a ceremony event")
  require (event.eventType = eventType)
    (unreadable eventType version "the payload's tag names a different event type")
  validateSeals event eventType version
  require (coordinatesValid event = true)
    (unreadable eventType version "inconsistent state visit coordinates or destination reset")
  require (event.schemaVersion = version)
    (unreadable eventType version "the payload shape does not match its schema version")
  pure event

/-- Read an event back under the type and the version it is sealed with. -/
def reread (event : CeremonyEvent) : Result CeremonyEvent :=
  read codec event.eventType event.schemaVersion (codec.encode event)

/-! ## What reads back -/

structure Readable (e : CeremonyEvent) : Prop where
  supported : supports e.schemaVersion e.eventType = true
  seals : validateSeals e e.eventType e.schemaVersion = .ok ()
  coordinates : coordinatesValid e = true

theorem reread_eq_ok_iff (e : CeremonyEvent) : reread codec e = .ok e ↔ Readable e := by
  simp only [reread, read, bind_eq_ok, require_eq_ok, okOr_eq_ok,
    codec.decode_encode, pure_eq_ok, exists_const]
  constructor
  · rintro ⟨hsupported, e', he, -, _, hseals, hcoordinates, -, -⟩
    cases he
    exact ⟨hsupported, hseals, hcoordinates⟩
  · rintro ⟨hsupported, hseals, hcoordinates⟩
    exact ⟨hsupported, e, rfl, rfl, (), hseals, hcoordinates, rfl, rfl⟩

/-- The types whose payload the reader checks beyond its version. -/
def checkedTypes : List AuditEventType :=
  [.stepStarted, .stepCompleted, .stepFailed, .transitionApplied, .executionReceiptLinked]

theorem readable_of_unchecked (h : e.eventType ∉ checkedTypes) : Readable e := by
  have hsupported : supports e.schemaVersion e.eventType = true := by
    cases e with
    | ceremonyInstanceStarted e =>
      simp only [schemaVersion, eventType]
      repeat' split
      all_goals rfl
    | stepLeaseRenewed e =>
      simp only [schemaVersion, eventType]
      split <;> rfl
    | stateIterationStarted e | contextWritten e =>
      simp only [schemaVersion, eventType, visitVersion]
      split <;> rfl
    | _ => first | rfl | simp [eventType, checkedTypes] at h
  refine ⟨hsupported, ?_, ?_⟩
  · cases e <;> first | rfl | simp [eventType, checkedTypes] at h
  · cases e <;> first | rfl | simp [eventType, checkedTypes] at h

section admitted

open CeremonyInstance

variable {d : CeremonyDefinition} {i : CeremonyInstance} {step : CeremonyStep}
  {record : StepExecutionRecord} {fence : StepClaimFence}

theorem readable_stepStarted {e : StepStarted} (h : StartAdmitted d i e step record) :
    Readable (.stepStarted e) := by
  refine ⟨?_, ?_, ?_⟩
  · simp only [schemaVersion, eventType, h.visit_eq, Option.isSome_some]
    repeat' split
    all_goals first | rfl | contradiction
  · simp only [validateSeals, bind_eq_ok, require_eq_ok, exists_const]
    refine ⟨h.oneSeal, ?_⟩
    cases hseal : e.sealedRole with
    | none => rfl
    | some role => simp [h.sealed_eq role hseal]
  · simp [coordinatesValid, visitHasIteration, h.stateIteration_eq]

theorem readable_stepCompleted {e : StepCompleted} (h : CompletionAdmitted d i e step record fence) :
    Readable (.stepCompleted e) := by
  refine ⟨?_, ?_, ?_⟩
  · simp only [schemaVersion, eventType, h.visit_eq, Option.isSome_some, if_true]
    rfl
  · -- A successful result is not a failed one, and only a failed one carries a kind.
    have hs : e.result.status ≠ .failed := by
      intro hfailed
      have hsucc := h.success
      simp [StepResult.isSuccess, hfailed, StepStatus.isSuccess] at hsucc
    simp only [validateSeals, require_eq_ok]
    exact e.result.failureKind_eq_none hs
  · simp [coordinatesValid, visitHasIteration, h.stateIteration_eq]

theorem readable_stepFailed {e : StepFailed} (h : FailureAdmitted d i e step record fence) :
    Readable (.stepFailed e) := by
  refine ⟨?_, ?_, ?_⟩
  · simp only [schemaVersion, eventType, h.visit_eq, Option.isSome_some, if_true]
    split <;> rfl
  · simp only [validateSeals, require_eq_ok]
    by_cases hs : e.result.status = .failed
    · exact .inr hs
    · exact .inl (e.result.failureKind_eq_none hs)
  · simp [coordinatesValid, visitHasIteration, h.stateIteration_eq]

theorem readable_executionReceiptLinked {e : ExecutionReceiptLinked}
    (h : LinkAdmitted d i e record) :
    Readable (.executionReceiptLinked e) := by
  refine ⟨rfl, ?_, rfl⟩
  simp only [validateSeals, h.valid]

/-- A move is written at version four when it seals a deadline, and the reader has no version
four of a move. -/
theorem readable_transitionApplied_iff {e : TransitionApplied} {transition : CeremonyTransition}
    {destination : StateVisitEntry} (h : MoveAdmitted d i e transition destination) :
    Readable (.transitionApplied e) ↔ d.stateTimeout = none := by
  have hdue := h.deadline_iff
  constructor
  · intro hreadable
    have hsupported := hreadable.supported
    cases htimeout : d.stateTimeout with
    | none => rfl
    | some timeout =>
      rw [htimeout, Option.isSome_some] at hdue
      simp [schemaVersion, eventType, h.destination_eq, hdue,
        supports, EventSchemaVersion.v4, Ordinal.of] at hsupported
  · intro htimeout
    rw [htimeout, Option.isSome_none] at hdue
    refine ⟨?_, rfl, ?_⟩
    · simp [schemaVersion, eventType, h.destination_eq, hdue, supports, EventSchemaVersion.v3,
        Ordinal.of]
    · have hnd : destination.stepIds.Nodup := by
        rw [h.stepIds_eq]
        exact d.stepsForState_ids_nodup transition.to_
      simp [coordinatesValid, h.destination_eq, h.fromVisit_eq, h.fromIteration_eq, h.visit_eq, hnd]

theorem readable_iff_of_admitted {e : CeremonyEvent} (h : Admitted d i e) :
    Readable e ↔ d.stateTimeout = none ∨ e.eventType ≠ .transitionApplied := by
  by_cases hchecked : e.eventType ∈ checkedTypes
  · cases e with
    | stepStarted e =>
      obtain ⟨step, record, hstart⟩ := h
      simp [readable_stepStarted hstart, eventType]
    | stepCompleted e =>
      obtain ⟨step, record, fence, hcompletion⟩ := h
      simp [readable_stepCompleted hcompletion, eventType]
    | stepFailed e =>
      obtain ⟨step, record, fence, hfailure⟩ := h
      simp [readable_stepFailed hfailure, eventType]
    | executionReceiptLinked e =>
      obtain ⟨record, hlink⟩ := h
      simp [readable_executionReceiptLinked hlink, eventType]
    | transitionApplied e =>
      obtain ⟨transition, destination, hmove⟩ := h
      simp [readable_transitionApplied_iff hmove, eventType]
    | _ => simp [eventType, checkedTypes] at hchecked
  · have hne : e.eventType ≠ .transitionApplied := by
      rintro heq
      simp [heq, checkedTypes] at hchecked
    simp [readable_of_unchecked hchecked, hne]

end admitted

/-! ## Whole batches -/

theorem opening_events_unchecked {opening : CeremonyOpening} {events : List CeremonyEvent}
    (h : opening.decide = .ok events) : ∀ e ∈ events, e.eventType ∉ checkedTypes := by
  have hbatch : ∀ (started : CeremonyInstanceStarted) (recollection : Option SessionRecollection)
      (now : OffsetDateTime), ∀ e ∈ openingBatch started recollection now,
        e.eventType ∉ checkedTypes := by
    intro started recollection now e hmem
    simp only [openingBatch, List.mem_cons, Option.mem_toList, Option.map_eq_some_iff] at hmem
    rcases hmem with rfl | ⟨recalled, -, rfl⟩
    · simp [eventType, checkedTypes]
    · simp [eventType, checkedTypes]
  cases opening with
  | startSuccessor id published context succession plan now =>
    simp only [CeremonyOpening.decide, decideStartSuccessor, bind_eq_ok, pure_eq_ok] at h
    obtain ⟨started, -, rfl⟩ := h
    rw [List.forall_mem_cons]
    refine ⟨by simp [eventType, checkedTypes], ?_⟩
    split
    · simp
    · simp [eventType, checkedTypes]
  | _ =>
    simp only [CeremonyOpening.decide, decideStart, decideStartBound, decideStartBoundChild,
      decideStartBoundBudgeted, decideStartBoundBudgetedChild,
      decideOpening, bind_eq_ok, pure_eq_ok] at h
    obtain ⟨started, -, rfl⟩ := h
    exact hbatch _ _ _

theorem readable_iff_of_decided {d : CeremonyDefinition} {types : List AuditEventType}
    (h : CeremonyInstance.Decided d types e) :
    Readable e ↔ d.stateTimeout = none ∨ e.eventType ≠ .transitionApplied := by
  obtain ⟨-, ⟨j, hadm⟩ | hending⟩ := h
  · exact readable_iff_of_admitted hadm
  · have hunchecked : e.eventType ∉ checkedTypes := by
      revert hending
      cases e <;> simp [eventType, endingTypes, checkedTypes]
    have hne : e.eventType ≠ .transitionApplied := by
      intro heq
      simp [heq, checkedTypes] at hunchecked
    simp [readable_of_unchecked hunchecked, hne]

/-- Every opening reads back.  A batch decided by a session reads back exactly when the definition
has no state timeout or the command is not a move. -/
theorem decided_events_reread_iff (d : CeremonyDefinition) :
    (∀ (opening : CeremonyOpening) (events : List CeremonyEvent), opening.decide = .ok events →
      ∀ e ∈ events, reread codec e = .ok e) ∧
    ∀ (i : CeremonyInstance) (command : CeremonyCommand) (events : List CeremonyEvent),
      i.decide d command = .ok events → ((∀ e ∈ events, reread codec e = .ok e) ↔
          d.stateTimeout = none ∨ ∀ move, command ≠ .applyTransition move) := by
  constructor
  · intro opening events hacc e hmem
    rw [reread_eq_ok_iff]
    exact readable_of_unchecked (opening_events_unchecked hacc e hmem)
  · intro i command events hacc
    have heach := CeremonyInstance.decide_each hacc
    constructor
    · intro hread
      by_contra hnot
      push Not at hnot
      obtain ⟨htimeout, move, rfl⟩ := hnot
      obtain ⟨e, transition, destination, hmove, -, -, rfl⟩ :=
        CeremonyInstance.decideApplyTransition_eq_ok hacc
      have hreadable := (reread_eq_ok_iff codec _).mp (hread _ List.mem_cons_self)
      exact htimeout ((readable_transitionApplied_iff hmove).mp hreadable)
    · intro hcondition e hmem
      rw [reread_eq_ok_iff, readable_iff_of_decided (heach e hmem)]
      refine hcondition.imp_right fun hcmd htype => ?_
      have hemits := (heach e hmem).1
      rw [htype] at hemits
      obtain ⟨move, hmove⟩ := CeremonyInstance.transitionApplied_mem_emits hemits
      exact hcmd move hmove

/-! ## A move under a state timeout -/

def verbatim : EventCodec CeremonyEvent := ⟨id, some, fun _ => rfl⟩

/-- The smallest ceremony with a second for each state. -/
def timedMoveDefinition : CeremonyDefinition :=
  oneMoveDefinition.withStateTimeout ⟨⟨1000, by decide⟩, by decide⟩

def finishMove : CeremonyCommand := moveAt finishTrigger (.afterEpoch 1)

theorem untimed_move_reread :
    ∃ (i : CeremonyInstance) (events : List CeremonyEvent),
      i.decide oneMoveDefinition finishMove = .ok events ∧
        ∀ e ∈ events, reread verbatim e = .ok e := by
  obtain ⟨-, i, _, _, -, -, hacc⟩ := exists_run_of_script (openingOf oneMoveDefinition) []
    (fun i _ _ => (i.decide oneMoveDefinition finishMove).isOk = true) (by decide +kernel)
  cases hdecide : i.decide oneMoveDefinition finishMove with
  | error fault =>
    rw [hdecide] at hacc
    cases hacc
  | ok events =>
    have htimeout : oneMoveDefinition.stateTimeout = none := by decide +kernel
    exact ⟨i, events, hdecide,
      ((decided_events_reread_iff verbatim oneMoveDefinition).2 i finishMove events
        hdecide).mpr (.inl htimeout)⟩

/-- Whether some event of an accepted batch has no reader for its version. -/
def hasUnreadableMove (i : CeremonyInstance) (d : CeremonyDefinition) (command : CeremonyCommand) :
    Bool :=
  match i.decide d command with
  | .ok events => events.any fun e => reread verbatim e = refuse
      (.unreadableCeremonyEvent "transition_applied" 4 "no reader exists for this schema version")
  | .error _ => false

/-- With a state timeout of a second the move is accepted and its event has no reader. -/
theorem timed_move_unreadable :
    ∃ (openingEvents : List CeremonyEvent) (i : CeremonyInstance) (events : List CeremonyEvent),
      Opened timedMoveDefinition (openingOf timedMoveDefinition) openingEvents i ∧
      i.decide timedMoveDefinition finishMove = .ok events ∧
      ∃ e ∈ events, reread verbatim e = refuse (.unreadableCeremonyEvent "transition_applied" 4
          "no reader exists for this schema version") := by
  obtain ⟨openingEvents, i, _, _, hopened, -, hunreadable⟩ := exists_run_of_script
    (openingOf timedMoveDefinition) []
    (fun i _ _ => hasUnreadableMove i timedMoveDefinition finishMove = true) (by decide +kernel)
  refine ⟨openingEvents, i, ?_⟩
  dsimp only [hasUnreadableMove] at hunreadable
  split at hunreadable
  case h_1 events hdecide =>
    rw [List.any_eq_true] at hunreadable
    obtain ⟨e, hmem, heq⟩ := hunreadable
    exact ⟨events, hopened, hdecide, e, hmem, of_decide_eq_true heq⟩
  · simp at hunreadable

end CeremonyEventReader

end Made
