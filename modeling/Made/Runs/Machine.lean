import Made.Aggregate.FoldLemmas
import Made.Runs.Admission

/-!
# Ceremonies as event-sourced machines

The machine of a definition decides commands with `CeremonyInstance.decide` and folds events with
`CeremonyInstance.apply`.  Its runs start where an opening leads; `FreshInstance` says what every
opening leaves behind.
-/

namespace Made

open EventSourcing Outcome Std CeremonyInstance ExtTreeMap

variable {d : CeremonyDefinition} {context : CeremonyContext}
    {recollection : Option SessionRecollection} {now : OffsetDateTime} {i : CeremonyInstance}
    {events : List CeremonyEvent}

def machine (d : CeremonyDefinition) :
    Machine CeremonyInstance CeremonyCommand CeremonyEvent DomainError where
  decide i c := i.decide d c
  apply i e := i.apply e

@[simp] theorem machine_apply (d : CeremonyDefinition) (i : CeremonyInstance)
    (e : CeremonyEvent) : (machine d).apply i e = i.apply e := rfl

@[simp] theorem machine_fold (d : CeremonyDefinition) (i : CeremonyInstance)
    (events : List CeremonyEvent) : (machine d).fold i events = i.applyAll events := by
  induction events generalizing i with
  | nil => rfl
  | cons e rest ih => simp only [Machine.fold, applyAll, machine_apply, ih]

/-! ## Openings -/

/-- An opening of `d` that was accepted as `events`, and the session those fold into. -/
structure Opened (d : CeremonyDefinition) (opening : CeremonyOpening)
    (events : List CeremonyEvent) (i : CeremonyInstance) : Prop where
  definition_eq : opening.definition = d
  accepted : opening.decide = .ok events
  folded : CeremonyInstance.rehydrate events = .ok i

structure FreshInstance (d : CeremonyDefinition) (context : CeremonyContext)
    (i : CeremonyInstance) : Prop where
  matched : i.matchesDefinition d = true
  currentState : i.currentState = d.initialStateId
  currentStateIteration : i.currentStateIteration = StateIteration.first
  currentStateVisit : i.currentStateVisit = StateVisit.first
  context : i.context = context
  records : ∀ stepId, stepId ∈ i.stepRecords ↔ stepId ∈ d.steps
  unclaimed : ∀ (stepId : StepId) (record : StepExecutionRecord),
    i.stepRecords[stepId]? = some record →
    (record.status = .pending ∨ record.status = .completed) ∧ record.lease = none ∧
      record.stateVisit = StateVisit.first ∧ record.stateIteration = StateIteration.first ∧
      record.iteration = StepIteration.first ∧ record.attempt = StepAttempt.first
  stepRecordHistory : i.stepRecordHistory = ∅
  stepDeadlines : i.stepDeadlines = ∅
  retiredDeadlineClaims : i.retiredDeadlineClaims = ∅
  lateStepResults : i.lateStepResults = ∅
  idempotencyKeys : i.idempotencyKeys = ∅
  leaseRenewals : i.leaseRenewals = ∅
  hostHandoffs : i.hostHandoffs = ∅
  childGroups : i.childGroups = ∅
  executionReceiptLinks : i.executionReceiptLinks = ∅
  executionReceiptAdoptions : i.executionReceiptAdoptions = ∅
  lifecycle : i.lifecycle_ = CeremonyLifecycle.default
  completedAt : i.completedAt = none
  interventions : i.interventions = []
  guardApprovals : i.guardApprovals = []
  guardDeferrals : i.guardDeferrals = []
  reasons : i.reasons = []
  transitions : i.transitions = []
  participantBindings : i.participantBindings = ∅
  successorPlan : i.successorPlan = none

namespace CeremonyInstance

variable {d : CeremonyDefinition} {context : CeremonyContext} {started : CeremonyInstanceStarted}

theorem opening_eq_ok {id : CeremonyId} {now : OffsetDateTime}
    {bound : Option CeremonyDefinitionDigest} {lineage : Option CeremonyLineage}
    {account : Option BudgetAccountId}
    (h : opening id d context now bound lineage account = .ok started) :
    started.definitionName = d.name ∧ started.definitionVersion = d.version ∧
      started.initialState = d.initialStateId ∧ started.stepIds = d.steps.keys ∧
      started.context = context := by
  simp only [opening, bind_eq_ok, pure_eq_ok] at h
  obtain ⟨_, _, _, _, _, _, rfl⟩ := h
  exact ⟨rfl, rfl, rfl, rfl, rfl⟩

/-- Starting opens one pending record for every step of the definition. -/
theorem fromStarted_stepRecords (h : started.stepIds = d.steps.keys) (stepId : StepId) :
    (fromStarted started).stepRecords[stepId]? =
      if stepId ∈ d.steps then some StepExecutionRecord.pending else none := by
  have hpairs : (d.steps.keys.map fun stepId => (stepId, StepExecutionRecord.pending)).Pairwise
      fun a b => ¬ compare a.1 b.1 = .eq := by
    have hkeys := distinct_keys (t := d.steps)
    exact List.pairwise_map.mpr hkeys
  by_cases hmem : stepId ∈ d.steps
  · rw [if_pos hmem]
    simp only [fromStarted, h]
    refine getElem?_ofList_of_mem Std.ReflCmp.compare_self hpairs ?_
    exact List.mem_map.mpr ⟨stepId, mem_keys.mpr hmem, rfl⟩
  · rw [if_neg hmem]
    simp only [fromStarted, h]
    refine getElem?_ofList_of_contains_eq_false ?_
    simpa [List.contains_iff_mem, Function.comp_def] using hmem

theorem fresh_fromStarted (hname : started.definitionName = d.name)
    (hver : started.definitionVersion = d.version)
    (hstate : started.initialState = d.initialStateId) (hsteps : started.stepIds = d.steps.keys)
    (hctx : started.context = context) : FreshInstance d context (fromStarted started) where
  matched := by simp [matchesDefinition, fromStarted, hname, hver]
  currentState := hstate
  currentStateIteration := rfl
  currentStateVisit := rfl
  context := hctx
  records stepId := by
    rw [mem_iff_isSome_getElem?, fromStarted_stepRecords hsteps]
    by_cases hmem : stepId ∈ d.steps <;> simp [hmem]
  unclaimed stepId record hrec := by
    rw [fromStarted_stepRecords hsteps] at hrec
    split at hrec
    · cases hrec
      exact ⟨.inl rfl, rfl, rfl, rfl, rfl, rfl⟩
    · cases hrec
  stepRecordHistory := rfl
  stepDeadlines := rfl
  retiredDeadlineClaims := rfl
  lateStepResults := rfl
  idempotencyKeys := rfl
  leaseRenewals := rfl
  hostHandoffs := rfl
  childGroups := rfl
  executionReceiptLinks := rfl
  executionReceiptAdoptions := rfl
  lifecycle := rfl
  completedAt := rfl
  interventions := rfl
  guardApprovals := rfl
  guardDeferrals := rfl
  reasons := rfl
  transitions := rfl
  participantBindings := rfl
  successorPlan := rfl

theorem fresh_carryStep {i : CeremonyInstance} (h : FreshInstance d context i)
    (evidence : CarriedEvidence) : FreshInstance d context (carryStep i evidence) := by
  unfold carryStep
  split
  case isFalse => exact h
  case isTrue hcontains =>
    have hmem : evidence.successorStepId ∈ i.stepRecords := by simpa using hcontains
    refine { h with records := fun stepId => ?_, unclaimed := fun stepId record hrec => ?_ }
    · rw [mem_insert, Std.LawfulEqCmp.compare_eq_iff_eq]
      constructor
      · rintro (rfl | hold)
        · exact (h.records _).mp hmem
        · exact (h.records _).mp hold
      · exact fun hnew => .inr ((h.records _).mpr hnew)
    · simp only [getElem?_insert] at hrec
      split at hrec
      · cases hrec
        exact ⟨.inr rfl, rfl, h.currentStateVisit, h.currentStateIteration, rfl, rfl⟩
      · exact h.unclaimed stepId record hrec

theorem fresh_carried {i : CeremonyInstance} (h : FreshInstance d context i)
    (carried : List CarriedEvidence) : FreshInstance d context (carried.foldl carryStep i) := by
  induction carried generalizing i with
  | nil => exact h
  | cons evidence rest ih => exact ih (fresh_carryStep h evidence)

end CeremonyInstance

/-- Folding an opening event and at most one more of the two an opening may add. -/
theorem rehydrate_openingBatch {started : CeremonyInstanceStarted}
    (fresh : FreshInstance d context (fromStarted started))
    (h : rehydrate (openingBatch started recollection now) = .ok i) :
    FreshInstance d context i := by
  unfold openingBatch at h
  cases hrecalled : recollection.filter fun recalled => !recalled.entries.isEmpty with
  | none =>
    rw [hrecalled] at h
    cases h
    exact fresh
  | some recalled =>
    rw [hrecalled] at h
    cases h
    exact { fresh with }

theorem fresh_decideOpening {id : CeremonyId} {bound : Option CeremonyDefinitionDigest}
    {lineage : Option CeremonyLineage} {account : Option BudgetAccountId}
    (accepted : decideOpening id d context bound lineage account recollection now = .ok events)
    (folded : rehydrate events = .ok i) : FreshInstance d context i := by
  simp only [decideOpening, bind_eq_ok, pure_eq_ok] at accepted
  obtain ⟨started, hstarted, rfl⟩ := accepted
  obtain ⟨hname, hver, hstate, hsteps, hctx⟩ := opening_eq_ok hstarted
  exact rehydrate_openingBatch (fresh_fromStarted hname hver hstate hsteps hctx) folded

/-- A successor is what its start opens, with the carried work folded in. -/
theorem startSuccessor_folded {id : CeremonyId} {published : PublishedCeremonyDefinition}
    {succession : CeremonySuccession} {plan : SuccessionPlan}
    (accepted : decideStartSuccessor id published context succession plan now =
      .ok events) (folded : rehydrate events = .ok i) :
    ∃ j at_, FreshInstance published.definition context j ∧
      i = { plan.carried.foldl carryStep j with updatedAt := at_ } := by
  simp only [decideStartSuccessor, bind_eq_ok, pure_eq_ok] at accepted
  obtain ⟨started, hstarted, rfl⟩ := accepted
  obtain ⟨hname, hver, hstate, hsteps, hctx⟩ := opening_eq_ok hstarted
  have fresh : FreshInstance published.definition context (fromStarted
      { started with succession := some succession }) :=
    fresh_fromStarted hname hver hstate hsteps hctx
  split at folded
  · rename_i hempty
    cases folded
    exact ⟨_, _, fresh, by rw [List.isEmpty_iff.mp hempty]; rfl⟩
  · cases folded
    exact ⟨_, _, fresh, rfl⟩

theorem Opened.fresh {opening : CeremonyOpening} (h : Opened d opening events i) :
    FreshInstance d opening.context i := by
  obtain ⟨rfl, accepted, folded⟩ := h
  cases opening with
  | start | startBound | startBoundChild | startBoundBudgeted | startBoundBudgetedChild =>
    exact fresh_decideOpening accepted folded
  | startSuccessor =>
    obtain ⟨j, at_, fresh, rfl⟩ := startSuccessor_folded accepted folded
    exact { fresh_carried fresh _ with }

/-! ## Rehearsals -/

/-- Open a ceremony and decide a script of commands that meet a condition: the opened session, the
batches decided and the session they lead to. -/
def rehearse (opening : CeremonyOpening) (ok : CeremonyInstance → CeremonyCommand → Bool)
    (script : List (CeremonyInstance → CeremonyCommand)) :
    Option (CeremonyInstance × List (CeremonyCommand × List CeremonyEvent) × CeremonyInstance) :=
  match opening.decide >>= CeremonyInstance.rehydrate with
  | .ok i => ((machine opening.definition).exec ok i script).map fun (trace, t) => (i, trace, t)
  | .error _ => none

section

variable (opening : CeremonyOpening) (script : List (CeremonyInstance → CeremonyCommand))
  (P : CeremonyInstance → List (CeremonyCommand × List CeremonyEvent) → CeremonyInstance → Prop)
  [∀ i trace t, Decidable (P i trace t)]

theorem exists_run_of_rehearse (ok : CeremonyInstance → CeremonyCommand → Bool)
    (h : (rehearse opening ok script).any (fun (i, trace, t) => P i trace t) = true) :
    ∃ events i trace t, Opened opening.definition opening events i ∧
      (machine opening.definition).Run (fun i c => ok i c = true) i trace t ∧ P i trace t := by
  rw [Option.any_eq_true] at h
  obtain ⟨outcome, hrehearse, hp⟩ := h
  unfold rehearse at hrehearse
  split at hrehearse
  case h_2 => simp at hrehearse
  case h_1 i hopening =>
    rw [bind_eq_ok] at hopening
    obtain ⟨events, hacc, hfolded⟩ := hopening
    rw [Option.map_eq_some_iff] at hrehearse
    obtain ⟨⟨trace, t⟩, hexec, rfl⟩ := hrehearse
    exact ⟨events, i, trace, t, ⟨rfl, hacc, hfolded⟩, Machine.exec_run hexec, of_decide_eq_true hp⟩

def anyCommand (_ : CeremonyInstance) (_ : CeremonyCommand) : Bool := true

theorem exists_run_of_script
    (h : (rehearse opening anyCommand script).any (fun (i, trace, t) => P i trace t) = true) :
    ∃ events i trace t, Opened opening.definition opening events i ∧
      (machine opening.definition).Run (fun _ _ => True) i trace t ∧ P i trace t := by
  obtain ⟨events, i, trace, t, hopened, hrun, hp⟩ :=
    exists_run_of_rehearse opening script P anyCommand h
  exact ⟨events, i, trace, t, hopened, hrun.mono fun _ _ _ => trivial, hp⟩

end

/-! ## Samples -/

def openState : StateId := ⟨"OPEN", .refl true⟩
def doneState : StateId := ⟨"DONE", .refl true⟩
def finishTrigger : TransitionTrigger := ⟨"finish", .refl true⟩
def firstVersion : CeremonyVersion := ⟨"1.0", .refl true⟩
def agentHandler : StepHandlerKind := ⟨"agent", .refl true⟩
def author : RoleId := ⟨"author", .refl true⟩
def oneMillisecond : Timeout := ⟨.fromMillis 1, by decide⟩

def finishing (requiredGuards : List GuardName) : CeremonyTransition :=
  ⟨openState, doneState, finishTrigger, requiredGuards⟩

/-- The smallest ceremony: one move from the initial state to the final one. -/
def oneMoveDefinition : CeremonyDefinition :=
  (CeremonyDefinition.new ⟨"one_move", .refl true⟩ firstVersion none [] []
    [.initial openState, .terminal doneState]
    [finishing []]
    [] [] []).get (by decide +kernel)

def openingOf (d : CeremonyDefinition) : CeremonyOpening :=
  .start ⟨"ceremony-1", .refl true⟩ d .empty none (.afterEpoch 0)

/-- The move that fires a trigger at an instant, by no role in particular. -/
def moveAt (trigger : TransitionTrigger) (now : OffsetDateTime) : CeremonyCommand :=
  .applyTransition ⟨none, trigger, now⟩

/-- The start of a step by its own role, under a lease from `now` to `expiresAt`. -/
def startAt (stepId : StepId) (idempotencyKey : IdempotencyKey) (now expiresAt : OffsetDateTime)
    (h : decide (now < expiresAt) = true) : CeremonyCommand :=
  .startStep
    { roleId := none
      stepId
      lease := ⟨⟨"host-1", by decide⟩, idempotencyKey, now, expiresAt, none, of_decide_eq_true h⟩
      now
      maxParallelCeiling := ⟨8, by decide, by decide⟩
      budgetReservationId := none }

/-- The fence of the claim a session holds on a step; a text of zeros where it holds none. -/
def claimFenceOf (i : CeremonyInstance) (stepId : StepId) : StepClaimFence :=
  match i.stepClaimFence stepId with
  | .ok fence => fence
  | .error _ => ⟨String.ofList (List.replicate 64 '0'), by decide⟩

def resultAt (stepId : StepId) (result : StepResult) (now : OffsetDateTime)
    (i : CeremonyInstance) : CeremonyCommand :=
  .applyStepResult ⟨stepId, claimFenceOf i stepId, result, now⟩

def completedWith (output : Attributes) : StepResult where
  status := .completed
  output := ⟨output⟩
  errorMessage := none
  failureKind := none
  valid := by decide

end Made
