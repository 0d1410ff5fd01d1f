import Made.Runs.Records

/-!
# Step deadlines

A start that seals a deadline files it under its step, and every event that finishes the claim
takes it out again.  A move does not: it resets the records of the state it enters and leaves the
deadlines as they are.  A claim that was left behind with an expired lease keeps its deadline, and
when its state is entered again the sweep fails the pending record of the new visit.
-/

namespace Made

open EventSourcing

namespace CeremonyInstance

variable {d : CeremonyDefinition} {i t : CeremonyInstance} {e : CeremonyEvent}

/-- The step is in progress under exactly the claim the deadline was sealed for. -/
def DeadlineIsLive (i : CeremonyInstance) (stepId : StepId) (deadline : StepDeadline) : Prop :=
  ∃ record, i.stepRecords[stepId]? = some record ∧ record.status = .inProgress ∧
    record.stateVisit = deadline.stateVisit ∧ record.stateIteration = deadline.stateIteration ∧
    record.iteration = deadline.stepIteration ∧ record.attempt = deadline.attempt ∧
    i.stepClaimFence stepId = .ok deadline.claimFence

def DeadlinesLive (i : CeremonyInstance) : Prop :=
  ∀ (stepId : StepId) (deadline : StepDeadline),
    i.stepDeadlines[stepId]? = some deadline → i.DeadlineIsLive stepId deadline

theorem DeadlineIsLive.of_record_eq {stepId : StepId} {deadline : StepDeadline}
    (h : i.DeadlineIsLive stepId deadline) (hid : t.id = i.id)
    (hrec : t.stepRecords[stepId]? = i.stepRecords[stepId]?) :
    t.DeadlineIsLive stepId deadline := by
  obtain ⟨record, hget, hs, hvisit, hiter, hstep, hatt, hfence⟩ := h
  have ht : t.stepRecords[stepId]? = some record := hrec.trans hget
  refine ⟨record, ht, hs, hvisit, hiter, hstep, hatt, ?_⟩
  rw [stepClaimFence_eq ht, hid, ← stepClaimFence_eq hget]
  exact hfence

theorem deadlineIsLive_of_started {e : StepStarted} {step : CeremonyStep}
    {record : StepExecutionRecord} {deadline : StepDeadline} (placed : RecordsPlaced d i)
    (admitted : StartAdmitted d i e step record) (hid : t.id = i.id)
    (hrec : t.stepRecords[e.stepId]? = some (startedRecord record e))
    (hdue : e.deadline = some deadline) : t.DeadlineIsLive e.stepId deadline := by
  obtain ⟨-, hvisit, hiter, hstep, hatt, hfence⟩ :=
    admitted.deadline_eq deadline hdue
  have hstepId : step.id = e.stepId := d.step_id_of_getElem? admitted.step_eq
  have hplaced := placed.placed step record (by rw [hstepId]; exact admitted.step_eq)
    admitted.inState (by rw [hstepId]; exact admitted.record_eq)
  refine ⟨startedRecord record e, hrec, rfl, hplaced.1.trans hvisit.symm,
    hplaced.2.trans hiter.symm, hstep.symm, hatt.symm, ?_⟩
  rw [stepClaimFence_eq hrec, hid]
  exact hfence

/-- A move into a state whose steps have no standing deadline. -/
def EntersWithoutDeadlines (i : CeremonyInstance) (e : CeremonyEvent) : Prop :=
  ∀ applied destination, e = .transitionApplied applied → applied.destination = some destination →
    ∀ stepId ∈ destination.stepIds, i.stepDeadlines[stepId]? = none

theorem DeadlinesLive.step (h : i.DeadlinesLive) (placed : RecordsPlaced d i)
    (identity : SameIdentity i t) (execution : ExecutionStep d i e t)
    (enters : i.EntersWithoutDeadlines e) : t.DeadlinesLive := by
  intro stepId deadline hget
  cases claimStep_of_execution execution stepId with
  | kept record_eq deadline_eq =>
    rw [deadline_eq] at hget
    exact (h stepId deadline hget).of_record_eq identity.id record_eq
  | started e step record admitted record_eq deadline_eq =>
    rw [deadline_eq] at hget
    exact deadlineIsLive_of_started placed admitted identity.id record_eq hget
  | renewed e record lease admitted record_eq deadline_eq =>
    rw [deadline_eq] at hget
    obtain ⟨record', hrecord', hs, hvisit, hiter, hstep, hatt, hfence⟩ :=
      h e.stepId deadline hget
    rw [admitted.record_eq, Option.some.injEq] at hrecord'
    subst hrecord'
    refine ⟨_, record_eq, hs, hvisit, hiter, hstep, hatt, ?_⟩
    rw [stepClaimFence_eq record_eq, identity.id, forRecord_renewLeaseUntil,
      ← stepClaimFence_eq admitted.record_eq]
    exact hfence
  | completed e step record fence admitted record_eq deadline_eq
  | failed e step record fence admitted record_eq deadline_eq =>
    rw [deadline_eq] at hget
    cases hget
  | restarted e admitted mem record_eq deadline_eq =>
    -- The work of the state is complete, so none of its steps is in progress.
    rw [deadline_eq] at hget
    obtain ⟨record, hrec, hs, -⟩ := h stepId deadline hget
    rw [admitted.stepIds_eq, List.mem_map] at mem
    obtain ⟨step, hstep, rfl⟩ := mem
    have hcomplete := admitted.complete
    rw [stateWorkIsComplete, Bool.and_eq_true, List.all_eq_true] at hcomplete
    have hsucc := hcomplete.1 step hstep
    rw [hrec] at hsucc
    simp [hs, StepStatus.isSuccess] at hsucc
  | entered e transition destination admitted mem record_eq deadline_eq =>
    rw [deadline_eq, enters e destination rfl admitted.destination_eq stepId mem] at hget
    cases hget
  | timedOut e standing record_eq deadline_eq =>
    rw [deadline_eq] at hget
    cases hget

/-! ## Whole runs -/

/-- A command whose move, if it is one, enters a state whose steps have no standing deadline. -/
def entersWithoutDeadlines (d : CeremonyDefinition) (i : CeremonyInstance) : CeremonyCommand → Bool
  | .applyTransition move =>
    (d.transitionForTrigger i.currentState move.trigger).all fun transition =>
      (d.stepsForState transition.to_).all fun step => i.stepDeadlines[step.id]?.isNone
  | _ => true

end CeremonyInstance

open CeremonyInstance

variable {d : CeremonyDefinition} {opening : CeremonyOpening} {events : List CeremonyEvent}
  {i t : CeremonyInstance} {trace : List (CeremonyCommand × List CeremonyEvent)}

theorem entersWithoutDeadlines_sound (d : CeremonyDefinition) :
    (machine d).Sound (fun i c => i.entersWithoutDeadlines d c = true ∧ i.DeadlinesKeyed)
      (fun i e => Admitted d i e ∧ i.EntersWithoutDeadlines e) := by
  intro i command events t meets accepted folded
  have hpath := machine_sound d (fun i c => i.entersWithoutDeadlines d c = true) i command events t
    meets accepted folded
  have heach := decide_each accepted
  cases command with
  | applyTransition move =>
    obtain ⟨e, transition, destination, hmove, -, htrigger, rfl⟩ :=
      decideApplyTransition_eq_ok accepted
    cases hpath with
    | cons allowed step path =>
      refine .cons ⟨allowed, ?_⟩ step ?_
      · rintro applied destination' ⟨⟩ hdest stepId hmem
        rw [hmove.destination_eq, Option.some.injEq] at hdest
        subst hdest
        rw [hmove.stepIds_eq, List.mem_map] at hmem
        obtain ⟨step', hstep', rfl⟩ := hmem
        have hmeets := meets.1
        have htr := hmove.transition_eq
        rw [htrigger] at htr
        rw [entersWithoutDeadlines, htr, Option.all_some, List.all_eq_true] at hmeets
        simpa using hmeets step' hstep'
      · -- Only the completion can follow a move in its batch.
        refine (path.and_mem (P := fun e => ∀ applied, e ≠ .transitionApplied applied) ?_).mono
          fun s e' h => ⟨h.1, fun applied _ heq => absurd heq (h.2 applied)⟩
        intro e' hmem applied heq
        split at hmem
        · rw [List.mem_singleton] at hmem
          rw [hmem] at heq
          cases heq
        · simp at hmem
  | _ =>
    refine (hpath.and_mem (P := fun e => ∀ applied, e ≠ .transitionApplied applied) ?_).mono
      fun s e' h => ⟨h.1, fun applied _ heq => absurd heq (h.2 applied)⟩
    rintro e' hmem applied rfl
    obtain ⟨move, hcmd⟩ := transitionApplied_mem_emits (heach _ hmem).1
    cases hcmd

theorem Opened.deadlinesLive (opened : Opened d opening events i) : i.DeadlinesLive := by
  intro stepId deadline hget
  rw [opened.fresh.stepDeadlines] at hget
  simp at hget

/-- Along a path of such events the records stay placed and the deadlines live. -/
theorem deadlinesLive_of_path {stream : List CeremonyEvent}
    (path : (machine d).Path (fun i e => Admitted d i e ∧ i.EntersWithoutDeadlines e) i stream t)
    (placed : RecordsPlaced d i) (live : i.DeadlinesLive) : t.DeadlinesLive := by
  have hboth : RecordsPlaced d t ∧ t.DeadlinesLive := by
    refine path.invariant (I := fun s => RecordsPlaced d s ∧ s.DeadlinesLive) ?_ ⟨placed, live⟩
    intro s e u hadm happ hs
    have heffects := effects_of_admitted hadm.1 happ
    exact ⟨hs.1.step heffects.execution, hs.2.step hs.1 heffects.identity heffects.execution hadm.2⟩
  exact hboth.2

/-- In a run whose moves enter states without standing deadlines every deadline is live in every
state reached, and a deadline that a sweep finds exceeded is live when it is. -/
theorem step_deadlines_stay_live (opened : Opened d opening events i)
    (run : (machine d).Run (fun i c => i.entersWithoutDeadlines d c = true) i trace t) :
    ∀ first rest s, Machine.stream trace = first ++ rest → i.applyAll first = .ok s →
      (∀ (stepId : StepId) (deadline : StepDeadline),
        s.stepDeadlines[stepId]? = some deadline → s.DeadlineIsLive stepId deadline) ∧
      ∀ exceeded after, rest = .stepDeadlineExceeded exceeded :: after →
        s.DeadlineIsLive exceeded.deadline.stepId exceeded.deadline := by
  intro first rest s hsplit hfolded
  have hpath := (opened.keyed_run run).path (entersWithoutDeadlines_sound d)
  rw [hsplit] at hpath
  obtain ⟨hfirst, hrest⟩ := hpath.split_of_fold (by rwa [machine_fold])
  have hlive := deadlinesLive_of_path hfirst opened.recordsPlaced opened.deadlinesLive
  refine ⟨hlive, ?_⟩
  rintro exceeded after rfl
  cases hrest with
  | cons allowed step path =>
    obtain ⟨-, -, hstanding, -⟩ := allowed.1
    exact hlive _ _ hstanding

/-! ## A claim left behind -/

/-- A draft with a millisecond to finish, in a state that can be left and entered again. -/
def parkingDefinition : CeremonyDefinition :=
  (CeremonyDefinition.newWithTransitionBudgets ⟨"parking", .refl true⟩ firstVersion none [] []
    [.initial openState, .intermediate ⟨"PARKED", .refl true⟩, .terminal doneState]
    [⟨openState, ⟨"PARKED", .refl true⟩, ⟨"park", .refl true⟩, []⟩,
      ⟨⟨"PARKED", .refl true⟩, openState, ⟨"back", .refl true⟩, []⟩,
      finishing []]
    [.new ⟨"draft", .refl true⟩ openState agentHandler .empty .singleAttempt (some oneMillisecond)]
    [] [.of author (.step ⟨"draft", .refl true⟩) []]
    (some (.of 8 (.refl true))) none).get (by decide +kernel)

/-- The draft is claimed until a hundred nanoseconds; its deadline is a millisecond later. -/
def parkedStart : CeremonyCommand :=
  startAt ⟨"draft", .refl true⟩ ⟨"draft-1", .refl true⟩ (.afterEpoch 1) (.afterEpoch 100)
    (.refl true)

def park : CeremonyCommand := moveAt ⟨"park", .refl true⟩ (.afterEpoch 200)

def unpark : CeremonyCommand := moveAt ⟨"back", .refl true⟩ (.afterEpoch 300)

def draftId : StepId := ⟨"draft", .refl true⟩

/-- Whether the record of the draft has the status, in the given visit of its state. -/
def draftIs (status : StepStatus) (visit : Nat) (i : CeremonyInstance) : Bool :=
  i.stepRecords[draftId]?.any fun record =>
    decide (record.status = status) && decide (record.stateVisit.val = visit)

def lateSweep : CeremonyCommand := .enforceCeremonyDeadlines ⟨2000000, by decide⟩

/-- A draft in progress with a standing deadline, in a run that meets the condition. -/
theorem claimed_draft_has_live_deadline :
    ∃ (events : List CeremonyEvent) (i : CeremonyInstance)
      (trace : List (CeremonyCommand × List CeremonyEvent)) (t : CeremonyInstance),
      Opened parkingDefinition (openingOf parkingDefinition) events i ∧
      (machine parkingDefinition).Run
        (fun i c => i.entersWithoutDeadlines parkingDefinition c = true) i trace t ∧
      ∃ deadline, t.stepDeadlines[draftId]? = some deadline ∧
        t.DeadlineIsLive draftId deadline := by
  obtain ⟨events, i, trace, t, hopened, hrun, hstanding⟩ := exists_run_of_rehearse
    (openingOf parkingDefinition) [fun _ => parkedStart]
    (fun _ _ t => t.stepDeadlines[draftId]?.isSome = true)
    (entersWithoutDeadlines parkingDefinition) (by decide +kernel)
  obtain ⟨deadline, hdue⟩ := Option.isSome_iff_exists.mp hstanding
  have hfold := (hopened.path hrun).fold_eq
  have hlive := step_deadlines_stay_live (d := parkingDefinition) hopened hrun
    (Machine.stream trace) [] t (List.append_nil _).symm (by rwa [machine_fold] at hfold)
  exact ⟨events, i, trace, t, hopened, hrun, deadline, hdue, hlive.1 _ _ hdue⟩

/-- Claimed, left behind and entered again: the deadline of the first visit stands while the record
is pending in the third, and the sweep fails that record. -/
theorem stale_deadline_fails_a_pending_step :
    ∃ (events : List CeremonyEvent) (i : CeremonyInstance)
      (trace : List (CeremonyCommand × List CeremonyEvent)) (t : CeremonyInstance),
      Opened parkingDefinition (openingOf parkingDefinition) events i ∧
      (machine parkingDefinition).Run (fun _ _ => True) i trace t ∧
      draftIs .pending 3 t = true ∧
      (∃ deadline, t.stepDeadlines[draftId]? = some deadline ∧
        ¬ t.DeadlineIsLive draftId deadline) ∧
      ((t.decide parkingDefinition lateSweep).toOption.map (·.map CeremonyEvent.eventType)) =
        some [.stepDeadlineExceeded] ∧
      ((t.decide parkingDefinition lateSweep >>= t.applyAll).toOption.map (draftIs .failed 3)) =
        some true := by
  obtain ⟨events, i, trace, t, hopened, hrun, hstanding, hpend, hswept⟩ := exists_run_of_script
    (openingOf parkingDefinition) [fun _ => parkedStart, fun _ => park, fun _ => unpark]
    (fun _ _ t => t.stepDeadlines[draftId]?.isSome = true ∧ draftIs .pending 3 t = true ∧
      ((t.decide parkingDefinition lateSweep).toOption.map (·.map CeremonyEvent.eventType)) =
        some [.stepDeadlineExceeded] ∧
      ((t.decide parkingDefinition lateSweep >>= t.applyAll).toOption.map (draftIs .failed 3)) =
        some true) (by decide +kernel)
  obtain ⟨deadline, hdue⟩ := Option.isSome_iff_exists.mp hstanding
  refine ⟨events, i, trace, t, hopened, hrun, hpend, ⟨deadline, hdue, ?_⟩, hswept⟩
  rintro ⟨record, hrec, hs, -⟩
  simp [draftIs, hrec, hs] at hpend

end Made
