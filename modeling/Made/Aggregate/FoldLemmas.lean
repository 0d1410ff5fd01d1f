import Made.Aggregate.Fold

/-!
# What folding an event changes

Entering a state and restarting one fold over the steps of the state.  Their effect is stated in
two parts: which record every step has afterwards, and that nothing but records and histories
changed.
-/

namespace Made

namespace CeremonyInstance

variable {i t : CeremonyInstance} {e : TransitionApplied} {destination : StateVisitEntry}

/-! ## Folding lists of events -/

@[simp] theorem applyAll_nil : i.applyAll [] = .ok i := rfl

theorem applyAll_cons_eq_ok {e : CeremonyEvent} {rest : List CeremonyEvent} :
    i.applyAll (e :: rest) = .ok t ↔ ∃ j, i.apply e = .ok j ∧ j.applyAll rest = .ok t :=
  Outcome.bind_eq_ok _ _ _

theorem applyAll_append_eq_ok {first rest : List CeremonyEvent} :
    i.applyAll (first ++ rest) = .ok t ↔
      ∃ j, i.applyAll first = .ok j ∧ j.applyAll rest = .ok t := by
  induction first generalizing i with
  | nil => simp
  | cons e first ih =>
    simp only [List.cons_append, applyAll_cons_eq_ok, ih]
    constructor
    · rintro ⟨j, hj, k, hk, hrest⟩
      exact ⟨k, ⟨j, hj, hk⟩, hrest⟩
    · rintro ⟨k, ⟨j, hj, hk⟩, hrest⟩
      exact ⟨j, hj, k, hk, hrest⟩

/-! ## Records -/

def withRecords (i : CeremonyInstance) (records : Map StepId StepExecutionRecord)
    (history : Map StepId (List StepExecutionRecord)) : CeremonyInstance :=
  { i with stepRecords := records, stepRecordHistory := history }

theorem foldl_eq_withRecords (update : CeremonyInstance → StepId → CeremonyInstance)
    (hupdate : ∀ i stepId, ∃ records history, update i stepId = i.withRecords records history)
    (stepIds : List StepId) (i : CeremonyInstance) :
    ∃ records history, stepIds.foldl update i = i.withRecords records history := by
  induction stepIds generalizing i with
  | nil => exact ⟨i.stepRecords, i.stepRecordHistory, rfl⟩
  | cons stepId rest ih =>
    obtain ⟨_, _, hstep⟩ := hupdate i stepId
    rw [List.foldl_cons, hstep]
    exact ih _

/-- A step that writes one record per step leaves the written record for every step of the list
and the old one for every other. -/
theorem foldl_insert_stepRecords {update : CeremonyInstance → StepId → CeremonyInstance}
    {record : StepExecutionRecord}
    (hupdate : ∀ i stepId, (update i stepId).stepRecords = i.stepRecords.insert stepId record)
    (stepIds : List StepId) (i : CeremonyInstance) (stepId : StepId) :
    (stepIds.foldl update i).stepRecords[stepId]? =
      if stepId ∈ stepIds then some record else i.stepRecords[stepId]? := by
  induction stepIds generalizing i with
  | nil => simp
  | cons head rest ih =>
    rw [List.foldl_cons, ih, hupdate, Std.ExtTreeMap.getElem?_insert]
    by_cases hrest : stepId ∈ rest
    · simp [hrest]
    · by_cases hhead : stepId = head
      · subst hhead
        simp [hrest]
      · have hne : compare head stepId ≠ .eq := fun heq =>
          hhead (Std.LawfulEqOrd.eq_of_compare heq).symm
        simp [hrest, hhead, hne]

theorem applyStateIterationStarted_stepRecords (e : StateIterationStarted) (stepId : StepId) :
    (i.applyStateIterationStarted e).stepRecords[stepId]? =
      if stepId ∈ e.stepIds then
        some ((StepExecutionRecord.pendingStateIteration e.stateIteration).withStateVisit
          (e.stateVisit.getD StateVisit.first))
      else i.stepRecords[stepId]? :=
  foldl_insert_stepRecords (fun _ _ => rfl) _ _ _

/-! ## Frames -/

theorem applyStateIterationStarted_eq (i : CeremonyInstance) (e : StateIterationStarted) :
    ∃ records history, i.applyStateIterationStarted e =
      { i.withRecords records history with
        currentStateIteration := e.stateIteration
        updatedAt := e.startedAt } := by
  obtain ⟨records, history, h⟩ := foldl_eq_withRecords
    (restartStep e.stateIteration (e.stateVisit.getD StateVisit.first))
    (fun _ _ => ⟨_, _, rfl⟩) e.stepIds { i with currentStateIteration := e.stateIteration }
  refine ⟨records, history, ?_⟩
  unfold applyStateIterationStarted
  rw [h]
  rfl

theorem applyTransitionApplied_eq (i : CeremonyInstance) (hdest : e.destination = some destination) :
    ∃ records history, i.applyTransitionApplied e =
      { i.withRecords records history with
        currentStateVisit := destination.stateVisit
        stateDeadline := destination.deadline
        currentState := e.transition.toState
        currentStateIteration := StateIteration.first
        transitions := i.transitions ++ [e.transition]
        updatedAt := e.transition.appliedAt } := by
  obtain ⟨records, history, h⟩ := foldl_eq_withRecords
    (resetStep destination.stateVisit) (fun _ _ => ⟨_, _, rfl⟩) destination.stepIds
    { i with
      currentStateVisit := destination.stateVisit
      stateDeadline := destination.deadline }
  refine ⟨records, history, ?_⟩
  unfold applyTransitionApplied
  rw [hdest]
  dsimp only
  rw [enterDestination, h]
  rfl

theorem applyTransitionApplied_stepRecords (hdest : e.destination = some destination)
    (stepId : StepId) :
    (i.applyTransitionApplied e).stepRecords[stepId]? =
      if stepId ∈ destination.stepIds then
        some (StepExecutionRecord.pending.withStateVisit destination.stateVisit)
      else i.stepRecords[stepId]? := by
  unfold applyTransitionApplied
  rw [hdest]
  exact foldl_insert_stepRecords (fun _ _ => rfl) _ _ _

theorem applyStepCompleted_eq (i : CeremonyInstance) (e : StepCompleted) :
    ∃ records history, i.applyStepCompleted e =
      { i.withRecords records history with
        stepDeadlines := i.stepDeadlines.erase e.stepId
        updatedAt := e.finishedAt } := by
  refine ⟨(i.applyStepCompleted e).stepRecords, (i.applyStepCompleted e).stepRecordHistory, ?_⟩
  unfold applyStepCompleted
  cases e.nextIteration <;> rfl

/-- The record a completion leaves: the finished one, or the pending one of the next iteration. -/
def completedRecord (record : StepExecutionRecord) (e : StepCompleted) : StepExecutionRecord :=
  match e.nextIteration with
  | some next => (StepExecutionRecord.pendingCoordinates record.stateIteration next).withStateVisit
      record.stateVisit
  | none => record.withResult e.result

theorem applyStepCompleted_stepRecords (e : StepCompleted) :
    (i.applyStepCompleted e).stepRecords =
      i.stepRecords.insert e.stepId (completedRecord (i.takeStepRecord e.stepId) e) := by
  unfold applyStepCompleted completedRecord
  cases e.nextIteration <;> rfl

def withLinks (i : CeremonyInstance) (links : Map ExecutionOperationId ExecutionReceiptLink)
    (adoptions : Map ExecutionOperationId (Map StepClaimFence ExecutionReceiptLink))
    (updatedAt : OffsetDateTime) : CeremonyInstance :=
  { i with
    executionReceiptLinks := links
    executionReceiptAdoptions := adoptions
    updatedAt }

theorem applyExecutionReceiptLinked_eq (i : CeremonyInstance) (e : ExecutionReceiptLinked) :
    ∃ links adoptions, i.applyExecutionReceiptLinked e =
      i.withLinks links adoptions e.linkedAt := by
  unfold applyExecutionReceiptLinked
  dsimp only
  split
  · exact ⟨_, _, rfl⟩
  · exact ⟨_, _, rfl⟩

theorem applyInterventionResponded_eq (i : CeremonyInstance) (e : InterventionResponded) :
    ∃ interventions reasons updatedAt, i.applyInterventionResponded e =
      { i with interventions, reasons, updatedAt } := by
  unfold applyInterventionResponded
  split
  · exact ⟨_, _, _, rfl⟩
  · dsimp only
    split
    · exact ⟨_, _, _, rfl⟩
    · exact ⟨_, _, _, rfl⟩

theorem applyParticipantsBound_eq (i : CeremonyInstance)
    (bindings : List CeremonyParticipantBinding) :
    ∃ participantBindings updatedAt, i.applyParticipantsBound bindings =
      { i with participantBindings, updatedAt } := by
  unfold applyParticipantsBound
  induction bindings generalizing i with
  | nil => exact ⟨_, _, rfl⟩
  | cons binding rest ih =>
    obtain ⟨bound, at_, h⟩ := ih
      { i with
        participantBindings := i.participantBindings.insert binding.roleId binding
        updatedAt := binding.boundAt }
    exact ⟨bound, at_, h⟩

theorem applyChildSpawnPlanAdopted_eq (i : CeremonyInstance) (e : ChildSpawnPlanAdopted) :
    ∃ childGroups updatedAt, i.applyChildSpawnPlanAdopted e =
      { i with childGroups, updatedAt } := by
  unfold applyChildSpawnPlanAdopted
  split
  · exact ⟨_, _, rfl⟩
  · exact ⟨_, _, rfl⟩

theorem applyChildCompletionAccepted_eq (i : CeremonyInstance) (e : ChildCompletionAccepted) :
    ∃ childGroups updatedAt,
      i.applyChildCompletionAccepted e = { i with childGroups, updatedAt } := by
  unfold applyChildCompletionAccepted
  split
  · exact ⟨_, _, rfl⟩
  · exact ⟨_, _, rfl⟩

theorem applyContextWritten_eq_ok {e : ContextWritten} (h : i.applyContextWritten e = .ok t) :
    ∃ context, i.context.withPatch e.patch = .ok context ∧
      t = { i with context, updatedAt := e.writtenAt } := by
  unfold applyContextWritten at h
  split at h
  case h_1 context hctx =>
    cases h
    exact ⟨context, hctx, rfl⟩
  · cases h

end CeremonyInstance

end Made
