import Made.Runs.Effects

/-!
# Records and their claims

What an admitted event does to the record and the deadline of one step, and the invariant of the
records that every later argument about claims starts from: records exist for the declared steps,
exactly the records in progress hold a lease, and the records of the current state carry its
coordinates.
-/

namespace Made

open EventSourcing Std StepExecutionRecord CeremonyEvent ExtTreeMap

/-- The step whose claim an event starts, renews, finishes or retires. -/
def CeremonyEvent.claimStepId : CeremonyEvent → Option StepId
  | .stepStarted e => some e.stepId
  | .stepLeaseRenewed e => some e.stepId
  | .stepCompleted e => some e.stepId
  | .stepFailed e => some e.stepId
  | .stepDeadlineExceeded e => some e.deadline.stepId
  | _ => none

theorem CeremonyEvent.claimStepId_of_quiet {e : CeremonyEvent} (h : e.touchesExecution = false) :
    e.claimStepId = none := by
  cases e <;> first | rfl | cases h

namespace CeremonyInstance

variable {d : CeremonyDefinition} {i t : CeremonyInstance} {e : CeremonyEvent} {stepId : StepId}
  {record : StepExecutionRecord}

/-! ## Fences -/

theorem stepClaimFence_eq (h : i.stepRecords[stepId]? = some record) :
    i.stepClaimFence stepId = StepClaimFence.forRecord i.id stepId record := by
  simp [stepClaimFence, h, Outcome.okOr]

/-- A renewal moves the end of a lease that the fence does not read. -/
theorem forRecord_renewLeaseUntil (id : CeremonyId) (stepId : StepId)
    (record : StepExecutionRecord) (expiresAt : OffsetDateTime) :
    StepClaimFence.forRecord id stepId (record.renewLeaseUntil expiresAt) =
      StepClaimFence.forRecord id stepId record := rfl

/-! ## One step of one event -/

def startedRecord (record : StepExecutionRecord) (e : StepStarted) : StepExecutionRecord :=
  (record.withStarted e.lease e.attempt (claimedRoleOf e)).withBudgetReservation
    e.budgetReservationId

/-- What an admitted event does to the record and the deadline of one step. -/
inductive ClaimStep (d : CeremonyDefinition) (i : CeremonyInstance) :
    CeremonyEvent → CeremonyInstance → StepId → Prop where
  | kept {e : CeremonyEvent} {t : CeremonyInstance} {stepId : StepId}
      (record_eq : t.stepRecords[stepId]? = i.stepRecords[stepId]?)
      (deadline_eq : t.stepDeadlines[stepId]? = i.stepDeadlines[stepId]?)
      (other : e.claimStepId ≠ some stepId) : ClaimStep d i e t stepId
  | started {t : CeremonyInstance} (e : StepStarted) (step : CeremonyStep)
      (record : StepExecutionRecord) (admitted : StartAdmitted d i e step record)
      (record_eq : t.stepRecords[e.stepId]? = some (startedRecord record e))
      (deadline_eq : t.stepDeadlines[e.stepId]? = e.deadline) :
      ClaimStep d i (.stepStarted e) t e.stepId
  | renewed {t : CeremonyInstance} (e : StepLeaseRenewed) (record : StepExecutionRecord)
      (lease : StepLease) (admitted : RenewalAdmitted d i e record lease)
      (record_eq : t.stepRecords[e.stepId]? = some (record.renewLeaseUntil e.expiresAt))
      (deadline_eq : t.stepDeadlines[e.stepId]? = i.stepDeadlines[e.stepId]?) :
      ClaimStep d i (.stepLeaseRenewed e) t e.stepId
  | completed {t : CeremonyInstance} (e : StepCompleted) (step : CeremonyStep)
      (record : StepExecutionRecord) (fence : StepClaimFence)
      (admitted : CompletionAdmitted d i e step record fence)
      (record_eq : t.stepRecords[e.stepId]? = some (completedRecord record e))
      (deadline_eq : t.stepDeadlines[e.stepId]? = none) :
      ClaimStep d i (.stepCompleted e) t e.stepId
  | failed {t : CeremonyInstance} (e : StepFailed) (step : CeremonyStep)
      (record : StepExecutionRecord) (fence : StepClaimFence)
      (admitted : FailureAdmitted d i e step record fence)
      (record_eq : t.stepRecords[e.stepId]? = some (record.withResult e.result))
      (deadline_eq : t.stepDeadlines[e.stepId]? = none) :
      ClaimStep d i (.stepFailed e) t e.stepId
  | restarted {t : CeremonyInstance} {stepId : StepId} (e : StateIterationStarted)
      (admitted : IterationAdmitted d i e) (mem : stepId ∈ e.stepIds)
      (record_eq : t.stepRecords[stepId]? =
        some ((StepExecutionRecord.pendingStateIteration e.stateIteration).withStateVisit
          i.currentStateVisit))
      (deadline_eq : t.stepDeadlines[stepId]? = i.stepDeadlines[stepId]?) :
      ClaimStep d i (.stateIterationStarted e) t stepId
  | entered {t : CeremonyInstance} {stepId : StepId} (e : TransitionApplied)
      (transition : CeremonyTransition) (destination : StateVisitEntry)
      (admitted : MoveAdmitted d i e transition destination) (mem : stepId ∈ destination.stepIds)
      (record_eq : t.stepRecords[stepId]? =
        some (StepExecutionRecord.pending.withStateVisit destination.stateVisit))
      (deadline_eq : t.stepDeadlines[stepId]? = i.stepDeadlines[stepId]?) :
      ClaimStep d i (.transitionApplied e) t stepId
  | timedOut {t : CeremonyInstance} (e : StepDeadlineExceeded)
      (standing : i.stepDeadlines[e.deadline.stepId]? = some e.deadline)
      (record_eq : t.stepRecords[e.deadline.stepId]? =
        i.stepRecords[e.deadline.stepId]?.map (·.withResult StepResult.timedOut))
      (deadline_eq : t.stepDeadlines[e.deadline.stepId]? = none) :
      ClaimStep d i (.stepDeadlineExceeded e) t e.deadline.stepId

theorem takeStepRecord_eq (h : i.stepRecords[stepId]? = some record) :
    i.takeStepRecord stepId = record := by
  simp [takeStepRecord, h]

theorem claimStep_of_execution (execution : ExecutionStep d i e t) (stepId : StepId) :
    ClaimStep d i e t stepId := by
  cases execution with
  | other quiet same =>
    refine .kept (by rw [same.stepRecords]) (by rw [same.stepDeadlines]) ?_
    rw [claimStepId_of_quiet quiet]
    simp
  | started e step record admitted =>
    by_cases heq : stepId = e.stepId
    · subst heq
      refine .started e step record admitted ?_ ?_
      · simp [applyStepStarted, takeStepRecord_eq admitted.record_eq, startedRecord]
      · cases hdue : e.deadline with
        | none | some deadline => simp [applyStepStarted, hdue]
    · refine .kept (Map.getElem?_insert_of_ne heq) ?_ (by simpa [claimStepId] using Ne.symm heq)
      cases hdue : e.deadline with
      | none => simpa [applyStepStarted, hdue] using Map.getElem?_erase_of_ne heq
      | some deadline => simpa [applyStepStarted, hdue] using Map.getElem?_insert_of_ne heq
  | renewed e record lease admitted =>
    have hrecs : (i.applyStepLeaseRenewed e).stepRecords =
        i.stepRecords.insert e.stepId (record.renewLeaseUntil e.expiresAt) := by
      simp [applyStepLeaseRenewed, admitted.record_eq]
    by_cases heq : stepId = e.stepId
    · subst heq
      refine .renewed e record lease admitted ?_ rfl
      rw [hrecs, getElem?_insert_self]
    · refine .kept ?_ rfl (by simpa [claimStepId] using Ne.symm heq)
      rw [hrecs, Map.getElem?_insert_of_ne heq]
  | completed e step record fence admitted =>
    have hrecs := applyStepCompleted_stepRecords (i := i) e
    rw [takeStepRecord_eq admitted.claim.record_eq] at hrecs
    have hdeadlines : (i.applyStepCompleted e).stepDeadlines = i.stepDeadlines.erase e.stepId := by
      obtain ⟨_, _, hshape⟩ := applyStepCompleted_eq i e
      rw [hshape]
    by_cases heq : stepId = e.stepId
    · subst heq
      refine .completed e step record fence admitted ?_ ?_
      · rw [hrecs, getElem?_insert_self]
      · rw [hdeadlines, getElem?_erase_self]
    · refine .kept ?_ ?_ (by simpa [claimStepId] using Ne.symm heq)
      · rw [hrecs, Map.getElem?_insert_of_ne heq]
      · rw [hdeadlines, Map.getElem?_erase_of_ne heq]
  | failed e step record fence admitted =>
    by_cases heq : stepId = e.stepId
    · subst heq
      refine .failed e step record fence admitted ?_ getElem?_erase_self
      simp [applyStepFailed, takeStepRecord_eq admitted.claim.record_eq]
    · exact .kept (Map.getElem?_insert_of_ne heq) (Map.getElem?_erase_of_ne heq)
        (by simpa [claimStepId] using Ne.symm heq)
  | iterated e admitted =>
    have hrecs := applyStateIterationStarted_stepRecords (i := i) e stepId
    have hdeadlines : (i.applyStateIterationStarted e).stepDeadlines = i.stepDeadlines := by
      obtain ⟨_, _, hshape⟩ := applyStateIterationStarted_eq i e
      rw [hshape]
      rfl
    by_cases hmem : stepId ∈ e.stepIds
    · refine .restarted e admitted hmem ?_ (by rw [hdeadlines])
      rw [hrecs, if_pos hmem, admitted.visit_eq]
      rfl
    · refine .kept ?_ (by rw [hdeadlines]) (by simp [claimStepId])
      rw [hrecs, if_neg hmem]
  | moved e transition destination admitted =>
    have hrecs := applyTransitionApplied_stepRecords (i := i) admitted.destination_eq stepId
    have hdeadlines : (i.applyTransitionApplied e).stepDeadlines = i.stepDeadlines := by
      obtain ⟨_, _, hshape⟩ := applyTransitionApplied_eq i admitted.destination_eq
      rw [hshape]
      rfl
    by_cases hmem : stepId ∈ destination.stepIds
    · refine .entered e transition destination admitted hmem ?_ (by rw [hdeadlines])
      rw [hrecs, if_pos hmem]
    · refine .kept ?_ (by rw [hdeadlines]) (by simp [claimStepId])
      rw [hrecs, if_neg hmem]
  | timedOut e notEnded standing result_eq =>
    by_cases heq : stepId = e.deadline.stepId
    · subst heq
      refine .timedOut e standing ?_ getElem?_erase_self
      cases hrec : i.stepRecords[e.deadline.stepId]? with
      | none => simp [applyStepDeadlineExceeded, hrec]
      | some record => simp [applyStepDeadlineExceeded, hrec, result_eq]
    · refine .kept ?_ (Map.getElem?_erase_of_ne heq) (by simpa [claimStepId] using Ne.symm heq)
      cases hrec : i.stepRecords[e.deadline.stepId]? with
      | none => simp [applyStepDeadlineExceeded, hrec]
      | some record =>
        simpa [applyStepDeadlineExceeded, hrec] using Map.getElem?_insert_of_ne heq
  | late => exact .kept rfl rfl (by simp [claimStepId])

/-! ## Where a session stands -/

/-- What an admitted event does to the position of a session. -/
inductive PositionStep (d : CeremonyDefinition) (i : CeremonyInstance) :
    CeremonyEvent → CeremonyInstance → Prop where
  | stayed {e : CeremonyEvent} {t : CeremonyInstance} (state_eq : t.currentState = i.currentState)
      (visit_eq : t.currentStateVisit = i.currentStateVisit)
      (iteration_eq : t.currentStateIteration = i.currentStateIteration) : PositionStep d i e t
  | iterated {t : CeremonyInstance} (e : StateIterationStarted)
      (admitted : IterationAdmitted d i e) (state_eq : t.currentState = i.currentState)
      (visit_eq : t.currentStateVisit = i.currentStateVisit)
      (iteration_eq : t.currentStateIteration = e.stateIteration) :
      PositionStep d i (.stateIterationStarted e) t
  | moved {t : CeremonyInstance} (e : TransitionApplied) (transition : CeremonyTransition)
      (destination : StateVisitEntry) (admitted : MoveAdmitted d i e transition destination)
      (state_eq : t.currentState = transition.to_)
      (visit_eq : t.currentStateVisit = destination.stateVisit)
      (iteration_eq : t.currentStateIteration = StateIteration.first) :
      PositionStep d i (.transitionApplied e) t

theorem positionStep_of_execution (execution : ExecutionStep d i e t) : PositionStep d i e t := by
  cases execution with
  | other _ same =>
    exact .stayed same.currentState same.currentStateVisit same.currentStateIteration
  | started | renewed => exact .stayed rfl rfl rfl
  | completed e =>
    obtain ⟨_, _, hshape⟩ := applyStepCompleted_eq i e
    rw [hshape]
    exact .stayed rfl rfl rfl
  | failed => exact .stayed rfl rfl rfl
  | iterated e admitted =>
    obtain ⟨_, _, hshape⟩ := applyStateIterationStarted_eq i e
    rw [hshape]
    exact .iterated e admitted rfl rfl rfl
  | moved e transition destination admitted =>
    obtain ⟨_, _, hshape⟩ := applyTransitionApplied_eq i admitted.destination_eq
    rw [hshape]
    exact .moved e transition destination admitted admitted.toState_eq rfl rfl
  | timedOut | late => exact .stayed rfl rfl rfl

/-! ## The invariant of the records -/

/-- Records exist for the declared steps, exactly those in progress hold a lease, and those of the
current state carry its coordinates. -/
structure RecordsPlaced (d : CeremonyDefinition) (i : CeremonyInstance) : Prop where
  declared : ∀ stepId : StepId, i.stepRecords[stepId]?.isSome = (d.step stepId).isSome
  leased : ∀ (stepId : StepId) (record : StepExecutionRecord),
    i.stepRecords[stepId]? = some record →
      (record.status = .inProgress ↔ record.lease.isSome = true)
  placed : ∀ (step : CeremonyStep) (record : StepExecutionRecord),
    d.step step.id = some step → step.stateId = i.currentState →
    i.stepRecords[step.id]? = some record →
      record.stateVisit = i.currentStateVisit ∧ record.stateIteration = i.currentStateIteration

theorem ClaimStep.isSome_eq (h : ClaimStep d i e t stepId)
    (declared : ∀ stepId : StepId, i.stepRecords[stepId]?.isSome = (d.step stepId).isSome) :
    t.stepRecords[stepId]?.isSome = (d.step stepId).isSome := by
  cases h with
  | kept record_eq => rw [record_eq, declared]
  | started e step record admitted record_eq =>
    rw [record_eq, admitted.step_eq]
    rfl
  | renewed e record lease admitted record_eq =>
    rw [record_eq, ← declared, admitted.record_eq]
    rfl
  | completed e step record fence admitted record_eq
  | failed e step record fence admitted record_eq =>
    rw [record_eq, admitted.claim.step_eq]
    rfl
  | restarted e admitted mem record_eq | entered e transition destination admitted mem record_eq =>
    rw [admitted.stepIds_eq, List.mem_map] at mem
    obtain ⟨step, hstep, rfl⟩ := mem
    rw [record_eq, ((d.mem_stepsForState _ _).mp hstep).1]
    rfl
  | timedOut e standing record_eq => rw [record_eq, Option.isSome_map, declared]

theorem withResult_leased (record : StepExecutionRecord) (result : StepResult) :
    (record.withResult result).status = .inProgress ↔
      (record.withResult result).lease.isSome = true := by
  have hs : result.status ≠ .inProgress := result.status_ne_inProgress
  simp [withResult, hs]

theorem completedRecord_leased (record : StepExecutionRecord) (e : StepCompleted) :
    (completedRecord record e).status = .inProgress ↔
      (completedRecord record e).lease.isSome = true := by
  unfold completedRecord
  split
  · simp [pendingCoordinates, withStateVisit, pending]
  · exact withResult_leased record e.result

theorem ClaimStep.leased (h : ClaimStep d i e t stepId)
    (leased : ∀ (stepId : StepId) (record : StepExecutionRecord),
      i.stepRecords[stepId]? = some record →
        (record.status = .inProgress ↔ record.lease.isSome = true))
    (hrec : t.stepRecords[stepId]? = some record) :
    record.status = .inProgress ↔ record.lease.isSome = true := by
  cases h with
  | kept record_eq => exact leased stepId record (record_eq ▸ hrec)
  | started e step before admitted record_eq =>
    rw [record_eq, Option.some.injEq] at hrec
    subst hrec
    simp [startedRecord, withStarted, withBudgetReservation]
  | renewed e before lease admitted record_eq =>
    rw [record_eq, Option.some.injEq] at hrec
    subst hrec
    have hpre := leased _ before admitted.record_eq
    exact hpre
  | completed e step before fence admitted record_eq =>
    rw [record_eq, Option.some.injEq] at hrec
    subst hrec
    exact completedRecord_leased before e
  | failed e step before fence admitted record_eq =>
    rw [record_eq, Option.some.injEq] at hrec
    subst hrec
    exact withResult_leased before e.result
  | restarted e admitted mem record_eq =>
    rw [record_eq, Option.some.injEq] at hrec
    subst hrec
    simp [pendingStateIteration, withStateVisit, pending]
  | entered e transition destination admitted mem record_eq =>
    rw [record_eq, Option.some.injEq] at hrec
    subst hrec
    simp [withStateVisit, pending]
  | timedOut e standing record_eq =>
    rw [record_eq, Option.map_eq_some_iff] at hrec
    obtain ⟨before, -, rfl⟩ := hrec
    exact withResult_leased before _

/-- An event that leaves the session where it is leaves the coordinates of a record. -/
theorem ClaimStep.coordinates (h : ClaimStep d i e t stepId)
    (state_eq : ∀ e', e ≠ .stateIterationStarted e') (moved_eq : ∀ e', e ≠ .transitionApplied e')
    (hrec : t.stepRecords[stepId]? = some record) :
    ∃ before, i.stepRecords[stepId]? = some before ∧ record.stateVisit = before.stateVisit ∧
      record.stateIteration = before.stateIteration := by
  cases h with
  | kept record_eq => exact ⟨record, record_eq ▸ hrec, rfl, rfl⟩
  | started e step before admitted record_eq | renewed e before lease admitted record_eq =>
    rw [record_eq, Option.some.injEq] at hrec
    subst hrec
    exact ⟨before, admitted.record_eq, rfl, rfl⟩
  | completed e step before fence admitted record_eq =>
    rw [record_eq, Option.some.injEq] at hrec
    subst hrec
    refine ⟨before, admitted.claim.record_eq, ?_⟩
    unfold completedRecord
    split
    · exact ⟨rfl, rfl⟩
    · exact ⟨rfl, rfl⟩
  | failed e step before fence admitted record_eq =>
    rw [record_eq, Option.some.injEq] at hrec
    subst hrec
    exact ⟨before, admitted.claim.record_eq, rfl, rfl⟩
  | restarted e => exact absurd rfl (state_eq e)
  | entered e => exact absurd rfl (moved_eq e)
  | timedOut e standing record_eq =>
    rw [record_eq, Option.map_eq_some_iff] at hrec
    obtain ⟨before, hpre, rfl⟩ := hrec
    exact ⟨before, hpre, rfl, rfl⟩

theorem RecordsPlaced.step (h : RecordsPlaced d i) (execution : ExecutionStep d i e t) :
    RecordsPlaced d t := by
  have hclaim := claimStep_of_execution execution
  refine ⟨fun stepId => (hclaim stepId).isSome_eq h.declared,
    fun stepId record hrec => (hclaim stepId).leased h.leased hrec, ?_⟩
  intro step record hstep hstate hrec
  by_cases hiterated : ∃ e', e = .stateIterationStarted e'
  · obtain ⟨started, rfl⟩ := hiterated
    cases execution with
    | other quiet => cases quiet
    | iterated _ admitted =>
      obtain ⟨_, _, hshape⟩ := applyStateIterationStarted_eq i started
      have hcur : (i.applyStateIterationStarted started).currentState = i.currentState := by
        rw [hshape]
        rfl
      have hmem : step.id ∈ started.stepIds := by
        rw [admitted.stepIds_eq, ← hcur]
        exact List.mem_map.mpr ⟨step, (d.mem_stepsForState _ _).mpr ⟨hstep, hstate⟩, rfl⟩
      rw [applyStateIterationStarted_stepRecords, if_pos hmem, Option.some.injEq] at hrec
      subst hrec
      rw [hshape, admitted.visit_eq]
      exact ⟨rfl, rfl⟩
  · by_cases hmoved : ∃ e', e = .transitionApplied e'
    · obtain ⟨applied, rfl⟩ := hmoved
      cases execution with
      | other quiet => cases quiet
      | moved _ transition destination admitted =>
        obtain ⟨_, _, hshape⟩ := applyTransitionApplied_eq i admitted.destination_eq
        have hcur : (i.applyTransitionApplied applied).currentState = transition.to_ := by
          rw [hshape]
          exact admitted.toState_eq
        have hmem : step.id ∈ destination.stepIds := by
          rw [admitted.stepIds_eq, ← hcur]
          exact List.mem_map.mpr ⟨step, (d.mem_stepsForState _ _).mpr ⟨hstep, hstate⟩, rfl⟩
        rw [applyTransitionApplied_stepRecords admitted.destination_eq, if_pos hmem,
          Option.some.injEq] at hrec
        subst hrec
        rw [hshape]
        exact ⟨rfl, rfl⟩
    · obtain ⟨before, hpre, hvisit, hiter⟩ := (hclaim step.id).coordinates
        (fun e' heq => hiterated ⟨e', heq⟩) (fun e' heq => hmoved ⟨e', heq⟩) hrec
      cases positionStep_of_execution execution with
      | stayed state_eq visit_eq iteration_eq =>
        rw [state_eq] at hstate
        obtain ⟨hv, hi⟩ := h.placed step before hstep hstate hpre
        exact ⟨(hvisit.trans hv).trans visit_eq.symm, (hiter.trans hi).trans iteration_eq.symm⟩
      | iterated e' => exact absurd ⟨e', rfl⟩ hiterated
      | moved e' => exact absurd ⟨e', rfl⟩ hmoved

end CeremonyInstance

open CeremonyInstance

variable {d : CeremonyDefinition} {opening : CeremonyOpening} {events : List CeremonyEvent}
  {i t : CeremonyInstance}

theorem Opened.recordsPlaced (opened : Opened d opening events i) : RecordsPlaced d i := by
  have hfresh := opened.fresh
  refine ⟨?_, ?_, ?_⟩
  · intro stepId
    have hmem := hfresh.records stepId
    rw [mem_iff_isSome_getElem?, mem_iff_isSome_getElem?] at hmem
    rw [Bool.eq_iff_iff]
    exact hmem
  · intro stepId record hrec
    obtain ⟨hs, hlease, -⟩ := hfresh.unclaimed stepId record hrec
    rw [hlease]
    rcases hs with hs | hs
    · simp [hs]
    · simp [hs]
  · intro step record hstep hstate hrec
    obtain ⟨-, -, hvisit, hiter, -⟩ := hfresh.unclaimed _ _ hrec
    rw [hfresh.currentStateVisit, hfresh.currentStateIteration]
    exact ⟨hvisit, hiter⟩

/-- The records stay placed in every session. -/
theorem Session.records_stay_placed (s : Session d) : RecordsPlaced d s.current :=
  (s.opened.path s.run).invariant
    (fun _ _ _ admitted happ placed => placed.step (effects_of_admitted admitted happ).execution)
    s.opened.recordsPlaced

/-- Sessions move along declared transitions, and never out of a terminal state. -/
theorem Session.state_is_reached (s : Session d) :
    Relation.ReflTransGen (fun a b => d.isTerminalState a = false ∧
        ∃ trigger, (d.transitionForTrigger a trigger).map (·.to_) = some b)
      d.initialStateId s.current.currentState := by
  refine (s.opened.path s.run).invariant (I := fun i => Relation.ReflTransGen _ _ i.currentState)
    (fun i e t admitted happ reached => ?_) (by rw [s.opened.fresh.currentState])
  cases positionStep_of_execution (effects_of_admitted admitted happ).execution with
  | stayed state_eq | iterated _ _ state_eq => exact state_eq ▸ reached
  | moved e transition destination move state_eq =>
    have hgoing := move.active.notTerminal
    rw [isTerminal, move.active.matched, Bool.true_and] at hgoing
    rw [state_eq]
    exact reached.tail ⟨hgoing, _, by rw [move.transition_eq]; rfl⟩

end Made
