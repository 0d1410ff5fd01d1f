import Made.Runs.Records
import Mathlib.Data.List.Perm.Subperm

/-!
# Live leases

A claim is live until the end of its lease, and only time or an event of its own step ends it.  A
sequential state has one claim in progress, on its first unfinished step; a concurrent state counts
the live claims before it admits another; a move is refused while a step of the state it leaves is
live.  The bounds hold at the instant of every command and, since leases only run out, at every
later one.
-/

namespace Made

open EventSourcing Outcome StepExecutionRecord List

/-! ## Instants -/

/-- The instant a command is sent at; an asserted reason has none. -/
def CeremonyCommand.now? : CeremonyCommand → Option OffsetDateTime
  | .recordHostHandoff command | .bindParticipant command | .startStep command
  | .renewStepLease command | .applyStepResult command | .applyExecutionReceiptResult command
  | .applyTransition command | .approveGuard command | .deferGuard command
  | .requestIntervention command | .respondToIntervention command
  | .respondToInterventionWithEvidence command | .acknowledgeInterventionDelivery command =>
    some command.now
  | .assertReason _ => none
  | .closeIntervention command | .planCeremonyChildren command | .planSuccessor command
  | .adoptChildSpawnPlan command | .acceptChildCompletion command | .pauseCeremony command =>
    some command.now
  | .resumeCeremony now => some now
  | .cancelCeremony command => some command.now
  | .enforceCeremonyDeadlines now => some now

def commandTimes (trace : List (CeremonyCommand × List CeremonyEvent)) : List OffsetDateTime :=
  trace.filterMap (·.1.now?)

/-- The instant at which an event was checked against the leases. -/
def CeremonyEvent.leaseInstant : CeremonyEvent → Option OffsetDateTime
  | .stepStarted e => some e.startedAt
  | .stepLeaseRenewed e => some e.renewedAt
  | .transitionApplied e => some e.transition.appliedAt
  | _ => none

variable {command : CeremonyCommand}

namespace CeremonyInstance

variable {d : CeremonyDefinition} {i t : CeremonyInstance} {e : CeremonyEvent}
  {events : List CeremonyEvent} {now at_ : OffsetDateTime}

theorem decideRenewStepLease_renewedAt {command : RenewStepLease} {e : StepLeaseRenewed}
    (h : i.decideRenewStepLease d command = .ok events) (hmem : .stepLeaseRenewed e ∈ events) :
    e.renewedAt = command.now := by
  simp only [decideRenewStepLease, bind_eq_ok] at h
  obtain ⟨_, _, h⟩ := h
  split at h
  · simp only [bind_eq_ok, pure_eq_ok] at h
    obtain ⟨_, _, rfl⟩ := h
    simp at hmem
  · simp only [decideNewRenewal, bind_eq_ok] at h
    obtain ⟨_, _, _, _, _, _, _, _, _, _, _, _, _, _, _, _, h⟩ := h
    split at h
    · cases h
      simp at hmem
    · cases h
      rw [mem_singleton, CeremonyEvent.stepLeaseRenewed.injEq] at hmem
      rw [hmem]

theorem leaseInstant_of_decide (accepted : i.decide d command = .ok events) (hmem : e ∈ events)
    (h : e.leaseInstant = some at_) : command.now? = some at_ := by
  have heach := (decide_each accepted e hmem).1
  cases e with
  | stepStarted started =>
    cases command with
    | startStep command =>
      obtain ⟨_, _, _, rfl, -, -, -, hnow, -⟩ := decideStartStep_eq_ok accepted
      cases mem_singleton.mp hmem
      rw [← h]
      exact congrArg some hnow.symm
    | _ => simp [emits, resultTypes, CeremonyEvent.eventType] at heach
  | stepLeaseRenewed renewed =>
    cases command with
    | renewStepLease command =>
      rw [← h]
      exact congrArg some (decideRenewStepLease_renewedAt accepted hmem).symm
    | _ => simp [emits, resultTypes, CeremonyEvent.eventType] at heach
  | transitionApplied moved =>
    cases command with
    | applyTransition command =>
      obtain ⟨_, _, _, -, hnow, -, rfl⟩ := decideApplyTransition_eq_ok accepted
      -- The completion of a terminal state may follow in the same batch.
      rcases mem_cons.mp hmem with heq | hmem
      · cases heq
        rw [← h]
        exact congrArg some hnow.symm
      · split at hmem <;> simp at hmem
    | _ => simp [emits, resultTypes, CeremonyEvent.eventType] at heach
  | _ => cases h

end CeremonyInstance

/-! ## Live claims -/

namespace StepExecutionRecord

variable {record : StepExecutionRecord} {now at_ : OffsetDateTime}

theorem hasLiveLeaseAt_iff : record.hasLiveLeaseAt now = true ↔ record.status = .inProgress ∧
    ∃ expiry, record.effectiveLeaseExpiresAt = some expiry ∧ now < expiry := by
  rw [hasLiveLeaseAt, Bool.and_eq_true, beq_iff_eq, Option.any_eq_true]
  simp only [decide_eq_true_eq]

theorem hasLiveLeaseAt_of_le (h : record.hasLiveLeaseAt at_ = true) (hle : now ≤ at_) :
    record.hasLiveLeaseAt now = true := by
  obtain ⟨hs, expiry, hexpiry, hlt⟩ := hasLiveLeaseAt_iff.mp h
  exact hasLiveLeaseAt_iff.mpr ⟨hs, expiry, hexpiry, lt_of_le_of_lt hle hlt⟩

end StepExecutionRecord

namespace CeremonyInstance

variable {d : CeremonyDefinition} {i t : CeremonyInstance} {e : CeremonyEvent}
  {state : CeremonyState} {before : StepExecutionRecord} {events : List CeremonyEvent}
  {now at_ : OffsetDateTime} {stepId : StepId} {record : StepExecutionRecord} {endedId : StepId}
  {fence : StepClaimFence}

def hasLiveClaim (i : CeremonyInstance) (now : OffsetDateTime) (stepId : StepId) : Bool :=
  i.stepRecords[stepId]?.any (·.hasLiveLeaseAt now)

/-- The records of the whole session that hold a live lease. -/
def liveRecords (i : CeremonyInstance) (now : OffsetDateTime) :
    List (StepId × StepExecutionRecord) :=
  i.stepRecords.toList.filter (·.2.hasLiveLeaseAt now)

theorem hasLiveClaim_iff : i.hasLiveClaim now stepId = true ↔
    ∃ record, i.stepRecords[stepId]? = some record ∧ record.hasLiveLeaseAt now = true := by
  rw [hasLiveClaim, Option.any_eq_true]

theorem hasLiveClaim_of_le (h : i.hasLiveClaim at_ stepId = true) (hle : now ≤ at_) :
    i.hasLiveClaim now stepId = true := by
  obtain ⟨record, hrec, hlive⟩ := hasLiveClaim_iff.mp h
  exact hasLiveClaim_iff.mpr ⟨record, hrec, hasLiveLeaseAt_of_le hlive hle⟩

theorem not_hasLiveClaim_of_status (h : t.stepRecords[stepId]? = some record)
    (hs : record.status ≠ .inProgress) : t.hasLiveClaim now stepId ≠ true := by
  intro hlive
  obtain ⟨_, hrec, hlive⟩ := hasLiveClaim_iff.mp hlive
  cases h.symm.trans hrec
  exact hs (hasLiveLeaseAt_iff.mp hlive).1

theorem completedRecord_status_ne (record : StepExecutionRecord) (e : StepCompleted) :
    (completedRecord record e).status ≠ .inProgress := by
  unfold completedRecord
  split
  · exact fun h => nomatch h
  · exact e.result.status_ne_inProgress

/-- An event makes no claim live but the one it starts: a renewal needs a live claim, and every
other event leaves a claim alone or ends it. -/
theorem ClaimStep.live_of_live (h : ClaimStep d i e t stepId)
    (timed : ∀ checked ∈ e.leaseInstant, checked = now) (hle : now ≤ at_)
    (hlive : t.hasLiveClaim at_ stepId = true) :
    i.hasLiveClaim now stepId = true ∨ ∃ started step record,
      e = .stepStarted started ∧ started.stepId = stepId ∧
        StartAdmitted d i started step record := by
  cases h with
  | kept record_eq =>
    rw [hasLiveClaim, record_eq] at hlive
    exact .inl (hasLiveClaim_of_le hlive hle)
  | started e step record admitted => exact .inr ⟨e, step, record, rfl, rfl, admitted⟩
  | renewed e record lease admitted =>
    have hlive' := admitted.live
    rw [timed e.renewedAt rfl] at hlive'
    exact .inl (hasLiveClaim_iff.mpr ⟨record, admitted.record_eq, hlive'⟩)
  | completed e step record fence admitted record_eq =>
    exact absurd hlive (not_hasLiveClaim_of_status record_eq (completedRecord_status_ne _ _))
  | failed e step record fence admitted record_eq =>
    exact absurd hlive (not_hasLiveClaim_of_status record_eq e.result.status_ne_inProgress)
  | restarted e admitted mem record_eq | entered e transition destination admitted mem record_eq =>
    exact absurd hlive (not_hasLiveClaim_of_status record_eq fun h => nomatch h)
  | timedOut e standing record_eq =>
    obtain ⟨record, hrec, -⟩ := hasLiveClaim_iff.mp hlive
    obtain ⟨before, -, rfl⟩ := Option.map_eq_some_iff.mp (record_eq.symm.trans hrec)
    exact absurd hlive (not_hasLiveClaim_of_status hrec StepResult.timedOut.status_ne_inProgress)

/-! ## The invariant -/

/-- Where the live claims of a session are, at an instant.  The claims in progress of a sequential
state are counted without regard to time: an expired one still stands in the way of the next
step. -/
structure LeasesKept (d : CeremonyDefinition) (i : CeremonyInstance) (now : OffsetDateTime) :
    Prop where
  inState : ∀ stepId, i.hasLiveClaim now stepId = true →
    ∃ step ∈ d.stepsForState i.currentState, step.id = stepId
  declared : ∀ stepId, i.hasLiveClaim now stepId = true → (d.state i.currentState).isSome = true
  sequential : ∀ state, d.state i.currentState = some state → state.execution = .sequential →
    ∀ step ∈ d.stepsForState i.currentState, ∀ record, i.stepRecords[step.id]? = some record →
      record.status = .inProgress → i.firstUnfinishedStep d = some step
  concurrent : ∀ state, d.state i.currentState = some state → state.execution = .concurrent →
    ((d.stepsForState i.currentState).filter (i.hasLiveLease now)).length ≤ d.maxParallel.val
  undated : ∀ (stepId : StepId) (record : StepExecutionRecord),
    i.stepRecords[stepId]? = some record → record.status = .completed →
      i.stepDeadlines[stepId]? = none

/-- Leases run out: what holds at an instant holds at every later one. -/
theorem LeasesKept.of_le (h : LeasesKept d i now) (hle : now ≤ at_) : LeasesKept d i at_ where
  inState stepId hlive := h.inState stepId (hasLiveClaim_of_le hlive hle)
  declared stepId hlive := h.declared stepId (hasLiveClaim_of_le hlive hle)
  sequential := h.sequential
  concurrent state hstate hexec := by
    refine le_trans (List.Sublist.length_le ?_) (h.concurrent state hstate hexec)
    exact monotone_filter_right _ fun step hlive => hasLiveClaim_of_le hlive hle
  undated := h.undated

/-! ### Starts -/

/-- What the check of a claim says: the step is the first unfinished one of a sequential state, or
a concurrent state has room for it. -/
theorem resolvedStepIsClaimableAt_eq_true {ceiling : MaxParallel}
    (h : i.resolvedStepIsClaimableAt d stepId now ceiling = .ok true) :
    ∃ state, d.state i.currentState = some state ∧ (state.execution = .sequential →
        ∃ step, i.firstUnfinishedStep d = some step ∧ step.id = stepId) ∧
      (state.execution = .concurrent →
        ((d.stepsForState i.currentState).filter (i.hasLiveLease now)).length <
          d.maxParallel.val) := by
  simp only [resolvedStepIsClaimableAt, bind_eq_ok, okOr_eq_ok] at h
  obtain ⟨_, _, state, hstate, h⟩ := h
  refine ⟨state, hstate, ?_, ?_⟩
  · intro hexec
    rw [hexec] at h
    dsimp only at h
    split at h
    case isTrue hfirst =>
      rw [Option.any_eq_true] at hfirst
      obtain ⟨step, hstep, hid⟩ := hfirst
      exact ⟨step, hstep, of_decide_eq_true hid⟩
    case isFalse => cases h
  · intro hexec
    rw [hexec] at h
    dsimp only at h
    split at h
    case isTrue => cases h
    case isFalse hroom =>
      refine lt_of_lt_of_le (not_le.mp hroom) ?_
      unfold effectiveCapacity
      split
      · exact le_rfl
      · exact not_lt.mp ‹_›

theorem StartAdmitted.mem_stepsForState {e : StepStarted} {step : CeremonyStep}
    (admitted : StartAdmitted d i e step record) :
    step ∈ d.stepsForState i.currentState ∧ step.id = e.stepId := by
  have hid : step.id = e.stepId := d.step_id_of_getElem? admitted.step_eq
  refine ⟨(d.mem_stepsForState _ _).mpr ⟨?_, admitted.inState⟩, hid⟩
  rw [hid]
  exact admitted.step_eq

/-! ### The first unfinished step -/

def isUnfinished (i : CeremonyInstance) (stepId : StepId) : Bool :=
  i.stepRecords[stepId]?.any fun record => !record.status.isSuccess

theorem firstUnfinishedStep_congr (hstate : t.currentState = i.currentState)
    (same : ∀ stepId, t.isUnfinished stepId = i.isUnfinished stepId) :
    t.firstUnfinishedStep d = i.firstUnfinishedStep d := by
  unfold firstUnfinishedStep
  rw [hstate]
  exact congrArg (find? · _) (funext fun step => same step.id)

theorem isUnfinished_of_record (h : t.stepRecords[stepId]? = some record)
    (hs : record.status ≠ .completed) : t.isUnfinished stepId = true := by
  simp [isUnfinished, h, StepStatus.isSuccess, hs]

theorem status_ne_completed_of_canBeStartedAt (h : record.canBeStartedAt now = true) :
    record.status ≠ .completed := by
  intro hs
  simp [canBeStartedAt, hs, StepStatus.isExecutable] at h

section

variable (h : LeasesKept d i now)
include h

/-- Starts, renewals and deadlines leave a step as finished as it was. -/
theorem LeasesKept.isUnfinished_eq (claim : ClaimStep d i e t stepId)
    (works : (∃ started, e = .stepStarted started) ∨ (∃ renewed, e = .stepLeaseRenewed renewed) ∨
      ∃ exceeded, e = .stepDeadlineExceeded exceeded) :
    t.isUnfinished stepId = i.isUnfinished stepId := by
  cases claim with
  | kept record_eq => rw [isUnfinished, record_eq, isUnfinished]
  | started e step record admitted record_eq =>
    rw [isUnfinished_of_record record_eq (fun h => nomatch h),
      isUnfinished_of_record admitted.record_eq
        (status_ne_completed_of_canBeStartedAt admitted.startable)]
  | renewed e record lease admitted record_eq =>
    rw [isUnfinished, record_eq, isUnfinished, admitted.record_eq]
    rfl
  | timedOut e standing record_eq =>
    cases hrec : i.stepRecords[e.deadline.stepId]? with
    | none => rw [isUnfinished, record_eq, hrec, isUnfinished, hrec, Option.map_none]
    | some record =>
      -- A completed step has no deadline that could be exceeded.
      have hs : record.status ≠ .completed := by
        intro hdone
        rw [h.undated _ record hrec hdone] at standing
        cases standing
      rw [hrec, Option.map_some] at record_eq
      rw [isUnfinished_of_record hrec hs, isUnfinished_of_record record_eq fun h => nomatch h]
  | completed | failed | restarted | entered => simp at works

/-! ### One event -/

/-- A move is refused while a step of the state it leaves is live, and no other step is. -/
theorem LeasesKept.none_live_of_moved {e : TransitionApplied} {transition : CeremonyTransition}
    {destination : StateVisitEntry} (admitted : MoveAdmitted d i e transition destination)
    (timed : e.transition.appliedAt = now) (stepId : StepId) :
    i.hasLiveClaim now stepId ≠ true := by
  intro hlive
  obtain ⟨step, hstep, rfl⟩ := h.inState stepId hlive
  have hnone := admitted.noLiveLease
  rw [timed, hasLiveStepLeasesAt, any_eq_false] at hnone
  exact hnone step hstep hlive

theorem LeasesKept.inState_step (execution : ExecutionStep d i e t)
    (timed : ∀ checked ∈ e.leaseInstant, checked = now)
    (hlive : t.hasLiveClaim now stepId = true) :
    (∃ step ∈ d.stepsForState t.currentState, step.id = stepId) ∧
      (d.state t.currentState).isSome = true := by
  rcases (claimStep_of_execution execution stepId).live_of_live timed le_rfl hlive with
    hpre | ⟨started, step, record, rfl, rfl, admitted⟩
  · have hinState := h.inState stepId hpre
    have hdecl := h.declared stepId hpre
    cases positionStep_of_execution execution with
    | stayed state_eq | iterated e admitted state_eq =>
      rw [state_eq]
      exact ⟨hinState, hdecl⟩
    | moved e transition destination admitted =>
      exact absurd hpre (h.none_live_of_moved admitted (timed _ rfl) stepId)
  · obtain ⟨ceiling, hclaimable⟩ := admitted.claimable
    obtain ⟨state, hstate, -⟩ := resolvedStepIsClaimableAt_eq_true hclaimable
    cases positionStep_of_execution execution with
    | stayed state_eq =>
      rw [state_eq, hstate]
      exact ⟨⟨step, admitted.mem_stepsForState⟩, rfl⟩

theorem LeasesKept.unique_inProgress (hstate : d.state i.currentState = some state)
    (hexec : state.execution = .sequential) {first second : CeremonyStep}
    {record' : StepExecutionRecord} (hfirst : first ∈ d.stepsForState i.currentState)
    (hrec : i.stepRecords[first.id]? = some record) (hs : record.status = .inProgress)
    (hsecond : second ∈ d.stepsForState i.currentState)
    (hrecord' : i.stepRecords[second.id]? = some record') (hstatus' : record'.status = .inProgress) :
    first = second := by
  have h₁ := h.sequential state hstate hexec first hfirst record hrec hs
  have h₂ := h.sequential state hstate hexec second hsecond record' hrecord' hstatus'
  exact Option.some.inj (h₁.symm.trans h₂)

/-- The claim a result ends is the only one in progress in a sequential state. -/
theorem LeasesKept.no_other_claim (hstate : d.state i.currentState = some state)
    (hexec : state.execution = .sequential) {step ended : CeremonyStep}
    (claim : CurrentClaim d i endedId ended before fence)
    (hstep : step ∈ d.stepsForState i.currentState) (hrec : i.stepRecords[step.id]? = some record)
    (hs : record.status = .inProgress) : step.id = endedId := by
  have hid : ended.id = endedId := d.step_id_of_getElem? claim.step_eq
  have hend : ended ∈ d.stepsForState i.currentState :=
    (d.mem_stepsForState _ _).mpr ⟨by rw [hid]; exact claim.step_eq, claim.inState⟩
  rw [← hid]
  refine congrArg CeremonyStep.id (h.unique_inProgress hstate hexec hstep hrec hs
    hend ?_ claim.inProgress)
  rw [hid]
  exact claim.record_eq

end

section

variable (hstate : d.state t.currentState = some state) (hexec : state.execution = .sequential)
  {step : CeremonyStep} (hstep : step ∈ d.stepsForState t.currentState)
include hstate hexec hstep

/-- An event that finishes no step leaves a claim that it leaves alone the first unfinished one. -/
theorem LeasesKept.sequential_of_kept (h : LeasesKept d i now)
    (same : ∀ stepId, t.isUnfinished stepId = i.isUnfinished stepId)
    (state_eq : t.currentState = i.currentState) (hrec : i.stepRecords[step.id]? = some record)
    (hs : record.status = .inProgress) : t.firstUnfinishedStep d = some step := by
  rw [firstUnfinishedStep_congr state_eq same]
  rw [state_eq] at hstate hstep
  exact h.sequential state hstate hexec step hstep record hrec hs

theorem LeasesKept.sequential_of_started {e : StepStarted} {claimed : CeremonyStep}
    (admitted : StartAdmitted d i e claimed before)
    (same : ∀ stepId, t.isUnfinished stepId = i.isUnfinished stepId)
    (state_eq : t.currentState = i.currentState) (hid : step.id = e.stepId) :
    t.firstUnfinishedStep d = some step := by
  obtain ⟨ceiling, hclaimable⟩ := admitted.claimable
  obtain ⟨state', hstate', hfirst, -⟩ := resolvedStepIsClaimableAt_eq_true hclaimable
  rw [state_eq, hstate', Option.some.injEq] at hstate
  subst hstate
  obtain ⟨first, hfirst, hfirstId⟩ := hfirst hexec
  rw [state_eq] at hstep
  rw [firstUnfinishedStep_congr state_eq same, hfirst, Option.some.injEq]
  exact inj_on_of_nodup_map (d.stepsForState_ids_nodup _) (mem_of_find?_eq_some hfirst)
    hstep (hfirstId.trans hid.symm)

/-- No claim is left in progress in a sequential state when a result has ended one. -/
theorem LeasesKept.none_inProgress_of_ended (h : LeasesKept d i now) {ended : CeremonyStep}
    (claim : CurrentClaim d i endedId ended before fence)
    (state_eq : t.currentState = i.currentState)
    (left : ∀ (stepId : StepId) (record : StepExecutionRecord),
      t.stepRecords[stepId]? = some record → record.status = .inProgress →
        i.stepRecords[stepId]? = some record ∧ stepId ≠ endedId)
    (hrec : t.stepRecords[step.id]? = some record) : record.status ≠ .inProgress := by
  intro hs
  rw [state_eq] at hstate hstep
  obtain ⟨hpre, hne⟩ := left step.id record hrec hs
  exact hne (h.no_other_claim hstate hexec claim hstep hpre hs)

/-- A claim in progress stays the first unfinished step of a sequential state. -/
theorem LeasesKept.sequential_step (h : LeasesKept d i now) (execution : ExecutionStep d i e t)
    (hrec : t.stepRecords[step.id]? = some record) (hs : record.status = .inProgress) :
    t.firstUnfinishedStep d = some step := by
  have hclaims := claimStep_of_execution execution
  cases execution with
  | other quiet same =>
    rw [same.stepRecords] at hrec
    have hsame : ∀ stepId, t.isUnfinished stepId = i.isUnfinished stepId := by
      intro stepId
      rw [isUnfinished, same.stepRecords, isUnfinished]
    exact h.sequential_of_kept hstate hexec hstep hsame same.currentState hrec hs
  | late =>
    exact h.sequential_of_kept hstate hexec hstep (fun _ => rfl) rfl hrec hs
  | started e claimed before admitted =>
    have hsame := fun stepId => h.isUnfinished_eq (hclaims stepId) (.inl ⟨e, rfl⟩)
    by_cases hid : step.id = e.stepId
    · exact sequential_of_started hstate hexec hstep admitted hsame rfl hid
    · have hkept : (i.applyStepStarted e).stepRecords[step.id]? = i.stepRecords[step.id]? :=
        Map.getElem?_insert_of_ne hid
      exact h.sequential_of_kept hstate hexec hstep hsame rfl (hkept ▸ hrec) hs
  | renewed e before lease admitted =>
    have hsame := fun stepId => h.isUnfinished_eq (hclaims stepId) (.inr (.inl ⟨e, rfl⟩))
    obtain ⟨held, hheld, hstatus'⟩ : ∃ held, i.stepRecords[step.id]? = some held ∧
        held.status = .inProgress := by
      generalize step.id = stepId at hrec
      cases hclaims stepId with
      | kept record_eq => exact ⟨record, record_eq ▸ hrec, hs⟩
      | renewed _ record' _ admitted' record_eq =>
        rw [record_eq, Option.some.injEq] at hrec
        subst hrec
        exact ⟨record', admitted'.record_eq, hs⟩
    exact h.sequential_of_kept hstate hexec hstep hsame rfl hheld hstatus'
  | timedOut e notEnded standing result_eq =>
    have hsame := fun stepId => h.isUnfinished_eq (hclaims stepId) (.inr (.inr ⟨e, rfl⟩))
    have hheld : i.stepRecords[step.id]? = some record := by
      generalize step.id = stepId at hrec
      cases hclaims stepId with
      | kept record_eq => exact record_eq ▸ hrec
      | timedOut _ _ record_eq =>
        obtain ⟨before, -, rfl⟩ := Option.map_eq_some_iff.mp (record_eq.symm.trans hrec)
        cases hs
    exact h.sequential_of_kept hstate hexec hstep hsame rfl hheld hs
  | completed e claimed before fence admitted =>
    have hstay : (i.applyStepCompleted e).currentState = i.currentState := by
      obtain ⟨_, _, hshape⟩ := applyStepCompleted_eq i e
      rw [hshape]
      rfl
    refine absurd hs (h.none_inProgress_of_ended hstate hexec hstep admitted.claim hstay ?_ hrec)
    intro stepId record hrec hs
    cases hclaims stepId with
    | kept record_eq _ other => exact ⟨record_eq ▸ hrec, fun h => other (h ▸ rfl)⟩
    | completed _ _ _ _ _ record_eq =>
      rw [record_eq, Option.some.injEq] at hrec
      exact absurd hs (hrec ▸ completedRecord_status_ne _ _)
  | failed e claimed before fence admitted =>
    have hstay : (i.applyStepFailed e).currentState = i.currentState := rfl
    refine absurd hs (h.none_inProgress_of_ended hstate hexec hstep admitted.claim hstay ?_ hrec)
    intro stepId record hrec hs
    cases hclaims stepId with
    | kept record_eq _ other => exact ⟨record_eq ▸ hrec, fun h => other (h ▸ rfl)⟩
    | failed _ _ _ _ _ record_eq =>
      rw [record_eq, Option.some.injEq] at hrec
      exact absurd hs (hrec ▸ e.result.status_ne_inProgress)
  | iterated e admitted =>
    -- Every step of the state is pending again.
    obtain ⟨_, _, hshape⟩ := applyStateIterationStarted_eq i e
    have hmem : step.id ∈ e.stepIds := by
      rw [hshape] at hstep
      rw [admitted.stepIds_eq]
      exact mem_map_of_mem hstep
    rw [applyStateIterationStarted_stepRecords, if_pos hmem, Option.some.injEq] at hrec
    rw [← hrec] at hs
    cases hs
  | moved e transition destination admitted =>
    obtain ⟨_, _, hshape⟩ := applyTransitionApplied_eq i admitted.destination_eq
    have hmem : step.id ∈ destination.stepIds := by
      rw [hshape] at hstep
      rw [admitted.stepIds_eq, ← admitted.toState_eq]
      exact mem_map_of_mem hstep
    rw [applyTransitionApplied_stepRecords admitted.destination_eq, if_pos hmem,
      Option.some.injEq] at hrec
    rw [← hrec] at hs
    cases hs

end

theorem live_length_le_succ {e : StepStarted} {step : CeremonyStep}
    (admitted : StartAdmitted d i e step record)
    (hlive : ∀ stepId, t.hasLiveClaim now stepId = true →
      i.hasLiveClaim now stepId = true ∨ stepId = e.stepId) :
    ((d.stepsForState i.currentState).filter (t.hasLiveLease now)).length ≤
      ((d.stepsForState i.currentState).filter (i.hasLiveLease now)).length + 1 := by
  obtain ⟨hmem, hid⟩ := admitted.mem_stepsForState
  have hids := d.stepsForState_ids_nodup i.currentState
  have hnd : ((d.stepsForState i.currentState).filter (t.hasLiveLease now)).Nodup :=
    (List.Nodup.of_map _ hids).filter _
  rw [← length_cons (a := step)]
  refine (subperm_of_subset hnd ?_).length_le
  intro other ho
  rw [mem_filter] at ho
  rcases hlive other.id ho.2 with hpre | hstarted
  · exact mem_cons_of_mem _ (mem_filter.mpr ⟨ho.1, hpre⟩)
  · rw [inj_on_of_nodup_map hids ho.1 hmem (hstarted.trans hid.symm)]
    exact mem_cons_self

section

variable (h : LeasesKept d i now)
include h

/-- A start takes one place of a concurrent state, and had found one free. -/
theorem LeasesKept.concurrent_step (execution : ExecutionStep d i e t)
    (timed : ∀ checked ∈ e.leaseInstant, checked = now)
    (hstate : d.state t.currentState = some state) (hexec : state.execution = .concurrent) :
    ((d.stepsForState t.currentState).filter (t.hasLiveLease now)).length ≤ d.maxParallel.val := by
  have hlive := fun stepId =>
    (claimStep_of_execution execution stepId).live_of_live (t := t) timed le_rfl
  cases positionStep_of_execution execution with
  | moved e transition destination admitted =>
    -- Nothing was live when the move was decided, and the move makes nothing live.
    have hnone : (d.stepsForState t.currentState).filter (t.hasLiveLease now) = [] := by
      rw [filter_eq_nil_iff]
      intro step _ hstep
      rcases hlive step.id hstep with hpre | ⟨_, _, _, hev, -⟩
      · exact h.none_live_of_moved admitted (timed _ rfl) step.id hpre
      · cases hev
    rw [hnone]
    exact Nat.zero_le _
  | iterated e admitted state_eq =>
    rw [state_eq] at hstate ⊢
    refine le_trans (List.Sublist.length_le ?_) (h.concurrent state hstate hexec)
    refine monotone_filter_right _ fun step hstep => ?_
    rcases hlive step.id hstep with hpre | ⟨_, _, _, hev, -⟩
    · exact hpre
    · cases hev
  | stayed state_eq =>
    rw [state_eq] at hstate ⊢
    by_cases hstarted : ∃ started step record, e = .stepStarted started ∧
        StartAdmitted d i started step record
    · obtain ⟨started, step, record, rfl, admitted⟩ := hstarted
      obtain ⟨ceiling, hclaimable⟩ := admitted.claimable
      obtain ⟨state', hstate', -, hroom⟩ := resolvedStepIsClaimableAt_eq_true hclaimable
      rw [hstate, Option.some.injEq] at hstate'
      subst hstate'
      have hroom := hroom hexec
      rw [timed _ rfl] at hroom
      refine le_trans (live_length_le_succ admitted fun other ho => ?_) hroom
      rcases hlive other ho with hpre | ⟨_, _, _, hev, hid, -⟩
      · exact .inl hpre
      · cases hev
        exact .inr hid.symm
    · refine le_trans (List.Sublist.length_le ?_) (h.concurrent state hstate hexec)
      refine monotone_filter_right _ fun step hstep => ?_
      rcases hlive step.id hstep with hpre | ⟨started, step', record, hev, -, admitted⟩
      · exact hpre
      · exact absurd ⟨started, step', record, hev, admitted⟩ hstarted

theorem LeasesKept.undated_step (execution : ExecutionStep d i e t)
    (hrec : t.stepRecords[stepId]? = some record) (hs : record.status = .completed) :
    t.stepDeadlines[stepId]? = none := by
  cases claimStep_of_execution execution stepId with
  | kept record_eq deadline_eq =>
    rw [deadline_eq]
    exact h.undated stepId record (record_eq ▸ hrec) hs
  | started e step before admitted record_eq =>
    rw [record_eq, Option.some.injEq] at hrec
    rw [← hrec] at hs
    cases hs
  | renewed e before lease admitted record_eq deadline_eq =>
    rw [record_eq, Option.some.injEq] at hrec
    rw [← hrec] at hs
    rw [deadline_eq]
    exact h.undated e.stepId before admitted.record_eq hs
  | completed _ _ _ _ _ _ deadline_eq | failed _ _ _ _ _ _ deadline_eq => exact deadline_eq
  | restarted e admitted mem record_eq | entered e transition destination admitted mem record_eq =>
    rw [record_eq, Option.some.injEq] at hrec
    rw [← hrec] at hs
    cases hs
  | timedOut _ _ _ deadline_eq => exact deadline_eq

/-- An event that was checked at an instant keeps the leases of that instant. -/
theorem LeasesKept.step (execution : ExecutionStep d i e t)
    (timed : ∀ checked ∈ e.leaseInstant, checked = now) : LeasesKept d t now where
  inState _ hlive := (h.inState_step execution timed hlive).1
  declared _ hlive := (h.inState_step execution timed hlive).2
  sequential _ hstate hexec _ hstep _ hrec hs :=
    h.sequential_step hstate hexec hstep execution hrec hs
  concurrent _ hstate hexec := h.concurrent_step execution timed hstate hexec
  undated _ _ hrec hs := h.undated_step execution hrec hs

/-! ## The bounds -/

def claimCapacity (d : CeremonyDefinition) (stateId : StateId) : Nat :=
  match (d.state stateId).map CeremonyState.execution with
  | some .sequential => 1
  | some .concurrent => d.maxParallel.val
  | none => 0

theorem LeasesKept.live_length_le :
    ((d.stepsForState i.currentState).filter (i.hasLiveLease now)).length ≤
      claimCapacity d i.currentState := by
  have hnd : ((d.stepsForState i.currentState).filter (i.hasLiveLease now)).Nodup :=
    (List.Nodup.of_map _ (d.stepsForState_ids_nodup i.currentState)).filter _
  unfold claimCapacity
  cases hstate : d.state i.currentState with
  | none =>
    rw [Option.map_none, Nat.le_zero, length_eq_zero_iff, filter_eq_nil_iff]
    intro step _ hlive
    have hdecl := h.declared step.id hlive
    rw [hstate] at hdecl
    cases hdecl
  | some state =>
    rw [Option.map_some]
    cases hexec : state.execution with
    | concurrent => exact h.concurrent state hstate hexec
    | sequential =>
      dsimp only
      cases hlist : (d.stepsForState i.currentState).filter (i.hasLiveLease now) with
      | nil => exact Nat.zero_le _
      | cons first rest =>
        -- Whatever is live is in progress, and only one claim is.
        rw [← length_singleton (a := first), ← hlist]
        refine (subperm_of_subset hnd fun other ho => ?_).length_le
        have hfirst : first ∈ (d.stepsForState i.currentState).filter
            (i.hasLiveLease now) := by
          rw [hlist]
          exact mem_cons_self
        rw [mem_filter] at hfirst ho
        obtain ⟨record, hrec, hlive⟩ := hasLiveClaim_iff.mp hfirst.2
        obtain ⟨record', hrecord', hlive'⟩ := hasLiveClaim_iff.mp ho.2
        rw [mem_singleton]
        exact h.unique_inProgress hstate hexec ho.1 hrecord'
          (hasLiveLeaseAt_iff.mp hlive').1 hfirst.1 hrec
          (hasLiveLeaseAt_iff.mp hlive).1

end

theorem hasLiveClaim_of_mem_liveRecords {entry : StepId × StepExecutionRecord}
    (h : entry ∈ i.liveRecords now) : i.hasLiveClaim now entry.1 = true := by
  rw [liveRecords, mem_filter, Std.ExtTreeMap.mem_toList_iff_getElem?_eq_some] at h
  exact hasLiveClaim_iff.mpr ⟨entry.2, h⟩

theorem LeasesKept.liveRecords_length_le (h : LeasesKept d i now) :
    (i.liveRecords now).length ≤ claimCapacity d i.currentState := by
  refine le_trans ?_ h.live_length_le
  rw [← length_map Prod.fst, ← length_map CeremonyStep.id]
  have hnd : ((i.liveRecords now).map Prod.fst).Nodup := by
    refine List.Nodup.sublist (filter_sublist.map _) ?_
    rw [Std.ExtTreeMap.map_fst_toList_eq_keys]
    exact Std.ExtTreeMap.nodup_keys
  refine (subperm_of_subset hnd fun stepId hmem => ?_).length_le
  obtain ⟨entry, hent, rfl⟩ := mem_map.mp hmem
  have hlive := hasLiveClaim_of_mem_liveRecords hent
  obtain ⟨step, hstep, hid⟩ := h.inState entry.1 hlive
  rw [← hid] at hlive
  exact mem_map.mpr ⟨step, mem_filter.mpr ⟨hstep, hlive⟩, hid⟩

/-! ## Batches -/

theorem timed_path (keyed : i.DeadlinesKeyed)
    (accepted : i.decide d command = .ok events) (folded : i.applyAll events = .ok t)
    (timed : ∀ sent ∈ command.now?, sent = now) :
    (machine d).Path (fun s e => Admitted d s e ∧
      ∀ checked ∈ e.leaseInstant, checked = now) i events t :=
  (decide_path keyed accepted folded).and_mem
    (P := fun e => ∀ checked ∈ e.leaseInstant, checked = now)
    fun _ hmem checked hchecked => timed checked (leaseInstant_of_decide accepted hmem hchecked)

theorem LeasesKept.batch (h : LeasesKept d i now) (keyed : i.DeadlinesKeyed)
    (accepted : i.decide d command = .ok events) (folded : i.applyAll events = .ok t)
    (timed : ∀ sent ∈ command.now?, sent = now) : LeasesKept d t now := by
  refine (timed_path keyed accepted folded timed).invariant (I := fun s => LeasesKept d s now)
    (fun s e u admitted happ hs => ?_) h
  exact hs.step (effects_of_admitted admitted.1 happ).execution admitted.2

/-- A claim that has run out stays so through a batch that starts nothing. -/
theorem expired_batch (keyed : i.DeadlinesKeyed) (accepted : i.decide d command = .ok events)
    (folded : i.applyAll events = .ok t) (timed : command.now? = some now)
    (quiet : .stepStarted ∉ emits command) (expired : i.hasLiveClaim now stepId = false)
    (hle : now ≤ at_) : t.hasLiveClaim at_ stepId = false := by
  have hsent : ∀ sent ∈ command.now?, sent = now := fun sent hsent =>
    Option.some.inj (hsent.symm.trans timed)
  have hpath := (timed_path keyed accepted folded hsent).and_mem
    (P := fun e => e.eventType ≠ .stepStarted) fun e hmem htype =>
      quiet (htype ▸ (decide_each accepted e hmem).1)
  have hover : ∀ at_, now ≤ at_ → t.hasLiveClaim at_ stepId = false := by
    refine hpath.invariant (I := fun s => ∀ at_, now ≤ at_ → s.hasLiveClaim at_ stepId = false)
      (fun s e u admitted happ hs at_ hle => ?_) fun at_ hle => ?_
    · rw [Bool.eq_false_iff]
      intro hlive
      have hclaim := claimStep_of_execution (effects_of_admitted admitted.1.1 happ).execution stepId
      rcases hclaim.live_of_live admitted.1.2 hle hlive with hpre | ⟨_, _, _, rfl, -⟩
      · exact Bool.eq_false_iff.mp (hs now le_rfl) hpre
      · exact admitted.2 rfl
    · rw [Bool.eq_false_iff] at expired ⊢
      exact fun hlive => expired (hasLiveClaim_of_le hlive hle)
  exact hover at_ hle

end CeremonyInstance

open CeremonyInstance

variable {d : CeremonyDefinition} {opening : CeremonyOpening} {events : List CeremonyEvent}
  {i t : CeremonyInstance} {trace : List (CeremonyCommand × List CeremonyEvent)}

theorem Opened.leasesKept (opened : Opened d opening events i) (now : OffsetDateTime) :
    LeasesKept d i now := by
  have hfresh := opened.fresh
  have hidle : ∀ (stepId : StepId) (record : StepExecutionRecord),
      i.stepRecords[stepId]? = some record → record.status ≠ .inProgress := by
    intro stepId record hrec
    rcases (hfresh.unclaimed stepId record hrec).1 with hs | hs
    · simp [hs]
    · simp [hs]
  have hnone : ∀ stepId, i.hasLiveClaim now stepId ≠ true := by
    intro stepId hlive
    obtain ⟨record, hrec, -⟩ := hasLiveClaim_iff.mp hlive
    exact not_hasLiveClaim_of_status hrec (hidle stepId record hrec) hlive
  refine ⟨fun stepId hlive => absurd hlive (hnone stepId),
    fun stepId hlive => absurd hlive (hnone stepId), ?_, ?_, ?_⟩
  · intro state _ _ step _ record hrec hs
    exact absurd hs (hidle step.id record hrec)
  · intro state _ _
    rw [filter_eq_nil_iff.mpr fun step _ => hnone step.id]
    exact Nat.zero_le _
  · intro stepId record _ _
    rw [hfresh.stepDeadlines]
    rfl

theorem commandTimes_snoc (trace : List (CeremonyCommand × List CeremonyEvent))
    (command : CeremonyCommand) (events : List CeremonyEvent) :
    commandTimes (trace ++ [(command, events)]) = commandTimes trace ++ command.now?.toList := by
  cases hnow : command.now? with
  | none | some now => simp [commandTimes, hnow]

/-- In a run whose clock does not go back the leases are kept at every instant from the last
command on. -/
theorem Opened.leasesKept_run {ok : CeremonyInstance → CeremonyCommand → Prop}
    (opened : Opened d opening events i)
    (run : (machine d).Run (fun i c => ok i c ∧ i.DeadlinesKeyed) i trace t)
    (clock : (commandTimes trace).Pairwise (· ≤ ·)) {now : OffsetDateTime}
    (after : ∀ at_ ∈ commandTimes trace, at_ ≤ now) : LeasesKept d t now := by
  induction run generalizing now with
  | nil => exact opened.leasesKept now
  | @snoc trace s u command batch run meets accepted folded ih =>
    rw [commandTimes_snoc, pairwise_append] at clock
    rw [commandTimes_snoc] at after
    rw [machine_fold] at folded
    cases hnow : command.now? with
    | none =>
      have hpre := ih clock.1 fun at_ hmem => after at_ (mem_append_left _ hmem)
      refine hpre.batch meets.2 accepted folded fun at_ hat => ?_
      rw [hnow] at hat
      cases hat
    | some sent =>
      -- Up to the instant of the command the leases only ran out.
      rw [hnow] at clock after
      have hpre : LeasesKept d s sent :=
        ih clock.1 fun at_ hmem => clock.2.2 at_ hmem sent (by simp)
      refine (hpre.batch meets.2 accepted folded fun at_ hat => ?_).of_le (after sent (by simp))
      rw [hnow, Option.mem_some_iff] at hat
      exact hat.symm

def CeremonyCommand.renewsOrMoves : CeremonyCommand → Bool
  | .renewStepLease _ => true
  | .applyTransition _ => true
  | _ => false

/-- In every run whose clock does not go back, at every instant from the last command on: the live
claims are within the capacity of the current state and are claims of its steps; and no renewal or
move of the run makes a claim live that had run out when it was decided. -/
theorem live_leases_are_bounded (opened : Opened d opening events i)
    (run : (machine d).Run (fun _ _ => True) i trace t)
    (clock : (commandTimes trace).Pairwise (· ≤ ·)) :
    (∀ now, (∀ at_ ∈ commandTimes trace, at_ ≤ now) →
      (t.liveRecords now).length ≤ claimCapacity d t.currentState ∧
      ∀ entry ∈ t.liveRecords now,
        ∃ step, d.step entry.1 = some step ∧ step.stateId = t.currentState) ∧
    ∀ before command batch after s u, trace = before ++ (command, batch) :: after →
      i.applyAll (Machine.stream before) = .ok s → s.applyAll batch = .ok u →
      command.renewsOrMoves = true → ∀ sent, command.now? = some sent →
      ∀ stepId, s.hasLiveClaim sent stepId = false →
        ∀ now, sent ≤ now → u.hasLiveClaim now stepId = false := by
  have hkeyed := opened.keyed_run run
  refine ⟨fun now after => ?_, ?_⟩
  · have hkept := opened.leasesKept_run hkeyed clock after
    refine ⟨hkept.liveRecords_length_le, fun entry hent => ?_⟩
    obtain ⟨step, hstep, hid⟩ := hkept.inState entry.1 (hasLiveClaim_of_mem_liveRecords hent)
    obtain ⟨hdecl, hstate⟩ := (d.mem_stepsForState _ _).mp hstep
    exact ⟨step, hid ▸ hdecl, hstate⟩
  · rintro before command batch after s u rfl hs hu hkind sent hsent stepId hexpired now hle
    have hrest := (hkeyed.split_of_fold (by rwa [machine_fold])).2
    obtain ⟨meets, accepted, -⟩ := hrest.head
    refine expired_batch meets.2 accepted hu hsent ?_ hexpired hle
    cases command with
    | renewStepLease | applyTransition => simp [emits]
    | _ => cases hkind

def pairDefinition : CeremonyDefinition :=
  ((CeremonyDefinition.new ⟨"pair", .refl true⟩ firstVersion none [] []
    [⟨openState, .initial, .concurrent, none, .empty⟩, .terminal doneState]
    [finishing [⟨"joined", .refl true⟩]]
    [.new ⟨"left", .refl true⟩ openState agentHandler .empty .singleAttempt none,
      .new ⟨"right", .refl true⟩ openState agentHandler .empty .singleAttempt none]
    [⟨⟨"joined", .refl true⟩, .allStepsCompleted⟩]
    [.of author (.step ⟨"left", .refl true⟩) [],
      .of ⟨"reviewer", .refl true⟩ (.step ⟨"right", .refl true⟩) []]).get
    (by decide +kernel)).withMaxParallel (.of 2 (.refl true))

def renewAt (stepId : StepId) (expectedExpiresAt expiresAt now : OffsetDateTime)
    (i : CeremonyInstance) : CeremonyCommand :=
  .renewStepLease
    { request := none
      stepId
      claimFence := claimFenceOf i stepId
      leaseOwnerId := ⟨"host-1", .refl true⟩
      expectedExpiresAt
      expiresAt
      now }

/-- Both steps are claimed, and one of the claims is renewed after the other has run out. -/
def pairScript : List (CeremonyInstance → CeremonyCommand) :=
  [fun _ => startAt ⟨"left", .refl true⟩ ⟨"left-1", .refl true⟩ (.afterEpoch 1) (.afterEpoch 100)
      (.refl true),
    fun _ => startAt ⟨"right", .refl true⟩ ⟨"right-1", .refl true⟩ (.afterEpoch 2) (.afterEpoch 50)
      (.refl true),
    renewAt ⟨"left", .refl true⟩ (.afterEpoch 100) (.afterEpoch 200) (.afterEpoch 60)]

/-- The renewed claim is live and within the bound; the other one is not live again. -/
theorem renewed_pair_is_bounded :
    ∃ (events : List CeremonyEvent) (i : CeremonyInstance)
      (trace : List (CeremonyCommand × List CeremonyEvent)) (t : CeremonyInstance),
      Opened pairDefinition (openingOf pairDefinition) events i ∧
      (machine pairDefinition).Run (fun _ _ => True) i trace t ∧
      (commandTimes trace).Pairwise (· ≤ ·) ∧
      (t.liveRecords ⟨150, by decide⟩).map (·.1.val) = ["left"] ∧
      (t.liveRecords ⟨150, by decide⟩).length ≤ claimCapacity pairDefinition t.currentState := by
  obtain ⟨events, i, trace, t, hopened, hrun, htimes, hlive⟩ := exists_run_of_script
    (openingOf pairDefinition) pairScript (fun _ trace t =>
      commandTimes trace = [⟨1, by decide⟩, ⟨2, by decide⟩, ⟨60, by decide⟩] ∧
      (t.liveRecords ⟨150, by decide⟩).map (·.1.val) = ["left"]) (by decide +kernel)
  have hclock : (commandTimes trace).Pairwise (· ≤ ·) := by
    rw [htimes]
    decide
  have hbounded := (live_leases_are_bounded (d := pairDefinition) hopened hrun hclock).1
    ⟨150, by decide⟩ (by rw [htimes]; decide)
  exact ⟨events, i, trace, t, hopened, hrun, hclock, hlive, hbounded.1⟩

end Made
