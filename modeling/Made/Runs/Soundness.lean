import Made.Events.Types
import Made.Runs.StepDecisions

/-!
# Accepted batches are admitted

The remaining decisions emit at most one event, except for a move into a terminal state, an answer
with evidence and the deadline sweep.  Together with the decisions about steps this makes the
machine of a definition sound.
-/

namespace Made

open EventSourcing Outcome Std CeremonyEvent List

namespace CeremonyInstance

variable {d : CeremonyDefinition} {i t : CeremonyInstance} {events : List CeremonyEvent}
  {now : OffsetDateTime} {response : CeremonyInterventionResponse} {command : CeremonyCommand}

/-- A decision into at most one event, which is of the given type and admitted. -/
def AtMostOne (d : CeremonyDefinition) (i : CeremonyInstance) (eventType : AuditEventType)
    (events : List CeremonyEvent) : Prop :=
  events = [] ∨ ∃ e, events = [e] ∧ e.eventType = eventType ∧ Admitted d i e

theorem path_of_at_most_one (h : events = [] ∨ ∃ e, events = [e] ∧ Admitted d i e)
    (folded : i.applyAll events = .ok t) : (machine d).Path (Admitted d) i events t := by
  rcases h with rfl | ⟨e, rfl, hadm⟩
  · cases folded
    exact .nil _
  · obtain ⟨j, hj, hnil⟩ := applyAll_cons_eq_ok.mp folded
    cases hnil
    exact .single hadm hj

theorem AtMostOne.path {eventType : AuditEventType} (h : AtMostOne d i eventType events)
    (folded : i.applyAll events = .ok t) : (machine d).Path (Admitted d) i events t := by
  refine path_of_at_most_one (h.imp_right ?_) folded
  rintro ⟨e, rfl, -, hadm⟩
  exact ⟨e, rfl, hadm⟩

/-! ## Claims -/

theorem decideRenewStepLease_atMostOne {command : RenewStepLease}
    (h : i.decideRenewStepLease d command = .ok events) :
    AtMostOne d i .stepLeaseRenewed events := by
  simp only [decideRenewStepLease, bind_eq_ok, requireDefinition_eq_ok, exists_const] at h
  obtain ⟨hm, h⟩ := h
  split at h
  · simp only [bind_eq_ok, pure_eq_ok] at h
    obtain ⟨_, _, rfl⟩ := h
    exact .inl rfl
  case h_2 hnone =>
    simp only [decideNewRenewal, bind_eq_ok, require_eq_ok, okOr_eq_ok,
      requireStepClaimFence_eq_ok, exists_const, Bool.or_eq_false_iff] at h
    obtain ⟨⟨hend, hterm⟩, hfence, record, hrec, lease, hlease, ⟨_, hlive⟩, hexp,
      ⟨hextends, hahead⟩, hwithin, h⟩ := h
    split at h
    · cases h
      exact .inl rfl
    · cases h
      refine .inr ⟨_, rfl, rfl, record, lease, ⟨hm, hterm, hend⟩, ?_, hfence, hrec, hlease,
        hlive, hexp, hextends, hahead, ?_⟩
      · intro request hreq
        dsimp only at hreq
        rw [hreq] at hnone
        exact hnone
      · intro at_ hat
        dsimp only at hat
        rw [hat] at hwithin
        simpa using hwithin

theorem decideRecordHostHandoff_atMostOne {command : RecordHostHandoff}
    (h : i.decideRecordHostHandoff d command = .ok events) :
    AtMostOne d i .hostHandoffRecorded events := by
  simp only [decideRecordHostHandoff, bind_eq_ok, requireDefinition_eq_ok, exists_const] at h
  obtain ⟨hm, _, _, h⟩ := h
  split at h
  · split at h
    · cases h
      exact .inl rfl
    · simp at h
  case h_2 hfresh =>
    simp only [decideNewHandoff, bind_eq_ok, require_eq_ok, okOr_eq_ok,
      requireStepClaimFence_eq_ok, pure_eq_ok, exists_const] at h
    obtain ⟨hfence, _, _, _, _, rfl⟩ := h
    exact .inr ⟨_, rfl, rfl, hm, hfresh, hfence⟩

theorem decidePlanChildren_atMostOne {command : PlanCeremonyChildren}
    (h : i.decidePlanChildren d command = .ok events) :
    AtMostOne d i .childSpawnPlanned events := by
  simp only [decidePlanChildren, bind_eq_ok, requireDefinition_eq_ok, exists_const] at h
  obtain ⟨hm, h⟩ := h
  split at h
  · split at h
    · cases h
      exact .inl rfl
    · simp at h
  case h_2 hfresh =>
    simp only [decideNewChildPlan, bind_eq_ok, require_eq_ok,
      okOr_eq_ok, requireAdmitsNewWork_eq_ok, requireStepClaimFence_eq_ok,
      pure_eq_ok, exists_const] at h
    obtain ⟨hadms, _, _, _, _, _, _, _, _, _, _, _, _, _, _, _, hfence, rfl⟩ := h
    exact .inr ⟨_, rfl, rfl, hm, hfresh, hadms, hfence⟩

theorem decideAdoptChildPlan_atMostOne {command : AdoptChildSpawnPlan}
    (h : i.decideAdoptChildPlan d command = .ok events) :
    AtMostOne d i .childSpawnPlanAdopted events := by
  simp only [decideAdoptChildPlan, bind_eq_ok, requireDefinition_eq_ok,
    okOr_eq_ok, exists_const] at h
  obtain ⟨hm, group, hgroup, h⟩ := h
  split at h
  · cases h
    exact .inl rfl
  case isFalse hmoved =>
    simp only [bind_eq_ok, require_eq_ok, okOr_eq_ok,
      requireStepClaimFence_eq_ok, pure_eq_ok, exists_const] at h
    obtain ⟨_, _, _, hfence, rfl⟩ := h
    exact .inr ⟨_, rfl, rfl, group, hm, hgroup, hmoved, hfence⟩

theorem decideAcceptChildCompletion_atMostOne {command : AcceptChildCompletion}
    (h : i.decideAcceptChildCompletion d command = .ok events) :
    AtMostOne d i .childCompletionAccepted events := by
  simp only [decideAcceptChildCompletion, bind_eq_ok, requireDefinition_eq_ok,
    okOr_eq_ok, require_eq_ok, exists_const] at h
  obtain ⟨hm, group, hgroup, hplanned, h⟩ := h
  split at h
  · split at h
    · cases h
      exact .inl rfl
    · simp at h
  case h_2 hfresh =>
    cases h
    exact .inr ⟨_, rfl, rfl, group, hm, hgroup, hplanned, hfresh⟩

/-! ## Lifecycle -/

theorem decidePause_atMostOne {command : PauseCeremony}
    (h : i.decidePause d command = .ok events) : AtMostOne d i .ceremonyPaused events := by
  simp only [decidePause, bind_eq_ok, requireDefinition_eq_ok, require_eq_ok, exists_const] at h
  obtain ⟨hm, hend, h⟩ := h
  split at h
  case h_1 hphase =>
    cases h
    exact .inr ⟨_, rfl, rfl, hm, hend, hphase⟩
  · cases h
    exact .inl rfl
  · simp at h

theorem decideResume_atMostOne (h : i.decideResume d now = .ok events) :
    AtMostOne d i .ceremonyResumed events := by
  simp only [decideResume, bind_eq_ok, requireDefinition_eq_ok, require_eq_ok,
    exists_const, isSuperseded, Option.isSome_eq_false_iff, Option.isNone_iff_eq_none] at h
  obtain ⟨hm, hend, hplan, h⟩ := h
  split at h
  case h_1 hphase =>
    cases h
    exact .inr ⟨_, rfl, rfl, hm, hend, hphase, hplan⟩
  · cases h
    exact .inl rfl
  · simp at h

theorem decideCancel_atMostOne {command : CancelCeremony}
    (h : i.decideCancel d command = .ok events) : AtMostOne d i .ceremonyCancelled events := by
  simp only [decideCancel, bind_eq_ok, requireDefinition_eq_ok, exists_const] at h
  obtain ⟨hm, h⟩ := h
  split at h
  · cases h
    exact .inl rfl
  · simp only [bind_eq_ok, require_eq_ok, pure_eq_ok, exists_const] at h
    obtain ⟨hend, rfl⟩ := h
    exact .inr ⟨_, rfl, rfl, hm, hend⟩

theorem decidePlanSuccessor_atMostOne {command : PlanSuccessor}
    (h : i.decidePlanSuccessor d command = .ok events) :
    AtMostOne d i .successorPlanned events := by
  simp only [decidePlanSuccessor, bind_eq_ok, requireDefinition_eq_ok, exists_const] at h
  obtain ⟨hm, h⟩ := h
  split at h
  · split at h
    · cases h
      exact .inl rfl
    · simp at h
  case h_2 hplan =>
    simp only [decideNewSuccessor, bind_eq_ok, require_eq_ok, pure_eq_ok, exists_const] at h
    obtain ⟨hphase, _, _, _, _, _, _, _, _, _, rfl⟩ := h
    exact .inr ⟨_, rfl, rfl, hm, hplan, hphase⟩

/-! ## The table -/

theorem decideBindParticipant_atMostOne {command : BindParticipant}
    (h : i.decideBindParticipant d command = .ok events) :
    AtMostOne d i .participantsBound events := by
  simp only [decideBindParticipant, bind_eq_ok, requireActive_eq_ok,
    require_eq_ok, pure_eq_ok, exists_const] at h
  obtain ⟨hact, hrole, rfl⟩ := h
  exact .inr ⟨_, rfl, rfl, hact, _, rfl, hrole⟩

theorem decideApproveGuard_atMostOne {command : ApproveGuard}
    (h : i.decideApproveGuard d command = .ok events) :
    AtMostOne d i .humanApprovalRecorded events := by
  simp only [decideApproveGuard, bind_eq_ok, requireActive_eq_ok,
    requireHumanGuard_eq_ok, requireDeclaredRole_eq_ok, pure_eq_ok, exists_const] at h
  obtain ⟨hact, hhuman, ⟨_, hrole⟩, context, hctx, rfl⟩ := h
  exact .inr ⟨_, rfl, rfl, context, hact, hhuman, hrole, hctx⟩

theorem decideDeferGuard_atMostOne {command : DeferGuard}
    (h : i.decideDeferGuard d command = .ok events) :
    AtMostOne d i .humanDeferralRecorded events := by
  simp only [decideDeferGuard, bind_eq_ok, requireActive_eq_ok, requireHumanGuard_eq_ok,
    requireDeclaredRole_eq_ok, require_eq_ok, pure_eq_ok, exists_const] at h
  obtain ⟨_, _, hact, hhuman, hopen, _, ⟨_, hrole⟩, rfl⟩ := h
  exact .inr ⟨_, rfl, rfl, hact, hhuman, hrole, hopen⟩

theorem decideRequestIntervention_atMostOne {command : RequestIntervention}
    (h : i.decideRequestIntervention d command = .ok events) :
    AtMostOne d i .interventionRequested events := by
  simp only [decideRequestIntervention, bind_eq_ok, requireActive_eq_ok,
    require_eq_ok, pure_eq_ok, exists_const] at h
  obtain ⟨_, _, hact, _, hrequester, _, htgt, _, _, hfresh, rfl⟩ := h
  exact .inr ⟨_, rfl, rfl, command, rfl, hact, hrequester, htgt, hfresh⟩

theorem answeringResponse_roleId {command : RespondToIntervention} {item : CeremonyIntervention}
    (h : answeringResponse command item = .ok response) : response.roleId = command.roleId := by
  unfold answeringResponse at h
  split at h
  · cases h
    rfl
  · simp only [bind_eq_ok, okOr_eq_ok, pure_eq_ok] at h
    obtain ⟨_, _, _, _, rfl⟩ := h
    rfl

theorem decideRespondToIntervention_atMostOne {command : RespondToIntervention}
    (h : i.decideRespondToIntervention d command = .ok events) :
    AtMostOne d i .interventionResponded events := by
  simp only [decideRespondToIntervention, bind_eq_ok, requireActive_eq_ok,
    requireRole_eq_ok, requireOpenIntervention_eq_ok, pure_eq_ok, exists_const] at h
  obtain ⟨hact, ⟨_, hrole⟩, item, hitem, _, hrespond, response, hresponse, rfl⟩ := h
  have hrole_eq := answeringResponse_roleId hresponse
  exact .inr ⟨_, rfl, rfl, item, hact, by rwa [hrole_eq], hitem, by rwa [hrole_eq]⟩

theorem fromEvidence_roleId {roleId : RoleId} {pack : CeremonyEvidencePack}
    (h : CeremonyInterventionResponse.fromEvidence roleId pack now = .ok response) :
    response.roleId = roleId := by
  simp only [CeremonyInterventionResponse.fromEvidence, bind_eq_ok, pure_eq_ok] at h
  obtain ⟨_, _, rfl⟩ := h
  rfl

theorem decideRespondToInterventionWithEvidence_path {command : RespondToInterventionWithEvidence}
    (h : i.decideRespondToInterventionWithEvidence d command = .ok events)
    (folded : i.applyAll events = .ok t) : (machine d).Path (Admitted d) i events t := by
  simp only [decideRespondToInterventionWithEvidence, bind_eq_ok, requireActive_eq_ok,
    requireRole_eq_ok, requireOpenIntervention_eq_ok, pure_eq_ok, exists_const] at h
  obtain ⟨hact, ⟨_, hrole⟩, item, hitem, _, hrespond, response, hresponse, rfl⟩ := h
  have hrole_eq := fromEvidence_roleId hresponse
  obtain ⟨j, hj, hrest⟩ := applyAll_cons_eq_ok.mp folded
  cases hj
  obtain ⟨k, hk, hnil⟩ := applyAll_cons_eq_ok.mp hrest
  cases hnil
  refine .cons ⟨item, hact, hrole, hitem, hrespond⟩ rfl (.single ⟨item, ?_⟩ hk)
  -- The receipt of the source moves the clock only, so the item is still the one it was.
  exact ⟨{ hact with }, by rwa [hrole_eq], hitem, by rwa [hrole_eq]⟩

theorem decideCloseIntervention_atMostOne {command : CloseIntervention}
    (h : i.decideCloseIntervention d command = .ok events) :
    AtMostOne d i .interventionClosed events := by
  simp only [decideCloseIntervention, CeremonyIntervention.close, bind_eq_ok,
    requireActive_eq_ok, requireRole_eq_ok, requireOpenIntervention_eq_ok,
    require_eq_ok, pure_eq_ok, exists_const] at h
  obtain ⟨hact, ⟨_, hrole⟩, item, hitem, _, ⟨hopen, hrequester, _⟩, rfl⟩ := h
  exact .inr ⟨_, rfl, rfl, item, hact, hrole, hitem, hopen, hrequester⟩

theorem decideAcknowledgeInterventionDelivery_atMostOne {command : AcknowledgeInterventionDelivery}
    (h : i.decideAcknowledgeInterventionDelivery d command = .ok events) :
    AtMostOne d i .interventionDeliveryAcknowledged events := by
  simp only [decideAcknowledgeInterventionDelivery, bind_eq_ok, requireActive_eq_ok,
    requireOpenIntervention_eq_ok, require_eq_ok, exists_const] at h
  obtain ⟨hact, item, hitem, hrecipient, h⟩ := h
  split at h
  · split at h
    · cases h
      exact .inl rfl
    · simp at h
  case h_2 hfresh =>
    cases h
    exact .inr ⟨_, rfl, rfl, item, hact, hitem, hrecipient, hfresh⟩

theorem decideAssertReason_atMostOne {reason : CeremonyReason}
    (h : i.decideAssertReason d reason = .ok events) : AtMostOne d i .reasonAsserted events := by
  simp only [decideAssertReason, bind_eq_ok, okOr_eq_ok,
    requireDeclaredRole_eq_ok, pure_eq_ok, exists_const] at h
  obtain ⟨roleId, hrole, ⟨hm, hdecl⟩, _, _, _, _, _, _, rfl⟩ := h
  exact .inr ⟨_, rfl, rfl, hm, roleId, hrole, hdecl⟩

/-! ## Moves -/

theorem deadlineAfter_isSome {timeout : Option Timeout} {field : String}
    {deadline : Option OffsetDateTime} (h : deadlineAfter now timeout field = .ok deadline) :
    deadline.isSome = timeout.isSome := by
  cases timeout with
  | none =>
    cases h
    rfl
  | some timeout =>
    simp only [deadlineAfter, bind_eq_ok, pure_eq_ok] at h
    obtain ⟨_, _, rfl⟩ := h
    rfl

theorem decideApplyTransition_eq_ok {command : ApplyTransition}
    (h : i.decideApplyTransition d command = .ok events) :
    ∃ e transition destination, MoveAdmitted d i e transition destination ∧
      e.transition.appliedAt = command.now ∧ e.transition.trigger = command.trigger ∧
      events = .transitionApplied e ::
        if d.isTerminalState transition.to_ then
          [.ceremonyCompleted { finalState := transition.to_, completedAt := command.now }]
        else [] := by
  simp only [decideApplyTransition, bind_eq_ok, requireDefinition_eq_ok,
    requireAdmitsNewWork_eq_ok, require_eq_ok, okOr_eq_ok, pure_eq_ok,
    requireInterventionsResolvedBeforeEntering, exists_const, Bool.or_eq_false_iff] at h
  obtain ⟨_, _, hm, hadms, ⟨hterm, hend⟩, transition, htr, _, _, hlive, hrepeat,
    hguards, nextVisit, hvisit, deadline, hdue, hresd, rfl⟩ := h
  refine ⟨_, transition, ⟨nextVisit, (d.stepsForState transition.to_).map (·.id),
    deadline.map (StateDeadline.mk transition.to_ nextVisit)⟩, ?_, rfl, rfl, rfl⟩
  exact {
    active := ⟨hm, hterm, hend⟩
    admits := hadms
    transition_eq := htr
    noLiveLease := hlive
    repeatPermits := hrepeat
    guards := hguards
    resolved := fun hto => by simpa [hto] using hresd
    fromState_eq := rfl
    toState_eq := rfl
    fromVisit_eq := rfl
    fromIteration_eq := rfl
    destination_eq := rfl
    visit_eq := hvisit
    stepIds_eq := rfl
    deadline_iff := by
      rw [Option.isSome_map]
      exact deadlineAfter_isSome hdue }

theorem decideApplyTransition_path {command : ApplyTransition}
    (h : i.decideApplyTransition d command = .ok events) (folded : i.applyAll events = .ok t) :
    (machine d).Path (Admitted d) i events t := by
  obtain ⟨e, transition, destination, hmove, -, -, rfl⟩ := decideApplyTransition_eq_ok h
  obtain ⟨j, hj, hrest⟩ := applyAll_cons_eq_ok.mp folded
  have hstep : (machine d).apply i (.transitionApplied e) = .ok j := hj
  refine .cons ⟨transition, destination, hmove⟩ hstep ?_
  split at hrest
  case isFalse hnot =>
    rw [if_neg hnot]
    cases hrest
    exact .nil _
  case isTrue hterm =>
    rw [if_pos hterm]
    obtain ⟨records, history, hshape⟩ := applyTransitionApplied_eq i hmove.destination_eq
    rw [apply, hshape, Except.ok.injEq] at hj
    subst hj
    obtain ⟨k, hk, hnil⟩ := applyAll_cons_eq_ok.mp hrest
    cases hnil
    refine .single ⟨hmove.active.matched, hmove.active.notEnded, hmove.admits, ?_, ?_⟩ hk
    · exact hmove.toState_eq.symm
    · change d.isTerminalState e.transition.toState = true
      rwa [hmove.toState_eq]

/-! ## Deadlines -/

/-- Step deadlines are filed under the step they are for. -/
def DeadlinesKeyed (i : CeremonyInstance) : Prop :=
  ∀ (stepId : StepId) (deadline : StepDeadline),
    i.stepDeadlines[stepId]? = some deadline → deadline.stepId = stepId

theorem DeadlinesKeyed.inOrder_stepIds (h : i.DeadlinesKeyed) :
    i.stepDeadlines.inOrder.map (·.stepId) = i.stepDeadlines.keys := by
  rw [Map.inOrder, ← ExtTreeMap.map_fst_toList_eq_keys, map_map]
  refine map_congr_left fun entry hent => ?_
  exact h _ _ (ExtTreeMap.mem_toList_iff_getElem?_eq_some.mp hent)

theorem DeadlinesKeyed.getElem?_of_mem_inOrder (h : i.DeadlinesKeyed) {deadline : StepDeadline}
    (hmem : deadline ∈ i.stepDeadlines.inOrder) :
    i.stepDeadlines[deadline.stepId]? = some deadline := by
  obtain ⟨stepId, hget⟩ := Map.mem_inOrder.mp hmem
  rwa [h _ _ hget]

/-- The swept deadlines belong to different steps, stand in the session and have run out. -/
theorem DeadlinesKeyed.dueStepDeadlines (h : i.DeadlinesKeyed) (now : OffsetDateTime)
    (terminal : Option OffsetDateTime) :
    ((i.dueStepDeadlines now terminal).map (·.stepId)).Nodup ∧
      ∀ deadline ∈ i.dueStepDeadlines now terminal,
        i.stepDeadlines[deadline.stepId]? = some deadline ∧ deadline.at_ ≤ now := by
  unfold CeremonyInstance.dueStepDeadlines
  constructor
  · refine (((perm_insertionSort _ _).map _).nodup_iff).mpr ?_
    refine List.Nodup.sublist (filter_sublist.map _) ?_
    rw [h.inOrder_stepIds]
    refine (ExtTreeMap.distinct_keys (t := i.stepDeadlines)).imp fun hne heq => hne ?_
    rw [heq]
    exact Std.ReflCmp.compare_self
  · intro deadline hmem
    rw [(perm_insertionSort _ _).mem_iff, mem_filter, Bool.and_eq_true, decide_eq_true_eq] at hmem
    exact ⟨h.getElem?_of_mem_inOrder hmem.1, hmem.2.1⟩

/-- The sweep of deadlines of different steps: each one is still there when its turn comes. -/
theorem sweep_path (hm : i.matchesDefinition d = true) (hend : i.isEnded = false)
    {deadlines : List StepDeadline} (hnd : (deadlines.map (·.stepId)).Nodup)
    (hdue : ∀ deadline ∈ deadlines,
      i.stepDeadlines[deadline.stepId]? = some deadline ∧ deadline.at_ ≤ now) :
    ∃ j, (machine d).Path (Admitted d) i (deadlines.map fun deadline =>
        .stepDeadlineExceeded ⟨deadline, StepResult.timedOut, now⟩) j ∧
      j.matchesDefinition d = true ∧ j.isEnded = false ∧
      j.ceremonyDeadline = i.ceremonyDeadline ∧ j.stateDeadline = i.stateDeadline := by
  induction deadlines generalizing i with
  | nil => exact ⟨i, .nil _, hm, hend, rfl, rfl⟩
  | cons deadline rest ih =>
    rw [map_cons, nodup_cons] at hnd
    rw [forall_mem_cons] at hdue
    have hrest : ∀ other ∈ rest,
        (i.applyStepDeadlineExceeded ⟨deadline, StepResult.timedOut, now⟩).stepDeadlines[
          other.stepId]? = some other ∧ other.at_ ≤ now := by
      intro other ho
      refine ⟨?_, (hdue.2 other ho).2⟩
      have hne : ¬ compare deadline.stepId other.stepId = .eq := by
        intro heq
        rw [Std.LawfulEqCmp.compare_eq_iff_eq] at heq
        exact hnd.1 (mem_map.mpr ⟨other, ho, heq.symm⟩)
      change (i.stepDeadlines.erase deadline.stepId)[other.stepId]? = some other
      rw [ExtTreeMap.getElem?_erase, if_neg hne]
      exact (hdue.2 other ho).1
    obtain ⟨j, hpath, hjmatch, hjended, hcer, hstate⟩ := ih
      (i := i.applyStepDeadlineExceeded ⟨deadline, StepResult.timedOut, now⟩)
      hm hend hnd.2 hrest
    refine ⟨j, ?_, hjmatch, hjended, hcer, hstate⟩
    exact .cons ⟨hm, hend, hdue.1.1, hdue.1.2, rfl⟩ rfl hpath

theorem decideEnforceDeadlines_path (keyed : i.DeadlinesKeyed)
    (h : i.decideEnforceDeadlines d now = .ok events) (folded : i.applyAll events = .ok t) :
    (machine d).Path (Admitted d) i events t := by
  simp only [decideEnforceDeadlines, bind_eq_ok, requireDefinition_eq_ok, exists_const] at h
  obtain ⟨hm, h⟩ := h
  split at h
  · cases h
    cases folded
    exact .nil _
  case isFalse hend =>
    rw [Bool.not_eq_true] at hend
    cases h
    obtain ⟨hnd, hdue⟩ := keyed.dueStepDeadlines now _
    obtain ⟨j, hpath, hjmatch, hjended, hcer, hstate⟩ := sweep_path hm hend hnd hdue
    refine hpath.append ?_
    obtain ⟨k, hk, hending⟩ := applyAll_append_eq_ok.mp folded
    have hfold := hpath.fold_eq
    rw [machine_fold, hk, Except.ok.injEq] at hfold
    subst hfold
    refine path_of_at_most_one ?_ hending
    unfold deadlineEnding
    split
    case h_1 ceremony state hcdue hsdue =>
      rw [Option.filter_eq_some_iff, decide_eq_true_eq] at hcdue hsdue
      split
      · exact .inr ⟨_, rfl, hjmatch, hjended, hcer.trans hcdue.1, hcdue.2⟩
      · exact .inr ⟨_, rfl, hjmatch, hjended, hstate.trans hsdue.1, hsdue.2⟩
    case h_2 state hcdue hsdue =>
      rw [Option.filter_eq_some_iff, decide_eq_true_eq] at hsdue
      exact .inr ⟨_, rfl, hjmatch, hjended, hstate.trans hsdue.1, hsdue.2⟩
    case h_3 ceremony hcdue hsdue =>
      rw [Option.filter_eq_some_iff, decide_eq_true_eq] at hcdue
      exact .inr ⟨_, rfl, hjmatch, hjended, hcer.trans hcdue.1, hcdue.2⟩
    · exact .inl rfl

/-! ## All commands -/

def resultTypes : List AuditEventType :=
  [.lateStepResultObserved, .stepFailed, .stepCompleted, .contextWritten, .stateIterationStarted]

/-- The types of event that end a ceremony or a claim on its own clock. -/
def endingTypes : List AuditEventType :=
  [.ceremonyCompleted, .stepDeadlineExceeded, .ceremonyDeadlineExceeded, .stateDeadlineExceeded]

def emits : CeremonyCommand → List AuditEventType
  | .recordHostHandoff _ => [.hostHandoffRecorded]
  | .bindParticipant _ => [.participantsBound]
  | .startStep _ => [.stepStarted]
  | .renewStepLease _ => [.stepLeaseRenewed]
  | .applyStepResult _ => resultTypes
  | .applyExecutionReceiptResult _ => .executionReceiptLinked :: resultTypes
  | .applyTransition _ => [.transitionApplied, .ceremonyCompleted]
  | .approveGuard _ => [.humanApprovalRecorded]
  | .deferGuard _ => [.humanDeferralRecorded]
  | .requestIntervention _ => [.interventionRequested]
  | .respondToIntervention _ => [.interventionResponded]
  | .respondToInterventionWithEvidence _ => [.evidenceCollected, .interventionResponded]
  | .acknowledgeInterventionDelivery _ => [.interventionDeliveryAcknowledged]
  | .assertReason _ => [.reasonAsserted]
  | .closeIntervention _ => [.interventionClosed]
  | .planCeremonyChildren _ => [.childSpawnPlanned]
  | .planSuccessor _ => [.successorPlanned]
  | .adoptChildSpawnPlan _ => [.childSpawnPlanAdopted]
  | .acceptChildCompletion _ => [.childCompletionAccepted]
  | .pauseCeremony _ => [.ceremonyPaused]
  | .resumeCeremony _ => [.ceremonyResumed]
  | .cancelCeremony _ => [.ceremonyCancelled]
  | .enforceCeremonyDeadlines _ =>
    [.stepDeadlineExceeded, .ceremonyDeadlineExceeded, .stateDeadlineExceeded]

/-- All but five commands are decided into at most one event. -/
theorem decide_atMostOne (h : i.decide d command = .ok events)
    (hsingle : (emits command).length = 1) :
    ∃ eventType, emits command = [eventType] ∧ AtMostOne d i eventType events := by
  cases command with
  | recordHostHandoff => exact ⟨_, rfl, decideRecordHostHandoff_atMostOne h⟩
  | bindParticipant => exact ⟨_, rfl, decideBindParticipant_atMostOne h⟩
  | startStep =>
    obtain ⟨e, step, record, rfl, hadm, _⟩ := decideStartStep_eq_ok h
    exact ⟨_, rfl, .inr ⟨_, rfl, rfl, step, record, hadm⟩⟩
  | renewStepLease => exact ⟨_, rfl, decideRenewStepLease_atMostOne h⟩
  | approveGuard => exact ⟨_, rfl, decideApproveGuard_atMostOne h⟩
  | deferGuard => exact ⟨_, rfl, decideDeferGuard_atMostOne h⟩
  | requestIntervention => exact ⟨_, rfl, decideRequestIntervention_atMostOne h⟩
  | respondToIntervention => exact ⟨_, rfl, decideRespondToIntervention_atMostOne h⟩
  | acknowledgeInterventionDelivery =>
    exact ⟨_, rfl, decideAcknowledgeInterventionDelivery_atMostOne h⟩
  | assertReason => exact ⟨_, rfl, decideAssertReason_atMostOne h⟩
  | closeIntervention => exact ⟨_, rfl, decideCloseIntervention_atMostOne h⟩
  | planCeremonyChildren => exact ⟨_, rfl, decidePlanChildren_atMostOne h⟩
  | planSuccessor => exact ⟨_, rfl, decidePlanSuccessor_atMostOne h⟩
  | adoptChildSpawnPlan => exact ⟨_, rfl, decideAdoptChildPlan_atMostOne h⟩
  | acceptChildCompletion => exact ⟨_, rfl, decideAcceptChildCompletion_atMostOne h⟩
  | pauseCeremony => exact ⟨_, rfl, decidePause_atMostOne h⟩
  | resumeCeremony => exact ⟨_, rfl, decideResume_atMostOne h⟩
  | cancelCeremony => exact ⟨_, rfl, decideCancel_atMostOne h⟩
  | _ => cases hsingle

/-- The batch of an accepted command is a path of admitted events. -/
theorem decide_path (keyed : i.DeadlinesKeyed) (h : i.decide d command = .ok events)
    (folded : i.applyAll events = .ok t) : (machine d).Path (Admitted d) i events t := by
  cases command with
  | applyStepResult => exact decideApplyStepResult_path h folded
  | applyExecutionReceiptResult => exact decideApplyExecutionReceiptResult_path h folded
  | applyTransition => exact decideApplyTransition_path h folded
  | respondToInterventionWithEvidence =>
    exact decideRespondToInterventionWithEvidence_path h folded
  | enforceCeremonyDeadlines => exact decideEnforceDeadlines_path keyed h folded
  | _ =>
    obtain ⟨_, -, hone⟩ := decide_atMostOne h rfl
    exact hone.path folded

/-! ## Events without their fold

What a single event of an accepted batch says does not need the batch to be folded.  The events of
a sweep and the completion are the exception: they are admitted only after the events before
them. -/

/-- An event of one of the given types that a session admitted, or that ends something. -/
def Decided (d : CeremonyDefinition) (types : List AuditEventType) (e : CeremonyEvent) : Prop :=
  e.eventType ∈ types ∧ ((∃ j, Admitted d j e) ∨ e.eventType ∈ endingTypes)

theorem AtMostOne.each {eventType : AuditEventType} (h : AtMostOne d i eventType events) :
    ∀ e ∈ events, Decided d [eventType] e := by
  rcases h with rfl | ⟨e, rfl, htype, hadm⟩
  · simp
  · rw [forall_mem_singleton]
    exact ⟨mem_singleton.mpr htype, .inl ⟨i, hadm⟩⟩

theorem FiledResult.each {command : ApplyStepResult} (h : FiledResult d i command events) :
    ∀ e ∈ events, Decided d resultTypes e := by
  cases h with
  | repeated => simp
  | late e record admitted =>
    rw [forall_mem_singleton]
    exact ⟨by simp [resultTypes, eventType], .inl ⟨i, record, admitted⟩⟩
  | current step record _ claim result =>
    cases result with
    | failed finishedBy failure =>
      rw [forall_mem_singleton]
      exact ⟨by simp [resultTypes, eventType],
        .inl ⟨i, step, record, _, claim, rfl, rfl, rfl, rfl, failure⟩⟩
    | completed next finishedBy patch projected more success hnext hpatch hproj hmore =>
      obtain ⟨hpath, hm, hend⟩ := completion_path claim success hnext hpatch hproj
      intro e hmem
      rcases mem_append.mp hmem with hmem | hmem
      · refine ⟨?_, .inl (hpath.forall_mem e hmem)⟩
        cases patch <;> simp [completionEvents] at hmem <;>
          rcases hmem with rfl | rfl <;> simp [resultTypes, eventType]
      · rcases decideStateIteration_eq_ok hm hend hmore with rfl | ⟨e', rfl, hadm⟩
        · simp at hmem
        · rw [mem_singleton] at hmem
          subst hmem
          exact ⟨by simp [resultTypes, eventType], .inl ⟨projected, hadm⟩⟩

theorem FiledReceipt.each {command : ApplyExecutionReceiptResult}
    (h : FiledReceipt d i command events) :
    ∀ e ∈ events, Decided d (.executionReceiptLinked :: resultTypes) e := by
  cases h with
  | repeated => simp
  | linked record results admitted filed =>
    rw [forall_mem_cons]
    refine ⟨⟨mem_cons_self, .inl ⟨i, record, admitted⟩⟩, fun e hmem => ?_⟩
    obtain ⟨htype, hadm⟩ := filed.each e hmem
    exact ⟨mem_cons_of_mem _ htype, hadm⟩

theorem decideApplyTransition_each {command : ApplyTransition}
    (h : i.decideApplyTransition d command = .ok events) :
    ∀ e ∈ events, Decided d [.transitionApplied, .ceremonyCompleted] e := by
  obtain ⟨e, transition, destination, hmove, -, -, rfl⟩ := decideApplyTransition_eq_ok h
  rw [forall_mem_cons]
  refine ⟨⟨mem_cons_self, .inl ⟨i, transition, destination, hmove⟩⟩, ?_⟩
  split
  · simp [Decided, endingTypes, eventType]
  · simp

theorem decideRespondToInterventionWithEvidence_each {command : RespondToInterventionWithEvidence}
    (h : i.decideRespondToInterventionWithEvidence d command = .ok events) :
    ∀ e ∈ events, Decided d [.evidenceCollected, .interventionResponded] e := by
  simp only [decideRespondToInterventionWithEvidence, bind_eq_ok, requireActive_eq_ok,
    requireRole_eq_ok, requireOpenIntervention_eq_ok, pure_eq_ok, exists_const] at h
  obtain ⟨hact, ⟨_, hrole⟩, item, hitem, _, hrespond, response, hresponse, rfl⟩ := h
  have hrole_eq := fromEvidence_roleId hresponse
  rw [forall_mem_cons, forall_mem_singleton]
  refine ⟨⟨by simp [eventType], .inl ⟨i, item, hact, hrole, hitem, hrespond⟩⟩,
    ⟨by simp [eventType], .inl ⟨i, item, hact, ?_, hitem, ?_⟩⟩⟩
  · rwa [hrole_eq]
  · rwa [hrole_eq]

theorem decideEnforceDeadlines_each (h : i.decideEnforceDeadlines d now = .ok events) :
    ∀ e ∈ events, Decided d
      [.stepDeadlineExceeded, .ceremonyDeadlineExceeded, .stateDeadlineExceeded] e := by
  simp only [decideEnforceDeadlines, bind_eq_ok, requireDefinition_eq_ok, exists_const] at h
  obtain ⟨-, h⟩ := h
  split at h
  · cases h
    simp
  · cases h
    intro e hmem
    rcases mem_append.mp hmem with hmem | hmem
    · obtain ⟨deadline, -, rfl⟩ := mem_map.mp hmem
      simp [Decided, endingTypes, eventType]
    · unfold deadlineEnding at hmem
      repeat' split at hmem
      all_goals simp at hmem
      all_goals
        subst hmem
        simp [Decided, endingTypes, eventType]

/-- Every event of an accepted batch is of a type its command emits. -/
theorem decide_each (h : i.decide d command = .ok events) :
    ∀ e ∈ events, Decided d (emits command) e := by
  cases command with
  | applyStepResult => exact (decideApplyStepResult_eq_ok h).each
  | applyExecutionReceiptResult => exact (decideApplyExecutionReceiptResult_eq_ok h).each
  | applyTransition => exact decideApplyTransition_each h
  | respondToInterventionWithEvidence => exact decideRespondToInterventionWithEvidence_each h
  | enforceCeremonyDeadlines => exact decideEnforceDeadlines_each h
  | _ =>
    obtain ⟨_, hemits, hone⟩ := decide_atMostOne h rfl
    rw [hemits]
    exact hone.each

theorem transitionApplied_mem_emits (h : .transitionApplied ∈ emits command) :
    ∃ move, command = .applyTransition move := by
  cases command with
  | applyTransition move => exact ⟨move, rfl⟩
  | _ => simp [emits, resultTypes] at h

end CeremonyInstance

end Made
