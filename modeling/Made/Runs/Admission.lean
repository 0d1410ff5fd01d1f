import Made.Decisions.Decide
import Made.Library.EventSourcing

/-!
# When an event is admitted

For every kind of event, what the decisions establish about the session it is folded into.  The
predicate is stated event by event, so that an invariant needs one case for an event that touches
it; `Made.Runs.Soundness` proves that every event of an accepted batch is admitted in this sense.
-/

namespace Made

namespace CeremonyInstance

variable (d : CeremonyDefinition) (i : CeremonyInstance)

/-- The session belongs to the definition, is not in a terminal state and has not ended. -/
structure Active : Prop where
  matched : i.matchesDefinition d = true
  notTerminal : i.isTerminal d = false
  notEnded : i.isEnded = false

/-! ## Claims -/

/-- What a start establishes about the step, its record and the claim it seals. -/
structure StartAdmitted (e : StepStarted)
    (step : CeremonyStep) (record : StepExecutionRecord) : Prop where
  active : i.Active d
  admits : i.admitsNewWork = true
  step_eq : d.step e.stepId = some step
  inState : step.stateId = i.currentState
  record_eq : i.stepRecords[e.stepId]? = some record
  startable : record.canBeStartedAt e.startedAt = true
  attempt_eq : record.nextStartAttempt = .ok e.attempt
  allowed : step.retryPolicy.allowsAttempt e.attempt = true
  claimable : ∃ ceiling, i.resolvedStepIsClaimableAt d e.stepId e.startedAt ceiling = .ok true
  freshKey : e.lease.idempotencyKey ∉ i.idempotencyKeys
  visit_eq : e.stateVisit = some i.currentStateVisit
  stateIteration_eq : e.stateIteration = some i.currentStateIteration
  iteration_eq : e.iteration = record.iteration
  oneSeal : e.roleFrom = none ∨ e.sealedRole = none
  sealed_eq : ∀ role, e.sealedRole = some role → role = e.startedBy
  deadline_eq : ∀ deadline, e.deadline = some deadline →
    deadline.stepId = e.stepId ∧ deadline.stateVisit = i.currentStateVisit ∧
      deadline.stateIteration = i.currentStateIteration ∧
      deadline.stepIteration = record.iteration ∧ deadline.attempt = e.attempt ∧
      StepClaimFence.forRecord i.id e.stepId ((record.withStarted e.lease e.attempt
        (claimedRoleOf e)).withBudgetReservation e.budgetReservationId) = .ok deadline.claimFence

/-- A claim that is in progress under the fence a result presents. -/
structure CurrentClaim (stepId : StepId)
    (step : CeremonyStep) (record : StepExecutionRecord) (fence : StepClaimFence) : Prop where
  matched : i.matchesDefinition d = true
  notEnded : i.isEnded = false
  step_eq : d.step stepId = some step
  inState : step.stateId = i.currentState
  record_eq : i.stepRecords[stepId]? = some record
  inProgress : record.status = .inProgress
  fence_eq : i.stepClaimFence stepId = .ok fence
  notLate : i.lateStepResults[fence]? = none
  notRetired : i.retiredClaim stepId fence = none

structure CompletionAdmitted (e : StepCompleted)
    (step : CeremonyStep) (record : StepExecutionRecord) (fence : StepClaimFence) : Prop where
  claim : CurrentClaim d i e.stepId step record fence
  visit_eq : e.stateVisit = some i.currentStateVisit
  stateIteration_eq : e.stateIteration = some i.currentStateIteration
  iteration_eq : e.iteration = record.iteration
  attempt_eq : e.attempt = record.attempt
  success : e.result.isSuccess = true
  next_eq : nextIterationAfter step e.result record.iteration = .ok e.nextIteration

structure FailureAdmitted (e : StepFailed)
    (step : CeremonyStep) (record : StepExecutionRecord) (fence : StepClaimFence) : Prop where
  claim : CurrentClaim d i e.stepId step record fence
  visit_eq : e.stateVisit = some i.currentStateVisit
  stateIteration_eq : e.stateIteration = some i.currentStateIteration
  iteration_eq : e.iteration = record.iteration
  attempt_eq : e.attempt = record.attempt
  failure : e.result.isSuccess = false

/-- A result whose claim was retired by a deadline or overtaken by the end of the ceremony. -/
structure LateAdmitted (late : LateStepResult) (record : StepExecutionRecord) : Prop where
  matched : i.matchesDefinition d = true
  unseen : i.lateStepResults[late.claimFence]? = none
  gone : i.isEnded = true ∨ (i.retiredClaim late.stepId late.claimFence).isSome = true
  record_eq : i.stepRecords[late.stepId]? = some record
  claimed : i.liveClaimMatches record late.stepId late.claimFence = true ∨
    (i.retiredClaim late.stepId late.claimFence).isSome = true

structure RenewalAdmitted (e : StepLeaseRenewed)
    (record : StepExecutionRecord) (lease : StepLease) : Prop where
  active : i.Active d
  fresh : ∀ request, e.request = some request → i.leaseRenewals[request.id]? = none
  fence_eq : i.stepClaimFence e.stepId = .ok e.claimFence
  record_eq : i.stepRecords[e.stepId]? = some record
  lease_eq : record.lease = some lease
  live : record.hasLiveLeaseAt e.renewedAt = true
  expected : record.effectiveLeaseExpiresAt = some e.previousExpiresAt
  extends_ : e.previousExpiresAt ≤ e.expiresAt
  ahead : e.renewedAt < e.expiresAt
  within : ∀ at_, i.absoluteDeadline e.stepId = some at_ → e.renewedAt < at_ ∧ e.expiresAt ≤ at_

/-- The state repeat that starts another iteration. -/
structure IterationAdmitted (e : StateIterationStarted) : Prop where
  matched : i.matchesDefinition d = true
  notEnded : i.isEnded = false
  stateId_eq : e.stateId = i.currentState
  visit_eq : e.stateVisit = some i.currentStateVisit
  next_eq : i.currentStateIteration.next = .ok e.stateIteration
  stepIds_eq : e.stepIds = (d.stepsForState i.currentState).map (·.id)
  complete : i.stateWorkIsComplete d = true

/-! ## Moves -/

structure MoveAdmitted (e : TransitionApplied)
    (transition : CeremonyTransition) (destination : StateVisitEntry) : Prop where
  active : i.Active d
  admits : i.admitsNewWork = true
  transition_eq : d.transitionForTrigger i.currentState e.transition.trigger = some transition
  noLiveLease : i.hasLiveStepLeasesAt d e.transition.appliedAt = false
  repeatPermits : i.stateRepeatPermits d transition = true
  guards : i.guardsAreSatisfied d transition = true
  resolved : d.isTerminalState transition.to_ = true → i.interventions.any (·.status.isOpen) = false
  fromState_eq : e.transition.fromState = i.currentState
  toState_eq : e.transition.toState = transition.to_
  fromVisit_eq : e.transition.stateVisit = some i.currentStateVisit
  fromIteration_eq : e.transition.stateIteration = some i.currentStateIteration
  destination_eq : e.destination = some destination
  visit_eq : i.currentStateVisit.next = .ok destination.stateVisit
  stepIds_eq : destination.stepIds = (d.stepsForState transition.to_).map (·.id)
  deadline_iff : destination.deadline.isSome = d.stateTimeout.isSome

/-- The completion that follows a move into a terminal state. -/
structure CompletedAdmitted (e : CeremonyCompleted) : Prop where
  matched : i.matchesDefinition d = true
  notEnded : i.isEnded = false
  admits : i.admitsNewWork = true
  finalState_eq : e.finalState = i.currentState
  terminal : d.isTerminalState i.currentState = true

/-! ## Receipts and children -/

structure LinkAdmitted (e : ExecutionReceiptLinked) (record : StepExecutionRecord) : Prop where
  matched : i.matchesDefinition d = true
  valid : e.link.validate = .ok ()
  unlinked : i.executionReceiptLinks[e.link.operationId]? ≠ some e.link
  direct : e.link.kind = .direct → i.executionReceiptLinks[e.link.operationId]? = none
  adopted : e.link.kind = .adopted →
    i.executionReceiptAdoption e.link.operationId e.link.appliedClaimFence = none
  record_eq : i.stepRecords[e.stepId]? = some record
  operation_eq : e.link.operationId = i.expectedOperationId e.stepId e.link.appliedClaimFence record

structure PlanAdmitted (e : ChildSpawnPlanned) : Prop where
  matched : i.matchesDefinition d = true
  fresh : i.childGroups[e.plan.groupId]? = none
  admits : i.admitsNewWork = true
  fence_eq : i.stepClaimFence e.plan.coordinates.stepId = .ok e.plan.activeClaimFence

structure AdoptionAdmitted (e : ChildSpawnPlanAdopted) (group : ChildGroupState) : Prop where
  matched : i.matchesDefinition d = true
  group_eq : i.childGroups[e.groupId]? = some group
  moved : group.adoptedClaimFence ≠ e.claimFence
  fence_eq : i.stepClaimFence group.plan.coordinates.stepId = .ok e.claimFence

structure ChildAdmitted (e : ChildCompletionAccepted) (group : ChildGroupState) : Prop where
  matched : i.matchesDefinition d = true
  group_eq : i.childGroups[e.completion.groupId]? = some group
  planned : group.plan.children.any (·.childId = e.completion.childId) = true
  fresh : group.completions[e.completion.childId]? = none

structure HandoffAdmitted (e : HostHandoffRecorded) : Prop where
  matched : i.matchesDefinition d = true
  fresh : i.hostHandoffs[e.declaration.id]? = none
  fence_eq : i.stepClaimFence e.declaration.stepId = .ok e.declaration.claimFence

/-! ## The table -/

structure RequestAdmitted (command : RequestIntervention) : Prop where
  active : i.Active d
  requester : i.requireRequester d command = .ok ()
  target : requireInterventionTarget d command.target = .ok ()
  fresh : i.intervention command.interventionId = none

/-- An item of the agenda that a role may answer. -/
structure AnswerAdmitted (interventionId : CeremonyInterventionId) (roleId : RoleId)
    (item : CeremonyIntervention) : Prop where
  active : i.Active d
  allowed : d.roleAllows roleId .respondToIntervention = true
  item_eq : i.intervention interventionId = some item
  canRespond : item.ensureCanRespond roleId = .ok ()

structure CloseAdmitted (e : InterventionClosed) (item : CeremonyIntervention) : Prop where
  active : i.Active d
  allowed : d.roleAllows e.closedBy .requestIntervention = true
  item_eq : i.intervention e.interventionId = some item
  opened : item.status.isOpen = true
  requester : e.closedBy = item.requestedBy

structure AckAdmitted
    (e : InterventionDeliveryAcknowledged) (item : CeremonyIntervention) : Prop where
  active : i.Active d
  item_eq : i.intervention e.interventionId = some item
  admitsRecipient : item.target.admitsRecipient e.ack.recipient = true
  fresh : item.deliveryAck e.ack.deliveryId = none

structure ApprovalAdmitted
    (approval : CeremonyGuardApproval) (context : CeremonyContext) : Prop where
  active : i.Active d
  human : ∃ guard, d.guards[approval.guardName]? = some guard ∧ guard.condition = .humanApproval
  role : (d.role approval.approvedBy).isSome = true
  context_eq : i.context.withGuardApproval approval.guardName = .ok context

structure DeferralAdmitted (deferral : CeremonyGuardDeferral) : Prop where
  active : i.Active d
  human : ∃ guard, d.guards[deferral.guardName]? = some guard ∧ guard.condition = .humanApproval
  role : (d.role deferral.deferredBy).isSome = true
  notApproved : i.context.isGuardApproved deferral.guardName = false

/-! ## All events -/

/-- What is known of a session when an event of an accepted batch is folded into it. -/
def Admitted : CeremonyEvent → Prop
  | .hostHandoffRecorded e => HandoffAdmitted d i e
  | .participantsBound bindings =>
    i.Active d ∧ ∃ binding, bindings = [binding] ∧ (d.role binding.roleId).isSome = true
  | .stepStarted e => ∃ step record, StartAdmitted d i e step record
  | .stepLeaseRenewed e => ∃ record lease, RenewalAdmitted d i e record lease
  | .stepCompleted e => ∃ step record fence, CompletionAdmitted d i e step record fence
  | .stepFailed e => ∃ step record fence, FailureAdmitted d i e step record fence
  | .contextWritten e =>
    e.stateVisit = some i.currentStateVisit ∧ e.stateIteration = i.currentStateIteration ∧
      ∃ step output, d.step e.stepId = some step ∧
        step.contextWrites.resolve output = .ok (some e.patch)
  | .stateIterationStarted e => IterationAdmitted d i e
  | .transitionApplied e => ∃ transition destination, MoveAdmitted d i e transition destination
  | .interventionRequested intervention =>
    ∃ command, intervention = requestedIntervention command ∧ RequestAdmitted d i command
  | .interventionResponded e =>
    ∃ item, AnswerAdmitted d i e.interventionId e.response.roleId item
  | .interventionClosed e => ∃ item, CloseAdmitted d i e item
  | .interventionDeliveryAcknowledged e => ∃ item, AckAdmitted d i e item
  | .evidenceCollected e => ∃ item, AnswerAdmitted d i e.interventionId e.collectedBy item
  | .reasonAsserted reason => i.matchesDefinition d = true ∧ ∃ roleId,
      reason.assertedBy = some roleId ∧ (d.role roleId).isSome = true
  | .humanApprovalRecorded approval => ∃ context, ApprovalAdmitted d i approval context
  | .humanDeferralRecorded deferral => DeferralAdmitted d i deferral
  | .ceremonyCompleted e => CompletedAdmitted d i e
  | .childSpawnPlanned e => PlanAdmitted d i e
  | .childSpawnPlanAdopted e => ∃ group, AdoptionAdmitted d i e group
  | .childCompletionAccepted e => ∃ group, ChildAdmitted d i e group
  | .ceremonyPaused _ =>
    i.matchesDefinition d = true ∧ i.isEnded = false ∧ i.lifecycle_.phase = .running
  | .ceremonyResumed _ =>
    i.matchesDefinition d = true ∧ i.isEnded = false ∧ i.lifecycle_.phase = .paused ∧
      i.successorPlan = none
  | .ceremonyCancelled _ => i.matchesDefinition d = true ∧ i.isEnded = false
  | .ceremonyDeadlineExceeded e =>
    i.matchesDefinition d = true ∧ i.isEnded = false ∧
      i.ceremonyDeadline = some e.deadline ∧ e.deadline.at_ ≤ e.observedAt
  | .stateDeadlineExceeded e =>
    i.matchesDefinition d = true ∧ i.isEnded = false ∧
      i.stateDeadline = some e.deadline ∧ e.deadline.at_ ≤ e.observedAt
  | .stepDeadlineExceeded e =>
    i.matchesDefinition d = true ∧ i.isEnded = false ∧
      i.stepDeadlines[e.deadline.stepId]? = some e.deadline ∧
      e.deadline.at_ ≤ e.observedAt ∧ e.result = StepResult.timedOut
  | .lateStepResultObserved e => ∃ record, LateAdmitted d i e.result record
  | .executionReceiptLinked e => ∃ record, LinkAdmitted d i e record
  | .successorPlanned _ =>
    i.matchesDefinition d = true ∧ i.successorPlan = none ∧ i.lifecycle_.phase = .paused
  -- An opening is folded before the first command, and an import is never decided.
  | .ceremonyInstanceStarted _ | .instanceImported _ | .memoryRecalled _
  | .successionCarried _ => False

end CeremonyInstance

end Made
