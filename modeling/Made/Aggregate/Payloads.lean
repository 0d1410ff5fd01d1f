import Made.Values.Agenda
import Made.Values.Lineage

/-!
# Event payloads and commands

The facts a ceremony seals and the requests it decides, field by field as the engine declares
them.  Coordinates that later versions of a payload added are optional, because the version of a
payload is read off which of them are present.
-/

namespace Made

/-! ## Event payloads -/

structure CeremonyInstanceStarted where
  ceremonyId : CeremonyId
  definitionName : CeremonyName
  definitionVersion : CeremonyVersion
  initialState : StateId
  /-- In key order, each once. -/
  stepIds : List StepId
  context : CeremonyContext
  boundDefinition : Option CeremonyDefinitionDigest
  lineage : Option CeremonyLineage
  succession : Option CeremonySuccession
  budgetAccountId : Option BudgetAccountId
  ceremonyDeadline : Option CeremonyDeadline
  stateDeadline : Option StateDeadline
  createdAt : OffsetDateTime
deriving DecidableEq

structure StepStarted where
  stepId : StepId
  stateVisit : Option StateVisit
  stateIteration : Option StateIteration
  iteration : StepIteration
  attempt : StepAttempt
  lease : StepLease
  startedBy : RoleId
  roleFrom : Option ContextKey
  sealedRole : Option RoleId
  deadline : Option StepDeadline
  budgetReservationId : Option BudgetReservationId
  startedAt : OffsetDateTime
deriving DecidableEq

structure StepLeaseRenewed where
  request : Option StepLeaseRenewalRequest
  stepId : StepId
  claimFence : StepClaimFence
  leaseOwnerId : LeaseOwnerId
  previousExpiresAt : OffsetDateTime
  expiresAt : OffsetDateTime
  renewedAt : OffsetDateTime
deriving DecidableEq

structure StepCompleted where
  stepId : StepId
  stateVisit : Option StateVisit
  stateIteration : Option StateIteration
  iteration : StepIteration
  attempt : StepAttempt
  result : StepResult
  nextIteration : Option StepIteration
  finishedBy : RoleId
  finishedAt : OffsetDateTime
deriving DecidableEq

structure StepFailed where
  stepId : StepId
  stateVisit : Option StateVisit
  stateIteration : Option StateIteration
  iteration : StepIteration
  attempt : StepAttempt
  result : StepResult
  finishedBy : RoleId
  finishedAt : OffsetDateTime
deriving DecidableEq

structure ContextWritten where
  stepId : StepId
  stateVisit : Option StateVisit
  stateIteration : StateIteration
  iteration : StepIteration
  attempt : StepAttempt
  patch : ContextPatch
  writtenAt : OffsetDateTime
deriving DecidableEq

structure StateIterationStarted where
  stateId : StateId
  stateVisit : Option StateVisit
  stateIteration : StateIteration
  stepIds : List StepId
  startedAt : OffsetDateTime
deriving DecidableEq

structure CeremonyTransitionRecord where
  trigger : TransitionTrigger
  fromState : StateId
  stateIteration : Option StateIteration
  stateVisit : Option StateVisit
  toState : StateId
  appliedBy : Option RoleId
  appliedAt : OffsetDateTime
deriving DecidableEq

structure StateVisitEntry where
  stateVisit : StateVisit
  stepIds : List StepId
  deadline : Option StateDeadline
deriving DecidableEq

structure TransitionApplied where
  transition : CeremonyTransitionRecord
  destination : Option StateVisitEntry
deriving DecidableEq

structure InterventionResponded where
  interventionId : CeremonyInterventionId
  response : CeremonyInterventionResponse
deriving DecidableEq

structure InterventionClosed where
  interventionId : CeremonyInterventionId
  closedBy : RoleId
  closedAt : OffsetDateTime
deriving DecidableEq

structure InterventionDeliveryAcknowledged where
  interventionId : CeremonyInterventionId
  ack : InterventionDeliveryAck
deriving DecidableEq

structure EvidenceCollected where
  interventionId : CeremonyInterventionId
  sourceId : CeremonyEvidenceSourceId
  collectedBy : RoleId
  evidencePack : CeremonyEvidencePack
  collectedAt : OffsetDateTime
deriving DecidableEq

structure CeremonyCompleted where
  finalState : StateId
  completedAt : OffsetDateTime
deriving DecidableEq

structure MemoryRecalled where
  recollection : SessionRecollection
  recalledAt : OffsetDateTime
deriving DecidableEq

structure ChildSpawnPlanned where
  plan : ChildSpawnPlan
  plannedAt : OffsetDateTime
deriving DecidableEq

structure ChildSpawnPlanAdopted where
  groupId : ChildGroupId
  claimFence : StepClaimFence
  adoptedAt : OffsetDateTime
deriving DecidableEq

structure ChildCompletionAccepted where
  completion : ChildCompletionRef
  acceptedAt : OffsetDateTime
deriving DecidableEq

structure CeremonyPaused where
  reason : LifecycleReason
  pausedAt : OffsetDateTime
deriving DecidableEq

structure CeremonyResumed where
  resumedAt : OffsetDateTime
deriving DecidableEq

structure CeremonyCancelled where
  reason : LifecycleReason
  cancelledAt : OffsetDateTime
deriving DecidableEq

structure CeremonyDeadlineExceeded where
  deadline : CeremonyDeadline
  observedAt : OffsetDateTime
deriving DecidableEq

structure StateDeadlineExceeded where
  deadline : StateDeadline
  observedAt : OffsetDateTime
deriving DecidableEq

structure StepDeadlineExceeded where
  deadline : StepDeadline
  result : StepResult
  observedAt : OffsetDateTime
deriving DecidableEq

structure LateStepResultObserved where
  result : LateStepResult
  observedAt : OffsetDateTime
deriving DecidableEq

structure ExecutionReceiptLinked where
  stepId : StepId
  link : ExecutionReceiptLink
  linkedAt : OffsetDateTime
deriving DecidableEq

structure HostHandoffRecorded where
  declaration : HostHandoffDeclaration
  recordedAt : OffsetDateTime
deriving DecidableEq

structure SuccessionCarried where
  carried : List CarriedEvidence
  carriedAt : OffsetDateTime
deriving DecidableEq

/-! ## Commands -/

structure StartStep where
  roleId : Option RoleId
  stepId : StepId
  lease : StepLease
  now : OffsetDateTime
  maxParallelCeiling : MaxParallel
  budgetReservationId : Option BudgetReservationId
deriving DecidableEq

structure RenewStepLease where
  request : Option StepLeaseRenewalRequest
  stepId : StepId
  claimFence : StepClaimFence
  leaseOwnerId : LeaseOwnerId
  expectedExpiresAt : OffsetDateTime
  expiresAt : OffsetDateTime
  now : OffsetDateTime
deriving DecidableEq

structure ApplyStepResult where
  stepId : StepId
  claimFence : StepClaimFence
  result : StepResult
  now : OffsetDateTime
deriving DecidableEq

structure ApplyExecutionReceiptResult where
  stepId : StepId
  claimFence : StepClaimFence
  receiptLink : ExecutionReceiptLink
  result : StepResult
  now : OffsetDateTime
deriving DecidableEq

structure ApplyTransition where
  roleId : Option RoleId
  trigger : TransitionTrigger
  now : OffsetDateTime
deriving DecidableEq

structure ApproveGuard where
  guardName : GuardName
  approvedBy : RoleId
  approvedByKind : AuditActorKind
  now : OffsetDateTime
deriving DecidableEq

structure DeferGuard where
  guardName : GuardName
  content : CeremonyGuardDeferralContent
  deferredBy : RoleId
  deferredByKind : AuditActorKind
  now : OffsetDateTime
deriving DecidableEq

structure RequestIntervention where
  interventionId : CeremonyInterventionId
  roleId : RoleId
  kind : CeremonyInterventionKind
  target : CeremonyInterventionTarget
  content : CeremonyInterventionContent
  provenance : Option CeremonyInterventionProvenance
  intent : Option CeremonyInterventionIntent
  delivery : Option InterventionDeliveryPolicy
  supervisor : Option SupervisorPrincipal
  now : OffsetDateTime
deriving DecidableEq

structure RespondToIntervention where
  interventionId : CeremonyInterventionId
  roleId : RoleId
  content : CeremonyInterventionContent
  executor : Option DeliveryRecipient
  deliveryId : Option HostDeliveryId
  now : OffsetDateTime
deriving DecidableEq

structure RespondToInterventionWithEvidence where
  interventionId : CeremonyInterventionId
  roleId : RoleId
  evidencePack : CeremonyEvidencePack
  now : OffsetDateTime
deriving DecidableEq

structure AcknowledgeInterventionDelivery where
  interventionId : CeremonyInterventionId
  ack : InterventionDeliveryAck
  now : OffsetDateTime
deriving DecidableEq

structure CloseIntervention where
  interventionId : CeremonyInterventionId
  roleId : RoleId
  now : OffsetDateTime
deriving DecidableEq

structure BindParticipant where
  roleId : RoleId
  specialty : Specialty
  now : OffsetDateTime
deriving DecidableEq

structure PlanCeremonyChildren where
  plan : ChildSpawnPlan
  now : OffsetDateTime
deriving DecidableEq

structure PlanSuccessor where
  plan : SuccessionPlan
  successor : PublishedCeremonyDefinition
  diff : CeremonyDefinitionDiff
  now : OffsetDateTime
deriving DecidableEq

structure AdoptChildSpawnPlan where
  groupId : ChildGroupId
  claimFence : StepClaimFence
  now : OffsetDateTime
deriving DecidableEq

structure AcceptChildCompletion where
  completion : ChildCompletionRef
  now : OffsetDateTime
deriving DecidableEq

structure PauseCeremony where
  reason : LifecycleReason
  now : OffsetDateTime
deriving DecidableEq

structure CancelCeremony where
  reason : LifecycleReason
  now : OffsetDateTime
deriving DecidableEq

structure RecordHostHandoff where
  declaration : HostHandoffDeclaration
  now : OffsetDateTime
deriving DecidableEq

inductive CeremonyCommand where
  | recordHostHandoff (command : RecordHostHandoff)
  | bindParticipant (command : BindParticipant)
  | startStep (command : StartStep)
  | renewStepLease (command : RenewStepLease)
  | applyStepResult (command : ApplyStepResult)
  | applyExecutionReceiptResult (command : ApplyExecutionReceiptResult)
  | applyTransition (command : ApplyTransition)
  | approveGuard (command : ApproveGuard)
  | deferGuard (command : DeferGuard)
  | requestIntervention (command : RequestIntervention)
  | respondToIntervention (command : RespondToIntervention)
  | respondToInterventionWithEvidence (command : RespondToInterventionWithEvidence)
  | acknowledgeInterventionDelivery (command : AcknowledgeInterventionDelivery)
  | assertReason (reason : CeremonyReason)
  | closeIntervention (command : CloseIntervention)
  | planCeremonyChildren (command : PlanCeremonyChildren)
  | planSuccessor (command : PlanSuccessor)
  | adoptChildSpawnPlan (command : AdoptChildSpawnPlan)
  | acceptChildCompletion (command : AcceptChildCompletion)
  | pauseCeremony (command : PauseCeremony)
  | resumeCeremony (now : OffsetDateTime)
  | cancelCeremony (command : CancelCeremony)
  | enforceCeremonyDeadlines (now : OffsetDateTime)
deriving DecidableEq

end Made
