import Made.Aggregate.Instance

/-!
# Event types and schema versions

The name an audit record gives an event, and the version of the shape its payload is written in,
which is read off the optional fields the payload carries.
-/

namespace Made

inductive AuditEventType where
  | hostHandoffRecorded
  | ceremonyDefinitionValidated
  | ceremonyDefinitionPublished
  | ceremonyInstanceStarted
  | stepStarted
  | stepLeaseRenewed
  | stepCompleted
  | stepFailed
  | contextWritten
  | stateIterationStarted
  | transitionApplied
  | interventionRequested
  | interventionResponded
  | interventionClosed
  | interventionDeliveryAcknowledged
  | evidenceCollected
  | participantsBound
  | reasonAsserted
  | humanApprovalRecorded
  | humanDeferralRecorded
  | childSpawnPlanned
  | childSpawnPlanAdopted
  | childCompletionAccepted
  | ceremonyCompleted
  | ceremonyFailed
  | instanceImported
  | memoryRecalled
  | ceremonyPaused
  | ceremonyResumed
  | ceremonyCancelled
  | ceremonyDeadlineExceeded
  | stateDeadlineExceeded
  | stepDeadlineExceeded
  | lateStepResultObserved
  | executionReceiptLinked
  | successorPlanned
  | successionCarried
deriving DecidableEq, Repr

def AuditEventType.asStr : AuditEventType → String
  | hostHandoffRecorded => "host_handoff_recorded"
  | ceremonyDefinitionValidated => "ceremony_definition_validated"
  | ceremonyDefinitionPublished => "ceremony_definition_published"
  | ceremonyInstanceStarted => "ceremony_instance_started"
  | stepStarted => "step_started"
  | stepLeaseRenewed => "step_lease_renewed"
  | stepCompleted => "step_completed"
  | stepFailed => "step_failed"
  | contextWritten => "context_written"
  | stateIterationStarted => "state_iteration_started"
  | transitionApplied => "transition_applied"
  | interventionRequested => "intervention_requested"
  | interventionResponded => "intervention_responded"
  | interventionClosed => "intervention_closed"
  | interventionDeliveryAcknowledged => "intervention_delivery_acknowledged"
  | evidenceCollected => "evidence_collected"
  | participantsBound => "participants_bound"
  | reasonAsserted => "reason_asserted"
  | humanApprovalRecorded => "human_approval_recorded"
  | humanDeferralRecorded => "human_deferral_recorded"
  | childSpawnPlanned => "child_spawn_planned"
  | childSpawnPlanAdopted => "child_spawn_plan_adopted"
  | childCompletionAccepted => "child_completion_accepted"
  | ceremonyCompleted => "ceremony_completed"
  | ceremonyFailed => "ceremony_failed"
  | instanceImported => "instance_imported"
  | memoryRecalled => "memory_recalled"
  | ceremonyPaused => "ceremony_paused"
  | ceremonyResumed => "ceremony_resumed"
  | ceremonyCancelled => "ceremony_cancelled"
  | ceremonyDeadlineExceeded => "ceremony_deadline_exceeded"
  | stateDeadlineExceeded => "state_deadline_exceeded"
  | stepDeadlineExceeded => "step_deadline_exceeded"
  | lateStepResultObserved => "late_step_result_observed"
  | executionReceiptLinked => "execution_receipt_linked"
  | successorPlanned => "successor_planned"
  | successionCarried => "succession_carried"

/-! ## Versions -/

abbrev EventSchemaVersion := Ordinal ⟨"event_schema_version", u32Max⟩

namespace EventSchemaVersion

def v1 : EventSchemaVersion := .of 1 (.refl true)
def v2 : EventSchemaVersion := .of 2 (.refl true)
def v3 : EventSchemaVersion := .of 3 (.refl true)
def v4 : EventSchemaVersion := .of 4 (.refl true)
def v5 : EventSchemaVersion := .of 5 (.refl true)
def v6 : EventSchemaVersion := .of 6 (.refl true)

end EventSchemaVersion

namespace CeremonyEvent

def eventType : CeremonyEvent → AuditEventType
  | hostHandoffRecorded _ => .hostHandoffRecorded
  | ceremonyInstanceStarted _ => .ceremonyInstanceStarted
  | participantsBound _ => .participantsBound
  | stepStarted _ => .stepStarted
  | stepLeaseRenewed _ => .stepLeaseRenewed
  | stepCompleted _ => .stepCompleted
  | stepFailed _ => .stepFailed
  | contextWritten _ => .contextWritten
  | stateIterationStarted _ => .stateIterationStarted
  | transitionApplied _ => .transitionApplied
  | interventionRequested _ => .interventionRequested
  | interventionResponded _ => .interventionResponded
  | interventionClosed _ => .interventionClosed
  | interventionDeliveryAcknowledged _ => .interventionDeliveryAcknowledged
  | evidenceCollected _ => .evidenceCollected
  | reasonAsserted _ => .reasonAsserted
  | humanApprovalRecorded _ => .humanApprovalRecorded
  | humanDeferralRecorded _ => .humanDeferralRecorded
  | ceremonyCompleted _ => .ceremonyCompleted
  | instanceImported _ => .instanceImported
  | memoryRecalled _ => .memoryRecalled
  | childSpawnPlanned _ => .childSpawnPlanned
  | childSpawnPlanAdopted _ => .childSpawnPlanAdopted
  | childCompletionAccepted _ => .childCompletionAccepted
  | ceremonyPaused _ => .ceremonyPaused
  | ceremonyResumed _ => .ceremonyResumed
  | ceremonyCancelled _ => .ceremonyCancelled
  | ceremonyDeadlineExceeded _ => .ceremonyDeadlineExceeded
  | stateDeadlineExceeded _ => .stateDeadlineExceeded
  | stepDeadlineExceeded _ => .stepDeadlineExceeded
  | lateStepResultObserved _ => .lateStepResultObserved
  | executionReceiptLinked _ => .executionReceiptLinked
  | successorPlanned _ => .successorPlanned
  | successionCarried _ => .successionCarried

/-- The version of a payload whose first evolution added the state iteration. -/
def iterationVersion (stateIteration : Option StateIteration) : EventSchemaVersion :=
  if stateIteration.isSome then .v2 else .v1

/-- The version of a payload whose only evolution added the state visit. -/
def visitVersion (stateVisit : Option StateVisit) : EventSchemaVersion :=
  if stateVisit.isSome then .v2 else .v1

/-- The shape a payload is written in, read off the optional fields it carries. -/
def schemaVersion : CeremonyEvent → EventSchemaVersion
  | stepStarted event =>
    if event.budgetReservationId.isSome then .v6
    else if event.deadline.isSome then .v5
    else if event.stateVisit.isSome then .v4
    else if event.roleFrom.isSome || event.sealedRole.isSome then .v3
    else iterationVersion event.stateIteration
  | stepCompleted event =>
    if event.stateVisit.isSome then .v3 else iterationVersion event.stateIteration
  | stepFailed event =>
    if event.result.failureKind.isSome then .v4
    else if event.stateVisit.isSome then .v3
    else iterationVersion event.stateIteration
  | transitionApplied event =>
    if event.destination.any (·.deadline.isSome) then .v4
    else if event.destination.isSome || event.transition.stateVisit.isSome then .v3
    else iterationVersion event.transition.stateIteration
  | stateIterationStarted event => visitVersion event.stateVisit
  | contextWritten event => visitVersion event.stateVisit
  | ceremonyInstanceStarted event =>
    if event.budgetAccountId.isSome then .v4
    else if event.ceremonyDeadline.isSome || event.stateDeadline.isSome then .v3
    else if event.lineage.isSome then .v2
    else .v1
  | stepLeaseRenewed event => if event.request.isSome then .v2 else .v1
  | _ => .v1

end CeremonyEvent

end Made
