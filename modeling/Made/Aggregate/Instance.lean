import Made.Aggregate.Payloads
import Made.Definition.Guards
import Std.Data.ExtTreeSet

/-!
# The ceremony aggregate

`CeremonyInstance` is the folded state of one ceremony, and `CeremonyEvent` the type of the facts
it is folded from.  The queries below are the ones the decisions consult: which phase the ceremony
is in, whether its state has finished its work, which steps can be claimed and which claim fence a
step currently has.
-/

namespace Made

open Outcome

structure CeremonyInstance where
  leaseRenewals : Map IdempotencyKey StepLeaseRenewed
  hostHandoffs : Map IdempotencyKey HostHandoffRecorded
  id : CeremonyId
  definitionName : CeremonyName
  definitionVersion : CeremonyVersion
  currentState : StateId
  currentStateIteration : StateIteration
  currentStateVisit : StateVisit
  stepRecords : Map StepId StepExecutionRecord
  stepRecordHistory : Map StepId (List StepExecutionRecord)
  interventions : List CeremonyIntervention
  guardDeferrals : List CeremonyGuardDeferral
  guardApprovals : List CeremonyGuardApproval
  transitions : List CeremonyTransitionRecord
  reasons : List CeremonyReason
  participantBindings : Map RoleId CeremonyParticipantBinding
  context : CeremonyContext
  recollection : Option SessionRecollection
  idempotencyKeys : Std.ExtTreeSet IdempotencyKey
  createdAt : OffsetDateTime
  updatedAt : OffsetDateTime
  completedAt : Option OffsetDateTime
  boundDefinition : Option CeremonyDefinitionDigest
  lineage : Option CeremonyLineage
  budgetAccountId : Option BudgetAccountId
  childGroups : Map ChildGroupId ChildGroupState
  lifecycle_ : CeremonyLifecycle
  ceremonyDeadline : Option CeremonyDeadline
  stateDeadline : Option StateDeadline
  stepDeadlines : Map StepId StepDeadline
  retiredDeadlineClaims : Map StepClaimFence StepDeadline
  lateStepResults : Map StepClaimFence LateStepResult
  executionReceiptLinks : Map ExecutionOperationId ExecutionReceiptLink
  executionReceiptAdoptions : Map ExecutionOperationId (Map StepClaimFence ExecutionReceiptLink)
  succession : Option CeremonySuccession
  successorPlan : Option SuccessionPlan
deriving DecidableEq

/-- A session brought in from a store that was not a stream. -/
structure InstanceImported where
  ceremonyId : CeremonyId
  definitionName : CeremonyName
  definitionVersion : CeremonyVersion
  snapshot : CeremonyInstance
  importedAt : OffsetDateTime
deriving DecidableEq

inductive CeremonyEvent where
  | hostHandoffRecorded (event : HostHandoffRecorded)
  | ceremonyInstanceStarted (event : CeremonyInstanceStarted)
  | participantsBound (bindings : List CeremonyParticipantBinding)
  | stepStarted (event : StepStarted)
  | stepLeaseRenewed (event : StepLeaseRenewed)
  | stepCompleted (event : StepCompleted)
  | stepFailed (event : StepFailed)
  | contextWritten (event : ContextWritten)
  | stateIterationStarted (event : StateIterationStarted)
  | transitionApplied (event : TransitionApplied)
  | interventionRequested (intervention : CeremonyIntervention)
  | interventionResponded (event : InterventionResponded)
  | interventionClosed (event : InterventionClosed)
  | interventionDeliveryAcknowledged (event : InterventionDeliveryAcknowledged)
  | evidenceCollected (event : EvidenceCollected)
  | reasonAsserted (reason : CeremonyReason)
  | humanApprovalRecorded (approval : CeremonyGuardApproval)
  | humanDeferralRecorded (deferral : CeremonyGuardDeferral)
  | ceremonyCompleted (event : CeremonyCompleted)
  | instanceImported (event : InstanceImported)
  | memoryRecalled (event : MemoryRecalled)
  | childSpawnPlanned (event : ChildSpawnPlanned)
  | childSpawnPlanAdopted (event : ChildSpawnPlanAdopted)
  | childCompletionAccepted (event : ChildCompletionAccepted)
  | ceremonyPaused (event : CeremonyPaused)
  | ceremonyResumed (event : CeremonyResumed)
  | ceremonyCancelled (event : CeremonyCancelled)
  | ceremonyDeadlineExceeded (event : CeremonyDeadlineExceeded)
  | stateDeadlineExceeded (event : StateDeadlineExceeded)
  | stepDeadlineExceeded (event : StepDeadlineExceeded)
  | lateStepResultObserved (event : LateStepResultObserved)
  | executionReceiptLinked (event : ExecutionReceiptLinked)
  | successorPlanned (plan : SuccessionPlan)
  | successionCarried (event : SuccessionCarried)
deriving DecidableEq

namespace CeremonyInstance

variable (i : CeremonyInstance) (d : CeremonyDefinition)

/-! ## Lifecycle -/

/-- The lifecycle as everyone sees it: a completion counts as an ending unless the lifecycle was
changed explicitly, and then the explicit one is what counts. -/
def lifecycle : CeremonyLifecycle :=
  match i.completedAt with
  | some at_ => if i.lifecycle_.isExplicit then i.lifecycle_ else CeremonyLifecycle.completed at_
  | none => i.lifecycle_

def isEnded : Bool := i.lifecycle.isEnded

def admitsNewWork : Bool := !i.isEnded && i.lifecycle_.admitsNewWork

def matchesDefinition : Bool :=
  decide (i.definitionName = d.name) && decide (i.definitionVersion = d.version)

def isTerminal : Bool := i.matchesDefinition d && d.isTerminalState i.currentState

/-! ## Requirements shared by the decisions -/

def requireDefinition : Result Unit :=
  require (i.matchesDefinition d = true)
    (.invariantViolated "ceremony instance definition mismatch")

def requireActive (terminalReason : String) : Result Unit := do
  i.requireDefinition d
  require ((i.isTerminal d || i.isEnded) = false) (.invariantViolated terminalReason)

def requireAdmitsNewWork (operation : String) : Result Unit :=
  require (i.admitsNewWork = true) (.lifecycleRefused operation i.lifecycle.phase)

def requireDeclaredRole (roleId : RoleId) : Result Unit := do
  i.requireDefinition d
  require ((d.role roleId).isSome = true) (.notFound "ceremony_role")

def requireRole (roleId : RoleId) (action : RoleAction) : Result Unit := do
  i.requireDefinition d
  require (d.roleAllows roleId action = true)
    (.invariantViolated "ceremony role is not allowed to perform action")

/-! ## The work of the current state -/

def stateWorkIsComplete : Bool :=
  ((d.stepsForState i.currentState).all fun step =>
    i.stepRecords[step.id]?.any (·.status.isSuccess)) &&
  d.repeatRequirementsAreSatisfied i.currentState i.stepRecords

def stateRepeatPolicy : Option StateRepeatPolicy := (d.state i.currentState).bind (·.repeat_)

def stateRepeatConditionIsSatisfied : Bool :=
  match i.stateRepeatPolicy d with
  | none => true
  | some policy => i.stepRecords[policy.until_.stepId]?.any policy.isSatisfied

def stateRepeatPermitsTransition : Bool :=
  (i.stateRepeatPolicy d).isNone || (i.stateWorkIsComplete d && i.stateRepeatConditionIsSatisfied d)

def stateRepeatLimitReached : Bool :=
  match i.stateRepeatPolicy d with
  | none => false
  | some policy =>
    i.stateWorkIsComplete d && !i.stateRepeatConditionIsSatisfied d &&
      !policy.permitsAnotherIteration i.currentStateIteration

/-! ## Claims -/

variable (stepId : StepId)

def stepClaimFence : Result StepClaimFence := do
  let record ← okOr i.stepRecords[stepId]? (.notFound "ceremony_instance.step_record")
  StepClaimFence.forRecord i.id stepId record

def requireStepClaimFence (fence : StepClaimFence) : Result Unit := do
  let current ← i.stepClaimFence stepId
  require (current = fence)
    (.invariantViolated "step completion claim fence does not match the current claim")

variable (now : OffsetDateTime)

def hasLiveLease (step : CeremonyStep) : Bool :=
  i.stepRecords[step.id]?.any (·.hasLiveLeaseAt now)

def hasLiveStepLeasesAt : Bool :=
  (d.stepsForState i.currentState).any (i.hasLiveLease now)

def stepIsReadyWithoutRoleAt : Result Bool := do
  let step ← okOr (d.step stepId) (.notFound "ceremony_instance.step")
  let record ← okOr i.stepRecords[stepId]? (.notFound "ceremony_instance.step_record")
  if !record.canBeStartedAt now then
    pure false
  else
    let attempt ← record.nextStartAttempt
    pure (step.retryPolicy.allowsAttempt attempt)

def firstUnfinishedStep : Option CeremonyStep :=
  (d.stepsForState i.currentState).find? fun step =>
    i.stepRecords[step.id]?.any fun record => !record.status.isSuccess

def effectiveCapacity (ceiling : MaxParallel) : Nat :=
  if d.maxParallel.val < ceiling.val then d.maxParallel.val else ceiling.val

/-- Whether a step can be claimed now: it is next in a sequential state, or a concurrent state
has capacity left, and its record and retry policy allow a start. -/
def resolvedStepIsClaimableAt
    (hostCeiling : MaxParallel) : Result Bool := do
  i.requireDefinition d
  let state ← okOr (d.state i.currentState) (.notFound "ceremony_instance.current_state")
  match state.execution with
  | .sequential =>
    if (i.firstUnfinishedStep d).any (·.id = stepId) then
      i.stepIsReadyWithoutRoleAt d stepId now
    else
      pure false
  | .concurrent =>
    let live := ((d.stepsForState i.currentState).filter (i.hasLiveLease now)).length
    if effectiveCapacity d hostCeiling ≤ live then
      pure false
    else
      i.stepIsReadyWithoutRoleAt d stepId now

/-! ## Children and interventions -/

def childrenCompletedGuardIsSatisfied (join : ChildJoin) : Bool :=
  match i.stepRecords[stepId]? with
  | none => false
  | some record =>
    let coordinates : ChildSpawnCoordinates :=
      ⟨stepId, i.currentStateVisit, i.currentStateIteration, record.iteration⟩
    i.childGroups[ChildGroupId.derive i.id coordinates]?.any fun group =>
      decide (group.plan.coordinates = coordinates) &&
        join.isSatisfied group.completions.size group.plan.children.length

def intervention (interventionId : CeremonyInterventionId) : Option CeremonyIntervention :=
  i.interventions.find? (·.id = interventionId)

def executionReceiptAdoption (operationId : ExecutionOperationId)
    (appliedClaimFence : StepClaimFence) : Option ExecutionReceiptLink :=
  i.executionReceiptAdoptions[operationId]?.bind fun adoptions => adoptions[appliedClaimFence]?

end CeremonyInstance

end Made
