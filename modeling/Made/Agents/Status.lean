import Made.Execution.UseCases

/-!
# What a host reports about an agent

A status report names the logical work it belongs to (the ceremony, the execution, the worker, the
role, the step and the attempt), the host process that does it, and what the host saw.
-/

namespace Made

abbrev LogicalWorkerId := Text (plainRule "logical_worker_id" 256)

inductive AgentExecutionStatus where
  | running
  | waiting
  | blocked
  | finished
deriving DecidableEq, Repr

inductive AgentLiveness where
  | fresh
  | stale
  | unreachable
  | unknown
deriving DecidableEq, Repr

inductive AgentStatusSource where
  | hostReport
  | derivedLease
  | hostDiscoveryUnsupported
deriving DecidableEq, Repr

inductive AgentUsageKind where
  | measured
  | estimated
  | unavailable
deriving DecidableEq, Repr

/-- Bounded host-owned status evidence for one logical worker execution. -/
structure CeremonyAgentStatus where
  ceremonyId : CeremonyId
  agentExecutionId : CeremonyAgentExecutionId
  operationId : ExecutionOperationId
  claimOwnerId : LeaseOwnerId
  logicalWorkerId : LogicalWorkerId
  hostAgentId : LeaseOwnerId
  hostAgentIncarnation : HostAgentIncarnation
  previousHostAgentId : Option LeaseOwnerId
  previousHostAgentIncarnation : Option HostAgentIncarnation
  roleId : RoleId
  stepId : StepId
  attempt : Nat
  executionStatus : AgentExecutionStatus
  liveness : AgentLiveness
  source : AgentStatusSource
  requestedModel : Option String
  requestedReasoningEffort : Option String
  actualModel : Option String
  actualReasoningEffort : Option String
  activity : String
  blocker : Option String
  dependency : Option String
  taskSummary : String
  evidenceReferences : List String
  usageKind : Option AgentUsageKind
  usageValue : Option Nat
  observedAt : OffsetDateTime
  reportSequence : Nat
  idempotencyKey : String
  claimFence : StepClaimFence
deriving DecidableEq

structure AgentIncarnation where
  ceremonyId : CeremonyId
  agentExecutionId : CeremonyAgentExecutionId
  hostAgentId : LeaseOwnerId
  hostAgentIncarnation : HostAgentIncarnation
deriving DecidableEq

namespace CeremonyAgentStatus

def incarnation (status : CeremonyAgentStatus) : AgentIncarnation where
  ceremonyId := status.ceremonyId
  agentExecutionId := status.agentExecutionId
  hostAgentId := status.hostAgentId
  hostAgentIncarnation := status.hostAgentIncarnation

/-- The identity of the logical participant and its accepted work, whatever process does it. -/
def hasSameLogicalExecutionAs (status other : CeremonyAgentStatus) : Bool :=
  status.ceremonyId = other.ceremonyId && status.agentExecutionId = other.agentExecutionId &&
    status.logicalWorkerId = other.logicalWorkerId && status.roleId = other.roleId &&
    status.stepId = other.stepId && status.attempt = other.attempt

def hostChanged (previous status : CeremonyAgentStatus) : Bool :=
  previous.hostAgentId ≠ status.hostAgentId ||
    previous.hostAgentIncarnation ≠ status.hostAgentIncarnation

def takesOverFrom (status previous : CeremonyAgentStatus) : Bool :=
  status.previousHostAgentId = some previous.hostAgentId &&
    status.previousHostAgentIncarnation = some previous.hostAgentIncarnation

theorem incarnation_eq_of_not_hostChanged {previous status : CeremonyAgentStatus}
    (hsame : status.hasSameLogicalExecutionAs previous = true)
    (h : hostChanged previous status = false) : previous.incarnation = status.incarnation := by
  simp only [hasSameLogicalExecutionAs, Bool.and_eq_true, decide_eq_true_eq] at hsame
  simp only [hostChanged, Bool.or_eq_false_iff, decide_eq_false_iff_not, not_not] at h
  simp only [incarnation, AgentIncarnation.mk.injEq]
  exact ⟨hsame.1.1.1.1.1.symm, hsame.1.1.1.1.2.symm, h.1, h.2⟩

theorem incarnation_ne_of_hostChanged {previous status : CeremonyAgentStatus}
    (h : hostChanged previous status = true) : previous.incarnation ≠ status.incarnation := by
  intro heq
  simp only [incarnation, AgentIncarnation.mk.injEq] at heq
  simp [hostChanged, heq.2.2.1, heq.2.2.2] at h

end CeremonyAgentStatus

/-! ## The activity feed -/

inductive CeremonyAgentActivityKind where
  | activityChanged
  | blockerOpened
  | blockerResolved
  | checkpointAvailable
  | interventionDelivered
  | interventionAnswered
  | inputRequested
  | agentReplaced
  | stale
  | completed
  | failed
  | heartbeat
deriving DecidableEq, Repr

structure CeremonyAgentActivity where
  sequence : Nat
  kind : CeremonyAgentActivityKind
  status : CeremonyAgentStatus
deriving DecidableEq

def activityKind (previous : Option CeremonyAgentStatus) (status : CeremonyAgentStatus) :
    CeremonyAgentActivityKind :=
  match status.activity with
  | "checkpoint_available" => .checkpointAvailable
  | "intervention_delivered" => .interventionDelivered
  | "intervention_answered" => .interventionAnswered
  | "input_requested" => .inputRequested
  | "failed" => .failed
  | "heartbeat" => .heartbeat
  | _ =>
    if previous.any fun previous => CeremonyAgentStatus.hostChanged previous status then
      .agentReplaced
    else if status.executionStatus = .finished then
      .completed
    else if status.liveness = .stale then
      .stale
    else if status.blocker.isSome && previous.all fun p => p.blocker ≠ status.blocker then
      .blockerOpened
    else if status.blocker.isNone && previous.any fun p => p.blocker.isSome then
      .blockerResolved
    else
      .activityChanged

def inertHeartbeat (previous status : CeremonyAgentStatus) : Bool :=
  previous.activity = "heartbeat" && previous.executionStatus = status.executionStatus &&
    previous.liveness = status.liveness && previous.blocker = status.blocker &&
    previous.dependency = status.dependency && previous.taskSummary = status.taskSummary &&
    previous.evidenceReferences = status.evidenceReferences &&
    previous.usageKind = status.usageKind && previous.usageValue = status.usageValue

/-! ## Who may report -/

structure ReportAuthorization where
  action : AuthorizationAction
  principalId : PrincipalId
deriving DecidableEq

def requireReportAuthorization (status : CeremonyAgentStatus)
    (authorization : Option ReportAuthorization) : Result Unit := do
  let authorization ← Outcome.okOr authorization
    (.invariantViolated "ceremony agent status storage requires authorization evidence")
  Outcome.require (¬ (authorization.action ≠ .reportCeremonyAgentStatus ∨
      authorization.principalId.val ≠ status.claimOwnerId.val ∨
      status.hostAgentId ≠ status.claimOwnerId))
    (.invariantViolated "ceremony agent status authorization does not own the reported claim")

end Made
