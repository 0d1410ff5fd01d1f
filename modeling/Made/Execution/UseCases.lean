import Made.Authorization.Values
import Made.Execution.Store
import Made.Library.Interleaving

/-!
# Executing, recovering and reconciling an operation

The three use cases that work on the execution store, as programs over its port and the ports of the
outside: the connector, the clock, the artifact service and the audit.  Every `await` on a port is
one call of the program; a refusal of a port ends the attempt.
-/

namespace Made

open Interleaving Outcome

/-! ## Ports -/

/-- The audit artifact of a reconciliation and the key that protects it. -/
structure ExecutionReconciliationAuditRecord where
  artifact : ArtifactRef
  protectionKey : String
deriving DecidableEq

inductive OutsideCall where
  | now
  | executeCancellable (connector : ConnectorContract) (request : CeremonyExecutionRequest)
  | recoverIntent (connector : ConnectorContract) (intent : ExecutionIntent)
  | protectExecutionReceipt (receipt : ExecutionReceipt)
  | recordAuthorizedAttempt (authorization : AuthorizedOperation) (receipt : ExecutionReceipt)
  | protectAuthorizedAttempt (audit : ExecutionReconciliationAuditRecord)

abbrev OutsideCall.Answer : OutsideCall → Type
  | now => OffsetDateTime
  | executeCancellable _ _ => CeremonyExecutionConnectorOutcome
  | recoverIntent _ _ => CeremonyExecutionConnectorOutcome
  | protectExecutionReceipt _ => Unit
  | recordAuthorizedAttempt _ _ => ExecutionReconciliationAuditRecord
  | protectAuthorizedAttempt _ => Unit

inductive PortCall where
  | store (c : StoreCall)
  | outside (c : OutsideCall)

abbrev PortCall.Reply : PortCall → Type
  | store c => Result c.Answer
  | outside c => Result c.Answer

abbrev ports : Interface := ⟨PortCall, PortCall.Reply⟩

abbrev Attempt (α : Type) := ExceptT (Fault DomainError) (Prog ports) α

namespace Attempt

def store (c : StoreCall) : Attempt c.Answer :=
  ExceptT.mk (Prog.ask (I := ports) (PortCall.store c))

def outside (c : OutsideCall) : Attempt c.Answer :=
  ExceptT.mk (Prog.ask (I := ports) (PortCall.outside c))

def check {α : Type} (result : Result α) : Attempt α := ExceptT.mk (pure result)

end Attempt

/-! ## Shared parts -/

def verifyReceiptArtifacts (artifacts : Bool) (receipt : ExecutionReceipt) : Attempt Unit :=
  if receipt.artifacts.isEmpty then pure ()
  else if artifacts then .outside (.protectExecutionReceipt receipt)
  else .check (refuse (.invariantViolated
    "execution receipt carries artifacts but no artifact store is configured"))

def executionReceiptFromObservation (connector : ConnectorContract) (intent : ExecutionIntent)
    (observation : CeremonyExecutionObservation) : Attempt ExecutionReceipt := do
  let producer ← .store (.intent intent.operation.operationId observation.producerClaimFence)
  let producer ← .check (okOr producer (.invariantViolated
    "execution observation names an unknown producer claim fence"))
  .check (require (producer.contract = connector) (.invariantViolated
    "execution observation does not match the producer connector contract"))
  let receipt ← .check (ExecutionReceipt.new intent.operation.operationId
    intent.operation.requestDigest producer.claimFence producer.contract
    observation.externalOperationId observation.result observation.artifacts observation.observedAt)
  pure (receipt.withBudgetMeasurement observation.budgetMeasurement)

def recordObservation (connector : ConnectorContract) (artifacts : Bool) (intent : ExecutionIntent)
    (observation : CeremonyExecutionObservation) : Attempt ExecutionReceipt := do
  let receipt ← executionReceiptFromObservation connector intent observation
  verifyReceiptArtifacts artifacts receipt
  let _ ← .store (.recordReceipt receipt)
  pure receipt

def recordReconciliationRequired (intent : ExecutionIntent) (operationId : ExecutionOperationId) :
    Attempt Unit := do
  .check (require (operationId = intent.operation.operationId)
    (.conflict "execution_reconciliation_requirement"))
  .store (.recordReconciliationRequirement (.fromIntent intent))

def reconciliationRequired (intent : ExecutionIntent) : Attempt Bool := do
  match ← .store (.reconciliationRequirement intent.operation.operationId intent.claimFence) with
  | none => pure false
  | some requirement => do
    .check (require (requirement.matchesIntent intent = true) (.invariantViolated
      "execution reconciliation requirement does not match its intent"))
    pure true

/-! ## Executing -/

structure ExecuteCeremonyOperationInput where
  handlerRequest : CeremonyStepHandlerRequest
  stateVisit : StateVisit
  stateIteration : StateIteration
  stepIteration : StepIteration
  claimFence : StepClaimFence
  actorKind : AuditActorKind

def ExecuteCeremonyOperationInput.candidate (input : ExecuteCeremonyOperationInput) :
    Result ExecutionOperation := do
  let request ← input.handlerRequest.semanticRequestBytes
  pure ⟨input.handlerRequest.instanceId, input.handlerRequest.stepId, input.stateVisit,
    input.stateIteration, input.stepIteration, request⟩

inductive ExecuteCeremonyOperationOutcome where
  | receipt (receipt : ExecutionReceipt)
  | reconciliationRequired (operationId : ExecutionOperationId)
deriving DecidableEq

/-- The use case: the contract of its connector, and whether an artifact service is configured. -/
structure ExecuteCeremonyOperationUseCase where
  connector : ConnectorContract
  artifacts : Bool

namespace ExecuteCeremonyOperationUseCase

variable (u : ExecuteCeremonyOperationUseCase)
variable (input : ExecuteCeremonyOperationInput)

def operation : Attempt ExecutionOperation := do
  let candidate ← .check input.candidate
  match ← .store (.operation candidate.operationId) with
  | some stored => do
    .check (require (stored = candidate) (.conflict "execution_operation"))
    pure stored
  | none => pure candidate

def existingReceipt (operationId : ExecutionOperationId) :
    Attempt (Option ExecuteCeremonyOperationOutcome) := do
  match ← .store (.receipt operationId) with
  | none => pure none
  | some receipt => do
    verifyReceiptArtifacts u.artifacts receipt
    pure (some (.receipt receipt))

variable (intent : ExecutionIntent)

def ensureConnectorContract : Result Unit :=
  require (intent.contract = u.connector) (.conflict "execution_connector_contract")

/-- The loop over intents whose effect nobody can tell. -/
def recordEach (operationIdOf : ExecutionIntent → ExecutionOperationId) :
    List ExecutionIntent → Attempt Unit
  | [] => pure ()
  | prior :: rest => do
    .check (u.ensureConnectorContract prior)
    recordReconciliationRequired prior (operationIdOf prior)
    recordEach operationIdOf rest

def recordPriorNonQueryableAmbiguity (operationId : ExecutionOperationId) : Attempt Bool :=
  if u.connector.recoveryCapability ≠ .reconciliationRequired then pure false
  else do
    let priorIntents ← .store (.intents operationId)
    u.recordEach (fun _ => operationId) priorIntents
    pure (!priorIntents.isEmpty)

def recordRetryAmbiguity (recorded : RecordExecutionIntentOutcome) :
    Attempt Unit :=
  if recorded = .alreadyRecorded then
    recordReconciliationRequired intent intent.operation.operationId
  else do
    let priorIntents ← .store (.intents intent.operation.operationId)
    let ambiguous := priorIntents.filter fun prior => prior.claimFence ≠ intent.claimFence
    .check (require (ambiguous.isEmpty = false) (.invariantViolated
      "additional execution intent has no prior producer intent"))
    u.recordEach (fun prior => prior.operation.operationId) ambiguous

/-- The prior intents matter to a claim that has none of its own. -/
def priorAmbiguity (existing : Option ExecutionIntent) (operationId : ExecutionOperationId) :
    Attempt Bool :=
  if existing.isNone then u.recordPriorNonQueryableAmbiguity operationId else pure false

/-- The intent of the claim: the recorded one, or a new one that is recorded now. -/
def claimIntent (operation : ExecutionOperation) (input : ExecuteCeremonyOperationInput)
    (existing : Option ExecutionIntent) :
    Attempt (ExecutionIntent × RecordExecutionIntentOutcome) :=
  match existing with
  | some intent => do
    .check (require (intent.operation = operation ∧ intent.contract = u.connector ∧
      intent.actorKind = input.actorKind) (.conflict "execution_intent"))
    pure (intent, .alreadyRecorded)
  | none => do
    let now ← .outside .now
    let intent ← .check (ExecutionIntent.new operation input.claimFence u.connector.connectorId
      u.connector.recoveryCapability u.connector.sourceKind input.actorKind now)
    let recorded ← .store (.recordIntent intent)
    pure (intent, recorded)

def callConnector :
    Attempt ExecuteCeremonyOperationOutcome := do
  let request ← .check (CeremonyExecutionRequest.new intent input.handlerRequest)
  match ← .outside (.executeCancellable u.connector request) with
  | .reconciliationRequired operationId => do
    recordReconciliationRequired intent operationId
    pure (.reconciliationRequired operationId)
  | .observed observation => do
    let receipt ← recordObservation u.connector u.artifacts intent observation
    pure (.receipt receipt)

def settleIntent
    (recorded : RecordExecutionIntentOutcome) : Attempt ExecuteCeremonyOperationOutcome := do
  match ← u.existingReceipt intent.operation.operationId with
  | some outcome => pure outcome
  | none => do
    if ← reconciliationRequired intent then
      pure (.reconciliationRequired intent.operation.operationId)
    else if recorded ≠ .recordedFirst ∧
        u.connector.recoveryCapability = .reconciliationRequired then do
      u.recordRetryAmbiguity intent recorded
      pure (.reconciliationRequired intent.operation.operationId)
    else
      u.callConnector input intent

def ensureAuthority (cancelled : Bool) : Result Unit :=
  require (cancelled = false) (.invariantViolated "execution authority was cancelled")

def claimAndExecute (operation : ExecutionOperation) (input : ExecuteCeremonyOperationInput) :
    Attempt ExecuteCeremonyOperationOutcome := do
  let existing ← .store (.intent operation.operationId input.claimFence)
  if ← u.priorAmbiguity existing operation.operationId then
    match ← u.existingReceipt operation.operationId with
    | some outcome => pure outcome
    | none => pure (.reconciliationRequired operation.operationId)
  else do
    let (intent, recorded) ← u.claimIntent operation input existing
    u.settleIntent input intent recorded

/-- `execute_cancellable`; the cancellation is read once, before anything else. -/
def executeCancellable (cancelled : Bool) :
    Attempt ExecuteCeremonyOperationOutcome := do
  .check (ensureAuthority cancelled)
  let operation ← operation input
  match ← u.existingReceipt operation.operationId with
  | some outcome => pure outcome
  | none => u.claimAndExecute operation input

end ExecuteCeremonyOperationUseCase

/-! ## Recovering -/

inductive RecoverExecutionIntentOutcome where
  | receipt (receipt : ExecutionReceipt)
  | reconciliationRequired (operationId : ExecutionOperationId)
deriving DecidableEq

structure RecoverExecutionIntentUseCase where
  connector : ConnectorContract
  artifacts : Bool

namespace RecoverExecutionIntentUseCase

variable (u : RecoverExecutionIntentUseCase)

def recoverIntent (intent : ExecutionIntent) : Attempt RecoverExecutionIntentOutcome := do
  match ← .outside (.recoverIntent u.connector intent) with
  | .reconciliationRequired operationId => do
    recordReconciliationRequired intent operationId
    pure (.reconciliationRequired operationId)
  | .observed observation => do
    let receipt ← recordObservation u.connector u.artifacts intent observation
    pure (.receipt receipt)

def execute (intent : ExecutionIntent) : Attempt RecoverExecutionIntentOutcome := do
  match ← .store (.receipt intent.operation.operationId) with
  | some receipt => do
    verifyReceiptArtifacts u.artifacts receipt
    pure (.receipt receipt)
  | none => do
    .check (require (intent.contract = u.connector) (.conflict "execution_connector_contract"))
    if ← reconciliationRequired intent then
      pure (.reconciliationRequired intent.operation.operationId)
    else if intent.recoveryCapability = .reconciliationRequired then do
      .store (.recordReconciliationRequirement (.fromIntent intent))
      pure (.reconciliationRequired intent.operation.operationId)
    else
      u.recoverIntent intent

end RecoverExecutionIntentUseCase

/-! ## Reconciling -/

structure ReconcileExecutionOperationInput where
  authorization : AuthorizedOperation
  receipt : ExecutionReceipt

inductive ReconcileExecutionOperationOutcome where
  | reconciled (receipt : ExecutionReceipt) (authorizationAudit : ArtifactRef)
  | alreadyReconciled (receipt : ExecutionReceipt) (authorizationAudit : ArtifactRef)
deriving DecidableEq

namespace ReconcileExecutionOperationUseCase

def admitReceipt (input : ReconcileExecutionOperationInput) : Result Unit := do
  require (input.authorization.evidence.action = .reconcileExecutionOperation)
    (.invariantViolated "execution reconciliation requires its dedicated authorization action")
  input.receipt.validate
  require (input.receipt.artifacts.isEmpty = false)
    (.emptyField "execution_reconciliation.evidence")

def matchIntent (receipt : ExecutionReceipt) (intent : ExecutionIntent) : Result Unit :=
  require (intent.operation.operationId = receipt.operationId ∧
      intent.operation.requestDigest = receipt.requestDigest ∧
      intent.claimFence = receipt.producerClaimFence ∧ intent.contract = receipt.contract ∧
      receipt.budgetMeasurement.isUnknown = true)
    (.conflict "execution_reconciliation")

def matchRequirement (receipt : ExecutionReceipt) (intent : ExecutionIntent)
    (requirement : ExecutionReconciliationRequirement) : Result Unit :=
  require (requirement.matchesIntent intent = true ∧ requirement.operationId = receipt.operationId ∧
      requirement.requestDigest = receipt.requestDigest ∧
      requirement.producerClaimFence = receipt.producerClaimFence ∧
      requirement.connectorId = receipt.connectorId)
    (.conflict "execution_reconciliation_requirement")

/-- Persist the receipt, unless the very same one is there. -/
def recordReconciled (receipt : ExecutionReceipt) (audit : ExecutionReconciliationAuditRecord) :
    Attempt ReconcileExecutionOperationOutcome := do
  match ← .store (.recordReceipt receipt) with
  | .recorded => pure (.reconciled receipt audit.artifact)
  | .alreadyRecorded => do
    let existing ← .store (.receipt receipt.operationId)
    let existing ← .check (okOr existing
      (.invariantViolated "recorded execution receipt is unavailable"))
    .check (require (existing = receipt) (.conflict "execution_receipt"))
    pure (.alreadyReconciled existing audit.artifact)

def execute (input : ReconcileExecutionOperationInput) :
    Attempt ReconcileExecutionOperationOutcome := do
  .check (admitReceipt input)
  let receipt := input.receipt
  let intent ← .store (.intent receipt.operationId receipt.producerClaimFence)
  let intent ← .check (okOr intent (.notFound "execution_intent"))
  .check (matchIntent receipt intent)
  let requirement ← .store
    (.reconciliationRequirement receipt.operationId receipt.producerClaimFence)
  let requirement ← .check (okOr requirement (.conflict "execution_reconciliation_requirement"))
  .check (matchRequirement receipt intent requirement)
  let audit ← .outside (.recordAuthorizedAttempt input.authorization receipt)
  .outside (.protectAuthorizedAttempt audit)
  match ← .store (.receipt receipt.operationId) with
  | some existing => do
    .check (require (existing = receipt) (.conflict "execution_receipt"))
    .outside (.protectExecutionReceipt existing)
    pure (.alreadyReconciled existing audit.artifact)
  | none => do
    .outside (.protectExecutionReceipt receipt)
    recordReconciled receipt audit

end ReconcileExecutionOperationUseCase

/-! ## Workers on one store -/

inductive WorkerInput where
  | execute (u : ExecuteCeremonyOperationUseCase) (input : ExecuteCeremonyOperationInput)
      (cancelled : Bool)
  | recover (u : RecoverExecutionIntentUseCase) (intent : ExecutionIntent)
  | reconcile (input : ReconcileExecutionOperationInput)

inductive WorkerOutcome where
  | executed (outcome : ExecuteCeremonyOperationOutcome)
  | recovered (outcome : RecoverExecutionIntentOutcome)
  | reconciled (outcome : ReconcileExecutionOperationOutcome)
deriving DecidableEq

def WorkerInput.attempt : WorkerInput → Attempt WorkerOutcome
  | execute u input cancelled => WorkerOutcome.executed <$> u.executeCancellable input cancelled
  | recover u intent => WorkerOutcome.recovered <$> u.execute intent
  | reconcile input =>
    WorkerOutcome.reconciled <$> ReconcileExecutionOperationUseCase.execute input

/-- The replies of the outside: the clock always answers, all else may fail. -/
def OutsideCall.admits : (c : OutsideCall) → Result c.Answer → Bool
  | .now, reply => reply.isOk
  | _, _ => true

/-- What a port may reply.  A call of the store is one transaction on it; it may also fail, before
it took effect or after. -/
inductive Performs : ExecutionStore → (c : PortCall) → c.Reply → ExecutionStore → Prop where
  | stored (s : ExecutionStore) (c : StoreCall) : Performs s (.store c) (s.run c).1 (s.run c).2
  | failedBefore (s : ExecutionStore) (c : StoreCall) (fault : Fault DomainError) :
      Performs s (.store c) (.error fault) s
  | failedAfter (s : ExecutionStore) (c : StoreCall) (fault : Fault DomainError) :
      Performs s (.store c) (.error fault) (s.run c).2
  | outside (s : ExecutionStore) (c : OutsideCall) (reply : Result c.Answer)
      (admitted : c.admits reply = true) : Performs s (.outside c) reply s

def workers : Pool ports ExecutionStore WorkerInput (Result WorkerOutcome) where
  code input := input.attempt.run
  performs := Performs

end Made
