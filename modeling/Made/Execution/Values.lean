import Made.Budget.Quantities
import Made.Values.Agenda

/-!
# Operations, intents, receipts

An operation is one semantic request to the outside, whatever claims carry it out.  A claim records
its intent before it calls a connector, and what came of the call is sealed in the receipt of the
operation.  Where nobody can tell what came of it, a requirement asks an operator to reconcile.
-/

namespace Made

open Outcome

/-! ## Operations -/

/-- The canonical request sealed before an external operation starts. -/
structure ExecutionRequestBytes where
  bytes : List UInt8
  nonempty : bytes ≠ []
  fits : bytes.length ≤ 1048576
deriving DecidableEq

def ExecutionRequestBytes.new (bytes : List UInt8) : Result ExecutionRequestBytes :=
  if hempty : bytes = [] then
    refuse (.emptyField "execution_request_bytes")
  else if hfits : 1048576 < bytes.length then
    refuse (.fieldTooLong "execution_request_bytes" bytes.length 1048576)
  else
    .ok ⟨bytes, hempty, by omega⟩

def ExecutionRequestDigest.forBytes (bytes : List UInt8) : ExecutionRequestDigest :=
  HexDigest.ofMessage _ (Framing.utf8 "made.execution-request.v1" ++ 0 :: Framing.frame bytes)

/-- The semantic operation that every claim of a step iteration shares.  Its identity and the digest
of its request are derived, so they cannot disagree with it. -/
structure ExecutionOperation where
  ceremonyId : CeremonyId
  stepId : StepId
  stateVisit : StateVisit
  stateIteration : StateIteration
  stepIteration : StepIteration
  request : ExecutionRequestBytes
deriving DecidableEq

namespace ExecutionOperation

def operationId (o : ExecutionOperation) : ExecutionOperationId :=
  ExecutionOperationId.forStep o.ceremonyId o.stepId o.stateVisit o.stateIteration o.stepIteration

def requestDigest (o : ExecutionOperation) : ExecutionRequestDigest :=
  ExecutionRequestDigest.forBytes o.request.bytes

end ExecutionOperation

/-! ## Connectors -/

abbrev ExecutionConnectorId := Text
  ⟨"execution_connector_id", 128, fun c =>
    isAsciiAlphanumeric c || c == '.' || c == '_' || c == '-' || c == '/'⟩

abbrev ExternalOperationId := Text (plainRule "external_operation_id" 512)

/-- How a connector finds out what happened after an interruption. -/
inductive ExecutionRecoveryCapability where
  | idempotentByOperationId
  | queryableByOperationId
  | reconciliationRequired
deriving DecidableEq, Repr

inductive ArtifactSourceKind where
  | externalExecution
  | fixture
  | noOp
  | generatedReport
  | imported
deriving DecidableEq, Repr

def ArtifactSourceKind.isExecutionSource : ArtifactSourceKind → Bool
  | externalExecution | fixture | noOp => true
  | _ => false

/-- What a connector says of itself, and what an intent says of its connector. -/
structure ConnectorContract where
  connectorId : ExecutionConnectorId
  recoveryCapability : ExecutionRecoveryCapability
  sourceKind : ArtifactSourceKind
deriving DecidableEq

/-! ## Intents -/

/-- The durable declaration written before a claim calls a connector. -/
structure ExecutionIntent where
  operation : ExecutionOperation
  claimFence : StepClaimFence
  connectorId : ExecutionConnectorId
  recoveryCapability : ExecutionRecoveryCapability
  sourceKind : ArtifactSourceKind
  actorKind : AuditActorKind
  recordedAt : OffsetDateTime
  fromExecution : sourceKind.isExecutionSource = true
deriving DecidableEq

namespace ExecutionIntent

def new (operation : ExecutionOperation) (claimFence : StepClaimFence)
    (connectorId : ExecutionConnectorId) (recoveryCapability : ExecutionRecoveryCapability)
    (sourceKind : ArtifactSourceKind) (actorKind : AuditActorKind) (recordedAt : OffsetDateTime) :
    Result ExecutionIntent :=
  if h : sourceKind.isExecutionSource = true then
    .ok ⟨operation, claimFence, connectorId, recoveryCapability, sourceKind, actorKind, recordedAt,
      h⟩
  else
    refuse (.invariantViolated "execution intent requires an execution source kind")

def contract (i : ExecutionIntent) : ConnectorContract :=
  ⟨i.connectorId, i.recoveryCapability, i.sourceKind⟩

theorem new_eq_ok {operation : ExecutionOperation} {claimFence : StepClaimFence}
    {contract : ConnectorContract} {actorKind : AuditActorKind} {recordedAt : OffsetDateTime}
    {intent : ExecutionIntent}
    (h : new operation claimFence contract.connectorId contract.recoveryCapability
      contract.sourceKind actorKind recordedAt = .ok intent) :
    intent.operation = operation ∧ intent.claimFence = claimFence ∧ intent.contract = contract ∧
      intent.actorKind = actorKind := by
  unfold new at h
  split at h
  · cases h
    exact ⟨rfl, rfl, rfl, rfl⟩
  · simp at h

end ExecutionIntent

/-- The durable request to reconcile what an intent left behind. -/
structure ExecutionReconciliationRequirement where
  operationId : ExecutionOperationId
  requestDigest : ExecutionRequestDigest
  producerClaimFence : StepClaimFence
  connectorId : ExecutionConnectorId
deriving DecidableEq

namespace ExecutionReconciliationRequirement

def fromIntent (intent : ExecutionIntent) : ExecutionReconciliationRequirement where
  operationId := intent.operation.operationId
  requestDigest := intent.operation.requestDigest
  producerClaimFence := intent.claimFence
  connectorId := intent.connectorId

def matchesIntent (r : ExecutionReconciliationRequirement) (intent : ExecutionIntent) : Bool :=
  decide (r = fromIntent intent)

end ExecutionReconciliationRequirement

/-! ## Receipts -/

structure ArtifactImportRef where
  val : String
deriving DecidableEq

structure ArtifactProvenance where
  sourceKind : ArtifactSourceKind
  executionReceiptId : Option ExecutionReceiptId
  operationId : Option ExecutionOperationId
  acceptedClaimFence : Option StepClaimFence
  observedAt : OffsetDateTime
  importRef : Option ArtifactImportRef
deriving DecidableEq

namespace ArtifactProvenance

variable (p : ArtifactProvenance)

def hasExecution : Bool :=
  p.executionReceiptId.isSome && p.operationId.isSome && p.acceptedClaimFence.isSome

def hasPartialExecution : Bool :=
  p.executionReceiptId.isSome || p.operationId.isSome || p.acceptedClaimFence.isSome

def fits : Bool :=
  match p.sourceKind with
  | .externalExecution | .fixture | .noOp => p.hasExecution && p.importRef.isNone
  | .generatedReport => !p.hasPartialExecution && p.importRef.isNone
  | .imported => !p.hasPartialExecution && p.importRef.isSome

def validate : Result Unit :=
  require (p.fits = true)
    (.invariantViolated "artifact provenance fields do not match its source kind")

end ArtifactProvenance

/-- The metadata of an artifact; of its identity, digest, size and media type only the whole is
ever compared. -/
structure ArtifactRef where
  description : Value
  provenance : ArtifactProvenance
deriving DecidableEq

def ArtifactRef.validate (a : ArtifactRef) : Result Unit := a.provenance.validate

def maxExecutionArtifacts : Nat := 100

/-- The immutable observation of how an operation ended. -/
structure ExecutionReceipt where
  receiptId : ExecutionReceiptId
  operationId : ExecutionOperationId
  requestDigest : ExecutionRequestDigest
  producerClaimFence : StepClaimFence
  connectorId : ExecutionConnectorId
  externalOperationId : Option ExternalOperationId
  recoveryCapability : ExecutionRecoveryCapability
  sourceKind : ArtifactSourceKind
  result : StepResult
  artifacts : List ArtifactRef
  budgetMeasurement : MeasuredBudgetQuantities
  observedAt : OffsetDateTime
deriving DecidableEq

namespace ExecutionReceipt

def contract (r : ExecutionReceipt) : ConnectorContract :=
  ⟨r.connectorId, r.recoveryCapability, r.sourceKind⟩

def requireExecutionSource (sourceKind : ArtifactSourceKind) : Result Unit :=
  require (sourceKind.isExecutionSource = true)
    (.invariantViolated "execution receipt requires an execution source kind")

def requireArtifactCount (artifacts : List ArtifactRef) : Result Unit :=
  require (artifacts.length ≤ maxExecutionArtifacts)
    (.outOfRange "execution_receipt.artifacts" artifacts.length 0 maxExecutionArtifacts)

/-- An artifact of a receipt was produced by exactly its execution. -/
def requireProvenance (receiptId : ExecutionReceiptId) (operationId : ExecutionOperationId)
    (producerClaimFence : StepClaimFence) (sourceKind : ArtifactSourceKind)
    (artifact : ArtifactRef) : Result Unit :=
  require (artifact.provenance.executionReceiptId = some receiptId ∧
      artifact.provenance.operationId = some operationId ∧
      artifact.provenance.acceptedClaimFence = some producerClaimFence ∧
      artifact.provenance.sourceKind = sourceKind)
    (.invariantViolated "execution receipt artifact provenance does not match its execution")

def new (operationId : ExecutionOperationId) (requestDigest : ExecutionRequestDigest)
    (producerClaimFence : StepClaimFence) (contract : ConnectorContract)
    (externalOperationId : Option ExternalOperationId) (result : StepResult)
    (artifacts : List ArtifactRef) (observedAt : OffsetDateTime) : Result ExecutionReceipt := do
  requireExecutionSource contract.sourceKind
  requireArtifactCount artifacts
  let receiptId := ExecutionReceiptId.forOperation operationId
  forEach artifacts (requireProvenance receiptId operationId producerClaimFence contract.sourceKind)
  pure
    { receiptId, operationId, requestDigest, producerClaimFence
      connectorId := contract.connectorId
      externalOperationId
      recoveryCapability := contract.recoveryCapability
      sourceKind := contract.sourceKind
      result, artifacts
      budgetMeasurement := .default
      observedAt }

def withBudgetMeasurement (r : ExecutionReceipt) (measured : MeasuredBudgetQuantities) :
    ExecutionReceipt :=
  { r with budgetMeasurement := measured }

def validate (r : ExecutionReceipt) : Result Unit := do
  require (r.receiptId = ExecutionReceiptId.forOperation r.operationId)
    (.invariantViolated "execution receipt id does not match its operation")
  requireExecutionSource r.sourceKind
  requireArtifactCount r.artifacts
  forEach r.artifacts fun artifact => do
    artifact.validate
    requireProvenance r.receiptId r.operationId r.producerClaimFence r.sourceKind artifact

end ExecutionReceipt

structure CeremonyExecutionObservation where
  producerClaimFence : StepClaimFence
  externalOperationId : Option ExternalOperationId
  result : StepResult
  artifacts : List ArtifactRef
  budgetMeasurement : MeasuredBudgetQuantities
  observedAt : OffsetDateTime
deriving DecidableEq

inductive CeremonyExecutionConnectorOutcome where
  | observed (observation : CeremonyExecutionObservation)
  | reconciliationRequired (operationId : ExecutionOperationId)
deriving DecidableEq

/-- The work a handler is asked to do.  Its canonical encoding is made outside this model. -/
structure CeremonyStepHandlerRequest where
  instanceId : CeremonyId
  stepId : StepId
  semanticRequestBytes : Result ExecutionRequestBytes

structure CeremonyExecutionRequest where
  intent : ExecutionIntent
  handlerRequest : CeremonyStepHandlerRequest

def CeremonyExecutionRequest.new (intent : ExecutionIntent)
    (handlerRequest : CeremonyStepHandlerRequest) : Result CeremonyExecutionRequest := do
  let bytes ← handlerRequest.semanticRequestBytes
  require (intent.operation.request = bytes)
    (.invariantViolated "handler request does not match the sealed execution request")
  pure ⟨intent, handlerRequest⟩

end Made
