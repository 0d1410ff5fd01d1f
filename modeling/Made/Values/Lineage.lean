import Made.Definition.Definition

/-!
# Children, successors, receipts and handoffs

The identities that tie one ceremony to others: the group of children a step spawns, the successor
a paused ceremony hands over to, the receipts of external executions and the declarations of the
hosts that run claims.  A child plan carries the checks of its constructor as a field.
-/

namespace Made

open Outcome

/-! ## Children -/

abbrev ChildDepth := Ordinal ⟨"child_depth", 65535⟩

def ChildDepth.first : ChildDepth := .of 1 (.refl true)

def ChildDepth.next (depth : ChildDepth) : Result ChildDepth :=
  if h : depth.val + 1 ≤ 65535 then
    .ok ⟨depth.val + 1, by omega, h⟩
  else
    refuse (.invariantViolated "child ceremony depth exhausted")

/-- The server's ceiling for nested ceremonies (`MaxChildDepth::SERVER_MAX`). -/
def maxServerDepth : Nat := 16

/-- How many more levels a ceremony may spawn below itself. -/
structure ChildDepthBudget where
  val : Nat
  le_max : val ≤ maxServerDepth
deriving DecidableEq

def ChildDepthBudget.serverMax : ChildDepthBudget := ⟨maxServerDepth, le_refl _⟩

def ChildDepthBudget.forChild (budget : ChildDepthBudget) (locally : MaxChildDepth) :
    Result ChildDepthBudget :=
  let effective := min budget.val locally.val
  if effective = 0 then
    refuse (.invariantViolated "child ceremony depth budget is exhausted")
  else
    .ok ⟨effective - 1, by have := budget.le_max; omega⟩

structure ChildSpawnCoordinates where
  stepId : StepId
  stateVisit : StateVisit
  stateIteration : StateIteration
  stepIteration : StepIteration
deriving DecidableEq

def ChildGroupId.derive (parentId : CeremonyId) (c : ChildSpawnCoordinates) : ChildGroupId :=
  HexDigest.ofTexts _ "made.child-group.v1"
    [parentId.val, c.stepId.val, toString c.stateVisit.val, toString c.stateIteration.val,
      toString c.stepIteration.val]

def ChildCeremonyId.derive (groupId : ChildGroupId) (position : Nat) : Result CeremonyId :=
  Text.new _ ("child-" ++ (HexDigest.ofTexts "child_ceremony_id" "made.child-ceremony.v1"
      [groupId.val, toString position]).val)

/-- Where a child stands under its root; depth and remaining budget stay under the ceiling. -/
structure CeremonyLineage where
  rootId : CeremonyId
  parentId : CeremonyId
  groupId : ChildGroupId
  position : Nat
  depth : ChildDepth
  remainingDepth : ChildDepthBudget
  root_iff : depth = ChildDepth.first ↔ rootId = parentId
  within_ceiling : depth.val + remainingDepth.val ≤ maxServerDepth
deriving DecidableEq

/-- What was recalled for a session, as rendered; only its emptiness matters to the aggregate. -/
structure SessionRecollection where
  scope : String
  entries : List Value
  whole : Bool
deriving DecidableEq

structure BudgetAccountId where
  val : String
deriving DecidableEq

structure PlannedChild where
  childId : CeremonyId
  position : Nat
  ceremony : CeremonyName
  version : CeremonyVersion
  digest : CeremonyDefinitionDigest
  context : CeremonyContext
  lineage : CeremonyLineage
  recollection : Option SessionRecollection
  budgetAccountId : Option BudgetAccountId
  openedAt : OffsetDateTime
deriving DecidableEq

/-- The identity and lineage checks of `ChildSpawnPlan::new` on one child. -/
def plannedChildOk (groupId : ChildGroupId) (first child : PlannedChild) : Bool :=
  decide (ChildCeremonyId.derive groupId child.position = .ok child.childId) &&
    decide (child.lineage.groupId = groupId) && child.lineage.position == child.position &&
    decide (child.lineage.rootId = first.lineage.rootId) &&
    decide (child.lineage.parentId = first.lineage.parentId) &&
    decide (child.lineage.depth = first.lineage.depth) &&
    decide (child.lineage.remainingDepth = first.lineage.remainingDepth)

/-- The checks of `ChildSpawnPlan::new`: a width within bounds, contiguous positions, and
identities derived from the parent and the coordinates. -/
def childSpawnPlanOk (groupId : ChildGroupId) (coordinates : ChildSpawnCoordinates)
    (children : List PlannedChild) (maxChildren : MaxChildren) : Bool :=
  match children with
  | [] => false
  | first :: _ =>
    children.length ≤ maxChildren.val && children.map (·.position) == List.range children.length &&
      decide (groupId = ChildGroupId.derive first.lineage.parentId coordinates) &&
      children.all (plannedChildOk groupId first)

structure ChildSpawnPlan where
  groupId : ChildGroupId
  coordinates : ChildSpawnCoordinates
  activeClaimFence : StepClaimFence
  children : List PlannedChild
  maxChildren : MaxChildren
  maxDepth : MaxChildDepth
  valid : childSpawnPlanOk groupId coordinates children maxChildren = true
deriving DecidableEq

structure ChildCompletionRef where
  groupId : ChildGroupId
  childId : CeremonyId
  terminalEventId : EventId
  terminalRecordHash : AuditRecordHash
deriving DecidableEq

structure ChildGroupState where
  plan : ChildSpawnPlan
  adoptedClaimFence : StepClaimFence
  completions : Map CeremonyId ChildCompletionRef
deriving DecidableEq

def ChildGroupState.new (plan : ChildSpawnPlan) : ChildGroupState :=
  ⟨plan, plan.activeClaimFence, ∅⟩

def ChildGroupState.adopt (g : ChildGroupState) (fence : StepClaimFence) : ChildGroupState :=
  { g with adoptedClaimFence := fence }

def ChildGroupState.accept (g : ChildGroupState) (completion : ChildCompletionRef) :
    ChildGroupState :=
  { g with completions := g.completions.insert completion.childId completion }

/-! ## Publications and succession -/

/-- A definition as it was published, with the digest of its canonical form. -/
structure PublishedCeremonyDefinition where
  definition : CeremonyDefinition
  digest : CeremonyDefinitionDigest
deriving DecidableEq

structure DefinitionPin where
  name : CeremonyName
  version : CeremonyVersion
  digest : CeremonyDefinitionDigest
deriving DecidableEq

structure CeremonySuccession where
  predecessorId : CeremonyId
  predecessorHead : AuditRecordHash
  predecessorVersion : Nat
  predecessorDefinition : DefinitionPin
  successorDefinition : DefinitionPin
  planId : IdempotencyKey
deriving DecidableEq

structure CarriedEvidence where
  successorStepId : StepId
  source : SourceRecordRef
  output : StepOutput
deriving DecidableEq

inductive ClaimDispositionKind where
  | abandonNoExternalEffect
  | abandonEffectReconciled (evidence : EvidenceReference)
  | carryReceipt (receiptId : ExecutionReceiptId)
  | retryInSuccessor
deriving DecidableEq

structure ClaimDisposition where
  stepId : StepId
  claimFence : StepClaimFence
  kind : ClaimDispositionKind
deriving DecidableEq

inductive BudgetDisposition where
  | fresh
  | transferRemaining
deriving DecidableEq, Repr

structure SuccessionPlan where
  planId : IdempotencyKey
  successorId : CeremonyId
  successorDefinition : DefinitionPin
  carried : List CarriedEvidence
  dispositions : List ClaimDisposition
  budget : BudgetDisposition
  plannedBy : AuditActorId
  plannedAt : OffsetDateTime
deriving DecidableEq

def SuccessionPlan.dispositionFor (plan : SuccessionPlan) (stepId : StepId) :
    Option ClaimDisposition :=
  plan.dispositions.find? (·.stepId = stepId)

def SuccessorCeremonyId.derive (predecessor : CeremonyId) (planId : IdempotencyKey) :
    Result CeremonyId :=
  let digest := HexDigest.ofTexts "successor_ceremony_id" "made.ceremony-successor.v1"
    [predecessor.val, planId.val]
  Text.new _ (predecessor.val ++ ".s." ++ String.ofList (digest.val.toList.take 16))

inductive CeremonyValidationLocus where
  | definition
  | input (input : InputName)
  | output (output : OutputName)
  | state (state : StateId)
  | transition (from_ : StateId) (trigger : TransitionTrigger)
  | step (step : StepId)
  | guard (guard : GuardName)
  | role (role : RoleId)
deriving DecidableEq

inductive CeremonyChangeImpact where
  | carries
  | strands
deriving DecidableEq, Repr

structure CeremonyDefinitionChange where
  locus : CeremonyValidationLocus
  impact : CeremonyChangeImpact
deriving DecidableEq

structure CeremonyDefinitionDiff where
  changes : List CeremonyDefinitionChange
deriving DecidableEq

inductive CeremonyClaimPhase where
  | live
  | expired
  | retired
  | completed
  | failed
deriving DecidableEq, Repr

def CeremonyClaimPhase.isOutstanding : CeremonyClaimPhase → Bool
  | live | expired => true
  | _ => false

/-! ## Execution receipts -/

def u32Bytes (n : Nat) : List UInt8 := Sha256.beBytes 4 n

/-- `ExecutionOperationId::for_step`: the identity of one semantic external operation. -/
def ExecutionOperationId.forStep (ceremonyId : CeremonyId) (stepId : StepId)
    (stateVisit : StateVisit) (stateIteration : StateIteration) (stepIteration : StepIteration) :
    ExecutionOperationId :=
  HexDigest.ofMessage _ (Framing.utf8 "made.execution-operation.v1" ++ 0 ::
      Framing.frames [Framing.utf8 ceremonyId.val, Framing.utf8 stepId.val,
        u32Bytes stateVisit.val, u32Bytes stateIteration.val, u32Bytes stepIteration.val])

/-- `ExecutionReceiptId::for_operation`: the identity of the sole receipt of an operation. -/
def ExecutionReceiptId.forOperation (operationId : ExecutionOperationId) : ExecutionReceiptId :=
  HexDigest.ofTexts _ "made.execution-receipt.v1" [operationId.val]

/-- `BudgetReservationId::for_operation` on the budget operation of an execution. -/
def BudgetReservationId.forOperation (account : BudgetAccountId)
    (operation : ExecutionOperationId) : BudgetReservationId :=
  ⟨(HexDigest.ofMessage "budget_reservation_id" (Framing.utf8 "made:budget-reservation:v1" ++ 0 ::
      (Framing.utf8 account.val ++ 0 :: Framing.utf8 operation.val))).val⟩

inductive ExecutionReceiptLinkKind where
  | direct
  | adopted
deriving DecidableEq, Repr

structure ExecutionReceiptLink where
  receiptId : ExecutionReceiptId
  operationId : ExecutionOperationId
  producerClaimFence : StepClaimFence
  appliedClaimFence : StepClaimFence
  kind : ExecutionReceiptLinkKind
deriving DecidableEq

def ExecutionReceiptLink.validate (link : ExecutionReceiptLink) : Result Unit := do
  require (link.receiptId = ExecutionReceiptId.forOperation link.operationId)
    (.invariantViolated "execution receipt link id does not match its operation")
  require (link.producerClaimFence = link.appliedClaimFence ↔ link.kind = .direct)
    (.invariantViolated "execution receipt link kind does not match its claim fences")

/-! ## Host handoffs and renewals -/

inductive HostWorkState where
  | handoffRequested
  | handoffAcknowledged
  | quiesced
  | lost
deriving DecidableEq, Repr

structure HostHandoffDeclaration where
  id : IdempotencyKey
  stepId : StepId
  claimFence : StepClaimFence
  owner : LeaseOwnerId
  incarnation : HostAgentIncarnation
  state : HostWorkState
  observedAt : OffsetDateTime
  evidence : EvidenceReference
deriving DecidableEq

/-- One field of a declaration; its limit counts characters. -/
def validateHandoffField (field value : String) (max : Nat) : Result Unit := do
  require (trim value ≠ "") (.emptyField field)
  require (value.toList.length ≤ max) (.fieldTooLong field value.toList.length max)
  require (value.toList.any isControl = false) (.invalidCharacters field)

def HostHandoffDeclaration.validate (d : HostHandoffDeclaration) : Result Unit := do
  validateHandoffField "host_handoff.id" d.id.val 256
  validateHandoffField "host_handoff.owner" d.owner.val 256
  validateHandoffField "host_handoff.evidence" d.evidence.val 2048

structure StepLeaseRenewalRequest where
  id : IdempotencyKey
  ttl : DurationMs
deriving DecidableEq

end Made
