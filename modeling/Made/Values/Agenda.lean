import Made.Values.Step

/-!
# What is said at the table

Interventions and the answers to them, decisions on human guards, reasons and seatings.  These are
the records a ceremony keeps beside its steps; an open intervention also keeps the ceremony out of
its terminal states.
-/

namespace Made

open Outcome

/-! ## Free text -/

/-- Control characters other than line breaks and tabs. -/
def isForbiddenInMessage (c : Char) : Bool :=
  isControl c && !(c == '\n' || c == '\r' || c == '\t')

/-- A message of an intervention: trimmed, not empty, bounded, no control characters. -/
abbrev InterventionMessage :=
  Text ⟨"ceremony_intervention.message", 16384, fun c => !isForbiddenInMessage c⟩

structure CeremonyInterventionContent where
  message : InterventionMessage
  details : Attributes
deriving DecidableEq

def CeremonyInterventionContent.new (message : String) (details : Attributes) :
    Result CeremonyInterventionContent := do
  let message ← Text.new _ message
  pure ⟨message, details⟩

/-! ## Recipients and targets -/

structure DeliveryRecipient where
  agentExecutionId : CeremonyAgentExecutionId
  incarnation : HostAgentIncarnation
  roleId : RoleId
deriving DecidableEq

def DeliveryRecipient.isSameIncarnationAs (a b : DeliveryRecipient) : Bool :=
  decide (a.agentExecutionId = b.agentExecutionId) && decide (a.incarnation = b.incarnation)

/-- Whom an intervention is put to: the table, some roles, or one live agent. -/
inductive CeremonyInterventionTarget where
  | table
  | roles (roleIds : List RoleId)
  | agentExecution (recipient : DeliveryRecipient)
deriving DecidableEq

namespace CeremonyInterventionTarget

def maxRoleIds : Nat := 100

/-- The loop of `InterventionRoleIds::new` over roles that already passed their own rule. -/
def validateRoles : List RoleId → List RoleId → Result Unit
  | seen, [] =>
    if seen.isEmpty then
      refuse (.emptyCollection "ceremony_intervention.target_role_ids")
    else
      .ok ()
  | seen, roleId :: rest => do
    let roleId ← Text.new _ roleId.val
    if seen.contains roleId then
      refuse (.invalidDocument ("collection `" ++ "ceremony_intervention.target_role_ids" ++
          "` contains duplicate roles"))
    else if maxRoleIds < seen.length + 1 then
      refuse (.outOfRange "ceremony_intervention.target_role_ids" (seen.length + 1) 1 maxRoleIds)
    else
      validateRoles (roleId :: seen) rest

def validate : CeremonyInterventionTarget → Result Unit
  | table | agentExecution _ => .ok ()
  | roles roleIds => validateRoles [] roleIds

def accepts (target : CeremonyInterventionTarget) (roleId : RoleId) : Bool :=
  match target with
  | table => true
  | roles roleIds => roleIds.contains roleId
  | agentExecution recipient => decide (recipient.roleId = roleId)

def exactRecipient : CeremonyInterventionTarget → Option DeliveryRecipient
  | agentExecution recipient => some recipient
  | table | roles _ => none

def admitsRecipient (target : CeremonyInterventionTarget) (recipient : DeliveryRecipient) : Bool :=
  match target with
  | agentExecution addressed => addressed.isSameIncarnationAs recipient
  | table | roles _ => target.accepts recipient.roleId

end CeremonyInterventionTarget

/-! ## Interventions -/

inductive CeremonyInterventionKind where
  | opinion
  | investigation
  | action
deriving DecidableEq, Repr

inductive CeremonyInterventionStatus where
  | open_
  | closed
deriving DecidableEq, Repr

def CeremonyInterventionStatus.isOpen (s : CeremonyInterventionStatus) : Bool := s == .open_

inductive CeremonyInterventionIntent where
  | question
  | feedback
  | constraint
  | checkpoint
deriving DecidableEq, Repr

/-- Evidence from outside: the text of its summary and the bundle as it is serialized. -/
structure ExternalContextBundle where
  summary : String
  serialized : Value
deriving DecidableEq

structure CeremonyEvidencePack where
  sourceId : CeremonyEvidenceSourceId
  bundle : ExternalContextBundle
  collectedAt : OffsetDateTime
  /-- The pack as `serde_json` renders it. -/
  serialized : Value
deriving DecidableEq

def CeremonyEvidencePack.interventionContent (pack : CeremonyEvidencePack) :
    Result CeremonyInterventionContent := do
  let details ← Attributes.new ((∅ : Map String Value).insert "evidence_pack" pack.serialized)
  CeremonyInterventionContent.new pack.bundle.summary details

structure CeremonyInterventionResponse where
  roleId : RoleId
  content : CeremonyInterventionContent
  evidencePack : Option CeremonyEvidencePack
  respondedAt : OffsetDateTime
  executor : Option DeliveryRecipient
  deliveryId : Option HostDeliveryId
deriving DecidableEq

def CeremonyInterventionResponse.new (roleId : RoleId) (content : CeremonyInterventionContent)
    (respondedAt : OffsetDateTime) : CeremonyInterventionResponse :=
  ⟨roleId, content, none, respondedAt, none, none⟩

def CeremonyInterventionResponse.fromEvidence (roleId : RoleId) (pack : CeremonyEvidencePack)
    (respondedAt : OffsetDateTime) : Result CeremonyInterventionResponse := do
  let content ← pack.interventionContent
  pure ⟨roleId, content, some pack, respondedAt, none, none⟩

structure CeremonyInterventionProvenance where
  sourceInterventionId : CeremonyInterventionId
  sourceResponseRoleId : RoleId
  selectedRoleId : RoleId
deriving DecidableEq

structure SupervisorPrincipal where
  principalId : AuditActorId
  display : SupervisorDisplayName
deriving DecidableEq

/-- The seat a supervisor asks under, derived from the principal. -/
def SupervisorPrincipal.requestingRole (s : SupervisorPrincipal) : Result RoleId :=
  Text.new _ ("supervisor:" ++ s.principalId.val)

/-- What a host says it observed about a delivery, as sealed. -/
structure HostDeliveryObservation where
  kind : String
  observedAt : OffsetDateTime
  evidence : Option EvidenceReference
  note : String
deriving DecidableEq

structure InterventionDeliveryAck where
  deliveryId : HostDeliveryId
  recipient : DeliveryRecipient
  observation : HostDeliveryObservation
  acknowledgedAt : OffsetDateTime
deriving DecidableEq

def InterventionDeliveryAck.agreesWith (a b : InterventionDeliveryAck) : Bool :=
  decide (a.deliveryId = b.deliveryId) && decide (a.recipient = b.recipient) &&
    decide (a.observation = b.observation)

/-- The terms an intervention is offered under, as sealed; the aggregate never reads them. -/
structure InterventionDeliveryPolicy where
  terms : Value
deriving DecidableEq

structure CeremonyIntervention where
  id : CeremonyInterventionId
  kind : CeremonyInterventionKind
  requestedBy : RoleId
  target : CeremonyInterventionTarget
  request : CeremonyInterventionContent
  provenance : Option CeremonyInterventionProvenance
  responses : List CeremonyInterventionResponse
  status : CeremonyInterventionStatus
  createdAt : OffsetDateTime
  updatedAt : OffsetDateTime
  closedAt : Option OffsetDateTime
  intent : Option CeremonyInterventionIntent
  delivery : Option InterventionDeliveryPolicy
  supervisor : Option SupervisorPrincipal
  deliveries : List InterventionDeliveryAck
deriving DecidableEq

namespace CeremonyIntervention

def openWithProvenance (id : CeremonyInterventionId) (kind : CeremonyInterventionKind)
    (requestedBy : RoleId) (target : CeremonyInterventionTarget)
    (request : CeremonyInterventionContent) (provenance : Option CeremonyInterventionProvenance)
    (now : OffsetDateTime) : CeremonyIntervention where
  id := id
  kind := kind
  requestedBy := requestedBy
  target := target
  request := request
  provenance := provenance
  responses := []
  status := .open_
  createdAt := now
  updatedAt := now
  closedAt := none
  intent := none
  delivery := none
  supervisor := none
  deliveries := []

variable (i : CeremonyIntervention)

def deliveryAck (deliveryId : HostDeliveryId) : Option InterventionDeliveryAck :=
  i.deliveries.find? (·.deliveryId = deliveryId)

def acknowledgeDelivery (ack : InterventionDeliveryAck) : Result CeremonyIntervention :=
  match i.deliveryAck ack.deliveryId with
  | some existing =>
    if existing.agreesWith ack then .ok i
    else refuse (.conflict "ceremony_intervention.delivery_acknowledgement")
  | none => .ok { i with updatedAt := ack.acknowledgedAt, deliveries := i.deliveries ++ [ack] }

def ensureCanRespond (roleId : RoleId) : Result Unit := do
  require (i.status.isOpen = true)
    (.invariantViolated "closed ceremony interventions cannot receive responses")
  require (i.target.accepts roleId = true)
    (.invariantViolated "ceremony intervention does not target responding role")
  require (i.responses.any (·.roleId = roleId) = false)
    (.alreadyExists "ceremony_intervention.response_role")

def acceptResponse (response : CeremonyInterventionResponse) : Result CeremonyIntervention := do
  i.ensureCanRespond response.roleId
  pure { i with updatedAt := response.respondedAt, responses := i.responses ++ [response] }

def close (i : CeremonyIntervention) (roleId : RoleId) (now : OffsetDateTime) :
    Result CeremonyIntervention := do
  require (i.status.isOpen = true) (.invariantViolated "ceremony intervention is already closed")
  require (roleId = i.requestedBy)
    (.invariantViolated "only the requesting role can close a ceremony intervention")
  pure { i with status := .closed, updatedAt := now, closedAt := some now }

end CeremonyIntervention

/-! ## Human guards -/

inductive AuditActorKind where
  | human
  | agent
  | service
  | engine
deriving DecidableEq, Repr

structure CeremonyGuardApproval where
  guardName : GuardName
  approvedBy : RoleId
  approvedByKind : AuditActorKind
  approvedAt : OffsetDateTime
deriving DecidableEq

/-- Distinct conditions to ask again, at most a hundred; the aggregate validates them again. -/
structure ReconsiderationConditions where
  conditions : List String
deriving DecidableEq

namespace ReconsiderationConditions

def field : String := "ceremony_guard_deferral.reconsider_when"

def maxItems : Nat := 100

/-- The loop over the conditions; `seen` holds the trimmed ones so far. -/
def validateLoop : List String → List String → Result Unit
  | _, [] => .ok ()
  | seen, condition :: rest =>
    let trimmed := trim condition
    if trimmed = "" then
      refuse (.emptyField field)
    else if 1024 < trimmed.utf8ByteSize then
      refuse (.fieldTooLong field trimmed.utf8ByteSize 1024)
    else if trimmed.toList.any isForbiddenInMessage then
      refuse (.invalidCharacters field)
    else if seen.contains trimmed then
      refuse (.invalidDocument ("collection `" ++ field ++ "` contains duplicate conditions"))
    else
      validateLoop (trimmed :: seen) rest

def validate (r : ReconsiderationConditions) : Result Unit :=
  if r.conditions.isEmpty then
    refuse (.emptyCollection field)
  else if maxItems < r.conditions.length then
    refuse (.outOfRange field r.conditions.length 1 maxItems)
  else
    validateLoop [] r.conditions

end ReconsiderationConditions

structure CeremonyGuardDeferralContent where
  statement : String
  reason : String
  reconsiderWhen : ReconsiderationConditions
deriving DecidableEq

structure CeremonyGuardDeferral where
  guardName : GuardName
  deferredBy : RoleId
  deferredByKind : AuditActorKind
  content : CeremonyGuardDeferralContent
  deferredAt : OffsetDateTime
deriving DecidableEq

/-! ## Reasons and seatings -/

inductive CeremonyReasonKind where
  | answers
  | chosenBecause
  | authorizes
  | achievedBy
  | followsFrom
  | satisfiesConstraint
  | violatesConstraint
  | supersedes
  | contradicts
deriving DecidableEq, Repr

inductive ReasonAsserter where
  | theEngine
  | itsAuthor
  | anySeat
deriving DecidableEq, Repr

def CeremonyReasonKind.asserter : CeremonyReasonKind → ReasonAsserter
  | answers => .theEngine
  | authorizes | chosenBecause | achievedBy => .itsAuthor
  | followsFrom | satisfiesConstraint | violatesConstraint | supersedes | contradicts => .anySeat

/-- Something a session produced that another thing can point at. -/
inductive CeremonyRecordRef where
  | step (stepId : StepId)
  | agendaItem (agendaItem : CeremonyInterventionId)
  | contribution (agendaItem : CeremonyInterventionId) (ordinal : Nat)
  | guardDecision (guardName : GuardName)
  | transition (ordinal : Nat)
deriving DecidableEq

inductive MemoryConfidence where
  | high
  | medium
  | low
deriving DecidableEq, Repr

/-- Why one record led to another; nothing explains itself. -/
structure CeremonyReason where
  from_ : CeremonyRecordRef
  to_ : CeremonyRecordRef
  kind : CeremonyReasonKind
  why : String
  confidence : MemoryConfidence
  assertedBy : Option RoleId
  assertedAt : OffsetDateTime
  distinct : from_ ≠ to_
deriving DecidableEq

structure CeremonyParticipantBinding where
  roleId : RoleId
  specialty : Specialty
  boundAt : OffsetDateTime
deriving DecidableEq

end Made
