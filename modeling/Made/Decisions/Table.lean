import Made.Decisions.Moves

/-!
# Speaking at the table

Seatings, human guards, interventions and reasons.  None of them moves a step; an open
intervention only keeps the ceremony out of its terminal states, and an approved guard lets a
transition through.
-/

namespace Made

open Outcome

namespace CeremonyInstance

variable (i : CeremonyInstance) (d : CeremonyDefinition)

/-! ## Seats and guards -/

def decideBindParticipant (command : BindParticipant) : Result (List CeremonyEvent) := do
  i.requireActive d "terminal ceremony instances cannot be re-seated"
  require ((d.role command.roleId).isSome = true) (.notFound "ceremony_role")
  pure [.participantsBound
    [{ roleId := command.roleId, specialty := command.specialty, boundAt := command.now }]]

/-- The human guard of a name; `refusal` is what a guard of another kind is refused with. -/
def requireHumanGuard (guardName : GuardName) (refusal : String) : Result Unit := do
  let guard ← okOr d.guards[guardName]? (.notFound "ceremony_guard")
  require (guard.condition = .humanApproval) (.invariantViolated refusal)

def decideApproveGuard (command : ApproveGuard) : Result (List CeremonyEvent) := do
  i.requireActive d "terminal ceremony instances cannot approve guards"
  requireHumanGuard d command.guardName "only human approval guards can be approved"
  i.requireDeclaredRole d command.approvedBy
  -- The fold writes the approval into the context; that it fits is checked here.
  let _ ← i.context.withGuardApproval command.guardName
  pure [.humanApprovalRecorded
    { guardName := command.guardName
      approvedBy := command.approvedBy
      approvedByKind := command.approvedByKind
      approvedAt := command.now }]

def decideDeferGuard (command : DeferGuard) : Result (List CeremonyEvent) := do
  command.content.reconsiderWhen.validate
  i.requireActive d "terminal ceremony instances cannot defer guard decisions"
  requireHumanGuard d command.guardName "only human approval guards can be deferred"
  require (i.context.isGuardApproved command.guardName = false)
    (.invariantViolated "approved human guards cannot be deferred")
  require ((d.availableTransitions i.currentState).any
      (·.requiredGuards.contains command.guardName) = true)
    (.invariantViolated "human guard is not required from the current state")
  i.requireDeclaredRole d command.deferredBy
  pure [.humanDeferralRecorded
    { guardName := command.guardName
      deferredBy := command.deferredBy
      deferredByKind := command.deferredByKind
      content := command.content
      deferredAt := command.now }]

/-! ## Interventions -/

def requireAnsweringRole (roleId : RoleId) : Result Unit := do
  require ((d.role roleId).isSome = true) (.notFound "ceremony_intervention.target_role")
  require (d.roleAllows roleId .respondToIntervention = true)
    (.invariantViolated "target role cannot respond to ceremony interventions")

def requireInterventionTarget (target : CeremonyInterventionTarget) : Result Unit :=
  match target with
  | .agentExecution recipient => requireAnsweringRole d recipient.roleId
  | .table => .ok ()
  | .roles roleIds => forEach roleIds (requireAnsweringRole d)

def requireSelectedResponse (requestedBy : RoleId) (target : CeremonyInterventionTarget)
    (provenance : CeremonyInterventionProvenance) : Result Unit := do
  let source ← okOr (i.intervention provenance.sourceInterventionId)
    (.notFound "ceremony_intervention.provenance_source")
  require (source.requestedBy = requestedBy)
    (.invariantViolated "only the source requester can select an intervention response")
  require (source.responses.any (·.roleId = provenance.sourceResponseRoleId) = true)
    (.notFound "ceremony_intervention.provenance_response")
  require ((d.role provenance.selectedRoleId).isSome = true)
    (.notFound "ceremony_intervention.provenance_selected_role")
  require (d.roleAllows provenance.selectedRoleId .respondToIntervention = true)
    (.invariantViolated "selected intervention role cannot respond")
  require (target.accepts provenance.selectedRoleId = true)
    (.invariantViolated "intervention target does not include the selected role")

def requireInterventionProvenance (requestedBy : RoleId) (target : CeremonyInterventionTarget)
    (provenance : Option CeremonyInterventionProvenance) : Result Unit :=
  match provenance with
  | some provenance => i.requireSelectedResponse d requestedBy target provenance
  | none => .ok ()

/-- Who may ask: a supervisor under its derived role, anyone else under a role that may. -/
def requireRequester (command : RequestIntervention) : Result Unit :=
  match command.supervisor with
  | some supervisor => do
    let derived ← supervisor.requestingRole
    require (command.roleId = derived)
      (.invariantViolated "supervisor intervention must be asked under its derived role")
  | none => i.requireRole d command.roleId .requestIntervention

def requestedIntervention (command : RequestIntervention) : CeremonyIntervention :=
  { CeremonyIntervention.openWithProvenance command.interventionId command.kind command.roleId
      command.target command.content command.provenance command.now with
    intent := command.intent
    delivery := command.delivery
    supervisor := command.supervisor }

def decideRequestIntervention (command : RequestIntervention) : Result (List CeremonyEvent) := do
  command.target.validate
  i.requireActive d "terminal ceremony instances cannot accept interventions"
  i.requireRequester d command
  requireInterventionTarget d command.target
  i.requireInterventionProvenance d command.roleId command.target command.provenance
  require (i.intervention command.interventionId = none) (.alreadyExists "ceremony_intervention")
  pure [.interventionRequested (requestedIntervention command)]

def requireOpenIntervention (interventionId : CeremonyInterventionId) :
    Result CeremonyIntervention :=
  okOr (i.intervention interventionId) (.notFound "ceremony_intervention")

def requireAnsweringExecutor (intervention : CeremonyIntervention) (roleId : RoleId)
    (executor : DeliveryRecipient) : Result Unit := do
  require (executor.roleId = roleId)
    (.invariantViolated "answering executor does not hold the responding role")
  require (intervention.target.admitsRecipient executor = true)
    (.invariantViolated "answering executor is not the one this intervention was put to")

def answeringResponse (command : RespondToIntervention) (intervention : CeremonyIntervention) :
    Result CeremonyInterventionResponse :=
  let response := CeremonyInterventionResponse.new command.roleId command.content command.now
  match command.executor with
  | none => .ok response
  | some executor => do
    requireAnsweringExecutor intervention command.roleId executor
    let deliveryId ← okOr command.deliveryId (.invariantViolated
      "an answer naming its executor must name the delivery it answers")
    pure { response with executor := some executor, deliveryId := some deliveryId }

def decideRespondToIntervention (command : RespondToIntervention) :
    Result (List CeremonyEvent) := do
  i.requireActive d "terminal ceremony instances cannot receive intervention responses"
  i.requireRole d command.roleId .respondToIntervention
  let intervention ← i.requireOpenIntervention command.interventionId
  intervention.ensureCanRespond command.roleId
  let response ← answeringResponse command intervention
  pure [.interventionResponded { interventionId := command.interventionId, response }]

def decideRespondToInterventionWithEvidence (command : RespondToInterventionWithEvidence) :
    Result (List CeremonyEvent) := do
  i.requireActive d "terminal ceremony instances cannot receive intervention evidence"
  i.requireRole d command.roleId .respondToIntervention
  let intervention ← i.requireOpenIntervention command.interventionId
  intervention.ensureCanRespond command.roleId
  let response ← CeremonyInterventionResponse.fromEvidence command.roleId command.evidencePack
    command.now
  pure [.evidenceCollected
      { interventionId := command.interventionId
        sourceId := command.evidencePack.sourceId
        collectedBy := command.roleId
        evidencePack := command.evidencePack
        collectedAt := command.now },
    .interventionResponded { interventionId := command.interventionId, response }]

def decideCloseIntervention (command : CloseIntervention) : Result (List CeremonyEvent) := do
  i.requireActive d "terminal ceremony instances cannot close interventions"
  i.requireRole d command.roleId .requestIntervention
  let intervention ← i.requireOpenIntervention command.interventionId
  let _ ← intervention.close command.roleId command.now
  pure [.interventionClosed
    { interventionId := command.interventionId
      closedBy := command.roleId
      closedAt := command.now }]

def decideAcknowledgeInterventionDelivery (command : AcknowledgeInterventionDelivery) :
    Result (List CeremonyEvent) := do
  i.requireActive d "terminal ceremony instances cannot record intervention deliveries"
  let intervention ← i.requireOpenIntervention command.interventionId
  require (intervention.target.admitsRecipient command.ack.recipient = true)
    (.invariantViolated "ceremony intervention was not delivered to this recipient")
  match intervention.deliveryAck command.ack.deliveryId with
  | some existing =>
    if existing.agreesWith command.ack then pure []
    else refuse (.conflict "ceremony_intervention.delivery_acknowledgement")
  | none => pure [.interventionDeliveryAcknowledged
      { interventionId := command.interventionId, ack := command.ack }]

/-! ## Reasons -/

def authorOf : CeremonyRecordRef → Option RoleId
  | .step _ => none
  | .agendaItem agendaItem => (i.intervention agendaItem).map (·.requestedBy)
  | .contribution agendaItem ordinal =>
    ((i.intervention agendaItem).bind fun item => item.responses[ordinal]?).map (·.roleId)
  | .guardDecision guardName =>
    ((i.guardApprovals.find? (·.guardName = guardName)).map (·.approvedBy)).or
      ((i.guardDeferrals.find? (·.guardName = guardName)).map (·.deferredBy))
  | .transition ordinal => i.transitions[ordinal - 1]?.bind (·.appliedBy)

def hasRecord : CeremonyRecordRef → Bool
  | .step stepId => i.stepRecords.contains stepId
  | .agendaItem agendaItem => (i.intervention agendaItem).isSome
  | .contribution agendaItem ordinal =>
    (i.intervention agendaItem).any fun item => decide (ordinal < item.responses.length)
  | .guardDecision guardName =>
    i.guardApprovals.any (·.guardName = guardName) || i.guardDeferrals.any (·.guardName = guardName)
  | .transition ordinal => decide (1 ≤ ordinal) && decide (ordinal ≤ i.transitions.length)

def requireRecord (record : CeremonyRecordRef) : Result Unit :=
  require (i.hasRecord record = true) (.notFound "ceremony_record")

/-- Whether a seat may assert a reason of this kind about this record. -/
def requireAsserter (reason : CeremonyReason) (roleId : RoleId) : Result Unit :=
  match reason.kind.asserter with
  | .theEngine => refuse (.invariantViolated
      ("this kind of reason states the shape of the session, not a judgement, " ++
        "and only the engine may assert it"))
  | .itsAuthor => require (i.authorOf reason.from_ = some roleId) (.invariantViolated
        "only whoever produced something may say why they decided it or how they did it")
  | .anySeat => .ok ()

def decideAssertReason (reason : CeremonyReason) : Result (List CeremonyEvent) := do
  let roleId ← okOr reason.assertedBy (.invariantViolated
    "a reason is asserted by a seat; the engine records its own unasked")
  i.requireDeclaredRole d roleId
  i.requireRecord reason.from_
  i.requireRecord reason.to_
  i.requireAsserter reason roleId
  pure [.reasonAsserted reason]

end CeremonyInstance

end Made
