import Made.Aggregate.Instance

/-!
# Folding events into a ceremony

`apply` writes what one event says and checks nothing: every rule was held when the event was
decided.  The fold is total except in one place.  Writing a context patch rebuilds the context
through its size-checked constructor and unwraps the answer, so folding a patch that does not fit
panics.
-/

namespace Made

namespace CeremonyInstance

variable (i : CeremonyInstance)

/-! ## Opening -/

/-- The session an opening describes: its initial state and one pending record per step. -/
def fromStarted (started : CeremonyInstanceStarted) : CeremonyInstance where
  leaseRenewals := ∅
  hostHandoffs := ∅
  id := started.ceremonyId
  definitionName := started.definitionName
  definitionVersion := started.definitionVersion
  currentState := started.initialState
  currentStateIteration := StateIteration.first
  currentStateVisit := StateVisit.first
  stepRecords := Std.ExtTreeMap.ofList
    (started.stepIds.map fun stepId => (stepId, StepExecutionRecord.pending))
  stepRecordHistory := ∅
  interventions := []
  guardDeferrals := []
  guardApprovals := []
  transitions := []
  reasons := []
  participantBindings := ∅
  context := started.context
  recollection := none
  idempotencyKeys := ∅
  createdAt := started.createdAt
  updatedAt := started.createdAt
  completedAt := none
  boundDefinition := started.boundDefinition
  lineage := started.lineage
  budgetAccountId := started.budgetAccountId
  childGroups := ∅
  lifecycle_ := CeremonyLifecycle.default
  ceremonyDeadline := started.ceremonyDeadline
  stateDeadline := started.stateDeadline
  stepDeadlines := ∅
  retiredDeadlineClaims := ∅
  lateStepResults := ∅
  executionReceiptLinks := ∅
  executionReceiptAdoptions := ∅
  succession := started.succession
  successorPlan := none

/-! ## Steps -/

/-- The record a step event is applied to; an undeclared step is opened pending. -/
def takeStepRecord (stepId : StepId) : StepExecutionRecord :=
  i.stepRecords[stepId]?.getD StepExecutionRecord.pending

def pushHistory (history : Map StepId (List StepExecutionRecord)) (stepId : StepId)
    (record : StepExecutionRecord) : Map StepId (List StepExecutionRecord) :=
  history.insert stepId (history[stepId]?.getD [] ++ [record])

/-- The role a start seals into the record: the dynamic one, or the sealed static one. -/
def claimedRoleOf (started : StepStarted) : Option RoleId :=
  (started.roleFrom.map fun _ => started.startedBy).or started.sealedRole

def applyStepStarted (started : StepStarted) : CeremonyInstance :=
  { i with
    idempotencyKeys := i.idempotencyKeys.insert started.lease.idempotencyKey
    stepRecords := i.stepRecords.insert started.stepId
      (((i.takeStepRecord started.stepId).withStarted started.lease started.attempt
        (claimedRoleOf started)).withBudgetReservation started.budgetReservationId)
    stepDeadlines :=
      match started.deadline with
      | some deadline => i.stepDeadlines.insert started.stepId deadline
      | none => i.stepDeadlines.erase started.stepId
    updatedAt := started.startedAt }

def applyStepLeaseRenewed (renewed : StepLeaseRenewed) : CeremonyInstance :=
  { i with
    leaseRenewals :=
      match renewed.request with
      | some request => i.leaseRenewals.insert request.id renewed
      | none => i.leaseRenewals
    stepRecords :=
      match i.stepRecords[renewed.stepId]? with
      | some record => i.stepRecords.insert renewed.stepId (record.renewLeaseUntil renewed.expiresAt)
      | none => i.stepRecords
    updatedAt := renewed.renewedAt }

/-- A completion with a next iteration archives the finished record and reopens the step. -/
def applyStepCompleted (completed : StepCompleted) : CeremonyInstance :=
  let finished := (i.takeStepRecord completed.stepId).withResult completed.result
  match completed.nextIteration with
  | some nextIteration =>
    { i with
      stepDeadlines := i.stepDeadlines.erase completed.stepId
      stepRecordHistory := pushHistory i.stepRecordHistory completed.stepId finished
      stepRecords := i.stepRecords.insert completed.stepId
        ((StepExecutionRecord.pendingCoordinates finished.stateIteration
          nextIteration).withStateVisit finished.stateVisit)
      updatedAt := completed.finishedAt }
  | none =>
    { i with
      stepDeadlines := i.stepDeadlines.erase completed.stepId
      stepRecords := i.stepRecords.insert completed.stepId finished
      updatedAt := completed.finishedAt }

def applyStepFailed (failed : StepFailed) : CeremonyInstance :=
  { i with
    stepDeadlines := i.stepDeadlines.erase failed.stepId
    stepRecords := i.stepRecords.insert failed.stepId
      ((i.takeStepRecord failed.stepId).withResult failed.result)
    updatedAt := failed.finishedAt }

/-- Archive the record of a step and open a pending one for the next state iteration. -/
def restartStep (stateIteration : StateIteration) (stateVisit : StateVisit)
    (acc : CeremonyInstance) (stepId : StepId) : CeremonyInstance :=
  { acc with
    stepRecordHistory := pushHistory acc.stepRecordHistory stepId (acc.takeStepRecord stepId)
    stepRecords := acc.stepRecords.insert stepId
      ((StepExecutionRecord.pendingStateIteration stateIteration).withStateVisit stateVisit) }

def applyStateIterationStarted (started : StateIterationStarted) : CeremonyInstance :=
  let reset := started.stepIds.foldl
    (restartStep started.stateIteration (started.stateVisit.getD StateVisit.first))
    { i with currentStateIteration := started.stateIteration }
  { reset with updatedAt := started.startedAt }

/-! ## Context -/

def applyContextWritten (written : ContextWritten) : Result CeremonyInstance :=
  match i.context.withPatch written.patch with
  | .ok context => .ok { i with context, updatedAt := written.writtenAt }
  | .error _ => .error (.panicked "a sealed context patch must remain valid")

/-! ## Transitions -/

/-- Reset one step of the destination: a record that was not pending goes to the history. -/
def resetStep (stateVisit : StateVisit) (acc : CeremonyInstance) (stepId : StepId) :
    CeremonyInstance :=
  { acc with
    stepRecordHistory :=
      match acc.stepRecords[stepId]? with
      | some previous =>
        if previous.status ≠ .pending then pushHistory acc.stepRecordHistory stepId previous
        else acc.stepRecordHistory
      | none => acc.stepRecordHistory
    stepRecords := acc.stepRecords.insert stepId
      (StepExecutionRecord.pending.withStateVisit stateVisit) }

/-- Enter the destination a transition sealed; a historical move without one resets nothing. -/
def enterDestination (destination : StateVisitEntry) : CeremonyInstance :=
  destination.stepIds.foldl (resetStep destination.stateVisit)
    { i with
      currentStateVisit := destination.stateVisit
      stateDeadline := destination.deadline }

def applyTransitionApplied (applied : TransitionApplied) : CeremonyInstance :=
  let entered :=
    match applied.destination with
    | some destination => i.enterDestination destination
    | none => i
  { entered with
    currentState := applied.transition.toState
    currentStateIteration := StateIteration.first
    transitions := entered.transitions ++ [applied.transition]
    updatedAt := applied.transition.appliedAt }

def applyCeremonyCompleted (completed : CeremonyCompleted) : CeremonyInstance :=
  { i with completedAt := some completed.completedAt, updatedAt := completed.completedAt }

/-! ## Lifecycle and deadlines -/

def applyCeremonyPaused (event : CeremonyPaused) : CeremonyInstance :=
  { i with
    lifecycle_ := i.lifecycle_.pause event.reason event.pausedAt
    updatedAt := event.pausedAt }

def applyCeremonyResumed (event : CeremonyResumed) : CeremonyInstance :=
  { i with lifecycle_ := i.lifecycle_.resume event.resumedAt, updatedAt := event.resumedAt }

def applyCeremonyCancelled (event : CeremonyCancelled) : CeremonyInstance :=
  { i with
    lifecycle_ := i.lifecycle_.end_ .cancelled (some event.reason) event.cancelledAt
    updatedAt := event.cancelledAt }

def applyCeremonyDeadlineExceeded (event : CeremonyDeadlineExceeded) : CeremonyInstance :=
  { i with
    lifecycle_ := i.lifecycle_.end_ .ceremonyDeadline none event.observedAt
    updatedAt := event.observedAt }

def applyStateDeadlineExceeded (event : StateDeadlineExceeded) : CeremonyInstance :=
  { i with
    lifecycle_ := i.lifecycle_.end_ .stateDeadline none event.observedAt
    updatedAt := event.observedAt }

def applyStepDeadlineExceeded (event : StepDeadlineExceeded) : CeremonyInstance :=
  { i with
    stepRecords :=
      match i.stepRecords[event.deadline.stepId]? with
      | some record => i.stepRecords.insert event.deadline.stepId (record.withResult event.result)
      | none => i.stepRecords
    stepDeadlines := i.stepDeadlines.erase event.deadline.stepId
    retiredDeadlineClaims := i.retiredDeadlineClaims.insert event.deadline.claimFence event.deadline
    updatedAt := event.observedAt }

def applyLateStepResultObserved (event : LateStepResultObserved) : CeremonyInstance :=
  { i with
    lateStepResults := i.lateStepResults.insert event.result.claimFence event.result
    updatedAt := event.observedAt }

/-! ## Agenda -/

/-- Replace the first intervention with the given id, if an update of it is accepted. -/
def updateIntervention (interventionId : CeremonyInterventionId)
    (update : CeremonyIntervention → Result CeremonyIntervention) :
    List CeremonyIntervention → List CeremonyIntervention
  | [] => []
  | item :: rest =>
    if item.id = interventionId then
      match update item with
      | .ok updated => updated :: rest
      | .error _ => item :: rest
    else
      item :: updateIntervention interventionId update rest

/-- The reason the engine records for an accepted contribution, unless its ordinal overflows. -/
def answersReason (agendaItem : CeremonyInterventionId) (responses : Nat) (now : OffsetDateTime) :
    List CeremonyReason :=
  if responses = 0 ∨ u32Max < responses - 1 then []
  else
    [{ from_ := .contribution agendaItem (responses - 1)
       to_ := .agendaItem agendaItem
       kind := .answers
       why := "a contribution made against this agenda item"
       confidence := .high
       assertedBy := none
       assertedAt := now
       distinct := by simp }]

def applyInterventionResponded (responded : InterventionResponded) : CeremonyInstance :=
  match i.intervention responded.interventionId with
  | none => i
  | some item =>
    let response := responded.response
    match item.acceptResponse response with
    | .ok updated =>
      { i with
        interventions := updateIntervention responded.interventionId
          (fun item => item.acceptResponse response) i.interventions
        reasons := i.reasons ++
          answersReason responded.interventionId updated.responses.length response.respondedAt
        updatedAt := response.respondedAt }
    | .error _ => { i with updatedAt := response.respondedAt }

def applyInterventionDeliveryAcknowledged (event : InterventionDeliveryAcknowledged) :
    CeremonyInstance :=
  { i with
    interventions := updateIntervention event.interventionId
      (fun item => item.acknowledgeDelivery event.ack) i.interventions
    updatedAt := event.ack.acknowledgedAt }

def applyInterventionClosed (closed : InterventionClosed) : CeremonyInstance :=
  { i with
    interventions := updateIntervention closed.interventionId
      (fun item => item.close closed.closedBy closed.closedAt) i.interventions
    updatedAt := closed.closedAt }

/-- An approval also sets its key in the context, where the context has room for it. -/
def applyHumanApprovalRecorded (approval : CeremonyGuardApproval) : CeremonyInstance :=
  { i with
    context :=
      match i.context.withGuardApproval approval.guardName with
      | .ok context => context
      | .error _ => i.context
    guardApprovals := i.guardApprovals ++ [approval]
    updatedAt := approval.approvedAt }

def applyParticipantsBound (bindings : List CeremonyParticipantBinding) : CeremonyInstance :=
  bindings.foldl
    (fun acc binding =>
      { acc with
        participantBindings := acc.participantBindings.insert binding.roleId binding
        updatedAt := binding.boundAt })
    i

/-! ## Children, receipts, succession -/

def applyChildSpawnPlanned (event : ChildSpawnPlanned) : CeremonyInstance :=
  { i with
    childGroups :=
      if i.childGroups.contains event.plan.groupId then i.childGroups
      else i.childGroups.insert event.plan.groupId (ChildGroupState.new event.plan)
    updatedAt := event.plannedAt }

def applyChildSpawnPlanAdopted (event : ChildSpawnPlanAdopted) : CeremonyInstance :=
  match i.childGroups[event.groupId]? with
  | some group =>
    { i with
      childGroups := i.childGroups.insert event.groupId (group.adopt event.claimFence)
      updatedAt := event.adoptedAt }
  | none => i

def applyChildCompletionAccepted (event : ChildCompletionAccepted) : CeremonyInstance :=
  match i.childGroups[event.completion.groupId]? with
  | some group =>
    { i with
      childGroups := i.childGroups.insert event.completion.groupId (group.accept event.completion)
      updatedAt := event.acceptedAt }
  | none => i

/-- The first link of an operation stays; a later adoption is kept beside it, once per claim. -/
def applyExecutionReceiptLinked (event : ExecutionReceiptLinked) : CeremonyInstance :=
  let operationId := event.link.operationId
  if i.executionReceiptLinks.contains operationId && decide (event.link.kind = .adopted) then
    let adoptions := i.executionReceiptAdoptions[operationId]?.getD ∅
    { i with
      executionReceiptAdoptions := i.executionReceiptAdoptions.insert operationId
        (if adoptions.contains event.link.appliedClaimFence then adoptions
          else adoptions.insert event.link.appliedClaimFence event.link)
      updatedAt := event.linkedAt }
  else
    { i with
      executionReceiptLinks :=
        if i.executionReceiptLinks.contains operationId then i.executionReceiptLinks
        else i.executionReceiptLinks.insert operationId event.link
      updatedAt := event.linkedAt }

/-- A carried step starts completed, with the output and the source it was carried from. -/
def carryStep (acc : CeremonyInstance) (evidence : CarriedEvidence) : CeremonyInstance :=
  if acc.stepRecords.contains evidence.successorStepId then
    { acc with
      stepRecords := acc.stepRecords.insert evidence.successorStepId
        (StepExecutionRecord.carried evidence.output evidence.source acc.currentStateIteration
          acc.currentStateVisit) }
  else
    acc

def applySuccessionCarried (event : SuccessionCarried) : CeremonyInstance :=
  { event.carried.foldl carryStep i with updatedAt := event.carriedAt }

/-! ## The fold -/

def apply : CeremonyEvent → Result CeremonyInstance
  | .hostHandoffRecorded event =>
    .ok { i with
      hostHandoffs := i.hostHandoffs.insert event.declaration.id event
      updatedAt := event.recordedAt }
  -- A stream opens once; a second opening leaves the session as it was.
  | .ceremonyInstanceStarted _ => .ok i
  | .participantsBound bindings => .ok (i.applyParticipantsBound bindings)
  | .stepStarted event => .ok (i.applyStepStarted event)
  | .stepLeaseRenewed event => .ok (i.applyStepLeaseRenewed event)
  | .stepCompleted event => .ok (i.applyStepCompleted event)
  | .stepFailed event => .ok (i.applyStepFailed event)
  | .contextWritten event => i.applyContextWritten event
  | .stateIterationStarted event => .ok (i.applyStateIterationStarted event)
  | .transitionApplied event => .ok (i.applyTransitionApplied event)
  | .interventionRequested intervention =>
    .ok { i with
      interventions := i.interventions ++ [intervention]
      updatedAt := intervention.createdAt }
  | .interventionResponded event => .ok (i.applyInterventionResponded event)
  | .interventionClosed event => .ok (i.applyInterventionClosed event)
  | .interventionDeliveryAcknowledged event =>
    .ok (i.applyInterventionDeliveryAcknowledged event)
  | .evidenceCollected event => .ok { i with updatedAt := event.collectedAt }
  | .reasonAsserted reason =>
    .ok { i with reasons := i.reasons ++ [reason], updatedAt := reason.assertedAt }
  | .humanApprovalRecorded approval => .ok (i.applyHumanApprovalRecorded approval)
  | .humanDeferralRecorded deferral =>
    .ok { i with
      guardDeferrals := i.guardDeferrals ++ [deferral]
      updatedAt := deferral.deferredAt }
  | .ceremonyCompleted event => .ok (i.applyCeremonyCompleted event)
  | .instanceImported event => .ok event.snapshot
  | .memoryRecalled event =>
    .ok { i with recollection := some event.recollection, updatedAt := event.recalledAt }
  | .childSpawnPlanned event => .ok (i.applyChildSpawnPlanned event)
  | .childSpawnPlanAdopted event => .ok (i.applyChildSpawnPlanAdopted event)
  | .childCompletionAccepted event => .ok (i.applyChildCompletionAccepted event)
  | .ceremonyPaused event => .ok (i.applyCeremonyPaused event)
  | .ceremonyResumed event => .ok (i.applyCeremonyResumed event)
  | .ceremonyCancelled event => .ok (i.applyCeremonyCancelled event)
  | .ceremonyDeadlineExceeded event => .ok (i.applyCeremonyDeadlineExceeded event)
  | .stateDeadlineExceeded event => .ok (i.applyStateDeadlineExceeded event)
  | .stepDeadlineExceeded event => .ok (i.applyStepDeadlineExceeded event)
  | .lateStepResultObserved event => .ok (i.applyLateStepResultObserved event)
  | .executionReceiptLinked event => .ok (i.applyExecutionReceiptLinked event)
  | .successorPlanned plan =>
    .ok { i with successorPlan := some plan, updatedAt := plan.plannedAt }
  | .successionCarried event => .ok (i.applySuccessionCarried event)

def applyAll (i : CeremonyInstance) : List CeremonyEvent → Result CeremonyInstance
  | [] => .ok i
  | event :: rest => i.apply event >>= fun next => applyAll next rest

/-- Fold a whole stream: it opens with a start or an import, and imports nowhere else. -/
def rehydrate : List CeremonyEvent → Result CeremonyInstance
  | .ceremonyInstanceStarted started :: rest => foldStream (fromStarted started) rest
  | .instanceImported imported :: rest => foldStream imported.snapshot rest
  | _ => Outcome.refuse
      (.invariantViolated "a ceremony stream opens with its start or with its import")
where
  foldStream (i : CeremonyInstance) : List CeremonyEvent → Result CeremonyInstance
    | [] => .ok i
    | .instanceImported _ :: _ => Outcome.refuse
        (.invariantViolated "a ceremony stream carries an import only as its first event")
    | event :: rest => i.apply event >>= fun next => foldStream next rest

end CeremonyInstance

end Made
