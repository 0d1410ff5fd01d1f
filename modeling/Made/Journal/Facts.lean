import Made.Decisions.Decide
import Made.Journal.Record
import Made.Library.Separated

/-!
# What a session did, as facts

Every decided event becomes a fact whose id is derived from the ceremony, the type of the event
and what the event is about, so that deciding the same thing again gives the same fact.  A move, a
completion and a reason are numbered by what the session held before the batch; everything else is
read off the event.
-/

namespace Made

namespace SessionFacts

/-- The first sixteen hexadecimal characters of the digest of a text. -/
def shortDigest (value : String) : String :=
  String.ofList ((Sha256.hexChars (Framing.utf8 value)).take 16)

/-! ## What an event is about -/

/-- The visit of a coordinate, where the payload carries one. -/
def visitText (stateVisit : Option StateVisit) : String :=
  match stateVisit with
  | some visit => ":visit:" ++ toString visit.val
  | none => ""

def stepAbout (stepId : StepId) (stateVisit : Option StateVisit) (stateIteration : StateIteration)
    (iteration : StepIteration) (attempt : StepAttempt) : String :=
  "step:" ++ stepId.val ++ visitText stateVisit ++ ":state_iteration:" ++
    toString stateIteration.val ++ ":iteration:" ++ toString iteration.val ++ ":attempt:" ++
    toString attempt.val

def stepLeaseRenewedAbout (renewed : StepLeaseRenewed) : String :=
  match renewed.request with
  | some request => "renewal:" ++ request.id.val
  | none => "step:" ++ renewed.stepId.val ++ ":claim:" ++ renewed.claimFence.val ++ ":expiry:" ++
      toString renewed.expiresAt.nanos

def stateIterationAbout (started : StateIterationStarted) : String :=
  "state:" ++ started.stateId.val ++ visitText started.stateVisit ++ ":iteration:" ++
    toString started.stateIteration.val

def seatedText (binding : CeremonyParticipantBinding) : String :=
  binding.roleId.val ++ "=" ++ binding.specialty.val

def executionReceiptAbout (link : ExecutionReceiptLink) : String :=
  match link.kind with
  | .direct => "execution_receipt:" ++ link.receiptId.val
  | .adopted => "execution_receipt_adoption:" ++ link.receiptId.val ++ ":" ++
      link.appliedClaimFence.val

/-- Which thing an event happened to, as its id names it; `i` is the session it was decided in. -/
def about (i : CeremonyInstance) : CeremonyEvent → String
  | .hostHandoffRecorded recorded => "host-handoff:" ++ recorded.declaration.id.val
  | .ceremonyInstanceStarted _ | .instanceImported _ => "session"
  | .memoryRecalled _ => "recollection"
  | .participantsBound bindings =>
    "seating:" ++ String.intercalate "," (bindings.map seatedText)
  | .stepStarted e =>
    stepAbout e.stepId e.stateVisit (e.stateIteration.getD .first) e.iteration e.attempt
  | .stepLeaseRenewed e => stepLeaseRenewedAbout e
  | .stepCompleted e | .stepFailed e =>
    stepAbout e.stepId e.stateVisit (e.stateIteration.getD .first) e.iteration e.attempt
  | .contextWritten e => stepAbout e.stepId e.stateVisit e.stateIteration e.iteration e.attempt
  | .stateIterationStarted e => stateIterationAbout e
  | .transitionApplied _ | .ceremonyCompleted _ =>
    "transition:" ++ toString (i.transitions.length + 1)
  | .interventionRequested intervention => "intervention:" ++ intervention.id.val
  | .interventionResponded e =>
    "intervention:" ++ e.interventionId.val ++ ":" ++ e.response.roleId.val
  | .interventionClosed e => "intervention:" ++ e.interventionId.val
  | .interventionDeliveryAcknowledged e =>
    "intervention:" ++ e.interventionId.val ++ ":delivery:" ++ shortDigest e.ack.deliveryId.val
  | .evidenceCollected e => "intervention:" ++ e.interventionId.val ++ ":source:" ++ e.sourceId.val
  | .reasonAsserted _ => "reason:" ++ toString (i.reasons.length + 1)
  | .humanApprovalRecorded approval => "guard:" ++ approval.guardName.val
  | .humanDeferralRecorded deferral => "guard:" ++ deferral.guardName.val
  | .childSpawnPlanned e => "child_group:" ++ e.plan.groupId.val
  | .childSpawnPlanAdopted e => "child_group:" ++ e.groupId.val ++ ":fence:" ++ e.claimFence.val
  | .childCompletionAccepted e =>
    "child_group:" ++ e.completion.groupId.val ++ ":child:" ++ e.completion.childId.val
  | .ceremonyPaused e => "pause:" ++ toString e.pausedAt.nanos
  | .ceremonyResumed e => "resume:" ++ toString e.resumedAt.nanos
  | .ceremonyCancelled _ => "cancel"
  | .ceremonyDeadlineExceeded _ => "ceremony_deadline"
  | .stateDeadlineExceeded e =>
    "state:" ++ e.deadline.stateId.val ++ ":visit:" ++ toString e.deadline.stateVisit.val
  | .stepDeadlineExceeded e => "step_deadline:" ++ e.deadline.claimFence.val
  | .lateStepResultObserved e => "late_step_result:" ++ e.result.claimFence.val
  | .executionReceiptLinked e => executionReceiptAbout e.link
  | .successorPlanned plan => "succession:" ++ plan.planId.val
  | .successionCarried _ => "succession:carried"

/-! ## Facts -/

def eventIdText (ceremonyId : CeremonyId) (eventType : AuditEventType) (about : String) : String :=
  ceremonyId.val ++ ":" ++ eventType.asStr ++ ":" ++ about

def eventId (ceremonyId : CeremonyId) (eventType : AuditEventType) (about : String) :
    Result EventId :=
  Text.new _ (eventIdText ceremonyId eventType about)

def openingEventId (ceremonyId : CeremonyId) : Result EventId :=
  eventId ceremonyId .ceremonyInstanceStarted "session"

/-- The envelope around an event: its derived id, who did it and when. -/
def fact (i : CeremonyInstance) (event : CeremonyEvent) (actor : AuditActor)
    (occurredAt : OffsetDateTime) : Result AuditFact := do
  let eventId ← eventId i.id event.eventType (about i event)
  pure
    { eventId
      event
      ceremonyId := i.id
      definitionName := i.definitionName
      definitionVersion := i.definitionVersion
      occurredAt
      actor
      correlationId := none
      causationId := none
      traceId := none }

def facts (i : CeremonyInstance) (events : List CeremonyEvent) (actor : AuditActor)
    (occurredAt : OffsetDateTime) : Result (List AuditFact) :=
  events.mapM fun event => fact i event actor occurredAt

end SessionFacts

end Made
