import Made.Decisions.Claims
import Made.Decisions.Steps
import Made.Decisions.Table

/-!
# The decision of a ceremony

`decide` dispatches a command to its family.  Planning a successor is decided here as well: a
paused ceremony seals which definition replaces it, what that successor starts with and what
becomes of every claim that is still outstanding.
-/

namespace Made

open Outcome

namespace CeremonyInstance

variable (i : CeremonyInstance) (d : CeremonyDefinition)

/-! ## Succession -/

/-- The phase of the claim a record holds; a record that was never claimed has none. -/
def claimPhase (record : StepExecutionRecord) (now : OffsetDateTime) : Option CeremonyClaimPhase :=
  match record.status with
  | .inProgress => if record.hasLiveLeaseAt now then some .live else some .expired
  | .completed => some .completed
  | .failed => some .failed
  | .pending | .waitingForHuman | .cancelled => none

def claimIsOutstanding (record : StepExecutionRecord) (now : OffsetDateTime) : Bool :=
  (claimPhase record now).any CeremonyClaimPhase.isOutstanding

variable (plan : SuccessionPlan)

def requirePinnedSuccessor (successor : PublishedCeremonyDefinition) :
    Result Unit :=
  require (plan.successorDefinition =
      ⟨successor.definition.name, successor.definition.version, successor.digest⟩)
    (.invariantViolated "the sealed successor publication is not the one this plan pinned")

def requireDerivedSuccessorId : Result Unit := do
  let derived ← SuccessorCeremonyId.derive i.id plan.planId
  require (derived = plan.successorId)
    (.invariantViolated "successor id is not the one this plan derives")

/-- A claim that is still outstanding has a disposition against the claim as it is. -/
def requireDisposed (now : OffsetDateTime) (entry : StepId × StepExecutionRecord) : Result Unit :=
  if claimIsOutstanding entry.2 now then do
    let disposition ← okOr (plan.dispositionFor entry.1) (.invalidDocument
      ("step `" ++ entry.1.val ++ "` holds an outstanding claim with no disposition"))
    i.requireStepClaimFence entry.1 disposition.claimFence
  else
    .ok ()

def requireOutstanding (now : OffsetDateTime) (disposition : ClaimDisposition) : Result Unit :=
  require (i.stepRecords[disposition.stepId]?.any (claimIsOutstanding · now) = true)
    (.invalidDocument
      ("step `" ++ disposition.stepId.val ++ "` holds no outstanding claim to dispose of"))

def requireEveryOutstandingClaimIsDisposed (now : OffsetDateTime) :
    Result Unit := do
  forEach i.stepRecords.toList (i.requireDisposed plan now)
  forEach plan.dispositions (i.requireOutstanding now)

def requireSuccessorDeclares (successor : PublishedCeremonyDefinition) (successorStepId : StepId) :
    Result Unit :=
  require ((successor.definition.step successorStepId).isSome = true) (.invalidDocument
    ("the successor's definition declares no step `" ++ successorStepId.val ++ "`"))

def requireStepCarries (diff : CeremonyDefinitionDiff) (successorStepId : StepId) : Result Unit :=
  require (diff.changes.any (fun change =>
      decide (change.locus = .step successorStepId) && decide (change.impact = .strands)) = false)
    (.invalidDocument ("step `" ++ successorStepId.val ++
      "` is stranded by the successor's definition and cannot carry evidence"))

/-- Carried evidence points at work this ceremony completed, exactly as it sealed it. -/
def requireCarriedEvidenceIsSound (command : PlanSuccessor) (evidence : CarriedEvidence) :
    Result Unit := do
  let source := evidence.source
  let name := source.stepId.val
  require (source.ceremonyId = i.id) (.invalidDocument
    ("carried evidence for step `" ++ evidence.successorStepId.val ++
      "` names another ceremony as its source"))
  let record ← okOr i.stepRecords[source.stepId]? (.invalidDocument
    ("carried evidence names step `" ++ name ++ "`, which this ceremony has no record of"))
  require (record.status = .completed) (.invalidDocument
    ("carried evidence names step `" ++ name ++ "`, which this ceremony did not complete"))
  require (record.stateVisit = source.stateVisit ∧ record.attempt = source.attempt)
    (.invalidDocument ("carried evidence for step `" ++ name ++
      "` names a visit or attempt this ceremony did not seal"))
  require (record.output = evidence.output) (.invalidDocument
    ("carried evidence for step `" ++ name ++ "` differs from the output this ceremony sealed"))
  requireSuccessorDeclares command.successor evidence.successorStepId
  requireStepCarries command.diff evidence.successorStepId

def decideNewSuccessor (command : PlanSuccessor) : Result (List CeremonyEvent) := do
  let plan := command.plan
  require (i.lifecycle_.phase = .paused) (.lifecycleRefused "plan_successor" i.lifecycle_.phase)
  require (plan.budget ≠ .transferRemaining)
    (.invariantViolated "budget transfer is not supported in this release")
  requirePinnedSuccessor plan command.successor
  i.requireDerivedSuccessorId plan
  i.requireEveryOutstandingClaimIsDisposed plan command.now
  forEach plan.carried (i.requireCarriedEvidenceIsSound command)
  pure [.successorPlanned plan]

def decidePlanSuccessor (command : PlanSuccessor) : Result (List CeremonyEvent) := do
  i.requireDefinition d
  match i.successorPlan with
  | some existing =>
    if existing = command.plan then pure []
    else refuse (.conflict "successor_already_planned")
  | none => i.decideNewSuccessor command

/-! ## Dispatch -/

def decide : CeremonyCommand → Result (List CeremonyEvent)
  | .recordHostHandoff command => i.decideRecordHostHandoff d command
  | .bindParticipant command => i.decideBindParticipant d command
  | .startStep command => i.decideStartStep d command
  | .renewStepLease command => i.decideRenewStepLease d command
  | .applyStepResult command => i.decideApplyStepResult d command
  | .applyExecutionReceiptResult command => i.decideApplyExecutionReceiptResult d command
  | .applyTransition command => i.decideApplyTransition d command
  | .approveGuard command => i.decideApproveGuard d command
  | .deferGuard command => i.decideDeferGuard d command
  | .requestIntervention command => i.decideRequestIntervention d command
  | .respondToIntervention command => i.decideRespondToIntervention d command
  | .respondToInterventionWithEvidence command =>
    i.decideRespondToInterventionWithEvidence d command
  | .acknowledgeInterventionDelivery command => i.decideAcknowledgeInterventionDelivery d command
  | .assertReason reason => i.decideAssertReason d reason
  | .closeIntervention command => i.decideCloseIntervention d command
  | .planCeremonyChildren command => i.decidePlanChildren d command
  | .planSuccessor command => i.decidePlanSuccessor d command
  | .adoptChildSpawnPlan command => i.decideAdoptChildPlan d command
  | .acceptChildCompletion command => i.decideAcceptChildCompletion d command
  | .pauseCeremony command => i.decidePause d command
  | .resumeCeremony now => i.decideResume d now
  | .cancelCeremony command => i.decideCancel d command
  | .enforceCeremonyDeadlines now => i.decideEnforceDeadlines d now

end CeremonyInstance

end Made
