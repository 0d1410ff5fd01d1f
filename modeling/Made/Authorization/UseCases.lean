import Made.Authorization.Store
import Made.Journal.Record

/-!
# Deciding on a policy

Each use case reads what it needs, decides on a snapshot of the policy and appends the event of its
decision at the version of the snapshot.  When the append meets another version it starts over, up
to sixteen times.
-/

namespace Made

open Interleaving Outcome

abbrev PolicyProg (α : Type) := ExceptT (Fault DomainError) (Prog policyPorts) α

namespace PolicyProg

variable {α : Type}

def check (result : Result α) : PolicyProg α := ExceptT.mk (pure result)

variable (policyId : AuthorizationPolicyId)

def load : PolicyProg (Option AuthorizationPolicySnapshot) :=
  ExceptT.mk (Prog.ask (I := policyPorts) (.load policyId))

def append (expected : AuthorizationPolicyVersion)
    (events : List AuthorizationPolicyEvent) : PolicyProg AuthorizationPolicyAppendOutcome :=
  ExceptT.mk (Prog.ask (I := policyPorts) (.append policyId expected events))

def decision (decisionId : AuthorizationDecisionId) :
    PolicyProg (Option AuthorizationDecision) :=
  ExceptT.mk (Prog.ask (I := policyPorts) (.decision policyId decisionId))

def decisionForRequest (requestId : AuthorizationRequestId) :
    PolicyProg (Option AuthorizationDecision) :=
  ExceptT.mk (Prog.ask (I := policyPorts) (.decisionForRequest policyId requestId))

def now : PolicyProg OffsetDateTime :=
  ExceptT.mk (Except.ok <$> Prog.ask (I := policyPorts) .now)

end PolicyProg

def maxConflictRetries : Nat := 16

def policyNotFound : DomainError := .notFound "authorization_policy"

def policyConflict : DomainError := .conflict "authorization_policy"

def retrying {α : Type} (attempt : PolicyProg (Option α)) : Nat → PolicyProg α
  | 0 => .check (refuse policyConflict)
  | turns + 1 => do
    match ← attempt with
    | some a => pure a
    | none => retrying attempt turns

/-- Append the event of a decision; a conflict leaves no answer. -/
def record {α : Type} (policyId : AuthorizationPolicyId) (version : AuthorizationPolicyVersion)
    (event : AuthorizationPolicyEvent) (answer : AuthorizationPolicyVersion → α) :
    PolicyProg (Option α) := do
  match ← PolicyProg.append policyId version [event] with
  | .appended version => pure (some (answer version))
  | .conflict _ _ => pure none

def recordPlan (policyId : AuthorizationPolicyId) (version : AuthorizationPolicyVersion)
    (plan : AuthorizationDecisionPlan) : PolicyProg (Option AuthorizationDecision) :=
  match plan.event with
  | none => pure (some plan.decision)
  | some event => record policyId version event fun _ => plan.decision

def loadPresent (policyId : AuthorizationPolicyId) : PolicyProg AuthorizationPolicySnapshot := do
  let snapshot ← PolicyProg.load policyId
  .check (okOr snapshot policyNotFound)

/-! ## Authorizing an operation -/

inductive AuthorizationGateOutcome where
  | allowed (decision : AuthorizationDecision) (evidence : AuthorizationEvidence)
  | denied (decision : AuthorizationDecision)
  | expired (decision : AuthorizationDecision)
deriving DecidableEq

namespace AuthorizationGateOutcome

def of (decision : AuthorizationDecision) (now : OffsetDateTime) : AuthorizationGateOutcome :=
  match decision.evidence now with
  | .ok evidence => allowed decision evidence
  | .error _ => expired decision

end AuthorizationGateOutcome

def AuthorizationRequest.withRequestId (request : AuthorizationRequest)
    (id : AuthorizationRequestId) : AuthorizationRequest :=
  { request with id }

namespace AuthorizeOperation

variable (enc : DecisionEncoding) (policyId : AuthorizationPolicyId)
  (ttl : AuthorizationDecisionTtl)
variable (request : AuthorizationRequest)

def approval : PolicyProg (Option AuthorizationDecision) :=
  match request.approvalDecisionId with
  | some id => .decision policyId id
  | none => pure none

def attempt : PolicyProg (Option AuthorizationDecision) := do
  let existing ← .decisionForRequest policyId request.id
  let approval ← approval policyId request
  let snapshot ← loadPresent policyId
  let now ← .now
  let plan ← .check
    (snapshot.policy.decideAuthorizeWithDecisions enc request existing approval now ttl)
  recordPlan policyId snapshot.version plan

def decide : PolicyProg AuthorizationDecision :=
  retrying (attempt enc policyId ttl request) maxConflictRetries

/-- The clock is read once more, and only for a permission. -/
def outcomeOf (decision : AuthorizationDecision) : PolicyProg AuthorizationGateOutcome :=
  if decision.kind = .deny then
    pure (.denied decision)
  else do
    let now ← .now
    pure (.of decision now)

def execute : PolicyProg AuthorizationGateOutcome := do
  let decision ← decide enc policyId ttl request
  outcomeOf decision

def readmitted (operation : AuthorizedOperation) (requestId : AuthorizationRequestId)
    (original : AuthorizationDecision) : Result AuthorizationRequest := do
  require (original.request.principal = operation.principal)
    (.invariantViolated "operation revalidation does not match its original admission")
  let evidence ← original.evidence operation.evidence.admittedAt
  require (evidence = operation.evidence)
    (.invariantViolated "operation revalidation does not match its original admission")
  pure (original.request.withRequestId requestId)

def revalidate (operation : AuthorizedOperation) (requestId : AuthorizationRequestId) :
    PolicyProg AuthorizationGateOutcome := do
  let original ← .decision policyId operation.evidence.decisionId
  let original ← .check (okOr original (.notFound "authorization_decision"))
  let request ← .check (readmitted operation requestId original)
  execute enc policyId ttl request

end AuthorizeOperation

/-! ## Continuing accepted work -/

/-- What is to be continued: the record that sealed the work, and the request to be made for it. -/
structure AcceptedWork where
  source : AuditRecord
  requestId : AuthorizationRequestId
  action : AuthorizationAction
  targetDigest : AuthorizationTargetDigest
  expectedPrincipal : Option AuthenticatedPrincipal

namespace ContinueAcceptedWork

variable (enc : DecisionEncoding) (policyId : AuthorizationPolicyId)
  (ttl : AuthorizationDecisionTtl)
variable (work : AcceptedWork)

/-- The request that continues the work under the decision that accepted it. -/
def continuing (evidence : AuthorizationEvidence)
    (accepted : AuthorizationDecision) : Result AuthorizationRequest := do
  let sealed ← accepted.evidence work.source.occurredAt
  require (sealed = evidence)
    (.invariantViolated "accepted ceremony record evidence does not match its policy decision")
  require (work.expectedPrincipal.all (fun expected =>
      accepted.request.principal = expected) = true)
    (.invariantViolated "accepted ceremony work belongs to another authenticated principal")
  pure
    { id := work.requestId
      principal := accepted.request.principal
      action := work.action
      scope := accepted.request.scope
      targetDigest := work.targetDigest
      approvalDecisionId := none
      acceptedWorkDecisionId := some accepted.id
      approvedAction := none }

def acceptedRequest :
    PolicyProg (AuthorizationDecision × AuthorizationRequest) := do
  let evidence ← .check (okOr work.source.authorizationEvidence
    (.invariantViolated "accepted ceremony work has no authorization evidence"))
  let accepted ← .decision policyId evidence.decisionId
  let accepted ← .check (okOr accepted (.notFound "accepted_authorization_decision"))
  let request ← .check (continuing work evidence accepted)
  pure (accepted, request)

def attempt (request : AuthorizationRequest) (accepted : AuthorizationDecision) :
    PolicyProg (Option AuthorizationDecision) := do
  let existing ← .decisionForRequest policyId request.id
  let snapshot ← loadPresent policyId
  let now ← .now
  let plan ← .check (snapshot.policy.decideAcceptedWork enc request existing accepted now ttl)
  recordPlan policyId snapshot.version plan

def admitted (request : AuthorizationRequest) (decision : AuthorizationDecision) :
    PolicyProg AuthorizedOperation := do
  let now ← .now
  let evidence ← .check (decision.evidence now)
  .check (AuthorizedOperation.new request.principal evidence)

def decide (request : AuthorizationRequest) (accepted : AuthorizationDecision) :
    PolicyProg AuthorizedOperation := do
  let decision ← retrying (attempt enc policyId ttl request accepted) maxConflictRetries
  admitted request decision

def executeFor : PolicyProg AuthorizedOperation := do
  let (accepted, request) ← acceptedRequest policyId work
  decide enc policyId ttl request accepted

def existingFor : PolicyProg (Option AuthorizedOperation) := do
  let (_, request) ← acceptedRequest policyId work
  match ← .decisionForRequest policyId request.id with
  | none => pure none
  | some existing => do
    PolicyProg.check (require (existing.request = request) (.conflict "authorization_request"))
    some <$> admitted request existing

end ContinueAcceptedWork

/-! ## Administration -/

inductive AuthorizationMutationOutcome where
  | applied (version : AuthorizationPolicyVersion)
  | existing (version : AuthorizationPolicyVersion)
deriving DecidableEq

namespace PolicyAdministration

variable (policyId : AuthorizationPolicyId)

def recordChange (version : AuthorizationPolicyVersion) (event : Option AuthorizationPolicyEvent) :
    PolicyProg (Option AuthorizationMutationOutcome) :=
  match event with
  | none => pure (some (.existing version))
  | some event => record policyId version event .applied

def openAttempt (owner : AuthenticatedPrincipal) (separationRules : List SeparationRule) :
    PolicyProg (Option AuthorizationMutationOutcome) := do
  let snapshot ← .load policyId
  let policy := (snapshot.map (·.policy)).getD .empty
  let now ← .now
  let event ← .check (policy.decideOpen policyId owner separationRules now)
  recordChange policyId policy.version event

def open_ (owner : AuthenticatedPrincipal) (separationRules : List SeparationRule) :
    PolicyProg AuthorizationMutationOutcome :=
  retrying (openAttempt policyId owner separationRules) maxConflictRetries

def mutateAttempt (decide_ : AuthorizationPolicy → OffsetDateTime →
    Result (Option AuthorizationPolicyEvent)) :
    PolicyProg (Option AuthorizationMutationOutcome) := do
  let snapshot ← loadPresent policyId
  let now ← .now
  let event ← .check (decide_ snapshot.policy now)
  recordChange policyId snapshot.version event

def mutate (decide_ : AuthorizationPolicy → OffsetDateTime →
    Result (Option AuthorizationPolicyEvent)) : PolicyProg AuthorizationMutationOutcome :=
  retrying (mutateAttempt policyId decide_) maxConflictRetries

def issue (principal : AuthenticatedPrincipal) (grant : AuthorizationGrant) :
    PolicyProg AuthorizationMutationOutcome :=
  mutate policyId fun policy now => policy.decideIssue principal grant now

def revoke (principal : AuthenticatedPrincipal) (grantId : AuthorizationGrantId)
    (reason : AuthorizationRevocationReason) : PolicyProg AuthorizationMutationOutcome :=
  mutate policyId fun policy now => policy.decideRevoke principal grantId reason now

end PolicyAdministration

/-! ## Users of one policy -/

/-- One call of a use case; each process has a lifetime of its own for its decisions. -/
inductive PolicyInput where
  | authorize (ttl : AuthorizationDecisionTtl) (request : AuthorizationRequest)
  | revalidate (ttl : AuthorizationDecisionTtl) (operation : AuthorizedOperation)
      (requestId : AuthorizationRequestId)
  | continue_ (ttl : AuthorizationDecisionTtl) (work : AcceptedWork)
  | existing (work : AcceptedWork)
  | open_ (owner : AuthenticatedPrincipal) (separationRules : List SeparationRule)
  | issue (principal : AuthenticatedPrincipal) (grant : AuthorizationGrant)
  | revoke (principal : AuthenticatedPrincipal) (grantId : AuthorizationGrantId)
      (reason : AuthorizationRevocationReason)

inductive PolicyAnswer where
  | gate (outcome : AuthorizationGateOutcome)
  | operation (operation : AuthorizedOperation)
  | noOperation
  | mutation (outcome : AuthorizationMutationOutcome)
deriving DecidableEq

def PolicyInput.code (enc : DecisionEncoding) (policyId : AuthorizationPolicyId) :
    PolicyInput → PolicyProg PolicyAnswer
  | authorize ttl request => .gate <$> AuthorizeOperation.execute enc policyId ttl request
  | revalidate ttl operation requestId =>
    .gate <$> AuthorizeOperation.revalidate enc policyId ttl operation requestId
  | continue_ ttl work => .operation <$> ContinueAcceptedWork.executeFor enc policyId ttl work
  | existing work => do
    match ← ContinueAcceptedWork.existingFor policyId work with
    | some operation => pure (.operation operation)
    | none => pure .noOperation
  | open_ owner separationRules =>
    .mutation <$> PolicyAdministration.open_ policyId owner separationRules
  | issue principal grant => .mutation <$> PolicyAdministration.issue policyId principal grant
  | revoke principal grantId reason =>
    .mutation <$> PolicyAdministration.revoke policyId principal grantId reason

def policyUsers (store : PolicyStore) (enc : DecisionEncoding) (policyId : AuthorizationPolicyId) :
    Pool policyPorts store.State PolicyInput (Result PolicyAnswer) where
  code input := (input.code enc policyId).run
  performs := store.Performs

end Made
