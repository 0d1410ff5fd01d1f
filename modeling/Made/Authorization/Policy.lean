import Made.Authorization.Values
import Made.Library.EventSourcing

/-!
# The authorization policy

A policy has one owner, the grants that were issued under it, the ids of the revoked ones, the rules
that separate duties, and every decision it recorded.  It is folded from its events; each event is
checked again against the policy it meets.
-/

namespace Made

open Outcome

inductive AuthorizationPolicyEvent where
  | opened (policyId : AuthorizationPolicyId) (owner : AuthenticatedPrincipal)
      (separationRules : List SeparationRule) (openedAt : OffsetDateTime)
  | grantIssued (policyId : AuthorizationPolicyId) (grant : AuthorizationGrant)
      (issuedAt : OffsetDateTime)
  | grantRevoked (policyId : AuthorizationPolicyId) (revocation : AuthorizationRevocation)
  | decisionRecorded (policyId : AuthorizationPolicyId) (decision : AuthorizationDecision)
deriving DecidableEq

def AuthorizationPolicyEvent.policyId : AuthorizationPolicyEvent → AuthorizationPolicyId
  | .opened policyId .. => policyId
  | .grantIssued policyId .. => policyId
  | .grantRevoked policyId .. => policyId
  | .decisionRecorded policyId .. => policyId

structure AuthorizationPolicy where
  id : Option AuthorizationPolicyId
  owner : Option AuthenticatedPrincipal
  version : AuthorizationPolicyVersion
  grants : Map AuthorizationGrantId AuthorizationGrant
  revoked : Finset AuthorizationGrantId
  separationRules : Map AuthorizationAction SeparationRule
  decisionsByRequest : Map AuthorizationRequestId AuthorizationDecision
  decisionsById : Map AuthorizationDecisionId AuthorizationDecision

/-- A decision, with the event that records it where it is new. -/
structure AuthorizationDecisionPlan where
  decision : AuthorizationDecision
  event : Option AuthorizationPolicyEvent
deriving DecidableEq

/-! ## Helpers -/

def validityContains : Option OffsetDateTime → Option OffsetDateTime → Bool
  | none, _ => true
  | some _, none => false
  | some parent, some child => child ≤ parent

def ownerPermits : AuthorizationAction → Bool
  | .readAuthorizationPolicy => true
  | .issueAuthorizationGrant => true
  | .revokeAuthorizationGrant => true
  | .readAuthorizationDecisions => true
  | _ => false

def separationRuleMap (rules : List SeparationRule) :
    Result (Map AuthorizationAction SeparationRule) := do
  let mapped := rules.foldl
    (fun (map : Map AuthorizationAction SeparationRule) rule =>
      map.insert rule.executionAction rule) ∅
  require (mapped.size = rules.length) (.conflict "authorization_separation_rule")
  pure mapped

/-- How long a decision lives: a number of seconds, up to five minutes. -/
structure AuthorizationDecisionTtl where
  seconds : Nat
  pos : 0 < seconds
  le_max : seconds ≤ 300
deriving DecidableEq

def maxDecisionNanos : Int := 300 * 10 ^ 9

namespace AuthorizationPolicy

def empty : AuthorizationPolicy := ⟨none, none, 0, ∅, ∅, ∅, ∅, ∅⟩

variable (p : AuthorizationPolicy)

def isOwner (principal : AuthenticatedPrincipal) : Bool :=
  p.owner = some principal

/-! ## Grant chains -/

/-- The walk of `grant_chain_is_live` towards the root, with a bound on its length. -/
def chainWalk (p : AuthorizationPolicy) (now : OffsetDateTime) :
    Nat → AuthorizationGrant → Option Bool
  | 0, _ => none
  | fuel + 1, grant =>
    if grant.id ∈ p.revoked ∨ grant.isActiveAt now = false then
      some false
    else
      match grant.parentGrantId with
      | none => some (p.isOwner grant.issuedBy)
      | some parentId =>
        match p.grants[parentId]? with
        | none => some false
        | some parent =>
          if parent.grantee = grant.issuedBy.id then p.chainWalk now fuel parent
          else some false

/-- The bound is the number of delegation depths; no chain of a policy that events lead to is
longer (`chainWalk_answers`). -/
def grantChainIsLive (grant : AuthorizationGrant) (now : OffsetDateTime) : Bool :=
  (p.chainWalk now 256 grant).getD false

/-- What `may_delegate` asks of the parent. -/
def mayDelegateFrom (issuer : AuthenticatedPrincipal)
    (parent child : AuthorizationGrant) (now : OffsetDateTime) : Bool :=
  parent.grantee = issuer.id && p.grantChainIsLive parent now &&
    .issueAuthorizationGrant ∈ parent.actions && child.actions ⊆ parent.actions &&
    parent.scope.covers child.scope && parent.validFrom ≤ child.validFrom &&
    validityContains parent.validUntil child.validUntil &&
    child.delegationDepth < parent.delegationDepth

def mayDelegate (issuer : AuthenticatedPrincipal)
    (child : AuthorizationGrant) (now : OffsetDateTime) : Bool :=
  child.parentGrantId.any fun parentId =>
    p.grants[parentId]?.any fun parent => p.mayDelegateFrom issuer parent child now

/-- Whether `issuer` may issue the grant: the owner directly, anybody else by delegation. -/
def authorityIsValid (issuer : AuthenticatedPrincipal)
    (grant : AuthorizationGrant) (now : OffsetDateTime) : Bool :=
  if p.isOwner issuer then grant.parentGrantId.isNone else p.mayDelegate issuer grant now

def grants_ (principal : AuthenticatedPrincipal) (action : AuthorizationAction)
    (scope : AuthorizationScope) (now : OffsetDateTime) (grant : AuthorizationGrant) : Bool :=
  grant.grantee = principal.id && grant.permits action scope now && p.grantChainIsLive grant now

def permits (principal : AuthenticatedPrincipal)
    (action : AuthorizationAction) (scope : AuthorizationScope) (now : OffsetDateTime) : Bool :=
  (p.isOwner principal && ownerPermits action) ||
    p.grants.inOrder.any fun grant => p.grants_ principal action scope now grant

variable (request : AuthorizationRequest)

def matchingGrant (now : OffsetDateTime) : Option AuthorizationGrant :=
  p.grants.inOrder.find? fun grant =>
    p.grants_ request.principal request.action request.scope now grant

/-! ## Separation of duties -/

variable (decision : AuthorizationDecision)

def decisionGrantIsLive (now : OffsetDateTime) : Bool :=
  match decision.grantId with
  | some grantId => p.grants[grantId]?.any fun grant => p.grantChainIsLive grant now
  | none => p.isOwner decision.request.principal && ownerPermits decision.request.action

/-- Whether `approval` is the approval that `rule` asks of `request`. -/
def approvalIsValid (rule : SeparationRule) (request : AuthorizationRequest)
    (approval : AuthorizationDecision) (now : OffsetDateTime) : Bool :=
  approval.kind = .allow && approval.isLiveAt now && p.decisionGrantIsLive approval now &&
    approval.request.action = rule.approvalAction &&
    approval.request.approvedAction = some request.action &&
    approval.request.principal.id ≠ request.principal.id &&
    approval.request.scope.covers request.scope &&
    approval.request.targetDigest = request.targetDigest

def separationDenial (approval : Option AuthorizationDecision)
    (now : OffsetDateTime) : Option AuthorizationDenialReason :=
  match p.separationRules[request.action]? with
  | none => none
  | some rule =>
    match request.approvalDecisionId with
    | none => some .approvalRequired
    | some approvalId =>
      if (approval.filter fun approval => approval.id = approvalId).any
          fun approval => p.approvalIsValid rule request approval now then
        none
      else
        some .approvalInvalid

def approvalIntentDenial : Option AuthorizationDenialReason :=
  match request.approvedAction with
  | none => none
  | some executionAction =>
    if p.separationRules[executionAction]?.any fun rule => rule.approvalAction = request.action then
      none
    else
      some .approvalIntentInvalid

/-- `approval_intent_denial` or else `separation_denial`. -/
def dutyDenial (approval : Option AuthorizationDecision)
    (now : OffsetDateTime) : Option AuthorizationDenialReason :=
  (p.approvalIntentDenial request).or (p.separationDenial request approval now)

/-! ## Accepted work -/

/-- The actions whose admission is continued by `action`. -/
def continues (action accepted : AuthorizationAction) : Bool :=
  match action with
  | .recoverCeremonyChildren =>
    accepted = .runCeremony || accepted = .runCeremonyStep ||
      accepted = .prepareCeremonyChildren || accepted = .applyCeremonyTransition ||
      accepted = .recoverCeremonyChildren
  | .completeCeremonyStep | .renewCeremonyStepLease =>
    accepted = .claimCeremonyStep || accepted = .runCeremonyStep || accepted = .runCeremony
  | _ => false

/-- `accepted_work::authority_is_valid`. -/
def acceptedWorkIsValid (accepted : AuthorizationDecision) :
    Bool :=
  request.acceptedWorkDecisionId = some accepted.id && accepted.kind = .allow &&
    accepted.request.principal = request.principal && accepted.request.scope = request.scope &&
    continues request.action accepted.request.action

/-! ## The authority of a recorded decision -/

def isGranted : Bool :=
  (p.isOwner decision.request.principal && ownerPermits decision.request.action &&
      decision.grantId.isNone) ||
    (decision.grantId.bind fun grantId => p.grants[grantId]?).any fun grant =>
      p.grants_ decision.request.principal decision.request.action decision.request.scope
          decision.decidedAt grant &&
        grant.validUntil.all fun until_ => decision.validUntil ≤ until_

def decisionAuthorityIsValidWithAuthorities (approval accepted : Option AuthorizationDecision) :
    Bool :=
  let request := decision.request
  let now := decision.decidedAt
  if maxDecisionNanos < decision.validUntil.nanos - now.nanos then
    false
  else
    let denial := p.dutyDenial request approval now
    match decision.kind with
    | .allow =>
      (accepted.any fun accepted => acceptedWorkIsValid request accepted) ||
        (p.isGranted decision && denial.isNone)
    | .deny =>
      let owner := p.isOwner request.principal && ownerPermits request.action
      let expected :=
        if owner = false ∧ (p.matchingGrant request now).isNone = true then
          some .noMatchingGrant
        else
          denial
      decision.grantId.isNone && decision.denialReason = expected

def decisionAuthorityIsValid : Bool :=
  p.decisionAuthorityIsValidWithAuthorities decision
    (decision.request.approvalDecisionId.bind fun id => p.decisionsById[id]?)
    (decision.request.acceptedWorkDecisionId.bind fun id => p.decisionsById[id]?)

/-! ## Decisions -/

def decideOpen (policyId : AuthorizationPolicyId)
    (owner : AuthenticatedPrincipal) (separationRules : List SeparationRule)
    (openedAt : OffsetDateTime) : Result (Option AuthorizationPolicyEvent) := do
  owner.validate
  require (owner.kind = .trustedHost)
    (.invariantViolated "authorization policy owner must be an explicit trusted host")
  let proposedRules ← separationRuleMap separationRules
  match p.id, p.owner with
  | none, none => pure (some (.opened policyId owner separationRules openedAt))
  | some id, some storedOwner =>
    if id = policyId ∧ storedOwner = owner ∧ p.separationRules = proposedRules then pure none
    else refuse (.conflict "authorization_policy")
  | _, _ => refuse (.conflict "authorization_policy")

/-- The answer that an earlier decision on the same request id gives. -/
def replay (existing : AuthorizationDecision) :
    Result AuthorizationDecisionPlan :=
  if existing.request = request then .ok ⟨existing, none⟩
  else refuse (.conflict "authorization_request")

/-- `now.checked_add(ttl.duration())`. -/
def expiry (now : OffsetDateTime) (ttl : AuthorizationDecisionTtl) : Result OffsetDateTime :=
  okOr (now.checkedAdd (ttl.seconds * 1000))
    (.invariantViolated "authorization decision expiry exceeds supported time range")

def denialOf (approval : Option AuthorizationDecision)
    (now : OffsetDateTime) : Option AuthorizationDenialReason :=
  let owner := p.isOwner request.principal && ownerPermits request.action
  if owner = false ∧ (p.matchingGrant request now).isNone = true then some .noMatchingGrant
  else p.dutyDenial request approval now

variable (enc : DecisionEncoding)

def decideAuthorizeWithDecisions (p : AuthorizationPolicy)
    (request : AuthorizationRequest) (existing approval : Option AuthorizationDecision)
    (now : OffsetDateTime) (ttl : AuthorizationDecisionTtl) : Result AuthorizationDecisionPlan := do
  let policyId ← okOr p.id (.notFound "authorization_policy")
  match existing with
  | some existing => replay request existing
  | none =>
    let grant := p.matchingGrant request now
    let requestedUntil ← expiry now ttl
    let validUntil := ((grant.bind (·.validUntil)).map (min · requestedUntil)).getD requestedUntil
    let decision ←
      match p.denialOf request approval now with
      | some reason =>
        AuthorizationDecision.deny enc request p.version.next reason now requestedUntil
      | none =>
        AuthorizationDecision.allow enc request p.version.next (grant.map (·.id)) now validUntil
    pure ⟨decision, some (.decisionRecorded policyId decision)⟩

def decideAuthorize (p : AuthorizationPolicy)
    (request : AuthorizationRequest) (now : OffsetDateTime) (ttl : AuthorizationDecisionTtl) :
    Result AuthorizationDecisionPlan :=
  p.decideAuthorizeWithDecisions enc request p.decisionsByRequest[request.id]?
    (request.approvalDecisionId.bind fun id => p.decisionsById[id]?) now ttl

def decideAcceptedWork (p : AuthorizationPolicy)
    (request : AuthorizationRequest) (existing : Option AuthorizationDecision)
    (accepted : AuthorizationDecision) (now : OffsetDateTime) (ttl : AuthorizationDecisionTtl) :
    Result AuthorizationDecisionPlan := do
  let policyId ← okOr p.id (.notFound "authorization_policy")
  match existing with
  | some existing => replay request existing
  | none =>
    require (acceptedWorkIsValid request accepted = true)
      (.invariantViolated "accepted-work authorization does not match its sealed admission")
    let validUntil ← expiry now ttl
    let decision ← AuthorizationDecision.allow enc request p.version.next none now validUntil
    pure ⟨decision, some (.decisionRecorded policyId decision)⟩

def decideIssue (issuer : AuthenticatedPrincipal) (grant : AuthorizationGrant)
    (now : OffsetDateTime) : Result (Option AuthorizationPolicyEvent) := do
  grant.validate
  let policyId ← okOr p.id (.notFound "authorization_policy")
  issuer.validate
  require (grant.issuedBy = issuer)
    (.invariantViolated "authorization grant issuer must be the authenticated principal")
  match p.grants[grant.id]? with
  | some existing =>
    if existing = grant then pure none else refuse (.conflict "authorization_grant")
  | none => do
    require (p.authorityIsValid issuer grant now = true)
      (.invariantViolated "principal cannot delegate the requested authorization grant")
    pure (some (.grantIssued policyId grant now))

def mayRevoke (principal : AuthenticatedPrincipal)
    (grant : AuthorizationGrant) (now : OffsetDateTime) : Bool :=
  p.isOwner principal || grant.issuedBy = principal ||
    p.permits principal .revokeAuthorizationGrant grant.scope now

def decideRevoke (issuer : AuthenticatedPrincipal)
    (grantId : AuthorizationGrantId) (reason : AuthorizationRevocationReason)
    (now : OffsetDateTime) : Result (Option AuthorizationPolicyEvent) := do
  let policyId ← okOr p.id (.notFound "authorization_policy")
  let grant ← okOr p.grants[grantId]? (.notFound "authorization_grant")
  if grantId ∈ p.revoked then
    pure none
  else do
    issuer.validate
    require (p.mayRevoke issuer grant now = true)
      (.invariantViolated "principal cannot revoke the authorization grant")
    pure (some (.grantRevoked policyId ⟨grantId, issuer, reason, now⟩))

/-! ## The fold -/

/-- The check that opens `apply`: an open policy takes its own events only. -/
def requireOwn (event : AuthorizationPolicyEvent) : Result Unit :=
  match p.id with
  | none => .ok ()
  | some id =>
    require (event.policyId = id)
      (.invariantViolated "authorization event belongs to another policy")

def applyOpened (policyId : AuthorizationPolicyId) (owner : AuthenticatedPrincipal)
    (separationRules : List SeparationRule) : Result AuthorizationPolicy := do
  require (p.id = none) (.alreadyExists "authorization_policy")
  owner.validate
  require (owner.kind = .trustedHost)
    (.invariantViolated "authorization policy owner must be an explicit trusted host")
  let mappedRules ← separationRuleMap separationRules
  pure { p with id := some policyId, owner := some owner, separationRules := mappedRules }

def applyGrant (grant : AuthorizationGrant) (issuedAt : OffsetDateTime) :
    Result AuthorizationPolicy := do
  require (p.id ≠ none) (.notFound "authorization_policy")
  require (p.grants[grant.id]? = none) (.alreadyExists "authorization_grant")
  grant.validate
  require (p.authorityIsValid grant.issuedBy grant issuedAt = true)
    (.invariantViolated "stored authorization grant has invalid delegation authority")
  pure { p with grants := p.grants.insert grant.id grant }

def applyRevocation (revocation : AuthorizationRevocation) : Result AuthorizationPolicy := do
  revocation.revokedBy.validate
  let grant ← okOr p.grants[revocation.grantId]? (.notFound "authorization_grant")
  require (revocation.grantId ∉ p.revoked) (.alreadyExists "authorization_revocation")
  require (p.mayRevoke revocation.revokedBy grant revocation.revokedAt = true)
    (.invariantViolated "stored authorization revocation has invalid authority")
  pure { p with revoked := insert revocation.grantId p.revoked }

def applyDecision (p : AuthorizationPolicy)
    (decision : AuthorizationDecision) : Result AuthorizationPolicy := do
  decision.validate enc
  require (decision.policyVersion = p.version.next)
    (.invariantViolated "authorization decision carries the wrong policy version")
  require (p.decisionsByRequest[decision.request.id]? = none ∧ p.decisionsById[decision.id]? = none)
    (.alreadyExists "authorization_decision")
  require (p.decisionAuthorityIsValid decision = true)
    (.invariantViolated "stored authorization decision contradicts the active policy")
  pure
    { p with
      decisionsByRequest := p.decisionsByRequest.insert decision.request.id decision
      decisionsById := p.decisionsById.insert decision.id decision }

/-- The arms of `apply`, without the version. -/
def applyArm (p : AuthorizationPolicy) :
    AuthorizationPolicyEvent → Result AuthorizationPolicy
  | .opened policyId owner separationRules _ => p.applyOpened policyId owner separationRules
  | .grantIssued _ grant issuedAt => p.applyGrant grant issuedAt
  | .grantRevoked _ revocation => p.applyRevocation revocation
  | .decisionRecorded _ decision => p.applyDecision enc decision

def apply (p : AuthorizationPolicy) (event : AuthorizationPolicyEvent) :
    Result AuthorizationPolicy := do
  p.requireOwn event
  let next ← p.applyArm enc event
  pure { next with version := next.version.next }

def rehydrate (events : List AuthorizationPolicyEvent) :
    Result AuthorizationPolicy :=
  events.foldlM (apply enc) empty

end AuthorizationPolicy

end Made
