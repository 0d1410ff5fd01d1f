import Made.Values.Lineage
import Mathlib.Data.Finset.Insert

/-!
# Principals, grants, requests and decisions

What an authorization policy is made of.  A grant lets one principal perform some actions in one
scope for some time, and may let them delegate a part of it.  A request asks for one action in one
scope; the decision on it is sealed under a digest of its contents.
-/

namespace Made

open Outcome

/-! ## Principals -/

abbrev PrincipalId := Text (plainRule "principal_id" 256)

inductive PrincipalKind where
  | human
  | service
  | worker
  | trustedHost
deriving DecidableEq, Repr

inductive AuthenticationMethod where
  | mutualTls
  | trustedTransportMetadata
  | localHostPolicy
deriving DecidableEq, Repr

structure AuthenticatedPrincipal where
  id : PrincipalId
  kind : PrincipalKind
  method : AuthenticationMethod
deriving DecidableEq

def AuthenticatedPrincipal.validate (principal : AuthenticatedPrincipal) : Result Unit :=
  require (¬ (principal.method = .localHostPolicy ∧ principal.kind ≠ .trustedHost))
    (.invariantViolated "local host policy authenticates only trusted-host principals")

/-! ## Actions -/

inductive AuthorizationAction where
  | inspectCeremonyResume
  | planCeremonySuccessor
  | recordCeremonyHostHandoff
  | startCeremonySuccessor
  | getCeremonyInstance
  | listCeremonyInstances
  | searchCeremonyInstances
  | generateCeremonyReport
  | readCeremonyEvents
  | streamCeremony
  | pullCeremonyEvents
  | verifyCeremonyJournal
  | getCeremonyTranscript
  | getCeremonyDefinition
  | listCeremonyDefinitions
  | mountDefinition
  | validateCeremonyDraft
  | explainCeremonyDraft
  | designCeremony
  | diffCeremonyDefinitions
  | publishCeremonyDefinition
  | runCeremony
  | startCeremony
  | startPublishedCeremony
  | runCeremonyStep
  | claimCeremonyStep
  | renewCeremonyStepLease
  | completeCeremonyStep
  | listCeremonyAgents
  | getCeremonyAgent
  | reportCeremonyAgentStatus
  | getExecutionReceipt
  | inspectExecutionRecovery
  | completeExecutionReceipt
  | reconcileExecutionOperation
  | adoptExecutionReceipt
  | prepareCeremonyChildren
  | acceptChildCompletion
  | recoverCeremonyChildren
  | applyCeremonyTransition
  | enforceCeremonyDeadlines
  | bindCeremonyParticipants
  | pauseCeremony
  | resumeCeremony
  | cancelCeremony
  | approveCeremonyGuard
  | deferCeremonyGuard
  | requestCeremonyIntervention
  | respondToCeremonyIntervention
  | closeCeremonyIntervention
  | pullCeremonyAgentInterventions
  | acknowledgeCeremonyAgentIntervention
  | getCeremonyIntervention
  | listCeremonyInterventions
  | bindCeremonyIntegrator
  | getCeremonyIntegratorBinding
  | awaitIntegratorAttention
  | acknowledgeIntegratorAttention
  | listAttentionDeliveries
  | collectCeremonyEvidence
  | assertCeremonyReason
  | beginArtifactUpload
  | putArtifactChunk
  | commitArtifactUpload
  | abortArtifactUpload
  | getArtifact
  | listArtifacts
  | readArtifactChunk
  | tombstoneArtifact
  | backupStore
  | restoreStore
  | garbageCollectArtifacts
  | releaseArtifactProtection
  | reserveBudget
  | reconcileBudget
  | readBudget
  | deliberate
  | streamDeliberation
  | getDeliberationResult
  | orchestrate
  | processTriggerEvent
  | runCouncilDecision
  | createCouncil
  | listCouncils
  | deleteCouncil
  | registerAgent
  | unregisterAgent
  | registerContract
  | listContracts
  | deleteContract
  | readCouncilEvents
  | getCouncilEventCursor
  | leaseCouncilEvents
  | acknowledgeCouncilEvents
  | releaseCouncilEvents
  | getStatus
  | getMetrics
  | readAuthorizationPolicy
  | issueAuthorizationGrant
  | revokeAuthorizationGrant
  | readAuthorizationDecisions
  | designAgenticSystem
  | getAgenticSystem
  | listAgenticSystems
  | validateAgenticSystem
  | publishAgenticSystem
  | instantiateAgenticSystem
  | advanceAgenticSystemExecution
  | getAgenticSystemExecution
  | renderAgenticSystemDiagram
deriving DecidableEq, Repr

namespace AuthorizationAction

theorem ctorIdx_injective : Function.Injective AuthorizationAction.ctorIdx := by
  intro a b h
  rw [← AuthorizationAction.ofNat_ctorIdx a, ← AuthorizationAction.ofNat_ctorIdx b, h]

instance : Ord AuthorizationAction := ⟨compareOn AuthorizationAction.ctorIdx⟩

instance : Std.TransOrd AuthorizationAction :=
  inferInstanceAs (Std.TransCmp (compareOn AuthorizationAction.ctorIdx))

instance : Std.LawfulEqOrd AuthorizationAction where
  eq_of_compare h := ctorIdx_injective (Std.LawfulEqOrd.eq_of_compare h)

end AuthorizationAction

/-! ## Scopes -/

structure ArtifactId where
  val : String
deriving DecidableEq

structure CouncilId where
  val : String
deriving DecidableEq

inductive AuthorizationScope where
  | global
  | ceremony (ceremonyId : CeremonyId)
  | ceremonyTree (rootId : CeremonyId)
  /-- A ceremony with its root, as the application resolved it; for requests only. -/
  | resolvedCeremony (ceremonyId rootId : CeremonyId)
  | definition (name : CeremonyName) (version : Option CeremonyVersion)
  | artifact (artifactId : ArtifactId)
  | council (councilId : CouncilId)
  | budget (accountId : BudgetAccountId)
deriving DecidableEq

namespace AuthorizationScope

def covers (granted requested : AuthorizationScope) : Bool :=
  match granted, requested with
  | global, _ => true
  | ceremony left, ceremony right => left = right
  | ceremonyTree left, ceremonyTree right => left = right
  | ceremonyTree rootId, ceremony ceremonyId => rootId = ceremonyId
  | ceremony granted, resolvedCeremony ceremonyId _ => granted = ceremonyId
  | ceremonyTree granted, resolvedCeremony _ rootId => granted = rootId
  | definition leftName leftVersion, definition rightName rightVersion =>
    leftName = rightName && (leftVersion.isNone || leftVersion = rightVersion)
  | artifact left, artifact right => left = right
  | council left, council right => left = right
  | budget left, budget right => left = right
  | _, _ => false

def isResolvedRequestScope : AuthorizationScope → Bool
  | resolvedCeremony _ _ => true
  | _ => false

/-- A request for a ceremony under another root, against a tree that names the ceremony itself and
through a delegation of that one ceremony. -/
def Detached (tree delegated requested : AuthorizationScope) : Prop :=
  ∃ ceremonyId rootId, tree = ceremonyTree ceremonyId ∧ delegated = ceremony ceremonyId ∧
    requested = resolvedCeremony ceremonyId rootId ∧ rootId ≠ ceremonyId

theorem resolvedCeremony_covers (ceremonyId rootId : CeremonyId) (requested : AuthorizationScope) :
    (resolvedCeremony ceremonyId rootId).covers requested = false := by
  cases requested <;> rfl

theorem isResolvedRequestScope_of_covers {granted requested : AuthorizationScope}
    (h : granted.covers requested = true) : granted.isResolvedRequestScope = false := by
  cases granted with
  | resolvedCeremony => simp [resolvedCeremony_covers] at h
  | _ => rfl

theorem covers_iff_of_covers {outer inner requested : AuthorizationScope}
    (hinner : outer.covers inner = true) (hrequested : inner.covers requested = true) :
    outer.covers requested = true ↔ ¬ Detached outer inner requested := by
  have hgrantable := isResolvedRequestScope_of_covers hrequested
  cases outer with
  | global => simp [covers, Detached]
  | ceremonyTree rootId =>
    cases inner <;> simp only [covers, isResolvedRequestScope, decide_eq_true_eq,
      Bool.false_eq_true, Bool.true_eq_false] at hinner hgrantable <;> subst hinner
    · -- The tree was narrowed to the ceremony it is named after: the lineage decides.
      cases requested <;> simp_all [covers, Detached, eq_comm]
    · cases requested <;> simp_all [covers, Detached]
  | definition name version =>
    cases inner <;> simp only [covers, Bool.and_eq_true, Bool.or_eq_true, decide_eq_true_eq,
      Option.isNone_iff_eq_none, Bool.false_eq_true] at hinner
    cases requested <;> simp only [covers, Bool.and_eq_true, Bool.or_eq_true, decide_eq_true_eq,
      Option.isNone_iff_eq_none, Bool.false_eq_true] at hrequested
    obtain ⟨rfl, rfl | rfl⟩ := hinner <;> simp [covers, Detached, hrequested]
  | resolvedCeremony => simp [resolvedCeremony_covers] at hinner
  | _ =>
    cases inner <;> simp only [covers, isResolvedRequestScope, decide_eq_true_eq,
      Bool.false_eq_true, Bool.true_eq_false] at hinner hgrantable
    subst hinner
    simp [hrequested, Detached]

end AuthorizationScope

/-! ## Grants -/

abbrev AuthorizationGrantId := Text (plainRule "authorization_grant_id" 256)
abbrev AuthorizationPolicyId := Text (plainRule "authorization_policy_id" 128)
abbrev AuthorizationRequestId := Text (plainRule "authorization_request_id" 256)
abbrev AuthorizationRevocationReason := Text (plainRule "authorization_revocation_reason" 512)
abbrev AuthorizationDecisionId := HexDigest "authorization_decision_id"
abbrev AuthorizationTargetDigest := HexDigest "authorization_target_digest"

instance : Std.TransOrd AuthorizationGrantId := inferInstance
instance : Std.TransOrd AuthorizationRequestId := inferInstance

/-- How often a grant may be passed on; a stored grant may carry any `u8`. -/
abbrev DelegationDepth := UInt8

structure AuthorizationGrantIssuer where
  principal : AuthenticatedPrincipal
  parentGrantId : Option AuthorizationGrantId
deriving DecidableEq

structure AuthorizationGrant where
  id : AuthorizationGrantId
  grantee : PrincipalId
  actions : Finset AuthorizationAction
  scope : AuthorizationScope
  validFrom : OffsetDateTime
  validUntil : Option OffsetDateTime
  delegationDepth : DelegationDepth
  issuer : AuthorizationGrantIssuer
deriving DecidableEq

namespace AuthorizationGrant

variable (g : AuthorizationGrant)

def issuedBy : AuthenticatedPrincipal := g.issuer.principal

def parentGrantId : Option AuthorizationGrantId := g.issuer.parentGrantId

def isActiveAt (now : OffsetDateTime) : Bool :=
  g.validFrom ≤ now && g.validUntil.all fun until_ => now < until_

def permits (action : AuthorizationAction) (scope : AuthorizationScope)
    (now : OffsetDateTime) : Bool :=
  g.isActiveAt now && action ∈ g.actions && g.scope.covers scope

def validate : Result Unit := do
  g.issuedBy.validate
  require (g.scope.isResolvedRequestScope = false) (.invariantViolated
      "resolved ceremony lineage is an authorization request scope, not a grant scope")
  require (g.actions ≠ ∅) (.emptyCollection "authorization_grant.actions")
  require (¬ (g.validUntil.any fun until_ => until_ ≤ g.validFrom) = true)
    (.invariantViolated "authorization grant expiry must follow its validity start")

end AuthorizationGrant

structure AuthorizationRevocation where
  grantId : AuthorizationGrantId
  revokedBy : AuthenticatedPrincipal
  reason : AuthorizationRevocationReason
  revokedAt : OffsetDateTime
deriving DecidableEq

structure SeparationRule where
  approvalAction : AuthorizationAction
  executionAction : AuthorizationAction
deriving DecidableEq

/-! ## Requests and decisions -/

structure AuthorizationRequest where
  id : AuthorizationRequestId
  principal : AuthenticatedPrincipal
  action : AuthorizationAction
  scope : AuthorizationScope
  targetDigest : AuthorizationTargetDigest
  approvalDecisionId : Option AuthorizationDecisionId
  acceptedWorkDecisionId : Option AuthorizationDecisionId
  approvedAction : Option AuthorizationAction
deriving DecidableEq

def AuthorizationRequest.validate (request : AuthorizationRequest) : Result Unit :=
  request.principal.validate

/-- The versions of a policy count its events. -/
abbrev AuthorizationPolicyVersion := Nat

/-- `u64::saturating_add(1)`. -/
def AuthorizationPolicyVersion.next (v : AuthorizationPolicyVersion) : AuthorizationPolicyVersion :=
  min (v + 1) u64Max

inductive AuthorizationDecisionKind where
  | allow
  | deny
deriving DecidableEq, Repr

inductive AuthorizationDenialReason where
  | noMatchingGrant
  | approvalRequired
  | approvalInvalid
  | approvalIntentInvalid
deriving DecidableEq, Repr

structure DecisionContents where
  request : AuthorizationRequest
  policyVersion : AuthorizationPolicyVersion
  kind : AuthorizationDecisionKind
  grantId : Option AuthorizationGrantId
  denialReason : Option AuthorizationDenialReason
  decidedAt : OffsetDateTime
  validUntil : OffsetDateTime
deriving DecidableEq

/-- The rendering of the contents as JSON bytes, which may fail. -/
abbrev DecisionEncoding := DecisionContents → Option (List UInt8)

structure AuthorizationDecision extends DecisionContents where
  id : AuthorizationDecisionId
deriving DecidableEq

namespace AuthorizationDecision

def shapeIsValid (c : DecisionContents) : Bool :=
  match c.kind with
  | .allow => c.denialReason.isNone
  | .deny => c.grantId.isNone && c.denialReason.isSome

variable (enc : DecisionEncoding)

def build (c : DecisionContents) : Result AuthorizationDecision := do
  require (shapeIsValid c = true)
    (.invariantViolated "authorization decision fields contradict its outcome")
  require (c.decidedAt < c.validUntil)
    (.invariantViolated "authorization decision expiry must follow admission")
  let canonical ← okOr (enc c) (.invariantViolated "authorization decision cannot be canonicalized")
  pure { c with id := HexDigest.ofMessage _ canonical }

def allow (request : AuthorizationRequest)
    (policyVersion : AuthorizationPolicyVersion) (grantId : Option AuthorizationGrantId)
    (decidedAt validUntil : OffsetDateTime) : Result AuthorizationDecision :=
  build enc ⟨request, policyVersion, .allow, grantId, none, decidedAt, validUntil⟩

def deny (request : AuthorizationRequest)
    (policyVersion : AuthorizationPolicyVersion) (reason : AuthorizationDenialReason)
    (decidedAt validUntil : OffsetDateTime) : Result AuthorizationDecision :=
  build enc ⟨request, policyVersion, .deny, none, some reason, decidedAt, validUntil⟩

def isLiveAt (d : AuthorizationDecision) (now : OffsetDateTime) : Bool := now < d.validUntil

def validate (d : AuthorizationDecision) : Result Unit := do
  d.request.validate
  let rebuilt ← build enc d.toDecisionContents
  require (rebuilt.id = d.id)
    (.invariantViolated "authorization decision id does not seal its contents")

theorem build_eq_ok {enc : DecisionEncoding} {c : DecisionContents} {d : AuthorizationDecision} :
    build enc c = .ok d ↔ shapeIsValid c = true ∧ c.decidedAt < c.validUntil ∧
      ∃ canonical, enc c = some canonical ∧
        d = { c with id := HexDigest.ofMessage _ canonical } := by
  simp only [build, bind_eq_ok, require_eq_ok, okOr_eq_ok,
    pure_eq_ok, exists_const, eq_comm (b := d)]

theorem validate_eq_ok {enc : DecisionEncoding} {d : AuthorizationDecision} {u : Unit} :
    d.validate enc = .ok u ↔
      d.request.validate = .ok () ∧ build enc d.toDecisionContents = .ok d := by
  simp only [validate, bind_eq_ok, require_eq_ok, build_eq_ok]
  constructor
  · rintro ⟨⟨⟩, hreq, _, ⟨hshape, htimes, canonical, hcanonical, rfl⟩, hid⟩
    refine ⟨hreq, hshape, htimes, canonical, hcanonical, ?_⟩
    cases d
    simp_all
  · rintro ⟨hreq, hshape, htimes, canonical, hcanonical, hd⟩
    exact ⟨(), hreq, _, ⟨hshape, htimes, canonical, hcanonical, rfl⟩, by rw [hd]⟩

end AuthorizationDecision

structure AuthorizationEvidence where
  decisionId : AuthorizationDecisionId
  requestId : AuthorizationRequestId
  principalId : PrincipalId
  action : AuthorizationAction
  scope : AuthorizationScope
  targetDigest : AuthorizationTargetDigest
  policyVersion : AuthorizationPolicyVersion
  admittedAt : OffsetDateTime
  validUntil : OffsetDateTime
deriving DecidableEq

namespace AuthorizationEvidence

def fromDecision (d : AuthorizationDecision) : AuthorizationEvidence :=
  { decisionId := d.id
    requestId := d.request.id
    principalId := d.request.principal.id
    action := d.request.action
    scope := d.request.scope
    targetDigest := d.request.targetDigest
    policyVersion := d.policyVersion
    admittedAt := d.decidedAt
    validUntil := d.validUntil }

end AuthorizationEvidence

def AuthorizationDecision.evidence (d : AuthorizationDecision) (now : OffsetDateTime) :
    Result AuthorizationEvidence := do
  require (d.kind = .allow)
    (.invariantViolated "denied authorization decision has no admission evidence")
  require (d.isLiveAt now = true)
    (.invariantViolated "authorization admission evidence has expired")
  pure (.fromDecision d)

/-- The identity and the evidence of one admitted operation, which name the same principal. -/
structure AuthorizedOperation where
  principal : AuthenticatedPrincipal
  evidence : AuthorizationEvidence
  samePrincipal : principal.id = evidence.principalId
deriving DecidableEq

def AuthorizedOperation.new (principal : AuthenticatedPrincipal)
    (evidence : AuthorizationEvidence) : Result AuthorizedOperation :=
  if h : principal.id = evidence.principalId then
    .ok ⟨principal, evidence, h⟩
  else
    refuse (.invariantViolated
      "authorization evidence principal must match the authenticated principal")

end Made
