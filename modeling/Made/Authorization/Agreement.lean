import Made.Authorization.Chains
import Made.Authorization.Store

/-!
# Deciding and folding agree

What is decided on a policy is accepted by the fold of that policy: the event of a change always,
the event of a decision when its request is undecided and the authorities it was decided with are
those the policy has recorded.  None of this looks at the recorded decisions but for the authorities
themselves, so it holds of a policy that was projected without them.
-/

namespace Made

open EventSourcing Outcome AuthorizationDecision Option

namespace AuthorizationPolicy

variable {enc : DecisionEncoding} {q next : AuthorizationPolicy} {event : AuthorizationPolicyEvent}
  {policyId : AuthorizationPolicyId} {d : AuthorizationDecision}
  {approval accepted : Option AuthorizationDecision} {now : OffsetDateTime}
  {ttl : AuthorizationDecisionTtl} {request : AuthorizationRequest}
  {plan : AuthorizationDecisionPlan} {issuer : AuthenticatedPrincipal} {p : AuthorizationPolicy}

/-! ## Policies without their decisions -/

def projected (p : AuthorizationPolicy) (version : AuthorizationPolicyVersion) :
    AuthorizationPolicy :=
  { p with version, decisionsByRequest := ∅, decisionsById := ∅ }

section Projected

variable (p : AuthorizationPolicy) (v : AuthorizationPolicyVersion)
  (principal : AuthenticatedPrincipal)

@[simp] theorem isOwner_projected : (p.projected v).isOwner principal = p.isOwner principal := rfl

@[simp] theorem chainWalk_projected (now : OffsetDateTime) (fuel : Nat) (g : AuthorizationGrant) :
    (p.projected v).chainWalk now fuel g = p.chainWalk now fuel g := by
  induction fuel generalizing g with
  | zero => rfl
  | succ fuel ih =>
    simp only [chainWalk, ih]
    rfl

@[simp] theorem grantChainIsLive_projected (g : AuthorizationGrant) (now : OffsetDateTime) :
    (p.projected v).grantChainIsLive g now = p.grantChainIsLive g now := by
  rw [grantChainIsLive, chainWalk_projected, ← grantChainIsLive]

@[simp] theorem grants_projected : (p.projected v).grants_ = p.grants_ := by
  funext principal action scope now g
  rw [grants_, grantChainIsLive_projected, ← grants_]

variable (issuer : AuthenticatedPrincipal)

@[simp] theorem authorityIsValid_projected (grant : AuthorizationGrant) (now : OffsetDateTime) :
    (p.projected v).authorityIsValid issuer grant now = p.authorityIsValid issuer grant now := by
  simp only [authorityIsValid, mayDelegate, mayDelegateFrom, grantChainIsLive_projected]
  rfl

@[simp] theorem permits_projected
    (action : AuthorizationAction) (scope : AuthorizationScope) (now : OffsetDateTime) :
    (p.projected v).permits principal action scope now = p.permits principal action scope now := by
  simp only [permits, grants_projected]
  rfl

@[simp] theorem mayRevoke_projected (grant : AuthorizationGrant) (now : OffsetDateTime) :
    (p.projected v).mayRevoke principal grant now = p.mayRevoke principal grant now := by
  simp only [mayRevoke, permits_projected]
  rfl

variable (request : AuthorizationRequest)

@[simp] theorem matchingGrant_projected (now : OffsetDateTime) :
    (p.projected v).matchingGrant request now = p.matchingGrant request now := by
  simp only [matchingGrant, grants_projected]
  rfl

@[simp] theorem dutyDenial_projected
    (approval : Option AuthorizationDecision) (now : OffsetDateTime) :
    (p.projected v).dutyDenial request approval now = p.dutyDenial request approval now := by
  simp only [dutyDenial, separationDenial, approvalIsValid, decisionGrantIsLive,
    grantChainIsLive_projected]
  rfl

@[simp] theorem isGranted_projected (d : AuthorizationDecision) :
    (p.projected v).isGranted d = p.isGranted d := by
  simp only [isGranted, grants_projected]
  rfl

@[simp] theorem decisionAuthorityIsValidWithAuthorities_projected (d : AuthorizationDecision)
    (approval accepted : Option AuthorizationDecision) :
    (p.projected v).decisionAuthorityIsValidWithAuthorities d approval accepted =
      p.decisionAuthorityIsValidWithAuthorities d approval accepted := by
  simp only [decisionAuthorityIsValidWithAuthorities, dutyDenial_projected, isGranted_projected,
    matchingGrant_projected, isOwner_projected]

@[simp] theorem decideAuthorize_projected
    (existing approval : Option AuthorizationDecision) (now : OffsetDateTime)
    (ttl : AuthorizationDecisionTtl) :
    (p.projected p.version).decideAuthorizeWithDecisions enc request existing approval now ttl =
      p.decideAuthorizeWithDecisions enc request existing approval now ttl := by
  simp only [decideAuthorizeWithDecisions, denialOf, matchingGrant_projected, dutyDenial_projected,
    isOwner_projected]
  rfl

@[simp] theorem decideIssue_projected (grant : AuthorizationGrant) (now : OffsetDateTime) :
    (p.projected v).decideIssue issuer grant now = p.decideIssue issuer grant now := by
  simp only [decideIssue, authorityIsValid_projected]
  rfl

@[simp] theorem decideRevoke_projected
    (grantId : AuthorizationGrantId) (reason : AuthorizationRevocationReason)
    (now : OffsetDateTime) :
    (p.projected v).decideRevoke issuer grantId reason now =
      p.decideRevoke issuer grantId reason now := by
  simp only [decideRevoke, mayRevoke_projected]
  rfl

end Projected

theorem apply_projected_eq_ok (hev : event.isDecision = false) {v : AuthorizationPolicyVersion} :
    (p.projected v).apply enc event = .ok q ↔
      ∃ next, p.apply enc event = .ok next ∧ q = next.projected v.next := by
  have harms : ∀ arm, (p.projected v).applyArm enc event = .ok arm ↔
      ∃ arm', p.applyArm enc event = .ok arm' ∧ arm = arm'.projected v := by
    intro arm
    cases event with
    | opened policyId owner rules openedAt =>
      simp only [applyArm, applyOpened_eq_ok]
      constructor
      · rintro ⟨hid, howner, hkind, mapped, hmapped, rfl⟩
        exact ⟨_, ⟨hid, howner, hkind, mapped, hmapped, rfl⟩, rfl⟩
      · rintro ⟨_, ⟨hid, howner, hkind, mapped, hmapped, rfl⟩, rfl⟩
        exact ⟨hid, howner, hkind, mapped, hmapped, rfl⟩
    | grantIssued policyId grant issuedAt =>
      simp only [applyArm, applyGrant_eq_ok, authorityIsValid_projected]
      constructor
      · rintro ⟨hid, hnew, hval, hauth, rfl⟩
        exact ⟨_, ⟨hid, hnew, hval, hauth, rfl⟩, rfl⟩
      · rintro ⟨_, ⟨hid, hnew, hval, hauth, rfl⟩, rfl⟩
        exact ⟨hid, hnew, hval, hauth, rfl⟩
    | grantRevoked policyId revocation =>
      simp only [applyArm, applyRevocation_eq_ok, mayRevoke_projected]
      constructor
      · rintro ⟨hval, grant, hf, hnew, hmay, rfl⟩
        exact ⟨_, ⟨hval, grant, hf, hnew, hmay, rfl⟩, rfl⟩
      · rintro ⟨_, ⟨hval, grant, hf, hnew, hmay, rfl⟩, rfl⟩
        exact ⟨hval, grant, hf, hnew, hmay, rfl⟩
    | decisionRecorded => cases hev
  simp only [apply_eq_ok, harms]
  constructor
  · rintro ⟨hown, _, ⟨arm, harm, rfl⟩, rfl⟩
    exact ⟨_, ⟨hown, arm, harm, rfl⟩, rfl⟩
  · rintro ⟨_, ⟨hown, arm, harm, rfl⟩, rfl⟩
    exact ⟨hown, _, ⟨arm, harm, rfl⟩, rfl⟩

/-- A decision changes nothing but the version of the projection. -/
theorem projected_of_decision (hev : event.isDecision = true) (h : p.apply enc event = .ok next)
    (v : AuthorizationPolicyVersion) : next.projected v = p.projected v := by
  cases applied_of_apply h with
  | decisionRecorded => rfl
  | opened | grantIssued | grantRevoked => cases hev

theorem version_of_apply (h : p.apply enc event = .ok next) : next.version = p.version.next := by
  cases applied_of_apply h <;> rfl

theorem applyProjected_eq_ok :
    p.applyProjectedWithAuthorities enc (.decisionRecorded policyId d) approval accepted = .ok q ↔
      p.id = some policyId ∧ d.validate enc = .ok () ∧ d.policyVersion = p.version.next ∧
        p.decisionAuthorityIsValidWithAuthorities d approval accepted = true ∧
        q = { p with version := p.version.next } := by
  simp only [applyProjectedWithAuthorities, bind_eq_ok, require_eq_ok,
    pure_eq_ok, exists_unit, eq_comm (b := q)]

/-- The fold of a projection accepts what the policy accepts, given the authorities that the policy
has recorded. -/
theorem applyProjected_of_apply (h : p.apply enc event = .ok next)
    (hopen : event.isDecision = true → p.id ≠ none) :
    (p.projected p.version).applyProjectedWithAuthorities enc event
        (event.authorities.1.bind fun id => p.decisionsById[id]?)
        (event.authorities.2.bind fun id => p.decisionsById[id]?) =
      .ok (next.projected next.version) := by
  cases hev : event.isDecision with
  | false =>
    have happ := (apply_projected_eq_ok hev (v := p.version)).mpr ⟨next, h, rfl⟩
    rw [version_of_apply h, ← happ]
    cases event with
    | decisionRecorded => cases hev
    | _ => rfl
  | true =>
    cases event with
    | decisionRecorded policyId d =>
      obtain ⟨id, hid⟩ := ne_none_iff_exists'.mp (hopen rfl)
      obtain ⟨hown, arm, harm, rfl⟩ := apply_eq_ok.mp h
      obtain ⟨hval, hver, -, -, hauth, rfl⟩ := applyDecision_eq_ok.mp harm
      refine applyProjected_eq_ok.mpr ⟨?_, hval, hver, ?_, rfl⟩
      · exact hid.trans (congrArg some (hown id hid).symm)
      · rw [decisionAuthorityIsValidWithAuthorities_projected]
        exact hauth
    | opened | grantIssued | grantRevoked => cases hev

/-- The fold of a projection accepts only what the policy accepts, but for a decision that the
policy has recorded before. -/
theorem apply_of_applyProjected (h : (p.projected p.version).applyProjectedWithAuthorities enc event
        (event.authorities.1.bind fun id => p.decisionsById[id]?)
        (event.authorities.2.bind fun id => p.decisionsById[id]?) = .ok q)
    (hnew : ∀ policyId d, event = .decisionRecorded policyId d →
      p.decisionsByRequest[d.request.id]? = none ∧ p.decisionsById[d.id]? = none) :
    ∃ next, p.apply enc event = .ok next := by
  cases hev : event.isDecision with
  | false =>
    have happ : (p.projected p.version).apply enc event = .ok q := by
      rw [← h]
      cases event with
      | decisionRecorded => cases hev
      | _ => rfl
    obtain ⟨next, hnext, -⟩ := (apply_projected_eq_ok hev).mp happ
    exact ⟨next, hnext⟩
  | true =>
    cases event with
    | decisionRecorded policyId d =>
      obtain ⟨hid, hval, hver, hauth, -⟩ := applyProjected_eq_ok.mp h
      rw [decisionAuthorityIsValidWithAuthorities_projected] at hauth
      obtain ⟨hreq, hdec⟩ := hnew policyId d rfl
      refine ⟨_, apply_eq_ok.mpr ⟨?_, _, applyDecision_eq_ok.mpr
        ⟨hval, hver, hreq, hdec, hauth, rfl⟩, rfl⟩⟩
      intro id hid'
      exact some.inj (hid.symm.trans hid')
    | opened | grantIssued | grantRevoked => cases hev

/-! ## Decisions that stand -/

/-- A decision that the policy accepts, given its authorities. -/
structure Stands (enc : DecisionEncoding) (p : AuthorizationPolicy) (d : AuthorizationDecision)
    (approval accepted : Option AuthorizationDecision) : Prop where
  built : AuthorizationDecision.build enc d.toDecisionContents = .ok d
  version : d.policyVersion = p.version.next
  authority : p.decisionAuthorityIsValidWithAuthorities d approval accepted = true

theorem nanos_of_expiry {requestedUntil : OffsetDateTime}
    (h : expiry now ttl = .ok requestedUntil) :
    requestedUntil.nanos - now.nanos ≤ maxDecisionNanos := by
  rw [expiry, okOr_eq_ok] at h
  have hnanos := OffsetDateTime.checkedAdd_eq_some h
  have httl := ttl.le_max
  rw [maxDecisionNanos]
  push_cast at hnanos
  omega

theorem authority_of_denialOf {reason : AuthorizationDenialReason}
    (hdenial : p.denialOf d.request approval d.decidedAt = some reason) (hkind : d.kind = .deny)
    (hgrant : d.grantId = none) (hreason : d.denialReason = some reason)
    (htime : d.validUntil.nanos - d.decidedAt.nanos ≤ maxDecisionNanos) :
    p.decisionAuthorityIsValidWithAuthorities d approval accepted = true := by
  rw [decisionAuthorityIsValidWithAuthorities, if_neg (Int.not_lt.mpr htime), hkind]
  rw [denialOf] at hdenial
  simp only [hgrant, hreason, hdenial, isNone_none, Bool.true_and, decide_eq_true_eq]

theorem matchingGrant_eq_some (hp : p.Sound) {g : AuthorizationGrant}
    (h : p.matchingGrant request now = some g) : p.grants[g.id]? = some g ∧
      p.grants_ request.principal request.action request.scope now g = true := by
  have hf := List.find?_some h
  refine ⟨?_, hf⟩
  have hmem := List.mem_of_find?_eq_some h
  rw [Map.inOrder, List.mem_map] at hmem
  obtain ⟨⟨id, g'⟩, hent, rfl⟩ := hmem
  have hget := Std.ExtTreeMap.mem_toList_iff_getElem?_eq_some.mp hent
  rw [hp.keyed id g' hget]
  exact hget

theorem authority_of_allowed (hp : p.Sound)
    (hdenial : p.denialOf d.request approval d.decidedAt = none) (hkind : d.kind = .allow)
    (hgrant : d.grantId = (p.matchingGrant d.request d.decidedAt).map (·.id))
    (huntil : ∀ g until_, p.matchingGrant d.request d.decidedAt = some g →
      g.validUntil = some until_ → d.validUntil ≤ until_)
    (htime : d.validUntil.nanos - d.decidedAt.nanos ≤ maxDecisionNanos) :
    p.decisionAuthorityIsValidWithAuthorities d approval accepted = true := by
  rw [decisionAuthorityIsValidWithAuthorities, if_neg (Int.not_lt.mpr htime), hkind]
  rw [denialOf] at hdenial
  split at hdenial
  case isTrue => cases hdenial
  case isFalse howner =>
    simp only [hdenial, isNone_none, Bool.and_true, Bool.or_eq_true]
    right
    rw [isGranted, Bool.or_eq_true]
    cases hmatching : p.matchingGrant d.request d.decidedAt with
    | none =>
      left
      rw [hmatching] at howner hgrant
      have hpermitted : (p.isOwner d.request.principal && ownerPermits d.request.action) =
          true := by
        simpa using howner
      rw [hpermitted, hgrant]
      rfl
    | some g =>
      right
      obtain ⟨hf, hgrants⟩ := matchingGrant_eq_some hp hmatching
      rw [hmatching] at hgrant
      rw [hgrant, map_some, bind_some, hf, any_some, hgrants, Bool.true_and, all_eq_true]
      intro until_ hg
      exact decide_eq_true (huntil g until_ hmatching hg)

/-- A new decision on a request is recorded by one event, and stands. -/
theorem decideAuthorize_stands (hp : p.Sound)
    (h : p.decideAuthorizeWithDecisions enc request none approval now ttl = .ok plan)
    (accepted : Option AuthorizationDecision) :
    plan.decision.request = request ∧ (∃ policyId, p.id = some policyId ∧
      plan.event = some (.decisionRecorded policyId plan.decision)) ∧
      Stands enc p plan.decision approval accepted := by
  simp only [decideAuthorizeWithDecisions, bind_eq_ok, okOr_eq_ok] at h
  obtain ⟨policyId, hid, requestedUntil, hexpiry, h⟩ := h
  have htime := nanos_of_expiry hexpiry
  cases hdenial : p.denialOf request approval now with
  | some reason =>
    simp only [hdenial, bind_eq_ok, pure_eq_ok] at h
    obtain ⟨decision, hbuilt, rfl⟩ := h
    obtain ⟨-, -, canonical, -, rfl⟩ := build_eq_ok.mp hbuilt
    exact ⟨rfl, ⟨policyId, hid, rfl⟩, hbuilt, rfl, authority_of_denialOf hdenial rfl rfl rfl htime⟩
  | none =>
    simp only [hdenial, bind_eq_ok, pure_eq_ok] at h
    obtain ⟨decision, hbuilt, rfl⟩ := h
    obtain ⟨-, -, canonical, -, rfl⟩ := build_eq_ok.mp hbuilt
    refine ⟨rfl, ⟨policyId, hid, rfl⟩, hbuilt, rfl, authority_of_allowed hp hdenial rfl rfl ?_ ?_⟩
    · intro g until_ hg huntil
      change ((((p.matchingGrant request now).bind (·.validUntil)).map
        (min · requestedUntil)).getD requestedUntil) ≤ until_
      rw [show p.matchingGrant request now = some g from hg, bind_some, huntil, map_some, getD_some]
      exact min_le_left _ _
    · change ((((p.matchingGrant request now).bind (·.validUntil)).map
        (min · requestedUntil)).getD requestedUntil).nanos - now.nanos ≤ maxDecisionNanos
      cases (p.matchingGrant request now).bind (·.validUntil) with
      | none => exact htime
      | some until_ =>
        have hmin : (min until_ requestedUntil).nanos ≤ requestedUntil.nanos :=
          min_le_right until_ requestedUntil
        rw [map_some, getD_some]
        omega

theorem decideAcceptedWork_stands {accepted : AuthorizationDecision}
    (h : p.decideAcceptedWork enc request none accepted now ttl = .ok plan)
    (approval : Option AuthorizationDecision) :
    plan.decision.request = request ∧ (∃ policyId, p.id = some policyId ∧
      plan.event = some (.decisionRecorded policyId plan.decision)) ∧
      Stands enc p plan.decision approval (some accepted) := by
  simp only [decideAcceptedWork, bind_eq_ok, okOr_eq_ok, require_eq_ok,
    pure_eq_ok, exists_unit] at h
  obtain ⟨policyId, hid, hval, validUntil, hexpiry, decision, hdec, rfl⟩ := h
  have htime := nanos_of_expiry hexpiry
  have hbuilt := hdec
  rw [allow, build_eq_ok] at hdec
  obtain ⟨-, -, canonical, -, rfl⟩ := hdec
  refine ⟨rfl, ⟨policyId, hid, rfl⟩, hbuilt, rfl, ?_⟩
  rw [decisionAuthorityIsValidWithAuthorities, if_neg (Int.not_lt.mpr htime)]
  exact (Bool.or_eq_true _ _).mpr (.inl hval)

/-- A decision that exists is handed back as it is, and no other request gets it. -/
theorem replay_eq_ok {existing : AuthorizationDecision} (h : replay request existing = .ok plan) :
    existing.request = request ∧ plan = ⟨existing, none⟩ := by
  unfold replay at h
  split at h
  case isTrue heq =>
    cases h
    exact ⟨heq, rfl⟩
  case isFalse => cases h

/-! ## Events that are accepted -/

theorem apply_of_stands (hid : p.id = some policyId)
    (hstands : Stands enc p d (d.request.approvalDecisionId.bind fun id => p.decisionsById[id]?)
      (d.request.acceptedWorkDecisionId.bind fun id => p.decisionsById[id]?))
    (hval : d.request.validate = .ok ()) (hreq : p.decisionsByRequest[d.request.id]? = none)
    (hdec : p.decisionsById[d.id]? = none) :
    ∃ next, p.apply enc (.decisionRecorded policyId d) = .ok next := by
  refine ⟨_, apply_eq_ok.mpr ⟨?_, _, applyDecision_eq_ok.mpr ⟨?_, hstands.version, hreq,
    hdec, hstands.authority, rfl⟩, rfl⟩⟩
  · intro id hid'
    exact some.inj (hid.symm.trans hid')
  · exact validate_eq_ok.mpr ⟨hval, hstands.built⟩

theorem apply_of_decideOpen {owner : AuthenticatedPrincipal} {rules : List SeparationRule}
    (h : p.decideOpen policyId owner rules now = .ok (some event)) :
    event.policyId = policyId ∧ event.isDecision = false ∧
      ∃ next, p.apply enc event = .ok next := by
  simp only [decideOpen, bind_eq_ok, require_eq_ok, exists_unit] at h
  obtain ⟨howner, hkind, mapped, hmapped, h⟩ := h
  split at h
  · rename_i hid _
    cases h
    refine ⟨rfl, rfl, _, apply_eq_ok.mpr ⟨?_, _, applyOpened_eq_ok.mpr
      ⟨hid, howner, hkind, mapped, hmapped, rfl⟩, rfl⟩⟩
    intro id hid'
    rw [hid] at hid'
    cases hid'
  · split at h
    · cases h
    · cases h
  · cases h

theorem apply_of_decideIssue {grant : AuthorizationGrant}
    (h : p.decideIssue issuer grant now = .ok (some event)) :
    p.id = some event.policyId ∧ event.isDecision = false ∧
      ∃ next, p.apply enc event = .ok next := by
  simp only [decideIssue, bind_eq_ok, okOr_eq_ok, require_eq_ok, exists_unit] at h
  obtain ⟨hval, policyId, hid, hissuer, hissued, h⟩ := h
  split at h
  · split at h
    · cases h
    · cases h
  · rename_i hnew
    simp only [bind_eq_ok, require_eq_ok, pure_eq_ok, exists_unit, some.injEq] at h
    obtain ⟨hauth, rfl⟩ := h
    refine ⟨hid, rfl, _, apply_eq_ok.mpr ⟨?_, _, applyGrant_eq_ok.mpr
      ⟨by simp [hid], hnew, hval, ?_, rfl⟩, rfl⟩⟩
    · intro id hid'
      exact some.inj (hid.symm.trans hid')
    · rw [hissued]
      exact hauth

theorem apply_of_decideRevoke {grantId : AuthorizationGrantId}
    {reason : AuthorizationRevocationReason}
    (h : p.decideRevoke issuer grantId reason now = .ok (some event)) :
    p.id = some event.policyId ∧ event.isDecision = false ∧
      ∃ next, p.apply enc event = .ok next := by
  simp only [decideRevoke, bind_eq_ok, okOr_eq_ok] at h
  obtain ⟨policyId, hid, grant, hf, h⟩ := h
  split at h
  · cases h
  · rename_i hnew
    simp only [bind_eq_ok, require_eq_ok, pure_eq_ok, exists_unit, some.injEq] at h
    obtain ⟨hissuer, hmay, rfl⟩ := h
    refine ⟨hid, rfl, _, apply_eq_ok.mpr ⟨?_, _, applyRevocation_eq_ok.mpr
      ⟨hissuer, grant, hf, hnew, hmay, rfl⟩, rfl⟩⟩
    intro id hid'
    exact some.inj (hid.symm.trans hid')

end AuthorizationPolicy

end Made
