import Made.Authorization.Chains

/-!
# The authority behind a decision

A recorded permission stands on the owner or on a live grant together with the separation of duties,
or it continues work that an earlier permission admitted.
-/

namespace Made

open EventSourcing

namespace AuthorizationPolicy

variable {enc : DecisionEncoding} {p : AuthorizationPolicy} {d : AuthorizationDecision}
  {events : List AuthorizationPolicyEvent}

/-! ## Checks of a recorded permission -/

/-- What stands behind a recorded permission: accepted work, or the owner or a grant together with
the separation of duties. -/
theorem authority_of_allow (h : p.decisionAuthorityIsValid d = true) (hkind : d.kind = .allow) :
    (∃ acceptedId accepted, d.request.acceptedWorkDecisionId = some acceptedId ∧
        p.decisionsById[acceptedId]? = some accepted ∧
        acceptedWorkIsValid d.request accepted = true) ∨
      (p.isGranted d = true ∧ p.dutyDenial d.request
        (d.request.approvalDecisionId.bind fun id => p.decisionsById[id]?) d.decidedAt = none) := by
  simp only [decisionAuthorityIsValid, decisionAuthorityIsValidWithAuthorities, hkind] at h
  split at h
  · cases h
  · simp only [Bool.or_eq_true, Bool.and_eq_true, Option.any_eq_true, Option.bind_eq_some_iff,
      Option.isNone_iff_eq_none] at h
    obtain ⟨accepted, ⟨acceptedId, hid, hf⟩, hval⟩ | hgranted := h
    · exact .inl ⟨acceptedId, accepted, hid, hf, hval⟩
    · exact .inr hgranted

theorem isGranted_eq_true :
    p.isGranted d = true ↔
      (p.isOwner d.request.principal = true ∧ ownerPermits d.request.action = true ∧
        d.grantId = none) ∨
      ∃ grantId grant, d.grantId = some grantId ∧ p.grants[grantId]? = some grant ∧
        grant.grantee = d.request.principal.id ∧
        grant.permits d.request.action d.request.scope d.decidedAt = true ∧
        p.grantChainIsLive grant d.decidedAt = true ∧
        ∀ until_ ∈ grant.validUntil, d.validUntil ≤ until_ := by
  simp only [isGranted, grants_, Bool.or_eq_true, Bool.and_eq_true, Option.any_eq_true,
    Option.bind_eq_some_iff, Option.isNone_iff_eq_none, decide_eq_true_eq, Option.all_eq_true]
  constructor
  · rintro (⟨⟨howner, hperm⟩, hnone⟩ |
      ⟨grant, ⟨grantId, hid, hf⟩, ⟨⟨hgrantee, hperm⟩, hlive⟩, huntil⟩)
    · exact .inl ⟨howner, hperm, hnone⟩
    · exact .inr ⟨grantId, grant, hid, hf, hgrantee, hperm, hlive, huntil⟩
  · rintro (⟨howner, hperm, hnone⟩ | ⟨grantId, grant, hid, hf, hgrantee, hperm, hlive, huntil⟩)
    · exact .inl ⟨⟨howner, hperm⟩, hnone⟩
    · exact .inr ⟨grant, ⟨grantId, hid, hf⟩, ⟨⟨hgrantee, hperm⟩, hlive⟩, huntil⟩

/-- An approval that the rule asks for, recorded and still in force at `now`. -/
structure Approved (p : AuthorizationPolicy) (rule : SeparationRule)
    (request : AuthorizationRequest) (now : OffsetDateTime) (approval : AuthorizationDecision) :
    Prop where
  recorded : ∃ approvalId : AuthorizationDecisionId, p.decisionsById[approvalId]? = some approval
  allowed : approval.kind = .allow
  action : approval.request.action = rule.approvalAction
  approves : approval.request.approvedAction = some request.action
  other : approval.request.principal.id ≠ request.principal.id
  digest : approval.request.targetDigest = request.targetDigest
  scope : approval.request.scope.covers request.scope = true
  live : approval.isLiveAt now = true ∧ p.decisionGrantIsLive approval now = true

/-- Where duties are separated, a request that is not denied has an approval. -/
theorem approved_of_dutyDenial {request : AuthorizationRequest} {now : OffsetDateTime}
    (h : p.dutyDenial request (request.approvalDecisionId.bind fun id => p.decisionsById[id]?) now =
      none) {rule : SeparationRule} (hrule : p.separationRules[request.action]? = some rule) :
    ∃ approval, p.Approved rule request now approval := by
  simp only [dutyDenial, Option.or_eq_none_iff] at h
  have hseparation := h.2
  simp only [separationDenial, hrule] at hseparation
  split at hseparation
  · cases hseparation
  · rename_i approvalId hid
    split at hseparation
    · rename_i hval
      simp only [hid, Option.bind_some, Option.any_eq_true, Option.filter_eq_some_iff,
        approvalIsValid, Bool.and_eq_true, decide_eq_true_eq] at hval
      obtain ⟨approval, ⟨hf, -⟩,
        ⟨⟨⟨⟨⟨⟨hkind, hlive⟩, hgrant⟩, haction⟩, happroves⟩, ho⟩, hscope⟩, hdig⟩ := hval
      exact ⟨approval, ⟨approvalId, hf⟩, hkind, haction, happroves, ho, hdig, hscope, hlive, hgrant⟩
    · cases hseparation

/-! ## Authority -/

/-- The permission `d` has authority of its own in the policy `p`: of the owner or of a grant with a
live chain, and with an approval where duties are separated. -/
structure Authorized (p : AuthorizationPolicy) (d : AuthorizationDecision) : Prop where
  source : (p.isOwner d.request.principal = true ∧ ownerPermits d.request.action = true) ∨
    ∃ grantId grant, d.grantId = some grantId ∧ p.grants[grantId]? = some grant ∧
      grant.grantee = d.request.principal.id ∧
      grant.permits d.request.action d.request.scope d.decidedAt = true ∧
      p.LiveChain d.decidedAt grant
  approved : ∀ rule, p.separationRules[d.request.action]? = some rule →
    ∃ approval, p.Approved rule d.request d.decidedAt approval

theorem authorized_of_isGranted (hp : p.Sound) (hgranted : p.isGranted d = true)
    (hduty : p.dutyDenial d.request
      (d.request.approvalDecisionId.bind fun id => p.decisionsById[id]?) d.decidedAt = none) :
    p.Authorized d := by
  refine ⟨?_, fun rule hrule => approved_of_dutyDenial hduty hrule⟩
  obtain ⟨howner, hperm, -⟩ | ⟨grantId, grant, hid, hf, hgrantee, hperm, hlive, -⟩ :=
    isGranted_eq_true.mp hgranted
  · exact .inl ⟨howner, hperm⟩
  · exact .inr ⟨grantId, grant, hid, hf, hgrantee, hperm, (grantChainIsLive_iff hp hf).mp hlive⟩

/-- `d` was recorded by `events`, on the policy `before`. -/
def RecordedOn (enc : DecisionEncoding) (events : List AuthorizationPolicyEvent)
    (d : AuthorizationDecision) (before : AuthorizationPolicy) : Prop :=
  ∃ earlier policyId later, events = earlier ++ .decisionRecorded policyId d :: later ∧
    rehydrate enc earlier = .ok before

/-- A permission that had authority when it was recorded, or that continues such a permission of the
same principal in the same scope, in finitely many steps. -/
inductive Backed (enc : DecisionEncoding) (events : List AuthorizationPolicyEvent) :
    AuthorizationDecision → Prop where
  | authorized {d : AuthorizationDecision} {before : AuthorizationPolicy}
      (recorded : RecordedOn enc events d before) (allowed : d.kind = .allow)
      (authority : before.Authorized d) : Backed enc events d
  | continuing {d accepted : AuthorizationDecision} {before : AuthorizationPolicy}
      (recorded : RecordedOn enc events d before) (allowed : d.kind = .allow)
      (names : d.request.acceptedWorkDecisionId = some accepted.id)
      (principal : accepted.request.principal = d.request.principal)
      (scope : accepted.request.scope = d.request.scope) (backed : Backed enc events accepted) :
      Backed enc events d

theorem RecordedOn.append {before : AuthorizationPolicy} (h : RecordedOn enc events d before)
    (more : List AuthorizationPolicyEvent) : RecordedOn enc (events ++ more) d before := by
  obtain ⟨earlier, policyId, later, rfl, hpre⟩ := h
  exact ⟨earlier, policyId, later ++ more, by simp, hpre⟩

theorem Backed.append (h : Backed enc events d) (more : List AuthorizationPolicyEvent) :
    Backed enc (events ++ more) d := by
  induction h with
  | authorized recorded allowed authority =>
    exact .authorized (recorded.append more) allowed authority
  | continuing recorded allowed names principal scope _ ih =>
    exact .continuing (recorded.append more) allowed names principal scope ih

theorem decisionsById_step {next : AuthorizationPolicy} {event : AuthorizationPolicyEvent}
    (h : p.apply enc event = .ok next) {id : AuthorizationDecisionId}
    (hd : next.decisionsById[id]? = some d) :
    p.decisionsById[id]? = some d ∨ ∃ policyId, event = .decisionRecorded policyId d ∧
      p.decisionAuthorityIsValid d = true := by
  cases applied_of_apply h with
  | opened | grantIssued | grantRevoked => exact .inl hd
  | @decisionRecorded policyId decision hauth =>
    by_cases hid : id = decision.id
    · subst hid
      rw [Std.ExtTreeMap.getElem?_insert_self] at hd
      cases hd
      exact .inr ⟨policyId, rfl, hauth⟩
    · rw [Map.getElem?_insert_of_ne hid] at hd
      exact .inl hd

end AuthorizationPolicy

end Made
