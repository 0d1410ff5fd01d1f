import Made.Authorization.Policy
import Mathlib.Logic.Relation

/-!
# Delegation chains

A grant hangs on its parent, the parent on its own, up to a grant the owner issued.  In every policy
that accepted events lead to, each delegated grant was cut from its parent: fewer actions, a covered
scope, a shorter validity and a smaller depth.
-/

namespace Made

open EventSourcing Outcome

namespace AuthorizationPolicy

variable {p next arm : AuthorizationPolicy} {event : AuthorizationPolicyEvent}
    {grant g : AuthorizationGrant} {now : OffsetDateTime}

/-! ## The fold as a machine -/

section Machine

variable (enc : DecisionEncoding)

/-- The fold of the policy; every batch of events may be offered to it. -/
def machine : Machine AuthorizationPolicy (List AuthorizationPolicyEvent) AuthorizationPolicyEvent
    DomainError :=
  ⟨fun _ events => .ok events, apply enc⟩

theorem rehydrate_eq_fold (events : List AuthorizationPolicyEvent) :
    rehydrate enc events = (machine enc).fold empty events := by
  unfold rehydrate
  generalize empty = p
  induction events generalizing p with
  | nil => rfl
  | cons event rest ih =>
    rw [List.foldlM_cons, Machine.fold]
    exact congrArg _ (funext ih)

end Machine

variable {enc : DecisionEncoding}

/-! ## What each event does -/

theorem apply_eq_ok :
    p.apply enc event = .ok next ↔ (∀ id, p.id = some id → event.policyId = id) ∧
      ∃ arm, p.applyArm enc event = .ok arm ∧
        next = { arm with version := arm.version.next } := by
  have hown : p.requireOwn event = .ok () ↔ ∀ id, p.id = some id → event.policyId = id := by
    unfold requireOwn
    cases p.id <;> simp
  simp only [apply, bind_eq_ok, pure_eq_ok, exists_const, hown, eq_comm (b := next)]

theorem applyOpened_eq_ok {policyId : AuthorizationPolicyId} {owner : AuthenticatedPrincipal}
    {rules : List SeparationRule} :
    p.applyOpened policyId owner rules = .ok arm ↔ p.id = none ∧ owner.validate = .ok () ∧
      owner.kind = .trustedHost ∧ ∃ mapped, separationRuleMap rules = .ok mapped ∧
        arm = { p with id := some policyId, owner := some owner, separationRules := mapped } := by
  simp only [applyOpened, bind_eq_ok, require_eq_ok, pure_eq_ok, exists_unit, eq_comm (b := arm)]

theorem applyGrant_eq_ok {issuedAt : OffsetDateTime} :
    p.applyGrant grant issuedAt = .ok arm ↔ p.id ≠ none ∧ p.grants[grant.id]? = none ∧
      grant.validate = .ok () ∧ p.authorityIsValid grant.issuedBy grant issuedAt = true ∧
        arm = { p with grants := p.grants.insert grant.id grant } := by
  simp only [applyGrant, bind_eq_ok, require_eq_ok, pure_eq_ok, exists_unit, eq_comm (b := arm)]

theorem applyRevocation_eq_ok {revocation : AuthorizationRevocation} :
    p.applyRevocation revocation = .ok arm ↔ revocation.revokedBy.validate = .ok () ∧
      ∃ grant, p.grants[revocation.grantId]? = some grant ∧ revocation.grantId ∉ p.revoked ∧
        p.mayRevoke revocation.revokedBy grant revocation.revokedAt = true ∧
        arm = { p with revoked := insert revocation.grantId p.revoked } := by
  simp only [applyRevocation, bind_eq_ok, okOr_eq_ok, require_eq_ok,
    pure_eq_ok, exists_unit, eq_comm (b := arm)]

theorem applyDecision_eq_ok {decision : AuthorizationDecision} :
    p.applyDecision enc decision = .ok arm ↔ decision.validate enc = .ok () ∧
      decision.policyVersion = p.version.next ∧
      p.decisionsByRequest[decision.request.id]? = none ∧ p.decisionsById[decision.id]? = none ∧
      p.decisionAuthorityIsValid decision = true ∧
        arm = { p with
          decisionsByRequest := p.decisionsByRequest.insert decision.request.id decision
          decisionsById := p.decisionsById.insert decision.id decision } := by
  simp only [applyDecision, bind_eq_ok, require_eq_ok, pure_eq_ok,
    exists_unit, eq_comm (b := arm), and_assoc]

inductive Applied (enc : DecisionEncoding) (p : AuthorizationPolicy) :
    AuthorizationPolicyEvent → AuthorizationPolicy → Prop where
  | opened {policyId : AuthorizationPolicyId} {owner : AuthenticatedPrincipal}
      {rules : List SeparationRule} {at_ : OffsetDateTime} (mapped : _) (closed : p.id = none) :
      Applied enc p (.opened policyId owner rules at_)
        { p with
          id := some policyId
          owner := some owner
          separationRules := mapped
          version := p.version.next }
  | grantIssued {policyId : AuthorizationPolicyId} {grant : AuthorizationGrant}
      {issuedAt : OffsetDateTime} (isOpen : p.id ≠ none) (fresh : p.grants[grant.id]? = none)
      (valid : grant.validate = .ok ())
      (authority : p.authorityIsValid grant.issuedBy grant issuedAt = true) :
      Applied enc p (.grantIssued policyId grant issuedAt)
        { p with grants := p.grants.insert grant.id grant, version := p.version.next }
  | grantRevoked {policyId : AuthorizationPolicyId} {revocation : AuthorizationRevocation}
      {grant : AuthorizationGrant} (held : p.grants[revocation.grantId]? = some grant) :
      Applied enc p (.grantRevoked policyId revocation)
        { p with revoked := insert revocation.grantId p.revoked, version := p.version.next }
  | decisionRecorded {policyId : AuthorizationPolicyId} {decision : AuthorizationDecision}
      (authority : p.decisionAuthorityIsValid decision = true) :
      Applied enc p (.decisionRecorded policyId decision)
        { p with
          decisionsByRequest := p.decisionsByRequest.insert decision.request.id decision
          decisionsById := p.decisionsById.insert decision.id decision
          version := p.version.next }

theorem applied_of_apply (h : p.apply enc event = .ok next) : Applied enc p event next := by
  obtain ⟨-, arm, harm, rfl⟩ := apply_eq_ok.mp h
  cases event with
  | opened =>
    obtain ⟨hcl, -, -, mapped, -, rfl⟩ := applyOpened_eq_ok.mp harm
    exact .opened mapped hcl
  | grantIssued =>
    obtain ⟨hid, hnew, hval, hauth, rfl⟩ := applyGrant_eq_ok.mp harm
    exact .grantIssued hid hnew hval hauth
  | grantRevoked =>
    obtain ⟨-, grant, hgrant, -, -, rfl⟩ := applyRevocation_eq_ok.mp harm
    exact .grantRevoked hgrant
  | decisionRecorded =>
    obtain ⟨-, -, -, -, hauth, rfl⟩ := applyDecision_eq_ok.mp harm
    exact .decisionRecorded hauth

/-! ## Delegated grants -/

/-- `inner` allows nothing beyond `outer`, and may be passed on less often. -/
structure Within (inner outer : AuthorizationGrant) : Prop where
  actions : inner.actions ⊆ outer.actions
  scope : outer.scope.covers inner.scope = true
  validFrom : outer.validFrom ≤ inner.validFrom
  validUntil : validityContains outer.validUntil inner.validUntil = true
  depth : inner.delegationDepth < outer.delegationDepth

theorem validityContains_trans {a b c : Option OffsetDateTime} (hab : validityContains a b = true)
    (hbc : validityContains b c = true) : validityContains a c = true := by
  cases a with
  | none => rfl
  | some a =>
    cases b with
    | none => cases hab
    | some b =>
      cases c with
      | none => cases hbc
      | some c =>
        simp only [validityContains, decide_eq_true_eq] at *
        exact hbc.trans hab

theorem Within.trans {a b c : AuthorizationGrant} (hab : Within a b) (hbc : Within b c)
    (hgrant : a.scope.isResolvedRequestScope = false) : Within a c where
  actions := hab.actions.trans hbc.actions
  scope := by
    rw [AuthorizationScope.covers_iff_of_covers hbc.scope hab.scope]
    rintro ⟨ceremonyId, rootId, -, -, hscope, -⟩
    rw [hscope] at hgrant
    cases hgrant
  validFrom := hbc.validFrom.trans hab.validFrom
  validUntil := validityContains_trans hbc.validUntil hab.validUntil
  depth := UInt8.lt_trans hab.depth hbc.depth

theorem Within.isActiveAt {inner outer : AuthorizationGrant} (h : Within inner outer)
    (hact : inner.isActiveAt now = true) : outer.isActiveAt now = true := by
  have huntil := h.validUntil
  simp only [AuthorizationGrant.isActiveAt, Bool.and_eq_true, decide_eq_true_eq] at *
  refine ⟨h.validFrom.trans hact.1, ?_⟩
  cases houter : outer.validUntil with
  | none => rfl
  | some outerUntil =>
    cases hinner : inner.validUntil with
    | none => simp [validityContains, houter, hinner] at huntil
    | some innerUntil =>
      simp only [houter, hinner, validityContains, Option.all_some, decide_eq_true_eq]
        at hact huntil ⊢
      exact hact.2.trans_le huntil

theorem mayDelegate_eq_true {issuer : AuthenticatedPrincipal} {child : AuthorizationGrant}
    (h : p.mayDelegate issuer child now = true) :
    ∃ parentId parent, child.parentGrantId = some parentId ∧ p.grants[parentId]? = some parent ∧
      parent.grantee = issuer.id ∧ p.grantChainIsLive parent now = true ∧
      .issueAuthorizationGrant ∈ parent.actions ∧ Within child parent := by
  simp only [mayDelegate, Option.any_eq_true, mayDelegateFrom, Bool.and_eq_true,
    decide_eq_true_eq] at h
  obtain ⟨parentId, hparentId, parent, hpar,
    ⟨⟨⟨⟨⟨⟨hgrantee, hlive⟩, hissue⟩, hactions⟩, hscope⟩, hfrom⟩, huntil⟩, hdepth⟩ := h
  exact ⟨parentId, parent, hparentId, hpar, hgrantee, hlive, hissue,
    ⟨hactions, hscope, hfrom, huntil, hdepth⟩⟩

/-! ## Sound policies -/

/-- What holds of the grants of every policy that events lead to. -/
structure Sound (p : AuthorizationPolicy) : Prop where
  /-- Nothing is granted before the policy is opened. -/
  closed : p.id = none → ∀ id : AuthorizationGrantId, p.grants[id]? = none
  keyed : ∀ (id : AuthorizationGrantId) g, p.grants[id]? = some g → g.id = id
  grantable : ∀ (id : AuthorizationGrantId) g, p.grants[id]? = some g →
    g.scope.isResolvedRequestScope = false
  rooted : ∀ (id : AuthorizationGrantId) g, p.grants[id]? = some g → g.parentGrantId = none →
    p.isOwner g.issuedBy = true
  linked : ∀ (id : AuthorizationGrantId) g parentId, p.grants[id]? = some g →
    g.parentGrantId = some parentId → ∃ parent, p.grants[parentId]? = some parent ∧ Within g parent

theorem sound_empty : empty.Sound := by
  have hnone : ∀ id : AuthorizationGrantId, empty.grants[id]? = none :=
    fun _ => Std.ExtTreeMap.getElem?_empty
  refine ⟨fun _ => hnone, ?_, ?_, ?_, ?_⟩ <;> intros <;> simp_all

/-- Only the owner issues without a parent, and everybody else with one. -/
theorem authorityIsValid_eq_true (h : p.authorityIsValid grant.issuedBy grant now = true) :
    (grant.parentGrantId = none ∧ p.isOwner grant.issuedBy = true) ∨
      p.mayDelegate grant.issuedBy grant now = true := by
  unfold authorityIsValid at h
  split at h
  · rename_i howner
    exact .inl ⟨Option.isNone_iff_eq_none.mp h, howner⟩
  · exact .inr h

theorem grantable_of_validate (h : g.validate = .ok ()) :
    g.scope.isResolvedRequestScope = false := by
  simp only [AuthorizationGrant.validate, bind_eq_ok, require_eq_ok, exists_unit] at h
  exact h.2.1

theorem sound_insert (hp : p.Sound) {issuedAt : OffsetDateTime} (hid : p.id ≠ none)
    (hnew : p.grants[grant.id]? = none) (hval : grant.validate = .ok ())
    (hauth : p.authorityIsValid grant.issuedBy grant issuedAt = true) :
    Sound { p with grants := p.grants.insert grant.id grant } := by
  -- A stored grant is the new one, or was there before.
  have hcases : ∀ (id : AuthorizationGrantId) g, (p.grants.insert grant.id grant)[id]? = some g →
      (id = grant.id ∧ g = grant) ∨ p.grants[id]? = some g := by
    intro id g hg
    by_cases h : id = grant.id
    · subst h
      rw [Std.ExtTreeMap.getElem?_insert_self] at hg
      exact .inl ⟨rfl, (Option.some.inj hg).symm⟩
    · rw [Map.getElem?_insert_of_ne h] at hg
      exact .inr hg
  have hkeep : ∀ (id : AuthorizationGrantId) g, p.grants[id]? = some g →
      (p.grants.insert grant.id grant)[id]? = some g := by
    intro id g hg
    rwa [Map.getElem?_insert_of_ne]
    rintro rfl
    rw [hnew] at hg
    cases hg
  refine ⟨fun h => absurd h hid, ?_, ?_, ?_, ?_⟩
  · intro id g hg
    obtain ⟨rfl, rfl⟩ | hold := hcases id g hg
    · rfl
    · exact hp.keyed id g hold
  · intro id g hg
    obtain ⟨rfl, rfl⟩ | hold := hcases id g hg
    · exact grantable_of_validate hval
    · exact hp.grantable id g hold
  · intro id g hg hdirect
    obtain ⟨rfl, rfl⟩ | hold := hcases id g hg
    · obtain ⟨-, howner⟩ | hdel := authorityIsValid_eq_true hauth
      · exact howner
      · obtain ⟨_, _, hpar, _⟩ := mayDelegate_eq_true hdel
        rw [hdirect] at hpar
        cases hpar
    · exact hp.rooted id g hold hdirect
  · intro id g parentId hg hpar
    obtain ⟨rfl, rfl⟩ | hold := hcases id g hg
    · obtain ⟨hdirect, -⟩ | hdel := authorityIsValid_eq_true hauth
      · rw [hdirect] at hpar
        cases hpar
      · obtain ⟨parentId', parent, hparent', hf, _, _, _, hwithin⟩ :=
          mayDelegate_eq_true hdel
        cases Option.some.inj (hpar.symm.trans hparent')
        exact ⟨parent, hkeep _ _ hf, hwithin⟩
    · obtain ⟨parent, hf, hwithin⟩ := hp.linked id g parentId hold hpar
      exact ⟨parent, hkeep _ _ hf, hwithin⟩

theorem sound_step (h : p.apply enc event = .ok next) (hp : p.Sound) : next.Sound := by
  cases applied_of_apply h with
  | opened mapped closed =>
    have hnone := hp.closed closed
    refine ⟨(fun h => nomatch h), ?_, ?_, ?_, ?_⟩ <;> intro id g <;> simp [hnone]
  | grantIssued isOpen fresh valid authority =>
    have hsound := sound_insert hp isOpen fresh valid authority
    exact ⟨hsound.closed, hsound.keyed, hsound.grantable, hsound.rooted, hsound.linked⟩
  | grantRevoked | decisionRecorded =>
    exact ⟨hp.closed, hp.keyed, hp.grantable, hp.rooted, hp.linked⟩

theorem sound_of_fold {events : List AuthorizationPolicyEvent}
    (h : (machine enc).fold p events = .ok next) (hp : p.Sound) : next.Sound := by
  induction events generalizing p with
  | nil =>
    cases h
    exact hp
  | cons event rest ih =>
    obtain ⟨t, ht, hrest⟩ := (Machine.fold_cons_eq_ok _ _ _ _ _).mp h
    exact ih hrest (sound_step ht hp)

/-! ## The walk to the root -/

/-- Every grant on the way to a grant of the owner is unrevoked and active, and each was issued by
the grantee of the one above. -/
inductive LiveChain (p : AuthorizationPolicy) (now : OffsetDateTime) :
    AuthorizationGrant → Prop where
  | root {g : AuthorizationGrant} (unrevoked : g.id ∉ p.revoked) (active : g.isActiveAt now = true)
      (direct : g.parentGrantId = none) (owned : p.isOwner g.issuedBy = true) : LiveChain p now g
  | link {g parent : AuthorizationGrant} {parentId : AuthorizationGrantId}
      (unrevoked : g.id ∉ p.revoked) (active : g.isActiveAt now = true)
      (delegated : g.parentGrantId = some parentId) (found : p.grants[parentId]? = some parent)
      (holder : parent.grantee = g.issuedBy.id) (chain : LiveChain p now parent) :
      LiveChain p now g

theorem LiveChain.unrevoked (h : p.LiveChain now g) : g.id ∉ p.revoked := by
  cases h with
  | root unrevoked | link unrevoked => exact unrevoked

/-- The walk answers yes where there is a live chain, and only there. -/
theorem chainWalk_eq_some {fuel : Nat} {b : Bool} (h : p.chainWalk now fuel g = some b) :
    b = true ↔ p.LiveChain now g := by
  induction fuel generalizing g with
  | zero => cases h
  | succ fuel ih =>
    rw [chainWalk] at h
    split at h
    · rename_i hdead
      cases h
      refine ⟨(fun h => nomatch h), fun hlive => ?_⟩
      cases hlive with
      | root unrevoked active | link unrevoked active => simp_all
    · rename_i halive
      rw [not_or, Bool.not_eq_false] at halive
      split at h
      · rename_i hdirect
        cases h
        refine ⟨fun howned => .root halive.1 halive.2 hdirect howned, fun hlive => ?_⟩
        cases hlive with
        | root _ _ _ owned => exact owned
        | link _ _ delegated => simp_all
      · rename_i parentId hparentId
        -- Whatever the walk finds above, a live chain has to go the same way.
        have hup : p.LiveChain now g ↔ ∃ parent, p.grants[parentId]? = some parent ∧
            parent.grantee = g.issuedBy.id ∧ p.LiveChain now parent := by
          constructor
          · intro hlive
            cases hlive with
            | root _ _ direct => simp_all
            | @link _ parent _ _ _ delegated found holder chain =>
              cases Option.some.inj (hparentId.symm.trans delegated)
              exact ⟨parent, found, holder, chain⟩
          · rintro ⟨parent, found, holder, chain⟩
            exact .link halive.1 halive.2 hparentId found holder chain
        rw [hup]
        split at h
        · rename_i hmissing
          cases h
          simp [hmissing]
        · rename_i parent hf
          split at h
          · rename_i hholder
            rw [ih h]
            simp [hf, hholder]
          · rename_i hholder
            cases h
            simp [hf, hholder]

/-- Depths grow towards the root, so the walk stays within the bound. -/
theorem chainWalk_answers (hp : p.Sound) (now : OffsetDateTime) (fuel : Nat)
    {id : AuthorizationGrantId} (hg : p.grants[id]? = some g)
    (hfuel : 256 ≤ fuel + g.delegationDepth.toNat) : ∃ b, p.chainWalk now fuel g = some b := by
  induction fuel generalizing id g with
  | zero =>
    have := g.delegationDepth.toNat_lt
    omega
  | succ fuel ih =>
    rw [chainWalk]
    split
    · exact ⟨false, rfl⟩
    · split
      · exact ⟨_, rfl⟩
      · rename_i parentId hparentId
        obtain ⟨parent, hpar, hwithin⟩ := hp.linked id g parentId hg hparentId
        rw [hpar]
        dsimp only
        split
        · have hdepth := UInt8.lt_iff_toNat_lt.mp hwithin.depth
          exact ih hpar (by omega)
        · exact ⟨false, rfl⟩

theorem grantChainIsLive_iff (hp : p.Sound) {id : AuthorizationGrantId}
    (hg : p.grants[id]? = some g) : p.grantChainIsLive g now = true ↔ p.LiveChain now g := by
  obtain ⟨b, hb⟩ := chainWalk_answers hp now 256 hg (by omega)
  rw [grantChainIsLive, hb, Option.getD_some]
  exact chainWalk_eq_some hb

end AuthorizationPolicy

end Made
