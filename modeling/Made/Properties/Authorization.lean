import Made.Authorization.Authority

/-!
# Delegation, authority and revocation

* `ancestor_permits_iff`: a delegated grant permits what the grants above it permit, but for a
  ceremony under another root that was cut out of a tree named after the ceremony itself;
* `revoked_grants_stay_dead`: chains are finite, and revoking a grant ends everything below it for
  good.
-/

namespace Made

open EventSourcing Outcome

namespace AuthorizationPolicy

variable {enc : DecisionEncoding} {p next : AuthorizationPolicy} {g : AuthorizationGrant}
  {policyId : AuthorizationPolicyId}

/-! ## Ancestors -/

def Parent (p : AuthorizationPolicy) (childId parentId : AuthorizationGrantId) : Prop :=
  ∃ g, p.grants[childId]? = some g ∧ g.parentGrantId = some parentId

theorem within_of_ancestor (hp : p.Sound) {id ancestorId : AuthorizationGrantId}
    (h : Relation.TransGen p.Parent id ancestorId) :
    ∃ g ancestor, p.grants[id]? = some g ∧ p.grants[ancestorId]? = some ancestor ∧
      Within g ancestor := by
  induction h with
  | single hpar =>
    obtain ⟨g, hg, hlink⟩ := hpar
    obtain ⟨parent, hf, hwithin⟩ := hp.linked id g _ hg hlink
    exact ⟨g, parent, hg, hf, hwithin⟩
  | tail _ hpar ih =>
    obtain ⟨g, middle, hg, hmiddle, hwithin⟩ := ih
    obtain ⟨middle', hmiddle', hlink⟩ := hpar
    cases Option.some.inj (hmiddle.symm.trans hmiddle')
    obtain ⟨parent, hf, habove⟩ := hp.linked _ middle _ hmiddle hlink
    exact ⟨g, parent, hg, hf, hwithin.trans habove (hp.grantable id g hg)⟩

theorem acyclic (hp : p.Sound) (id : AuthorizationGrantId) :
    ¬ Relation.TransGen p.Parent id id := by
  intro h
  obtain ⟨g, ancestor, hg, hancestor, hwithin⟩ := within_of_ancestor hp h
  cases Option.some.inj (hg.symm.trans hancestor)
  exact UInt8.lt_irrefl _ hwithin.depth

/-- Of what a grant permits, the grants around it permit all but the detached requests. -/
theorem Within.permits_iff {outer : AuthorizationGrant} (h : Within g outer)
    {action : AuthorizationAction} {scope : AuthorizationScope} {now : OffsetDateTime}
    (hperm : g.permits action scope now = true) :
    outer.permits action scope now = true ↔
      ¬ AuthorizationScope.Detached outer.scope g.scope scope := by
  simp only [AuthorizationGrant.permits, Bool.and_eq_true, decide_eq_true_eq] at hperm ⊢
  obtain ⟨⟨hact, haction⟩, hcovers⟩ := hperm
  rw [← AuthorizationScope.covers_iff_of_covers h.scope hcovers]
  exact ⟨fun houter => houter.2, fun houter => ⟨⟨h.isActiveAt hact, h.actions haction⟩, houter⟩⟩

/-! ## Revoked grants -/

/-- Nothing that hangs on a revoked grant has a live chain. -/
theorem not_liveChain_of_revoked (hp : p.Sound) {id revokedId : AuthorizationGrantId}
    (hrevoked : revokedId ∈ p.revoked) (h : Relation.ReflTransGen p.Parent id revokedId)
    (hg : p.grants[id]? = some g) (now : OffsetDateTime) : ¬ p.LiveChain now g := by
  induction h using Relation.ReflTransGen.head_induction_on generalizing g with
  | refl =>
    intro hlive
    have hid := hp.keyed _ g hg
    exact hlive.unrevoked (hid ▸ hrevoked)
  | head hpar _ ih =>
    intro hlive
    obtain ⟨g', hg', hlink⟩ := hpar
    cases Option.some.inj (hg.symm.trans hg')
    cases hlive with
    | root _ _ direct =>
      rw [hlink] at direct
      cases direct
    | link _ _ delegated found _ chain =>
      cases Option.some.inj (hlink.symm.trans delegated)
      exact ih found chain

theorem grantChainIsLive_of_revoked (hp : p.Sound) {id revokedId : AuthorizationGrantId}
    (hrevoked : revokedId ∈ p.revoked) (h : Relation.ReflTransGen p.Parent id revokedId)
    (hg : p.grants[id]? = some g) (now : OffsetDateTime) : p.grantChainIsLive g now = false := by
  rw [← Bool.not_eq_true, grantChainIsLive_iff hp hg]
  exact not_liveChain_of_revoked hp hrevoked h hg now

theorem revoked_step {event : AuthorizationPolicyEvent} (h : p.apply enc event = .ok next) :
    p.revoked ⊆ next.revoked := by
  cases applied_of_apply h with
  | opened | grantIssued | decisionRecorded => exact subset_rfl
  | grantRevoked => exact Finset.subset_insert _ _

theorem revoked_of_fold {events : List AuthorizationPolicyEvent}
    (h : (machine enc).fold p events = .ok next) : p.revoked ⊆ next.revoked := by
  induction events generalizing p with
  | nil =>
    cases h
    exact subset_rfl
  | cons event rest ih =>
    obtain ⟨t, ht, hrest⟩ := (Machine.fold_cons_eq_ok _ _ _ _ _).mp h
    exact (revoked_step ht).trans (ih hrest)

theorem mem_revoked_of_grantRevoked {revocation : AuthorizationRevocation}
    (h : p.apply enc (.grantRevoked policyId revocation) = .ok next) :
    revocation.grantId ∈ next.revoked := by
  obtain ⟨-, arm, harm, rfl⟩ := apply_eq_ok.mp h
  obtain ⟨-, _, -, -, -, rfl⟩ := applyRevocation_eq_ok.mp harm
  exact Finset.mem_insert_self _ _

theorem live_parent_of_grantIssued {grant : AuthorizationGrant} {issuedAt : OffsetDateTime}
    {parentId : AuthorizationGrantId}
    (h : p.apply enc (.grantIssued policyId grant issuedAt) = .ok next)
    (hpar : grant.parentGrantId = some parentId) :
    ∃ parent, p.grants[parentId]? = some parent ∧ p.grantChainIsLive parent issuedAt = true := by
  obtain ⟨-, arm, harm, rfl⟩ := apply_eq_ok.mp h
  obtain ⟨-, -, -, hauth, rfl⟩ := applyGrant_eq_ok.mp harm
  obtain ⟨hdirect, -⟩ | hdel := authorityIsValid_eq_true hauth
  · rw [hdirect] at hpar
    cases hpar
  · obtain ⟨parentId', parent, hparent', hf, -, hlive, -⟩ := mayDelegate_eq_true hdel
    cases Option.some.inj (hpar.symm.trans hparent')
    exact ⟨parent, hf, hlive⟩

end AuthorizationPolicy

open AuthorizationPolicy

/-! ## A delegated ceremony -/

def person (name : String) (h : (plainRule "principal_id" 256).accepts name = true) :
    AuthenticatedPrincipal :=
  ⟨⟨name, h⟩, .human, .mutualTls⟩

def host : AuthenticatedPrincipal := ⟨⟨"host", .refl true⟩, .trustedHost, .localHostPolicy⟩

def alice : AuthenticatedPrincipal := person "alice" (by decide)

def bob : AuthenticatedPrincipal := person "bob" (by decide)

def spawned : CeremonyId := ⟨"spawned", by decide⟩

/-- The tree named after a ceremony, granted to Alice by the owner. -/
def treeGrant : AuthorizationGrant where
  id := ⟨"tree", .refl true⟩
  grantee := alice.id
  actions := {.issueAuthorizationGrant, .getCeremonyInstance}
  scope := .ceremonyTree spawned
  validFrom := .afterEpoch 0
  validUntil := none
  delegationDepth := 1
  issuer := ⟨host, none⟩

/-- The ceremony itself, passed on to Bob. -/
def delegatedGrant : AuthorizationGrant where
  id := ⟨"delegated", .refl true⟩
  grantee := bob.id
  actions := {.getCeremonyInstance}
  scope := .ceremony spawned
  validFrom := .afterEpoch 0
  validUntil := none
  delegationDepth := 0
  issuer := ⟨alice, some treeGrant.id⟩

def delegatingEvents : List AuthorizationPolicyEvent :=
  [.opened ⟨"policy", .refl true⟩ host [] (.afterEpoch 0),
    .grantIssued ⟨"policy", .refl true⟩ treeGrant (.afterEpoch 0),
    .grantIssued ⟨"policy", .refl true⟩ delegatedGrant (.afterEpoch 0)]

/-- The ceremony as the application resolves it: a child of another root. -/
def spawnedUnderRoot : AuthorizationScope := .resolvedCeremony spawned ⟨"root", by decide⟩

/-! ## The results -/

theorem ancestor_permits_iff {enc : DecisionEncoding} {events : List AuthorizationPolicyEvent}
    {p : AuthorizationPolicy} (h : rehydrate enc events = .ok p)
    {id ancestorId : AuthorizationGrantId} (hchain : Relation.TransGen p.Parent id ancestorId)
    {g ancestor : AuthorizationGrant} (hg : p.grants[id]? = some g)
    (hancestor : p.grants[ancestorId]? = some ancestor) {action : AuthorizationAction}
    {scope : AuthorizationScope} {now : OffsetDateTime}
    (hpermits : g.permits action scope now = true) :
    ancestor.permits action scope now = true ↔
      ¬ AuthorizationScope.Detached ancestor.scope g.scope scope := by
  rw [rehydrate_eq_fold] at h
  obtain ⟨g', ancestor', hg', hancestor', hwithin⟩ :=
    within_of_ancestor (sound_of_fold h sound_empty) hchain
  cases Option.some.inj (hg.symm.trans hg')
  cases Option.some.inj (hancestor.symm.trans hancestor')
  exact hwithin.permits_iff hpermits

/-- Of the plain ceremony, the tree permits what its delegation permits. -/
theorem tree_permits_delegated_ceremony :
    ∃ p, rehydrate (fun _ => none) delegatingEvents = .ok p ∧
      delegatedGrant.permits .getCeremonyInstance (.ceremony spawned) ⟨0, by decide⟩ = true ∧
      treeGrant.permits .getCeremonyInstance (.ceremony spawned) ⟨0, by decide⟩ = true := by
  have hrun : ∃ p, rehydrate (fun _ => none) delegatingEvents = .ok p ∧
      p.grants[treeGrant.id]? = some treeGrant ∧
      p.grants[delegatedGrant.id]? = some delegatedGrant := exists_eq_ok_of_any (by decide +kernel)
  obtain ⟨p, hp, htree, hdel⟩ := hrun
  have hperm : delegatedGrant.permits .getCeremonyInstance (.ceremony spawned) ⟨0, by decide⟩ =
      true := by decide +kernel
  refine ⟨p, hp, hperm, ?_⟩
  rw [ancestor_permits_iff hp (.single ⟨_, hdel, rfl⟩) hdel htree hperm]
  rintro ⟨_, _, -, -, hscope, -⟩
  cases hscope

/-- Bob may look at the spawned ceremony through a live chain, while the grant of his chain that
the owner issued does not permit it, and Alice, who delegated to him, may not look at it herself. -/
theorem detached_delegation_exceeds_its_root :
    ∃ p, rehydrate (fun _ => none) delegatingEvents = .ok p ∧
      p.grants[treeGrant.id]? = some treeGrant ∧
      p.grants[delegatedGrant.id]? = some delegatedGrant ∧
      delegatedGrant.parentGrantId = some treeGrant.id ∧
      delegatedGrant.permits .getCeremonyInstance spawnedUnderRoot ⟨0, by decide⟩ = true ∧
      p.grantChainIsLive delegatedGrant ⟨0, by decide⟩ = true ∧
      treeGrant.permits .getCeremonyInstance spawnedUnderRoot ⟨0, by decide⟩ = false ∧
      p.permits bob .getCeremonyInstance spawnedUnderRoot ⟨0, by decide⟩ = true ∧
      p.permits alice .getCeremonyInstance spawnedUnderRoot ⟨0, by decide⟩ = false :=
  exists_eq_ok_of_any (by decide +kernel)

/-- By induction on the events, where a continuation finds the decision it names among those
recorded before. -/
theorem recorded_allow_is_backed {enc : DecisionEncoding} {events : List AuthorizationPolicyEvent}
    {p : AuthorizationPolicy} (h : rehydrate enc events = .ok p) {id : AuthorizationDecisionId}
    {d : AuthorizationDecision} (hd : p.decisionsById[id]? = some d) (hallow : d.kind = .allow) :
    Backed enc events d := by
  induction events using List.reverseRecOn generalizing p id d with
  | nil =>
    cases h
    simp [empty] at hd
  | append_singleton events event ih =>
    rw [rehydrate_eq_fold, Machine.fold_append_eq_ok] at h
    obtain ⟨before, hpre, hlast⟩ := h
    obtain ⟨next, happ, hnil⟩ := (Machine.fold_cons_eq_ok _ _ _ _ _).mp hlast
    cases hnil
    rw [← rehydrate_eq_fold] at hpre
    obtain hold | ⟨policyId, rfl, hauth⟩ := decisionsById_step happ hd
    · exact (ih hpre hold hallow).append _
    · have hrecorded : RecordedOn enc (events ++ [.decisionRecorded policyId d]) d before :=
        ⟨events, policyId, [], rfl, hpre⟩
      obtain ⟨acceptedId, accepted, hid, hf, hval⟩ | ⟨hgranted, hduty⟩ :=
        authority_of_allow hauth hallow
      · simp only [acceptedWorkIsValid, Bool.and_eq_true, decide_eq_true_eq] at hval
        obtain ⟨⟨⟨⟨hnames, hallowed⟩, hprincipal⟩, hscope⟩, -⟩ := hval
        exact .continuing hrecorded hallow hnames hprincipal hscope ((ih hpre hf hallowed).append _)
      · have hsound : before.Sound :=
          sound_of_fold ((rehydrate_eq_fold enc events).symm.trans hpre) sound_empty
        exact .authorized hrecorded hallow (authorized_of_isGranted hsound hgranted hduty)

def ownerReads : AuthorizationDecision where
  request := ⟨⟨"read", .refl true⟩, host, .readAuthorizationPolicy, .global,
    HexDigest.ofMessage _ [], none, none, none⟩
  policyVersion := 4
  kind := .allow
  grantId := none
  denialReason := none
  decidedAt := .afterEpoch 1
  validUntil := .afterEpoch 2
  id := HexDigest.ofMessage _ []

theorem owner_read_is_backed : Backed (fun _ => some [])
    (delegatingEvents ++ [.decisionRecorded ⟨"policy", by decide⟩ ownerReads]) ownerReads := by
  have hrun : ∃ p, rehydrate (fun _ => some [])
      (delegatingEvents ++ [.decisionRecorded ⟨"policy", by decide⟩ ownerReads]) = .ok p ∧
        p.decisionsById[ownerReads.id]? = some ownerReads := exists_eq_ok_of_any (by decide +kernel)
  obtain ⟨p, hp, hrecorded⟩ := hrun
  exact recorded_allow_is_backed hp hrecorded rfl

theorem revoked_grants_stay_dead {enc : DecisionEncoding} {events : List AuthorizationPolicyEvent}
    {p : AuthorizationPolicy} (h : rehydrate enc events = .ok p) :
    (∀ id, ¬ Relation.TransGen p.Parent id id) ∧
    (∀ (id parentId : AuthorizationGrantId) g parent, p.grants[id]? = some g →
      g.parentGrantId = some parentId → p.grants[parentId]? = some parent →
      g.delegationDepth < parent.delegationDepth) ∧
    (∀ (id : AuthorizationGrantId) g now, p.grants[id]? = some g →
      ∀ fuel, 256 ≤ fuel → p.chainWalk now fuel g = some (p.grantChainIsLive g now)) ∧
    ∀ policyId revocation revoked, p.apply enc (.grantRevoked policyId revocation) = .ok revoked →
      ∀ later q, (machine enc).fold revoked later = .ok q →
      ∀ id, Relation.ReflTransGen q.Parent id revocation.grantId →
        (∀ g now, q.grants[id]? = some g → q.grantChainIsLive g now = false) ∧
        (∀ policyId grant issuedAt next,
          q.apply enc (.grantIssued policyId grant issuedAt) = .ok next →
          grant.parentGrantId ≠ some id) ∧
        ∀ policyId d next, q.apply enc (.decisionRecorded policyId d) = .ok next →
          d.kind = .allow → d.grantId = some id →
          ∃ acceptedId accepted, d.request.acceptedWorkDecisionId = some acceptedId ∧
            q.decisionsById[acceptedId]? = some accepted ∧
            acceptedWorkIsValid d.request accepted = true := by
  rw [rehydrate_eq_fold] at h
  have hp := sound_of_fold h sound_empty
  refine ⟨acyclic hp, ?_, ?_, ?_⟩
  · intro id parentId g parent hg hlink hpar
    obtain ⟨parent', hparent', hwithin⟩ := hp.linked id g parentId hg hlink
    cases Option.some.inj (hpar.symm.trans hparent')
    exact hwithin.depth
  · intro id g now hg fuel hfuel
    obtain ⟨b, hb⟩ := chainWalk_answers hp now fuel hg (by omega)
    rw [hb, Option.some.injEq, Bool.eq_iff_iff, chainWalk_eq_some hb, grantChainIsLive_iff hp hg]
  · intro policyId revocation revoked hrevoke later q hlater id hid
    have hq : q.Sound := sound_of_fold hlater (sound_step hrevoke hp)
    have hmem : revocation.grantId ∈ q.revoked :=
      revoked_of_fold hlater (mem_revoked_of_grantRevoked hrevoke)
    have hdead := fun g now hg => grantChainIsLive_of_revoked hq hmem hid (g := g) hg now
    refine ⟨hdead, ?_, ?_⟩
    · intro policyId grant issuedAt next hissue hpar
      obtain ⟨parent, hf, hlive⟩ := live_parent_of_grantIssued hissue hpar
      rw [hdead parent issuedAt hf] at hlive
      cases hlive
    · intro policyId d next hrec hkind hgrant
      obtain ⟨-, arm, harm, -⟩ := apply_eq_ok.mp hrec
      obtain ⟨-, -, -, -, hauth, -⟩ := applyDecision_eq_ok.mp harm
      obtain hcontinuing | ⟨hgranted, -⟩ := authority_of_allow hauth hkind
      · exact hcontinuing
      · obtain ⟨-, -, hnone⟩ | ⟨grantId, grant, hgrant', hf, -, -, hlive, -⟩ :=
          isGranted_eq_true.mp hgranted
        · rw [hgrant] at hnone
          cases hnone
        · cases Option.some.inj (hgrant.symm.trans hgrant')
          rw [hdead grant d.decidedAt hf] at hlive
          cases hlive

/-- Once the owner revoked the tree, the delegation below it is dead at every time. -/
theorem delegation_dies_with_its_tree : ∃ p revoked,
    rehydrate (fun _ => none) delegatingEvents = .ok p ∧
    p.apply (fun _ => none) (.grantRevoked ⟨"policy", by decide⟩
      ⟨treeGrant.id, host, ⟨"leaked", by decide⟩, ⟨1, by decide⟩⟩) = .ok revoked ∧
    ∀ now, revoked.grantChainIsLive delegatedGrant now = false := by
  have hrun : (rehydrate (fun _ => none) delegatingEvents).toOption.any (fun p =>
      (p.apply (fun _ => none) (.grantRevoked ⟨"policy", by decide⟩
        ⟨treeGrant.id, host, ⟨"leaked", by decide⟩, ⟨1, by decide⟩⟩)).toOption.any fun revoked =>
          revoked.grants[delegatedGrant.id]? = some delegatedGrant) = true := by
    decide +kernel
  obtain ⟨p, hp, hrevoke⟩ := (Option.any_eq_true _ _).mp hrun
  obtain ⟨revoked, hrevoked, hf⟩ := (Option.any_eq_true _ _).mp hrevoke
  rw [decide_eq_true_eq] at hf
  have happ := eq_ok_of_toOption hrevoked
  refine ⟨p, revoked, eq_ok_of_toOption hp, happ, fun now => ?_⟩
  exact ((revoked_grants_stay_dead (eq_ok_of_toOption hp)).2.2.2 _ _ _ happ [] revoked rfl
    delegatedGrant.id (.single ⟨_, hf, rfl⟩)).1 _ now hf

end Made
