import Made.Runs.Records

/-!
# Claim fences

A start makes a claim; its fence digests the step, the coordinates and the lease of the claim.  A
result closes the claim it names, a deadline sweep retires it, and a result that comes after that
is observed as late.  Where the fence of a claim is kept differs from path to path: on the record of
the step, in the standing deadlines, among the retired claims, among the late results.
-/

namespace Made

open EventSourcing StepClaimFence List

variable {stepId : StepId}

/-! ## Lists with one new entry at most -/

theorem nodup_append_of_length_le_one {α : Type} {xs ys : List α} (hxs : xs.Nodup)
    (hys : ys.length ≤ 1) (hnew : ∀ y ∈ ys, y ∉ xs) : (xs ++ ys).Nodup := by
  refine nodup_append.mpr ⟨hxs, ?_, ?_⟩
  · rcases ys with _ | ⟨y, _ | ⟨z, ys⟩⟩
    · exact nodup_nil
    · exact nodup_singleton y
    · simp at hys
  · rintro x hx y hy rfl
    exact hnew x hy hx

theorem eq_of_mem_of_length_le_one {α : Type} {xs : List α} (hxs : xs.length ≤ 1) {x y : α}
    (hx : x ∈ xs) (hy : y ∈ xs) : x = y := by
  rcases xs with _ | ⟨z, _ | ⟨w, xs⟩⟩
  · cases hx
  · rw [mem_singleton.mp hx, mem_singleton.mp hy]
  · simp at hxs

/-! ## What happens to claims -/

structure SealedClaim where
  stepId : StepId
  record : StepExecutionRecord
  lease : StepLease
deriving DecidableEq

variable (id : CeremonyId)

namespace SealedClaim

def preimage (claim : SealedClaim) : List UInt8 :=
  claimFencePreimage id claim.stepId claim.record claim.lease

def fence (claim : SealedClaim) : StepClaimFence :=
  HexDigest.ofMessage _ (claim.preimage id)

end SealedClaim

inductive ClaimFact where
  | started (claim : SealedClaim)
  | finished (fence : StepClaimFence)
  | expired (fence : StepClaimFence)
  | late (fence : StepClaimFence)
deriving DecidableEq

def startedClaims (facts : List ClaimFact) : List SealedClaim :=
  facts.filterMap fun
    | .started claim => some claim
    | _ => none

def closings (facts : List ClaimFact) : List StepClaimFence :=
  facts.filterMap fun
    | .finished fence | .expired fence => some fence
    | _ => none

def lates (facts : List ClaimFact) : List StepClaimFence :=
  facts.filterMap fun
    | .late fence => some fence
    | _ => none

/-- SHA-256 tells the claims of these facts apart. -/
def CollisionFree (facts : List ClaimFact) : Prop :=
  ∀ a ∈ startedClaims facts, ∀ b ∈ startedClaims facts,
    Sha256.hexDigest (a.preimage id) = Sha256.hexDigest (b.preimage id) →
      a.preimage id = b.preimage id

instance (id : CeremonyId) (facts : List ClaimFact) : Decidable (CollisionFree id facts) :=
  inferInstanceAs (Decidable (∀ a ∈ startedClaims facts, ∀ b ∈ startedClaims facts, _ → _))

@[simp] theorem startedClaims_append (facts more : List ClaimFact) :
    startedClaims (facts ++ more) = startedClaims facts ++ startedClaims more :=
  filterMap_append

@[simp] theorem closings_append (facts more : List ClaimFact) :
    closings (facts ++ more) = closings facts ++ closings more :=
  filterMap_append

@[simp] theorem lates_append (facts more : List ClaimFact) :
    lates (facts ++ more) = lates facts ++ lates more :=
  filterMap_append

variable {facts : List ClaimFact} {fence : StepClaimFence}

theorem closings_of_finished (h : .finished fence ∈ facts) : fence ∈ closings facts :=
  mem_filterMap.mpr ⟨_, h, rfl⟩

theorem closings_of_expired (h : .expired fence ∈ facts) : fence ∈ closings facts :=
  mem_filterMap.mpr ⟨_, h, rfl⟩

variable {id}

theorem CollisionFree.of_append {more : List ClaimFact} (h : CollisionFree id (facts ++ more)) :
    CollisionFree id facts := by
  intro a ha b hb
  rw [CollisionFree, startedClaims_append] at h
  exact h a (mem_append_left _ ha) b (mem_append_left _ hb)

theorem CollisionFree.claim_eq (h : CollisionFree id facts) {a b : SealedClaim}
    (ha : a ∈ startedClaims facts) (hb : b ∈ startedClaims facts) (heq : a.fence id = b.fence id) :
    a.stepId = b.stepId ∧ a.lease.idempotencyKey = b.lease.idempotencyKey :=
  claimFencePreimage_injective (h a ha b hb (congrArg HexDigest.val heq))

variable (id) in
def StartedOn (facts : List ClaimFact) (stepId : StepId) (fence : StepClaimFence) : Prop :=
  ∃ claim ∈ startedClaims facts, claim.stepId = stepId ∧ claim.fence id = fence

theorem StartedOn.append (h : StartedOn id facts stepId fence) (more : List ClaimFact) :
    StartedOn id (facts ++ more) stepId fence := by
  obtain ⟨claim, hclaim, hrest⟩ := h
  exact ⟨claim, by simp [hclaim], hrest⟩

theorem StartedOn.stepId_eq {stepId' : StepId} (free : CollisionFree id facts)
    (h : StartedOn id facts stepId fence) (h' : StartedOn id facts stepId' fence) :
    stepId = stepId' := by
  obtain ⟨a, ha, rfl, hfence⟩ := h
  obtain ⟨b, hb, rfl, hfence'⟩ := h'
  exact (free.claim_eq ha hb (hfence.trans hfence'.symm)).1

def CeremonyEvent.closedStepId : CeremonyEvent → Option StepId
  | .stepCompleted e => some e.stepId
  | .stepFailed e => some e.stepId
  | .stepDeadlineExceeded e => some e.deadline.stepId
  | _ => none

theorem CeremonyEvent.claimStepId_of_closed {e : CeremonyEvent} (h : e.closedStepId = some stepId) :
    e.claimStepId = some stepId := by
  cases e <;> first | exact h | cases h

namespace CeremonyInstance

variable {d : CeremonyDefinition} {i t : CeremonyInstance} {e : CeremonyEvent}
  {record : StepExecutionRecord}

/-- What an event says about claims, in the session it is folded into: a completion or a failure
closes the claim its step stands under. -/
def claimFacts (i : CeremonyInstance) : CeremonyEvent → List ClaimFact
  | .stepStarted e =>
    [.started ⟨e.stepId, startedRecord (i.takeStepRecord e.stepId) e, e.lease⟩]
  | .stepCompleted e | .stepFailed e =>
    (i.stepClaimFence e.stepId).toOption.toList.map .finished
  | .stepDeadlineExceeded e => [.expired e.deadline.claimFence]
  | .lateStepResultObserved e => [.late e.result.claimFence]
  | _ => []

/-! ## Open claims -/

/-- A fence that a result or a deadline sweep can still close: that of the record, or of the
standing deadline, of its step. -/
def OpenClaim (i : CeremonyInstance) (stepId : StepId) (fence : StepClaimFence) : Prop :=
  i.stepClaimFence stepId = .ok fence ∨
    ∃ deadline, i.stepDeadlines[stepId]? = some deadline ∧ deadline.claimFence = fence

theorem stepClaimFence_eq_ok : i.stepClaimFence stepId = .ok fence ↔
    ∃ record, i.stepRecords[stepId]? = some record ∧ forRecord i.id stepId record = .ok fence := by
  simp only [stepClaimFence, Outcome.bind_eq_ok, Outcome.okOr_eq_ok]

theorem not_openClaim_of_cleared
    (unleased : ∀ record, i.stepRecords[stepId]? = some record → record.lease = none)
    (undue : i.stepDeadlines[stepId]? = none) : ¬ i.OpenClaim stepId fence := by
  rintro (hfence | ⟨deadline, hdue, -⟩)
  · obtain ⟨record, hrec, hfor⟩ := stepClaimFence_eq_ok.mp hfence
    obtain ⟨lease, hlease, -⟩ := forRecord_eq_ok.mp hfor
    rw [unleased record hrec] at hlease
    cases hlease
  · rw [undue] at hdue
    cases hdue

/-- A reset record holds no claim, so what is open afterwards is a deadline from before. -/
theorem OpenClaim.of_reset (h : t.OpenClaim stepId fence)
    (record_eq : t.stepRecords[stepId]? = some record) (unleased : record.lease = none)
    (deadline_eq : t.stepDeadlines[stepId]? = i.stepDeadlines[stepId]?) :
    i.OpenClaim stepId fence := by
  rcases h with hfence | ⟨deadline, hdue, hfence⟩
  · rw [stepClaimFence_eq record_eq] at hfence
    obtain ⟨lease, hlease, -⟩ := forRecord_eq_ok.mp hfence
    rw [unleased] at hlease
    cases hlease
  · exact .inr ⟨deadline, deadline_eq ▸ hdue, hfence⟩

theorem completedRecord_lease (record : StepExecutionRecord) (e : StepCompleted) :
    (completedRecord record e).lease = none := by
  unfold completedRecord
  split <;> rfl

theorem ClaimStep.openClaim (h : ClaimStep d i e t stepId)
    (hid : t.id = i.id) (hopen : t.OpenClaim stepId fence) :
    (i.OpenClaim stepId fence ∧ e.closedStepId ≠ some stepId) ∨
      ∃ claim, .started claim ∈ i.claimFacts e ∧ claim.stepId = stepId ∧
        claim.fence i.id = fence := by
  cases h with
  | kept record_eq deadline_eq other =>
    refine .inl ⟨?_, fun hcl => other (CeremonyEvent.claimStepId_of_closed hcl)⟩
    rcases hopen with hfence | ⟨deadline, hdue, hfence⟩
    · obtain ⟨record, hrec, hfor⟩ := stepClaimFence_eq_ok.mp hfence
      exact .inl (stepClaimFence_eq_ok.mpr ⟨record, record_eq ▸ hrec, hid ▸ hfor⟩)
    · exact .inr ⟨deadline, deadline_eq ▸ hdue, hfence⟩
  | started e step record admitted record_eq deadline_eq =>
    have hfor : forRecord i.id e.stepId (startedRecord record e) = .ok fence := by
      rcases hopen with hfence | ⟨deadline, hdue, hfence⟩
      · rw [stepClaimFence_eq record_eq, hid] at hfence
        exact hfence
      · rw [deadline_eq] at hdue
        obtain ⟨-, -, -, -, -, hseal⟩ := admitted.deadline_eq deadline hdue
        rw [← hfence]
        exact hseal
    obtain ⟨lease, hlease, hdig⟩ := forRecord_eq_ok.mp hfor
    cases hlease
    refine .inr ⟨⟨e.stepId, startedRecord record e, e.lease⟩, ?_, rfl, hdig⟩
    rw [claimFacts, takeStepRecord_eq admitted.record_eq]
    exact mem_singleton_self _
  | renewed e record lease admitted record_eq deadline_eq =>
    refine .inl ⟨?_, by simp [CeremonyEvent.closedStepId]⟩
    rcases hopen with hfence | ⟨deadline, hdue, hfence⟩
    · rw [stepClaimFence_eq record_eq, hid, forRecord_renewLeaseUntil] at hfence
      exact .inl (stepClaimFence_eq_ok.mpr ⟨record, admitted.record_eq, hfence⟩)
    · exact .inr ⟨deadline, deadline_eq ▸ hdue, hfence⟩
  | completed e step record claimed admitted record_eq deadline_eq =>
    refine absurd hopen (not_openClaim_of_cleared ?_ deadline_eq)
    intro record' hrecord'
    rw [record_eq, Option.some.injEq] at hrecord'
    rw [← hrecord', completedRecord_lease]
  | failed e step record claimed admitted record_eq deadline_eq =>
    refine absurd hopen (not_openClaim_of_cleared ?_ deadline_eq)
    intro record' hrecord'
    rw [record_eq, Option.some.injEq] at hrecord'
    rw [← hrecord']
    rfl
  | restarted e admitted mem record_eq deadline_eq
  | entered e transition destination admitted mem record_eq deadline_eq =>
    exact .inl ⟨hopen.of_reset record_eq rfl deadline_eq, by simp [CeremonyEvent.closedStepId]⟩
  | timedOut e standing record_eq deadline_eq =>
    refine absurd hopen (not_openClaim_of_cleared ?_ deadline_eq)
    intro record' hrecord'
    rw [record_eq, Option.map_eq_some_iff] at hrecord'
    obtain ⟨before, -, rfl⟩ := hrecord'
    rfl

/-! ## What an event adds to the facts -/

/-- The books in which a session keeps claims that are not on a record. -/
structure SameBooks (i t : CeremonyInstance) : Prop where
  keys : t.idempotencyKeys = i.idempotencyKeys := by rfl
  retired : t.retiredDeadlineClaims = i.retiredDeadlineClaims := by rfl
  late : t.lateStepResults = i.lateStepResults := by rfl

/-- What an admitted event adds to the facts, and to the books. -/
inductive FactStep (i : CeremonyInstance) (e : CeremonyEvent) (t : CeremonyInstance) :
    List ClaimFact → Prop where
  | quiet (same : SameBooks i t) : FactStep i e t []
  | started (claim : SealedClaim) (fresh : claim.lease.idempotencyKey ∉ i.idempotencyKeys)
      (keys : t.idempotencyKeys = i.idempotencyKeys.insert claim.lease.idempotencyKey)
      (retired : t.retiredDeadlineClaims = i.retiredDeadlineClaims)
      (late : t.lateStepResults = i.lateStepResults) : FactStep i e t [.started claim]
  | finished (stepId : StepId) (fence : StepClaimFence) (closed : e.closedStepId = some stepId)
      (held : i.OpenClaim stepId fence) (notLate : i.lateStepResults[fence]? = none)
      (same : SameBooks i t) : FactStep i e t [.finished fence]
  | expired (deadline : StepDeadline) (closed : e.closedStepId = some deadline.stepId)
      (held : i.OpenClaim deadline.stepId deadline.claimFence)
      (keys : t.idempotencyKeys = i.idempotencyKeys)
      (retired : t.retiredDeadlineClaims =
        i.retiredDeadlineClaims.insert deadline.claimFence deadline)
      (late : t.lateStepResults = i.lateStepResults) :
      FactStep i e t [.expired deadline.claimFence]
  | late (result : LateStepResult) (unseen : i.lateStepResults[result.claimFence]? = none)
      (known : i.OpenClaim result.stepId result.claimFence ∨
        (i.retiredDeadlineClaims[result.claimFence]?).isSome = true)
      (keys : t.idempotencyKeys = i.idempotencyKeys)
      (retired : t.retiredDeadlineClaims = i.retiredDeadlineClaims)
      (late : t.lateStepResults = i.lateStepResults.insert result.claimFence result) :
      FactStep i e t [.late result.claimFence]

theorem claimFacts_of_quiet (h : e.touchesExecution = false) : i.claimFacts e = [] := by
  cases e <;> first | rfl | cases h

theorem retiredClaim_isSome (h : (i.retiredClaim stepId fence).isSome = true) :
    (i.retiredDeadlineClaims[fence]?).isSome = true := by
  rw [retiredClaim, Option.isSome_filter] at h
  exact Option.isSome_of_any h

theorem openClaim_of_liveClaimMatches
    (h : i.liveClaimMatches record stepId fence = true) : i.OpenClaim stepId fence := by
  rw [liveClaimMatches, Bool.and_eq_true] at h
  have hm := h.2
  split at hm
  case h_1 current hcur =>
    rw [decide_eq_true_eq] at hm
    exact .inl (hm ▸ hcur)
  case h_2 => cases hm

theorem factStep_of_execution (execution : ExecutionStep d i e t) :
    FactStep i e t (i.claimFacts e) := by
  cases execution with
  | other quiet same =>
    rw [claimFacts_of_quiet quiet]
    exact .quiet ⟨same.idempotencyKeys, same.retiredDeadlineClaims, same.lateStepResults⟩
  | started e step record admitted => exact .started _ admitted.freshKey rfl rfl rfl
  | renewed => exact .quiet {}
  | completed e step record fence admitted =>
    have hfence := admitted.claim.fence_eq
    have hbooks : SameBooks i (i.applyStepCompleted e) := by
      obtain ⟨_, _, hshape⟩ := applyStepCompleted_eq i e
      rw [hshape]
      exact {}
    simp only [claimFacts, hfence, Except.toOption, Option.toList_some, map_cons, map_nil]
    exact .finished e.stepId fence rfl (.inl hfence) admitted.claim.notLate hbooks
  | failed e step record fence admitted =>
    have hfence := admitted.claim.fence_eq
    simp only [claimFacts, hfence, Except.toOption, Option.toList_some, map_cons, map_nil]
    exact .finished e.stepId fence rfl (.inl hfence) admitted.claim.notLate {}
  | iterated e =>
    obtain ⟨_, _, hshape⟩ := applyStateIterationStarted_eq i e
    rw [hshape]
    exact .quiet {}
  | moved e transition destination admitted =>
    obtain ⟨_, _, hshape⟩ := applyTransitionApplied_eq i admitted.destination_eq
    rw [hshape]
    exact .quiet {}
  | timedOut e notEnded standing result_eq =>
    exact .expired e.deadline rfl (.inr ⟨e.deadline, standing, rfl⟩) rfl rfl rfl
  | late e record admitted =>
    refine .late e.result admitted.unseen ?_ rfl rfl rfl
    rcases admitted.claimed with hlive | hret
    · exact .inl (openClaim_of_liveClaimMatches hlive)
    · exact .inr (retiredClaim_isSome hret)

section FactStep

variable {claim : SealedClaim}

section

variable (h : FactStep i e t facts)
include h

theorem FactStep.closing (hmem : fence ∈ closings facts) :
    ∃ stepId, e.closedStepId = some stepId ∧ i.OpenClaim stepId fence := by
  cases h with
  | finished stepId closedFence closed held =>
    rw [mem_singleton.mp hmem]
    exact ⟨stepId, closed, held⟩
  | expired deadline closed held =>
    rw [mem_singleton.mp hmem]
    exact ⟨deadline.stepId, closed, held⟩
  | _ => cases hmem

theorem FactStep.length_le_one : facts.length ≤ 1 := by
  cases h <;> simp

theorem FactStep.fresh (hmem : claim ∈ startedClaims facts) :
    claim.lease.idempotencyKey ∉ i.idempotencyKeys := by
  cases h with
  | started started fresh =>
    rw [mem_singleton.mp hmem]
    exact fresh
  | _ => cases hmem

theorem FactStep.key_mem (hmem : claim ∈ startedClaims facts) :
    claim.lease.idempotencyKey ∈ t.idempotencyKeys := by
  cases h with
  | started started fresh keys =>
    rw [mem_singleton.mp hmem, keys]
    exact Std.ExtTreeSet.mem_insert_self
  | _ => cases hmem

theorem FactStep.keys_mono {key : IdempotencyKey} (hkey : key ∈ i.idempotencyKeys) :
    key ∈ t.idempotencyKeys := by
  cases h with
  | quiet same => rwa [same.keys]
  | started claim fresh keys =>
    rw [keys]
    exact Std.ExtTreeSet.mem_insert.mpr (.inr hkey)
  | finished _ _ _ _ _ same => rwa [same.keys]
  | expired _ _ _ keys | late _ _ _ keys => rwa [keys]

theorem FactStep.retired_cases (hret : (t.retiredDeadlineClaims[fence]?).isSome = true) :
    (i.retiredDeadlineClaims[fence]?).isSome = true ∨ .expired fence ∈ facts := by
  cases h with
  | quiet same => exact .inl (same.retired ▸ hret)
  | started _ _ _ retired => exact .inl (retired ▸ hret)
  | finished _ _ _ _ _ same => exact .inl (same.retired ▸ hret)
  | late _ _ _ _ retired => exact .inl (retired ▸ hret)
  | expired deadline _ _ _ retired =>
    by_cases heq : fence = deadline.claimFence
    · exact .inr (by simp [heq])
    · rw [retired, Map.getElem?_insert_of_ne heq] at hret
      exact .inl hret

theorem FactStep.late_mono (hlate : (i.lateStepResults[fence]?).isSome = true) :
    (t.lateStepResults[fence]?).isSome = true := by
  cases h with
  | quiet same => rwa [same.late]
  | started _ _ _ _ late => rwa [late]
  | finished _ _ _ _ _ same => rwa [same.late]
  | expired _ _ _ _ _ late => rwa [late]
  | late result unseen _ _ _ late =>
    by_cases heq : fence = result.claimFence
    · rw [late, heq, Std.ExtTreeMap.getElem?_insert_self]
      rfl
    · rwa [late, Map.getElem?_insert_of_ne heq]

theorem FactStep.observed (hmem : fence ∈ lates facts) :
    i.lateStepResults[fence]? = none ∧ (t.lateStepResults[fence]?).isSome = true ∧
      ((∃ stepId, i.OpenClaim stepId fence) ∨
        (i.retiredDeadlineClaims[fence]?).isSome = true) := by
  cases h with
  | late result unseen known keys retired late =>
    rw [mem_singleton.mp hmem]
    refine ⟨unseen, ?_, known.imp_left fun hopen => ⟨result.stepId, hopen⟩⟩
    rw [late, Std.ExtTreeMap.getElem?_insert_self]
    rfl
  | _ => cases hmem

theorem FactStep.finished_unobserved (hmem : .finished fence ∈ facts) :
    i.lateStepResults[fence]? = none := by
  cases h with
  | finished _ closedFence _ _ notLate =>
    cases mem_singleton.mp hmem
    exact notLate
  | quiet => cases hmem
  | started | expired | late => cases mem_singleton.mp hmem

end

end FactStep

/-! ## The invariant -/

/-- What holds of the fences of a session, given the facts of the run that led to it. -/
structure FencesKept (i : CeremonyInstance) (seen : List ClaimFact) : Prop where
  keys : ∀ claim ∈ startedClaims seen, claim.lease.idempotencyKey ∈ i.idempotencyKeys
  started : ∀ stepId fence, i.OpenClaim stepId fence → StartedOn i.id seen stepId fence
  unclosed : ∀ stepId fence, i.OpenClaim stepId fence → fence ∉ closings seen
  closed : ∀ fence ∈ closings seen, ∃ stepId, StartedOn i.id seen stepId fence
  retired : ∀ fence, (i.retiredDeadlineClaims[fence]?).isSome = true → .expired fence ∈ seen
  observed : ∀ fence ∈ lates seen, (i.lateStepResults[fence]?).isSome = true
  once : (closings seen).Nodup
  lateOnce : (lates seen).Nodup
  apart : ∀ fence, .finished fence ∈ seen → .expired fence ∉ seen
  exclusive : ∀ fence, .finished fence ∈ seen → fence ∉ lates seen

variable {seen : List ClaimFact}

section

variable (h : FencesKept i seen)
include h

theorem FencesKept.unclosed_of_closing (hfacts : FactStep i e t facts)
    (hmem : fence ∈ closings facts) : fence ∉ closings seen := by
  obtain ⟨stepId, -, hopen⟩ := hfacts.closing hmem
  exact h.unclosed stepId fence hopen

theorem FencesKept.unobserved (hnone : i.lateStepResults[fence]? = none) : fence ∉ lates seen := by
  intro hmem
  have hsome := h.observed fence hmem
  rw [hnone] at hsome
  cases hsome

theorem FencesKept.openClaim_step (free : CollisionFree i.id (seen ++ i.claimFacts e))
    (hid : t.id = i.id) (execution : ExecutionStep d i e t) (hopen : t.OpenClaim stepId fence) :
    StartedOn i.id (seen ++ i.claimFacts e) stepId fence ∧
      fence ∉ closings (seen ++ i.claimFacts e) := by
  have hfacts := factStep_of_execution execution
  rw [closings_append, mem_append, not_or]
  rcases (claimStep_of_execution execution stepId).openClaim hid hopen with
    ⟨hpre, hkept⟩ | ⟨claim, hclaim, rfl, rfl⟩
  · have hstarted := h.started stepId fence hpre
    refine ⟨hstarted.append _, h.unclosed stepId fence hpre, fun hmem => ?_⟩
    -- One fence belongs to one step, and the event closes the claim of another one.
    obtain ⟨closedId, hcl, ho⟩ := hfacts.closing hmem
    have hsame := (h.started closedId fence ho).stepId_eq free.of_append hstarted
    exact hkept (hsame ▸ hcl)
  · have hnew : claim ∈ startedClaims (i.claimFacts e) := mem_filterMap.mpr ⟨_, hclaim, rfl⟩
    refine ⟨⟨claim, by simp [hnew], rfl, rfl⟩, fun hmem => ?_, fun hmem => ?_⟩
    · -- The claim that was closed has another idempotency key.
      obtain ⟨_, earlier, hearlier, -, hfence⟩ := h.closed _ hmem
      have hkey := (free.claim_eq (by simp [hearlier]) (by simp [hnew]) hfence).2
      exact hfacts.fresh hnew (hkey ▸ h.keys earlier hearlier)
    · obtain ⟨closedId, hcl, ho⟩ := hfacts.closing hmem
      obtain ⟨earlier, hearlier, -, hfence⟩ := h.started closedId _ ho
      have hkey := (free.claim_eq (by simp [hearlier]) (by simp [hnew]) hfence).2
      exact hfacts.fresh hnew (hkey ▸ h.keys earlier hearlier)

theorem FencesKept.step (free : CollisionFree i.id (seen ++ i.claimFacts e)) (hid : t.id = i.id)
    (execution : ExecutionStep d i e t) : FencesKept t (seen ++ i.claimFacts e) := by
  have hfacts := factStep_of_execution execution
  have hopen : ∀ stepId fence, t.OpenClaim stepId fence →
      StartedOn i.id (seen ++ i.claimFacts e) stepId fence ∧
        fence ∉ closings (seen ++ i.claimFacts e) :=
    fun _ _ => h.openClaim_step free hid execution
  generalize i.claimFacts e = facts at *
  refine ⟨?_, ?_, ?_, ?_, ?_, ?_, ?_, ?_, ?_, ?_⟩
  · intro claim hmem
    rw [startedClaims_append, mem_append] at hmem
    rcases hmem with hmem | hmem
    · exact hfacts.keys_mono (h.keys claim hmem)
    · exact hfacts.key_mem hmem
  · intro stepId fence hafter
    rw [hid]
    exact (hopen stepId fence hafter).1
  · exact fun stepId fence hafter => (hopen stepId fence hafter).2
  · intro fence hmem
    rw [closings_append, mem_append] at hmem
    rw [hid]
    rcases hmem with hmem | hmem
    · obtain ⟨stepId, hstarted⟩ := h.closed fence hmem
      exact ⟨stepId, hstarted.append _⟩
    · obtain ⟨stepId, -, hpre⟩ := hfacts.closing hmem
      exact ⟨stepId, (h.started stepId fence hpre).append _⟩
  · intro fence hret
    rw [mem_append]
    exact (hfacts.retired_cases hret).imp_left (h.retired fence)
  · intro fence hmem
    rw [lates_append, mem_append] at hmem
    rcases hmem with hmem | hmem
    · exact hfacts.late_mono (h.observed fence hmem)
    · exact (hfacts.observed hmem).2.1
  · rw [closings_append]
    refine nodup_append_of_length_le_one h.once ?_ fun fence => h.unclosed_of_closing hfacts
    exact (length_filterMap_le _ _).trans hfacts.length_le_one
  · rw [lates_append]
    refine nodup_append_of_length_le_one h.lateOnce ?_ fun fence hmem =>
      h.unobserved (hfacts.observed hmem).1
    exact (length_filterMap_le _ _).trans hfacts.length_le_one
  · intro fence hfin hexpired
    rw [mem_append] at hfin hexpired
    rcases hfin with hfin | hfin <;> rcases hexpired with hexpired | hexpired
    · exact h.apart fence hfin hexpired
    · exact h.unclosed_of_closing hfacts (closings_of_expired hexpired) (closings_of_finished hfin)
    · exact h.unclosed_of_closing hfacts (closings_of_finished hfin) (closings_of_expired hexpired)
    · cases eq_of_mem_of_length_le_one hfacts.length_le_one hfin hexpired
  · intro fence hfin hlate
    rw [mem_append] at hfin
    rw [lates_append, mem_append] at hlate
    rcases hfin with hfin | hfin <;> rcases hlate with hlate | hlate
    · exact h.exclusive fence hfin hlate
    · -- A claim that is observed now is open, or was retired by a deadline.
      obtain ⟨-, -, ⟨stepId, hpre⟩ | hret⟩ := hfacts.observed hlate
      · exact h.unclosed stepId fence hpre (closings_of_finished hfin)
      · exact h.apart fence hfin (h.retired fence hret)
    · exact h.unobserved (hfacts.finished_unobserved hfin) hlate
    · obtain ⟨fact, hmem, hfact⟩ := mem_filterMap.mp hlate
      rw [← eq_of_mem_of_length_le_one hfacts.length_le_one hfin hmem] at hfact
      cases hfact

end

/-! ## Results of other claims -/

/-- The work of a session: its records, its context and where it stands. -/
structure SameWork (i t : CeremonyInstance) : Prop where
  stepRecords : t.stepRecords = i.stepRecords := by rfl
  context : t.context = i.context := by rfl
  currentState : t.currentState = i.currentState := by rfl
  currentStateIteration : t.currentStateIteration = i.currentStateIteration := by rfl

/-- A result under a fence that is not the current one changes no work. -/
theorem FiledResult.sameWork {command : ApplyStepResult} {events : List CeremonyEvent}
    {links : Map ExecutionOperationId ExecutionReceiptLink}
    {adoptions : Map ExecutionOperationId (Map StepClaimFence ExecutionReceiptLink)}
    {updatedAt : OffsetDateTime} (h : FiledResult d i command events)
    (stale : i.stepClaimFence command.stepId ≠ .ok command.claimFence)
    (folded : (i.withLinks links adoptions updatedAt).applyAll events = .ok t) : SameWork i t := by
  cases h with
  | repeated =>
    cases folded
    exact {}
  | late e record admitted =>
    obtain ⟨j, hj, hnil⟩ := applyAll_cons_eq_ok.mp folded
    cases hj
    cases hnil
    exact {}
  | current step record _ claim => exact absurd claim.fence_eq stale

end CeremonyInstance

def CeremonyCommand.resultClaim : CeremonyCommand → Option (StepId × StepClaimFence)
  | .applyStepResult command | .applyExecutionReceiptResult command =>
    some (command.stepId, command.claimFence)
  | _ => none

namespace CeremonyInstance

variable {d : CeremonyDefinition} {i t : CeremonyInstance}

theorem sameWork_of_stale {command : CeremonyCommand} {events : List CeremonyEvent}
    (accepted : i.decide d command = .ok events)
    (folded : i.applyAll events = .ok t) (named : command.resultClaim = some (stepId, fence))
    (stale : i.stepClaimFence stepId ≠ .ok fence) : SameWork i t := by
  cases command with
  | applyStepResult command =>
    cases named
    have hself : i.withLinks i.executionReceiptLinks i.executionReceiptAdoptions i.updatedAt = i :=
      rfl
    rw [← hself] at folded
    exact (decideApplyStepResult_eq_ok accepted).sameWork stale folded
  | applyExecutionReceiptResult command =>
    cases named
    cases decideApplyExecutionReceiptResult_eq_ok accepted with
    | repeated =>
      cases folded
      exact {}
    | linked record results admitted filed =>
      obtain ⟨j, hj, hrest⟩ := applyAll_cons_eq_ok.mp folded
      obtain ⟨links, adoptions, hlinks⟩ := applyExecutionReceiptLinked_eq i
        ⟨command.stepId, command.receiptLink, command.now⟩
      rw [apply, Except.ok.injEq, hlinks] at hj
      subst hj
      exact filed.sameWork stale hrest
  | _ => cases named

end CeremonyInstance

open CeremonyInstance

variable {d : CeremonyDefinition} {opening : CeremonyOpening} {events : List CeremonyEvent}
  {i t : CeremonyInstance} {trace : List (CeremonyCommand × List CeremonyEvent)}

/-! ## Whole runs -/

theorem Opened.fencesKept (opened : Opened d opening events i) : FencesKept i [] := by
  have hclear : ∀ stepId fence, ¬ i.OpenClaim stepId fence := by
    intro stepId fence
    refine not_openClaim_of_cleared ?_ ?_
    · exact fun record hrec => (opened.fresh.unclaimed stepId record hrec).2.1
    · rw [opened.fresh.stepDeadlines]
      simp
  refine ⟨by simp [startedClaims], ?_, ?_, by simp [closings], ?_, by simp [lates], nodup_nil,
    nodup_nil, by simp, by simp⟩
  · exact fun stepId fence hopen => absurd hopen (hclear stepId fence)
  · exact fun stepId fence hopen => absurd hopen (hclear stepId fence)
  · intro fence hret
    rw [opened.fresh.retiredDeadlineClaims] at hret
    simp at hret

def claimLog (d : CeremonyDefinition) (i : CeremonyInstance)
    (trace : List (CeremonyCommand × List CeremonyEvent)) : List ClaimFact :=
  (machine d).log claimFacts i (Machine.stream trace)

theorem fencesKept_of_path {stream : List CeremonyEvent}
    (path : (machine d).Path (Admitted d) i stream t) (kept : FencesKept i [])
    (free : CollisionFree i.id ((machine d).log claimFacts i stream)) :
    FencesKept t ((machine d).log claimFacts i stream) := by
  let Kept := fun (s : CeremonyInstance) (seen : List ClaimFact) =>
    s.id = i.id ∧ (CollisionFree i.id seen → FencesKept s seen)
  have hstep : ∀ s e u seen, Admitted d s e → (machine d).apply s e = .ok u → Kept s seen →
      Kept u (seen ++ s.claimFacts e) := by
    intro s e u seen hadm happ hs
    have heffects := effects_of_admitted hadm happ
    refine ⟨heffects.identity.id.trans hs.1, fun hfree => ?_⟩
    refine (hs.2 hfree.of_append).step ?_ heffects.identity.id heffects.execution
    rw [hs.1]
    exact hfree
  have hkept := path.log_invariant (I := Kept) hstep ⟨rfl, fun _ => kept⟩
  exact hkept.2 free

/-- No two claims of a session were made under one idempotency key. -/
theorem Session.claims_have_own_keys (s : Session d) :
    ((startedClaims (claimLog d s.start s.trace)).map (·.lease.idempotencyKey)).Nodup := by
  let Kept := fun (i : CeremonyInstance) (seen : List ClaimFact) =>
    (∀ claim ∈ startedClaims seen, claim.lease.idempotencyKey ∈ i.idempotencyKeys) ∧
      ((startedClaims seen).map (·.lease.idempotencyKey)).Nodup
  have hinitial : Kept s.start [] := by simp [Kept, startedClaims]
  refine ((s.opened.path s.run).log_invariant (I := Kept) ?_ hinitial).2
  rintro i e t seen admitted happ ⟨hkeys, hnd⟩
  have hfacts := factStep_of_execution (effects_of_admitted admitted happ).execution
  constructor
  · intro claim hmem
    rw [startedClaims_append, mem_append] at hmem
    exact hmem.elim (fun hold => hfacts.keys_mono (hkeys claim hold)) hfacts.key_mem
  · rw [startedClaims_append, map_append]
    refine nodup_append_of_length_le_one hnd ?_ ?_
    · rw [length_map]
      exact (length_filterMap_le _ _).trans hfacts.length_le_one
    · simp only [mem_map]
      rintro _ ⟨claim, hclaim, rfl⟩ ⟨earlier, hearlier, hsame⟩
      exact hfacts.fresh hclaim (hsame ▸ hkeys earlier hearlier)

/-- Along every run in which SHA-256 tells the claims apart, a claim is closed at most once, by a
result or by a deadline; it is observed as late at most once, and not at all if a result closed it;
and a result under a fence that is not the current one of its step changes no work. -/
theorem claims_close_at_most_once (opened : Opened d opening events i)
    (run : (machine d).Run (fun _ _ => True) i trace t)
    (free : CollisionFree i.id (claimLog d i trace)) :
    (∀ claim ∈ startedClaims (claimLog d i trace),
      (closings (claimLog d i trace)).count (claim.fence i.id) ≤ 1 ∧
      (lates (claimLog d i trace)).count (claim.fence i.id) ≤ 1 ∧
      (.finished (claim.fence i.id) ∈ claimLog d i trace →
        claim.fence i.id ∉ lates (claimLog d i trace))) ∧
    ∀ before command batch after s u, trace = before ++ (command, batch) :: after →
      i.applyAll (Machine.stream before) = .ok s → s.applyAll batch = .ok u →
      ∀ stepId fence, command.resultClaim = some (stepId, fence) →
        s.stepClaimFence stepId ≠ .ok fence → SameWork s u := by
  have hkept := fencesKept_of_path (opened.path run) opened.fencesKept free
  refine ⟨fun claim _ => ⟨?_, ?_, hkept.exclusive _⟩, ?_⟩
  · exact List.nodup_iff_count_le_one.mp hkept.once _
  · exact List.nodup_iff_count_le_one.mp hkept.lateOnce _
  · rintro before command batch after s u rfl hpre hbatch stepId fence hnamed hstale
    obtain ⟨-, hrest⟩ := run.split_of_fold (by rwa [machine_fold])
    obtain ⟨-, hacc, -⟩ := hrest.head
    exact sameWork_of_stale hacc hbatch hnamed hstale

/-- A draft with a millisecond to finish and two attempts. -/
def retriedDefinition : CeremonyDefinition :=
  (CeremonyDefinition.new ⟨"retried", .refl true⟩ firstVersion none [] []
    [.initial openState, .terminal doneState]
    [finishing []]
    [.new ⟨"draft", .refl true⟩ openState agentHandler .empty
      ⟨.of 2 (.refl true), .zero⟩ (some oneMillisecond)]
    [] [.of author (.step ⟨"draft", .refl true⟩) []]).get (by decide +kernel)

/-- The draft of a claim that a deadline retired, when it comes after all. -/
def overdueResult (i : CeremonyInstance) : CeremonyCommand :=
  .applyStepResult ⟨⟨"draft", .refl true⟩,
    (i.retiredDeadlineClaims.keys.head?).getD (claimFenceOf i ⟨"draft", .refl true⟩),
    completedWith .empty, .afterEpoch 2000001⟩

/-- One claim retired by its deadline and observed as late, and a second one that completed. -/
theorem retried_claims_close_once :
    ∃ (events : List CeremonyEvent) (i : CeremonyInstance)
      (trace : List (CeremonyCommand × List CeremonyEvent)) (t : CeremonyInstance),
      Opened retriedDefinition (openingOf retriedDefinition) events i ∧
      (machine retriedDefinition).Run (fun _ _ => True) i trace t ∧
      CollisionFree i.id (claimLog retriedDefinition i trace) ∧
      (startedClaims (claimLog retriedDefinition i trace)).length = 2 ∧
      (closings (claimLog retriedDefinition i trace)).length = 2 ∧
      (lates (claimLog retriedDefinition i trace)).length = 1 ∧
      ∀ claim ∈ startedClaims (claimLog retriedDefinition i trace),
        (closings (claimLog retriedDefinition i trace)).count (claim.fence i.id) ≤ 1 := by
  obtain ⟨events, i, trace, t, hopened, hrun, hfree, hstarted, hcl, hlate⟩ := exists_run_of_script
    (openingOf retriedDefinition)
    [fun _ => startAt ⟨"draft", by decide⟩ ⟨"draft-1", by decide⟩ ⟨1, by decide⟩ ⟨100, by decide⟩
        (by decide),
      fun _ => .enforceCeremonyDeadlines ⟨2000000, by decide⟩,
      overdueResult,
      fun _ => startAt ⟨"draft", by decide⟩ ⟨"draft-2", by decide⟩ ⟨2000002, by decide⟩
        ⟨2000100, by decide⟩ (by decide),
      resultAt ⟨"draft", by decide⟩ (completedWith .empty) ⟨2000003, by decide⟩]
    (fun i trace _ => CollisionFree i.id (claimLog retriedDefinition i trace) ∧
      (startedClaims (claimLog retriedDefinition i trace)).length = 2 ∧
      (closings (claimLog retriedDefinition i trace)).length = 2 ∧
      (lates (claimLog retriedDefinition i trace)).length = 1) (by decide +kernel)
  have honce := claims_close_at_most_once (d := retriedDefinition) hopened hrun hfree
  exact ⟨events, i, trace, t, hopened, hrun, hfree, hstarted, hcl, hlate,
    fun claim hclaim => (honce.1 claim hclaim).1⟩

end Made
