import Made.Definition.Analysis
import Mathlib.Data.List.Perm.Subperm
import Mathlib.Logic.Relation
import Mathlib.Order.Antisymmetrization

/-!
# Components of a definition

The analysis of a definition looks for cycles in its graph.  A worklist finds what is reached from a
state; the states that are reached from it and reach it are its component, and a state that stands
in a component already is not looked at again.
-/

namespace Made

open Relation List CeremonyDefinitionParts

variable (transitions : List CeremonyTransition)

def Moves (a b : StateId) : Prop := ∃ t ∈ transitions, t.from_ = a ∧ t.to_ = b

/-- Each of the two states is reached from the other. -/
abbrev Connected : StateId → StateId → Prop := AntisymmRel (ReflTransGen (Moves transitions))

/-- The component of a state that is not alone in it, or that a transition leads back to. -/
def IsCyclic (a : StateId) : Prop := (∃ b ≠ a, Connected transitions a b) ∨ Moves transitions a a

/-! ## The worklist -/

/-- The search as a loop that ends when nothing is pending. -/
inductive Searched : List StateId → List StateId → List StateId → Prop
  | done (reached : List StateId) : Searched reached [] reached
  | known {reached pending result : List StateId} {a : StateId} (known : a ∈ reached)
      (rest : Searched reached pending result) : Searched reached (a :: pending) result
  | fresh {reached pending result : List StateId} {a : StateId} (fresh : a ∉ reached)
      (rest : Searched (a :: reached)
        (((transitions.filter (·.from_ = a)).map (·.to_)).reverse ++ pending) result) :
      Searched reached (a :: pending) result

variable {transitions} {a b : StateId} {reached pending result : List StateId}

/-- The pending states and the transitions out of unknown ones bound the turns that are left. -/
theorem searched_reachLoop (fuel : Nat)
    (h : pending.length + (transitions.filter (·.from_ ∉ reached)).length ≤ fuel) :
    Searched transitions reached pending (reachLoop transitions fuel reached pending) := by
  induction fuel generalizing reached pending with
  | zero =>
    have hnil : pending = [] := eq_nil_of_length_eq_zero (by omega)
    subst hnil
    exact .done reached
  | succ fuel ih =>
    cases pending with
    | nil => exact .done reached
    | cons a pending =>
      rw [length_cons] at h
      rw [reachLoop]
      by_cases hknown : a ∈ reached
      · rw [if_pos (contains_iff_mem.mpr hknown)]
        exact .known hknown (ih (by omega))
      · rw [if_neg (by simpa using hknown)]
        refine .fresh hknown (ih ?_)
        -- The transitions out of the state are no longer counted, and their ends are pending.
        have hsplit := length_eq_length_filter_add
          (l := transitions.filter (·.from_ ∉ reached)) (·.from_ = a)
        have hown : (transitions.filter (·.from_ ∉ reached)).filter (·.from_ = a) =
            transitions.filter (·.from_ = a) := by
          rw [filter_filter]
          exact filter_congr fun t _ => by grind
        have hrest : (transitions.filter (·.from_ ∉ reached)).filter
            (fun t => !decide (t.from_ = a)) = transitions.filter (·.from_ ∉ a :: reached) := by
          rw [filter_filter]
          exact filter_congr fun t _ => by grind
        rw [hown, hrest] at hsplit
        rw [length_append, length_reverse, length_map]
        omega

theorem searched_reachableFrom (transitions : List CeremonyTransition) (a : StateId) :
    Searched transitions [] [a] (reachableFrom transitions a) :=
  searched_reachLoop _ (by simp [Nat.add_comm])

/-- By induction on the search: what is found lies in every set that is closed under moves. -/
theorem Searched.sound (h : Searched transitions reached pending result) {P : StateId → Prop}
    (hmoves : ∀ t ∈ transitions, P t.from_ → P t.to_) (hreached : ∀ a ∈ reached, P a)
    (hpending : ∀ a ∈ pending, P a) : ∀ a ∈ result, P a := by
  induction h with
  | done => exact hreached
  | known _ _ ih => exact ih hreached (forall_mem_cons.mp hpending).2
  | @fresh _ _ _ a _ _ ih =>
    obtain ⟨ha, hrest⟩ := forall_mem_cons.mp hpending
    refine ih (forall_mem_cons.mpr ⟨ha, hreached⟩) (forall_mem_append.mpr ⟨fun b hb => ?_, hrest⟩)
    simp only [mem_reverse, mem_map, mem_filter, decide_eq_true_eq] at hb
    obtain ⟨t, ⟨ht, rfl⟩, rfl⟩ := hb
    exact hmoves t ht ha

/-- What is found is closed under moves when what is known leads to what is known or pending. -/
theorem Searched.closed (h : Searched transitions reached pending result)
    (hmoves : ∀ t ∈ transitions, t.from_ ∈ reached → t.to_ ∈ reached ∨ t.to_ ∈ pending)
    (hnodup : reached.Nodup) :
    (∀ a, a ∈ reached ∨ a ∈ pending → a ∈ result) ∧
      (∀ t ∈ transitions, t.from_ ∈ result → t.to_ ∈ result) ∧ result.Nodup := by
  induction h with
  | done => exact ⟨by simp, by simpa using hmoves, hnodup⟩
  | known hknown _ ih =>
    obtain ⟨hsub, hclosed⟩ := ih (fun t ht hfrom => by grind) hnodup
    exact ⟨fun a ha => hsub a (by grind), hclosed⟩
  | fresh hfresh _ ih =>
    obtain ⟨hsub, hclosed⟩ := ih (fun t ht hfrom => by
      simp only [mem_append, mem_reverse, mem_map, mem_filter, decide_eq_true_eq]
      grind) (nodup_cons.mpr ⟨hfresh, hnodup⟩)
    exact ⟨fun a ha => hsub a (by grind), hclosed⟩

theorem reachableFrom_spec (transitions : List CeremonyTransition) (a : StateId) :
    (∀ b, b ∈ reachableFrom transitions a ↔ ReflTransGen (Moves transitions) a b) ∧
      (reachableFrom transitions a).Nodup := by
  have hsearched := searched_reachableFrom transitions a
  obtain ⟨hstart, hclosed, hnodup⟩ := hsearched.closed (by simp) nodup_nil
  refine ⟨fun b => ⟨?_, fun h => ?_⟩, hnodup⟩
  · exact hsearched.sound (fun t ht h => h.tail ⟨t, ht, rfl, rfl⟩) (by simp)
      (by simp [ReflTransGen.refl]) b
  · induction h with
    | refl => exact hstart a (by simp)
    | tail _ hmove ih =>
      obtain ⟨t, ht, rfl, rfl⟩ := hmove
      exact hclosed t ht ih

/-! ## The components -/

def componentOf (transitions : List CeremonyTransition) (a : StateId) : List StateId :=
  (reachableFrom transitions a).filter fun b => (reachableFrom transitions b).contains a

theorem mem_componentOf : b ∈ componentOf transitions a ↔ Connected transitions a b := by
  rw [componentOf, mem_filter, contains_iff_mem, (reachableFrom_spec transitions a).1,
    (reachableFrom_spec transitions b).1]
  rfl

theorem nodup_componentOf (transitions : List CeremonyTransition) (a : StateId) :
    (componentOf transitions a).Nodup :=
  (reachableFrom_spec transitions a).2.filter _

/-- A component is listed when it has a second member, or a transition back to its only one. -/
theorem cyclic_componentOf (transitions : List CeremonyTransition) (a : StateId) :
    (1 < (componentOf transitions a).length || ((componentOf transitions a).length == 1 &&
      transitions.any fun t => decide (t.from_ = a) && decide (t.to_ = a))) = true ↔
        IsCyclic transitions a := by
  have hmem : a ∈ componentOf transitions a := mem_componentOf.mpr .rfl
  have hloop : (transitions.any fun t => decide (t.from_ = a) && decide (t.to_ = a)) = true ↔
      Moves transitions a a := by simp [Moves]
  have hmore : 1 < (componentOf transitions a).length ↔ ∃ b ≠ a, Connected transitions a b := by
    simp only [← mem_componentOf]
    refine ⟨fun hlen => ?_, fun ⟨b, hne, hb⟩ => ?_⟩
    · by_contra hnone
      have hall : ∀ b ∈ componentOf transitions a, b = a := fun b hb =>
        by_contra fun hne => hnone ⟨b, hne, hb⟩
      have hnodup := nodup_componentOf transitions a
      rw [eq_replicate_of_mem hall, nodup_replicate] at hnodup
      omega
    · have hpair : [a, b].Nodup := by simpa using hne.symm
      exact (subperm_of_subset hpair (by simp [hmem, hb])).length_le
  have hpos := length_pos_of_mem hmem
  rw [Bool.or_eq_true, Bool.and_eq_true, hloop, decide_eq_true_eq, hmore, beq_iff_eq, IsCyclic]
  refine ⟨Or.imp_right And.right, fun h => ?_⟩
  by_cases hlen : 1 < (componentOf transitions a).length
  · exact .inl (hmore.mp hlen)
  · exact h.imp_right fun hloop => ⟨by omega, hloop⟩

/-- By induction on the states: one state stands for each component that is listed, and a state
that is passed over stands in a component that was looked at before. -/
theorem cyclicComponents_eq_map (transitions : List CeremonyTransition)
    (assigned states : List StateId) :
    ∃ found : List StateId,
      cyclicComponents transitions assigned states = found.map (componentOf transitions) ∧
      (∀ a ∈ found, IsCyclic transitions a ∧ a ∉ assigned) ∧
      found.Pairwise (fun a b => ¬ Connected transitions a b) ∧
      ∀ b ∈ states, b ∉ assigned → IsCyclic transitions b →
        ∃ a ∈ found, Connected transitions a b := by
  induction states generalizing assigned with
  | nil => exact ⟨[], rfl, by simp⟩
  | cons a states ih =>
    rw [cyclicComponents]
    by_cases hknown : a ∈ assigned
    · obtain ⟨found, heq, hfound, hapart, hall⟩ := ih assigned
      rw [if_pos (contains_iff_mem.mpr hknown)]
      exact ⟨found, heq, hfound, hapart, forall_mem_cons.mpr ⟨absurd hknown, hall⟩⟩
    · obtain ⟨found, heq, hfound, hapart, hall⟩ := ih (componentOf transitions a ++ assigned)
      simp only [mem_append, mem_componentOf, not_or] at hfound hall
      have hothers : ∀ b ∈ a :: states, ¬ Connected transitions a b → b ∉ assigned →
          IsCyclic transitions b → ∃ c ∈ found, Connected transitions c b := by
        intro b hb hout hnew
        rcases mem_cons.mp hb with rfl | hb
        · exact absurd .rfl hout
        · exact hall b hb ⟨hout, hnew⟩
      have hcyclic := cyclic_componentOf transitions a
      rw [if_neg (by simpa using hknown)]
      dsimp only
      split
      · next hlisted =>
        refine ⟨a :: found, congrArg (_ :: ·) heq, ?_, ?_, fun b hb hnew hb' => ?_⟩
        · exact forall_mem_cons.mpr ⟨⟨hcyclic.mp hlisted, hknown⟩, fun b hb =>
            ⟨(hfound b hb).1, (hfound b hb).2.2⟩⟩
        · exact pairwise_cons.mpr ⟨fun b hb => (hfound b hb).2.1, hapart⟩
        · by_cases hin : Connected transitions a b
          · exact ⟨a, mem_cons_self, hin⟩
          · obtain ⟨c, hc, hcb⟩ := hothers b hb hin hnew hb'
            exact ⟨c, mem_cons_of_mem _ hc, hcb⟩
      · next hnone =>
        refine ⟨found, heq, fun b hb => ⟨(hfound b hb).1, (hfound b hb).2.2⟩, hapart,
          fun b hb hnew hb' => hothers b hb (fun hin => ?_) hnew hb'⟩
        refine mt hcyclic.mpr hnone ?_
        by_cases hsame : b = a
        · exact hsame ▸ hb'
        · exact .inl ⟨b, hsame, hin⟩

/-- In a definition whose transitions lead from states to states: the search ends, and what the
analysis lists are the components with a cycle, each once. -/
theorem cyclic_components_are_listed (states : Map StateId CeremonyState)
    (transitions : List CeremonyTransition)
    (hends : ∀ t ∈ transitions, t.from_ ∈ states ∧ t.to_ ∈ states) :
    (∀ a, Searched transitions [] [a] (reachableFrom transitions a)) ∧
      (∀ C : Set StateId, (∃ c ∈ cyclicComponents transitions [] states.keys, C = {a | a ∈ c}) ↔
        ∃ a, IsCyclic transitions a ∧ C = {b | Connected transitions a b}) ∧
      (cyclicComponents transitions [] states.keys).Pairwise Disjoint ∧
      ∀ c ∈ cyclicComponents transitions [] states.keys, c.Nodup := by
  obtain ⟨found, heq, hfound, hapart, hall⟩ := cyclicComponents_eq_map transitions [] states.keys
  have hset : ∀ a, {b | b ∈ componentOf transitions a} = {b | Connected transitions a b} :=
    fun a => Set.ext fun b => mem_componentOf
  have hstate : ∀ a, IsCyclic transitions a → a ∈ states := by
    intro a hcyclic
    have hmove : ∃ b, Moves transitions a b := by
      rcases hcyclic with ⟨b, hne, hab, -⟩ | hloop
      · rcases hab.cases_head with heq | ⟨c, hac, -⟩
        · exact absurd heq.symm hne
        · exact ⟨c, hac⟩
      · exact ⟨a, hloop⟩
    obtain ⟨_, t, ht, rfl, -⟩ := hmove
    exact (hends t ht).1
  rw [heq]
  refine ⟨searched_reachableFrom transitions, fun C => ⟨?_, ?_⟩, ?_, ?_⟩
  · rintro ⟨_, hc, rfl⟩
    obtain ⟨a, ha, rfl⟩ := mem_map.mp hc
    exact ⟨a, (hfound a ha).1, hset a⟩
  · rintro ⟨b, hcyclic, rfl⟩
    obtain ⟨a, ha, hab⟩ := hall b (Std.ExtTreeMap.mem_keys.mpr (hstate b hcyclic)) (by simp) hcyclic
    refine ⟨_, mem_map_of_mem ha, (Set.ext fun c => ?_).trans (hset a).symm⟩
    exact ⟨fun h => hab.trans h, fun h => hab.symm.trans h⟩
  · refine pairwise_map.mpr (hapart.imp fun {a b} hne => ?_)
    intro c hc hc'
    exact hne ((mem_componentOf.mp hc).trans (mem_componentOf.mp hc').symm)
  · exact forall_mem_map.mpr fun a _ => nodup_componentOf transitions a

def backAndForth : Map StateId CeremonyState × List CeremonyTransition :=
  (((∅ : Map StateId CeremonyState).insert ⟨"a", .refl true⟩ (.initial ⟨"a", .refl true⟩)).insert
      ⟨"b", .refl true⟩ (.initial ⟨"b", .refl true⟩),
    [⟨⟨"a", .refl true⟩, ⟨"b", .refl true⟩, ⟨"go", .refl true⟩, []⟩,
      ⟨⟨"b", .refl true⟩, ⟨"a", .refl true⟩, ⟨"return", .refl true⟩, []⟩])

theorem back_and_forth_is_listed_once :
    (cyclicComponents backAndForth.2 [] backAndForth.1.keys).length = 1 ∧
      ∀ c ∈ cyclicComponents backAndForth.2 [] backAndForth.1.keys, c.Nodup :=
  ⟨by decide +kernel, (cyclic_components_are_listed backAndForth.1 backAndForth.2
    (by decide +kernel)).2.2.2⟩

end Made
