import Made.Properties.Deadlocks

/-!
# The cycle that goes round again

The analysis of a design closes the waiting relation transitively.  A run collects the compositions
to send round again one neighbour at a time: what joins waits for a member and has a member wait for
it.  Both are characterised in terms of the graph, and then compared.
-/

namespace Made

open Relation Std ExtTreeMap

namespace AgenticSystem

section Graph

variable (system : AgenticSystem)

/-- A composition names another composition, as a dependency or as the anchor of its loop. -/
def Waits (id other : SystemCeremonyId) : Prop :=
  (∃ composition, system.ceremonies[id]? = some composition ∧ other ∈ composition.predecessors) ∧
    other ∈ system.ceremonies

/-- Each of the two reaches the other by waiting. -/
def Together (id other : SystemCeremonyId) : Prop :=
  TransGen system.Waits id other ∧ TransGen system.Waits other id

/-- Compositions listed from one of them on: each of the others waits for one that comes before it,
and one that comes before it waits for it. -/
inductive Strung (id : SystemCeremonyId) : List SystemCeremonyId → Prop
  | first : Strung id [id]
  | next {members other} (h : Strung id members)
      (waits : ∃ member ∈ members, system.Waits other member)
      (waited : ∃ member ∈ members, system.Waits member other) : Strung id (members ++ [other])

/-- The composition is in a cycle, and its component can be strung together from it on. -/
def Knit (id : SystemCeremonyId) : Prop :=
  TransGen system.Waits id id ∧
    ∃ members, system.Strung id members ∧ ∀ other, system.Together id other → other ∈ members

/-- A run waits for whatever the composition names in its own component. -/
def BlocksOnItsCycle (id : SystemCeremonyId) : Prop :=
  ∀ other, system.Together id other → system.Waits id other → system.Blocks id other

end Graph

variable {system : AgenticSystem} {id other : SystemCeremonyId}

/-! ## The analysis -/

section Analysis

variable {reaches : Reaches}

theorem mem_directlyReaches : other ∈ system.directlyReaches.from_ id ↔ system.Waits id other := by
  rw [Reaches.from_, directlyReaches, getElem?_map, Waits]
  cases system.ceremonies[id]? with
  | none | some composition => simp [contains_iff_mem]

theorem from_extendAt (reaches : Reaches) (id other : SystemCeremonyId) :
    (extendAt reaches id).from_ other = if other = id then
      reaches.from_ id ∪ (reaches.from_ id).biUnion reaches.from_ else reaches.from_ other := by
  by_cases heq : other = id
  · simp [extendAt, Reaches.from_, heq]
  · simp [extendAt, Reaches.from_, heq, Map.getElem?_insert_of_ne heq]

theorem subset_extendAt (reaches : Reaches) (id other : SystemCeremonyId) :
    reaches.from_ other ⊆ (extendAt reaches id).from_ other := by
  rw [from_extendAt]
  split
  · rename_i heq
    rw [heq]
    exact Finset.subset_union_left
  · exact subset_rfl

/-- A pass keeps what is reached, and adds what is reached from there. -/
theorem subset_foldl_extendAt (id : SystemCeremonyId) (ids : List SystemCeremonyId)
    (reaches : Reaches) :
    reaches.from_ id ⊆ (ids.foldl extendAt reaches).from_ id ∧
      (id ∈ ids → ∀ step ∈ reaches.from_ id,
        reaches.from_ step ⊆ (ids.foldl extendAt reaches).from_ id) := by
  induction ids generalizing reaches with
  | nil => exact ⟨subset_rfl, nofun⟩
  | cons first ids ih =>
    obtain ⟨hkept, hadded⟩ := ih (extendAt reaches first)
    have hfirst := subset_extendAt reaches first
    refine ⟨(hfirst id).trans hkept, fun hmem step hstep => ?_⟩
    rcases List.mem_cons.mp hmem with rfl | hmem
    · refine Finset.Subset.trans ?_ hkept
      rw [from_extendAt, if_pos rfl]
      exact (Finset.subset_biUnion_of_mem _ hstep).trans Finset.subset_union_right
    · exact (hfirst step).trans (hadded hmem step (hfirst id hstep))

def IsSound (system : AgenticSystem) (reaches : Reaches) : Prop :=
  ∀ id other, other ∈ reaches.from_ id → TransGen system.Waits id other

theorem IsSound.extendReaches (h : system.IsSound reaches) :
    system.IsSound (system.extendReaches reaches) := by
  refine List.foldlRecOn (motive := system.IsSound) _ extendAt h
    fun reaches h id _ x other hmem => ?_
  rw [from_extendAt] at hmem
  split at hmem
  · rename_i heq
    subst heq
    rcases Finset.mem_union.mp hmem with hmem | hmem
    · exact h x other hmem
    · obtain ⟨step, hstep, hmem⟩ := Finset.mem_biUnion.mp hmem
      exact (h x step hstep).trans (h step other hmem)
  · exact h x other hmem

theorem IsSound.closeReaches (h : system.IsSound reaches) (turns : Nat) :
    system.IsSound (system.closeReaches turns reaches) := by
  induction turns generalizing reaches with
  | zero => exact h
  | succ turns ih =>
    rw [AgenticSystem.closeReaches]
    split
    · exact h.extendReaches
    · exact ih h.extendReaches

theorem within_subset_extendReaches {n : Nat}
    (h : ∀ id, Waiting.within system.directlyReaches.from_ n id ⊆ reaches.from_ id) :
    Waiting.within system.directlyReaches.from_ (n + 1) id ⊆
      (system.extendReaches reaches).from_ id := by
  obtain ⟨hkept, hadded⟩ := subset_foldl_extendAt id system.ceremonies.keys reaches
  intro other hmem
  rcases Finset.mem_union.mp hmem with hmem | hmem
  · exact hkept (h id hmem)
  · obtain ⟨step, hstep, hmem⟩ := Finset.mem_biUnion.mp hmem
    refine hadded (Classical.byContradiction fun habsent => ?_) step (h id hstep)
      (h step (Waiting.monotone_within step (Nat.zero_le n) hmem))
    have hnone : system.directlyReaches.from_ id = ∅ := by
      refine Finset.eq_empty_of_forall_notMem fun other ho => habsent ?_
      obtain ⟨⟨_, hcomp, -⟩, -⟩ := mem_directlyReaches.mp ho
      exact mem_keys.mpr (mem_iff_isSome_getElem?.mpr (hcomp ▸ rfl))
    rw [Waiting.within_eq_empty hnone] at hstep
    cases hstep

/-- Passes until nothing grows reach as far as their number says. -/
theorem within_subset_closeReaches {n : Nat}
    (h : ∀ id, Waiting.within system.directlyReaches.from_ n id ⊆ reaches.from_ id) (turns : Nat) :
    Waiting.within system.directlyReaches.from_ (n + turns) id ⊆
      (system.closeReaches turns reaches).from_ id := by
  induction turns generalizing n reaches with
  | zero => exact h id
  | succ turns ih =>
    rw [closeReaches]
    split
    · rename_i hsame
      have hevery : ∀ more id, Waiting.within system.directlyReaches.from_ (n + more) id ⊆
          reaches.from_ id := by
        intro more
        induction more with
        | zero => exact h
        | succ more ih => exact fun id => hsame ▸ within_subset_extendReaches ih
      rw [hsame]
      exact hevery _ id
    · rw [Nat.add_comm turns 1, ← Nat.add_assoc]
      exact ih fun id => within_subset_extendReaches h

theorem mem_reachability :
    other ∈ system.reachability.from_ id ↔ TransGen system.Waits id other := by
  constructor
  · exact IsSound.closeReaches (fun _ _ hmem => .single (mem_directlyReaches.mp hmem)) _ id other
  · intro h
    have hall : ∀ id, system.directlyReaches.from_ id ⊆ system.ceremonies.keys.toFinset :=
      fun id other hmem => List.mem_toFinset.mpr (mem_keys.mpr (mem_directlyReaches.mp hmem).2)
    have hcard : system.ceremonies.keys.toFinset.card = system.ceremonies.size := by
      rw [List.toFinset_card_of_nodup nodup_keys, length_keys]
    have hwithin := Waiting.mem_within hall (h.lift (fun a => a) fun _ _ => mem_directlyReaches.mpr)
    rw [hcard] at hwithin
    exact within_subset_closeReaches (n := 0) (fun _ => subset_rfl) _ (by rwa [Nat.zero_add])

/-- A pass starts and ends with an entry for every composition. -/
theorem mem_closeReaches (turns : Nat) (h : ∀ id, id ∈ reaches ↔ id ∈ system.ceremonies) :
    ∀ id, id ∈ system.closeReaches turns reaches ↔ id ∈ system.ceremonies := by
  induction turns generalizing reaches with
  | zero => exact h
  | succ turns ih =>
    have hpass : ∀ id, id ∈ system.extendReaches reaches ↔ id ∈ system.ceremonies := by
      refine List.foldlRecOn (motive := fun reaches : Reaches =>
        ∀ id, id ∈ reaches ↔ id ∈ system.ceremonies) _ extendAt h
          fun reaches h first hfirst id => ?_
      rw [extendAt, ExtTreeMap.mem_insert, h, LawfulEqCmp.compare_eq_iff_eq]
      refine or_iff_right_of_imp ?_
      rintro rfl
      exact mem_keys.mp hfirst
    rw [closeReaches]
    split
    · exact hpass
    · exact ih hpass

/-- The passes of the analysis end with the transitive closure, for every design. -/
theorem reachability_closes_waiting (system : AgenticSystem) (id other : SystemCeremonyId) :
    (id ∈ system.reachability ↔ id ∈ system.ceremonies) ∧
      (other ∈ system.reachability.from_ id ↔ TransGen system.Waits id other) :=
  ⟨mem_closeReaches _ (fun _ => ExtTreeMap.mem_map) id, mem_reachability⟩

/-- The cycle of the analysis is the component of mutual waiting. -/
theorem mem_reachability_cycleOf :
    other ∈ system.reachability.cycleOf id ↔ system.Together id other := by
  rw [Together, ← mem_reachability, ← mem_reachability, Reaches.cycleOf]
  generalize system.reachability = reaches
  cases hid : reaches[id]? with
  | none => simp [Reaches.from_, hid]
  | some fromId =>
    cases ho : reaches[other]? <;>
      simp [Reaches.from_, hid, ho, mem_toList_iff_getElem?_eq_some]

end Analysis

/-! ## What goes round -/

section Growth

variable {members : List SystemCeremonyId} {composition : CeremonyComposition}

theorem joins_iff (hmembers : ∀ member ∈ members, member ∈ system.ceremonies)
    (h : system.ceremonies[id]? = some composition) :
    system.joins members id composition = true ↔ (∃ member ∈ members, system.Waits id member) ∧
        ∃ member ∈ members, system.Waits member id := by
  have hid : id ∈ system.ceremonies := mem_iff_isSome_getElem?.mpr (h ▸ rfl)
  have hnames : ∀ composition : CeremonyComposition, ∀ other, other ∈ composition.predecessors ↔
      other ∈ composition.dependsOn ∨ composition.activation.loopsAfter = some other := by
    simp [CeremonyComposition.predecessors]
  rw [joins, Bool.and_eq_true]
  refine and_congr ?_ ?_
  · simp only [Waits, h, hnames, Option.some.injEq, exists_eq_left', Bool.or_eq_true,
      List.any_eq_true, Option.any_eq_true, decide_eq_true_eq]
    constructor
    · rintro (⟨member, hname, hmem⟩ | ⟨member, hname, hmem⟩)
      · exact ⟨member, hmem, .inl hname, hmembers member hmem⟩
      · exact ⟨member, hmem, .inr hname, hmembers member hmem⟩
    · rintro ⟨member, hmem, hname | hname, -⟩
      · exact .inl ⟨member, hname, hmem⟩
      · exact .inr ⟨member, hname, hmem⟩
  · simp [Waits, hnames, hid, Option.any_eq_true]

/-- Members are added that the system composes, strung to those before. -/
structure Grown (system : AgenticSystem) (before after : List SystemCeremonyId) : Prop where
  front : before <+: after
  nodup : before.Nodup → after.Nodup
  composed : (∀ member ∈ before, member ∈ system.ceremonies) →
    ∀ member ∈ after, member ∈ system.ceremonies
  strung : (∀ member ∈ before, member ∈ system.ceremonies) → ∀ id, system.Strung id before →
    system.Strung id after

theorem Grown.refl (members : List SystemCeremonyId) : Grown system members members :=
  ⟨List.prefix_rfl, fun h => h, fun h => h, fun _ _ h => h⟩

theorem Grown.trans {before mid after : List SystemCeremonyId} (h : Grown system before mid)
    (h' : Grown system mid after) : Grown system before after :=
  ⟨h.front.trans h'.front, fun hnd => h'.nodup (h.nodup hnd),
    fun hcomp => h'.composed (h.composed hcomp), fun hcomp id hstrung =>
      h'.strung (h.composed hcomp) id (h.strung hcomp id hstrung)⟩

theorem Grown.join (h : system.ceremonies[id]? = some composition) (hnew : id ∉ members)
    (hjoins : system.joins members id composition = true) :
    Grown system members (members ++ [id]) := by
  refine ⟨List.prefix_append _ _, fun hnd => ?_, fun hcomp => ?_, fun hcomp first hstrung => ?_⟩
  · exact List.nodup_append'.mpr ⟨hnd, List.nodup_singleton id, by simpa using hnew⟩
  · exact List.forall_mem_append.mpr ⟨hcomp, by
      simpa using mem_iff_isSome_getElem?.mpr (h ▸ rfl)⟩
  · obtain ⟨hwaits, hwaited⟩ := (joins_iff hcomp h).mp hjoins
    exact hstrung.next hwaits hwaited

/-- Who joins is added, and a pass that leaves the members alone has found nobody. -/
theorem foldl_join_spec {entries : List (SystemCeremonyId × CeremonyComposition)}
    (hentries : ∀ entry ∈ entries, system.ceremonies[entry.1]? = some entry.2)
    (members : List SystemCeremonyId) :
    Grown system members (entries.foldl system.join members) ∧
      (entries.foldl system.join members = members → ∀ entry ∈ entries, entry.1 ∉ members →
        ¬ system.joins members entry.1 entry.2) := by
  induction entries generalizing members with
  | nil => exact ⟨.refl members, by simp⟩
  | cons entry entries ih =>
    rw [List.forall_mem_cons] at hentries
    obtain ⟨hgrown, hidle⟩ := ih hentries.2 (system.join members entry)
    rw [List.foldl_cons]
    unfold join at hgrown hidle ⊢
    split at hgrown
    · rename_i hmem
      rw [if_pos hmem] at hidle ⊢
      exact ⟨hgrown, fun hsame => List.forall_mem_cons.mpr ⟨absurd hmem, hidle hsame⟩⟩
    · rename_i hnew
      rw [if_neg hnew] at hidle ⊢
      split at hgrown
      · rename_i hjoins
        rw [if_pos hjoins] at hidle ⊢
        refine ⟨(Grown.join hentries.1 hnew hjoins).trans hgrown, fun hsame => ?_⟩
        have hlonger := hgrown.front.length_le
        rw [hsame, List.length_append, List.length_singleton] at hlonger
        omega
      · rename_i hjoins
        rw [if_neg hjoins] at hidle ⊢
        exact ⟨hgrown, fun hsame => List.forall_mem_cons.mpr ⟨fun _ => hjoins, hidle hsame⟩⟩

/-- Nothing outside waits for a member and has a member wait for it. -/
def IsClosed (system : AgenticSystem) (members : Set SystemCeremonyId) : Prop :=
  ∀ other, (∃ member ∈ members, system.Waits other member) →
    (∃ member ∈ members, system.Waits member other) → other ∈ members

theorem Strung.subset (h : system.Strung id members) {S : Set SystemCeremonyId} (hid : id ∈ S)
    (hS : system.IsClosed S) : ∀ member ∈ members, member ∈ S := by
  induction h with
  | first => simpa using hid
  | next _ waits waited ih =>
    obtain ⟨member, hmem, hwaits⟩ := waits
    obtain ⟨member', hmem', hwaited⟩ := waited
    refine List.forall_mem_append.mpr ⟨ih, ?_⟩
    simpa using hS _ ⟨member, ih member hmem, hwaits⟩ ⟨member', ih member' hmem', hwaited⟩

/-- With turns enough the passes end with a closed set. -/
theorem growAll_spec (turns : Nat) (hcomp : ∀ member ∈ members, member ∈ system.ceremonies)
    (hnd : members.Nodup) (henough : system.ceremonies.size < members.length + turns) :
    Grown system members (system.growAll turns members) ∧
      system.IsClosed {member | member ∈ system.growAll turns members} := by
  induction turns generalizing members with
  | zero =>
    have hsub := hnd.subperm fun member hmem =>
      mem_keys.mpr (hcomp member hmem)
    have hle := hsub.length_le
    rw [length_keys] at hle
    omega
  | succ turns ih =>
    have hpass : Grown system members (system.grow members) ∧ (system.grow members = members → _) :=
      foldl_join_spec (fun _ => mem_toList_iff_getElem?_eq_some.mp) members
    obtain ⟨hgrown, hidle⟩ := hpass
    rw [growAll]
    split
    · rename_i hlen
      have hsame : system.grow members = members := (hgrown.front.eq_of_length hlen.symm).symm
      rw [hsame]
      refine ⟨.refl members, fun other htouches hreached => ?_⟩
      obtain ⟨_, _, ⟨composition, ho, _⟩, _⟩ := id htouches
      refine Classical.byContradiction fun hnew => hidle hsame (other, composition)
        (mem_toList_iff_getElem?_eq_some.mpr ho) hnew ?_
      exact (joins_iff hcomp ho).mpr ⟨htouches, hreached⟩
    · rename_i hlen
      have hle := hgrown.front.length_le
      obtain ⟨hgrown', hclosed'⟩ := ih (hgrown.composed hcomp) (hgrown.nodup hnd) (by omega)
      exact ⟨hgrown.trans hgrown', hclosed'⟩

/-- What goes round with a composition is strung together from it on, and holds all that is. -/
theorem exists_strung_cycleOf (h : id ∈ system.ceremonies) :
    ∃ round, system.Strung id round ∧ (∀ other, other ∈ cycleOf system id ↔ other ∈ round) ∧
      system.IsClosed {other | other ∈ round} := by
  have hcomp : ∀ member ∈ [id], member ∈ system.ceremonies := by simpa using h
  obtain ⟨hgrown, hcl⟩ := growAll_spec (system.ceremonies.size + 1) hcomp
    (List.nodup_singleton id) (by rw [List.length_singleton]; omega)
  refine ⟨_, hgrown.strung hcomp id .first, fun other => ?_, hcl⟩
  rw [cycleOf, List.mem_filter, decide_eq_true_eq, mem_keys]
  exact and_iff_right_of_imp (hgrown.composed hcomp other)

end Growth

theorem isClosed_together (h : TransGen system.Waits id id) :
    id ∈ {other | system.Together id other} ∧
      system.IsClosed {other | system.Together id other} := by
  refine ⟨⟨h, h⟩, ?_⟩
  rintro other ⟨member, hmember, hwaits⟩ ⟨member', hmember', hwaits'⟩
  exact ⟨hmember'.1.tail hwaits', .head hwaits hmember.2⟩

end AgenticSystem

namespace CircularWork

open ReviewedWork (composition lead)

/-- The polish waits for the check, and the draft that the check goes back to waits for the polish. -/
def longWay : AgenticSystem :=
  (AgenticSystem.draft lead [⟨lead, .integrator⟩] [⟨⟨"ana", .refl true⟩, lead, ⟨[], none⟩⟩] [] ∅
    [composition draft [polish] .afterDependencies, composition polish [check] .afterDependencies,
      composition check [] (.loop draft (.of 2 (.refl true)))]
    ⟨[], [], ∅⟩).toOption.get (by decide +kernel)

end CircularWork

end Made
