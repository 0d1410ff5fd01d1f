import Mathlib.Data.Fintype.Order

/-!
# Waiting for each other

A relation says who waits for whom.  Where nobody waits for itself through others, one of finitely
many waits for none of them, and can go on.
-/

namespace Waiting

open Relation

variable {α : Type} {waits cut : α → α → Prop}

/-- Nobody waits for itself, through others or not. -/
def Acyclic (waits : α → α → Prop) : Prop := ∀ a, ¬ TransGen waits a a

/-- Of finitely many, one waits for none of them. -/
theorem Acyclic.exists_free (h : Acyclic waits) {members : Finset α} (hne : members.Nonempty) :
    ∃ a ∈ members, ∀ b ∈ members, ¬ waits a b := by
  let behind : members → members → Prop := fun b a => TransGen waits a.val b.val
  have : IsTrans members behind := ⟨fun a b c hab hbc => TransGen.trans hbc hab⟩
  have : Std.Irrefl behind := ⟨fun a => h a.val⟩
  have hwf : WellFounded behind := Finite.wellFounded_of_trans_of_irrefl behind
  obtain ⟨a, ha⟩ := hne
  obtain ⟨free, -, hfree⟩ := hwf.has_min Set.univ ⟨⟨a, ha⟩, trivial⟩
  exact ⟨free.val, free.property, fun b hb hwaits => hfree ⟨b, hb⟩ trivial (.single hwaits)⟩

/-! ## Walks -/

def edges : List α → List (α × α)
  | a :: b :: rest => (a, b) :: edges (b :: rest)
  | _ => []

/-- A walk from a place to a place, over at least one edge. -/
structure Walk (waits : α → α → Prop) (a b : α) (walk : List α) : Prop where
  first : walk.head? = some a
  last : walk.getLast? = some b
  moves : edges walk ≠ []
  edges : ∀ e ∈ edges walk, waits e.1 e.2

theorem Walk.transGen {walk : List α} {a b : α} (h : Walk waits a b walk) : TransGen waits a b := by
  induction walk generalizing a with
  | nil => exact absurd h.first (by simp)
  | cons x rest ih =>
    cases rest with
    | nil => exact absurd rfl h.moves
    | cons y rest =>
      have hx : x = a := by simpa using h.first
      subst hx
      have hstep : waits x y := h.edges (x, y) (by simp [Waiting.edges])
      cases rest with
      | nil =>
        have hy : y = b := by simpa using h.last
        subst hy
        exact .single hstep
      | cons z rest =>
        refine .head hstep (ih ⟨rfl, ?_, by simp [Waiting.edges], ?_⟩)
        · simpa using h.last
        · intro e he
          exact h.edges e (by rw [Waiting.edges]; exact List.mem_cons_of_mem _ he)

theorem exists_walk {a b : α} (h : TransGen waits a b) : ∃ walk, Walk waits a b walk := by
  induction h using TransGen.head_induction_on with
  | single hstep =>
    rename_i a
    exact ⟨[a, b], rfl, rfl, by simp [edges], by simpa [edges] using hstep⟩
  | head hstep hrest ih =>
    rename_i a c
    obtain ⟨walk, hwalk⟩ := ih
    cases walk with
    | nil => exact absurd hwalk.first (by simp)
    | cons x rest =>
      have hx : x = c := by simpa using hwalk.first
      subst hx
      refine ⟨a :: x :: rest, rfl, ?_, by simp [edges], ?_⟩
      · rw [← hwalk.last]
        simp
      · rw [edges, List.forall_mem_cons]
        exact ⟨hstep, hwalk.edges⟩

/-- Cutting edges leaves nobody waiting for itself exactly when every closed walk passes one that is
cut. -/
theorem acyclic_cut_iff :
    Acyclic (fun a b => waits a b ∧ ¬ cut a b) ↔
      ∀ a walk, Walk waits a a walk → ∃ e ∈ edges walk, cut e.1 e.2 := by
  constructor
  · intro hacyc a walk hwalk
    by_contra hnone
    refine hacyc a (Walk.transGen ⟨hwalk.first, hwalk.last, hwalk.moves, fun e he => ?_⟩)
    exact ⟨hwalk.edges e he, fun hcut => hnone ⟨e, he, hcut⟩⟩
  · intro hcuts a hcycle
    obtain ⟨walk, hwalk⟩ := exists_walk hcycle
    obtain ⟨e, he, hcut⟩ := hcuts a walk
      ⟨hwalk.first, hwalk.last, hwalk.moves, fun e he => (hwalk.edges e he).1⟩
    exact (hwalk.edges e he).2 hcut

/-! ## Bounded steps -/

section Within

variable [DecidableEq α] (direct : α → Finset α)

/-- What is reached in at most `n + 1` steps. -/
def within : Nat → α → Finset α
  | 0, a => direct a
  | n + 1, a => within n a ∪ (within n a).biUnion direct

variable {direct}

theorem monotone_within (a : α) : Monotone fun n => within direct n a :=
  monotone_nat_of_le_succ fun _ => Finset.subset_union_left

theorem within_eq_empty {a : α} (h : direct a = ∅) (n : Nat) : within direct n a = ∅ := by
  induction n with
  | zero => exact h
  | succ n ih => simp [within, ih]

/-- As many steps as there are elements reach everything. -/
theorem mem_within {all : Finset α} (hall : ∀ a, direct a ⊆ all) {a b : α}
    (h : TransGen (fun a b => b ∈ direct a) a b) : b ∈ within direct all.card a := by
  have hmono : Monotone fun n => within direct n a := monotone_within a
  have hle : ∀ n, within direct n a ⊆ all := by
    intro n
    induction n with
    | zero => exact hall a
    | succ n ih => exact Finset.union_subset ih (Finset.biUnion_subset.mpr fun x _ => hall x)
  have hstable : ∀ n, (within direct n a).card = (within direct (n + 1) a).card →
      within direct (n + 1) a = within direct n a := fun n hcard =>
    (Finset.eq_of_subset_of_card_le (hmono n.le_succ) hcard.ge).symm
  have hfixed : within direct (all.card + 1) a = within direct all.card a := by
    refine hstable _ (Nat.stabilises_of_monotone (f := fun n => (within direct n a).card)
      (fun m n hmn => Finset.card_le_card (hmono hmn)) (fun n => Finset.card_le_card (hle n))
      (fun n hcard => ?_) (Nat.le_succ _)).symm
    change (within direct (n + 1) a).card =
      (within direct (n + 1) a ∪ (within direct (n + 1) a).biUnion direct).card
    rw [hstable n hcard]
    exact hcard
  induction h with
  | single h => exact hmono (Nat.zero_le _) h
  | tail _ hstep ih =>
    rw [← hfixed]
    exact Finset.mem_union_right _ (Finset.mem_biUnion.mpr ⟨_, ih, hstep⟩)

end Within

end Waiting
