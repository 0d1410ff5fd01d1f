import Made.Library.Outcome
import Mathlib.Algebra.BigOperators.Group.List.Basic
import Mathlib.Algebra.GroupWithZero.Nat
import Mathlib.Data.List.Nodup
import Mathlib.Logic.Function.Basic
import Std.Data.ExtTreeMap

/-!
# Bounded counters and totals over ordered maps

A bank of 64-bit counters that grow by checked additions, one after another, and the exact total of
a weight over the values of an ordered map.
-/

namespace Counters

open Std ExtTreeMap

/-! ## Checked additions -/

def checkedAdd (a b : UInt64) : Option UInt64 :=
  if a.toNat + b.toNat < 2 ^ 64 then some (a + b) else none

theorem checkedAdd_eq_some {a b c : UInt64} :
    checkedAdd a b = some c ↔ c.toNat = a.toNat + b.toNat := by
  unfold checkedAdd
  constructor
  · intro h
    split at h
    · cases h
      rw [UInt64.toNat_add, Nat.mod_eq_of_lt (by assumption)]
    · cases h
  · intro h
    have hfits : a.toNat + b.toNat < 2 ^ 64 := h ▸ c.toNat_lt
    rw [if_pos hfits, Option.some.injEq, ← UInt64.toNat_inj, UInt64.toNat_add,
      Nat.mod_eq_of_lt hfits, h]

/-! ## Banks of counters -/

section Banks

variable {ι : Type} [DecidableEq ι]

def bump (counters : ι → UInt64) (index : ι) (value : UInt64) : Option (ι → UInt64) :=
  (checkedAdd (counters index) value).map (Function.update counters index)

/-- A run of additions, stopped by the first one that overflows. -/
def bumpAll (counters : ι → UInt64) : List (ι × UInt64) → Option (ι → UInt64)
  | [] => some counters
  | charge :: rest => (bump counters charge.1 charge.2).bind fun next => bumpAll next rest

theorem bumpAll_append (counters : ι → UInt64) (first second : List (ι × UInt64)) :
    bumpAll counters (first ++ second) =
      (bumpAll counters first).bind fun next => bumpAll next second := by
  induction first generalizing counters with
  | nil => rfl
  | cons charge rest ih =>
    rw [List.cons_append, bumpAll, bumpAll, Option.bind_assoc]
    exact congrArg _ (funext fun next => ih next)

/-- A loop whose every round is a run of additions, refused with one error throughout. -/
theorem foldlM_eq_bumpAll {α ε : Type} {error : ε} {charges : α → List (ι × UInt64)}
    {round : (ι → UInt64) → α → Outcome ε (ι → UInt64)}
    (each : ∀ counters a, round counters a = Outcome.okOr (bumpAll counters (charges a)) error)
    (rounds : List α) (counters : ι → UInt64) :
    rounds.foldlM round counters =
      Outcome.okOr (bumpAll counters (rounds.flatMap charges)) error := by
  induction rounds generalizing counters with
  | nil => rfl
  | cons a rest ih =>
    rw [List.foldlM_cons, List.flatMap_cons, bumpAll_append, each]
    cases bumpAll counters (charges a) with
    | none => rfl
    | some next => exact ih next

def due (charges : List (ι × UInt64)) (index : ι) : Nat :=
  (charges.map fun charge => if charge.1 = index then charge.2.toNat else 0).sum

@[simp] theorem due_nil (index : ι) : due [] index = 0 := rfl

@[simp] theorem due_cons (charge : ι × UInt64) (rest : List (ι × UInt64)) (index : ι) :
    due (charge :: rest) index =
      (if charge.1 = index then charge.2.toNat else 0) + due rest index := by
  simp [due]

@[simp] theorem due_append (first second : List (ι × UInt64)) (index : ι) :
    due (first ++ second) index = due first index + due second index := by
  simp [due]

theorem due_flatMap {α : Type} (l : List α) (charges : α → List (ι × UInt64)) (index : ι) :
    due (l.flatMap charges) index = (l.map fun a => due (charges a) index).sum := by
  induction l with
  | nil => rfl
  | cons a rest ih => rw [List.flatMap_cons, due_append, ih, List.map_cons, List.sum_cons]

theorem bump_eq_some {counters next : ι → UInt64} {index : ι} {value : UInt64} :
    bump counters index value = some next ↔
      ∀ i, (next i).toNat = (counters i).toNat + if index = i then value.toNat else 0 := by
  simp only [bump, Option.map_eq_some_iff, checkedAdd_eq_some]
  constructor
  · rintro ⟨sum, hsum, rfl⟩ i
    by_cases hi : index = i
    · subst hi
      simpa using hsum
    · rw [Function.update_of_ne (Ne.symm hi), if_neg hi, Nat.add_zero]
  · intro h
    refine ⟨next index, by simpa using h index, funext fun i => ?_⟩
    by_cases hi : index = i
    · rw [hi, Function.update_self]
    · rw [Function.update_of_ne (Ne.symm hi), ← UInt64.toNat_inj, h i, if_neg hi, Nat.add_zero]

theorem bumpAll_eq_some {counters final : ι → UInt64} {charges : List (ι × UInt64)} :
    bumpAll counters charges = some final ↔
      ∀ i, (final i).toNat = (counters i).toNat + due charges i := by
  induction charges generalizing counters with
  | nil =>
    simp only [bumpAll, Option.some.injEq, due_nil, Nat.add_zero, UInt64.toNat_inj]
    exact ⟨fun h i => congrFun h.symm i, fun h => (funext h).symm⟩
  | cons charge rest ih =>
    simp only [bumpAll, Option.bind_eq_some_iff, ih, bump_eq_some, due_cons]
    constructor
    · rintro ⟨next, hnext, hfinal⟩ i
      rw [hfinal i, hnext i, Nat.add_assoc]
    · intro hfinal
      -- The intermediate bank fits because the final one does.
      have hfits : ∀ i, (counters i).toNat + (if charge.1 = i then charge.2.toNat else 0) <
          2 ^ 64 := by
        intro i
        have := (final i).toNat_lt
        have := hfinal i
        omega
      refine ⟨fun i => UInt64.ofNat
        ((counters i).toNat + if charge.1 = i then charge.2.toNat else 0), ?_, ?_⟩
      · intro i
        exact UInt64.toNat_ofNat_of_lt' (hfits i)
      · intro i
        rw [UInt64.toNat_ofNat_of_lt' (hfits i), hfinal i, Nat.add_assoc]

end Banks

/-! ## Totals over the values of a map -/

section Totals

variable {κ ν : Type} [Ord κ] [Std.TransOrd κ]

def total (map : Std.ExtTreeMap κ ν) (weight : ν → Nat) : Nat :=
  (map.toList.map fun entry => weight entry.2).sum

theorem nodup_toList (map : Std.ExtTreeMap κ ν) : map.toList.Nodup :=
  List.Nodup.of_map Prod.fst (by simpa using nodup_keys)

variable [Std.LawfulEqOrd κ]

theorem toList_insert_perm (map : Std.ExtTreeMap κ ν) (key : κ) (value : ν) :
    (map.insert key value).toList.Perm ((key, value) :: (map.erase key).toList) := by
  have hfresh : (key, value) ∉ (map.erase key).toList := by
    simp [mem_toList_iff_getElem?_eq_some]
  rw [List.perm_ext_iff_of_nodup (nodup_toList _) (List.nodup_cons.mpr ⟨hfresh, nodup_toList _⟩)]
  rintro ⟨k, v⟩
  rw [List.mem_cons, mem_toList_iff_getElem?_eq_some,
    mem_toList_iff_getElem?_eq_some, getElem?_insert,
    getElem?_erase, Prod.mk.injEq]
  by_cases hk : compare key k = .eq
  · have : key = k := Std.LawfulEqOrd.eq_of_compare hk
    simp [this, eq_comm]
  · have : k ≠ key := fun h => hk (h ▸ Std.ReflOrd.compare_self)
    simp [hk, this]

theorem total_insert (map : Std.ExtTreeMap κ ν) (key : κ) (value : ν) (weight : ν → Nat) :
    total (map.insert key value) weight = total (map.erase key) weight + weight value := by
  have hperm := (toList_insert_perm map key value).map fun entry => weight entry.2
  rw [total, hperm.sum_eq, List.map_cons, List.sum_cons, Nat.add_comm]
  rfl

theorem total_erase_of_none {map : Std.ExtTreeMap κ ν} {key : κ} (h : map[key]? = none)
    (weight : ν → Nat) : total (map.erase key) weight = total map weight := by
  have hsame : map.erase key = map := by
    apply ext_getElem?
    intro k
    rw [getElem?_erase]
    split
    · rename_i hk
      rw [← Std.LawfulEqOrd.eq_of_compare hk, h]
    · rfl
  rw [hsame]

end Totals

end Counters
