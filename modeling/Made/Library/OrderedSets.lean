import Std.Data.ExtTreeMap

/-!
# Sets in order

A set that is iterated in the order of its elements is a list: sorted, and without repeats.
`listed l` lists the elements of `l` in that way, so that two lists with the same elements are
listed alike.
-/

namespace OrderedSets

variable {α : Type} [Ord α] [Std.TransOrd α]

def keyed (l : List α) : Std.ExtTreeMap α Unit := l.foldl (fun m x => m.insert x ()) ∅

def listed (l : List α) : List α := (keyed l).keys

variable [Std.LawfulEqOrd α]

theorem mem_foldl_insert {l : List α} {m : Std.ExtTreeMap α Unit} {x : α} :
    x ∈ l.foldl (fun m x => m.insert x ()) m ↔ x ∈ m ∨ x ∈ l := by
  induction l generalizing m with
  | nil => simp
  | cons y l ih =>
    rw [List.foldl_cons, ih, Std.ExtTreeMap.mem_insert, Std.LawfulEqCmp.compare_eq_iff_eq,
      List.mem_cons]
    constructor
    · rintro ((rfl | hm) | hl)
      · exact .inr (.inl rfl)
      · exact .inl hm
      · exact .inr (.inr hl)
    · rintro (hm | rfl | hl)
      · exact .inl (.inr hm)
      · exact .inl (.inl rfl)
      · exact .inr hl

theorem mem_keyed {l : List α} {x : α} : x ∈ keyed l ↔ x ∈ l := by
  rw [keyed, mem_foldl_insert]
  simp

@[simp] theorem mem_listed {l : List α} {x : α} : x ∈ listed l ↔ x ∈ l := by
  rw [listed, Std.ExtTreeMap.mem_keys, mem_keyed]

end OrderedSets
