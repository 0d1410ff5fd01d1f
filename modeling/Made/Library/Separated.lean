import Mathlib.Data.List.Basic
import Mathlib.Data.String.Basic
import Std.Data.String.ToInt
import Std.Data.String.ToNat

/-!
# Texts put together with separators

A text made of parts and separators can be taken apart again at a separator whose character does
not occur on one side of it.  `split` cuts at the first such separator, `splitEnd` at the last;
numbers are rendered without any of the characters used as separators.
-/

namespace Separated

open List

variable {c : Char} {a b x y : String}

theorem append_cons_inj {α : Type} {c : α} {a b x y : List α} (ha : c ∉ a) (hb : c ∉ b)
    (h : a ++ c :: x = b ++ c :: y) : a = b ∧ x = y := by
  induction a generalizing b with
  | nil =>
    cases b with
    | nil => exact ⟨rfl, (cons.inj h).2⟩
    | cons d b => exact absurd (cons.inj h).1 (ne_of_not_mem_cons hb)
  | cons d a ih =>
    cases b with
    | nil => exact absurd (cons.inj h).1.symm (ne_of_not_mem_cons ha)
    | cons e b =>
      obtain ⟨rfl, hrest⟩ := cons.inj h
      obtain ⟨rfl, rfl⟩ := ih (not_mem_of_not_mem_cons ha) (not_mem_of_not_mem_cons hb) hrest
      exact ⟨rfl, rfl⟩

/-- Parts before a separator that do not hold its first character are equal, and so are the rests. -/
theorem split {separator : String} (hseparator : separator.toList.head? = some c)
    (ha : c ∉ a.toList) (hb : c ∉ b.toList) (h : a ++ separator ++ x = b ++ separator ++ y) :
    a = b ∧ x = y := by
  obtain ⟨tail, htail⟩ := head?_eq_some_iff.mp hseparator
  have hlist := congrArg String.toList h
  simp only [String.toList_append, htail, append_assoc, cons_append] at hlist
  obtain ⟨hab, hrest⟩ := append_cons_inj ha hb hlist
  exact ⟨String.toList_inj.mp hab, String.toList_inj.mp (append_cancel_left hrest)⟩

/-- Parts after a separator that do not hold its last character are equal, and so are the rests. -/
theorem splitEnd {separator : String} (hseparator : separator.toList.getLast? = some c)
    (hx : c ∉ x.toList) (hy : c ∉ y.toList) (h : a ++ separator ++ x = b ++ separator ++ y) :
    a = b ∧ x = y := by
  obtain ⟨init, hinit⟩ := getLast?_eq_some_iff.mp hseparator
  -- Read backwards, the separator comes after its own last character.
  have hlist := congrArg (fun s => s.toList.reverse) h
  simp only [String.toList_append, hinit, reverse_append, reverse_cons,
    nil_append, append_assoc, cons_append] at hlist
  have hx' : c ∉ x.toList.reverse := by simpa using hx
  have hy' : c ∉ y.toList.reverse := by simpa using hy
  obtain ⟨hxy, hrest⟩ := append_cons_inj hx' hy' hlist
  refine ⟨String.toList_inj.mp ?_, String.toList_inj.mp (reverse_injective hxy)⟩
  exact reverse_injective (append_cancel_left hrest)

/-! ## Re-reading a joined text

A text joined at a character can be cut at another occurrence of it: a part `w` then moves from the
second half to the first one. -/

/-- `a` and `x` with a part moved from `x` to `a` are `b` and `y`. -/
def Shifted (c : Char) (a x b y : String) : Prop :=
  ∃ w, b = a ++ String.singleton c ++ w ∧ x = w ++ String.singleton c ++ y

theorem Shifted.join_eq (h : Shifted c a x b y) :
    a ++ String.singleton c ++ x = b ++ String.singleton c ++ y := by
  obtain ⟨w, rfl, rfl⟩ := h
  simp only [String.append_assoc]

theorem Shifted.ne (h : Shifted c a x b y) : a ≠ b := by
  obtain ⟨w, rfl, -⟩ := h
  intro heq
  have hlen := congrArg (fun s => s.toList.length) heq
  simp at hlen

/-- Two readings of one joined text are the same, or a part has moved one way or the other. -/
theorem join_eq_iff :
    a ++ String.singleton c ++ x = b ++ String.singleton c ++ y ↔
      (a = b ∧ x = y) ∨ Shifted c a x b y ∨ Shifted c b y a x := by
  constructor
  · intro h
    have hlist := congrArg String.toList h
    simp only [String.toList_append, String.toList_singleton, append_assoc,
      cons_append, nil_append, append_eq_append_iff] at hlist
    have shifted : ∀ {a x b y : String} (as : List Char), b.toList = a.toList ++ as →
        c :: x.toList = as ++ c :: y.toList → (a = b ∧ x = y) ∨ Shifted c a x b y := by
      intro a x b y as hb hx
      cases as with
      | nil =>
        rw [append_nil] at hb
        exact .inl ⟨(String.toList_inj.mp hb).symm, String.toList_inj.mp (cons.inj hx).2⟩
      | cons d as =>
        rw [cons_append, cons.injEq] at hx
        obtain ⟨rfl, hx⟩ := hx
        refine .inr ⟨String.ofList as, String.toList_inj.mp ?_, String.toList_inj.mp ?_⟩
        · simp [hb]
        · simp [hx]
    rcases hlist with ⟨as, hb, hx⟩ | ⟨as, ha, hy⟩
    · exact (shifted as hb hx).imp_right .inl
    · exact (shifted as ha hy).imp (fun h => ⟨h.1.symm, h.2.symm⟩) .inr
  · rintro (⟨rfl, rfl⟩ | h | h)
    · rfl
    · exact h.join_eq
    · exact h.join_eq.symm

/-! ## Rendered numbers -/

theorem isDigit_of_mem_repr {n : Nat} (h : c ∈ (toString n).toList) : c.isDigit = true := by
  have hrepr : (toString n).toList = Nat.toDigits 10 n := by
    show n.repr.toList = _
    simp [Nat.repr]
  rw [hrepr] at h
  exact Nat.isDigit_of_mem_toDigits (by decide) (by decide) h

theorem hyphen_notMem_nat (n : Nat) : '-' ∉ (toString n).toList := by
  intro h
  have hdigit := isDigit_of_mem_repr h
  revert hdigit
  decide

end Separated
