import Made.Library.Framing
import Made.Library.Separated
import Mathlib.Order.Compare

/-!
# Byte order of composite keys

Keys put together from bytes are compared byte by byte.  A common front decides nothing, what lies
between two keys with a common front has that front as well, and numbers in big-endian bytes are
in the order of the numbers.
-/

namespace ByteOrder

open Sha256 (beBytes beBytes_length)

variable {α : Type} [Ord α] {n : Nat}

theorem compare_append_left [Std.ReflOrd α] (front a b : List α) :
    compare (front ++ a) (front ++ b) = compare a b := by
  induction front with
  | nil => rfl
  | cons x front ih =>
    rw [List.cons_append, List.cons_append, List.compare_cons_cons, Std.ReflOrd.compare_self, ih]
    rfl

theorem compare_append (a b c d : List α) (hlen : a.length = b.length) :
    compare (a ++ c) (b ++ d) = (compare a b).then (compare c d) := by
  induction a generalizing b with
  | nil =>
    cases b with
    | nil => simp [List.compare_eq_compareLex]
    | cons y b => simp at hlen
  | cons x a ih =>
    cases b with
    | nil => simp at hlen
    | cons y b =>
      rw [List.cons_append, List.cons_append, List.compare_cons_cons, List.compare_cons_cons,
        ih b (by simpa using hlen), Ordering.then_assoc]

/-- A key between two keys with a common front has that front too. -/
theorem exists_append_of_between [Std.TransOrd α] [Std.LawfulEqOrd α] {front lo hi k : List α}
    (hlo : compare (front ++ lo) k ≠ .gt) (hhi : compare k (front ++ hi) ≠ .gt) :
    ∃ rest, k = front ++ rest ∧ compare lo rest ≠ .gt ∧ compare rest hi ≠ .gt := by
  induction front generalizing k with
  | nil => exact ⟨k, rfl, hlo, hhi⟩
  | cons x front ih =>
    cases k with
    | nil => simp at hlo
    | cons y k =>
      rw [List.cons_append, List.compare_cons_cons] at hlo hhi
      -- The first byte lies between two equal ones.
      have hxy : x = y := by
        refine Std.LawfulEqOrd.eq_of_compare ?_
        cases hcompare : compare x y with
        | eq => rfl
        | gt => simp [hcompare] at hlo
        | lt =>
          rw [Std.OrientedOrd.eq_swap, hcompare] at hhi
          simp at hhi
      subst hxy
      rw [Std.ReflOrd.compare_self, Ordering.eq_then] at hlo hhi
      obtain ⟨rest, rfl, hrest⟩ := ih hlo hhi
      exact ⟨rest, rfl, hrest⟩

/-! ## Big-endian numbers -/

theorem compare_nat_div_mod (x y : Nat) :
    compare x y = (compare (x / 256) (y / 256)).then (compare (x % 256) (y % 256)) := by
  rcases Nat.lt_trichotomy (x / 256) (y / 256) with h | h | h
  · rw [Nat.compare_eq_lt.mpr h, Nat.compare_eq_lt.mpr (by omega)]
    rfl
  · rw [Nat.compare_eq_eq.mpr h, Ordering.eq_then]
    rcases Nat.lt_trichotomy (x % 256) (y % 256) with h' | h' | h'
    · rw [Nat.compare_eq_lt.mpr h', Nat.compare_eq_lt.mpr (by omega)]
    · rw [Nat.compare_eq_eq.mpr h', Nat.compare_eq_eq.mpr (by omega)]
    · rw [Nat.compare_eq_gt.mpr h', Nat.compare_eq_gt.mpr (by omega)]
  · rw [Nat.compare_eq_gt.mpr h, Nat.compare_eq_gt.mpr (by omega)]
    rfl

theorem compare_ofNat_mod (x y : Nat) :
    compare (UInt8.ofNat (x % 256)) (UInt8.ofNat (y % 256)) = compare (x % 256) (y % 256) := by
  have hbyte : ∀ a b : UInt8, compare a b = compare a.toNat b.toNat := by
    intro a b
    simp only [compare, compareOfLessAndEq, UInt8.lt_iff_toNat_lt, UInt8.toNat_inj]
  rw [hbyte]
  simp

/-- Numbers that fit into the bytes are ordered as their bytes are. -/
theorem compare_beBytes (n : Nat) {x y : Nat} (hx : x < 256 ^ n) (hy : y < 256 ^ n) :
    compare (beBytes n x) (beBytes n y) = compare x y := by
  induction n generalizing x y with
  | zero =>
    have hx0 : x = 0 := by omega
    have hy0 : y = 0 := by omega
    rw [hx0, hy0, Std.ReflOrd.compare_self, Std.ReflOrd.compare_self]
  | succ n ih =>
    rw [beBytes, beBytes, compare_append _ _ _ _ (by rw [beBytes_length, beBytes_length]),
      compare_nat_div_mod, ih, List.compare_cons_cons, compare_ofNat_mod]
    · simp
    · rw [pow_succ] at hx
      omega
    · rw [pow_succ] at hy
      omega

/-! ## Numbers in a scope -/

variable (scope : List UInt8)

/-- A number behind the bytes of its scope and a zero byte. -/
def scopedKey (ordinal : Nat) : List UInt8 := scope ++ 0 :: beBytes 8 ordinal

theorem scopedKey_eq_append (ordinal : Nat) :
    scopedKey scope ordinal = (scope ++ [0]) ++ beBytes 8 ordinal := by
  simp [scopedKey]

theorem scopedKey_inj {scope scope' : List UInt8} {n' : Nat} (hscope : 0 ∉ scope)
    (hscope' : 0 ∉ scope') (hn : n < 256 ^ 8) (hn' : n' < 256 ^ 8)
    (h : scopedKey scope n = scopedKey scope' n') : scope = scope' ∧ n = n' := by
  obtain ⟨hsame, hbytes⟩ := Separated.append_cons_inj hscope hscope' h
  exact ⟨hsame, Framing.beBytes_injective hn hn' hbytes⟩

theorem compare_scopedKey {n' : Nat} (hn : n < 256 ^ 8) (hn' : n' < 256 ^ 8) :
    compare (scopedKey scope n) (scopedKey scope n') = compare n n' := by
  rw [scopedKey_eq_append, scopedKey_eq_append, compare_append_left, compare_beBytes 8 hn hn']

/-- Scopes without zero bytes keep to themselves. -/
theorem between_scoped_iff {scope scope' : List UInt8} {lo hi : Nat} (hscope : 0 ∉ scope)
    (hscope' : 0 ∉ scope') (hlo : lo < 256 ^ 8) (hhi : hi < 256 ^ 8) (hn : n < 256 ^ 8) :
    (compare (scopedKey scope lo) (scopedKey scope' n) ≠ .gt ∧
        compare (scopedKey scope' n) (scopedKey scope hi) ≠ .gt) ↔
      scope' = scope ∧ lo ≤ n ∧ n ≤ hi := by
  constructor
  · rintro ⟨hlow, hhigh⟩
    rw [scopedKey_eq_append scope] at hlow hhigh
    obtain ⟨rest, hrest, hlow', hhigh'⟩ := exists_append_of_between hlow hhigh
    rw [scopedKey, List.append_assoc] at hrest
    obtain ⟨rfl, rfl⟩ := Separated.append_cons_inj hscope' hscope hrest
    rw [compare_beBytes 8 hlo hn, Nat.compare_ne_gt] at hlow'
    rw [compare_beBytes 8 hn hhi, Nat.compare_ne_gt] at hhigh'
    exact ⟨rfl, hlow', hhigh'⟩
  · rintro ⟨rfl, hlow, hhigh⟩
    rw [compare_scopedKey _ hlo hn, compare_scopedKey _ hn hhi, Nat.compare_ne_gt,
      Nat.compare_ne_gt]
    exact ⟨hlow, hhigh⟩

/-! ## Texts without zero characters -/

theorem utf8_eq_flatMap (s : String) : Framing.utf8 s = s.toList.flatMap String.utf8EncodeChar := by
  rw [Framing.utf8, String.toUTF8_eq_toByteArray, ← String.utf8Encode_toList, List.utf8Encode]
  simp

theorem zero_notMem_utf8EncodeChar {c : Char} (h : c.toNat ≠ 0) : 0 ∉ String.utf8EncodeChar c := by
  have hc : c.val.toNat ≠ 0 := h
  have hzero : ∀ n, n < 256 → n ≠ 0 → (0 : UInt8) ≠ UInt8.ofNat n := by
    intro n hlt hne heq
    have hnat := congrArg UInt8.toNat heq
    rw [UInt8.toNat_ofNat_of_lt' hlt] at hnat
    exact hne hnat.symm
  unfold String.utf8EncodeChar
  dsimp only
  split
  · simp only [List.mem_singleton]
    exact hzero _ (by omega) hc
  · split
    · simp only [List.mem_cons, List.not_mem_nil, or_false, not_or]
      exact ⟨hzero _ (by omega) (by omega), hzero _ (by omega) (by omega)⟩
    · split
      · simp only [List.mem_cons, List.not_mem_nil, or_false, not_or]
        exact ⟨hzero _ (by omega) (by omega), hzero _ (by omega) (by omega),
          hzero _ (by omega) (by omega)⟩
      · simp only [List.mem_cons, List.not_mem_nil, or_false, not_or]
        exact ⟨hzero _ (by omega) (by omega), hzero _ (by omega) (by omega),
          hzero _ (by omega) (by omega), hzero _ (by omega) (by omega)⟩

theorem zero_notMem_utf8 {s : String} (h : ∀ c ∈ s.toList, c.toNat ≠ 0) : 0 ∉ Framing.utf8 s := by
  rw [utf8_eq_flatMap, List.mem_flatMap]
  rintro ⟨c, hc, hzero⟩
  exact zero_notMem_utf8EncodeChar (h c hc) hzero

end ByteOrder
