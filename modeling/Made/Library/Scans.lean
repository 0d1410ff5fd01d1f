import Mathlib.Algebra.GroupWithZero.Nat
import Mathlib.Data.List.Basic
import Mathlib.Data.List.Nodup
import Std.Data.ExtTreeMap

/-!
# Scans of ordered tables

A table is an ordered map, a scan of it lists the rows whose keys pass a test, in the order of the
keys.  A scan is known once its rows are known to be in order and to be the right ones.  Reading a
sorted listing page by page, each page after the last key of the one before, reads every row once.
-/

namespace Scans

open Std List

variable {κ ν α : Type} [Ord κ]

/-! ## Sorted lists -/

def Sorted (key : α → κ) (l : List α) : Prop := l.Pairwise fun a b => compare (key a) (key b) = .lt

def isAfter (after : Option κ) (k : κ) : Bool :=
  match after with
  | none => true
  | some cursor => compare cursor k = .lt

theorem filter_isAfter_none (key : α → κ) (l : List α) :
    (l.filter fun a => isAfter none (key a)) = l := by
  rw [filter_eq_self]
  intro a _
  rfl

variable {key : α → κ}

section

variable [Std.TransOrd κ]

theorem Sorted.nodup {l : List α} (h : Sorted key l) : l.Nodup := by
  refine h.imp ?_
  rintro a _ hlt rfl
  rw [Std.ReflOrd.compare_self] at hlt
  cases hlt

theorem Sorted.eq_of_mem_iff {l l' : List α} (h : Sorted key l) (h' : Sorted key l')
    (hmem : ∀ a, a ∈ l ↔ a ∈ l') : l = l' := by
  have hperm : l.Perm l' := (perm_ext_iff_of_nodup h.nodup h'.nodup).mpr hmem
  refine hperm.eq_of_pairwise ?_ h h'
  intro a b _ _ hab hba
  rw [Std.OrientedOrd.eq_swap, hab] at hba
  cases hba

/-- After the last row of a front part come the rows that are left. -/
theorem Sorted.filter_after {front rest : List α} {last : α}
    (h : Sorted key (front ++ rest)) (hlast : front.getLast? = some last) :
    (front ++ rest).filter (fun a => isAfter (some (key last)) (key a)) = rest := by
  obtain ⟨init, rfl⟩ := getLast?_eq_some_iff.mp hlast
  have hsplit := pairwise_append.mp h
  have hinit := pairwise_append.mp hsplit.1
  rw [filter_append, filter_append]
  have hnone : init.filter (fun a => isAfter (some (key last)) (key a)) = [] := by
    rw [filter_eq_nil_iff]
    intro a ha hafter
    have hlt := hinit.2.2 a ha last (mem_singleton.mpr rfl)
    simp only [isAfter, decide_eq_true_eq] at hafter
    rw [Std.OrientedOrd.eq_swap, hlt] at hafter
    cases hafter
  have hself : [last].filter (fun a => isAfter (some (key last)) (key a)) = [] := by
    simp [isAfter, Std.ReflOrd.compare_self]
  have hrest : rest.filter (fun a => isAfter (some (key last)) (key a)) = rest := by
    rw [filter_eq_self]
    intro a ha
    simpa [isAfter] using hsplit.2.2 last (by simp) a ha
  rw [hnone, hself, hrest, nil_append, nil_append]

theorem isAfter_trans {after : Option κ} {k k' : κ} (h : isAfter after k = true)
    (h' : isAfter (some k) k' = true) : isAfter after k' = true := by
  cases after with
  | none => rfl
  | some cursor =>
    simp only [isAfter, decide_eq_true_eq] at h h' ⊢
    exact Std.TransCmp.lt_trans h h'

/-! ## Scans -/

/-- The rows of a table whose keys pass a test, in the order of the keys. -/
def scan (table : Std.ExtTreeMap κ ν) (p : κ → Bool) : List (κ × ν) :=
  table.toList.filter fun row => p row.1

theorem scan_sorted (table : Std.ExtTreeMap κ ν) (p : κ → Bool) :
    Sorted (fun row : κ × ν => row.1) (scan table p) :=
  ExtTreeMap.ordered_keys_toList.filter _

variable [Std.LawfulEqOrd κ] {table : Std.ExtTreeMap κ ν}

theorem mem_scan {p : κ → Bool} {k : κ} {v : ν} :
    (k, v) ∈ scan table p ↔ table[k]? = some v ∧ p k = true := by
  rw [scan, mem_filter, ExtTreeMap.mem_toList_iff_getElem?_eq_some]

theorem scan_eq {p : κ → Bool} {l : List (κ × ν)} (hsort : Sorted (fun row : κ × ν => row.1) l)
    (hmem : ∀ k v, (k, v) ∈ l ↔ table[k]? = some v ∧ p k = true) : scan table p = l := by
  refine (scan_sorted table p).eq_of_mem_iff hsort ?_
  rintro ⟨k, v⟩
  rw [mem_scan, hmem]

/-- A row under a new key, in a table that holds a list. -/
theorem getElem?_insert_iff {l : List α} (key : α → κ) (val : α → ν)
    (h : ∀ k v, table[k]? = some v ↔ ∃ a ∈ l, k = key a ∧ v = val a) (new : α)
    (hnew : ∀ a ∈ l, key a ≠ key new) (k : κ) (v : ν) :
    (table.insert (key new) (val new))[k]? = some v ↔ ∃ a ∈ l ++ [new], k = key a ∧ v = val a := by
  simp only [mem_append, mem_singleton, or_and_right, exists_or, exists_eq_left]
  by_cases hk : k = key new
  · subst hk
    rw [ExtTreeMap.getElem?_insert_self, Option.some.injEq]
    constructor
    · rintro rfl
      exact .inr ⟨rfl, rfl⟩
    · rintro (⟨a, ha, heq, -⟩ | ⟨-, rfl⟩)
      · exact absurd heq.symm (hnew a ha)
      · rfl
  · have hne : compare (key new) k ≠ .eq := fun heq =>
      hk (Std.LawfulEqOrd.eq_of_compare heq).symm
    rw [ExtTreeMap.getElem?_insert, if_neg hne, h]
    simp [hk]

end

/-! ## Reading page by page -/

def pageOf (key : α → κ) (rows : List α) (after : Option κ) (limit : Nat) : List α :=
  (rows.filter fun a => isAfter after (key a)).take limit

/-- The pages read one after the other, each after the last row of the one before it. -/
def walk {β : Type} (key : α → κ) (page : Option κ → β → List α) : Option κ → List β → List α
  | _, [] => []
  | after, limit :: limits =>
    let rows := page after limit
    rows ++ walk key page ((rows.getLast?.map key).or after) limits

variable [Std.TransOrd κ] {rows : List α}

theorem filter_after_page (hsort : Sorted key rows) (after : Option κ) (limit : Nat) :
    (rows.filter fun a => isAfter
        (((pageOf key rows after limit).getLast?.map key).or after) (key a)) =
      (rows.filter fun a => isAfter after (key a)).drop limit := by
  have hleft : Sorted key (rows.filter fun a => isAfter after (key a)) := hsort.filter _
  rw [pageOf]
  generalize hm : (rows.filter fun a => isAfter after (key a)) = left at hleft
  cases hlast : (left.take limit).getLast? with
  | none =>
    -- An empty page: the limit is zero or nothing is left.
    rw [Option.map_none, Option.none_or, hm]
    rw [getLast?_eq_none_iff] at hlast
    have hdrop := take_append_drop limit left
    rw [hlast, nil_append] at hdrop
    exact hdrop.symm
  | some last =>
    rw [Option.map_some, Option.some_or]
    have hmem : last ∈ rows.filter fun a => isAfter after (key a) := by
      rw [hm]
      exact mem_of_mem_take (mem_of_getLast? hlast)
    have hafter : isAfter after (key last) = true := (mem_filter.mp hmem).2
    have hsame : (rows.filter fun a => isAfter (some (key last)) (key a)) =
        left.filter fun a => isAfter (some (key last)) (key a) := by
      rw [← hm, filter_filter]
      refine filter_congr fun a _ => ?_
      by_cases hlater : isAfter (some (key last)) (key a) = true
      · rw [hlater, isAfter_trans hafter hlater, Bool.and_true]
      · rw [Bool.not_eq_true] at hlater
        rw [hlater, Bool.false_and]
    rw [hsame]
    conv_lhs => rw [← take_append_drop limit left]
    refine Sorted.filter_after ?_ hlast
    rw [take_append_drop]
    exact hleft

/-- Pages cover a sorted listing row by row, as far as their limits reach. -/
theorem walk_eq {β : Type} (hsort : Sorted key rows)
    {page : Option κ → β → List α} {size : β → Nat}
    (hpage : ∀ after limit, page after limit = pageOf key rows after (size limit))
    (after : Option κ) (limits : List β) :
    walk key page after limits =
      (rows.filter fun a => isAfter after (key a)).take (limits.map size).sum := by
  induction limits generalizing after with
  | nil => simp [walk]
  | cons limit limits ih =>
    rw [walk, ih, hpage, filter_after_page hsort, map_cons, sum_cons, pageOf, take_add]

/-! ## Collecting the wanted rows -/

section Collect

variable {β ε : Type} {limit : Option Nat}

def upTo (limit : Option Nat) (l : List β) : List β :=
  match limit with
  | none => l
  | some n => l.take n

/-- Whether a limit is not reached yet by a number of rows. -/
def Below (limit : Option Nat) (n : Nat) : Prop := ∀ m, limit = some m → n < m

/-- Keep the wanted rows of a page until the limit is reached; the flag says that it was.  A row may
stand for nothing, and deciding about it may fail. -/
def keep (decode : α → Option β) (wanted : β → Except ε Bool) (limit : Option Nat) :
    List β → List α → Except ε (List β × Bool)
  | kept, [] => .ok (kept, false)
  | kept, row :: rows =>
    match decode row with
    | none => keep decode wanted limit kept rows
    | some b =>
      match wanted b with
      | .error e => .error e
      | .ok false => keep decode wanted limit kept rows
      | .ok true =>
        if limit = some (kept.length + 1) then .ok (kept ++ [b], true)
        else keep decode wanted limit (kept ++ [b]) rows

/-- Read page after page until one is empty, and keep the wanted rows up to a limit. -/
def collect (key : α → κ) (page : Option κ → List α) (decode : α → Option β)
    (wanted : β → Except ε Bool) (limit : Option Nat) : Nat → List β → Option κ → Except ε (List β)
  | 0, kept, _ => .ok kept
  | fuel + 1, kept, after =>
    let rows := page after
    match rows.getLast? with
    | none => .ok kept
    | some last =>
      match keep decode wanted limit kept rows with
      | .error e => .error e
      | .ok (kept, true) => .ok kept
      | .ok (kept, false) =>
        collect key page decode wanted limit fuel kept (some (key last))

theorem upTo_of_below {l : List β} (h : Below limit l.length) : upTo limit l = l := by
  cases limit with
  | none => rfl
  | some n => exact take_of_length_le (Nat.le_of_lt (h n rfl))

def wantedOf (decode : α → Option β) (w : β → Bool) (rows : List α) : List β :=
  (rows.filterMap decode).filter w

theorem wantedOf_append (decode : α → Option β) (w : β → Bool) (rows rows' : List α) :
    wantedOf decode w (rows ++ rows') = wantedOf decode w rows ++ wantedOf decode w rows' := by
  rw [wantedOf, filterMap_append, filter_append]
  rfl

/-- Either the limit is reached within the page and the rest of it is not looked at, or the whole
page is. -/
theorem keep_eq {decode : α → Option β} {wanted : β → Except ε Bool} {w : β → Bool}
    {kept : List β} (hwanted : ∀ row ∈ rows, ∀ b, decode row = some b → wanted b = .ok (w b))
    (hbelow : Below limit kept.length) :
    (∃ n, limit = some n ∧ n ≤ (kept ++ wantedOf decode w rows).length ∧
        keep decode wanted limit kept rows = .ok ((kept ++ wantedOf decode w rows).take n, true)) ∨
      (Below limit (kept ++ wantedOf decode w rows).length ∧
        keep decode wanted limit kept rows = .ok (kept ++ wantedOf decode w rows, false)) := by
  induction rows generalizing kept with
  | nil => exact .inr ⟨by simpa [wantedOf] using hbelow, by simp [keep, wantedOf]⟩
  | cons row rows ih =>
    have hrest : ∀ row ∈ rows, ∀ b, decode row = some b → wanted b = .ok (w b) :=
      fun row hrow => hwanted row (mem_cons_of_mem _ hrow)
    cases hdecode : decode row with
    | none =>
      have hsame : wantedOf decode w (row :: rows) = wantedOf decode w rows := by
        simp [wantedOf, hdecode]
      simp only [keep, hdecode, hsame]
      exact ih hrest hbelow
    | some b =>
      have hb := hwanted row mem_cons_self b hdecode
      cases hw : w b with
      | false =>
        have hsame : wantedOf decode w (row :: rows) = wantedOf decode w rows := by
          simp [wantedOf, hdecode, hw]
        simp only [keep, hdecode, hb, hw, hsame]
        exact ih hrest hbelow
      | true =>
        have hsame : kept ++ wantedOf decode w (row :: rows) =
            (kept ++ [b]) ++ wantedOf decode w rows := by
          simp [wantedOf, hdecode, hw]
        simp only [keep, hdecode, hb, hw, hsame]
        by_cases hfull : limit = some (kept.length + 1)
        · refine .inl ⟨kept.length + 1, hfull, by simp, ?_⟩
          rw [if_pos hfull, take_left' (by simp)]
        · rw [if_neg hfull]
          refine ih hrest ?_
          intro n hn
          have hlt := hbelow n hn
          have hne : n ≠ kept.length + 1 := fun h => hfull (h ▸ hn)
          rw [length_append, length_singleton]
          omega

/-- With a turn for every row and one more, all rows after the cursor are looked at until the limit
is reached. -/
theorem collect_eq (hsort : Sorted key rows)
    {page : Option κ → List α} {size : Nat} (hsize : 0 < size)
    (hpage : ∀ after, page after = pageOf key rows after size) {decode : α → Option β}
    {wanted : β → Except ε Bool} {w : β → Bool}
    (hwanted : ∀ row ∈ rows, ∀ b, decode row = some b → wanted b = .ok (w b)) {fuel : Nat}
    {kept : List β} {after : Option κ}
    (hfuel : (rows.filter fun a => isAfter after (key a)).length < fuel)
    (hbelow : Below limit kept.length) :
    collect key page decode wanted limit fuel kept after =
      .ok (upTo limit (kept ++ wantedOf decode w
        (rows.filter fun a => isAfter after (key a)))) := by
  induction fuel generalizing kept after with
  | zero => cases hfuel
  | succ fuel ih =>
    have hleft := filter_after_page hsort after size
    have hsplit := take_append_drop size (rows.filter fun a => isAfter after (key a))
    rw [collect]
    simp only [hpage after]
    cases hlast : (pageOf key rows after size).getLast? with
    | none =>
      -- An empty page is the end of the table.
      have hnil : (rows.filter fun a => isAfter after (key a)) = [] := by
        rw [getLast?_eq_none_iff, pageOf, take_eq_nil_iff] at hlast
        exact hlast.resolve_left (Nat.ne_of_gt hsize)
      simp [hnil, wantedOf, upTo_of_below hbelow]
    | some last =>
      rw [hlast, Option.map_some, Option.some_or] at hleft
      have hmem : ∀ row ∈ pageOf key rows after size, row ∈ rows := fun row hrow =>
        (mem_filter.mp (mem_of_mem_take hrow)).1
      have hall : kept ++ wantedOf decode w (rows.filter fun a => isAfter after (key a)) =
          (kept ++ wantedOf decode w (pageOf key rows after size)) ++
            wantedOf decode w (rows.filter fun a => isAfter (some (key last)) (key a)) := by
        rw [hleft, append_assoc, ← wantedOf_append, pageOf, hsplit]
      rw [hall]
      rcases keep_eq (fun row hrow => hwanted row (hmem row hrow)) hbelow with
        ⟨n, hn, hlen, hkeep⟩ | ⟨hbelow', hkeep⟩
      · simp only [hkeep]
        rw [hn, upTo, take_append_of_le_length hlen]
      · simp only [hkeep]
        refine ih ?_ hbelow'
        rw [hleft, length_drop]
        have hpos : 0 < (rows.filter fun a => isAfter after (key a)).length := by
          rw [length_pos_iff]
          rintro hnil
          rw [pageOf, hnil] at hlast
          simp at hlast
        omega

end Collect

/-! ## Numbered lists -/

section Numbered

variable {f : α → Nat} {l : List α} {s : Nat}

section

variable (h : l.map f = List.range' s l.length)
include h

theorem bounds_of_numbered {a : α} (ha : a ∈ l) : s ≤ f a ∧ f a < s + l.length := by
  have hmem : f a ∈ l.map f := mem_map_of_mem ha
  rwa [h, mem_range'_1] at hmem

theorem map_drop_eq_range' (k : Nat) : (l.drop k).map f = range' (s + k) (l.drop k).length := by
  rw [map_drop, h, drop_range', length_drop, Nat.mul_one]

theorem lt_of_mem_take {a : α} {k : Nat} (ha : a ∈ l.take k) : f a < s + k := by
  have hmem : f a ∈ (l.take k).map f := mem_map_of_mem ha
  rw [map_take, h, range'_eq_map_range, ← map_take, take_range] at hmem
  obtain ⟨i, hi, hfa⟩ := mem_map.mp hmem
  rw [mem_range] at hi
  omega

theorem filter_le_eq_drop (k : Nat) : (l.filter fun a => s + k ≤ f a) = l.drop k := by
  conv_lhs => rw [← take_append_drop k l]
  rw [filter_append, filter_eq_nil_iff.mpr, filter_eq_self.mpr, nil_append]
  · intro a ha
    simpa using (bounds_of_numbered (map_drop_eq_range' h k) ha).1
  · intro a ha
    simpa using lt_of_mem_take h ha

theorem filter_lt_eq_take (k : Nat) : (l.filter fun a => f a < s + k) = l.take k := by
  conv_lhs => rw [← take_append_drop k l]
  rw [filter_append, filter_eq_self.mpr, filter_eq_nil_iff.mpr, append_nil]
  · intro a ha
    simpa using (bounds_of_numbered (map_drop_eq_range' h k) ha).1
  · intro a ha
    simpa using lt_of_mem_take h ha

/-- The rows numbered from one number up to another are a page of the list. -/
theorem filter_between_eq (j k : Nat) :
    (l.filter fun a => s + j ≤ f a && f a < s + j + k) = (l.drop j).take k := by
  rw [← filter_lt_eq_take (map_drop_eq_range' h j) k, ← filter_le_eq_drop h j, filter_filter]
  refine filter_congr fun a _ => ?_
  rw [Bool.and_comm]

theorem getElem?_of_numbered {a : α} (ha : a ∈ l) : l[f a - s]? = some a := by
  obtain ⟨i, hi⟩ := mem_iff_getElem?.mp ha
  have hlen : i < l.length := (List.getElem?_eq_some_iff.mp hi).1
  have hnumber : (l.map f)[i]? = some (f a) := by rw [getElem?_map, hi, Option.map_some]
  rw [h, getElem?_range' hlen, Nat.one_mul, Option.some.injEq] at hnumber
  rw [← hnumber, Nat.add_sub_cancel_left]
  exact hi

end

theorem getLast?_of_numbered (h : l.map f = range' 1 l.length) :
    (l.getLast?.map f).getD 0 = l.length := by
  rw [← getLast?_map, h]
  cases l.length with
  | zero => rfl
  | succ n => rw [range'_concat, getLast?_concat, Option.getD_some, Nat.one_mul, Nat.add_comm]

/-- In a numbered list the rows after a number are a rest of the list. -/
theorem filter_isAfter_eq_drop (h : l.map f = range' 1 l.length) (after : Option Nat) :
    (l.filter fun a => isAfter after (f a)) = l.drop (after.getD 0) := by
  rw [← filter_le_eq_drop h]
  refine filter_congr fun a ha => ?_
  cases after with
  | none =>
    simpa [isAfter] using (bounds_of_numbered h ha).1
  | some cursor =>
    rw [isAfter, Option.getD_some, Bool.eq_iff_iff, decide_eq_true_eq, decide_eq_true_eq,
      Nat.compare_eq_lt, Nat.add_comm]
    exact Nat.lt_iff_add_one_le

theorem sorted_of_numbered (h : l.map f = range' 1 l.length) : Sorted f l := by
  have hrange : (l.map f).Pairwise (· < ·) := by
    rw [h]
    exact pairwise_lt_range'
  exact (pairwise_map.mp hrange).imp fun hlt => Nat.compare_eq_lt.mpr hlt

end Numbered

end Scans
