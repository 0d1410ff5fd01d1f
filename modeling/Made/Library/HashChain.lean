import Mathlib.Data.List.Induction

/-!
# Hash chains

Every element of a chain carries a digest of its own and the digest of the element before it.  Where
digests tell elements apart, the digest of the last element commits to the whole chain: the link of
that element is one of its fields, so it names the digest of the element before, and so on down to
the root, which names none (`Linked.eq_of_head_eq`).
-/

namespace HashChain

variable {ρ δ : Type} (link : ρ → Option δ) (digest : ρ → δ)

/-- Every element names the digest of the one before it, and the first names `previous`. -/
def Linked : Option δ → List ρ → Prop
  | _, [] => True
  | previous, r :: rest => link r = previous ∧ Linked (some (digest r)) rest

def head (records : List ρ) : Option δ := records.getLast?.map digest

variable {link : ρ → Option δ} {digest : ρ → δ}

theorem linked_concat {previous : Option δ} {records : List ρ} {r : ρ} :
    Linked link digest previous (records ++ [r]) ↔
      Linked link digest previous records ∧ link r = (head digest records).or previous := by
  induction records generalizing previous with
  | nil => simp [Linked, head]
  | cons first rest ih =>
    have hhead : (head digest (first :: rest)).or previous =
        (head digest rest).or (some (digest first)) := by
      cases hlast : rest.getLast? with
      | none | some last => simp [head, List.getLast?_cons, hlast]
    rw [List.cons_append, Linked, Linked, ih, hhead, and_assoc]

/-- A chain is known by the digest of its last element. -/
theorem Linked.eq_of_head_eq {a b : List ρ} (ha : Linked link digest none a)
    (hb : Linked link digest none b) (hbinds : ∀ r ∈ a, ∀ s ∈ b, digest r = digest s → r = s)
    (hhead : head digest a = head digest b) : a = b := by
  -- from the end: the last elements agree, hence their links, which are the heads of the rests
  induction a using List.reverseRecOn generalizing b with
  | nil =>
    cases b using List.reverseRecOn with
    | nil => rfl
    | append_singleton b s => simp [head] at hhead
  | append_singleton a r ih =>
    cases b using List.reverseRecOn with
    | nil => simp [head] at hhead
    | append_singleton b s =>
      have hdig : digest r = digest s := by simpa [head] using hhead
      obtain rfl := hbinds r (by simp) s (by simp) hdig
      rw [linked_concat, Option.or_none] at ha hb
      have hrest : a = b := by
        refine ih ha.1 hb.1 ?_ (ha.2.symm.trans hb.2)
        intro x hx y hy
        exact hbinds x (List.mem_append_left _ hx) y (List.mem_append_left _ hy)
      rw [hrest]

end HashChain
