import Made.Library.Sha256
import Mathlib.Data.String.Basic
import Mathlib.Algebra.Order.Ring.Nat

/-!
# Length-prefixed messages

A message that must not be ambiguous is written as a domain tag followed by its parts, each part
behind its own length in eight big-endian bytes.  `frames_injective` and `taggedTexts_injective`
say that two such messages with equally many parts agree only when all their parts agree, provided
that the lengths fit into their eight bytes.  Messages that mix frames with numbers and with fields
that may be absent are read field by field: `Delimits` says that a field shows where it ends.
-/

namespace Framing

open Sha256 (beBytes beBytes_length)

def utf8 (s : String) : List UInt8 := s.toUTF8.data.toList

def frame (part : List UInt8) : List UInt8 := beBytes 8 part.length ++ part

/-- The parts of a message, framed one after the other. -/
def frames (parts : List (List UInt8)) : List UInt8 := parts.flatMap frame

/-- A tag, a zero byte, and framed texts. -/
def taggedTexts (tag : String) (parts : List String) : List UInt8 :=
  utf8 tag ++ 0 :: frames (parts.map utf8)

/-! ## Injectivity -/

/-- Numbers that fit into the bytes are told apart by them. -/
theorem beBytes_injective {n x y : Nat} (hx : x < 256 ^ n) (hy : y < 256 ^ n)
    (h : beBytes n x = beBytes n y) : x = y := by
  induction n generalizing x y with
  | zero => omega
  | succ n ih =>
    rw [beBytes, beBytes] at h
    obtain ⟨hhigh, hlow⟩ := List.append_inj' h rfl
    have hquotient : x / 256 = y / 256 := by
      refine ih ?_ ?_ hhigh
      · rw [pow_succ] at hx
        omega
      · rw [pow_succ] at hy
        omega
    have hremainder : x % 256 = y % 256 := by
      have hbyte := congrArg UInt8.toNat (List.head_eq_of_cons_eq hlow)
      simpa using hbyte
    omega

/-- A framed part ends where its length says. -/
theorem frame_append_inj {part part' rest rest' : List UInt8} (hpart : part.length < 256 ^ 8)
    (hpart' : part'.length < 256 ^ 8) (h : frame part ++ rest = frame part' ++ rest') :
    part = part' ∧ rest = rest' := by
  simp only [frame, List.append_assoc] at h
  have hwidth : (beBytes 8 part.length).length = (beBytes 8 part'.length).length := by
    rw [beBytes_length, beBytes_length]
  obtain ⟨hlen, hbody⟩ := List.append_inj h hwidth
  exact List.append_inj hbody (beBytes_injective hpart hpart' hlen)

/-! ## Self-delimiting writers -/

/-- Writers whose output shows where it ends: behind it anything may follow, and neither the value
nor the rest is in doubt.  `fits` keeps to the values whose lengths the writer can express. -/
def Delimits {α : Type} (write : α → List UInt8) (fits : α → Prop) : Prop :=
  ∀ ⦃x y : α⦄, fits x → fits y → ∀ ⦃rest rest' : List UInt8⦄,
    write x ++ rest = write y ++ rest' → x = y ∧ rest = rest'

theorem delimits_beBytes (n : Nat) : Delimits (beBytes n) (· < 256 ^ n) := by
  intro x y hx hy rest rest' h
  have hwidth : (beBytes n x).length = (beBytes n y).length := by
    rw [beBytes_length, beBytes_length]
  obtain ⟨hbytes, hrest⟩ := List.append_inj h hwidth
  exact ⟨beBytes_injective hx hy hbytes, hrest⟩

theorem delimits_frame : Delimits frame (·.length < 256 ^ 8) :=
  fun _ _ hx hy _ _ h => frame_append_inj hx hy h

/-- A writer of what stands for a value writes the value. -/
theorem Delimits.comp {α β : Type} {write : β → List UInt8} {fits : β → Prop}
    (hwrite : Delimits write fits) {f : α → β} (hf : Function.Injective f) :
    Delimits (write ∘ f) (fits ∘ f) := by
  intro x y hx hy rest rest' h
  obtain ⟨hvalue, hrest⟩ := hwrite hx hy h
  exact ⟨hf hvalue, hrest⟩

/-- A presence byte before a value that need not be there. -/
def tagged {α : Type} (write : α → List UInt8) : Option α → List UInt8
  | none => [0]
  | some value => 1 :: write value

theorem Delimits.tagged {α : Type} {write : α → List UInt8} {fits : α → Prop}
    (hwrite : Delimits write fits) :
    Delimits (Framing.tagged write) (fun value => ∀ x ∈ value, fits x) := by
  intro x y hx hy rest rest' h
  cases x with
  | none =>
    cases y with
    | none => exact ⟨rfl, (List.cons.inj h).2⟩
    | some y => exact absurd (List.cons.inj h).1 (by decide)
  | some x =>
    cases y with
    | none => exact absurd (List.cons.inj h).1 (by decide)
    | some y =>
      obtain ⟨rfl, hrest⟩ := hwrite (hx x rfl) (hy y rfl) (List.cons.inj h).2
      exact ⟨rfl, hrest⟩

/-! ## Messages of frames -/

theorem frames_injective {parts parts' : List (List UInt8)}
    (hcnt : parts.length = parts'.length) (hparts : ∀ part ∈ parts, part.length < 256 ^ 8)
    (hparts' : ∀ part ∈ parts', part.length < 256 ^ 8) (h : frames parts = frames parts') :
    parts = parts' := by
  induction parts generalizing parts' with
  | nil =>
    cases parts' with
    | nil => rfl
    | cons part' rest' => simp at hcnt
  | cons part rest ih =>
    cases parts' with
    | nil => simp at hcnt
    | cons part' rest' =>
      rw [List.forall_mem_cons] at hparts hparts'
      rw [frames, frames, List.flatMap_cons, List.flatMap_cons] at h
      obtain ⟨rfl, hrest⟩ := frame_append_inj hparts.1 hparts'.1 h
      rw [ih (by simpa using hcnt) hparts.2 hparts'.2 hrest]

/-! ## Texts -/

theorem utf8_injective : Function.Injective utf8 := by
  intro s t h
  rw [← String.toByteArray_inj]
  exact ByteArray.ext (Array.toList_inj.mp h)

/-- Under one tag, messages of equally many texts agree only when all their texts agree. -/
theorem taggedTexts_injective {tag : String} {parts parts' : List String}
    (hcnt : parts.length = parts'.length) (hparts : ∀ part ∈ parts, (utf8 part).length < 256 ^ 8)
    (hparts' : ∀ part ∈ parts', (utf8 part).length < 256 ^ 8)
    (h : taggedTexts tag parts = taggedTexts tag parts') : parts = parts' := by
  rw [taggedTexts, taggedTexts, List.append_cancel_left_eq, List.cons.injEq] at h
  have hbytes := frames_injective (by simpa using hcnt)
    (by simpa using hparts) (by simpa using hparts') h.2
  exact utf8_injective.list_map hbytes

theorem utf8_length (s : String) : (utf8 s).length = s.utf8ByteSize := by
  simp [utf8]

theorem utf8_length_le (s : String) : (utf8 s).length ≤ 4 * s.length := by
  rw [utf8_length, ← String.ofList_toList (s := s), String.utf8ByteSize_ofList,
    String.length_ofList]
  induction s.toList with
  | nil => simp
  | cons c rest ih =>
    have hc := Char.utf8Size_le_four c
    rw [String.utf8Len_cons, List.length_cons]
    omega

theorem utf8_length_natRepr_le {n k : Nat} (hk : 0 < k) (h : n < 10 ^ k) :
    (utf8 n.repr).length ≤ 4 * k := by
  have hlen := utf8_length_le n.repr
  have hdigits := (Nat.length_repr_le_iff hk).mpr h
  omega

theorem utf8_length_intRepr_le {n : Int} {k : Nat} (hk : 0 < k) (h : n.natAbs < 10 ^ k) :
    (utf8 n.repr).length ≤ 4 * k + 1 := by
  cases n with
  | ofNat m =>
    have hm := utf8_length_natRepr_le hk h
    exact Nat.le_succ_of_le hm
  | negSucc m =>
    have hm := utf8_length_natRepr_le hk h
    rw [utf8_length] at hm
    have hsign : (Int.negSucc m).repr = "-" ++ m.succ.repr := rfl
    rw [utf8_length, hsign, String.utf8ByteSize_append]
    have hone : "-".utf8ByteSize = 1 := by decide
    rw [Int.natAbs_negSucc] at hm
    omega

end Framing
