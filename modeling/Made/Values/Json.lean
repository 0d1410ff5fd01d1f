import Made.Values.Text
import Mathlib.Data.Rat.Defs

/-!
# JSON values and attribute bags

Step outputs, ceremony contexts and annotations are JSON.  The domain only ever compares such
values and reads booleans and strings out of them, so a value is its syntax tree with decidable
equality (`Value.beq_iff`).  An attribute bag is a map with at most `maxAttributesKeys` keys, none
of them blank; the bound is a field of the type, so a bag beyond it cannot be built.
-/

namespace Made

open Std

/-- A JSON number.  The variants never compare equal; a float is compared by its value. -/
inductive Number where
  | posInt (n : Nat)
  | negInt (n : Int)
  | float (value : Rat)
deriving DecidableEq

/-- A JSON value; an object lists its entries in key order. -/
inductive Value where
  | null
  | bool (b : Bool)
  | number (n : Number)
  | string (s : String)
  | array (items : List Value)
  | object (entries : List (String × Value))

namespace Value

def asBool : Value → Option Bool
  | bool b => some b
  | _ => none

def asStr : Value → Option String
  | string s => some s
  | _ => none

mutual

def beq : Value → Value → Bool
  | null, null => true
  | bool a, bool b => a == b
  | number a, number b => decide (a = b)
  | string a, string b => decide (a = b)
  | array a, array b => beqItems a b
  | object a, object b => beqEntries a b
  | _, _ => false

def beqItems : List Value → List Value → Bool
  | [], [] => true
  | a :: as, b :: bs => beq a b && beqItems as bs
  | _, _ => false

def beqEntries : List (String × Value) → List (String × Value) → Bool
  | [], [] => true
  | (k, a) :: as, (l, b) :: bs => decide (k = l) && beq a b && beqEntries as bs
  | _, _ => false

end

mutual

theorem beq_iff (a b : Value) : beq a b = true ↔ a = b := by
  cases a with
  | array items => cases b <;> simp [beq, beqItems_iff items]
  | object entries => cases b <;> simp [beq, beqEntries_iff entries]
  | null | bool x | number x | string x => cases b <;> simp [beq]

theorem beqItems_iff (as bs : List Value) : beqItems as bs = true ↔ as = bs := by
  match as, bs with
  | [], [] => simp [beqItems]
  | [], _ :: _ => simp [beqItems]
  | _ :: _, [] => simp [beqItems]
  | a :: as, b :: bs => simp [beqItems, beq_iff a, beqItems_iff as]

theorem beqEntries_iff (as bs : List (String × Value)) : beqEntries as bs = true ↔ as = bs := by
  match as, bs with
  | [], [] => simp [beqEntries]
  | [], _ :: _ => simp [beqEntries]
  | _ :: _, [] => simp [beqEntries]
  | (k, a) :: as, (l, b) :: bs =>
    simp [beqEntries, beq_iff a, beqEntries_iff as]

end

instance : DecidableEq Value := fun a b => decidable_of_iff _ (beq_iff a b)

end Value

/-! ## Attributes -/

/-- A map ordered by its keys (`BTreeMap`). -/
abbrev Map (κ ν : Type) [Ord κ] := Std.ExtTreeMap κ ν

/-- Keys of several parts are ordered part by part. -/
instance instOrdProd {κ κ' : Type} [Ord κ] [Ord κ'] : Ord (κ × κ') := lexOrd

section Map

variable {κ ν : Type} [Ord κ] [Std.TransOrd κ]

/-- The values of a map in the order of their keys (`BTreeMap::values`). -/
def Map.inOrder (map : Map κ ν) : List ν :=
  map.toList.map (·.2)

variable {map : Map κ ν} {key other : κ} {value : ν}

theorem Map.size_insert_of_notMem (h : key ∉ map) :
    (map.insert key value).size = map.size + 1 := by
  rw [ExtTreeMap.size_insert, if_neg (by rwa [← ExtTreeMap.mem_iff_contains])]

variable [Std.LawfulEqOrd κ]

theorem Map.mem_inOrder : value ∈ map.inOrder ↔ ∃ key : κ, map[key]? = some value := by
  simp only [inOrder, List.mem_map, Prod.exists, exists_eq_right,
    ExtTreeMap.mem_toList_iff_getElem?_eq_some]

theorem Map.getElem?_insert_of_ne (h : other ≠ key) :
    (map.insert key value)[other]? = map[other]? := by
  rw [ExtTreeMap.getElem?_insert, if_neg]
  exact fun heq => h (Std.LawfulEqOrd.eq_of_compare heq).symm

theorem Map.getElem?_erase_of_ne (h : other ≠ key) : (map.erase key)[other]? = map[other]? := by
  rw [ExtTreeMap.getElem?_erase, if_neg]
  exact fun heq => h (Std.LawfulEqOrd.eq_of_compare heq).symm

end Map

def maxAttributesKeys : Nat := 1024

/-- The check of an attribute bag: few enough keys, none blank. -/
def attributesOk (entries : Map String Value) : Bool :=
  entries.size ≤ maxAttributesKeys && entries.keys.all fun k => trim k ≠ ""

structure Attributes where
  entries : Map String Value
  valid : attributesOk entries = true
deriving DecidableEq

namespace Attributes

variable (entries : Map String Value)

def new : Result Attributes :=
  if _hs : maxAttributesKeys < entries.size then
    Outcome.refuse (.outOfRange "attributes.keys" entries.size 0 maxAttributesKeys)
  else if hk : attributesOk entries = true then
    .ok ⟨entries, hk⟩
  else
    Outcome.refuse (.emptyField "attributes.key")

def empty : Attributes := ⟨∅, by decide⟩

def get (a : Attributes) (key : String) : Option Value := a.entries[key]?

theorem new_eq_ok {entries : Map String Value} {a : Attributes} :
    new entries = .ok a ↔ a.entries = entries := by
  constructor
  · intro h
    unfold new at h
    split at h
    · simp at h
    · split at h
      · cases h
        rfl
      · simp at h
  · rintro rfl
    have hv := a.valid
    have hs : ¬ maxAttributesKeys < a.entries.size := by
      simp only [attributesOk, Bool.and_eq_true, decide_eq_true_eq] at hv
      omega
    simp [new, hs, hv]

/-- A bag is accepted exactly when its keys are few enough and none is blank. -/
theorem new_isOk_iff : (∃ a, new entries = .ok a) ↔ attributesOk entries = true := by
  constructor
  · rintro ⟨a, h⟩
    rw [← new_eq_ok.mp h]
    exact a.valid
  · intro h
    exact ⟨⟨entries, h⟩, new_eq_ok.mpr rfl⟩

theorem noPanic_new : Outcome.NoPanic (new entries) := by
  unfold new
  split
  · simp
  · split <;> simp

end Attributes

end Made
