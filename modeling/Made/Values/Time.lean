import Made.Values.Error
import Mathlib.Algebra.Group.Int.Defs
import Mathlib.Algebra.Group.Nat.Defs
import Mathlib.Order.Basic
import Mathlib.Data.Int.Order.Basic

/-!
# Instants, durations and counters

Instants are UTC nanoseconds inside the range of the clock library, durations are whole
milliseconds, and every coordinate of the aggregate (visit, iteration, attempt) is a counter that
starts at one.  The counters differ in their field name and their ceiling only; how each of them
moves on at its ceiling is its own rule.
-/

namespace Made

/-! ## Instants -/

/-- `-9999-01-01T00:00:00Z` in nanoseconds since the epoch. -/
def minInstant : Int := -377705116800 * 10 ^ 9

/-- `9999-12-31T23:59:59.999999999Z` in nanoseconds since the epoch. -/
def maxInstant : Int := 253402300800 * 10 ^ 9 - 1

/-- An instant of the clock.  Two instants are equal when they are the same moment. -/
structure OffsetDateTime where
  nanos : Int
  inRange : minInstant ≤ nanos ∧ nanos ≤ maxInstant
deriving DecidableEq

namespace OffsetDateTime

@[ext] theorem ext {a b : OffsetDateTime} (h : a.nanos = b.nanos) : a = b := by
  cases a
  cases b
  simp_all

instance : LE OffsetDateTime := ⟨fun a b => a.nanos ≤ b.nanos⟩

instance : LT OffsetDateTime := ⟨fun a b => a.nanos < b.nanos⟩

instance (a b : OffsetDateTime) : Decidable (a ≤ b) :=
  inferInstanceAs (Decidable (a.nanos ≤ b.nanos))

instance (a b : OffsetDateTime) : Decidable (a < b) :=
  inferInstanceAs (Decidable (a.nanos < b.nanos))

instance : LinearOrder OffsetDateTime where
  le_refl a := Int.le_refl a.nanos
  le_trans a b c := Int.le_trans
  le_antisymm a b h h' := ext (Int.le_antisymm h h')
  le_total a b := Int.le_total a.nanos b.nanos
  lt_iff_le_not_ge a b := Int.lt_iff_le_and_not_ge
  toDecidableLE := fun a b => inferInstance
  toDecidableLT := fun a b => inferInstance
  toDecidableEq := inferInstance

def afterEpoch (nanos : UInt32) : OffsetDateTime :=
  ⟨nanos.toNat, by
    have hlt := nanos.toNat_lt
    simp only [minInstant, maxInstant]
    omega⟩

end OffsetDateTime

/-! ## Durations -/

/-- A duration in whole milliseconds, an unsigned 64-bit number. -/
structure DurationMs where
  millis : Nat
  fits : millis < 2 ^ 64 := by decide
deriving DecidableEq

def DurationMs.zero : DurationMs := ⟨0, by decide⟩

def DurationMs.fromMillis (value : UInt64) : DurationMs := ⟨value.toNat, value.toNat_lt⟩

def i64Max : Nat := 2 ^ 63 - 1

/-- The instant a number of milliseconds later, unless it leaves the range of the clock. -/
def OffsetDateTime.checkedAdd (at_ : OffsetDateTime) (millis : Nat) : Option OffsetDateTime :=
  if h : minInstant ≤ at_.nanos + millis * 10 ^ 6 ∧ at_.nanos + millis * 10 ^ 6 ≤ maxInstant then
    some ⟨at_.nanos + millis * 10 ^ 6, h⟩
  else
    none

theorem OffsetDateTime.checkedAdd_eq_some {at_ r : OffsetDateTime} {millis : Nat}
    (h : at_.checkedAdd millis = some r) : r.nanos = at_.nanos + millis * 10 ^ 6 := by
  unfold checkedAdd at h
  split at h
  · cases h
    rfl
  · cases h

/-! ## Counters -/

def u32Max : Nat := 2 ^ 32 - 1

def u64Max : Nat := 2 ^ 64 - 1

structure OrdinalRule where
  field : String
  max : Nat

/-- A counter from one up to the ceiling of its rule. -/
structure Ordinal (rule : OrdinalRule) where
  val : Nat
  pos : 1 ≤ val
  le_max : val ≤ rule.max
deriving DecidableEq

namespace Ordinal

variable {rule : OrdinalRule}

@[ext] theorem ext {a b : Ordinal rule} (h : a.val = b.val) : a = b := by
  cases a
  cases b
  simp_all

def of (val : Nat) (h : (1 ≤ val && val ≤ rule.max) = true) : Ordinal rule :=
  have h : 1 ≤ val ∧ val ≤ rule.max := by simpa using h
  ⟨val, h.1, h.2⟩

/-- Check a number against the rule; zero and numbers above the ceiling are refused. -/
def new (rule : OrdinalRule) (value : Nat) : Result (Ordinal rule) :=
  if hz : value = 0 then
    Outcome.refuse (.mustBeNonZero rule.field)
  else if hm : rule.max < value then
    Outcome.refuse (.outOfRange rule.field value 1 rule.max)
  else
    .ok ⟨value, by omega, by omega⟩

theorem new_val {value : Nat} {o : Ordinal rule} (h : new rule value = .ok o) : o.val = value := by
  unfold new at h
  split at h
  · simp at h
  · split at h
    · simp at h
    · cases h
      rfl

theorem noPanic_new (value : Nat) : Outcome.NoPanic (new rule value) := by
  unfold new
  split
  · simp
  · split <;> simp

end Ordinal

abbrev StateVisit := Ordinal ⟨"state_visit", u32Max⟩
abbrev StateIteration := Ordinal ⟨"state_iteration", 1000⟩
abbrev StepIteration := Ordinal ⟨"step_iteration", 1000⟩
abbrev StepAttempt := Ordinal ⟨"step_attempt", u32Max⟩

def StateVisit.first : StateVisit := ⟨1, by decide, by decide⟩
def StateIteration.first : StateIteration := ⟨1, by decide, by decide⟩
def StepIteration.first : StepIteration := ⟨1, by decide, by decide⟩
def StepAttempt.first : StepAttempt := ⟨1, by decide, by decide⟩

/-- Rust's `u32::saturating_add(1)`. -/
def saturatingSucc (n : Nat) : Nat := min (n + 1) u32Max

/-- The next visit; an exhausted coordinate is refused. -/
def StateVisit.next (v : StateVisit) : Result StateVisit :=
  if h : v.val + 1 ≤ u32Max then
    .ok ⟨v.val + 1, by omega, h⟩
  else
    Outcome.refuse (.invariantViolated "state visit coordinate exhausted")

def StateIteration.next (i : StateIteration) : Result StateIteration :=
  Ordinal.new _ (saturatingSucc i.val)

def StepIteration.next (i : StepIteration) : Result StepIteration :=
  Ordinal.new _ (saturatingSucc i.val)

/-- The next attempt; the counter stays at its ceiling once it is there. -/
def StepAttempt.next (a : StepAttempt) : Result StepAttempt :=
  Ordinal.new _ (saturatingSucc a.val)

theorem StateVisit.next_val {v w : StateVisit} (h : v.next = .ok w) : w.val = v.val + 1 := by
  unfold StateVisit.next at h
  split at h
  · cases h
    rfl
  · simp at h

theorem StateIteration.next_val {i j : StateIteration} (h : i.next = .ok j) :
    j.val = i.val + 1 := by
  have hj := Ordinal.new_val h
  have hi : i.val ≤ 1000 := i.le_max
  simp only [saturatingSucc, u32Max] at hj
  omega

theorem StepIteration.next_val {i j : StepIteration} (h : i.next = .ok j) : j.val = i.val + 1 := by
  have hj := Ordinal.new_val h
  have hi : i.val ≤ 1000 := i.le_max
  simp only [saturatingSucc, u32Max] at hj
  omega

end Made
