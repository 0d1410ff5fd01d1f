import Made.Values.Text
import Made.Values.Time

/-!
# The instance a composition takes

An agentic system runs compositions of published ceremonies, some of them round after round.  The
ceremony a composition takes in one round of one run has a derived identity, so that launching it
again names the same ceremony.
-/

namespace Made

abbrev AgenticSystemExecutionId := Text (plainRule "agentic_system_execution_id" 256)

/-- A lower snake-case identifier, hyphens and digits allowed. -/
def slugRule (field : String) (maxLen : Nat) : TextRule :=
  ⟨field, maxLen, fun c => isAsciiLowercase c || isAsciiDigit c || c == '_' || c == '-'⟩

abbrev SystemCeremonyId := Text (slugRule "system_ceremony_id" 128)

instance : Std.TransOrd AgenticSystemExecutionId := inferInstance
instance : Std.TransOrd SystemCeremonyId := inferInstance
instance : Std.LawfulEqOrd SystemCeremonyId := inferInstance
instance : LawfulBEq SystemCeremonyId := inferInstance
instance : LawfulBEq (SystemCeremonyId × SystemCeremonyId) := inferInstance

/-- How many rounds of one looping composition a run has already done. -/
structure LoopRound where
  val : Nat
  le_max : val ≤ u32Max
deriving DecidableEq

@[ext] theorem LoopRound.ext {a b : LoopRound} (h : a.val = b.val) : a = b := by
  cases a
  cases b
  simp_all

/-- The identity one composition takes in one round of one run. -/
def instanceId (execution : AgenticSystemExecutionId) (ceremony : SystemCeremonyId)
    (round : LoopRound) : Result CeremonyId :=
  Text.new _ (execution.val ++ "-" ++ ceremony.val ++ "-" ++ toString round.val)

end Made
