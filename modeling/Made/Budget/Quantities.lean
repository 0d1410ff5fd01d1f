import Made.Values.Lineage

/-!
# Quantities of a budget

A budget is counted in four dimensions at once: duration, tokens, cost and tool calls.  Every
amount is a 64-bit number.  A limit may be missing, and a measurement may be observed, estimated or
unknown.
-/

namespace Made

/-! ## Dimensions and amounts -/

inductive BudgetDimension where
  | duration
  | tokens
  | cost
  | toolCalls
deriving DecidableEq, Repr

def BudgetDimension.all : List BudgetDimension := [.duration, .tokens, .cost, .toolCalls]

@[simp] theorem BudgetDimension.mem_all (d : BudgetDimension) : d ∈ BudgetDimension.all := by
  cases d <;> decide

abbrev ExecutionDuration := UInt64
abbrev BudgetTokenCount := UInt64
abbrev CostMicros := UInt64
abbrev ToolCallCount := UInt64

/-- An array of four amounts (`[u64; 4]`), indexed by the dimensions. -/
abbrev Amounts := BudgetDimension → UInt64

structure BudgetQuantities where
  duration : ExecutionDuration
  tokens : BudgetTokenCount
  cost : CostMicros
  toolCalls : ToolCallCount
deriving DecidableEq

namespace BudgetQuantities

def isZero (q : BudgetQuantities) : Bool :=
  q.duration == 0 && q.tokens == 0 && q.cost == 0 && q.toolCalls == 0

/-- The free function `values`. -/
def values (q : BudgetQuantities) : Amounts
  | .duration => q.duration
  | .tokens => q.tokens
  | .cost => q.cost
  | .toolCalls => q.toolCalls

/-- The free function `quantities`. -/
def ofValues (v : Amounts) : BudgetQuantities :=
  ⟨v .duration, v .tokens, v .cost, v .toolCalls⟩

@[simp] theorem values_ofValues (v : Amounts) : (ofValues v).values = v := by
  funext d
  cases d <;> rfl

end BudgetQuantities

/-! ## Measurements -/

inductive BudgetMeasurement (α : Type) where
  | observed (value : α)
  | estimated (value : α)
  | unknown
deriving DecidableEq, Repr

/-- How much a measurement is worth: what was seen is worth more than what was guessed. -/
def BudgetMeasurement.quality {α : Type} : BudgetMeasurement α → Nat
  | .unknown => 0
  | .estimated _ => 1
  | .observed _ => 2

structure MeasuredBudgetQuantities where
  duration : BudgetMeasurement ExecutionDuration
  tokens : BudgetMeasurement BudgetTokenCount
  cost : BudgetMeasurement CostMicros
  toolCalls : BudgetMeasurement ToolCallCount
deriving DecidableEq

namespace MeasuredBudgetQuantities

def default : MeasuredBudgetQuantities := ⟨.unknown, .unknown, .unknown, .unknown⟩

def isUnknown (q : MeasuredBudgetQuantities) : Bool :=
  q.duration == .unknown && q.tokens == .unknown && q.cost == .unknown && q.toolCalls == .unknown

def measurement (q : MeasuredBudgetQuantities) : BudgetDimension → BudgetMeasurement UInt64
  | .duration => q.duration
  | .tokens => q.tokens
  | .cost => q.cost
  | .toolCalls => q.toolCalls

/-- Whether the measurement is worth at least as much in every dimension and more in one.  The
amounts themselves are not compared. -/
def advances (q previous : MeasuredBudgetQuantities) : Bool :=
  let comparisons := BudgetDimension.all.map fun d =>
    compare (q.measurement d).quality (previous.measurement d).quality
  comparisons.all (fun order => !order.isLT) && comparisons.any fun order => order.isGT

end MeasuredBudgetQuantities

/-! ## Limits -/

/-- A currency: three upper-case ASCII letters. -/
structure CurrencyCode where
  val : String
  valid : (val.utf8ByteSize == 3 && val.toList.all fun c => 'A' ≤ c && c ≤ 'Z') = true
deriving DecidableEq

structure BudgetLimits where
  duration : Option ExecutionDuration
  tokens : Option BudgetTokenCount
  cost : Option CostMicros
  toolCalls : Option ToolCallCount
  currency : Option CurrencyCode
deriving DecidableEq

namespace BudgetLimits

def declared (maximum : UInt64) : Option UInt64 := if 0 < maximum then some maximum else none

def new (maximum : BudgetQuantities) (currency : Option CurrencyCode) : Result BudgetLimits := do
  Outcome.require (maximum.isZero = false) (.emptyCollection "budget_limits")
  Outcome.require (decide (0 < maximum.cost) = currency.isSome)
    (.invariantViolated "a cost budget and its currency must be declared together")
  pure
    { duration := declared maximum.duration
      tokens := declared maximum.tokens
      cost := declared maximum.cost
      toolCalls := declared maximum.toolCalls
      currency }

def limit (limits : BudgetLimits) : BudgetDimension → Option UInt64
  | .duration => limits.duration
  | .tokens => limits.tokens
  | .cost => limits.cost
  | .toolCalls => limits.toolCalls

/-- The free function `limit_values`: a dimension without a limit may be charged up to
`u64::MAX`. -/
def limitValues (limits : BudgetLimits) : Amounts := fun d =>
  (limits.limit d).getD (UInt64.ofNat (2 ^ 64 - 1))

end BudgetLimits

/-! ## Errors -/

structure BudgetReconciliationId where
  val : String
deriving DecidableEq

inductive BudgetError where
  | exhausted (accountId : BudgetAccountId) (dimension : BudgetDimension)
  | ledgerNotOpen
  | reservationNotFound (reservationId : BudgetReservationId)
  | reservationConflict (reservationId : BudgetReservationId)
  | reconciliationConflict (reconciliationId : BudgetReconciliationId)
  | missingReservationEstimate (dimension : BudgetDimension)
  | persistence (error : DomainError)
deriving DecidableEq

abbrev BudgetResult (α : Type) := Outcome BudgetError α

/-! ## Estimates -/

structure BudgetReservationEstimate where
  duration : BudgetMeasurement ExecutionDuration
  tokens : BudgetMeasurement BudgetTokenCount
  cost : BudgetMeasurement CostMicros
  toolCalls : BudgetMeasurement ToolCallCount
deriving DecidableEq

namespace BudgetReservationEstimate

/-- The amount to reserve in one dimension: an estimate may be missing only where nothing is
limited, and then nothing is reserved. -/
def amountOf (dimension : BudgetDimension) (value : BudgetMeasurement UInt64) (limited : Bool) :
    BudgetResult UInt64 :=
  match value with
  | .observed value => .ok value
  | .estimated value => .ok value
  | .unknown =>
    if limited then Outcome.refuse (.missingReservationEstimate dimension) else .ok 0

def durationOf := amountOf .duration
def tokensOf := amountOf .tokens
def costOf := amountOf .cost
def toolCallsOf := amountOf .toolCalls

def quantities (estimate : BudgetReservationEstimate) (limits : BudgetLimits) :
    BudgetResult BudgetQuantities := do
  let duration ← durationOf estimate.duration limits.duration.isSome
  let tokens ← tokensOf estimate.tokens limits.tokens.isSome
  let cost ← costOf estimate.cost limits.cost.isSome
  let toolCalls ← toolCallsOf estimate.toolCalls limits.toolCalls.isSome
  pure ⟨duration, tokens, cost, toolCalls⟩

end BudgetReservationEstimate

end Made
