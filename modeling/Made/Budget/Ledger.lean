import Made.Budget.Quantities
import Made.Library.Counters
import Made.Library.EventSourcing

/-!
# The budget ledger

One account, its limits and the reservations made on it, folded from the events of the account.  A
reservation is charged in full until it is reconciled; from then on each dimension is charged with
what was observed or estimated, and with the full reservation where the measurement is unknown.

The four running totals of `balance` are one bank of counters, indexed by the local variable that
holds the total and by the dimension.
-/

namespace Made

open Outcome

/-! ## Reservations and events -/

instance : Ord BudgetReservationId := ⟨compareOn fun id => id.val⟩

instance : Std.TransOrd BudgetReservationId :=
  inferInstanceAs (Std.TransCmp (compareOn fun id : BudgetReservationId => id.val))

instance : Std.LawfulEqOrd BudgetReservationId where
  eq_of_compare {a b} h := by
    cases a
    cases b
    exact congrArg BudgetReservationId.mk (Std.LawfulEqOrd.eq_of_compare h)

/-- A budget operation is named by the execution operation it pays for. -/
abbrev BudgetOperationId := ExecutionOperationId

structure BudgetReservation where
  id : BudgetReservationId
  operationId : BudgetOperationId
  quantities : BudgetQuantities
  estimate : BudgetReservationEstimate
  reservedAt : OffsetDateTime
  reconciliation : Option (BudgetReconciliationId × MeasuredBudgetQuantities)
deriving DecidableEq

def BudgetReservation.reconcile (r : BudgetReservation) (id : BudgetReconciliationId)
    (measured : MeasuredBudgetQuantities) : BudgetReservation :=
  { r with reconciliation := some (id, measured) }

inductive BudgetLedgerEvent where
  | opened (accountId : BudgetAccountId) (limits : BudgetLimits) (openedAt : OffsetDateTime)
  | reserved (accountId : BudgetAccountId) (reservationId : BudgetReservationId)
      (operationId : BudgetOperationId) (quantities : BudgetQuantities)
      (estimate : BudgetReservationEstimate) (reservedAt : OffsetDateTime)
  | reconciled (accountId : BudgetAccountId) (reservationId : BudgetReservationId)
      (reconciliationId : BudgetReconciliationId) (measured : MeasuredBudgetQuantities)
      (reconciledAt : OffsetDateTime)
deriving DecidableEq

def BudgetLedgerEvent.accountId : BudgetLedgerEvent → BudgetAccountId
  | .opened accountId .. => accountId
  | .reserved accountId .. => accountId
  | .reconciled accountId .. => accountId

structure BudgetBalance where
  limits : BudgetLimits
  reserved : BudgetQuantities
  observed : BudgetQuantities
  estimated : BudgetQuantities
  unconfirmed : BudgetQuantities
  overrun : BudgetQuantities
  available : BudgetQuantities
deriving DecidableEq

structure BudgetLedger where
  accountId : Option BudgetAccountId
  limits : Option BudgetLimits
  version : Nat
  reservations : Map BudgetReservationId BudgetReservation

/-! ## The arithmetic of the balance -/

inductive ChargeClass where
  | reserved
  | observed
  | estimated
  | unconfirmed
deriving DecidableEq, Repr

def ChargeClass.all : List ChargeClass := [.reserved, .observed, .estimated, .unconfirmed]

def budgetOverflow : BudgetError := .persistence (.invariantViolated "budget total overflow")

section Arithmetic

variable {ι : Type} [DecidableEq ι]

def addAt (target : ι → UInt64) (index : ι) (value : UInt64) : BudgetResult (ι → UInt64) :=
  okOr (Counters.bump target index value) budgetOverflow

/-- `add`, on the array of four that stands at `place` in the bank. -/
def add (place : BudgetDimension → ι) (target : ι → UInt64) (value : Amounts) :
    BudgetResult (ι → UInt64) :=
  BudgetDimension.all.foldlM (fun sums d => addAt sums (place d) (value d)) target

end Arithmetic

abbrev BudgetTotals := ChargeClass × BudgetDimension → UInt64

def classifyOne (totals : BudgetTotals) (index : BudgetDimension) (requested : UInt64)
    (measurement : BudgetMeasurement UInt64) : BudgetResult BudgetTotals :=
  match measurement with
  | .observed value => addAt totals (.observed, index) value
  | .estimated value => addAt totals (.estimated, index) value
  | .unknown => addAt totals (.unconfirmed, index) requested

def classify (totals : BudgetTotals) (requested : Amounts) (measured : MeasuredBudgetQuantities) :
    BudgetResult BudgetTotals :=
  BudgetDimension.all.foldlM
    (fun totals d => classifyOne totals d (requested d) (measured.measurement d)) totals

def sums (values : List Amounts) : BudgetResult Amounts :=
  values.foldlM (add id) fun _ => 0

/-- `zip` with `u64::saturating_sub`. -/
def saturatingSub (left right : Amounts) : Amounts := fun d =>
  if right d ≤ left d then left d - right d else 0

variable (l : BudgetLedger)
variable (events : List BudgetLedgerEvent)

namespace BudgetLedger

/-- The body of the loop of `balance`. -/
def chargeReservation (totals : BudgetTotals) (reservation : BudgetReservation) :
    BudgetResult BudgetTotals :=
  match reservation.reconciliation with
  | none => add (fun d => (.reserved, d)) totals reservation.quantities.values
  | some (_, measured) => classify totals reservation.quantities.values measured

/-- The part of `balance` after the loop. -/
def settleBalance (limits : BudgetLimits) (totals : BudgetTotals) : BudgetResult BudgetBalance := do
  let class_ := fun c d => totals (c, d)
  let maximum := limits.limitValues
  let charged ← sums (ChargeClass.all.map class_)
  pure
    { limits
      reserved := .ofValues (class_ .reserved)
      observed := .ofValues (class_ .observed)
      estimated := .ofValues (class_ .estimated)
      unconfirmed := .ofValues (class_ .unconfirmed)
      overrun := .ofValues (saturatingSub charged maximum)
      available := .ofValues (saturatingSub maximum charged) }

def balance : BudgetResult BudgetBalance := do
  let limits ← okOr l.limits .ledgerNotOpen
  let totals ← l.reservations.inOrder.foldlM chargeReservation fun _ => 0
  settleBalance limits totals

def ensureCapacity (request : BudgetQuantities) : BudgetResult Unit := do
  let accountId ← okOr l.accountId .ledgerNotOpen
  let balance ← l.balance
  match BudgetDimension.all.find? fun d => 0 < balance.overrun.values d with
  | some dimension => refuse (.exhausted accountId dimension)
  | none =>
    match BudgetDimension.all.find? fun d =>
      balance.available.values d < request.values d with
    | some dimension => refuse (.exhausted accountId dimension)
    | none => .ok ()

/-! ## Decisions -/

def empty : BudgetLedger := ⟨none, none, 0, ∅⟩

def decideOpen (accountId : BudgetAccountId) (limits : BudgetLimits)
    (openedAt : OffsetDateTime) : BudgetResult (Option BudgetLedgerEvent) :=
  match l.accountId, l.limits with
  | none, none => .ok (some (.opened accountId limits openedAt))
  | some storedId, some storedLimits =>
    if storedId = accountId ∧ storedLimits = limits then .ok none
    else refuse (.persistence (.conflict "budget_ledger"))
  | _, _ => refuse (.persistence (.conflict "budget_ledger"))

def decideReserve (operationId : BudgetOperationId) (estimate : BudgetReservationEstimate)
    (reservedAt : OffsetDateTime) : BudgetResult (Option BudgetLedgerEvent) := do
  let accountId ← okOr l.accountId .ledgerNotOpen
  let reservationId := BudgetReservationId.forOperation accountId operationId
  let limits ← okOr l.limits .ledgerNotOpen
  let quantities ← estimate.quantities limits
  match l.reservations[reservationId]? with
  | some existing =>
    if existing.operationId = operationId ∧ existing.quantities = quantities ∧
        existing.estimate = estimate then
      pure none
    else
      refuse (.reservationConflict reservationId)
  | none => do
    l.ensureCapacity quantities
    pure (some (.reserved accountId reservationId operationId quantities estimate reservedAt))

def decideReconcile (reservationId : BudgetReservationId)
    (reconciliationId : BudgetReconciliationId) (measured : MeasuredBudgetQuantities)
    (reconciledAt : OffsetDateTime) : BudgetResult (Option BudgetLedgerEvent) := do
  let accountId ← okOr l.accountId .ledgerNotOpen
  let reservation ← okOr l.reservations[reservationId]? (.reservationNotFound reservationId)
  let event := .reconciled accountId reservationId reconciliationId measured reconciledAt
  match reservation.reconciliation with
  | none => pure (some event)
  | some (storedId, stored) =>
    if storedId ≠ reconciliationId then
      refuse (.reconciliationConflict reconciliationId)
    else if stored = measured then
      pure none
    else if !measured.advances stored then
      refuse (.reconciliationConflict reconciliationId)
    else
      pure (some event)

/-! ## The fold -/

/-- The check that opens `apply`: an open ledger takes events of its own account only. -/
def requireOwn (event : BudgetLedgerEvent) : BudgetResult Unit :=
  match l.accountId with
  | none => .ok ()
  | some accountId =>
    require (event.accountId = accountId)
      (.persistence (.invariantViolated "budget event belongs to another account"))

/-- The check of a reconciliation against the one already stored. -/
def requireAdvance (reservation : BudgetReservation) (reconciliationId : BudgetReconciliationId)
    (measured : MeasuredBudgetQuantities) : BudgetResult Unit :=
  match reservation.reconciliation with
  | none => .ok ()
  | some (storedId, stored) =>
    require (storedId = reconciliationId ∧ measured.advances stored = true)
      (.reconciliationConflict reconciliationId)

/-- The arms of `apply`, without the version. -/
def applyArm (event : BudgetLedgerEvent) : BudgetResult BudgetLedger :=
  match event with
  | .opened accountId limits _ => do
    require (l.accountId = none) (.persistence (.alreadyExists "budget_ledger"))
    pure { l with accountId := some accountId, limits := some limits }
  | .reserved _ reservationId operationId quantities estimate reservedAt => do
    let accountId ← okOr l.accountId .ledgerNotOpen
    require (reservationId = BudgetReservationId.forOperation accountId operationId)
      (.reservationConflict reservationId)
    require (l.reservations[reservationId]? = none)
      (.persistence (.alreadyExists "budget_reservation"))
    l.ensureCapacity quantities
    let limits ← okOr l.limits .ledgerNotOpen
    let expectedQuantities ← estimate.quantities limits
    require (quantities = expectedQuantities) (.reservationConflict reservationId)
    pure
      { l with
        reservations := l.reservations.insert reservationId
          ⟨reservationId, operationId, quantities, estimate, reservedAt, none⟩ }
  | .reconciled _ reservationId reconciliationId measured _ => do
    let reservation ← okOr l.reservations[reservationId]? (.reservationNotFound reservationId)
    requireAdvance reservation reconciliationId measured
    pure
      { l with
        reservations := l.reservations.insert reservationId
          (reservation.reconcile reconciliationId measured) }

def apply (event : BudgetLedgerEvent) : BudgetResult BudgetLedger := do
  l.requireOwn event
  let next ← l.applyArm event
  pure { next with version := next.version + 1 }

def rehydrate : BudgetResult BudgetLedger :=
  events.foldlM apply empty

end BudgetLedger

/-! ## The ledger as a machine -/

inductive BudgetRequest where
  | open_ (accountId : BudgetAccountId) (limits : BudgetLimits) (openedAt : OffsetDateTime)
  | reserve (operationId : BudgetOperationId) (estimate : BudgetReservationEstimate)
      (reservedAt : OffsetDateTime)
  | reconcile (reservationId : BudgetReservationId) (reconciliationId : BudgetReconciliationId)
      (measured : MeasuredBudgetQuantities) (reconciledAt : OffsetDateTime)

namespace BudgetLedger

/-- The decision on a request; nothing is recorded where it was granted before. -/
def decideRequest : BudgetRequest → BudgetResult (List BudgetLedgerEvent)
  | .open_ accountId limits openedAt =>
    Option.toList <$> l.decideOpen accountId limits openedAt
  | .reserve operationId estimate reservedAt =>
    Option.toList <$> l.decideReserve operationId estimate reservedAt
  | .reconcile reservationId reconciliationId measured reconciledAt =>
    Option.toList <$> l.decideReconcile reservationId reconciliationId measured reconciledAt

def machine : EventSourcing.Machine BudgetLedger BudgetRequest BudgetLedgerEvent BudgetError :=
  ⟨decideRequest, apply⟩

theorem rehydrate_eq_fold :
    rehydrate events = machine.fold empty events := by
  unfold rehydrate
  generalize empty = l
  induction events generalizing l with
  | nil => rfl
  | cons event rest ih =>
    rw [List.foldlM_cons, EventSourcing.Machine.fold]
    exact congrArg _ (funext ih)

end BudgetLedger

end Made
