import Made.Budget.Balance

/-!
# Budgets

Reservations are granted against the balance of a budget, which is folded from its events.
-/

namespace Made

open EventSourcing Outcome BudgetReservationEstimate

namespace BudgetLedger

variable {l next : BudgetLedger} {operationId : BudgetOperationId}
  {estimate : BudgetReservationEstimate} {reservedAt : OffsetDateTime} {event : BudgetLedgerEvent}
  {reservationId : BudgetReservationId} {reconciliationId : BudgetReconciliationId}
  {measured : MeasuredBudgetQuantities} {accountId : BudgetAccountId}
  {reconciledAt : OffsetDateTime} {quantities : BudgetQuantities} {limits : BudgetLimits}
  {b : BudgetBalance}

/-! ## Decided events are accepted -/

theorem decideReserve_eq_some
    (h : l.decideReserve operationId estimate reservedAt = .ok (some event)) :
    ∃ accountId limits quantities, l.accountId = some accountId ∧ l.limits = some limits ∧
      estimate.quantities limits = .ok quantities ∧
      l.reservations[BudgetReservationId.forOperation accountId operationId]? = none ∧
      l.ensureCapacity quantities = .ok () ∧
      event = .reserved accountId (BudgetReservationId.forOperation accountId operationId)
        operationId quantities estimate reservedAt := by
  simp only [decideReserve, bind_eq_ok, okOr_eq_ok] at h
  obtain ⟨accountId, hacct, limits, hlim, quantities, hquant, h⟩ := h
  refine ⟨accountId, limits, quantities, hacct, hlim, hquant, ?_⟩
  split at h
  · split at h <;> simp at h
  · rename_i hfresh
    simp only [bind_eq_ok, pure_eq_ok, Option.some.injEq] at h
    obtain ⟨⟨⟩, hcap, rfl⟩ := h
    exact ⟨hfresh, hcap, rfl⟩

theorem decideReconcile_eq_some
    (h : l.decideReconcile reservationId reconciliationId measured reconciledAt =
      .ok (some event)) :
    ∃ accountId r, l.accountId = some accountId ∧ l.reservations[reservationId]? = some r ∧
      Admits r reconciliationId measured ∧
      event = .reconciled accountId reservationId reconciliationId measured reconciledAt := by
  simp only [decideReconcile, bind_eq_ok, okOr_eq_ok] at h
  obtain ⟨accountId, hacct, r, hr, h⟩ := h
  refine ⟨accountId, r, hacct, hr, ?_⟩
  unfold Admits
  cases hst : r.reconciliation with
  | none =>
    simp only [hst, pure_eq_ok, Option.some.injEq] at h
    exact ⟨by simp, h.symm⟩
  | some stored =>
    obtain ⟨storedId, stored⟩ := stored
    simp only [hst, ne_eq, ite_not, ite_eq_ok, pure_eq_ok,
      refuse_ne_ok, Option.some.injEq, and_false, or_false, false_or,
      Bool.not_eq_true', Bool.not_eq_false, reduceCtorEq] at h
    obtain ⟨hid, -, hadvances, rfl⟩ := h
    refine ⟨?_, rfl⟩
    rintro _ _ ⟨⟩
    exact ⟨hid, hadvances⟩

theorem apply_of_decideReserve
    (h : l.decideReserve operationId estimate reservedAt = .ok (some event)) :
    ∃ next r, l.apply event = .ok next ∧ r.operationId = operationId ∧ r.reconciliation = none ∧
      l.reservations[r.id]? = none ∧ next.reservations = l.reservations.insert r.id r := by
  obtain ⟨accountId, limits, quantities, hacct, hlim, hquant, hfresh, hcap, rfl⟩ :=
    decideReserve_eq_some h
  refine ⟨_, ⟨_, operationId, _, _, _, none⟩, apply_eq_ok.mpr ⟨?_, _, applyArm_reserved.mpr
    ⟨accountId, limits, hacct, hlim, rfl, hfresh, hcap, hquant, rfl⟩, rfl⟩, rfl, rfl, hfresh, rfl⟩
  intro own hown
  exact Option.some.inj (hacct.symm.trans hown)

theorem apply_of_decideReconcile
    (h : l.decideReconcile reservationId reconciliationId measured reconciledAt =
      .ok (some event)) : ∃ next r, l.apply event = .ok next ∧
    l.reservations[reservationId]? = some r ∧ next.reservations =
      l.reservations.insert reservationId (r.reconcile reconciliationId measured) := by
  obtain ⟨accountId, r, hacct, hr, hadms, rfl⟩ := decideReconcile_eq_some h
  refine ⟨_, r, apply_eq_ok.mpr ⟨?_, _, applyArm_reconciled.mpr ⟨r, hr, hadms, rfl⟩, rfl⟩, hr, rfl⟩
  intro own hown
  exact Option.some.inj (hacct.symm.trans hown)

/-! ## Charges after an event -/

/-- What the reservations other than `reservationId` are charged in one dimension. -/
def chargedBeside (l : BudgetLedger) (reservationId : BudgetReservationId) (d : BudgetDimension) :
    Nat :=
  Counters.total (l.reservations.erase reservationId) fun r => (r.charge d).2.toNat

/-- A reconciliation leaves room for the charges of all reservations in 64 bits. -/
def LeavesRoom (l : BudgetLedger) : BudgetLedgerEvent → Prop
  | .reconciled _ reservationId reconciliationId measured _ =>
    ∀ r ∈ l.reservations[reservationId]?, ∀ d ∈ BudgetDimension.all,
      l.chargedBeside reservationId d +
        ((r.reconcile reconciliationId measured).charge d).2.toNat < 2 ^ 64
  | _ => True

instance (l : BudgetLedger) (event : BudgetLedgerEvent) : Decidable (l.LeavesRoom event) :=
  match event with
  | .opened .. => inferInstanceAs (Decidable True)
  | .reserved .. => inferInstanceAs (Decidable True)
  | .reconciled _ reservationId _ _ _ =>
    inferInstanceAs (Decidable (∀ r ∈ l.reservations[reservationId]?, ∀ d ∈ BudgetDimension.all, _))

/-- A reservation that was accepted fits beside all charges, within the limits. -/
theorem charged_of_reserved
    (h : l.apply (.reserved accountId reservationId operationId quantities estimate reservedAt) =
      .ok next) :
    ∃ limits, next.limits = some limits ∧
      ∀ d, next.charged d ≤ (limits.limitValues d).toNat := by
  obtain ⟨-, _, harm, rfl⟩ := apply_eq_ok.mp h
  obtain ⟨account, limits, -, hlim, -, hfresh, hcap, -, rfl⟩ := applyArm_reserved.mp harm
  obtain ⟨-, b, hb, -, hroom⟩ := ensureCapacity_eq_ok.mp hcap
  obtain ⟨hspec, -⟩ := balance_spec hb
  refine ⟨b.limits, hspec.limits, fun d => ?_⟩
  rw [charged, Counters.total_insert, Counters.total_erase_of_none hfresh]
  exact hroom d

/-- A run keeps the charges within 64 bits when each of its reconciliations does. -/
theorem fits_step (hroom : l.LeavesRoom event) (h : l.apply event = .ok next)
    (hfits : ∀ d, l.charged d < 2 ^ 64) : ∀ d, next.charged d < 2 ^ 64 := by
  intro d
  cases event with
  | opened accountId limits openedAt =>
    obtain ⟨-, _, harm, rfl⟩ := apply_eq_ok.mp h
    obtain ⟨-, rfl⟩ := applyArm_opened.mp harm
    exact hfits d
  | reserved accountId reservationId operationId quantities estimate reservedAt =>
    obtain ⟨limits, -, hle⟩ := charged_of_reserved h
    exact lt_of_le_of_lt (hle d) (limits.limitValues d).toNat_lt
  | reconciled accountId reservationId reconciliationId measured reconciledAt =>
    obtain ⟨-, _, harm, rfl⟩ := apply_eq_ok.mp h
    obtain ⟨r, hr, -, rfl⟩ := applyArm_reconciled.mp harm
    rw [charged, Counters.total_insert]
    exact hroom r hr d d.mem_all

/-- An event that is accepted and keeps the charges within 64 bits leaves room. -/
theorem leavesRoom_of_fits (h : l.apply event = .ok next) (hfits : ∀ d, next.charged d < 2 ^ 64) :
    l.LeavesRoom event := by
  cases event with
  | opened | reserved => trivial
  | reconciled accountId reservationId reconciliationId measured reconciledAt =>
    intro r hr d _
    obtain ⟨-, _, harm, rfl⟩ := apply_eq_ok.mp h
    obtain ⟨r', hr', -, rfl⟩ := applyArm_reconciled.mp harm
    cases Option.some.inj (hr.symm.trans hr')
    have := hfits d
    rwa [charged, Counters.total_insert] at this

theorem open_of_apply (h : l.apply event = .ok next) (hlim : l.limits = some limits) :
    ∃ limits, next.limits = some limits := by
  obtain ⟨-, _, harm, rfl⟩ := apply_eq_ok.mp h
  cases event with
  | opened =>
    obtain ⟨-, rfl⟩ := applyArm_opened.mp harm
    exact ⟨_, rfl⟩
  | reserved =>
    obtain ⟨_, _, _, _, _, _, _, _, rfl⟩ := applyArm_reserved.mp harm
    exact ⟨limits, hlim⟩
  | reconciled =>
    obtain ⟨_, _, _, rfl⟩ := applyArm_reconciled.mp harm
    exact ⟨limits, hlim⟩

theorem charged_empty_lt (d : BudgetDimension) : empty.charged d < 2 ^ 64 := by
  have hnil : empty.reservations.toList = [] := Std.ExtTreeMap.toList_eq_nil_iff.mpr rfl
  rw [charged, Counters.total, hnil, List.map_nil, List.sum_nil]
  decide

/-! ## Refusals of a ledger that has a balance -/

theorem amountOf_ne_overflow (dimension : BudgetDimension) (value : BudgetMeasurement UInt64)
    (limited : Bool) : amountOf dimension value limited ≠ refuse budgetOverflow := by
  unfold amountOf
  split
  · exact ok_ne_refuse _ _
  · exact ok_ne_refuse _ _
  · split
    · simp [refuse_eq_refuse, budgetOverflow]
    · exact ok_ne_refuse _ _

theorem quantities_ne_overflow (estimate : BudgetReservationEstimate) (limits : BudgetLimits) :
    estimate.quantities limits ≠ refuse budgetOverflow := by
  simp only [quantities, durationOf, tokensOf, costOf,
    toolCallsOf, bind_eq_refuse, amountOf_ne_overflow,
    pure_ne_refuse, ne_eq, and_false, exists_false, or_self, not_false_eq_true]

theorem ensureCapacity_ne_overflow (hb : l.balance = .ok b) (request : BudgetQuantities) :
    l.ensureCapacity request ≠ refuse budgetOverflow := by
  intro h
  simp only [ensureCapacity, hb, ok_bind, bind_eq_refuse, okOr_eq_refuse,
    okOr_eq_ok, budgetOverflow, reduceCtorEq, and_false, false_or] at h
  obtain ⟨accountId, -, h⟩ := h
  split at h
  · simp [refuse_eq_refuse] at h
  · split at h
    · simp [refuse_eq_refuse] at h
    · exact ok_ne_refuse _ _ h

theorem decideReserve_ne_overflow (hb : l.balance = .ok b) (operationId : BudgetOperationId)
    (estimate : BudgetReservationEstimate) (reservedAt : OffsetDateTime) :
    l.decideReserve operationId estimate reservedAt ≠ refuse budgetOverflow := by
  intro h
  simp only [decideReserve, bind_eq_refuse, okOr_eq_refuse, okOr_eq_ok,
    quantities_ne_overflow, false_or] at h
  obtain ⟨-, h⟩ | ⟨accountId, -, ⟨-, h⟩ | ⟨limits, -, quantities, -, h⟩⟩ := h
  · cases h
  · cases h
  · split at h
    · split at h
      · exact pure_ne_refuse _ _ h
      · simp [refuse_eq_refuse, budgetOverflow] at h
    · simp only [bind_eq_refuse, ensureCapacity_ne_overflow hb, pure_ne_refuse,
        and_false, exists_false, or_self] at h

/-! ## Ledgers that take no event any more -/

/-- Every reservation was reconciled with an observation in every dimension. -/
def Settled (l : BudgetLedger) : Prop :=
  ∀ (id : BudgetReservationId) (r : BudgetReservation), l.reservations[id]? = some r →
    ∃ reconciliationId measured, r.reconciliation = some (reconciliationId, measured) ∧
      ∀ d, (measured.measurement d).quality = 2

theorem quality_le {α : Type} (m : BudgetMeasurement α) : m.quality ≤ 2 := by
  cases m <;> simp [BudgetMeasurement.quality]

theorem not_advances {stored : MeasuredBudgetQuantities}
    (h : ∀ d, (stored.measurement d).quality = 2) : measured.advances stored = false := by
  rw [Bool.eq_false_iff]
  intro hadvances
  simp only [MeasuredBudgetQuantities.advances, Bool.and_eq_true, List.any_map, List.any_eq_true,
    Function.comp_apply, h] at hadvances
  obtain ⟨-, d, -, hgt⟩ := hadvances
  rw [Ordering.isGT_iff_eq_gt, Nat.compare_eq_gt] at hgt
  exact absurd (quality_le (measured.measurement d)) (by omega)

section

variable (hacct : l.accountId = some accountId)
include hacct

theorem ensureCapacity_of_overflow (hbal : l.balance = refuse budgetOverflow)
    (request : BudgetQuantities) : l.ensureCapacity request = refuse budgetOverflow := by
  simp only [ensureCapacity, hacct, hbal, okOr, ok_bind]
  rfl

theorem apply_ne_ok (hbal : l.balance = refuse budgetOverflow) (hset : l.Settled)
    (event : BudgetLedgerEvent) (next : BudgetLedger) : l.apply event ≠ .ok next := by
  intro h
  obtain ⟨-, _, harm, -⟩ := apply_eq_ok.mp h
  cases event with
  | opened =>
    obtain ⟨hcl, -⟩ := applyArm_opened.mp harm
    rw [hacct] at hcl
    cases hcl
  | reserved =>
    obtain ⟨_, _, _, _, _, _, hcap, _, _⟩ := applyArm_reserved.mp harm
    rw [ensureCapacity_of_overflow hacct hbal] at hcap
    exact absurd hcap (refuse_ne_ok _ _)
  | reconciled =>
    obtain ⟨r, hr, hadms, -⟩ := applyArm_reconciled.mp harm
    obtain ⟨reconciliationId, stored, hst, hquality⟩ := hset _ r hr
    have hadvances := (hadms _ _ hst).2
    rw [not_advances hquality] at hadvances
    cases hadvances

theorem decideReserve_of_overflow (hlim : l.limits = some limits)
    (hbal : l.balance = refuse budgetOverflow)
    (hquant : estimate.quantities limits = .ok quantities)
    (hnew : l.reservations[BudgetReservationId.forOperation accountId operationId]? = none)
    (reservedAt : OffsetDateTime) :
    l.decideReserve operationId estimate reservedAt = refuse budgetOverflow := by
  simp only [decideReserve, hacct, hlim, hquant, hnew, okOr, ok_bind,
    ensureCapacity_of_overflow hacct hbal]
  rfl

end

end BudgetLedger

open BudgetLedger

/-! ## A small account -/

def tokenLimits : BudgetLimits := ⟨none, some 10, none, none, none⟩

def tokenAccount : BudgetAccountId := ⟨"root"⟩

def firstOperation : BudgetOperationId :=
  ⟨"0000000000000000000000000000000000000000000000000000000000000001", by decide⟩

def secondOperation : BudgetOperationId :=
  ⟨"0000000000000000000000000000000000000000000000000000000000000002", by decide⟩

def oneToken : BudgetReservationEstimate := ⟨.unknown, .estimated 1, .unknown, .unknown⟩

def reserveOne (operationId : BudgetOperationId) : BudgetLedgerEvent :=
  .reserved tokenAccount (.forOperation tokenAccount operationId) operationId ⟨0, 1, 0, 0⟩ oneToken
    (.afterEpoch 0)

def observeTokens (operationId : BudgetOperationId) (tokens : UInt64) : BudgetLedgerEvent :=
  .reconciled tokenAccount (.forOperation tokenAccount operationId) ⟨"receipt"⟩
    ⟨.observed 0, .observed tokens, .observed 0, .observed 0⟩ (.afterEpoch 0)

/-- Two reservations of one token each, measured at `u64::MAX` tokens and at one. -/
def overflowingEvents : List BudgetLedgerEvent :=
  [.opened tokenAccount tokenLimits (.afterEpoch 0), reserveOne firstOperation,
    reserveOne secondOperation, observeTokens firstOperation (UInt64.ofNat (2 ^ 64 - 1)),
    observeTokens secondOperation 1]

/-- Whether a reservation was reconciled with an observation in every dimension. -/
def settledReservation (r : BudgetReservation) : Bool :=
  r.reconciliation.any fun (_, measured) =>
    BudgetDimension.all.all fun d => (measured.measurement d).quality == 2

theorem settled_of_all {l : BudgetLedger}
    (h : l.reservations.inOrder.all settledReservation = true) : l.Settled := by
  intro id r hr
  have hset := List.all_eq_true.mp h r (Map.mem_inOrder.mpr ⟨id, hr⟩)
  simp only [settledReservation, Option.any_eq_true, List.all_eq_true, beq_iff_eq,
    BudgetDimension.mem_all, forall_const] at hset
  obtain ⟨⟨reconciliationId, measured⟩, hst, hquality⟩ := hset
  exact ⟨reconciliationId, measured, hst, hquality⟩

/-! ## The results -/

/-- The ledger is any, so in particular every one that accepted events lead to.  A reservation is
added to the others, and a reconciliation replaces the one it is about. -/
theorem ledger_charges_exactly (l : BudgetLedger) :
    (∀ operationId estimate reservedAt event,
      l.decideReserve operationId estimate reservedAt = .ok (some event) →
        ∃ next b r, l.apply event = .ok next ∧ next.balance = .ok b ∧
          (∀ d limit, b.limits.limit d = some limit → b.charged d ≤ limit.toNat) ∧
          r.operationId = operationId ∧ r.reconciliation = none ∧
            l.reservations[r.id]? = none ∧ next.reservations = l.reservations.insert r.id r) ∧
    (∀ reservationId reconciliationId measured reconciledAt event,
      l.decideReconcile reservationId reconciliationId measured reconciledAt = .ok (some event) →
        ∃ next r, l.apply event = .ok next ∧ l.reservations[reservationId]? = some r ∧
          next.reservations =
            l.reservations.insert reservationId (r.reconcile reconciliationId measured)) ∧
    ∀ b, l.balance = .ok b → l.limits = some b.limits ∧
      (∀ c d, (b.total c d).toNat = Counters.total l.reservations fun r => r.chargedTo c d) ∧
      (∀ d, b.charged d = Counters.total l.reservations fun r => (r.charge d).2.toNat) ∧
      ∀ d, (b.available.values d).toNat = (b.limits.limitValues d).toNat - b.charged d ∧
        (b.overrun.values d).toNat = b.charged d - (b.limits.limitValues d).toNat := by
  refine ⟨?_, ?_, ?_⟩
  · intro operationId estimate reservedAt event hdecided
    obtain ⟨next, r, hnext, hadded⟩ := apply_of_decideReserve hdecided
    obtain ⟨_, _, _, _, _, _, _, _, rfl⟩ := decideReserve_eq_some hdecided
    obtain ⟨limits, hlim, hle⟩ := charged_of_reserved hnext
    obtain ⟨b, hb⟩ := balance_of_fits hlim fun d =>
      lt_of_le_of_lt (hle d) (limits.limitValues d).toNat_lt
    obtain ⟨hspec, -⟩ := balance_spec hb
    refine ⟨next, b, r, hnext, hb, fun d limit hlimit => ?_, hadded⟩
    cases Option.some.inj (hlim.symm.trans hspec.limits)
    have hmax : b.limits.limitValues d = limit := by
      simp [BudgetLimits.limitValues, hlimit]
    rw [hspec.charged, ← hmax]
    exact hle d
  · intro reservationId reconciliationId measured reconciledAt event hdecided
    exact apply_of_decideReconcile hdecided
  · intro b hb
    obtain ⟨hspec, -⟩ := balance_spec hb
    refine ⟨hspec.limits, hspec.total, hspec.charged, fun d => ?_⟩
    rw [hspec.charged]
    exact ⟨hspec.available d, hspec.overrun d⟩

/-- With one token reserved, the second reservation is decided, accepted and within the limit. -/
theorem ledger_charges_second_token : ∃ l event, rehydrate (overflowingEvents.take 2) = .ok l ∧
    l.decideReserve secondOperation oneToken ⟨0, by decide⟩ = .ok (some event) ∧
    ∃ next b, l.apply event = .ok next ∧ next.balance = .ok b ∧
      ∀ d limit, b.limits.limit d = some limit → b.charged d ≤ limit.toNat := by
  have hrun : (rehydrate (overflowingEvents.take 2)).toOption.any (fun l =>
      (l.decideReserve secondOperation oneToken ⟨0, by decide⟩).toOption.any (·.isSome)) =
      true := by
    decide +kernel
  obtain ⟨l, hl, hdecide⟩ := (Option.any_eq_true _ _).mp hrun
  obtain ⟨event, hev, hsome⟩ := (Option.any_eq_true _ _).mp hdecide
  obtain ⟨event, rfl⟩ := Option.isSome_iff_exists.mp hsome
  have hreached := eq_ok_of_toOption hl
  have hdecided := eq_ok_of_toOption hev
  obtain ⟨next, b, -, hnext, hb, hle, -⟩ := (ledger_charges_exactly l).1 _ _ _ _ hdecided
  exact ⟨l, event, hreached, hdecided, next, b, hnext, hb, hle⟩

/-- In every run whose reconciliations leave room, an open ledger has a balance and no reservation
overflows.  The condition is exact: on a ledger with a balance, an accepted event leaves one when
it leaves room, and only then. -/
theorem balance_of_fitting_run (l : BudgetLedger) :
    (∀ events limits, machine.Path LeavesRoom empty events l → l.limits = some limits →
      (∃ b, l.balance = .ok b) ∧ ∀ operationId estimate reservedAt,
        l.decideReserve operationId estimate reservedAt ≠ refuse budgetOverflow) ∧
    ∀ event next b, l.balance = .ok b → l.apply event = .ok next →
      ((∃ b', next.balance = .ok b') ↔ l.LeavesRoom event) := by
  refine ⟨?_, ?_⟩
  · intro events limits hpath hlim
    have hfits : ∀ d, l.charged d < 2 ^ 64 :=
      hpath.invariant (fun _ _ _ hroom happ hinv => fits_step hroom happ hinv) charged_empty_lt
    obtain ⟨b, hb⟩ := balance_of_fits hlim hfits
    exact ⟨⟨b, hb⟩, decideReserve_ne_overflow hb⟩
  · intro event next b hb happ
    obtain ⟨hspec, hfits⟩ := balance_spec hb
    obtain ⟨limits, hlim⟩ := open_of_apply happ hspec.limits
    exact ⟨fun ⟨_, hnext⟩ => leavesRoom_of_fits happ (balance_spec hnext).2,
      fun hroom => balance_of_fits hlim (fits_step hroom happ hfits)⟩

/-- The account after one reservation was measured at five tokens. -/
theorem balance_of_five_tokens : ∃ l b, machine.Path LeavesRoom empty
    (overflowingEvents.take 2 ++ [observeTokens firstOperation 5]) l ∧ l.balance = .ok b := by
  have hrun : (machine.follow (fun l event => l.LeavesRoom event) empty
      (overflowingEvents.take 2 ++ [observeTokens firstOperation 5])).any (·.limits.isSome) =
      true := by
    decide +kernel
  obtain ⟨l, hl, hopen⟩ := (Option.any_eq_true _ _).mp hrun
  obtain ⟨limits, hlim⟩ := Option.isSome_iff_exists.mp hopen
  have hpath : machine.Path LeavesRoom empty _ l :=
    (Machine.Path.of_follow hl).mono fun _ _ h => of_decide_eq_true h
  obtain ⟨b, hb⟩ := ((balance_of_fitting_run _).1 _ _ hpath hlim).1
  exact ⟨l, b, hpath, hb⟩

theorem overflowed_ledger_is_stuck :
    BudgetLimits.new ⟨0, 10, 0, 0⟩ none = .ok tokenLimits ∧
      (∃ l, rehydrate overflowingEvents = .ok l ∧ l.limits = some tokenLimits) ∧
      ∀ later next, rehydrate (overflowingEvents ++ later) = .ok next →
        next.balance = refuse budgetOverflow ∧
        ∀ operationId estimate quantities reservedAt,
          estimate.quantities tokenLimits = .ok quantities →
          next.reservations[BudgetReservationId.forOperation tokenAccount operationId]? = none →
          next.decideReserve operationId estimate reservedAt = refuse budgetOverflow := by
  have hrun : (rehydrate overflowingEvents).toOption.any (fun l =>
      l.accountId == some tokenAccount && l.limits == some tokenLimits &&
        Nat.ble (2 ^ 64) (l.charged .tokens) && l.reservations.inOrder.all settledReservation) =
      true := by
    decide +kernel
  obtain ⟨l, hl, hchk⟩ := (Option.any_eq_true _ _).mp hrun
  simp only [Bool.and_eq_true, beq_iff_eq, Nat.ble_eq] at hchk
  obtain ⟨⟨⟨hacct, hlim⟩, hover⟩, hall⟩ := hchk
  have hreached := eq_ok_of_toOption hl
  have hbal := balance_overflow hlim hover
  refine ⟨by decide, ⟨l, hreached, hlim⟩, ?_⟩
  intro later next hnext
  -- No event is accepted on `l`, so a run that goes on from it ends there.
  rw [rehydrate_eq_fold, Machine.fold_append_eq_ok] at hnext
  obtain ⟨t, ht, hlater⟩ := hnext
  rw [← rehydrate_eq_fold, hreached] at ht
  cases ht
  cases later with
  | nil =>
    cases hlater
    exact ⟨hbal, fun _ _ _ reservedAt hquant hnew =>
      decideReserve_of_overflow hacct hlim hbal hquant hnew reservedAt⟩
  | cons event rest =>
    obtain ⟨u, hu, -⟩ := (Machine.fold_cons_eq_ok _ _ _ _ _).mp hlater
    exact absurd hu (apply_ne_ok hacct hbal (settled_of_all hall) event u)

end Made
