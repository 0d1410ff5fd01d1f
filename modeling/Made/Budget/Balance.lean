import Made.Budget.Ledger

/-!
# What a balance says

Each reservation is charged once in each dimension, to the class its reconciliation puts it in.  A
balance holds the exact sums of these charges, and there is a balance when every sum fits in 64
bits.
-/

namespace Made

open Counters Outcome BudgetDimension BudgetReservation

/-! ## Charges -/

variable (r : BudgetReservation)

namespace BudgetReservation

/-- The class a reservation is charged to in one dimension, and the amount. -/
def charge (d : BudgetDimension) : ChargeClass × UInt64 :=
  match r.reconciliation with
  | none => (.reserved, r.quantities.values d)
  | some (_, measured) =>
    match measured.measurement d with
    | .observed value => (.observed, value)
    | .estimated value => (.estimated, value)
    | .unknown => (.unconfirmed, r.quantities.values d)

/-- What a reservation adds to the total of one class in one dimension. -/
def chargedTo (c : ChargeClass) (d : BudgetDimension) : Nat :=
  if (r.charge d).1 = c then (r.charge d).2.toNat else 0

def charges : List ((ChargeClass × BudgetDimension) × UInt64) :=
  BudgetDimension.all.map fun d => (((r.charge d).1, d), (r.charge d).2)

theorem due_charges (c : ChargeClass) (d : BudgetDimension) :
    due r.charges (c, d) = r.chargedTo c d := by
  simp only [charges, all, List.map_cons, List.map_nil, due_cons, due_nil, Prod.mk.injEq, chargedTo]
  cases d <;> simp

theorem sum_chargedTo (d : BudgetDimension) :
    (ChargeClass.all.map fun c => r.chargedTo c d).sum = (r.charge d).2.toNat := by
  simp only [ChargeClass.all, chargedTo, List.map_cons, List.map_nil]
  cases (r.charge d).1 <;> simp

end BudgetReservation

/-! ## Loops as runs of additions -/

section Loops

variable {ι : Type} [DecidableEq ι]

theorem addAt_eq (target : ι → UInt64) (index : ι) (value : UInt64) :
    addAt target index value = okOr (bumpAll target [(index, value)]) budgetOverflow := by
  simp [addAt, bumpAll]

theorem add_eq (place : BudgetDimension → ι) (target : ι → UInt64) (value : Amounts) :
    add place target value = okOr
      (bumpAll target (all.map fun d => (place d, value d))) budgetOverflow := by
  rw [add, foldlM_eq_bumpAll fun counters d => addAt_eq counters (place d) (value d)]
  simp [List.map_eq_flatMap]

end Loops

theorem chargeReservation_eq (totals : BudgetTotals) (r : BudgetReservation) :
    BudgetLedger.chargeReservation totals r = okOr (bumpAll totals r.charges) budgetOverflow := by
  unfold BudgetLedger.chargeReservation
  cases hrec : r.reconciliation with
  | none => simp [add_eq, charges, charge, hrec]
  | some reconciled =>
    obtain ⟨id, measured⟩ := reconciled
    have hround : ∀ (counters : BudgetTotals) d,
        classifyOne counters d (r.quantities.values d) (measured.measurement d) =
          okOr (bumpAll counters [(((r.charge d).1, d), (r.charge d).2)])
            budgetOverflow := by
      intro counters d
      unfold classifyOne
      cases hm : measured.measurement d <;>
        simp [addAt_eq, charge, hrec, hm]
    simp only [classify]
    rw [foldlM_eq_bumpAll hround]
    simp [charges, List.map_eq_flatMap]

theorem sums_eq (values : List Amounts) :
    sums values = okOr (bumpAll (fun _ => 0) (values.flatMap fun v => all.map fun d => (d, v d)))
      budgetOverflow :=
  foldlM_eq_bumpAll (fun counters v => add_eq id counters v) values _

theorem due_sums (values : List Amounts) (d : BudgetDimension) :
    due (values.flatMap fun v => all.map fun d => (d, v d)) d =
      (values.map fun v => (v d).toNat).sum := by
  rw [due_flatMap]
  congr 1
  apply List.map_congr_left
  intro v _
  simp only [all, List.map_cons, List.map_nil, due_cons, due_nil]
  cases d <;> simp

theorem toNat_saturatingSub (left right : Amounts) (d : BudgetDimension) :
    (saturatingSub left right d).toNat = (left d).toNat - (right d).toNat := by
  unfold saturatingSub
  split
  · rename_i h
    exact UInt64.toNat_sub_of_le _ _ h
  · rename_i h
    rw [UInt64.le_iff_toNat_le] at h
    rw [UInt64.toNat_zero]
    omega

/-! ## Balances -/

def BudgetBalance.total (b : BudgetBalance) : ChargeClass → Amounts
  | .reserved => b.reserved.values
  | .observed => b.observed.values
  | .estimated => b.estimated.values
  | .unconfirmed => b.unconfirmed.values

def BudgetBalance.charged (b : BudgetBalance) (d : BudgetDimension) : Nat :=
  (ChargeClass.all.map fun c => (b.total c d).toNat).sum

namespace BudgetLedger

variable {l arm : BudgetLedger} {limits : BudgetLimits} {accountId : BudgetAccountId}
  {reconciliationId : BudgetReconciliationId} {measured : MeasuredBudgetQuantities}
  {b : BudgetBalance} {totals : BudgetTotals} {reservationId : BudgetReservationId}

def charged (l : BudgetLedger) (d : BudgetDimension) : Nat :=
  Counters.total l.reservations fun r => (r.charge d).2.toNat

/-- What all reservations are charged in one dimension, in one class. -/
def chargedTo (l : BudgetLedger) (c : ChargeClass) (d : BudgetDimension) : Nat :=
  Counters.total l.reservations fun r => r.chargedTo c d

theorem sum_chargedTo (l : BudgetLedger) (d : BudgetDimension) :
    (ChargeClass.all.map fun c => l.chargedTo c d).sum = l.charged d := by
  simp only [chargedTo, charged, Counters.total]
  induction l.reservations.toList with
  | nil => rfl
  | cons entry rest ih =>
    have hone := entry.2.sum_chargedTo d
    simp only [ChargeClass.all, List.map_cons, List.map_nil, List.sum_cons, List.sum_nil] at *
    omega

theorem chargedTo_le (l : BudgetLedger) (c : ChargeClass) (d : BudgetDimension) :
    l.chargedTo c d ≤ l.charged d := by
  rw [← l.sum_chargedTo d]
  simp only [ChargeClass.all, List.map_cons, List.map_nil, List.sum_cons, List.sum_nil]
  cases c <;> omega

theorem due_reservations (l : BudgetLedger) (c : ChargeClass) (d : BudgetDimension) :
    due (l.reservations.inOrder.flatMap charges) (c, d) = l.chargedTo c d := by
  rw [due_flatMap, chargedTo, Counters.total, Map.inOrder, List.map_map]
  congr 1
  apply List.map_congr_left
  intro entry _
  exact entry.2.due_charges c d

structure Balances (l : BudgetLedger) (b : BudgetBalance) : Prop where
  limits : l.limits = some b.limits
  total : ∀ c d, (b.total c d).toNat = l.chargedTo c d
  available : ∀ d, (b.available.values d).toNat = (b.limits.limitValues d).toNat - l.charged d
  overrun : ∀ d, (b.overrun.values d).toNat = l.charged d - (b.limits.limitValues d).toNat

theorem Balances.charged (h : l.Balances b) (d : BudgetDimension) : b.charged d = l.charged d := by
  simp only [BudgetBalance.charged, h.total, l.sum_chargedTo]

/-- The loop of `balance` leaves the exact sum of the charges in each of its totals. -/
theorem loop_eq_ok :
    l.reservations.inOrder.foldlM chargeReservation (fun _ => 0) = .ok totals ↔
      ∀ c d, (totals (c, d)).toNat = l.chargedTo c d := by
  rw [foldlM_eq_bumpAll chargeReservation_eq, okOr_eq_ok, bumpAll_eq_some, Prod.forall]
  simp only [due_reservations, UInt64.toNat_zero, Nat.zero_add]

theorem sums_eq_ok {sum : Amounts} (h : ∀ c d, (totals (c, d)).toNat = l.chargedTo c d) :
    sums (ChargeClass.all.map fun c d => totals (c, d)) = .ok sum ↔
      ∀ d, (sum d).toNat = l.charged d := by
  rw [sums_eq, okOr_eq_ok, bumpAll_eq_some]
  simp only [due_sums, List.map_map, Function.comp_def, h, sum_chargedTo, UInt64.toNat_zero,
    Nat.zero_add]

theorem balance_spec (h : l.balance = .ok b) : l.Balances b ∧ ∀ d, l.charged d < 2 ^ 64 := by
  simp only [balance, settleBalance, bind_eq_ok, okOr_eq_ok, pure_eq_ok, loop_eq_ok] at h
  obtain ⟨limits, hlim, totals, htotals, sum, hsum, rfl⟩ := h
  rw [sums_eq_ok htotals] at hsum
  refine ⟨⟨hlim, ?_, ?_, ?_⟩, ?_⟩
  · intro c d
    rw [← htotals c d]
    cases c <;> simp [BudgetBalance.total]
  · intro d
    rw [BudgetQuantities.values_ofValues, toNat_saturatingSub, hsum]
  · intro d
    rw [BudgetQuantities.values_ofValues, toNat_saturatingSub, hsum]
  · intro d
    rw [← hsum d]
    exact (sum d).toNat_lt

theorem balance_of_fits (hlim : l.limits = some limits) (hfits : ∀ d, l.charged d < 2 ^ 64) :
    ∃ b, l.balance = .ok b := by
  obtain ⟨totals, htotals⟩ : ∃ totals : BudgetTotals,
      ∀ c d, (totals (c, d)).toNat = l.chargedTo c d := by
    refine ⟨fun i => UInt64.ofNat (l.chargedTo i.1 i.2), fun c d => ?_⟩
    exact UInt64.toNat_ofNat_of_lt' (lt_of_le_of_lt (l.chargedTo_le c d) (hfits d))
  obtain ⟨sum, hsum⟩ : ∃ sum : Amounts, ∀ d, (sum d).toNat = l.charged d :=
    ⟨fun d => UInt64.ofNat (l.charged d), fun d => UInt64.toNat_ofNat_of_lt' (hfits d)⟩
  simp only [balance, settleBalance, bind_eq_ok, okOr_eq_ok, pure_eq_ok, loop_eq_ok]
  exact ⟨_, limits, hlim, totals, htotals, sum, (sums_eq_ok htotals).mpr hsum, rfl⟩

theorem balance_overflow (hlim : l.limits = some limits) {d : BudgetDimension}
    (h : 2 ^ 64 ≤ l.charged d) : l.balance = refuse budgetOverflow := by
  have hno : ∀ b, l.balance ≠ .ok b := by
    intro b hb
    exact absurd ((balance_spec hb).2 d) (by omega)
  simp only [balance, settleBalance, sums_eq, foldlM_eq_bumpAll chargeReservation_eq, hlim,
    okOr, ok_bind] at hno ⊢
  -- Either the loop overflows, or the sum of its four totals does.
  split at hno
  · rename_i totals htotals
    simp only [ok_bind] at hno ⊢
    split at hno
    · exact absurd rfl (hno _)
    · rfl
  · rfl

/-! ## Capacity -/

theorem ensureCapacity_eq_ok {request : BudgetQuantities} :
    l.ensureCapacity request = .ok () ↔
      (∃ accountId, l.accountId = some accountId) ∧ ∃ b, l.balance = .ok b ∧
        (∀ d, l.charged d ≤ (b.limits.limitValues d).toNat) ∧
        ∀ d, l.charged d + (request.values d).toNat ≤ (b.limits.limitValues d).toNat := by
  have hscan : ∀ b, l.balance = .ok b → ((∀ d, ¬ 0 < b.overrun.values d) ∧
      (∀ d, ¬ b.available.values d < request.values d) ↔
        (∀ d, l.charged d ≤ (b.limits.limitValues d).toNat) ∧
        ∀ d, l.charged d + (request.values d).toNat ≤ (b.limits.limitValues d).toNat) := by
    intro b hb
    obtain ⟨hspec, -⟩ := balance_spec hb
    simp only [UInt64.lt_iff_toNat_lt, hspec.overrun, hspec.available, UInt64.toNat_zero]
    constructor
    · rintro ⟨hover, havail⟩
      exact ⟨fun d => by have := hover d; omega,
        fun d => by have := hover d; have := havail d; omega⟩
    · rintro ⟨hover, havail⟩
      exact ⟨fun d => by have := hover d; omega, fun d => by have := havail d; omega⟩
  constructor
  · intro h
    simp only [ensureCapacity, bind_eq_ok, okOr_eq_ok] at h
    obtain ⟨accountId, hacct, b, hb, h⟩ := h
    refine ⟨⟨accountId, hacct⟩, b, hb, (hscan b hb).mp ?_⟩
    split at h
    · simp at h
    · rename_i hover
      split at h
      · simp at h
      · rename_i havail
        simp only [List.find?_eq_none, mem_all, decide_eq_true_eq, forall_const] at hover havail
        exact ⟨hover, havail⟩
  · rintro ⟨⟨accountId, hacct⟩, b, hb, h⟩
    obtain ⟨hover, havail⟩ := (hscan b hb).mpr h
    have hover' : (all.find? fun d => decide (0 < b.overrun.values d)) = none := by
      simpa [List.find?_eq_none] using hover
    have havail' : (all.find? fun d =>
        decide (b.available.values d < request.values d)) = none := by
      simpa [List.find?_eq_none] using havail
    simp only [ensureCapacity, hacct, hb, okOr, ok_bind, hover', havail']

/-! ## What each event does -/

theorem apply_eq_ok {next : BudgetLedger} {event : BudgetLedgerEvent} :
    l.apply event = .ok next ↔
      (∀ accountId, l.accountId = some accountId → event.accountId = accountId) ∧
        ∃ arm, l.applyArm event = .ok arm ∧ next = { arm with version := arm.version + 1 } := by
  have hown : l.requireOwn event = .ok () ↔
      ∀ accountId, l.accountId = some accountId → event.accountId = accountId := by
    unfold requireOwn
    cases l.accountId <;> simp
  simp only [apply, bind_eq_ok, pure_eq_ok, exists_const, hown, eq_comm (b := next)]

theorem applyArm_opened {openedAt : OffsetDateTime} :
    l.applyArm (.opened accountId limits openedAt) = .ok arm ↔
      l.accountId = none ∧ arm = { l with accountId := some accountId, limits := some limits } := by
  simp only [applyArm, bind_eq_ok, require_eq_ok, pure_eq_ok, exists_const, eq_comm (b := arm)]

theorem applyArm_reserved {operationId : BudgetOperationId} {quantities : BudgetQuantities}
    {estimate : BudgetReservationEstimate} {reservedAt : OffsetDateTime} :
    l.applyArm (.reserved accountId reservationId operationId quantities estimate reservedAt) =
        .ok arm ↔
      ∃ account limits, l.accountId = some account ∧ l.limits = some limits ∧
        reservationId = BudgetReservationId.forOperation account operationId ∧
        l.reservations[reservationId]? = none ∧ l.ensureCapacity quantities = .ok () ∧
        estimate.quantities limits = .ok quantities ∧
        arm = { l with
          reservations := l.reservations.insert reservationId
            ⟨reservationId, operationId, quantities, estimate, reservedAt, none⟩ } := by
  simp only [applyArm, bind_eq_ok, okOr_eq_ok, require_eq_ok, pure_eq_ok, exists_const]
  constructor
  · rintro ⟨account, hacct, hid, hfresh, ⟨⟩, hcap, limits, hlim, _, hquant, rfl,
      rfl⟩
    exact ⟨account, limits, hacct, hlim, hid, hfresh, hcap, hquant, rfl⟩
  · rintro ⟨account, limits, hacct, hlim, hid, hfresh, hcap, hquant, rfl⟩
    exact ⟨account, hacct, hid, hfresh, (), hcap, limits, hlim, _, hquant, rfl, rfl⟩

def Admits (reconciliationId : BudgetReconciliationId)
    (measured : MeasuredBudgetQuantities) : Prop :=
  ∀ storedId stored, r.reconciliation = some (storedId, stored) →
    storedId = reconciliationId ∧ measured.advances stored = true

theorem requireAdvance_eq_ok {r : BudgetReservation} {u : Unit} :
    requireAdvance r reconciliationId measured = .ok u ↔ Admits r reconciliationId measured := by
  unfold requireAdvance Admits
  cases r.reconciliation with
  | none => simp
  | some stored =>
    obtain ⟨storedId, stored⟩ := stored
    rw [require_eq_ok]
    constructor
    · rintro h _ _ ⟨⟩
      exact h
    · intro h
      exact h storedId stored rfl

theorem applyArm_reconciled {reconciledAt : OffsetDateTime} :
    l.applyArm (.reconciled accountId reservationId reconciliationId measured reconciledAt) =
        .ok arm ↔
      ∃ r, l.reservations[reservationId]? = some r ∧ Admits r reconciliationId measured ∧
        arm = { l with
          reservations := l.reservations.insert reservationId
            (r.reconcile reconciliationId measured) } := by
  simp only [applyArm, bind_eq_ok, okOr_eq_ok, pure_eq_ok,
    requireAdvance_eq_ok, exists_const, eq_comm (b := arm)]

end BudgetLedger

end Made
