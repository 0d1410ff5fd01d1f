import Made.Properties.Budgets

/-!
# Measurements of a reservation

A reservation may be reconciled again when the new measurement is worth at least as much in every
dimension and more in one.  Only the qualities are compared, so that the gain in one dimension lets
another amount through in a dimension that gains nothing.
-/

namespace Made

open EventSourcing

/-! ## Qualities -/

/-- What may become of a recorded measurement: an observation stays, an estimate stays or gives way
to an observation. -/
def BudgetMeasurement.Lasts {α : Type} : BudgetMeasurement α → BudgetMeasurement α → Prop
  | .observed v, later => later = .observed v
  | .estimated v, later => later = .estimated v ∨ ∃ w, later = .observed w
  | .unknown, _ => True

namespace BudgetMeasurement

variable {α : Type} {m later last : BudgetMeasurement α}

theorem Lasts.refl (m : BudgetMeasurement α) : m.Lasts m := by
  cases m with
  | observed => rfl
  | estimated => exact .inl rfl
  | unknown => trivial

theorem Lasts.trans (h : m.Lasts later) (h' : later.Lasts last) : m.Lasts last := by
  cases m with
  | observed v =>
    cases h
    exact h'
  | estimated v =>
    rcases h with rfl | ⟨w, rfl⟩
    · exact h'
    · exact .inr ⟨w, h'⟩
  | unknown => trivial

/-- A measurement that is worth no less lasts when it is not replaced by one of its quality. -/
theorem lasts_iff (h : m.quality ≤ later.quality) :
    m.Lasts later ↔ (later.quality = m.quality → later = m) := by
  cases m <;> cases later <;> simp_all [Lasts, quality]

end BudgetMeasurement

theorem MeasuredBudgetQuantities.advances_iff {measured stored : MeasuredBudgetQuantities} :
    measured.advances stored = true ↔
      (∀ d, (stored.measurement d).quality ≤ (measured.measurement d).quality) ∧
        ∃ d, (stored.measurement d).quality < (measured.measurement d).quality := by
  simp only [advances, Bool.and_eq_true, List.all_map, List.all_eq_true, List.any_map,
    List.any_eq_true, BudgetDimension.mem_all, Function.comp_apply, true_and, forall_const,
    Bool.not_eq_true', Bool.eq_false_iff, ne_eq, Ordering.isLT_iff_eq_lt, Nat.compare_eq_lt,
    Nat.not_lt, Ordering.isGT_iff_eq_gt, Nat.compare_eq_gt]

namespace BudgetLedger

variable {l next : BudgetLedger}

/-! ## What is recorded -/

def recordedMeasurement (l : BudgetLedger) (id : BudgetReservationId) (d : BudgetDimension) :
    Option (BudgetMeasurement UInt64) :=
  (l.reservations[id]?.bind (·.reconciliation)).map fun stored => stored.2.measurement d

/-- No recorded measurement of `l` is replaced in `next` by another one of its quality. -/
def Remembers (l next : BudgetLedger) : Prop :=
  ∀ id d m, l.recordedMeasurement id d = some m →
    ∃ later, next.recordedMeasurement id d = some later ∧ m.Lasts later

/-- A reconciliation repeats what is recorded in the dimensions it does not improve. -/
def KeepsMeasured (l : BudgetLedger) : BudgetLedgerEvent → Prop
  | .reconciled _ reservationId _ measured _ =>
    ∀ d ∈ BudgetDimension.all, ∀ m ∈ l.recordedMeasurement reservationId d,
      (measured.measurement d).quality = m.quality → measured.measurement d = m
  | _ => True

instance (l : BudgetLedger) (event : BudgetLedgerEvent) : Decidable (l.KeepsMeasured event) :=
  match event with
  | .opened .. => inferInstanceAs (Decidable True)
  | .reserved .. => inferInstanceAs (Decidable True)
  | .reconciled _ reservationId _ _ _ =>
    inferInstanceAs (Decidable
      (∀ d ∈ BudgetDimension.all, ∀ m ∈ l.recordedMeasurement reservationId d, _ → _))

theorem Remembers.refl (l : BudgetLedger) : l.Remembers l :=
  fun _ _ m hm => ⟨m, hm, .refl m⟩

theorem Remembers.trans {last : BudgetLedger} (h : l.Remembers next) (h' : next.Remembers last) :
    l.Remembers last := by
  intro id d m hm
  obtain ⟨later, hlater, hlasts⟩ := h id d m hm
  obtain ⟨end_, hend, hlasts'⟩ := h' id d later hlater
  exact ⟨end_, hend, hlasts.trans hlasts'⟩

theorem remembers_of_same
    (h : ∀ (id : BudgetReservationId) (r : BudgetReservation), l.reservations[id]? = some r →
      next.reservations[id]? = some r) : l.Remembers next := by
  intro id d m hm
  refine ⟨m, ?_, .refl m⟩
  simp only [recordedMeasurement, Option.map_eq_some_iff, Option.bind_eq_some_iff] at hm ⊢
  obtain ⟨stored, ⟨r, hr, hst⟩, rfl⟩ := hm
  exact ⟨stored, ⟨r, h id r hr, hst⟩, rfl⟩

/-! ## One event -/

/-- The step: an accepted event remembers what was recorded exactly when it keeps it. -/
theorem remembers_iff_of_apply {event : BudgetLedgerEvent} (h : l.apply event = .ok next) :
    l.Remembers next ↔ l.KeepsMeasured event := by
  obtain ⟨-, arm, harm, rfl⟩ := apply_eq_ok.mp h
  cases event with
  | opened =>
    obtain ⟨-, rfl⟩ := applyArm_opened.mp harm
    exact iff_of_true (remembers_of_same fun _ _ hr => hr) trivial
  | reserved accountId reservationId =>
    obtain ⟨_, _, -, -, -, hfresh, -, -, rfl⟩ := applyArm_reserved.mp harm
    refine iff_of_true (remembers_of_same fun id r hr => ?_) trivial
    have hne : id ≠ reservationId := by
      rintro rfl
      rw [hfresh] at hr
      cases hr
    exact (Map.getElem?_insert_of_ne hne).trans hr
  | reconciled accountId reservationId reconciliationId measured =>
    obtain ⟨r, hr, hadms, rfl⟩ := applyArm_reconciled.mp harm
    have hnext : ∀ d, recordedMeasurement { l with
        reservations := l.reservations.insert reservationId (r.reconcile reconciliationId measured)
        version := l.version + 1 } reservationId d = some (measured.measurement d) := by
      intro d
      simp [recordedMeasurement, BudgetReservation.reconcile]
    -- The recorded measurement, if there is one, is worth no more than the new one.
    have hle : ∀ d m, l.recordedMeasurement reservationId d = some m →
        m.quality ≤ (measured.measurement d).quality := by
      intro d m hm
      simp only [recordedMeasurement, hr, Option.bind_some, Option.map_eq_some_iff] at hm
      obtain ⟨⟨storedId, stored⟩, hst, rfl⟩ := hm
      exact (MeasuredBudgetQuantities.advances_iff.mp (hadms storedId stored hst).2).1 d
    constructor
    · intro hremembers d _ m hm hquality
      obtain ⟨later, hlater, hlasts⟩ := hremembers reservationId d m hm
      rw [hnext d] at hlater
      cases hlater
      exact (BudgetMeasurement.lasts_iff (hle d m hm)).mp hlasts hquality
    · intro hkeeps id d m hm
      by_cases hid : id = reservationId
      · subst hid
        exact ⟨_, hnext d, (BudgetMeasurement.lasts_iff (hle d m hm)).mpr
          (hkeeps d (BudgetDimension.mem_all d) m hm)⟩
      · refine ⟨m, ?_, .refl m⟩
        rw [← hm]
        simp only [recordedMeasurement]
        rw [Map.getElem?_insert_of_ne hid]

/-! ## Runs -/

/-- In every run whose reconciliations keep the dimensions they do not improve, whatever is recorded
lasts; and an accepted event that does not keep them replaces a recorded measurement by another one
of its quality. -/
theorem measurements_last_iff_kept (l : BudgetLedger) :
    (∀ events last, machine.Path KeepsMeasured l events last → l.Remembers last) ∧
    ∀ event next, l.apply event = .ok next →
      (l.Remembers next ↔ l.KeepsMeasured event) := by
  refine ⟨?_, fun event next h => remembers_iff_of_apply h⟩
  intro events last hpath
  refine hpath.invariant (I := l.Remembers) ?_ (.refl l)
  intro s event t hkeeps happ hinv
  exact hinv.trans ((remembers_iff_of_apply happ).mpr hkeeps)

end BudgetLedger

open BudgetLedger

/-! ## A replaced observation -/

def reservedToken : BudgetReservationId := .forOperation tokenAccount firstOperation

/-- Open the account, reserve a token, and reconcile it once for each measurement, under one id. -/
def reconcileEach (measurements : List MeasuredBudgetQuantities) :
    List (BudgetLedger → BudgetRequest) :=
  (fun _ => .open_ tokenAccount tokenLimits (.afterEpoch 0)) ::
    (fun _ => .reserve firstOperation oneToken (.afterEpoch 0)) ::
      measurements.map fun measured _ =>
        .reconcile reservedToken ⟨"receipt"⟩ measured (.afterEpoch 0)

/-- Five estimated tokens give way to nine observed ones. -/
theorem estimate_gives_way : ∃ l events last, machine.Path KeepsMeasured l events last ∧
    l.recordedMeasurement reservedToken .tokens = some (.estimated 5) ∧
    last.recordedMeasurement reservedToken .tokens = some (.observed 9) ∧ l.Remembers last := by
  have hrun : (machine.exec (fun _ _ => true) empty (reconcileEach
      [⟨.unknown, .estimated 5, .unknown, .unknown⟩])).any (fun (_, l) =>
        decide (l.recordedMeasurement reservedToken .tokens = some (.estimated 5)) &&
        (machine.follow (fun l event => l.KeepsMeasured event) l
          [.reconciled tokenAccount reservedToken ⟨"receipt"⟩
            ⟨.observed 1, .observed 9, .unknown, .unknown⟩ ⟨0, by decide⟩]).any fun last =>
            decide (last.recordedMeasurement reservedToken .tokens = some (.observed 9))) =
              true := by
    decide +kernel
  obtain ⟨⟨first, l⟩, -, hchk⟩ := (Option.any_eq_true _ _).mp hrun
  rw [Bool.and_eq_true, decide_eq_true_eq] at hchk
  obtain ⟨hrecorded, hsecond⟩ := hchk
  obtain ⟨last, hfollow, hobserved⟩ := (Option.any_eq_true _ _).mp hsecond
  have hpath : machine.Path KeepsMeasured l _ last :=
    (Machine.Path.of_follow hfollow).mono fun _ _ h => of_decide_eq_true h
  exact ⟨l, _, last, hpath, hrecorded, of_decide_eq_true hobserved,
    (measurements_last_iff_kept _).1 _ _ hpath⟩

/-- The duration is observed in the second reconciliation, and nine tokens replace the five that
were observed in the first. -/
theorem observation_is_replaced : ∃ first second last, ∃ l : BudgetLedger,
    machine.Run (fun _ _ => True) empty first l ∧
    l.recordedMeasurement reservedToken .tokens = some (.observed 5) ∧
    machine.Run (fun _ _ => True) l second last ∧
    last.recordedMeasurement reservedToken .tokens = some (.observed 9) := by
  have hrun : (machine.exec (fun _ _ => true) empty (reconcileEach
      [⟨.unknown, .observed 5, .unknown, .unknown⟩])).any (fun (_, l) =>
        decide (l.recordedMeasurement reservedToken .tokens = some (.observed 5)) &&
        (machine.exec (fun _ _ => true) l [fun _ => .reconcile reservedToken ⟨"receipt"⟩
          ⟨.observed 1, .observed 9, .unknown, .unknown⟩ ⟨0, by decide⟩]).any fun (_, last) =>
            decide (last.recordedMeasurement reservedToken .tokens = some (.observed 9))) =
              true := by
    decide +kernel
  obtain ⟨⟨first, l⟩, hfirst, hchk⟩ := (Option.any_eq_true _ _).mp hrun
  rw [Bool.and_eq_true, decide_eq_true_eq] at hchk
  obtain ⟨hrecorded, hsecond⟩ := hchk
  obtain ⟨⟨second, last⟩, hexec, hreplaced⟩ := (Option.any_eq_true _ _).mp hsecond
  exact ⟨first, second, last, l, (Machine.exec_run hfirst).mono fun _ _ _ => trivial, hrecorded,
    (Machine.exec_run hexec).mono fun _ _ _ => trivial, of_decide_eq_true hreplaced⟩

end Made
