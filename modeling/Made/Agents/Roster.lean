import Made.Agents.Status
import Mathlib.Data.Finset.Basic

/-!
# The roster of agents

The store keeps, for each execution, the last report it accepted, the receipts of all of them, the
host processes that were replaced and a feed of what changed.  A report of another process is a
handoff: it names the process it takes over from, which is retired and never comes back.
-/

namespace Made

open Outcome

def activityRetention : Nat := 1000

instance : Std.TransOrd (CeremonyId × CeremonyAgentExecutionId) := inferInstance

structure InMemoryCeremonyAgentStatus where
  entries : Map (CeremonyId × CeremonyAgentExecutionId) CeremonyAgentStatus
  receipts : Map (CeremonyId × CeremonyAgentExecutionId × String) CeremonyAgentStatus
  retiredIncarnations : Finset AgentIncarnation
  activities : Map CeremonyId (Map Nat CeremonyAgentActivity)
  activityHeads : Map CeremonyId Nat
  activityGeneration : Nat

namespace CeremonyAgentStatus

variable (status : CeremonyAgentStatus)

def entryKey : CeremonyId × CeremonyAgentExecutionId :=
  (status.ceremonyId, status.agentExecutionId)

def receiptKey : CeremonyId × CeremonyAgentExecutionId × String :=
  (status.ceremonyId, status.agentExecutionId, status.idempotencyKey)

/-- The checks against the last report; the answer says whether another process reports. -/
def requireFollows (status previous : CeremonyAgentStatus) : Result Bool := do
  require (status.hasSameLogicalExecutionAs previous = true)
    (.conflict "logical ceremony agent execution identity")
  require (¬ status.reportSequence ≤ previous.reportSequence)
    (.conflict "out-of-order ceremony agent status report")
  require (¬ (hostChanged previous status = true ∧ ¬ status.takesOverFrom previous = true))
    (.conflict "replaced ceremony agent execution")
  pure (hostChanged previous status)

/-- The process a report retires, if it follows the last one at all. -/
def handoff (previous : Option CeremonyAgentStatus) : Result (Option AgentIncarnation) :=
  match previous with
  | none => .ok none
  | some previous => do
    let hostChanged ← status.requireFollows previous
    pure (if hostChanged then some previous.incarnation else none)

end CeremonyAgentStatus

namespace InMemoryCeremonyAgentStatus

def new : InMemoryCeremonyAgentStatus := ⟨∅, ∅, ∅, ∅, ∅, 0⟩

variable (store : InMemoryCeremonyAgentStatus)

def retire (retired : Option AgentIncarnation) : InMemoryCeremonyAgentStatus :=
  match retired with
  | none => store
  | some incarnation =>
    { store with retiredIncarnations := insert incarnation store.retiredIncarnations }

def dropOldest (feed : Map Nat CeremonyAgentActivity) : Map Nat CeremonyAgentActivity :=
  match feed.minKey? with
  | some sequence => feed.erase sequence
  | none => feed

def appendActivity (previous : Option CeremonyAgentStatus)
    (status : CeremonyAgentStatus) : InMemoryCeremonyAgentStatus :=
  let kind := activityKind previous status
  if kind = .heartbeat ∧ previous.any (inertHeartbeat · status) = true then
    store
  else
    let sequence := min ((store.activityHeads[status.ceremonyId]?).getD 0 + 1) u64Max
    let feed := (store.activities[status.ceremonyId]?.getD ∅).insert sequence
      ⟨sequence, kind, status⟩
    { store with
      activityHeads := store.activityHeads.insert status.ceremonyId sequence
      activities := store.activities.insert status.ceremonyId
        (dropOldest^[feed.size - activityRetention] feed)
      activityGeneration := (store.activityGeneration + 1) % 2 ^ 64 }

def accept (previous : Option CeremonyAgentStatus)
    (status : CeremonyAgentStatus) : InMemoryCeremonyAgentStatus :=
  appendActivity
    { store with
      entries := store.entries.insert status.entryKey status
      receipts := store.receipts.insert status.receiptKey status }
    previous status

variable (status : CeremonyAgentStatus)

/-- One report.  The handoff is written before the last check is made. -/
def report (authorization : Option ReportAuthorization) :
    Result CeremonyAgentStatus × InMemoryCeremonyAgentStatus :=
  match requireReportAuthorization status authorization with
  | .error fault => (.error fault, store)
  | .ok _ =>
    match store.receipts[status.receiptKey]? with
    | some receipt =>
      if receipt = status then
        (.ok receipt, store)
      else
        (refuse (.conflict "ceremony agent status idempotency key payload"), store)
    | none =>
      let previous := store.entries[status.entryKey]?
      match status.handoff previous with
      | .error fault => (.error fault, store)
      | .ok retired =>
        if status.incarnation ∈ (store.retire retired).retiredIncarnations then
          (refuse (.conflict "retired ceremony agent incarnation"), store.retire retired)
        else
          (.ok status, (store.retire retired).accept previous status)

/-! ## What a report can do -/

@[simp] theorem retire_entries
    (retired : Option AgentIncarnation) : (store.retire retired).entries = store.entries := by
  cases retired <;> rfl

theorem mem_retire {store : InMemoryCeremonyAgentStatus} {retired : Option AgentIncarnation}
    {incarnation : AgentIncarnation} :
    incarnation ∈ (store.retire retired).retiredIncarnations ↔
      retired = some incarnation ∨ incarnation ∈ store.retiredIncarnations := by
  cases retired with
  | none => simp [retire]
  | some other => simp [retire, eq_comm]

variable (previous : Option CeremonyAgentStatus)

@[simp] theorem accept_entries (status : CeremonyAgentStatus) :
    (store.accept previous status).entries = store.entries.insert status.entryKey status := by
  unfold accept appendActivity
  dsimp only
  split <;> rfl

@[simp] theorem accept_retiredIncarnations (status : CeremonyAgentStatus) :
    (store.accept previous status).retiredIncarnations = store.retiredIncarnations := by
  unfold accept appendActivity
  dsimp only
  split <;> rfl

/-- A process that was retired reports again, and everything else about its report is right: it
names the process the roster shows as the one it takes over from. -/
def LocksOut (authorization : Option ReportAuthorization) : Prop :=
  requireReportAuthorization status authorization = .ok () ∧
    store.receipts[status.receiptKey]? = none ∧
    status.incarnation ∈ store.retiredIncarnations ∧
    ∃ current, store.entries[status.entryKey]? = some current ∧
      status.requireFollows current = .ok true ∧
      current.incarnation ∉ store.retiredIncarnations

/-- All a report can do: answer with an error or an old receipt and keep the store, retire the
process the roster shows and then refuse, or be accepted. -/
inductive Reported (store : InMemoryCeremonyAgentStatus) (status : CeremonyAgentStatus)
    (authorization : Option ReportAuthorization) :
    Result CeremonyAgentStatus → InMemoryCeremonyAgentStatus → Prop
  | refused (fault : Fault DomainError) : Reported store status authorization (.error fault) store
  | repeated (hreceipt : store.receipts[status.receiptKey]? = some status) :
      Reported store status authorization (.ok status) store
  | late (hlate : store.LocksOut status authorization) (current : CeremonyAgentStatus)
      (hshown : store.entries[status.entryKey]? = some current) :
      Reported store status authorization (refuse (.conflict "retired ceremony agent incarnation"))
        (store.retire (some current.incarnation))
  | accepted (retired : Option AgentIncarnation)
      (hhandoff : status.handoff store.entries[status.entryKey]? = .ok retired)
      (hlive : status.incarnation ∉ (store.retire retired).retiredIncarnations) :
      Reported store status authorization (.ok status)
        ((store.retire retired).accept store.entries[status.entryKey]? status)

end InMemoryCeremonyAgentStatus

namespace CeremonyAgentStatus

variable {status : CeremonyAgentStatus} {changed : Bool}

theorem requireFollows_eq_ok {previous : CeremonyAgentStatus} :
    status.requireFollows previous = .ok changed ↔
      status.hasSameLogicalExecutionAs previous = true ∧
        previous.reportSequence < status.reportSequence ∧
        (hostChanged previous status = true → status.takesOverFrom previous = true) ∧
        hostChanged previous status = changed := by
  simp only [requireFollows, bind_eq_ok, require_eq_ok, pure_eq_ok,
    exists_const, not_le, not_and, not_not]

theorem handoff_eq_ok {previous : Option CeremonyAgentStatus} {retired : Option AgentIncarnation}
    (h : status.handoff previous = .ok retired) :
    (previous = none ∧ retired = none) ∨ ∃ current, previous = some current ∧
        ((status.requireFollows current = .ok true ∧ retired = some current.incarnation) ∨
          (status.requireFollows current = .ok false ∧ retired = none)) := by
  cases previous with
  | none =>
    simp only [handoff, Except.ok.injEq] at h
    exact .inl ⟨rfl, h.symm⟩
  | some current =>
    simp only [handoff, bind_eq_ok, pure_eq_ok] at h
    obtain ⟨changed, hfollows, rfl⟩ := h
    refine .inr ⟨current, rfl, ?_⟩
    cases changed with
    | true => exact .inl ⟨hfollows, rfl⟩
    | false => exact .inr ⟨hfollows, rfl⟩

/-- A process that follows itself is the process itself, one that follows another is not. -/
theorem incarnation_eq_iff {current : CeremonyAgentStatus}
    (h : status.requireFollows current = .ok changed) :
    current.incarnation = status.incarnation ↔ changed = false := by
  obtain ⟨hsame, -, -, hchanged⟩ := requireFollows_eq_ok.mp h
  cases changed with
  | true => simp [incarnation_ne_of_hostChanged hchanged]
  | false => simp [incarnation_eq_of_not_hostChanged hsame hchanged]

end CeremonyAgentStatus

namespace InMemoryCeremonyAgentStatus

open CeremonyAgentStatus

variable {store : InMemoryCeremonyAgentStatus} {status : CeremonyAgentStatus}
  {authorization : Option ReportAuthorization} {process : AgentIncarnation}
  {current : CeremonyAgentStatus}

theorem report_reported (store : InMemoryCeremonyAgentStatus) (status : CeremonyAgentStatus)
    (authorization : Option ReportAuthorization) :
    Reported store status authorization (store.report status authorization).1
      (store.report status authorization).2 := by
  unfold report
  cases hauthorized : requireReportAuthorization status authorization with
  | error fault => exact .refused fault
  | ok _ =>
    cases hrcpt : store.receipts[status.receiptKey]? with
    | some receipt =>
      dsimp only
      split
      · next heq =>
          subst heq
          exact .repeated hrcpt
      · exact .refused _
    | none =>
      dsimp only
      cases hhandoff : status.handoff store.entries[status.entryKey]? with
      | error fault => exact .refused fault
      | ok retired =>
        dsimp only
        split
        · next hret =>
            rcases handoff_eq_ok hhandoff with ⟨-, rfl⟩ | ⟨current, hshown, hfollows⟩
            · exact .refused _
            · rcases hfollows with ⟨hfollows, rfl⟩ | ⟨-, rfl⟩
              · -- The process named as replaced is retired, whoever the reporter is.
                rw [mem_retire, Option.some.injEq] at hret
                have ho : current.incarnation ≠ status.incarnation := by
                  simp [incarnation_eq_iff hfollows]
                have hret := hret.resolve_left ho
                by_cases hcur : current.incarnation ∈ store.retiredIncarnations
                · have hsame : store.retire (some current.incarnation) = store := by
                    simp [retire, Finset.insert_eq_of_mem hcur]
                  rw [hsame]
                  exact .refused _
                · exact .late ⟨hauthorized, hrcpt, hret, current, hshown, hfollows,
                    hcur⟩ current hshown
              · exact .refused _
        · next hlive => exact .accepted retired hhandoff hlive

/-! ## Refusals -/

theorem report_of_locksOut (h : store.LocksOut status authorization) :
    ∃ (fault : Fault DomainError) (current : CeremonyAgentStatus),
      (store.report status authorization).1 = .error fault ∧
      current.incarnation ∉ store.retiredIncarnations ∧
      (store.report status authorization).2 = store.retire (some current.incarnation) := by
  obtain ⟨hauthorized, hrcpt, hret, current, hshown, hfollows, hcur⟩ := h
  have hhandoff : status.handoff (some current) = .ok (some current.incarnation) := by
    simp [handoff, hfollows]
  have hmem : status.incarnation ∈
      (store.retire (some current.incarnation)).retiredIncarnations := mem_retire.mpr (.inr hret)
  refine ⟨.refused (.conflict "retired ceremony agent incarnation"), current, ?_, hcur, ?_⟩
  · simp only [report, hauthorized, hrcpt, hshown, hhandoff, if_pos hmem]
    rfl
  · simp only [report, hauthorized, hrcpt, hshown, hhandoff, if_pos hmem]

/-- Only a retired process that takes over from the one the roster shows is refused with effect. -/
theorem refused_unchanged_iff (store : InMemoryCeremonyAgentStatus) (status : CeremonyAgentStatus)
    (authorization : Option ReportAuthorization) :
    (∀ fault, (store.report status authorization).1 = .error fault →
        (store.report status authorization).2 = store) ↔
      ¬ store.LocksOut status authorization := by
  constructor
  · intro hunchanged hlate
    obtain ⟨fault, current, hfault, hcur, hstore⟩ := report_of_locksOut hlate
    have hsame := hstore.symm.trans (hunchanged fault hfault)
    refine hcur ?_
    rw [← hsame]
    exact mem_retire.mpr (.inl rfl)
  · intro hclear fault hfault
    have hreported := report_reported store status authorization
    generalize (store.report status authorization).1 = result at hreported hfault
    generalize (store.report status authorization).2 = after at hreported
    cases hreported with
    | refused _ => rfl
    | repeated _ => cases hfault
    | late hlate => exact absurd hlate hclear
    | accepted _ _ _ => cases hfault

/-! ## Runs of reports -/

abbrev Report := CeremonyAgentStatus × Option ReportAuthorization

def afterReports (store : InMemoryCeremonyAgentStatus) (reports : List Report) :
    InMemoryCeremonyAgentStatus :=
  reports.foldl (fun store r => (store.report r.1 r.2).2) store

/-- No report of the run comes from a retired process that takes over. -/
def Undisturbed : InMemoryCeremonyAgentStatus → List Report → Prop
  | _, [] => True
  | store, r :: reports => ¬ store.LocksOut r.1 r.2 ∧ Undisturbed (store.report r.1 r.2).2 reports

theorem afterReports_append (store : InMemoryCeremonyAgentStatus) (earlier later : List Report) :
    store.afterReports (earlier ++ later) = (store.afterReports earlier).afterReports later :=
  List.foldl_append

theorem Undisturbed.left {earlier later : List Report} (h : Undisturbed store (earlier ++ later)) :
    Undisturbed store earlier := by
  induction earlier generalizing store with
  | nil => exact trivial
  | cons r earlier ih => exact ⟨h.1, ih h.2⟩

/-- The processes the roster shows are filed under their execution and are not retired. -/
structure Kept (store : InMemoryCeremonyAgentStatus) : Prop where
  filed : ∀ (key : CeremonyId × CeremonyAgentExecutionId) (current : CeremonyAgentStatus),
    store.entries[key]? = some current →
    current.entryKey = key
  live : ∀ (key : CeremonyId × CeremonyAgentExecutionId) (current : CeremonyAgentStatus),
    store.entries[key]? = some current →
    current.incarnation ∉ store.retiredIncarnations

theorem kept_new : Kept new where
  filed := by simp [new]
  live := by simp [new]

theorem entryKey_eq_of_incarnation (h : status.incarnation = current.incarnation) :
    status.entryKey = current.entryKey := by
  simp only [incarnation, AgentIncarnation.mk.injEq] at h
  simp [entryKey, h.1, h.2.1]

theorem Kept.report (hkept : Kept store) (hclear : ¬ store.LocksOut status authorization) :
    Kept (store.report status authorization).2 := by
  have hreported := report_reported store status authorization
  generalize (store.report status authorization).1 = result at hreported
  generalize (store.report status authorization).2 = after at hreported ⊢
  cases hreported with
  | refused _ | repeated _ => exact hkept
  | late hlate => exact absurd hlate hclear
  | accepted retired hhandoff hlive =>
    constructor
    · intro key current hshown
      rw [accept_entries, retire_entries, Std.ExtTreeMap.getElem?_insert] at hshown
      split at hshown
      · next hkey =>
          cases hshown
          exact Std.LawfulEqOrd.eq_of_compare hkey
      · exact hkept.filed key current hshown
    · intro key current hshown
      rw [accept_retiredIncarnations]
      rw [accept_entries, retire_entries, Std.ExtTreeMap.getElem?_insert] at hshown
      split at hshown
      · cases hshown
        exact hlive
      · next hkey =>
          -- Another execution: the process retired by this report is not one of its own.
          have ho : current.entryKey = key := hkept.filed key current hshown
          rw [mem_retire, not_or]
          refine ⟨?_, hkept.live key current hshown⟩
          rintro rfl
          rcases handoff_eq_ok hhandoff with ⟨-, hnone⟩ | ⟨previous, hprevious, hfollows⟩
          · cases hnone
          · rcases hfollows with ⟨-, heq⟩ | ⟨-, hnone⟩
            · have hsame := entryKey_eq_of_incarnation (Option.some.inj heq)
              have hfiled := hkept.filed _ previous hprevious
              refine hkey (Std.LawfulEqCmp.compare_eq_iff_eq.mpr ?_)
              rw [← hfiled, ← hsame, ho]
            · cases hnone

theorem Kept.afterReports (hkept : Kept store) {reports : List Report}
    (hclear : Undisturbed store reports) : Kept (store.afterReports reports) := by
  induction reports generalizing store with
  | nil => exact hkept
  | cons r reports ih => exact ih (hkept.report hclear.1) hclear.2

/-! ## Replaced processes -/

/-- The roster shows the process under its key, or the process is retired. -/
def ShownOrRetired (store : InMemoryCeremonyAgentStatus) (process : AgentIncarnation) : Prop :=
  (∃ current, store.entries[(process.ceremonyId, process.agentExecutionId)]? = some current ∧
    current.incarnation = process) ∨ process ∈ store.retiredIncarnations

theorem mem_retired_report (h : process ∈ store.retiredIncarnations) (status : CeremonyAgentStatus)
    (authorization : Option ReportAuthorization) :
    process ∈ (store.report status authorization).2.retiredIncarnations := by
  have hreported := report_reported store status authorization
  generalize (store.report status authorization).1 = result at hreported
  generalize (store.report status authorization).2 = after at hreported ⊢
  cases hreported with
  | refused _ | repeated _ => exact h
  | late _ current _ => exact mem_retire.mpr (.inr h)
  | accepted retired _ _ =>
    rw [accept_retiredIncarnations]
    exact mem_retire.mpr (.inr h)

theorem ShownOrRetired.report (h : store.ShownOrRetired process) (status : CeremonyAgentStatus)
    (authorization : Option ReportAuthorization) :
    (store.report status authorization).2.ShownOrRetired process := by
  rcases h with ⟨current, hshown, hprocess⟩ | hret
  · have hreported := report_reported store status authorization
    generalize (store.report status authorization).1 = result at hreported
    generalize (store.report status authorization).2 = after at hreported ⊢
    cases hreported with
    | refused _ | repeated _ => exact .inl ⟨current, hshown, hprocess⟩
    | late _ other _ =>
      refine .inl ⟨current, ?_, hprocess⟩
      rw [retire_entries]
      exact hshown
    | accepted retired hhandoff hlive =>
      by_cases hkey : status.entryKey = (process.ceremonyId, process.agentExecutionId)
      · rw [hkey, hshown] at hhandoff
        rcases handoff_eq_ok hhandoff with ⟨hnone, -⟩ | ⟨other, ho, hfollows⟩
        · cases hnone
        · cases ho
          rcases hfollows with ⟨-, rfl⟩ | ⟨hfollows, -⟩
          · refine .inr ?_
            rw [accept_retiredIncarnations, mem_retire, hprocess]
            exact .inl rfl
          · refine .inl ⟨status, ?_, ?_⟩
            · rw [accept_entries, hkey]
              exact Std.ExtTreeMap.getElem?_insert_self
            · rw [← hprocess, (incarnation_eq_iff hfollows).mpr rfl]
      · refine .inl ⟨current, ?_, hprocess⟩
        rw [accept_entries, retire_entries, Map.getElem?_insert_of_ne (Ne.symm hkey)]
        exact hshown
  · exact .inr (mem_retired_report hret status authorization)

theorem ShownOrRetired.afterReports (h : store.ShownOrRetired process) (reports : List Report) :
    (store.afterReports reports).ShownOrRetired process := by
  induction reports generalizing store with
  | nil => exact h
  | cons r reports ih => exact ih (h.report r.1 r.2)

/-- A retired process gets an answer only to a report it made before. -/
theorem repeated_of_retired {answer : CeremonyAgentStatus}
    (hret : status.incarnation ∈ store.retiredIncarnations)
    (hanswer : (store.report status authorization).1 = .ok answer) :
    store.receipts[status.receiptKey]? = some status ∧
      (store.report status authorization).2 = store := by
  have hreported := report_reported store status authorization
  generalize (store.report status authorization).1 = result at hreported hanswer
  generalize (store.report status authorization).2 = after at hreported ⊢
  cases hreported with
  | refused _ => cases hanswer
  | repeated hrcpt => exact ⟨hrcpt, rfl⟩
  | late _ _ _ => cases hanswer
  | accepted retired _ hlive => exact absurd (mem_retire.mpr (.inr hret)) hlive

/-! ## The current process -/

/-- The next report of the process the roster shows: its own work, a higher sequence, a key that
was not used, and evidence that it owns the claim. -/
structure NextReport (store : InMemoryCeremonyAgentStatus) (current status : CeremonyAgentStatus)
    (authorization : Option ReportAuthorization) : Prop where
  shown : store.entries[status.entryKey]? = some current
  sameExecution : status.hasSameLogicalExecutionAs current = true
  sameProcess : status.incarnation = current.incarnation
  higher : current.reportSequence < status.reportSequence
  freshKey : store.receipts[status.receiptKey]? = none
  authorized : requireReportAuthorization status authorization = .ok ()

theorem report_next (hkept : Kept store) (h : store.NextReport current status authorization) :
    (store.report status authorization).1 = .ok status := by
  have hunchanged : hostChanged current status = false := by
    rw [Bool.eq_false_iff]
    intro hchanged
    exact incarnation_ne_of_hostChanged hchanged h.sameProcess.symm
  have hfollows : status.requireFollows current = .ok false := by
    refine requireFollows_eq_ok.mpr ⟨h.sameExecution, h.higher, ?_, hunchanged⟩
    rw [hunchanged]
    exact fun hfalse => absurd hfalse Bool.false_ne_true
  have hhandoff : status.handoff (some current) = .ok none := by simp [handoff, hfollows]
  have hlive : status.incarnation ∉ store.retiredIncarnations := by
    rw [h.sameProcess]
    exact hkept.live _ current h.shown
  simp only [report, h.authorized, h.freshKey, h.shown, hhandoff, retire, if_neg hlive]

/-- A refused report changes nothing exactly when it does not come from a retired process that
takes over from the one the roster shows.  In every run without such reports the process the
roster shows can go on reporting, and a process that was replaced gets nothing recorded again. -/
theorem refused_reports_change_nothing (reports : List Report) :
    (∀ (store : InMemoryCeremonyAgentStatus) (status : CeremonyAgentStatus)
        (authorization : Option ReportAuthorization),
      (∀ fault, (store.report status authorization).1 = .error fault →
        (store.report status authorization).2 = store) ↔
      ¬ store.LocksOut status authorization) ∧
    (Undisturbed new reports → (∀ current status authorization,
        (new.afterReports reports).NextReport current status authorization →
          ((new.afterReports reports).report status authorization).1 = .ok status) ∧
      ∀ (earlier later : List Report) (key : CeremonyId × CeremonyAgentExecutionId)
          (old current : CeremonyAgentStatus), reports = earlier ++ later →
        (new.afterReports earlier).entries[key]? = some old →
        (new.afterReports reports).entries[key]? = some current →
        old.incarnation ≠ current.incarnation →
        ∀ status authorization answer, status.incarnation = old.incarnation →
          ((new.afterReports reports).report status authorization).1 = .ok answer →
          (new.afterReports reports).receipts[status.receiptKey]? = some status ∧
            ((new.afterReports reports).report status authorization).2 =
              new.afterReports reports) := by
  refine ⟨refused_unchanged_iff, ?_⟩
  intro hclear
  have hkept : Kept (new.afterReports reports) := kept_new.afterReports hclear
  refine ⟨fun current status authorization hnext => report_next hkept hnext, ?_⟩
  rintro earlier later key old current rfl hold hcur hreplaced status authorization answer
    hs hanswer
  have hearlier : Kept (new.afterReports earlier) := kept_new.afterReports hclear.left
  have hkey : key = (old.incarnation.ceremonyId, old.incarnation.agentExecutionId) :=
    (hearlier.filed key old hold).symm
  have hshown : (new.afterReports earlier).ShownOrRetired old.incarnation :=
    .inl ⟨old, hkey ▸ hold, rfl⟩
  have hnow := hshown.afterReports later
  rw [← afterReports_append] at hnow
  rcases hnow with ⟨other, ho, hsame⟩ | hret
  · rw [← hkey, hcur, Option.some.injEq] at ho
    rw [ho] at hreplaced
    exact absurd hsame.symm hreplaced
  · exact repeated_of_retired (hs ▸ hret) hanswer

def reportOf (incarnation : HostAgentIncarnation) (previous : Option HostAgentIncarnation)
    (reportSequence : Nat) (idempotencyKey : String) : Report :=
  ({ ceremonyId := ⟨"launch", .refl true⟩
     agentExecutionId := ⟨"writer", .refl true⟩
     operationId := ⟨String.ofList (List.replicate 64 '1'), by decide⟩
     claimOwnerId := ⟨"host", .refl true⟩
     logicalWorkerId := ⟨"worker", .refl true⟩
     hostAgentId := ⟨"host", .refl true⟩
     hostAgentIncarnation := incarnation
     previousHostAgentId := previous.map fun _ => ⟨"host", .refl true⟩
     previousHostAgentIncarnation := previous
     roleId := ⟨"author", .refl true⟩
     stepId := ⟨"draft", .refl true⟩
     attempt := 1
     executionStatus := .running
     liveness := .fresh
     source := .hostReport
     requestedModel := none
     requestedReasoningEffort := none
     actualModel := none
     actualReasoningEffort := none
     activity := "editing"
     blocker := none
     dependency := none
     taskSummary := "draft"
     evidenceReferences := []
     usageKind := none
     usageValue := none
     observedAt := .afterEpoch 0
     reportSequence
     idempotencyKey
     claimFence := ⟨String.ofList (List.replicate 64 '2'), by decide⟩ },
    some ⟨.reportCeremonyAgentStatus, ⟨"host", .refl true⟩⟩)

/-- The first generation reports, and the second takes over from it. -/
def takenOver : List Report :=
  [reportOf ⟨"first", .refl true⟩ none 1 "a",
    reportOf ⟨"second", .refl true⟩ (some ⟨"first", .refl true⟩) 2 "b"]

/-- The first generation is late and takes over from the second. -/
def lateTakeover : Report := reportOf ⟨"first", .refl true⟩ (some ⟨"second", .refl true⟩) 3 "c"

def nextOfSecond : Report := reportOf ⟨"second", .refl true⟩ none 4 "d"

theorem second_generation_goes_on :
    Undisturbed new takenOver ∧
      ((new.afterReports takenOver).report nextOfSecond.1 nextOfSecond.2).1 =
        .ok nextOfSecond.1 := by
  have hclear : Undisturbed new takenOver := by
    refine ⟨?_, ?_, trivial⟩
    · rintro ⟨-, -, hret, -⟩
      revert hret
      decide +kernel
    · rintro ⟨-, -, hret, -⟩
      revert hret
      decide +kernel
  refine ⟨hclear, ((refused_reports_change_nothing takenOver).2 hclear).1
    (reportOf ⟨"second", by decide⟩ (some ⟨"first", by decide⟩) 2 "b").1 _ _ ?_⟩
  constructor <;> decide +kernel

/-- The late report is refused, but it retires the second generation, which the roster still shows:
its next report is refused as well. -/
theorem late_report_locks_out_current_host :
    (∃ fault, ((new.afterReports takenOver).report lateTakeover.1 lateTakeover.2).1 =
        .error fault) ∧
      ((new.afterReports takenOver).report lateTakeover.1 lateTakeover.2).2 ≠
        new.afterReports takenOver ∧
      (∃ current, (new.afterReports (takenOver ++ [lateTakeover])).NextReport current
        nextOfSecond.1 nextOfSecond.2) ∧
      ∃ fault, ((new.afterReports (takenOver ++ [lateTakeover])).report nextOfSecond.1
        nextOfSecond.2).1 = .error fault := by
  refine ⟨⟨.refused (.conflict "retired ceremony agent incarnation"), ?_⟩, ?_, ?_, ?_⟩
  · decide +kernel
  · intro hsame
    have hret := congrArg InMemoryCeremonyAgentStatus.retiredIncarnations hsame
    revert hret
    decide +kernel
  · refine ⟨(reportOf ⟨"second", by decide⟩ (some ⟨"first", by decide⟩) 2 "b").1, ?_⟩
    constructor <;> decide +kernel
  · refine ⟨.refused (.conflict "retired ceremony agent incarnation"), ?_⟩
    decide +kernel

end InMemoryCeremonyAgentStatus

end Made
