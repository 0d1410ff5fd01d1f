import Made.Properties.Deadlines
import Made.Properties.Fences
import Mathlib.Data.Prod.Lex

/-!
# The executions of a step

The executions of a step are its archived records followed by its current one.  An event leaves
them alone, rewrites the last one in place, or opens a later one; the last one is dropped then only
if it was pending, so nothing that was started is lost.
-/

namespace Made

open EventSourcing Outcome StepExecutionRecord List

/-! ## Coordinates -/

namespace StepExecutionRecord

/-- Visit, state iteration and iteration, compared in this order. -/
def coordinates (record : StepExecutionRecord) : ℕ ×ₗ ℕ ×ₗ ℕ :=
  toLex (record.stateVisit.val, toLex (record.stateIteration.val, record.iteration.val))

def operationId (record : StepExecutionRecord) (id : CeremonyId) (stepId : StepId) :
    ExecutionOperationId :=
  .forStep id stepId record.stateVisit record.stateIteration record.iteration

theorem coordinates_lt_iff {a b : StepExecutionRecord} : a.coordinates < b.coordinates ↔
    a.stateVisit.val < b.stateVisit.val ∨ a.stateVisit.val = b.stateVisit.val ∧
      (a.stateIteration.val < b.stateIteration.val ∨
        a.stateIteration.val = b.stateIteration.val ∧ a.iteration.val < b.iteration.val) := by
  simp only [coordinates, Prod.Lex.toLex_lt_toLex]

end StepExecutionRecord

/-- The coordinates of a start; historical starts may lack them. -/
def StepStarted.coordinates (e : StepStarted) : Option (ℕ ×ₗ ℕ ×ₗ ℕ) :=
  e.stateVisit.bind fun visit => e.stateIteration.map fun iteration =>
    toLex (visit.val, toLex (iteration.val, e.iteration.val))

/-! ## Growing lists of executions -/

open StepExecutionRecord in
def Increasing (executions : List StepExecutionRecord) : Prop :=
  (executions.map coordinates).Pairwise (· < ·)

/-- The order is kept, and every execution that was started still has a record. -/
structure Grows (before after : List StepExecutionRecord) : Prop where
  increasing : Increasing before → Increasing after
  kept : ∀ record ∈ before, record.status ≠ .pending →
    ∃ record' ∈ after, record'.coordinates = record.coordinates ∧ record'.status ≠ .pending

theorem Grows.of_eq {before after : List StepExecutionRecord} (h : after = before) :
    Grows before after := by
  rw [h]
  exact ⟨id, fun record hmem hs => ⟨record, hmem, rfl, hs⟩⟩

theorem Grows.trans {before middle after : List StepExecutionRecord} (h : Grows before middle)
    (h' : Grows middle after) : Grows before after := by
  refine ⟨h'.increasing ∘ h.increasing, fun record hmem hs => ?_⟩
  obtain ⟨record', hmem', heq, hstatus'⟩ := h.kept record hmem hs
  obtain ⟨record'', hmem'', heq', hstatus''⟩ := h'.kept record' hmem' hstatus'
  exact ⟨record'', hmem'', heq'.trans heq, hstatus''⟩

namespace CeremonyInstance

variable {d : CeremonyDefinition} {i t : CeremonyInstance} {e : CeremonyEvent}
  {turned stepId : StepId} {record next : StepExecutionRecord} {visit : StateVisit}
  {result : StepResult} {batch : List CeremonyEvent}

def executions (i : CeremonyInstance) (stepId : StepId) : List StepExecutionRecord :=
  i.stepRecordHistory[stepId]?.getD [] ++ i.stepRecords[stepId]?.toList

theorem getD_pushHistory (history : Map StepId (List StepExecutionRecord)) (pushed stepId : StepId)
    (record : StepExecutionRecord) :
    (pushHistory history pushed record)[stepId]?.getD [] =
      history[stepId]?.getD [] ++ if stepId = pushed then [record] else [] := by
  by_cases heq : stepId = pushed
  · subst heq
    simp [pushHistory]
  · simp [pushHistory, Map.getElem?_insert_of_ne heq, heq]

section

variable (hrec : i.stepRecords[turned]? = some record)
  (hrecs : t.stepRecords = i.stepRecords.insert turned next)
include hrec hrecs

/-- A record is written after some were archived, and they take the place of the one before. -/
theorem grows_of_insert (archived : List StepExecutionRecord)
    (hhist : ∀ stepId : StepId, t.stepRecordHistory[stepId]?.getD [] =
      i.stepRecordHistory[stepId]?.getD [] ++ if stepId = turned then archived else [])
    (increasing : Increasing (archived ++ [next]))
    (later : ∀ r ∈ archived ++ [next], record.coordinates ≤ r.coordinates)
    (kept : record.status ≠ .pending → ∃ r ∈ archived ++ [next],
      r.coordinates = record.coordinates ∧ r.status ≠ .pending)
    (stepId : StepId) : Grows (i.executions stepId) (t.executions stepId) := by
  by_cases heq : stepId = turned
  · subst heq
    have hafter : t.executions stepId =
        i.stepRecordHistory[stepId]?.getD [] ++ (archived ++ [next]) := by
      simp [executions, hhist, hrecs]
    have hpre : i.executions stepId = i.stepRecordHistory[stepId]?.getD [] ++ [record] := by
      simp [executions, hrec]
    rw [hpre, hafter]
    refine ⟨fun hsort => ?_, fun past hmem hs => ?_⟩
    · rw [Increasing, map_append, pairwise_append] at hsort ⊢
      refine ⟨hsort.1, increasing, fun past hpast last hlast => ?_⟩
      obtain ⟨r, hr, rfl⟩ := mem_map.mp hlast
      exact (hsort.2.2 past hpast _ (by simp)).trans_le (later r hr)
    · rcases mem_append.mp hmem with hmem | hmem
      · exact ⟨past, mem_append_left _ hmem, rfl, hs⟩
      · rw [mem_singleton.mp hmem] at hs ⊢
        obtain ⟨r, hr, hkept⟩ := kept hs
        exact ⟨r, mem_append_right _ hr, hkept⟩
  · refine .of_eq ?_
    rw [executions, hhist, hrecs, Map.getElem?_insert_of_ne heq, if_neg heq, append_nil, executions]

theorem grows_of_rewritten (hhist : t.stepRecordHistory = i.stepRecordHistory)
    (same : next.coordinates = record.coordinates) (settled : next.status ≠ .pending)
    (stepId : StepId) : Grows (i.executions stepId) (t.executions stepId) :=
  grows_of_insert hrec hrecs [] (by simp [hhist])
    (pairwise_singleton _ _) (by simp [same]) (fun _ => ⟨next, by simp, same, settled⟩) stepId

theorem grows_of_archived {last : StepExecutionRecord}
    (hhist : t.stepRecordHistory = pushHistory i.stepRecordHistory turned last)
    (same : last.coordinates = record.coordinates)
    (settled : record.status ≠ .pending → last.status ≠ .pending)
    (lt : record.coordinates < next.coordinates) (stepId : StepId) :
    Grows (i.executions stepId) (t.executions stepId) :=
  grows_of_insert hrec hrecs [last] (by simp [hhist, getD_pushHistory])
    (by simpa [Increasing, same] using lt) (by simp [same, lt.le])
    (fun hs => ⟨last, by simp, same, settled hs⟩) stepId

end

/-! ## What events do to executions -/

def VisitsBounded (i : CeremonyInstance) : Prop :=
  ∀ (stepId : StepId) (record : StepExecutionRecord), i.stepRecords[stepId]? = some record →
    record.stateVisit.val ≤ i.currentStateVisit.val

theorem grows_of_restartStep {iteration : StateIteration}
    (hrec : i.stepRecords[turned]? = some record)
    (lt : record.coordinates < ((pendingStateIteration iteration).withStateVisit visit).coordinates)
    (stepId : StepId) :
    Grows (i.executions stepId) ((restartStep iteration visit i turned).executions stepId) := by
  have htake := takeStepRecord_eq hrec
  exact grows_of_archived hrec rfl (by rw [restartStep, htake]) rfl (fun h => h) lt stepId

theorem grows_of_resetStep (hrec : i.stepRecords[turned]? = some record)
    (lt : record.coordinates < (pending.withStateVisit visit).coordinates) (stepId : StepId) :
    Grows (i.executions stepId) ((resetStep visit i turned).executions stepId) := by
  by_cases hpend : record.status = .pending
  · exact grows_of_insert hrec rfl [] (by simp [resetStep, hrec, hpend])
      (pairwise_singleton _ _) (by simpa using lt.le) (absurd hpend) stepId
  · exact grows_of_archived hrec rfl (by simp [resetStep, hrec, hpend]) rfl (fun h => h) lt stepId

theorem grows_foldl {update : CeremonyInstance → StepId → CeremonyInstance}
    (hupdate : ∀ i turned record, i.stepRecords[turned]? = some record →
      record.coordinates < next.coordinates → ∀ stepId,
        Grows (i.executions stepId) ((update i turned).executions stepId))
    (hrecs : ∀ i turned, (update i turned).stepRecords = i.stepRecords.insert turned next)
    {stepIds : List StepId} (nodup : stepIds.Nodup) (i : CeremonyInstance)
    (hall : ∀ stepId ∈ stepIds, ∃ record, i.stepRecords[stepId]? = some record ∧
      record.coordinates < next.coordinates) (stepId : StepId) :
    Grows (i.executions stepId) ((stepIds.foldl update i).executions stepId) := by
  induction stepIds generalizing i with
  | nil => exact .of_eq rfl
  | cons turned rest ih =>
    rw [nodup_cons] at nodup
    rw [forall_mem_cons] at hall
    obtain ⟨⟨record, hrec, hlt⟩, hrest⟩ := hall
    refine (hupdate i turned record hrec hlt stepId).trans (ih nodup.2 _ ?_)
    intro other ho
    rw [hrecs, Map.getElem?_insert_of_ne (ne_of_mem_of_not_mem ho nodup.1)]
    exact hrest other ho

theorem RecordsPlaced.exists_record (placed : RecordsPlaced d i) {stateId : StateId}
    (hmem : stepId ∈ (d.stepsForState stateId).map (·.id)) :
    ∃ step record, step.id = stepId ∧ d.step step.id = some step ∧ step.stateId = stateId ∧
      i.stepRecords[stepId]? = some record := by
  obtain ⟨step, hstep, rfl⟩ := mem_map.mp hmem
  obtain ⟨hdecl, hstate⟩ := (d.mem_stepsForState _ _).mp hstep
  obtain ⟨record, hrec⟩ := Option.isSome_iff_exists.mp
    ((placed.declared step.id).trans (by rw [hdecl]; rfl))
  exact ⟨step, record, rfl, hdecl, hstate, hrec⟩

theorem status_ne_pending (result : StepResult) : result.status ≠ .pending := by
  obtain ⟨status, _, _, _, valid⟩ := result
  rintro rfl
  simp [stepResultOk] at valid

theorem grows_of_result (hrec : i.stepRecords[turned]? = some record)
    (hrecs : t.stepRecords = i.stepRecords.insert turned (record.withResult result))
    (hhist : t.stepRecordHistory = i.stepRecordHistory) (stepId : StepId) :
    Grows (i.executions stepId) (t.executions stepId) :=
  grows_of_rewritten hrec hrecs hhist rfl (status_ne_pending result) stepId

theorem lt_of_nextIterationAfter {step : CeremonyStep} {iteration later : StepIteration}
    (h : nextIterationAfter step result iteration = .ok (some later)) :
    iteration.val < later.val := by
  unfold nextIterationAfter at h
  split at h
  · cases h
  · simp only [bind_eq_ok, pure_eq_ok, Option.some.injEq, exists_eq_right] at h
    have hval := StepIteration.next_val h
    omega

theorem grows_of_execution (bounded : i.VisitsBounded) (placed : RecordsPlaced d i)
    (execution : ExecutionStep d i e t) (stepId : StepId) :
    Grows (i.executions stepId) (t.executions stepId) := by
  cases execution with
  | other _ same =>
    exact .of_eq (by rw [executions, same.stepRecords, same.stepRecordHistory, executions])
  | started e step record admitted =>
    have hrecs : (i.applyStepStarted e).stepRecords = i.stepRecords.insert e.stepId
        (startedRecord record e) := by
      rw [applyStepStarted, takeStepRecord_eq admitted.record_eq, startedRecord]
    exact grows_of_rewritten admitted.record_eq hrecs rfl rfl (fun hpend => by cases hpend) stepId
  | renewed e record lease admitted =>
    have hlive := admitted.live
    have hrecs : (i.applyStepLeaseRenewed e).stepRecords = i.stepRecords.insert e.stepId
        (record.renewLeaseUntil e.expiresAt) := by
      simp [applyStepLeaseRenewed, admitted.record_eq]
    refine grows_of_rewritten admitted.record_eq hrecs rfl rfl (fun hpend => ?_) stepId
    simp [hasLiveLeaseAt, show record.status = .pending from hpend] at hlive
  | completed e step record fence admitted =>
    have hrec := admitted.claim.record_eq
    have htake := takeStepRecord_eq hrec
    have hrecs := applyStepCompleted_stepRecords (i := i) e
    rw [htake] at hrecs
    cases hnext : e.nextIteration with
    | none =>
      rw [completedRecord, hnext] at hrecs
      exact grows_of_result hrec hrecs (by simp [applyStepCompleted, hnext]) stepId
    | some later =>
      rw [completedRecord, hnext] at hrecs
      have hlater := lt_of_nextIterationAfter (hnext ▸ admitted.next_eq)
      have hhist : (i.applyStepCompleted e).stepRecordHistory =
          pushHistory i.stepRecordHistory e.stepId (record.withResult e.result) := by
        simp [applyStepCompleted, hnext, htake]
      exact grows_of_archived hrec hrecs hhist rfl (fun _ => status_ne_pending e.result)
        (coordinates_lt_iff.mpr (.inr ⟨rfl, .inr ⟨rfl, hlater⟩⟩)) stepId
  | failed e step record fence admitted =>
    exact grows_of_result admitted.claim.record_eq (t := i.applyStepFailed e)
      (by rw [applyStepFailed, takeStepRecord_eq admitted.claim.record_eq]) rfl stepId
  | iterated e admitted =>
    refine grows_foldl (fun _ _ _ => grows_of_restartStep) (fun _ _ => rfl)
      (admitted.stepIds_eq ▸ d.stepsForState_ids_nodup _)
      { i with currentStateIteration := e.stateIteration } (fun stepId hmem => ?_) stepId
    rw [admitted.stepIds_eq] at hmem
    obtain ⟨step, record, rfl, hdecl, hstate, hrec⟩ := placed.exists_record hmem
    obtain ⟨hvisit, hiter⟩ := placed.placed step record hdecl hstate hrec
    have hval := StateIteration.next_val admitted.next_eq
    refine ⟨record, hrec, coordinates_lt_iff.mpr (.inr ⟨?_, .inl ?_⟩)⟩
    · rw [hvisit, admitted.visit_eq]
      rfl
    · rw [hiter]
      exact hval ▸ Nat.lt_succ_self _
  | moved e transition destination admitted =>
    rw [applyTransitionApplied, admitted.destination_eq]
    refine grows_foldl (fun _ _ _ => grows_of_resetStep) (fun _ _ => rfl)
      (admitted.stepIds_eq ▸ d.stepsForState_ids_nodup _)
      { i with currentStateVisit := destination.stateVisit, stateDeadline := destination.deadline }
      (fun stepId hmem => ?_) stepId
    rw [admitted.stepIds_eq] at hmem
    obtain ⟨_, record, -, -, -, hrec⟩ := placed.exists_record hmem
    have hvisit := bounded stepId record hrec
    have hval := StateVisit.next_val admitted.visit_eq
    refine ⟨record, hrec, coordinates_lt_iff.mpr (.inl ?_)⟩
    change record.stateVisit.val < destination.stateVisit.val
    omega
  | timedOut e =>
    cases hrec : i.stepRecords[e.deadline.stepId]? with
    | none => exact .of_eq (by simp [executions, applyStepDeadlineExceeded, hrec])
    | some record =>
      exact grows_of_result hrec (t := i.applyStepDeadlineExceeded e)
        (by rw [applyStepDeadlineExceeded, hrec]) rfl stepId
  | late => exact .of_eq rfl

theorem VisitsBounded.step (h : i.VisitsBounded) (execution : ExecutionStep d i e t) :
    t.VisitsBounded := by
  intro stepId record hrec
  have hclaim := claimStep_of_execution execution stepId
  cases execution with
  | iterated e admitted =>
    obtain ⟨_, _, hshape⟩ := applyStateIterationStarted_eq i e
    rw [applyStateIterationStarted_stepRecords] at hrec
    rw [hshape]
    split at hrec
    · cases hrec
      rw [admitted.visit_eq]
      exact le_rfl
    · exact h stepId record hrec
  | moved e transition destination admitted =>
    obtain ⟨_, _, hshape⟩ := applyTransitionApplied_eq i admitted.destination_eq
    rw [applyTransitionApplied_stepRecords admitted.destination_eq] at hrec
    rw [hshape]
    split at hrec
    · cases hrec
      exact le_rfl
    · have hval := StateVisit.next_val admitted.visit_eq
      have hle := h stepId record hrec
      change record.stateVisit.val ≤ destination.stateVisit.val
      omega
  | other quiet same =>
    obtain ⟨before, hpre, hvisit, -⟩ := hclaim.coordinates (by rintro _ rfl; cases quiet)
      (by rintro _ rfl; cases quiet) hrec
    rw [hvisit, same.currentStateVisit]
    exact h stepId before hpre
  | completed e =>
    obtain ⟨before, hpre, hvisit, -⟩ := hclaim.coordinates (by simp) (by simp) hrec
    obtain ⟨_, _, hshape⟩ := applyStepCompleted_eq i e
    rw [hvisit, hshape]
    exact h stepId before hpre
  | _ =>
    obtain ⟨before, hpre, hvisit, -⟩ := hclaim.coordinates (by simp) (by simp) hrec
    rw [hvisit]
    exact h stepId before hpre

/-! ## Where claims come from -/

def StartedAt (log : List CeremonyEvent) (stepId : StepId) (record : StepExecutionRecord) : Prop :=
  ∃ e, .stepStarted e ∈ log ∧ e.stepId = stepId ∧ e.coordinates = some record.coordinates

theorem StartedAt.append {log : List CeremonyEvent} (h : StartedAt log stepId record)
    (more : List CeremonyEvent) : StartedAt (log ++ more) stepId record := by
  obtain ⟨e, hmem, hrest⟩ := h
  exact ⟨e, mem_append_left _ hmem, hrest⟩

theorem StartAdmitted.coordinates_eq {e : StepStarted} {step : CeremonyStep}
    (placed : RecordsPlaced d i) (admitted : StartAdmitted d i e step record) :
    record.stateVisit = i.currentStateVisit ∧ record.stateIteration = i.currentStateIteration ∧
      e.coordinates = some record.coordinates := by
  have hid : step.id = e.stepId := d.step_id_of_getElem? admitted.step_eq
  obtain ⟨hvisit, hiter⟩ := placed.placed step record (hid ▸ admitted.step_eq)
    admitted.inState (hid ▸ admitted.record_eq)
  refine ⟨hvisit, hiter, ?_⟩
  simp [StepStarted.coordinates, coordinates, admitted.visit_eq,
    admitted.stateIteration_eq, admitted.iteration_eq, hvisit, hiter]

theorem retired_of_execution (execution : ExecutionStep d i e t) :
    t.retiredDeadlineClaims = i.retiredDeadlineClaims ∨ ∃ deadline : StepDeadline,
      i.stepDeadlines[deadline.stepId]? = some deadline ∧ t.retiredDeadlineClaims =
        i.retiredDeadlineClaims.insert deadline.claimFence deadline := by
  cases execution with
  | timedOut e _ standing => exact .inr ⟨e.deadline, standing, rfl⟩
  | other _ same => exact .inl same.retiredDeadlineClaims
  | completed e =>
    obtain ⟨_, _, hshape⟩ := applyStepCompleted_eq i e
    exact .inl (by rw [hshape]; rfl)
  | iterated e =>
    obtain ⟨_, _, hshape⟩ := applyStateIterationStarted_eq i e
    exact .inl (by rw [hshape]; rfl)
  | moved e _ _ admitted =>
    obtain ⟨_, _, hshape⟩ := applyTransitionApplied_eq i admitted.destination_eq
    exact .inl (by rw [hshape]; rfl)
  | _ => exact .inl rfl

/-- A deadline that stands or has retired a claim. -/
def IsSealed (i : CeremonyInstance) (deadline : StepDeadline) : Prop :=
  (∃ stepId : StepId, i.stepDeadlines[stepId]? = some deadline) ∨
    ∃ fence : StepClaimFence, i.retiredDeadlineClaims[fence]? = some deadline

/-- What holds of the executions of a session, given the events of the run that led to it. -/
structure ExecutionsKept (d : CeremonyDefinition) (log : List CeremonyEvent)
    (i : CeremonyInstance) : Prop where
  placed : RecordsPlaced d i
  bounded : i.VisitsBounded
  increasing : ∀ stepId, Increasing (i.executions stepId)
  started : ∀ e, .stepStarted e ∈ log → ∃ record ∈ i.executions e.stepId,
    e.coordinates = some record.coordinates ∧ record.status ≠ .pending
  leased : ∀ (stepId : StepId) (record : StepExecutionRecord),
    i.stepRecords[stepId]? = some record → record.lease.isSome = true → StartedAt log stepId record
  sealed_ : ∀ deadline, i.IsSealed deadline → ∃ e, .stepStarted e ∈ log ∧ e.deadline = some deadline

variable {log : List CeremonyEvent}

section

variable (h : ExecutionsKept d log i)
include h

theorem ExecutionsKept.leased_step (claim : ClaimStep d i e t stepId)
    (hrec : t.stepRecords[stepId]? = some record) (leased : record.lease.isSome = true) :
    StartedAt (log ++ [e]) stepId record := by
  cases claim with
  | kept record_eq => exact (h.leased stepId record (record_eq ▸ hrec) leased).append _
  | started e step before admitted record_eq =>
    rw [record_eq, Option.some.injEq] at hrec
    subst hrec
    exact ⟨e, by simp, rfl, (StartAdmitted.coordinates_eq h.placed admitted).2.2⟩
  | renewed e before lease admitted record_eq =>
    rw [record_eq, Option.some.injEq] at hrec
    subst hrec
    exact (h.leased _ before admitted.record_eq leased).append _
  | completed e step before fence admitted record_eq =>
    rw [record_eq, Option.some.injEq] at hrec
    simp [← hrec, completedRecord_lease] at leased
  | timedOut e standing record_eq =>
    rw [record_eq, Option.map_eq_some_iff] at hrec
    obtain ⟨before, -, rfl⟩ := hrec
    cases leased
  | failed _ _ _ _ _ record_eq | restarted _ _ _ record_eq | entered _ _ _ _ _ record_eq =>
    rw [record_eq, Option.some.injEq] at hrec
    subst hrec
    cases leased

theorem ExecutionsKept.sealed_step (execution : ExecutionStep d i e t) {deadline : StepDeadline}
    (hseal : t.IsSealed deadline) :
    ∃ e', .stepStarted e' ∈ log ++ [e] ∧ e'.deadline = some deadline := by
  have hpre : i.IsSealed deadline →
      ∃ e', .stepStarted e' ∈ log ++ [e] ∧ e'.deadline = some deadline := by
    intro hseal
    obtain ⟨e', hmem, hdue⟩ := h.sealed_ deadline hseal
    exact ⟨e', mem_append_left _ hmem, hdue⟩
  rcases hseal with ⟨stepId, hdue⟩ | ⟨fence, hret⟩
  · cases claimStep_of_execution execution stepId with
    | kept _ deadline_eq | renewed _ _ _ _ _ deadline_eq | restarted _ _ _ _ deadline_eq
    | entered _ _ _ _ _ _ deadline_eq => exact hpre (.inl ⟨_, deadline_eq ▸ hdue⟩)
    | started e step record admitted _ deadline_eq =>
      exact ⟨e, by simp, deadline_eq ▸ hdue⟩
    | completed _ _ _ _ _ _ deadline_eq | failed _ _ _ _ _ _ deadline_eq
    | timedOut _ _ _ deadline_eq => simp [deadline_eq] at hdue
  · rcases retired_of_execution execution with heq | ⟨last, standing, heq⟩
    · exact hpre (.inr ⟨fence, heq ▸ hret⟩)
    · rw [heq, Std.ExtTreeMap.getElem?_insert] at hret
      split at hret
      · cases hret
        exact hpre (.inl ⟨_, standing⟩)
      · exact hpre (.inr ⟨fence, hret⟩)

theorem ExecutionsKept.step (execution : ExecutionStep d i e t) :
    ExecutionsKept d (log ++ [e]) t := by
  have hgrows := grows_of_execution h.bounded h.placed execution
  refine ⟨h.placed.step execution, h.bounded.step execution,
    fun stepId => (hgrows stepId).increasing (h.increasing stepId), ?_,
    fun stepId record hrec hleased => h.leased_step (claimStep_of_execution execution stepId)
      hrec hleased, fun deadline => h.sealed_step execution⟩
  intro started hmem
  rcases mem_append.mp hmem with hmem | hmem
  · obtain ⟨record, hrec, hat, hs⟩ := h.started started hmem
    obtain ⟨record', hrecord', hsame, hstatus'⟩ :=
      (hgrows started.stepId).kept record hrec hs
    exact ⟨record', hrecord', hsame ▸ hat, hstatus'⟩
  · cases mem_singleton.mp hmem
    cases execution with
    | other quiet => cases quiet
    | started _ step record admitted =>
      refine ⟨startedRecord record started, ?_,
        (StartAdmitted.coordinates_eq h.placed admitted).2.2, nofun⟩
      simp [executions, applyStepStarted, takeStepRecord_eq admitted.record_eq, startedRecord]

theorem ExecutionsKept.reservation {command : StartStep}
    (hrec : i.stepRecords[command.stepId]? = some record)
    (accepted : i.decideStartStep d command = .ok batch) :
    command.budgetReservationId = i.budgetAccountId.map fun account =>
      .forOperation account (record.operationId i.id command.stepId) := by
  obtain ⟨e, step, record', rfl, admitted, hstep, -, -, hcmd, hreserved⟩ :=
    decideStartStep_eq_ok accepted
  obtain ⟨hvisit, hiter, -⟩ := StartAdmitted.coordinates_eq h.placed admitted
  rw [← hstep, admitted.record_eq, Option.some.injEq] at hrec
  rw [← hcmd, hreserved, operationId, ← hrec, hvisit, hiter, hstep]

/-- The operation that an accepted receipt names: that of the record, or that of the start that was
sealed with the deadline which retired the claim. -/
theorem ExecutionsKept.receipt (allowed : ∀ e ∈ log, ∃ s, Admitted d s e)
    {command : ApplyExecutionReceiptResult} (hrec : i.stepRecords[command.stepId]? = some record)
    (accepted : i.decideApplyExecutionReceiptResult d command = .ok batch) (hne : batch ≠ []) :
    ∃ origin, command.receiptLink.operationId = origin.operationId i.id command.stepId ∧
      match i.retiredClaim command.stepId command.receiptLink.appliedClaimFence with
      | none => origin = record
      | some deadline => ∃ e, .stepStarted e ∈ log ∧ e.deadline = some deadline ∧
          e.stepId = command.stepId ∧ e.coordinates = some origin.coordinates := by
  cases decideApplyExecutionReceiptResult_eq_ok accepted with
  | repeated => exact absurd rfl hne
  | linked record' results admitted =>
    have hop := admitted.operation_eq
    have hcur := admitted.record_eq
    rw [hrec, Option.some.injEq] at hcur
    subst hcur
    unfold expectedOperationId at hop
    split at hop
    case h_2 hnone => exact ⟨record, hop, by rw [hnone]⟩
    case h_1 deadline hret =>
      rw [hret]
      rw [retiredClaim, Option.filter_eq_some_iff, decide_eq_true_eq] at hret
      obtain ⟨e, hmem, hdue⟩ := h.sealed_ deadline (.inr ⟨_, hret.1⟩)
      obtain ⟨s, step, claimed, hstart⟩ := allowed _ hmem
      obtain ⟨hstep, hvisit, hiter, hstepIteration, -, -⟩ :=
        hstart.deadline_eq deadline hdue
      refine ⟨{ record with
        stateVisit := deadline.stateVisit
        stateIteration := deadline.stateIteration
        iteration := deadline.stepIteration }, hop, e, hmem, hdue, ?_, ?_⟩
      · exact hstep.symm.trans hret.2
      · simp [StepStarted.coordinates, coordinates, hstart.visit_eq,
          hstart.stateIteration_eq, hstart.iteration_eq, hvisit, hiter, hstepIteration]

end

end CeremonyInstance

open CeremonyInstance

variable {d : CeremonyDefinition} {opening : CeremonyOpening} {events log : List CeremonyEvent}
  {i t : CeremonyInstance} {trace : List (CeremonyCommand × List CeremonyEvent)}

theorem Opened.executionsKept (opened : Opened d opening events i) : ExecutionsKept d [] i := by
  have hfresh := opened.fresh
  refine ⟨opened.recordsPlaced, fun stepId record hrec => ?_, fun stepId => ?_, by simp,
    fun stepId record hrec hleased => ?_, ?_⟩
  · rw [(hfresh.unclaimed stepId record hrec).2.2.1, hfresh.currentStateVisit]
  · cases hrec : i.stepRecords[stepId]? <;>
      simp [Increasing, CeremonyInstance.executions, hrec, hfresh.stepRecordHistory]
  · rw [(hfresh.unclaimed stepId record hrec).2.1] at hleased
    cases hleased
  · simp [IsSealed, hfresh.stepDeadlines, hfresh.retiredDeadlineClaims]

theorem CeremonyInstance.ExecutionsKept.path {stream : List CeremonyEvent}
    (h : ExecutionsKept d log i)
    (path : (machine d).Path (Admitted d) i stream t) : ExecutionsKept d (log ++ stream) t := by
  induction path generalizing log with
  | nil => simpa using h
  | cons allowed step _ ih =>
    rw [append_cons]
    exact ih (h.step (effects_of_admitted allowed step).execution)

/-- In every state of a run: the records of the current state carry its coordinates, the executions
of a step have strictly increasing ones, and every start has exactly one record at its own.  A start
names the reservation, and a receipt the operation, of the coordinates of the record; a claimed
record has those of a start, and the operation of a claim that a deadline retired has those of the
start which sealed that deadline. -/
theorem executions_are_kept (opened : Opened d opening events i)
    (run : (machine d).Run (fun _ _ => True) i trace t) :
    (∀ step ∈ d.stepsForState t.currentState, ∃ record,
      t.stepRecords[step.id]? = some record ∧ record.stateVisit = t.currentStateVisit ∧
        record.stateIteration = t.currentStateIteration) ∧
    (∀ stepId, Increasing (t.executions stepId)) ∧
    (∀ e, .stepStarted e ∈ Machine.stream trace →
      (t.executions e.stepId).countP (e.coordinates = some ·.coordinates) = 1) ∧
    ∀ (stepId : StepId) (record : StepExecutionRecord), t.stepRecords[stepId]? = some record →
      (record.lease.isSome = true → StartedAt (Machine.stream trace) stepId record) ∧
      (∀ command batch, t.decideStartStep d command = .ok batch → command.stepId = stepId →
        command.budgetReservationId = t.budgetAccountId.map fun account =>
          .forOperation account (record.operationId t.id stepId)) ∧
      ∀ command batch, t.decideApplyExecutionReceiptResult d command = .ok batch → batch ≠ [] →
        command.stepId = stepId →
        ∃ origin, command.receiptLink.operationId = origin.operationId t.id stepId ∧
          match t.retiredClaim stepId command.receiptLink.appliedClaimFence with
          | none => origin = record
          | some deadline => ∃ e, .stepStarted e ∈ Machine.stream trace ∧
              e.deadline = some deadline ∧ e.stepId = stepId ∧
                e.coordinates = some origin.coordinates := by
  have hpath := opened.path run
  have hkept := opened.executionsKept.path hpath
  rw [List.nil_append] at hkept
  refine ⟨fun step hstep => ?_, hkept.increasing, fun e hmem => ?_, fun stepId record hrec =>
    ⟨hkept.leased stepId record hrec, ?_, ?_⟩⟩
  · obtain ⟨hdecl, hstate⟩ := (d.mem_stepsForState _ _).mp hstep
    obtain ⟨_, record, -, -, -, hrec⟩ :=
      hkept.placed.exists_record (List.mem_map_of_mem hstep)
    exact ⟨record, hrec, hkept.placed.placed step record hdecl hstate hrec⟩
  · obtain ⟨record, hrec, hat, -⟩ := hkept.started e hmem
    have hnd := (hkept.increasing e.stepId).imp fun h => h.ne
    have hcnt := List.count_eq_one_of_mem hnd (List.mem_map_of_mem hrec)
    rw [List.count, List.countP_map] at hcnt
    rw [← hcnt]
    refine List.countP_congr fun other _ => ?_
    simp only [hat, Option.some.injEq, decide_eq_true_eq, Function.comp_apply, beq_iff_eq]
    exact eq_comm
  · rintro command batch accepted rfl
    exact hkept.reservation hrec accepted
  · rintro command batch accepted hne rfl
    exact hkept.receipt hpath.forall_mem hrec accepted hne

/-- A draft that was claimed, left behind and entered again: one archived execution, and the pending
one of the third visit. -/
theorem parked_draft_is_kept :
    ∃ (events : List CeremonyEvent) (i : CeremonyInstance)
      (trace : List (CeremonyCommand × List CeremonyEvent)) (t : CeremonyInstance),
      Opened parkingDefinition (openingOf parkingDefinition) events i ∧
      (machine parkingDefinition).Run (fun _ _ => True) i trace t ∧
      (t.executions draftId).map (·.stateVisit.val) = [1, 3] ∧
        Increasing (t.executions draftId) := by
  obtain ⟨events, i, trace, t, hopened, hrun, hvisits⟩ := exists_run_of_script
    (openingOf parkingDefinition) [fun _ => parkedStart, fun _ => park, fun _ => unpark]
    (fun _ _ t => (t.executions draftId).map (·.stateVisit.val) = [1, 3]) (by decide +kernel)
  exact ⟨events, i, trace, t, hopened, hrun, hvisits,
    (executions_are_kept (d := parkingDefinition) hopened hrun).2.1 draftId⟩

end Made
