import Mathlib.Data.List.TakeWhile
import Made.Execution.UseCases

/-!
# What attempts do to one operation

The log of a run read for one operation, the replies of the ports, and the invariant that ties the
log to the store.  The first intent of an operation is recorded once, and where every execution uses
one connector that requires reconciliation, only the claim that recorded it makes the call.
-/

namespace Made

open Interleaving ExecutionStore List

abbrev AttemptLog := List (Event ports WorkerInput)

abbrev AttemptWorld := World ports ExecutionStore WorkerInput

/-! ## The log, read for one operation -/

section Log

variable (operationId : ExecutionOperationId)

/-- The operation an attempt is about, if its request can be encoded. -/
def WorkerInput.operationId? : WorkerInput → Option ExecutionOperationId
  | execute _ input _ => input.candidate.toOption.map ExecutionOperation.operationId
  | recover _ intent => some intent.operation.operationId
  | reconcile input => some input.receipt.operationId

/-- A claim presented to `execute`: the thread, its connector and its fence. -/
structure Presentation where
  thread : Nat
  connector : ConnectorContract
  claimFence : StepClaimFence
deriving DecidableEq

def presentation : Event ports WorkerInput → Option Presentation
  | .started n (.execute u input cancelled) =>
    if (WorkerInput.execute u input cancelled).operationId? = some operationId then
      some ⟨n, u.connector, input.claimFence⟩
    else none
  | _ => none

def intentRecord : Event ports WorkerInput → Option (Nat × ExecutionIntent)
  | .called n (.store (.recordIntent intent)) _ =>
    if intent.operation.operationId = operationId then some (n, intent) else none
  | _ => none

/-- A record of an intent that was told to be the first. -/
def firstRecord : Event ports WorkerInput → Option (Nat × ExecutionIntent)
  | .called n (.store (.recordIntent intent)) (.ok .recordedFirst) =>
    if intent.operation.operationId = operationId then some (n, intent) else none
  | _ => none

/-- A call of a connector's `execute`, whatever came of it. -/
def execution : Event ports WorkerInput → Option (Nat × ExecutionIntent)
  | .called n (.outside (.executeCancellable _ request)) _ =>
    if request.intent.operation.operationId = operationId then some (n, request.intent) else none
  | _ => none

variable (log : AttemptLog)

def presentations : List Presentation := log.filterMap (presentation operationId)

/-- The claims presented before the call was made. -/
def presentedEarly : List Presentation :=
  presentations operationId (log.takeWhile fun e => (execution operationId e).isNone)

def intentRecords : List (Nat × ExecutionIntent) :=
  log.filterMap (intentRecord operationId)

def firstRecords : List (Nat × ExecutionIntent) :=
  log.filterMap (firstRecord operationId)

def executions : List (Nat × ExecutionIntent) :=
  log.filterMap (execution operationId)

/-- Neither records an intent of the operation nor executes it. -/
def Harmless : PortCall → Prop
  | .store (.recordIntent intent) => intent.operation.operationId ≠ operationId
  | .outside (.executeCancellable _ request) => request.intent.operation.operationId ≠ operationId
  | _ => True

/-- What is asked of a new attempt.  Every `execute` of the operation uses the one connector.  After
the call was made, an attempt with that connector carries the same request and is not cancelled, and
it presents the claim that made the call or one that was not presented before the call (an attempt
from before the call may still record an intent of its own); a recovery is of the intent that made
the call. -/
def WorkerInput.admits (connector : ConnectorContract) (w : AttemptWorld) : WorkerInput → Bool
  | execute u input cancelled =>
    match input.candidate with
    | .error _ => true
    | .ok candidate =>
      decide (candidate.operationId ≠ operationId) ||
      (decide (u.connector = connector) && (executions operationId w.log).all fun made =>
        !cancelled && decide (candidate = made.2.operation) &&
        (decide (input.claimFence = made.2.claimFence ∧ input.actorKind = made.2.actorKind) ||
          !(presentedEarly operationId w.log).any fun p => p.claimFence = input.claimFence))
  | recover u intent =>
    decide (u.connector ≠ connector ∨ intent.operation.operationId ≠ operationId) ||
    (executions operationId w.log).all fun made => intent = made.2
  | reconcile _ => true

end Log

theorem admits_execute {operationId : ExecutionOperationId} {connector : ConnectorContract}
    {w : AttemptWorld} {u : ExecuteCeremonyOperationUseCase} {input : ExecuteCeremonyOperationInput}
    {cancelled : Bool}
    (hop : (WorkerInput.execute u input cancelled).operationId? = some operationId)
    (meets : (WorkerInput.execute u input cancelled).admits operationId connector w = true) :
    ∃ candidate, input.candidate = .ok candidate ∧ candidate.operationId = operationId ∧
      u.connector = connector ∧ ∀ made ∈ executions operationId w.log,
        cancelled = false ∧ candidate = made.2.operation ∧
          ((input.claimFence = made.2.claimFence ∧ input.actorKind = made.2.actorKind) ∨
            ∀ p ∈ presentedEarly operationId w.log, p.claimFence ≠ input.claimFence) := by
  cases hcand : input.candidate with
  | error => simp [WorkerInput.operationId?, hcand, Except.toOption] at hop
  | ok candidate =>
    simp only [WorkerInput.operationId?, hcand, Except.toOption, Option.map_some,
      Option.some.injEq] at hop
    simp only [WorkerInput.admits, hcand, hop, ne_eq, not_true_eq_false, decide_false,
      Bool.false_or, Bool.and_eq_true, decide_eq_true_eq, all_eq_true, Bool.or_eq_true,
      Bool.not_eq_true', any_eq_false] at meets
    refine ⟨candidate, rfl, hop, meets.1, fun made hmade => ?_⟩
    obtain ⟨⟨hcancelled, hsame⟩, hclaim⟩ := meets.2 made hmade
    exact ⟨hcancelled, hsame, hclaim⟩

section Entries

variable {operationId : ExecutionOperationId} {log : AttemptLog} {n : Nat} {c : PortCall}
  {input : WorkerInput} {reply : c.Reply}

theorem presentedEarly_append {p : Presentation} (e : Event ports WorkerInput)
    (h : p ∈ presentedEarly operationId log) : p ∈ presentedEarly operationId (log ++ [e]) := by
  rw [presentedEarly, takeWhile_append]
  split
  · next hlen =>
      rw [presentedEarly, (takeWhile_sublist _).eq_of_length hlen] at h
      rw [presentations, filterMap_append]
      exact mem_append_left _ h
  · exact h

theorem presentedEarly_late {made : Nat × ExecutionIntent} (e : Event ports WorkerInput)
    (h : made ∈ executions operationId log) :
    presentedEarly operationId (log ++ [e]) = presentedEarly operationId log := by
  obtain ⟨call, hmem, hcall⟩ := mem_filterMap.mp h
  have hshort : ¬ (log.takeWhile fun e => (execution operationId e).isNone).length =
      log.length := by
    intro hlen
    have hall := takeWhile_eq_self_iff.mp ((takeWhile_sublist _).eq_of_length hlen) call hmem
    rw [hcall] at hall
    cases hall
  rw [presentedEarly, takeWhile_append, if_neg hshort, presentedEarly]

theorem presentedEarly_eq (h : executions operationId log = []) :
    presentedEarly operationId log = presentations operationId log := by
  rw [presentedEarly, takeWhile_eq_self_iff.mpr]
  intro e he
  rw [filterMap_eq_nil_iff.mp h e he]
  rfl

theorem intentRecords_started :
    intentRecords operationId (log ++ [.started n input]) = intentRecords operationId log := by
  simp [intentRecords, intentRecord]

theorem firstRecords_started :
    firstRecords operationId (log ++ [.started n input]) = firstRecords operationId log := by
  simp [firstRecords, firstRecord]

theorem executions_started :
    executions operationId (log ++ [.started n input]) = executions operationId log := by
  simp [executions, execution]

theorem intentRecords_outside {c : OutsideCall} {reply : Result c.Answer} :
    intentRecords operationId (log ++ [.called n (.outside c) reply]) =
      intentRecords operationId log := by
  rw [intentRecords, filterMap_append]
  exact append_nil _

theorem firstRecords_outside {c : OutsideCall} {reply : Result c.Answer} :
    firstRecords operationId (log ++ [.called n (.outside c) reply]) =
      firstRecords operationId log := by
  rw [firstRecords, filterMap_append]
  exact append_nil _

theorem intentRecords_harmless (h : Harmless operationId c) :
    intentRecords operationId (log ++ [.called n c reply]) = intentRecords operationId log := by
  have hent : intentRecord operationId (.called n c reply) = none := by
    unfold intentRecord
    split
    · next heq =>
        cases heq
        exact if_neg h
    · rfl
  simp [intentRecords, hent]

theorem firstRecords_harmless (h : Harmless operationId c) :
    firstRecords operationId (log ++ [.called n c reply]) = firstRecords operationId log := by
  have hent : firstRecord operationId (.called n c reply) = none := by
    unfold firstRecord
    split
    · next heq =>
        cases heq
        exact if_neg h
    · rfl
  simp [firstRecords, hent]

theorem executions_harmless (h : Harmless operationId c) :
    executions operationId (log ++ [.called n c reply]) = executions operationId log := by
  have hent : execution operationId (.called n c reply) = none := by
    unfold execution
    split
    · next heq =>
        cases heq
        exact if_neg h
    · rfl
  simp [executions, hent]

end Entries

/-! ## Replies of the ports -/

section Replies

variable {s t : ExecutionStore} {c : PortCall} {reply : c.Reply}
  {operationId : ExecutionOperationId} {claimFence : StepClaimFence}

inductive StoreChange (s : ExecutionStore) : PortCall → ExecutionStore → Prop where
  | none (c : PortCall) : StoreChange s c s
  | intent {intent : ExecutionIntent} {outcome : RecordExecutionIntentOutcome} {t : ExecutionStore}
      (recorded : s.IntentRecorded intent outcome t) :
      StoreChange s (.store (.recordIntent intent)) t
  | requirement {requirement : ExecutionReconciliationRequirement} {t : ExecutionStore}
      (recorded : s.RequirementRecorded requirement t) :
      StoreChange s (.store (.recordReconciliationRequirement requirement)) t
  | receipt {receipt : ExecutionReceipt} {outcome : RecordExecutionReceiptOutcome}
      {t : ExecutionStore} (recorded : s.ReceiptRecorded receipt outcome t) :
      StoreChange s (.store (.recordReceipt receipt)) t

theorem ExecutionStore.run_change (s : ExecutionStore) (c : StoreCall) :
    StoreChange s (.store c) (s.run c).2 := by
  cases c with
  | recordIntent intent =>
    rw [run]
    cases h : s.recordIntent intent with
    | ok pair => exact .intent (recordIntent_eq_ok h)
    | error => exact .none _
  | recordReconciliationRequirement requirement =>
    rw [run]
    cases h : s.recordReconciliationRequirement requirement with
    | ok pair => exact .requirement (recordReconciliationRequirement_eq_ok h)
    | error => exact .none _
  | recordReceipt receipt =>
    rw [run]
    cases h : s.recordReceipt receipt with
    | ok pair => exact .receipt (recordReceipt_eq_ok h)
    | error => exact .none _
  | intent | intents | operation | receipt | reconciliationRequirement => exact .none _

theorem Performs.change (h : Performs s c reply t) : StoreChange s c t := by
  cases h with
  | stored c => exact s.run_change c
  | failedBefore => exact .none _
  | failedAfter c => exact s.run_change c
  | outside => exact .none _

theorem StoreChange.grows (h : StoreChange s c t) : s.Grows t := by
  cases h with
  | none => exact .refl s
  | intent recorded | requirement recorded | receipt recorded => exact recorded.grows

theorem Performs.grows (h : Performs s c reply t) : s.Grows t := h.change.grows

theorem Performs.run_eq {c : StoreCall} {reply : Result c.Answer}
    (h : Performs s (.store c) reply t) {a : c.Answer} (hrep : reply = .ok a) :
    s.run c = (.ok a, t) := by
  cases h with
  | stored => exact Prod.ext hrep rfl
  | failedBefore | failedAfter => cases hrep

/-- A harmless call leaves the root and the intents of the operation alone. -/
theorem StoreChange.harmless (h : StoreChange s c t) (harmless : Harmless operationId c) :
    t.operations[operationId]? = s.operations[operationId]? ∧ ∀ claimFence,
        t.intents.get2 operationId claimFence = s.intents.get2 operationId claimFence := by
  cases h with
  | none => exact ⟨rfl, fun _ => rfl⟩
  | intent recorded =>
    have ho : operationId ≠ _ := Ne.symm harmless
    cases recorded with
    | first =>
      exact ⟨Map.getElem?_insert_of_ne ho, fun _ => Map.get2_insert2_of_ne fun heq => ho heq.1⟩
    | additional => exact ⟨rfl, fun _ => Map.get2_insert2_of_ne fun heq => ho heq.1⟩
    | already => exact ⟨rfl, fun _ => rfl⟩
  | requirement recorded | receipt recorded => cases recorded <;> exact ⟨rfl, fun _ => rfl⟩

theorem StoreChange.required (h : StoreChange s c t)
    {requirement : ExecutionReconciliationRequirement}
    (hget : t.requirements.get2 operationId claimFence = some requirement) :
    s.requirements.get2 operationId claimFence = some requirement ∨
      ∃ intent, s.intents.get2 operationId claimFence = some intent ∧
        requirement = .fromIntent intent := by
  cases h with
  | none => exact .inl hget
  | intent recorded | receipt recorded => cases recorded <;> exact .inl hget
  | requirement recorded =>
    cases recorded with
    | already => exact .inl hget
    | recorded producer stored matched absent =>
      rename_i new
      by_cases hkey : operationId = new.operationId ∧ claimFence = new.producerClaimFence
      · obtain ⟨rfl, rfl⟩ := hkey
        rw [Map.get2_insert2_self, Option.some.injEq] at hget
        subst hget
        exact .inr ⟨producer, stored, matched⟩
      · rw [Map.get2_insert2_of_ne hkey] at hget
        exact .inl hget

theorem StoreChange.stored_intent {intent stored : ExecutionIntent}
    (h : StoreChange s (.store (.recordIntent intent)) t)
    (hget : t.intents.get2 operationId claimFence = some stored) :
    s.intents.get2 operationId claimFence = some stored ∨
      (stored = intent ∧ intent.claimFence = claimFence) := by
  have hinsert : (s.intents.insert2 intent.operation.operationId intent.claimFence intent).get2
      operationId claimFence = some stored →
      s.intents.get2 operationId claimFence = some stored ∨
        (stored = intent ∧ intent.claimFence = claimFence) := by
    intro hget
    by_cases hkey : operationId = intent.operation.operationId ∧ claimFence = intent.claimFence
    · obtain ⟨rfl, rfl⟩ := hkey
      rw [Map.get2_insert2_self, Option.some.injEq] at hget
      exact .inr ⟨hget.symm, rfl⟩
    · rw [Map.get2_insert2_of_ne hkey] at hget
      exact .inl hget
  cases h with
  | none => exact .inl hget
  | intent recorded =>
    cases recorded with
    | first | additional => exact hinsert hget
    | already => exact .inl hget

/-- A record of an intent: refused or failed without effect, or recorded and told, or recorded and
not told. -/
theorem Performs.recordIntent_cases {intent : ExecutionIntent}
    {reply : Result RecordExecutionIntentOutcome}
    (h : Performs s (.store (.recordIntent intent)) reply t) :
    (∃ fault, t = s ∧ reply = .error fault) ∨ ∃ outcome, s.IntentRecorded intent outcome t ∧
        (reply = .ok outcome ∨ ∃ fault, reply = .error fault) := by
  cases hrun : s.recordIntent intent with
  | error fault =>
    have hsame : s.run (.recordIntent intent) = (.error fault, s) := by
      rw [run, hrun, commit]
    left
    cases h with
    | stored => exact ⟨fault, by rw [hsame], by rw [hsame]⟩
    | failedBefore _ other => exact ⟨other, rfl, rfl⟩
    | failedAfter _ other => exact ⟨other, by rw [hsame], rfl⟩
  | ok pair =>
    have hdone : s.run (.recordIntent intent) = (.ok pair.1, pair.2) := by
      rw [run, hrun, commit]
    have hrecorded := recordIntent_eq_ok hrun
    cases h with
    | stored =>
      rw [hdone]
      exact .inr ⟨pair.1, hrecorded, .inl rfl⟩
    | failedBefore _ fault => exact .inl ⟨fault, rfl, rfl⟩
    | failedAfter _ fault =>
      rw [hdone]
      exact .inr ⟨pair.1, hrecorded, .inr ⟨fault, rfl⟩⟩

end Replies

/-! ## The invariant of one operation -/

/-- What holds of an operation whose executions all use one connector. -/
structure OperationKept (operationId : ExecutionOperationId) (connector : ConnectorContract)
    (w : AttemptWorld) : Prop where
  recorded : ∀ r ∈ intentRecords operationId w.log, r.2.contract = connector ∧
    ⟨r.1, connector, r.2.claimFence⟩ ∈ presentedEarly operationId w.log
  stored : ∀ claimFence intent, w.state.intents.get2 operationId claimFence = some intent →
    intent.claimFence = claimFence ∧ intent.operation.operationId = operationId ∧
      ∃ n, (n, intent) ∈ intentRecords operationId w.log
  required : ∀ claimFence requirement,
    w.state.requirements.get2 operationId claimFence = some requirement →
      ∃ intent, w.state.intents.get2 operationId claimFence = some intent ∧
        requirement = .fromIntent intent
  first : ∀ r ∈ firstRecords operationId w.log,
    w.state.operations[operationId]? = some r.2.operation ∧
      w.state.intents.get2 operationId r.2.claimFence = some r.2
  firstOnce : (firstRecords operationId w.log).length ≤ 1
  executed : ∀ made ∈ executions operationId w.log, made ∈ firstRecords operationId w.log
  executedOnce : (executions operationId w.log).length ≤ 1

namespace OperationKept

variable {operationId : ExecutionOperationId} {connector : ConnectorContract} {w : AttemptWorld}
  {intent : ExecutionIntent} {n : Nat} {t : ExecutionStore}
  {reply : Result RecordExecutionIntentOutcome}

theorem initial : OperationKept operationId connector ⟨.empty, []⟩ := by
  refine ⟨?_, ?_, ?_, ?_, ?_, ?_, ?_⟩ <;>
    simp [intentRecords, firstRecords, executions, empty, Map.get2]

section

variable (inv : OperationKept operationId connector w)
include inv

theorem contract {claimFence : StepClaimFence}
    (h : w.state.intents.get2 operationId claimFence = some intent) :
    intent.contract = connector := by
  obtain ⟨-, -, n, hrec⟩ := inv.stored claimFence intent h
  exact (inv.recorded _ hrec).1

/-- Who recorded an intent presented its claim before the call, whatever is logged next. -/
theorem recorded_append {e : Event ports WorkerInput} :
    ∀ r ∈ intentRecords operationId w.log, r.2.contract = connector ∧
      ⟨r.1, connector, r.2.claimFence⟩ ∈ presentedEarly operationId (w.log ++ [e]) := by
  intro r hr
  obtain ⟨hcontr, hpresented⟩ := inv.recorded r hr
  exact ⟨hcontr, presentedEarly_append e hpresented⟩

theorem start {input : WorkerInput} : OperationKept operationId connector (w.start n input) := by
  refine ⟨?_, ?_, inv.required, ?_, ?_, ?_, ?_⟩
  · rw [World.start, intentRecords_started]
    exact inv.recorded_append
  · intro claimFence intent hget
    rw [World.start, intentRecords_started]
    exact inv.stored claimFence intent hget
  · intro r hr
    rw [World.start, firstRecords_started] at hr
    exact inv.first r hr
  · rw [World.start, firstRecords_started]
    exact inv.firstOnce
  · rw [World.start, executions_started, firstRecords_started]
    exact inv.executed
  · rw [World.start, executions_started]
    exact inv.executedOnce

theorem harmless {c : PortCall} {reply : c.Reply} (hharmless : Harmless operationId c)
    (performs : Performs w.state c reply t) :
    OperationKept operationId connector (w.call n c reply t) := by
  obtain ⟨hroot, hintents⟩ := performs.change.harmless hharmless
  have hrecs : intentRecords operationId (w.call n c reply t).log =
      intentRecords operationId w.log := intentRecords_harmless hharmless
  have hfirsts : firstRecords operationId (w.call n c reply t).log =
      firstRecords operationId w.log := firstRecords_harmless hharmless
  have hexecs : executions operationId (w.call n c reply t).log =
      executions operationId w.log := executions_harmless hharmless
  refine ⟨?_, ?_, ?_, ?_, ?_, ?_, ?_⟩
  · rw [hrecs]
    exact inv.recorded_append
  · intro claimFence intent hget
    rw [hrecs]
    exact inv.stored claimFence intent ((hintents claimFence).symm.trans hget)
  · intro claimFence requirement hget
    simp only [World.call, hintents]
    rcases performs.change.required hget with hold | hnew
    · exact inv.required claimFence requirement hold
    · exact hnew
  · intro r hr
    rw [hfirsts] at hr
    obtain ⟨hop, hintent⟩ := inv.first r hr
    exact ⟨hroot.trans hop, (hintents _).trans hintent⟩
  · rw [hfirsts]
    exact inv.firstOnce
  · rw [hexecs, hfirsts]
    exact inv.executed
  · rw [hexecs]
    exact inv.executedOnce

/-- The call itself: made by the thread that recorded the first intent, which has not made it. -/
theorem execute {used : ConnectorContract} {request : CeremonyExecutionRequest}
    {reply : Result CeremonyExecutionConnectorOutcome}
    (hop : request.intent.operation.operationId = operationId)
    (hfirst : (n, request.intent) ∈ firstRecords operationId w.log)
    (hnever : ∀ made ∈ executions operationId w.log, made.1 ≠ n)
    (performs : Performs w.state (.outside (.executeCancellable used request)) reply t) :
    OperationKept operationId connector
      (w.call n (.outside (.executeCancellable used request)) reply t) := by
  have hsame : t = w.state := by
    cases performs
    rfl
  subst hsame
  -- Whoever executed before recorded the first intent, of which there is one.
  have hnone : executions operationId w.log = [] := by
    rw [eq_nil_iff_forall_not_mem]
    intro made hmade
    have hone := inv.firstOnce
    obtain ⟨r, hr⟩ := length_eq_one_iff.mp (Nat.le_antisymm hone (length_pos_of_mem hfirst))
    have hmem := inv.executed made hmade
    rw [hr, mem_singleton] at hmem hfirst
    exact hnever made hmade (by rw [hmem, ← hfirst])
  have hexecs : executions operationId (w.log ++
      [.called n (.outside (.executeCancellable used request)) reply]) = [(n, request.intent)] := by
    rw [executions, filterMap_append]
    change executions operationId w.log ++ _ = _
    rw [hnone]
    simp [execution, hop]
  refine ⟨?_, ?_, inv.required, ?_, ?_, ?_, ?_⟩
  · rw [World.call, intentRecords_outside]
    exact inv.recorded_append
  · rw [World.call, intentRecords_outside]
    exact inv.stored
  · rw [World.call, firstRecords_outside]
    exact inv.first
  · rw [World.call, firstRecords_outside]
    exact inv.firstOnce
  · rw [World.call, hexecs, firstRecords_outside]
    intro made hmade
    rw [mem_singleton] at hmade
    subst hmade
    exact hfirst
  · rw [World.call, hexecs]
    exact le_rfl

/-- A reply that tells of the first record comes with the record, and there was none before. -/
theorem firstRecords_recordIntent (hop : intent.operation.operationId = operationId)
    (performs : Performs w.state (.store (.recordIntent intent)) reply t) :
    (firstRecords operationId (w.log ++ [.called n (.store (.recordIntent intent)) reply]) =
        firstRecords operationId w.log ∧ reply ≠ .ok .recordedFirst) ∨
      (firstRecords operationId (w.log ++ [.called n (.store (.recordIntent intent)) reply]) =
          [(n, intent)] ∧ firstRecords operationId w.log = [] ∧
        t.operations[operationId]? = some intent.operation ∧
        t.intents.get2 operationId intent.claimFence = some intent) := by
  subst hop
  by_cases hrep : reply = .ok .recordedFirst
  · right
    rcases performs.recordIntent_cases with ⟨fault, -, hfault⟩ | ⟨outcome, hrecorded, htold⟩
    · rw [hfault] at hrep
      cases hrep
    · have hout : outcome = .recordedFirst := by
        rcases htold with htold | ⟨fault, htold⟩
        · rw [htold] at hrep
          cases hrep
          rfl
        · rw [htold] at hrep
          cases hrep
      subst hout hrep
      cases hrecorded with
      | first root absent =>
        have hnone : firstRecords intent.operation.operationId w.log = [] := by
          rw [eq_nil_iff_forall_not_mem]
          intro r hr
          have hst := (inv.first r hr).1
          rw [root] at hst
          cases hst
        refine ⟨?_, hnone, Std.ExtTreeMap.getElem?_insert_self, Map.get2_insert2_self⟩
        rw [firstRecords, filterMap_append]
        change firstRecords _ w.log ++ _ = _
        rw [hnone]
        simp [firstRecord]
  · left
    refine ⟨?_, hrep⟩
    have hent : firstRecord intent.operation.operationId
        (.called n (.store (.recordIntent intent)) reply) = none := by
      unfold firstRecord
      split
      · next heq =>
          cases heq
          exact absurd rfl hrep
      · rfl
    simp [firstRecords, hent]

theorem recordIntent (hop : intent.operation.operationId = operationId)
    (hcontr : intent.contract = connector)
    (hpresented : ⟨n, connector, intent.claimFence⟩ ∈ presentedEarly operationId w.log)
    (performs : Performs w.state (.store (.recordIntent intent)) reply t) :
    OperationKept operationId connector (w.call n (.store (.recordIntent intent)) reply t) ∧
      (reply = .ok .recordedFirst → (n, intent) ∈
        firstRecords operationId (w.call n (.store (.recordIntent intent)) reply t).log) := by
  have hgrows := performs.grows
  have hrecs : intentRecords operationId
      (w.log ++ [.called n (.store (.recordIntent intent)) reply]) =
        intentRecords operationId w.log ++ [(n, intent)] := by
    rw [intentRecords, filterMap_append]
    simp [intentRecord, intentRecords, hop]
  have hexecs : executions operationId
      (w.log ++ [.called n (.store (.recordIntent intent)) reply]) =
        executions operationId w.log := by
    rw [executions, filterMap_append]
    exact append_nil _
  have hfirsts := inv.firstRecords_recordIntent (n := n) hop performs
  refine ⟨⟨?_, ?_, ?_, ?_, ?_, ?_, ?_⟩, ?_⟩
  · rw [World.call, hrecs]
    intro r hr
    rcases mem_append.mp hr with hr | hr
    · exact inv.recorded_append r hr
    · rw [mem_singleton.mp hr]
      exact ⟨hcontr, presentedEarly_append _ hpresented⟩
  · rw [World.call, hrecs]
    intro claimFence stored hget
    rcases performs.change.stored_intent hget with hold | ⟨rfl, hfence⟩
    · obtain ⟨hfence, hkey, k, hrec⟩ := inv.stored claimFence stored hold
      exact ⟨hfence, hkey, k, mem_append_left _ hrec⟩
    · exact ⟨hfence, hop, n, mem_append_right _ (mem_singleton.mpr rfl)⟩
  · intro claimFence requirement hget
    have hold : ∃ stored, w.state.intents.get2 operationId claimFence = some stored ∧
        requirement = .fromIntent stored := by
      rcases performs.change.required hget with hold | hnew
      · exact inv.required claimFence requirement hold
      · exact hnew
    obtain ⟨stored, hst, hm⟩ := hold
    exact ⟨stored, hgrows.intents _ _ _ hst, hm⟩
  · intro r hr
    rcases hfirsts with ⟨hsame, -⟩ | ⟨hnew, -, hroot, hst⟩
    · rw [World.call, hsame] at hr
      obtain ⟨hroot, hst⟩ := inv.first r hr
      exact ⟨hgrows.operations _ _ hroot, hgrows.intents _ _ _ hst⟩
    · rw [World.call, hnew, mem_singleton] at hr
      subst hr
      exact ⟨hroot, hst⟩
  · rcases hfirsts with ⟨hsame, -⟩ | ⟨hnew, -⟩
    · rw [World.call, hsame]
      exact inv.firstOnce
    · rw [World.call, hnew]
      exact le_rfl
  · rw [World.call, hexecs]
    intro made hmade
    have hold := inv.executed made hmade
    rcases hfirsts with ⟨hsame, -⟩ | ⟨-, hnone, -⟩
    · rw [hsame]
      exact hold
    · rw [hnone] at hold
      cases hold
  · rw [World.call, hexecs]
    exact inv.executedOnce
  · intro hrep
    rcases hfirsts with ⟨-, ho⟩ | ⟨hnew, -⟩
    · exact absurd hrep ho
    · rw [World.call, hnew]
      exact mem_singleton.mpr rfl

end

end OperationKept

end Made
