import Made.Execution.OneConnector

/-!
# An effect that cannot be asked for is made once

An operation whose connector requires reconciliation: nobody can find out afterwards what a call of
it did.  While every claim of the operation uses that connector, the call is made at most once, by
the claim whose intent was recorded first.  Once it was made, an attempt that carries the same
request under the claim of the call, or under a claim first presented after it, leaves the
requirement to reconcile behind, unless there is a receipt by then, and an operator's matching
receipt is accepted.

A later claim with another connector makes a second call: the prior intents are only looked at by a
connector that requires reconciliation itself.
-/

namespace Made

open Interleaving Interleaving.Discipline Outcome ReconcileExecutionOperationUseCase
open ExecutionStore WorkerInput

/-! ## Every attempt -/

def WorkerInput.Uses (operationId : ExecutionOperationId) (connector : ConnectorContract) :
    WorkerInput → Prop
  | execute u input cancelled =>
    u.connector = connector ∧ (execute u input cancelled).operationId? = some operationId
  | recover u intent => u.connector = connector ∧ intent.operation.operationId = operationId
  | reconcile _ => False

instance (operationId : ExecutionOperationId) (connector : ConnectorContract) :
    DecidablePred (WorkerInput.Uses operationId connector)
  | .execute _ _ _ => inferInstanceAs (Decidable (_ ∧ _))
  | .recover _ _ => inferInstanceAs (Decidable (_ ∧ _))
  | .reconcile _ => inferInstanceAs (Decidable False)

/-- What an attempt has done when it returned: if the call was made before it started and it uses
the connector, the effect is accounted for. -/
def LateSettled (operationId : ExecutionOperationId) (connector : ConnectorContract) (n : Nat)
    (input : WorkerInput) (before w : AttemptWorld) : Prop :=
  ∀ made ∈ executions operationId before.log, input.Uses operationId connector →
    Settled operationId made.2 n w

section Attempts

variable {operationId : ExecutionOperationId} {connector : ConnectorContract} {n : Nat}
  {input : ExecuteCeremonyOperationInput} {u : ExecuteCeremonyOperationUseCase} {cancelled : Bool}
  {made : Nat × ExecutionIntent} {w : AttemptWorld}

theorem unexecuted_start {input : WorkerInput} (fresh : ∀ e ∈ w.log, e.thread < n) :
    Unexecuted operationId n (w.start n input) := by
  intro made hmade
  rw [World.start, executions_started] at hmade
  obtain ⟨e, he, hsome⟩ := List.mem_filterMap.mp hmade
  rw [execution_thread hsome]
  exact Nat.ne_of_lt (fresh e he)

theorem presentation_start (hop : (execute u input cancelled).operationId? = some operationId) :
    ⟨n, u.connector, input.claimFence⟩ ∈
      presentations operationId (w.start n (.execute u input cancelled)).log := by
  rw [World.start, presentations, List.filterMap_append]
  simp [presentation, hop]

/-- An `execute` before the call, or of another operation. -/
theorem execute_safe (hreqs : connector.recoveryCapability = .reconciliationRequired)
    (fresh : ∀ e ∈ w.log, e.thread < n)
    (meets : (execute u input cancelled).admits operationId connector w = true)
    (hearly : (∃ made, made ∈ executions operationId w.log) →
      ¬ (execute u input cancelled).Uses operationId connector)
    (hinv : OperationKept operationId connector (w.start n (.execute u input cancelled))) :
    (oneConnector operationId connector).Safe n (fun _ _ => True)
      (execute u input cancelled).attempt.run
      (w.start n (.execute u input cancelled)) := by
  have hop : ∀ found, input.candidate = .ok found → found.operationId = operationId →
      (execute u input cancelled).operationId? = some operationId := by
    intro found hf hkey
    simp [operationId?, hf, Except.toOption, hkey]
  refine ExceptTriple.map (.const True)
    (u.executeCancellable_safe input cancelled hreqs ?_) _ hinv ⟨unexecuted_start fresh, ?_⟩
  · intro found hf hkey
    obtain ⟨_, _, _, huses, -⟩ := admits_execute (hop found hf hkey) meets
    exact huses
  · rintro ⟨found, hf, hkey⟩
    obtain ⟨_, _, _, huses, -⟩ := admits_execute (hop found hf hkey) meets
    have hnone : executions operationId (w.start n (.execute u input cancelled)).log = [] := by
      rw [World.start, executions_started, List.eq_nil_iff_forall_not_mem]
      exact fun made hmade => hearly ⟨made, hmade⟩ ⟨huses, hop found hf hkey⟩
    rw [presentedEarly_eq hnone, ← huses]
    exact presentation_start (hop found hf hkey)

theorem execute_late (hreqs : connector.recoveryCapability = .reconciliationRequired)
    (hinv : OperationKept operationId connector w)
    (hop : (execute u input cancelled).operationId? = some operationId)
    (meets : (execute u input cancelled).admits operationId connector w = true)
    (hmade : made ∈ executions operationId w.log)
    (hinv' : OperationKept operationId connector (w.start n (.execute u input cancelled))) :
    (oneConnector operationId connector).Safe n (fun _ => Settled operationId made.2 n)
      (execute u input cancelled).attempt.run
      (w.start n (.execute u input cancelled)) := by
  obtain ⟨candidate, hcand, -, huses, hclaims⟩ := admits_execute hop meets
  obtain ⟨rfl, rfl, hclaim⟩ := hclaims made hmade
  have hprod := hinv.producer ⟨made.1, hmade⟩
  have hmade' : CallMade operationId made.2 (w.start n (.execute u input false)) := by
    refine ⟨made.1, ?_⟩
    rw [World.start, executions_started]
    exact hmade
  rcases hclaim with hsame | hnew
  · exact ExceptTriple.map Settled.frame.stable (u.executeCancellable_settles CallMade.frame
      hprod.keyed (fun _ h => h) hcand
      (u.claimAndExecute_settles input huses hreqs hprod.keyed hsame)) _ hinv' hmade'
  · refine ExceptTriple.map Settled.frame.stable (u.executeCancellable_settles
      Newcomer.frame hprod.keyed (fun _ h => h.made) hcand
      (u.claimAndExecute_newcomer_settles input huses hreqs hprod.keyed)) _ hinv' ⟨hmade', ?_⟩
    rw [World.start, presentedEarly_late _ hmade]
    exact hnew

theorem plain_safe {α : Type} {f : α → WorkerOutcome} {p : Attempt α} (plain : p.Only Plain)
    (hinv : OperationKept operationId connector w) :
    (oneConnector operationId connector).Safe n (fun _ _ => True) (f <$> p : Attempt _).run w :=
  ExceptTriple.map (.const True)
    (oneConnector_plainSafe.triple plain (.const True) fun _ _ => trivial) w hinv trivial

theorem LateSettled.of_made {input : WorkerInput} {before : AttemptWorld}
    (hinv : OperationKept operationId connector before)
    (hmade : made ∈ executions operationId before.log) (h : Settled operationId made.2 n w) :
    LateSettled operationId connector n input before w := by
  intro other ho _
  obtain ⟨only, honly⟩ := List.length_eq_one_iff.mp
    (Nat.le_antisymm hinv.executedOnce (List.length_pos_of_mem hmade))
  rw [honly, List.mem_singleton] at hmade ho
  rw [ho, ← hmade]
  exact h

theorem workers_oneConnector (operationId : ExecutionOperationId) (connector : ConnectorContract)
    (hreqs : connector.recoveryCapability = .reconciliationRequired) :
    workers.Verified (oneConnector operationId connector) fun n input before _ w =>
      LateSettled operationId connector n input before w where
  performs_eq := rfl
  start_inv _ _ _ _ hinv _ := OperationKept.start hinv
  code_safe w n input fresh hinv meets hinv' := by
    by_cases hlate : (∃ made, made ∈ executions operationId w.log) ∧
        input.Uses operationId connector
    · obtain ⟨⟨made, hmade⟩, huses⟩ := hlate
      refine Safe.mono (Q := fun _ => Settled operationId made.2 n) ?_
        fun _ _ _ hset => .of_made hinv hmade hset
      cases input with
      | execute u input cancelled => exact execute_late hreqs hinv huses.2 meets hmade hinv'
      | recover u intent =>
        have hsame : intent = made.2 := by
          simp only [oneConnector, admits, Bool.or_eq_true, decide_eq_true_eq,
            List.all_eq_true] at meets
          rcases meets with (ho | ho) | hall
          · exact absurd huses.1 ho
          · exact absurd huses.2 ho
          · exact hall made hmade
        subst hsame
        refine ExceptTriple.map Settled.frame.stable
          (late_recover_settles u huses.2 huses.1 hreqs) _ hinv' ⟨made.1, ?_⟩
        rw [World.start, executions_started]
        exact hmade
      | reconcile => exact huses.elim
    · refine Safe.mono (Q := fun _ _ => True) ?_ fun _ _ _ _ made hmade huses =>
        absurd ⟨⟨made, hmade⟩, huses⟩ hlate
      cases input with
      | execute u input cancelled =>
        exact execute_safe hreqs fresh meets (fun hmade huses => hlate ⟨hmade, huses⟩) hinv'
      | recover u intent => exact plain_safe (u.execute_plain intent) hinv'
      | reconcile input =>
        exact plain_safe (execute_plain input) hinv'

end Attempts

/-! ## The operator's receipt -/

/-- A receipt an operator may reconcile the intent with, and the authority to do so. -/
structure Resolves (intent : ExecutionIntent) (input : ReconcileExecutionOperationInput) :
    Prop where
  admitted : ReconcileExecutionOperationUseCase.admitReceipt input = .ok ()
  matched : ReconcileExecutionOperationUseCase.matchIntent input.receipt intent = .ok ()

section Reconcile

variable {s t : ExecutionStore} {operationId : ExecutionOperationId} {connector : ConnectorContract}
  {intent : ExecutionIntent} {input : ReconcileExecutionOperationInput}

theorem Performs.of_run {c : StoreCall} {a : c.Answer} (h : s.run c = (.ok a, t)) :
    Performs s (.store c) (.ok a) t := by
  have hperforms := Performs.stored s c
  rw [h] at hperforms
  exact hperforms

theorem store_finishes {c : StoreCall} {a : c.Answer} (h : s.run c = (.ok a, t)) :
    Prog.Finishes Performs (Attempt.store c).run s (.ok a) t :=
  Prog.Finishes.ask (I := ports) (Performs.of_run h)

theorem outside_finishes {c : OutsideCall} (a : c.Answer) (h : c.admits (.ok a) = true) :
    Prog.Finishes Performs (Attempt.outside c).run s (.ok a) s :=
  Prog.Finishes.ask (I := ports) (Performs.outside s c (.ok a) h)

theorem check_finishes {α : Type} {result : Result α} {a : α} (h : result = .ok a) :
    Prog.Finishes Performs (Attempt.check result).run s (.ok a) s := by
  subst h
  exact .done _ s

theorem recordReceipt_of_resolves (hprod : Producer operationId connector intent s)
    (hnone : s.receipts[operationId]? = none) (h : Resolves intent input)
    (hkey : intent.operation.operationId = input.receipt.operationId) :
    s.run (.recordReceipt input.receipt) =
      (.ok .recorded, { s with receipts := s.receipts.insert operationId input.receipt }) := by
  have hmatched := h.matched
  simp only [matchIntent, require_eq_ok] at hmatched
  obtain ⟨-, hdig, hfence, hcontr, -⟩ := hmatched
  have hadm := h.admitted
  simp only [admitReceipt, bind_eq_ok] at hadm
  obtain ⟨_, _, _, hval, -⟩ := hadm
  have hop : input.receipt.operationId = operationId := hkey.symm.trans hprod.keyed
  have hoperation : s.operation operationId = .ok (some intent.operation) :=
    operation_eq_some.mpr ⟨hprod.root, hprod.keyed⟩
  have hintent : s.intent operationId intent.claimFence = .ok (some intent) :=
    intent_eq_some.mpr ⟨hprod.stored, hprod.keyed, rfl⟩
  have hrcpt : s.receipt operationId = .ok none := readChecked_eq_none.mpr hnone
  have hrec : s.recordReceipt input.receipt = .ok (.recorded,
      { s with receipts := s.receipts.insert operationId input.receipt }) := by
    rw [recordReceipt, hval, hop, hoperation, ← hfence, hintent, hrcpt]
    simp [okOr, require, hdig, hcontr]
  rw [run, hrec]
  rfl

/-- Run alone, an operator's reconciliation of a required intent ends with the receipt stored. -/
theorem reconcile_finishes (hprod : Producer operationId connector intent s)
    (hreqd : s.requirements.get2 operationId intent.claimFence = some (.fromIntent intent))
    (hnone : s.receipts[operationId]? = none) (h : Resolves intent input)
    (audit : ExecutionReconciliationAuditRecord) :
    Prog.Finishes Performs (execute input).run s (.ok (.reconciled input.receipt audit.artifact))
      { s with receipts := s.receipts.insert operationId input.receipt } := by
  have hmatched := h.matched
  simp only [matchIntent, require_eq_ok] at hmatched
  obtain ⟨hkey, hdig, hfence, hcontr, -⟩ := hmatched
  have hop : input.receipt.operationId = operationId := hkey.symm.trans hprod.keyed
  have hintent : s.run (.intent input.receipt.operationId input.receipt.producerClaimFence) =
      (.ok (some intent), s) := by
    rw [run, hop, ← hfence, intent_eq_some.mpr ⟨hprod.stored, hprod.keyed, rfl⟩]
  have hrequirement : s.run (.reconciliationRequirement input.receipt.operationId
      input.receipt.producerClaimFence) = (.ok (some (.fromIntent intent)), s) := by
    rw [run, hop, ← hfence, reconciliationRequirement_eq_some.mpr ⟨hreqd, hprod.keyed, rfl⟩]
  have hrcpt : s.run (.receipt input.receipt.operationId) = (.ok none, s) := by
    rw [run, hop, receipt, readChecked_eq_none.mpr hnone]
  have hconnector : intent.connectorId = input.receipt.connectorId :=
    congrArg ConnectorContract.connectorId hcontr
  refine .bindExcept (check_finishes h.admitted) ?_
  refine .bindExcept (store_finishes hintent) ?_
  refine .bindExcept (check_finishes (a := intent) rfl) ?_
  refine .bindExcept (check_finishes h.matched) ?_
  refine .bindExcept (store_finishes hrequirement) ?_
  refine .bindExcept (check_finishes (a := .fromIntent intent) rfl) ?_
  refine .bindExcept (check_finishes (a := ()) ?_) ?_
  · rw [matchRequirement, require_eq_ok]
    exact ⟨decide_eq_true rfl, hkey, hdig, hfence, hconnector⟩
  refine .bindExcept (outside_finishes audit rfl) ?_
  refine .bindExcept (outside_finishes () rfl) ?_
  refine .bindExcept (store_finishes hrcpt) ?_
  refine .bindExcept (outside_finishes () rfl) ?_
  refine .bindExcept (store_finishes (recordReceipt_of_resolves hprod hnone h hkey)) ?_
  exact .done _ _

end Reconcile

/-! ## Schedules -/

/-- What a schedule has a port reply. -/
inductive PortChoice where
  | stored
  | clock (now : OffsetDateTime)
  | fails (fault : Fault DomainError)

def PortChoice.answer (choice : PortChoice) (s : ExecutionStore) (c : PortCall) :
    Option (c.Reply × ExecutionStore) :=
  match choice, c with
  | .stored, .store c => some (s.run c)
  | .clock now, .outside .now => some (.ok now, s)
  | .fails fault, .outside c =>
    if c.admits (.error fault) = true then some (.error fault, s) else none
  | _, _ => none

theorem PortChoice.answer_sound (choice : PortChoice) (s : ExecutionStore) (c : PortCall)
    (reply : c.Reply) (t : ExecutionStore) (h : choice.answer s c = some (reply, t)) :
    Performs s c reply t := by
  cases choice with
  | stored =>
    cases c with
    | store c =>
      have hperforms := Performs.stored s c
      rw [Option.some.inj h] at hperforms
      exact hperforms
    | outside => cases h
  | clock now =>
    cases c with
    | store => cases h
    | outside c =>
      cases c <;> cases h
      exact .outside s .now _ rfl
  | fails fault =>
    cases c with
    | store => cases h
    | outside c =>
      simp only [answer, Option.ite_none_right_eq_some] at h
      obtain ⟨hadms, h⟩ := h
      cases h
      exact .outside s c _ hadms

def notifyRequest : CeremonyStepHandlerRequest where
  instanceId := ⟨"launch", .refl true⟩
  stepId := ⟨"notify", .refl true⟩
  semanticRequestBytes := ExecutionRequestBytes.new [110, 111, 116, 105, 102, 121]

def notifyInput (claimFence : StepClaimFence) : ExecuteCeremonyOperationInput where
  handlerRequest := notifyRequest
  stateVisit := .first
  stateIteration := .first
  stepIteration := .first
  claimFence := claimFence
  actorKind := .agent

/-- The connector that cannot be asked, and one that is idempotent. -/
def mailConnector : ConnectorContract :=
  ⟨⟨"mail", by decide⟩, .reconciliationRequired, .externalExecution⟩

def chatConnector : ConnectorContract :=
  ⟨⟨"chat", by decide⟩, .idempotentByOperationId, .externalExecution⟩

def firstFence : StepClaimFence := HexDigest.ofMessage _ [1]

def secondFence : StepClaimFence := HexDigest.ofMessage _ [2]

def notifyOperationId : ExecutionOperationId :=
  ExecutionOperationId.forStep ⟨"launch", .refl true⟩ ⟨"notify", .refl true⟩ .first .first .first

/-- What an operator found out: the mail was delivered under the first claim. -/
def deliveredReceipt : ExecutionReceipt where
  receiptId := ExecutionReceiptId.forOperation notifyOperationId
  operationId := notifyOperationId
  requestDigest := ExecutionRequestDigest.forBytes [110, 111, 116, 105, 102, 121]
  producerClaimFence := firstFence
  connectorId := mailConnector.connectorId
  externalOperationId := none
  recoveryCapability := mailConnector.recoveryCapability
  sourceKind := mailConnector.sourceKind
  result := ⟨.completed, .empty, none, none, rfl⟩
  artifacts := [⟨.null,
    ⟨.externalExecution, some (ExecutionReceiptId.forOperation notifyOperationId),
    some notifyOperationId, some firstFence, ⟨3, by decide⟩, none⟩⟩]
  budgetMeasurement := .default
  observedAt := ⟨3, by decide⟩

def operatorOperation : AuthorizedOperation where
  principal := ⟨⟨"operator", .refl true⟩, .human, .mutualTls⟩
  evidence :=
    { decisionId := HexDigest.ofMessage _ []
      requestId := ⟨"reconcile", .refl true⟩
      principalId := ⟨"operator", .refl true⟩
      action := .reconcileExecutionOperation
      scope := .global
      targetDigest := HexDigest.ofMessage _ []
      policyVersion := 1
      admittedAt := .afterEpoch 0
      validUntil := .afterEpoch 1000 }
  samePrincipal := rfl

def deliveredInput : ReconcileExecutionOperationInput := ⟨operatorOperation, deliveredReceipt⟩

/-- A first claim calls the mail connector, and the call fails. -/
def lostCall : List (Action WorkerInput PortChoice) :=
  [.start (.execute ⟨mailConnector, false⟩ (notifyInput firstFence) false),
    .call 0 .stored, .call 0 .stored, .call 0 .stored, .call 0 .stored,
    .call 0 (.clock (.afterEpoch 1)), .call 0 .stored, .call 0 .stored, .call 0 .stored,
    .call 0 (.fails (.refused (.invariantViolated "connection lost")))]

def secondConnector : List (Action WorkerInput PortChoice) :=
  lostCall ++ [.start (.execute ⟨chatConnector, false⟩ (notifyInput secondFence) false),
      .call 1 .stored, .call 1 .stored, .call 1 .stored, .call 1 (.clock (.afterEpoch 2)),
      .call 1 .stored, .call 1 .stored, .call 1 .stored,
      .call 1 (.fails (.refused (.invariantViolated "connection lost")))]

def secondClaim : List (Action WorkerInput PortChoice) :=
  lostCall ++ [.start (.execute ⟨mailConnector, false⟩ (notifyInput secondFence) false),
      .call 1 .stored, .call 1 .stored, .call 1 .stored, .call 1 .stored, .call 1 .stored,
      .call 1 .stored]

/-! ## All interleavings -/

/-- Any number of attempts, crashes and failures of the ports, from an empty store, where every new
attempt meets the condition: the call is made at most once; a returned receipt is the one stored for
the operation of the attempt, and it stays; an attempt that uses the connector after the call, whose
calls of the store did not fail, leaves the requirement for the intent that made the call, unless
there is a receipt; and from there an operator's matching receipt can be stored. -/
theorem executes_once_and_reconciles (operationId : ExecutionOperationId)
    (connector : ConnectorContract)
    (hrequires : connector.recoveryCapability = .reconciliationRequired)
    (cfg : Config ports ExecutionStore WorkerInput (Result WorkerOutcome))
    (h : workers.Steps (fun w input => input.admits operationId connector w = true)
      (.initial .empty) cfg) :
    (executions operationId cfg.world.log).length ≤ 1 ∧
    (∀ (n : Nat) (thread : Thread ports ExecutionStore WorkerInput (Result WorkerOutcome))
      (outcome : WorkerOutcome) (receipt : ExecutionReceipt), cfg.threads[n]? = some thread →
      thread.rest = some (.done (.ok outcome)) → outcome.receipt? = some receipt →
      thread.input.operationId? = some receipt.operationId ∧
        cfg.world.state.receipts[receipt.operationId]? = some receipt) ∧
    (∀ (later : Config ports ExecutionStore WorkerInput (Result WorkerOutcome))
      (receipt : ExecutionReceipt), workers.Steps (fun _ _ => True) cfg later →
      cfg.world.state.receipts[operationId]? = some receipt →
      later.world.state.receipts[operationId]? = some receipt) ∧
    (∀ (n : Nat) (thread : Thread ports ExecutionStore WorkerInput (Result WorkerOutcome))
      (result : Result WorkerOutcome) (made : Nat × ExecutionIntent),
      cfg.threads[n]? = some thread → thread.rest = some (.done result) →
      made ∈ executions operationId thread.before.log → thread.input.Uses operationId connector →
      n ∉ storeFailures cfg.world.log → cfg.world.state.receipts[operationId]? = none →
      cfg.world.state.requirements.get2 operationId made.2.claimFence = some (.fromIntent made.2)) ∧
    (∀ (made : Nat × ExecutionIntent) (input : ReconcileExecutionOperationInput)
      (audit : ExecutionReconciliationAuditRecord), made ∈ executions operationId cfg.world.log →
      cfg.world.state.requirements.get2 operationId made.2.claimFence = some (.fromIntent made.2) →
      cfg.world.state.receipts[operationId]? = none → Resolves made.2 input →
      ∃ later thread, workers.Steps (fun w input => input.admits operationId connector w = true)
        cfg later ∧ later.world.state.receipts[operationId]? = some input.receipt ∧
        later.threads[cfg.threads.length]? = some thread ∧
        thread.rest = some (.done (.ok (.reconciled
          (.reconciled input.receipt audit.artifact))))) := by
  have hsound := Pool.Steps.sound (workers_oneConnector operationId connector hrequires)
    (s := .empty) OperationKept.initial h
  refine ⟨hsound.inv.executedOnce, ?_, ?_, ?_, ?_⟩
  · intro n thread outcome receipt hthr hrest hrcpt
    exact returned_receipts_stored (h.mono fun _ _ _ => trivial) hthr hrest hrcpt
  · intro later receipt hlater hst
    exact (steps_grow hlater).receipts _ _ hst
  · intro n thread result made hthr hrest hmade huses hfine hnone
    rcases hsound.post hthr hrest made hmade huses with ⟨receipt, hsome⟩ | hreqd | hfailed
    · rw [hnone] at hsome
      cases hsome
    · exact hreqd
    · exact absurd hfailed hfine
  · intro made input audit hmade hreqd hnone hresolves
    -- The operator's attempt starts now and is run to its end.
    have hprod := hsound.inv.producer ⟨made.1, hmade⟩
    let opened : Config ports ExecutionStore WorkerInput (Result WorkerOutcome) :=
      ⟨cfg.world.start cfg.threads.length (.reconcile input),
        cfg.threads ++ [⟨.reconcile input, cfg.world, some (workers.code (.reconcile input))⟩]⟩
    have hstart : workers.Step (oneConnector operationId connector).ok cfg opened :=
      .start cfg (.reconcile input) rfl
    have hthr : opened.threads[cfg.threads.length]? =
        some ⟨.reconcile input, cfg.world, some (workers.code (.reconcile input))⟩ :=
      List.getElem?_concat_length
    have hfinishes : Prog.Finishes workers.performs (workers.code (.reconcile input))
        opened.world.state
        (.ok (.reconciled (.reconciled input.receipt audit.artifact)))
        { cfg.world.state with
          receipts := cfg.world.state.receipts.insert operationId input.receipt } :=
      .bind (reconcile_finishes hprod hreqd hnone hresolves audit) (.done _ _)
    obtain ⟨later, hsteps, hstate, hend⟩ := Pool.Steps.of_finishes
      (oneConnector operationId connector).ok hthr hfinishes
    refine ⟨later, _, .head hstart hsteps, ?_, hend, rfl⟩
    rw [hstate]
    exact Std.ExtTreeMap.getElem?_insert_self

def isDone {α : Type} : Prog ports α → Bool
  | .done _ => true
  | .call _ _ => false

/-- After the lost call, a second claim with the same connector leaves the requirement, and what an
operator found out about the call resolves it. -/
theorem second_claim_requires_reconciliation :
    ∃ cfg made later, workers.Steps
        (fun w input => input.admits notifyOperationId mailConnector w = true)
        (.initial .empty) cfg ∧
      executions notifyOperationId cfg.world.log = [made] ∧
      cfg.world.state.receipts[notifyOperationId]? = none ∧
      cfg.world.state.requirements.get2 notifyOperationId made.2.claimFence =
        some (.fromIntent made.2) ∧
      workers.Steps (fun w input => input.admits notifyOperationId mailConnector w = true)
        cfg later ∧
      later.world.state.receipts[notifyOperationId]? = some deliveredReceipt := by
  obtain ⟨cfg, hsteps, hchk⟩ := Pool.exists_steps_of_exec PortChoice.answer_sound
    (show ((workers.exec PortChoice.answer
      (fun w input => input.admits notifyOperationId mailConnector w) (.initial .empty)
      secondClaim).any fun cfg =>
        decide (1 ∉ storeFailures cfg.world.log) &&
        decide (cfg.world.state.receipts[notifyOperationId]? = none) &&
        (cfg.threads[1]?.any fun thread =>
          decide ((executions notifyOperationId thread.before.log).length = 1) &&
          decide (executions notifyOperationId thread.before.log =
            executions notifyOperationId cfg.world.log) &&
          decide (thread.input.Uses notifyOperationId mailConnector) &&
          thread.rest.any isDone) &&
        (executions notifyOperationId cfg.world.log).all fun made =>
          (ReconcileExecutionOperationUseCase.matchIntent deliveredReceipt made.2).isOk &&
          (ReconcileExecutionOperationUseCase.admitReceipt deliveredInput).isOk) = true
      by decide +kernel)
  simp only [Bool.and_eq_true, decide_eq_true_eq] at hchk
  obtain ⟨⟨⟨hfine, hnone⟩, hthr⟩, hresolves⟩ := hchk
  obtain ⟨thread, hthr, hlate⟩ := (Option.any_eq_true _ _).mp hthr
  simp only [Bool.and_eq_true, decide_eq_true_eq] at hlate
  obtain ⟨⟨⟨hone, hsame⟩, huses⟩, hrest⟩ := hlate
  obtain ⟨rest, hrest, hdone⟩ := (Option.any_eq_true _ _).mp hrest
  obtain ⟨made, hmade⟩ := List.length_eq_one_iff.mp hone
  have hexecuted : executions notifyOperationId cfg.world.log = [made] := hsame.symm.trans hmade
  rw [hexecuted, List.all_cons, List.all_nil, Bool.and_true, Bool.and_eq_true] at hresolves
  cases rest with
  | call => cases hdone
  | done result =>
    obtain ⟨-, -, -, hreqs, hreconciles⟩ :=
      executes_once_and_reconciles notifyOperationId mailConnector rfl cfg hsteps
    have hreqd := hreqs 1 thread result made hthr hrest (by simp [hmade]) huses hfine hnone
    obtain ⟨later, _, hlater, hst, -⟩ := hreconciles made deliveredInput
      ⟨⟨.null, ⟨.generatedReport, none, none, none, ⟨3, by decide⟩, none⟩⟩, "audit"⟩
      (by simp [hexecuted]) hreqd hnone
      ⟨eq_ok_of_isOk hresolves.2, eq_ok_of_isOk hresolves.1⟩
    exact ⟨cfg, made, later, hsteps, hexecuted, hnone, hreqd, hlater, hst⟩

/-- The operation was first recorded for the mail connector, and is executed twice. -/
theorem second_connector_executes_again :
    ∃ cfg, workers.Steps (fun _ _ => True) (.initial .empty) cfg ∧
      (firstRecords notifyOperationId cfg.world.log).map (fun r => r.2.contract) = [mailConnector] ∧
      mailConnector.recoveryCapability = .reconciliationRequired ∧
      (executions notifyOperationId cfg.world.log).length = 2 := by
  obtain ⟨cfg, hsteps, hchk⟩ := Pool.exists_steps_of_exec PortChoice.answer_sound
    (show ((workers.exec PortChoice.answer (fun _ _ => true) (.initial .empty)
      secondConnector).any fun cfg =>
        decide ((firstRecords notifyOperationId cfg.world.log).map (fun r => r.2.contract) =
          [mailConnector]) &&
        decide ((executions notifyOperationId cfg.world.log).length = 2)) = true
      by decide +kernel)
  simp only [Bool.and_eq_true, decide_eq_true_eq] at hchk
  exact ⟨cfg, hsteps.mono fun _ _ _ => trivial, hchk.1, rfl, hchk.2⟩

end Made
