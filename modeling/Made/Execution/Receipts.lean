import Made.Execution.Attempts

/-!
# The receipts that attempts return

Which calls the parts of an attempt can make, and what an attempt that returned a receipt has left
in the store: the receipt of its operation, for good.
-/

namespace Made

open Interleaving Interleaving.Discipline

variable {s : ExecutionStore} {receipt : ExecutionReceipt} {t : ExecutionStore}

/-! ## The calls of the parts -/

namespace Attempt

variable {α β : Type} {A : PortCall → Prop}

/-- Every call the attempt can come to make is of the given kind. -/
structure Only (A : PortCall → Prop) (p : Attempt α) : Prop where
  run : Prog.Only (I := ports) A p.run

theorem Only.bind {p : Attempt α} {f : α → Attempt β} (h : p.Only A) (hf : ∀ a, (f a).Only A) :
    (p >>= f).Only A :=
  ⟨Prog.Only.bindExcept h.run fun a => (hf a).run⟩

theorem Only.store {c : StoreCall} (h : A (.store c)) : (store c).Only A :=
  ⟨Prog.Only.ask (I := ports) h⟩

theorem Only.outside {c : OutsideCall} (h : A (.outside c)) : (outside c).Only A :=
  ⟨Prog.Only.ask (I := ports) h⟩

theorem Only.check (result : Result α) : (check result).Only A := ⟨trivial⟩

theorem Only.pure (a : α) : (Pure.pure a : Attempt α).Only A := ⟨trivial⟩

end Attempt

open Attempt

/-- Neither records an intent nor calls a connector's `execute`. -/
def Plain : PortCall → Prop
  | .store (.recordIntent _) => False
  | .outside (.executeCancellable _ _) => False
  | _ => True

theorem Plain.harmless {c : PortCall} (h : Plain c) (operationId : ExecutionOperationId) :
    Harmless operationId c := by
  cases c with
  | store c | outside c => cases c <;> first | exact h.elim | trivial

theorem verifyReceiptArtifacts_plain (artifacts : Bool) (receipt : ExecutionReceipt) :
    (verifyReceiptArtifacts artifacts receipt).Only Plain := by
  unfold verifyReceiptArtifacts
  split
  · exact .pure _
  · split
    · exact .outside trivial
    · exact .check _

variable (connector : ConnectorContract) (intent : ExecutionIntent)

theorem executionReceiptFromObservation_plain (observation : CeremonyExecutionObservation) :
    (executionReceiptFromObservation connector intent observation).Only Plain := by
  refine .bind (.store trivial) fun producer => ?_
  refine .bind (.check _) fun producer => ?_
  refine .bind (.check _) fun _ => ?_
  exact .bind (.check _) fun receipt => .pure _

theorem recordObservation_plain (artifacts : Bool)
    (intent : ExecutionIntent) (observation : CeremonyExecutionObservation) :
    (recordObservation connector artifacts intent observation).Only Plain := by
  refine .bind (executionReceiptFromObservation_plain _ _ _) fun receipt => ?_
  refine .bind (verifyReceiptArtifacts_plain _ _) fun _ => ?_
  exact .bind (.store trivial) fun _ => .pure _

theorem recordReconciliationRequired_plain (operationId : ExecutionOperationId) :
    (recordReconciliationRequired intent operationId).Only Plain :=
  .bind (.check _) fun _ => .store trivial

theorem reconciliationRequired_plain : (reconciliationRequired intent).Only Plain := by
  refine .bind (.store trivial) fun requirement => ?_
  cases requirement with
  | none => exact .pure _
  | some requirement => exact .bind (.check _) fun _ => .pure _

namespace ExecuteCeremonyOperationUseCase

variable (u : ExecuteCeremonyOperationUseCase) (operationId : ExecutionOperationId)

theorem existingReceipt_plain : (u.existingReceipt operationId).Only Plain := by
  refine .bind (.store trivial) fun stored => ?_
  cases stored with
  | none => exact .pure _
  | some receipt =>
    exact .bind (verifyReceiptArtifacts_plain _ _) fun _ => .pure _

theorem recordEach_plain (operationIdOf : ExecutionIntent → ExecutionOperationId)
    (intents : List ExecutionIntent) : (u.recordEach operationIdOf intents).Only Plain := by
  induction intents with
  | nil => exact .pure _
  | cons prior rest ih =>
    refine .bind (.check _) fun _ => ?_
    exact .bind (recordReconciliationRequired_plain _ _) fun _ => ih

theorem recordPriorNonQueryableAmbiguity_plain :
    (u.recordPriorNonQueryableAmbiguity operationId).Only Plain := by
  unfold recordPriorNonQueryableAmbiguity
  split
  · exact .pure _
  · refine .bind (.store trivial) fun prior => ?_
    exact .bind (u.recordEach_plain _ _) fun _ => .pure _

theorem priorAmbiguity_plain (existing : Option ExecutionIntent)
    (operationId : ExecutionOperationId) : (u.priorAmbiguity existing operationId).Only Plain := by
  unfold priorAmbiguity
  split
  · exact u.recordPriorNonQueryableAmbiguity_plain _
  · exact .pure _

theorem recordRetryAmbiguity_plain (intent : ExecutionIntent)
    (recorded : RecordExecutionIntentOutcome) :
    (u.recordRetryAmbiguity intent recorded).Only Plain := by
  unfold recordRetryAmbiguity
  split
  · exact recordReconciliationRequired_plain _ _
  · refine .bind (.store trivial) fun prior => ?_
    exact .bind (.check _) fun _ => u.recordEach_plain _ _

end ExecuteCeremonyOperationUseCase

theorem RecoverExecutionIntentUseCase.execute_plain (u : RecoverExecutionIntentUseCase)
    (intent : ExecutionIntent) : (u.execute intent).Only Plain := by
  refine .bind (.store trivial) fun stored => ?_
  cases stored with
  | some receipt =>
    exact .bind (verifyReceiptArtifacts_plain _ _) fun _ => .pure _
  | none =>
    refine .bind (.check _) fun _ => ?_
    refine .bind (reconciliationRequired_plain _) fun required => ?_
    cases required with
    | true => exact .pure _
    | false =>
      rw [if_neg Bool.false_ne_true]
      split
      · exact .bind (.store trivial) fun _ => .pure _
      · refine .bind (.outside trivial) fun outcome => ?_
        cases outcome with
        | reconciliationRequired operationId =>
          exact .bind (recordReconciliationRequired_plain _ _) fun _ => .pure _
        | observed observation =>
          exact .bind (recordObservation_plain _ _ _ _) fun _ => .pure _

theorem ReconcileExecutionOperationUseCase.recordReconciled_plain (receipt : ExecutionReceipt)
    (audit : ExecutionReconciliationAuditRecord) : (recordReconciled receipt audit).Only Plain := by
  refine .bind (.store trivial) fun outcome => ?_
  cases outcome with
  | recorded => exact .pure _
  | alreadyRecorded =>
    refine .bind (.store trivial) fun existing => ?_
    refine .bind (.check _) fun existing => ?_
    exact .bind (.check _) fun _ => .pure _

theorem ReconcileExecutionOperationUseCase.execute_plain
    (input : ReconcileExecutionOperationInput) : (execute input).Only Plain := by
  refine .bind (.check _) fun _ => ?_
  refine .bind (.store trivial) fun intent => ?_
  refine .bind (.check _) fun intent => ?_
  refine .bind (.check _) fun _ => ?_
  refine .bind (.store trivial) fun requirement => ?_
  refine .bind (.check _) fun requirement => ?_
  refine .bind (.check _) fun _ => ?_
  refine .bind (.outside trivial) fun audit => ?_
  refine .bind (.outside trivial) fun _ => ?_
  refine .bind (.store trivial) fun existing => ?_
  cases existing with
  | some existing =>
    refine .bind (.check _) fun _ => ?_
    exact .bind (.outside trivial) fun _ => .pure _
  | none => exact .bind (.outside trivial) fun _ => recordReconciled_plain _ _

/-! ## Plain parts under any discipline -/

/-- Plain calls keep the invariant of a discipline of attempts. -/
structure PlainSafe (D : Discipline ports ExecutionStore WorkerInput) : Prop where
  performs : D.performs = Performs
  inv : ∀ (w : AttemptWorld) (n : Nat) (c : PortCall) (reply : c.Reply) (t : ExecutionStore),
    Plain c → D.inv w → Performs w.state c reply t → D.inv (w.call n c reply t)

section Plain

variable {D : Discipline ports ExecutionStore WorkerInput} {n : Nat} {P E : AttemptWorld → Prop}
  {α : Type}

theorem PlainSafe.triple (safe : PlainSafe D) {p : Attempt α} (plain : p.Only Plain)
    (frame : D.Frame n Plain P) (fault : ∀ w, P w → E w) : D.ExceptTriple n P p (fun _ => P) E :=
  frame.exceptTriple plain.run
    (fun w c reply t hplain hinv performs =>
      safe.inv w n c reply t hplain hinv (safe.performs ▸ performs))
    fun w _ hw => fault w hw

theorem check_triple {result : Result α} (stable : D.Stable n P) (fault : ∀ w, P w → E w) :
    D.ExceptTriple n P (Attempt.check result) (fun a w => result = .ok a ∧ P w) E :=
  ExceptTriple.mk stable (fun _ ha _ _ hw => ⟨ha, hw⟩) fun _ _ w _ hw => fault w hw

theorem check_bind {β : Type} {Q : β → AttemptWorld → Prop} {result : Result α} {a : α}
    {f : α → Attempt β} (h : result = .ok a) (hf : D.ExceptTriple n P (f a) Q E) :
    D.ExceptTriple n P (Attempt.check result >>= f) Q E := by
  subst h
  exact hf

theorem operation_triple (safe : PlainSafe D) (frame : D.Frame n Plain P)
    (fault : ∀ w, P w → E w) (stable : D.Stable n E) (input : ExecuteCeremonyOperationInput) :
    D.ExceptTriple n P (ExecuteCeremonyOperationUseCase.operation input)
      (fun found w => input.candidate = .ok found ∧ P w) E := by
  refine .bind stable (check_triple frame.stable fault) fun candidate => ?_
  have hframe : D.Frame n Plain fun w => input.candidate = .ok candidate ∧ P w :=
    (Frame.const _).and frame
  refine .bind stable (safe.triple (.store trivial) hframe fun w hw => fault w hw.2)
    fun stored => ?_
  cases stored with
  | none => exact .pure hframe.stable fun _ _ hw => hw
  | some stored =>
    refine .bind stable (check_triple hframe.stable fun w hw => fault w hw.2) fun _ => ?_
    refine .pure ((Stable.const _).and hframe.stable) fun w _ hw => ?_
    obtain ⟨hsame, hcand, hP⟩ := hw
    rw [(Outcome.require_eq_ok _ _ _).mp hsame]
    exact ⟨hcand, hP⟩

end Plain

/-! ## What an attempt establishes in the store -/

/-- A fact about the store that no call of a port takes back. -/
def Lasting (P : ExecutionStore → Prop) : Prop := ∀ s t, s.Grows t → P s → P t

theorem Lasting.const (p : Prop) : Lasting fun _ => p := fun _ _ _ h => h

def anyAttempts : Discipline ports ExecutionStore WorkerInput where
  performs := Performs
  ok _ _ := True
  inv _ := True

theorem anyAttempts_plainSafe : PlainSafe anyAttempts := ⟨rfl, fun _ _ _ _ _ _ _ _ => trivial⟩

theorem Lasting.frame {P : ExecutionStore → Prop} (h : Lasting P) (n : Nat) :
    anyAttempts.Frame n (fun _ => True) fun w => P w.state :=
  .of_state fun s _ _ t performs hs => h s t (Performs.grows performs) hs

namespace Attempt

variable {α β : Type} {n : Nat} {P : ExecutionStore → Prop} {Q Q' : α → ExecutionStore → Prop}
  {R : β → ExecutionStore → Prop}

/-- Whatever the other attempts do, the answer comes with the fact. -/
def Establishes (n : Nat) (P : ExecutionStore → Prop) (p : Attempt α)
    (Q : α → ExecutionStore → Prop) : Prop :=
  anyAttempts.ExceptTriple n (fun w => P w.state) p (fun a w => Q a w.state) fun _ => True

theorem Establishes.bind {p : Attempt α} {f : α → Attempt β} (h : Establishes n P p Q)
    (hf : ∀ a, Establishes n (Q a) (f a) R) : Establishes n P (p >>= f) R :=
  ExceptTriple.bind (.const True) h hf

theorem Establishes.pure {a : α} (lasting : Lasting P) (h : ∀ s, P s → Q a s) :
    Establishes n P (Pure.pure a) Q :=
  ExceptTriple.pure (lasting.frame n).stable fun _ _ hw => h _ hw

theorem Establishes.check {result : Result α} (lasting : Lasting P) :
    Establishes n P (check result) fun a s => result = .ok a ∧ P s :=
  ExceptTriple.mk (lasting.frame n).stable (fun _ ha _ _ hw => ⟨ha, hw⟩) fun _ _ _ _ _ => trivial

theorem Establishes.store {c : StoreCall} {Q : c.Answer → ExecutionStore → Prop}
    (lasting : Lasting P) (step : ∀ s t a, P s → s.run c = (.ok a, t) → Q a t)
    (lasting' : ∀ a, Lasting (Q a)) : Establishes n P (store c) Q := by
  refine Triple.ask (I := ports) (c := PortCall.store c) (lasting.frame n).stable ?_ ?_
  · intro w _ hw reply state performs
    refine ⟨trivial, ?_⟩
    cases reply with
    | ok a => exact step w.state state a hw (Performs.run_eq performs rfl)
    | error => trivial
  · intro reply
    cases reply with
    | ok a => exact ((lasting' a).frame n).stable
    | error => exact .const True

theorem only_true (p : Attempt α) : p.Only fun _ => True := by
  refine ⟨?_⟩
  generalize p.run = q
  induction q with
  | done => trivial
  | call c next ih => exact ⟨trivial, ih⟩

theorem Establishes.keep (p : Attempt α) (lasting : Lasting P) : Establishes n P p fun _ => P :=
  (lasting.frame n).exceptTriple (only_true p).run (fun _ _ _ _ _ _ _ => trivial)
    fun _ _ _ => trivial

/-- A fact that does not speak of the store may be taken out. -/
theorem Establishes.assuming {p : Attempt α} {fact : Prop}
    (h : fact → Establishes n (fun _ => True) p Q) : Establishes n (fun _ => fact) p Q :=
  fun w hinv hfact => h hfact w hinv trivial

theorem Establishes.conseq {p : Attempt α} (h : Establishes n P p Q)
    (post : ∀ a s, Q a s → Q' a s) : Establishes n P p Q' :=
  ExceptTriple.conseq h (fun _ _ hw => hw) fun _ _ _ hw => post _ _ hw

end Attempt

def ReceiptStored (operationId : ExecutionOperationId) (receipt : ExecutionReceipt)
    (s : ExecutionStore) : Prop :=
  receipt.operationId = operationId ∧ s.receipts[operationId]? = some receipt

theorem ReceiptStored.lasting (operationId : ExecutionOperationId) (receipt : ExecutionReceipt) :
    Lasting (ReceiptStored operationId receipt) :=
  fun _ _ grows h => ⟨h.1, grows.receipts _ _ h.2⟩

theorem ExecutionStore.run_receipt {operationId : ExecutionOperationId}
    (h : s.run (.receipt operationId) = (.ok (some receipt), t)) :
    ReceiptStored operationId receipt t := by
  obtain ⟨hread, rfl⟩ := Prod.mk.inj h
  obtain ⟨hget, -, hkey⟩ := receipt_eq_some.mp hread
  exact ⟨hkey, hget⟩

theorem ExecutionStore.run_recordReceipt {outcome : RecordExecutionReceiptOutcome}
    (h : s.run (.recordReceipt receipt) = (.ok outcome, t)) :
    ReceiptStored receipt.operationId receipt t := by
  refine ⟨rfl, ?_⟩
  rw [run] at h
  cases hrec : s.recordReceipt receipt with
  | error fault =>
    rw [hrec] at h
    cases h
  | ok pair =>
    obtain ⟨outcome', t'⟩ := pair
    rw [hrec] at h
    obtain ⟨-, rfl⟩ := Prod.mk.inj h
    cases recordReceipt_eq_ok hrec with
    | recorded => exact Std.ExtTreeMap.getElem?_insert_self
    | already stored => exact stored

section Returned

variable {n : Nat} {P : ExecutionStore → Prop} {operationId : ExecutionOperationId}

theorem recordObservation_returns (artifacts : Bool)
    (intent : ExecutionIntent) (observation : CeremonyExecutionObservation) :
    Establishes n (fun _ => True) (recordObservation connector artifacts intent observation)
      (ReceiptStored intent.operation.operationId) := by
  have hrcpt : Establishes n (fun _ => True)
      (executionReceiptFromObservation connector intent observation)
      fun receipt _ => receipt.operationId = intent.operation.operationId := by
    refine .bind (.store (.const True) (fun _ _ _ _ _ => trivial) fun _ => .const True) fun _ => ?_
    refine .bind (.check (.const True)) fun producer => ?_
    refine .bind (.check (.const _)) fun _ => ?_
    refine .bind (.check (.const _)) fun receipt => ?_
    refine .pure (.const _) fun _ h => ?_
    obtain ⟨hnew, -⟩ := h
    simp only [ExecutionReceipt.new, Outcome.bind_eq_ok, Outcome.pure_eq_ok] at hnew
    obtain ⟨_, _, _, _, _, _, rfl⟩ := hnew
    rfl
  refine .bind hrcpt fun receipt => ?_
  refine .bind (.keep _ (.const _)) fun _ => ?_
  refine .bind (Q := fun _ => ReceiptStored intent.operation.operationId receipt) ?_ fun _ => ?_
  · refine .store (.const _) (fun s t a hop hrun => ?_) fun _ => ReceiptStored.lasting _ _
    have hst := ExecutionStore.run_recordReceipt hrun
    rwa [hop] at hst
  · exact .pure (ReceiptStored.lasting _ _) fun _ h => h

/-- The receipt in an outcome, if there is one, is the stored one. -/
def Returned (operationId : ExecutionOperationId) (receipt : Option ExecutionReceipt)
    (s : ExecutionStore) : Prop :=
  ∀ r, receipt = some r → ReceiptStored operationId r s

theorem Returned.lasting (operationId : ExecutionOperationId) (receipt : Option ExecutionReceipt) :
    Lasting (Returned operationId receipt) :=
  fun s t grows h r hr => ReceiptStored.lasting operationId r s t grows (h r hr)

theorem Returned.none : Returned operationId .none s := by
  intro r hr
  cases hr

theorem ReceiptStored.returned (h : ReceiptStored operationId receipt s) :
    Returned operationId (some receipt) s := by
  intro r hr
  cases hr
  exact h

def ExecuteCeremonyOperationOutcome.receipt? :
    ExecuteCeremonyOperationOutcome → Option ExecutionReceipt
  | .receipt r => some r
  | .reconciliationRequired _ => none

def RecoverExecutionIntentOutcome.receipt? : RecoverExecutionIntentOutcome → Option ExecutionReceipt
  | .receipt r => some r
  | .reconciliationRequired _ => none

def ReconcileExecutionOperationOutcome.receipt? :
    ReconcileExecutionOperationOutcome → Option ExecutionReceipt
  | .reconciled receipt _ => some receipt
  | .alreadyReconciled receipt _ => some receipt

def WorkerOutcome.receipt? : WorkerOutcome → Option ExecutionReceipt
  | .executed outcome => outcome.receipt?
  | .recovered outcome => outcome.receipt?
  | .reconciled outcome => outcome.receipt?

theorem readReceipt_returns (operationId : ExecutionOperationId) :
    Establishes n (fun _ => True) (.store (.receipt operationId)) (Returned operationId) := by
  refine .store (.const _) (fun s t stored _ hrun => ?_) fun _ => Returned.lasting _ _
  rintro r rfl
  exact ExecutionStore.run_receipt hrun

namespace ExecuteCeremonyOperationUseCase

variable (u : ExecuteCeremonyOperationUseCase)

theorem existingReceipt_returns (operationId : ExecutionOperationId) :
    Establishes n (fun _ => True) (u.existingReceipt operationId) fun existing s =>
      ∀ outcome, existing = some outcome → Returned operationId outcome.receipt? s := by
  refine .bind (readReceipt_returns operationId) fun stored => ?_
  cases stored with
  | none =>
    refine .pure (Returned.lasting _ _) fun _ _ outcome hnone => ?_
    cases hnone
  | some receipt =>
    refine .bind (.keep _ (Returned.lasting _ _)) fun _ => ?_
    refine .pure (Returned.lasting _ _) fun s hs outcome hsome => ?_
    cases hsome
    exact hs

variable (input : ExecuteCeremonyOperationInput)

theorem callConnector_returns (intent : ExecutionIntent) :
    Establishes n (fun _ => True) (u.callConnector input intent) fun outcome =>
      Returned intent.operation.operationId outcome.receipt? := by
  refine .bind (.check (.const _)) fun request => ?_
  refine .bind (.keep _ (.const _)) fun outcome => ?_
  cases outcome with
  | reconciliationRequired operationId =>
    refine .bind (.keep _ (.const _)) fun _ => ?_
    exact .pure (.const _) fun _ _ => Returned.none
  | observed observation =>
    refine .bind (.assuming fun _ => recordObservation_returns _ _ _ _) fun receipt => ?_
    exact .pure (ReceiptStored.lasting _ _) fun _ h => h.returned

theorem existingReceipt_or {rest : Attempt ExecuteCeremonyOperationOutcome}
    (h : Establishes n (fun _ => True) rest fun outcome => Returned operationId outcome.receipt?) :
    Establishes n (fun _ => True)
      (do
        match ← u.existingReceipt operationId with
        | some outcome => pure outcome
        | none => rest)
      fun outcome => Returned operationId outcome.receipt? := by
  refine .bind (u.existingReceipt_returns operationId) fun existing => ?_
  cases existing with
  | some outcome =>
    refine .pure ?_ fun s hs => hs outcome rfl
    intro s t grows hs outcome' hsome
    exact Returned.lasting _ _ s t grows (hs outcome' hsome)
  | none => exact fun w hinv _ => h w hinv trivial

theorem settleIntent_returns (intent : ExecutionIntent) (recorded : RecordExecutionIntentOutcome) :
    Establishes n (fun _ => True) (u.settleIntent input intent recorded) fun outcome =>
      Returned intent.operation.operationId outcome.receipt? := by
  refine u.existingReceipt_or ?_
  refine .bind (.keep _ (.const _)) fun required => ?_
  cases required with
  | true => exact .pure (.const _) fun _ _ => Returned.none
  | false =>
    rw [if_neg Bool.false_ne_true]
    split
    · refine .bind (.keep _ (.const _)) fun _ => ?_
      exact .pure (.const _) fun _ _ => Returned.none
    · exact u.callConnector_returns input intent

theorem operation_returns :
    Establishes n (fun _ => True) (operation input) fun found _ => input.candidate = .ok found :=
  ExceptTriple.conseq (operation_triple anyAttempts_plainSafe (.const True) (fun _ _ => trivial)
    (.const True) input) (fun _ _ hw => hw) fun _ _ _ hw => hw.1

theorem claimIntent_returns (found : ExecutionOperation) (input : ExecuteCeremonyOperationInput)
    (existing : Option ExecutionIntent) :
    Establishes n (fun _ => True) (u.claimIntent found input existing) fun claimed _ =>
      claimed.1.operation = found := by
  cases existing with
  | some intent =>
    refine .bind (.check (.const _)) fun _ => ?_
    exact .pure (.const _) fun _ h => ((Outcome.require_eq_ok _ _ _).mp h.1).1
  | none =>
    refine .bind (.keep _ (.const _)) fun now => ?_
    refine .bind (.check (.const _)) fun intent => ?_
    refine .bind (.keep _ (.const _)) fun recorded => ?_
    exact .pure (.const _) fun _ h => (ExecutionIntent.new_eq_ok h.1).1

theorem executeCancellable_returns (cancelled : Bool) :
    Establishes n (fun _ => True) (u.executeCancellable input cancelled) fun outcome s =>
      ∀ r, outcome.receipt? = some r → ∃ found, input.candidate = .ok found ∧
        ReceiptStored found.operationId r s := by
  refine .bind (.check (.const _)) fun _ => ?_
  refine .bind (.assuming fun _ => operation_returns input) fun found => ?_
  refine .assuming fun hf => ?_
  refine .conseq (Q := fun outcome => Returned found.operationId outcome.receipt?) ?_
    fun _ _ h r hr => ⟨found, hf, h r hr⟩
  refine u.existingReceipt_or ?_
  refine .bind (.keep _ (.const _)) fun existing => ?_
  refine .bind (.keep _ (.const _)) fun ambiguous => ?_
  cases ambiguous with
  | true =>
    rw [if_pos rfl]
    exact u.existingReceipt_or (.pure (.const _) fun _ _ => Returned.none)
  | false =>
    rw [if_neg Bool.false_ne_true]
    refine .bind (u.claimIntent_returns found input existing) fun claimed => ?_
    refine .assuming fun hclaimed => ?_
    have hset := u.settleIntent_returns (n := n) input claimed.1 claimed.2
    rw [hclaimed] at hset
    exact hset

end ExecuteCeremonyOperationUseCase

theorem RecoverExecutionIntentUseCase.execute_returns (u : RecoverExecutionIntentUseCase)
    (intent : ExecutionIntent) :
    Establishes n (fun _ => True) (u.execute intent) fun outcome =>
      Returned intent.operation.operationId outcome.receipt? := by
  refine .bind (readReceipt_returns _) fun stored => ?_
  cases stored with
  | some receipt =>
    refine .bind (.keep _ (Returned.lasting _ _)) fun _ => ?_
    exact .pure (Returned.lasting _ _) fun _ h => h
  | none =>
    refine .bind (.check (Returned.lasting _ _)) fun _ => ?_
    refine fun w hinv _ => Establishes.bind (P := fun _ => True) (.keep _ (.const _))
      (fun required => ?_) w hinv trivial
    cases required with
    | true => exact .pure (.const _) fun _ _ => Returned.none
    | false =>
      rw [if_neg Bool.false_ne_true]
      split
      · refine .bind (.keep _ (.const _)) fun _ => ?_
        exact .pure (.const _) fun _ _ => Returned.none
      · refine .bind (.keep _ (.const _)) fun outcome => ?_
        cases outcome with
        | reconciliationRequired operationId =>
          refine .bind (.keep _ (.const _)) fun _ => ?_
          exact .pure (.const _) fun _ _ => Returned.none
        | observed observation =>
          refine .bind (.assuming fun _ => recordObservation_returns _ _ _ _) fun receipt => ?_
          exact .pure (ReceiptStored.lasting _ _) fun _ h => h.returned

namespace ReconcileExecutionOperationUseCase

theorem recordReconciled_returns (receipt : ExecutionReceipt)
    (audit : ExecutionReconciliationAuditRecord) :
    Establishes n (fun _ => True) (recordReconciled receipt audit) fun outcome =>
      Returned receipt.operationId outcome.receipt? := by
  refine .bind (Q := fun _ => ReceiptStored receipt.operationId receipt) ?_ fun outcome => ?_
  · exact .store (.const _) (fun _ _ _ _ hrun => ExecutionStore.run_recordReceipt hrun)
      fun _ => ReceiptStored.lasting _ _
  · cases outcome with
    | recorded => exact .pure (ReceiptStored.lasting _ _) fun _ h => h.returned
    | alreadyRecorded =>
      refine .bind (.keep _ (ReceiptStored.lasting _ _)) fun existing => ?_
      refine .bind (.check (ReceiptStored.lasting _ _)) fun existing => ?_
      refine .bind (.check fun s t grows h =>
        ⟨h.1, ReceiptStored.lasting _ _ s t grows h.2⟩) fun _ => ?_
      refine .pure (fun s t grows h =>
        ⟨h.1, h.2.1, ReceiptStored.lasting _ _ s t grows h.2.2⟩) fun _ h => ?_
      rw [(Outcome.require_eq_ok _ _ _).mp h.1]
      exact h.2.2.returned

theorem execute_returns (input : ReconcileExecutionOperationInput) :
    Establishes n (fun _ => True) (execute input) fun outcome =>
      Returned input.receipt.operationId outcome.receipt? := by
  refine .bind (.check (.const _)) fun _ => ?_
  refine .bind (.keep _ (.const _)) fun intent => ?_
  refine .bind (.check (.const _)) fun intent => ?_
  refine .bind (.check (.const _)) fun _ => ?_
  refine .bind (.keep _ (.const _)) fun requirement => ?_
  refine .bind (.check (.const _)) fun requirement => ?_
  refine .bind (.check (.const _)) fun _ => ?_
  refine .bind (.keep _ (.const _)) fun audit => ?_
  refine .bind (.keep _ (.const _)) fun _ => ?_
  refine .bind (.assuming fun _ => readReceipt_returns _) fun existing => ?_
  cases existing with
  | some existing =>
    refine .bind (.check (Returned.lasting _ _)) fun _ => ?_
    have hlasting : Lasting fun s => Outcome.require (existing = input.receipt)
        (DomainError.conflict "execution_receipt") = .ok () ∧
          Returned input.receipt.operationId (some existing) s :=
      fun s t grows h => ⟨h.1, Returned.lasting _ _ s t grows h.2⟩
    refine .bind (.keep _ hlasting) fun _ => ?_
    exact .pure hlasting fun _ h => h.2
  | none =>
    refine .bind (.keep _ (Returned.lasting _ _)) fun _ => ?_
    exact fun w hinv _ => recordReconciled_returns input.receipt audit w hinv trivial

end ReconcileExecutionOperationUseCase

/-- What an attempt on an input has established when it returns. -/
def ReturnsStored (input : WorkerInput) (result : Result WorkerOutcome) (s : ExecutionStore) :
    Prop :=
  ∀ outcome r, result = .ok outcome → outcome.receipt? = some r →
    input.operationId? = some r.operationId ∧ s.receipts[r.operationId]? = some r

theorem attempt_returns (input : WorkerInput) :
    anyAttempts.Triple n (fun _ => True) input.attempt.run fun result w =>
      ReturnsStored input result w.state := by
  have hmap : ∀ {α : Type} {p : Attempt α} {Q : α → ExecutionStore → Prop}
      {f : α → WorkerOutcome}, Establishes n (fun _ => True) p Q → (∀ a, Lasting (Q a)) →
      (∀ a s, Q a s → ReturnsStored input (.ok (f a)) s) →
      anyAttempts.Triple n (fun _ => True) (f <$> p : Attempt WorkerOutcome).run fun result w =>
        ReturnsStored input result w.state := by
    intro α p Q f hp hlasting himp
    have hbind : Establishes n (fun _ => True) (p >>= fun a => pure (f a)) fun outcome s =>
        ReturnsStored input (.ok outcome) s :=
      .bind hp fun a => .pure (hlasting a) (himp a)
    refine Triple.conseq hbind (fun _ _ h => h) fun result w _ hw => ?_
    cases result with
    | ok outcome => exact hw
    | error fault =>
      intro outcome r hres
      cases hres
  cases input with
  | execute u input cancelled =>
    refine hmap (u.executeCancellable_returns input cancelled) ?_ ?_
    · intro outcome s t grows h r hr
      obtain ⟨found, hf, hst⟩ := h r hr
      exact ⟨found, hf, ReceiptStored.lasting _ _ s t grows hst⟩
    · rintro outcome s h _ r ⟨⟩ hr
      obtain ⟨found, hf, hkey, hst⟩ := h r hr
      refine ⟨?_, hkey ▸ hst⟩
      simp [WorkerInput.operationId?, hf, Except.toOption, hkey]
  | recover u intent =>
    refine hmap (u.execute_returns intent) (fun _ => Returned.lasting _ _) ?_
    rintro outcome s h _ r ⟨⟩ hr
    obtain ⟨hkey, hst⟩ := h r hr
    exact ⟨congrArg some hkey.symm, hkey ▸ hst⟩
  | reconcile input =>
    refine hmap (ReconcileExecutionOperationUseCase.execute_returns input)
      (fun _ => Returned.lasting _ _) ?_
    rintro outcome s h _ r ⟨⟩ hr
    obtain ⟨hkey, hst⟩ := h r hr
    exact ⟨congrArg some hkey.symm, hkey ▸ hst⟩

end Returned

theorem workers_return_stored : workers.Verified anyAttempts fun _ input _ result w =>
    ReturnsStored input result w.state where
  performs_eq := rfl
  start_inv _ _ _ _ _ _ := trivial
  code_safe w n input _ _ _ _ := attempt_returns input (w.start n input) trivial trivial

variable {cfg : Config ports ExecutionStore WorkerInput (Result WorkerOutcome)}

/-- In every interleaving, the receipt an attempt returned is the receipt of its operation. -/
theorem returned_receipts_stored (h : workers.Steps (fun _ _ => True) (.initial s) cfg) {n : Nat}
    {thread : Thread ports ExecutionStore WorkerInput (Result WorkerOutcome)}
    {outcome : WorkerOutcome} (thread_eq : cfg.threads[n]? = some thread)
    (rest_eq : thread.rest = some (.done (.ok outcome)))
    (receipt_eq : outcome.receipt? = some receipt) :
    thread.input.operationId? = some receipt.operationId ∧
      cfg.world.state.receipts[receipt.operationId]? = some receipt := by
  have hsound := Pool.Steps.sound workers_return_stored (s := s) trivial h
  exact hsound.post thread_eq rest_eq outcome receipt rfl receipt_eq

theorem steps_grow {ok : AttemptWorld → WorkerInput → Prop}
    {cfg' : Config ports ExecutionStore WorkerInput (Result WorkerOutcome)}
    (h : workers.Steps ok cfg cfg') : cfg.world.state.Grows cfg'.world.state :=
  h.state_invariant (fun _ _ _ _ performs hgrows => hgrows.trans (Performs.grows performs))
    (.refl _)

end Made
