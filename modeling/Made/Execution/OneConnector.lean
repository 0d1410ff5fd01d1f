import Made.Execution.Receipts

/-!
# Attempts whose executions use one connector

The attempts on an operation whose connector requires reconciliation, walked through call by call
while others work on the same store.
-/

namespace Made

open Interleaving Interleaving.Discipline Outcome ExecutionStore ExecuteCeremonyOperationUseCase

def oneConnector (operationId : ExecutionOperationId) (connector : ConnectorContract) :
    Discipline ports ExecutionStore WorkerInput where
  performs := Performs
  ok w input := input.admits operationId connector w = true
  inv := OperationKept operationId connector

section OneConnector

variable {operationId : ExecutionOperationId} {connector : ConnectorContract} {n : Nat}
  {claimFence : StepClaimFence} {P : AttemptWorld → Prop} {w : AttemptWorld}
  {intent : ExecutionIntent}

theorem oneConnector_plainSafe : PlainSafe (oneConnector operationId connector) :=
  ⟨rfl, fun _ _ _ _ _ hplain hinv performs =>
    OperationKept.harmless hinv (hplain.harmless operationId) performs⟩

/-! ## The threads that may make the call -/

def Unexecuted (operationId : ExecutionOperationId) (n : Nat) (w : AttemptWorld) : Prop :=
  ∀ made ∈ executions operationId w.log, made.1 ≠ n

variable {e : Event ports WorkerInput}

theorem execution_thread {made : Nat × ExecutionIntent}
    (h : execution operationId e = some made) : made.1 = e.thread := by
  unfold execution at h
  split at h
  · rw [Option.ite_none_right_eq_some] at h
    obtain ⟨-, h⟩ := h
    cases h
    rfl
  · cases h

theorem Unexecuted.append {log : AttemptLog} {s : ExecutionStore}
    {t : ExecutionStore} (h : Unexecuted operationId n ⟨s, log⟩)
    (he : ∀ made, execution operationId e = some made → made.1 ≠ n) :
    Unexecuted operationId n ⟨t, log ++ [e]⟩ := by
  intro made hmade
  rw [executions, List.filterMap_append, List.mem_append] at hmade
  rcases hmade with hmade | hmade
  · exact h made hmade
  · obtain ⟨e', he', hsome⟩ := List.mem_filterMap.mp hmade
    rw [List.mem_singleton] at he'
    subst he'
    exact he made hsome

theorem Unexecuted.frame :
    (oneConnector operationId connector).Frame n (Harmless operationId)
      (Unexecuted operationId n) := by
  constructor
  · intro w w' env hw
    cases env with
    | start other | call other =>
      exact hw.append fun made h => by rw [execution_thread h]; exact other
  · intro w c reply t hharmless _ hw made hmade
    rw [World.call, executions_harmless hharmless] at hmade
    exact hw made hmade

/-- What an executing thread relies on: it has not made the call, and where its operation is the one
in question, its claim was presented before the call. -/
def Entitled (operationId : ExecutionOperationId) (connector : ConnectorContract) (n : Nat)
    (claimFence : StepClaimFence) (own : Prop) (w : AttemptWorld) : Prop :=
  Unexecuted operationId n w ∧ (own → ⟨n, connector, claimFence⟩ ∈ presentedEarly operationId w.log)

theorem Entitled.frame {own : Prop} :
    (oneConnector operationId connector).Frame n Plain
      (Entitled operationId connector n claimFence own) :=
  (Unexecuted.frame.weaken fun _ hplain => hplain.harmless operationId).and
    (Frame.imp (.of_log (P := fun log => _ ∈ presentedEarly operationId log)
      fun _ e => presentedEarly_append e))

/-- What it has when it holds an intent: for the operation in question, a first record is its own. -/
def Holding (operationId : ExecutionOperationId) (n : Nat) (intent : ExecutionIntent)
    (recorded : RecordExecutionIntentOutcome) (w : AttemptWorld) : Prop :=
  Unexecuted operationId n w ∧
    (intent.operation.operationId = operationId → recorded = .recordedFirst →
      (n, intent) ∈ firstRecords operationId w.log)

theorem Holding.frame {recorded : RecordExecutionIntentOutcome} :
    (oneConnector operationId connector).Frame n Plain (Holding operationId n intent recorded) :=
  (Unexecuted.frame.weaken fun _ hplain => hplain.harmless operationId).and
    (Frame.imp (Frame.imp (.mem_log _ _)))

theorem recordIntent_triple {own : Prop}
    (hown : intent.operation.operationId = operationId → own ∧ intent.contract = connector) :
    (oneConnector operationId connector).ExceptTriple n
      (Entitled operationId connector n intent.claimFence own)
      (Attempt.store (.recordIntent intent))
      (fun recorded => Holding operationId n intent recorded) fun _ => True := by
  refine Triple.ask (I := ports) (c := PortCall.store (.recordIntent intent))
    Entitled.frame.stable ?_ ?_
  · intro w hinv hw reply t performs
    have hunexecuted : Unexecuted operationId n
        (w.call n (.store (.recordIntent intent)) reply t) := by
      refine hw.1.append fun made h => ?_
      cases h
    by_cases hop : intent.operation.operationId = operationId
    · obtain ⟨hpresented, hcontr⟩ := hown hop
      obtain ⟨hinv', hfirst⟩ :=
        OperationKept.recordIntent hinv hop hcontr (hw.2 hpresented) performs
      refine ⟨hinv', ?_⟩
      cases reply with
      | ok recorded =>
        refine ⟨hunexecuted, fun _ hrecorded => ?_⟩
        subst hrecorded
        exact hfirst rfl
      | error => trivial
    · refine ⟨OperationKept.harmless hinv hop performs, ?_⟩
      cases reply with
      | ok recorded => exact ⟨hunexecuted, fun heq => absurd heq hop⟩
      | error => trivial
  · intro reply
    cases reply with
    | ok recorded => exact Holding.frame.stable
    | error => exact .const True

variable (input : ExecuteCeremonyOperationInput) {rest : Attempt ExecuteCeremonyOperationOutcome}

namespace ExecuteCeremonyOperationUseCase

variable (u : ExecuteCeremonyOperationUseCase)

theorem claimIntent_safe (found : ExecutionOperation) (input : ExecuteCeremonyOperationInput)
    (existing : Option ExecutionIntent)
    (huses : found.operationId = operationId → u.connector = connector) :
    (oneConnector operationId connector).ExceptTriple n
      (Entitled operationId connector n input.claimFence (found.operationId = operationId))
      (u.claimIntent found input existing)
      (fun claimed w => claimed.1.operation = found ∧
        Holding operationId n claimed.1 claimed.2 w) fun _ => True := by
  have htrue : ∀ {P : AttemptWorld → Prop} (w : AttemptWorld), P w → True := fun _ _ => trivial
  cases existing with
  | some intent =>
    refine .bind (.const True) (check_triple Entitled.frame.stable htrue) fun _ => ?_
    refine .pure ((Stable.const _).and Entitled.frame.stable) fun w _ hw => ?_
    obtain ⟨hsame, hentitled⟩ := hw
    refine ⟨((require_eq_ok _ _ _).mp hsame).1, hentitled.1, ?_⟩
    intro _ hrecorded
    cases hrecorded
  | none =>
    refine .bind (.const True)
      (oneConnector_plainSafe.triple (.outside trivial) Entitled.frame htrue) fun now => ?_
    refine .bind (.const True) (check_triple Entitled.frame.stable htrue) fun intent => ?_
    intro w hinv hw
    obtain ⟨hnew, hentitled⟩ := hw
    obtain ⟨hoperation, hfence, hcontr, -⟩ := ExecutionIntent.new_eq_ok hnew
    have hrec : (oneConnector operationId connector).ExceptTriple n
        (Entitled operationId connector n intent.claimFence (found.operationId = operationId))
        (Attempt.store (.recordIntent intent))
        (fun recorded => Holding operationId n intent recorded) fun _ => True := by
      refine recordIntent_triple fun hop => ?_
      rw [hoperation] at hop
      exact ⟨hop, hcontr.trans (huses hop)⟩
    rw [hfence] at hrec
    refine ExceptTriple.bind (.const True) hrec (fun recorded => ?_) w hinv hentitled
    exact .pure Holding.frame.stable fun _ _ hholding => ⟨hoperation, hholding⟩

theorem callConnector_safe (intent : ExecutionIntent) :
    (oneConnector operationId connector).ExceptTriple n
      (fun w => Unexecuted operationId n w ∧ (intent.operation.operationId = operationId →
        (n, intent) ∈ firstRecords operationId w.log))
      (u.callConnector input intent) (fun _ _ => True) fun _ => True := by
  have hframe : (oneConnector operationId connector).Frame n Plain fun w =>
      Unexecuted operationId n w ∧ (intent.operation.operationId = operationId →
        (n, intent) ∈ firstRecords operationId w.log) :=
    (Unexecuted.frame.weaken fun _ hplain => hplain.harmless operationId).and
      (Frame.imp (.mem_log _ _))
  refine .bind (.const True) (check_triple hframe.stable fun _ _ => trivial) fun request => ?_
  refine .bind (Q := fun _ _ => True) (.const True) ?_ fun outcome => ?_
  · refine Triple.ask (I := ports) (c := PortCall.outside (.executeCancellable u.connector request))
      ((Stable.const _).and hframe.stable) ?_ ?_
    · intro w hinv hw reply t performs
      obtain ⟨hreq, hunexecuted, hfirst⟩ := hw
      have hintent : request.intent = intent := by
        simp only [CeremonyExecutionRequest.new, bind_eq_ok, pure_eq_ok] at hreq
        obtain ⟨_, _, _, _, rfl⟩ := hreq
        rfl
      refine ⟨?_, ?_⟩
      · by_cases hop : intent.operation.operationId = operationId
        · refine OperationKept.execute hinv (by rw [hintent, hop]) ?_ hunexecuted performs
          rw [hintent]
          exact hfirst hop
        · refine OperationKept.harmless hinv ?_ performs
          rw [← hintent] at hop
          exact hop
      · cases reply <;> trivial
    · intro reply
      cases reply <;> exact .const True
  · -- What is left after the call is plain.
    refine oneConnector_plainSafe.triple ?_ (.const True) fun _ _ => trivial
    cases outcome with
    | reconciliationRequired operationId =>
      exact .bind (recordReconciliationRequired_plain _ _) fun _ => .pure _
    | observed observation => exact .bind (recordObservation_plain _ _ _ _) fun _ => .pure _

theorem existingReceipt_then {found : ExecutionOperationId}
    (frame : (oneConnector operationId connector).Frame n Plain P)
    (h : (oneConnector operationId connector).ExceptTriple n P rest (fun _ _ => True)
      fun _ => True) :
    (oneConnector operationId connector).ExceptTriple n P
      (do
        match ← u.existingReceipt found with
        | some outcome => pure outcome
        | none => rest) (fun _ _ => True) fun _ => True := by
  refine .bind (.const True)
    (oneConnector_plainSafe.triple (u.existingReceipt_plain found) frame fun _ _ => trivial)
    fun existing => ?_
  cases existing with
  | some outcome => exact .pure frame.stable fun _ _ _ => trivial
  | none => exact h

theorem settleIntent_safe (intent : ExecutionIntent) (recorded : RecordExecutionIntentOutcome)
    (hreqs : connector.recoveryCapability = .reconciliationRequired)
    (huses : intent.operation.operationId = operationId → u.connector = connector) :
    (oneConnector operationId connector).ExceptTriple n (Holding operationId n intent recorded)
      (u.settleIntent input intent recorded) (fun _ _ => True) fun _ => True := by
  refine u.existingReceipt_then Holding.frame ?_
  refine .bind (.const True) (oneConnector_plainSafe.triple (reconciliationRequired_plain intent)
    Holding.frame fun _ _ => trivial) fun required => ?_
  cases required with
  | true => exact .pure Holding.frame.stable fun _ _ _ => trivial
  | false =>
    rw [if_neg Bool.false_ne_true]
    split
    case isTrue =>
      refine .bind (.const True) (oneConnector_plainSafe.triple (u.recordRetryAmbiguity_plain _ _)
        Holding.frame fun _ _ => trivial) fun _ => ?_
      exact .pure Holding.frame.stable fun _ _ _ => trivial
    case isFalse hcalls =>
      -- Under the one connector only a first record gets here.
      refine (u.callConnector_safe input intent).conseq (fun w _ hw => ⟨hw.1, fun hop => ?_⟩)
        fun _ _ _ h => h
      refine hw.2 hop ?_
      by_contra hrecorded
      refine hcalls ⟨hrecorded, ?_⟩
      rw [huses hop]
      exact hreqs

theorem executeCancellable_safe (cancelled : Bool)
    (hreqs : connector.recoveryCapability = .reconciliationRequired)
    (huses : ∀ found, input.candidate = .ok found → found.operationId = operationId →
      u.connector = connector) :
    (oneConnector operationId connector).ExceptTriple n
      (Entitled operationId connector n input.claimFence
        (∃ found, input.candidate = .ok found ∧ found.operationId = operationId))
      (u.executeCancellable input cancelled) (fun _ _ => True) fun _ => True := by
  have hframe : (oneConnector operationId connector).Frame n Plain
      (Entitled operationId connector n input.claimFence
        (∃ found, input.candidate = .ok found ∧ found.operationId = operationId)) := Entitled.frame
  refine .bind (.const True) (check_triple hframe.stable fun _ _ => trivial) fun _ => ?_
  refine .bind (.const True) (operation_triple oneConnector_plainSafe ((Frame.const _).and hframe)
    (fun _ _ => trivial) (.const True) input) fun found => ?_
  intro w hinv hw
  obtain ⟨hf, -, hentitled⟩ := hw
  have hframe' : (oneConnector operationId connector).Frame n Plain
      (Entitled operationId connector n input.claimFence (found.operationId = operationId)) :=
    Entitled.frame
  have hstart : Entitled operationId connector n input.claimFence
      (found.operationId = operationId) w :=
    ⟨hentitled.1, fun hop => hentitled.2 ⟨found, hf, hop⟩⟩
  refine u.existingReceipt_then hframe' ?_ w hinv hstart
  refine .bind (.const True) (oneConnector_plainSafe.triple (.store trivial) hframe'
    fun _ _ => trivial) fun existing => ?_
  refine .bind (.const True) (oneConnector_plainSafe.triple (u.priorAmbiguity_plain _ _) hframe'
    fun _ _ => trivial) fun ambiguous => ?_
  cases ambiguous with
  | true =>
    rw [if_pos rfl]
    exact u.existingReceipt_then hframe' (.pure hframe'.stable fun _ _ _ => trivial)
  | false =>
    rw [if_neg Bool.false_ne_true]
    refine .bind (.const True) (u.claimIntent_safe found input existing (huses found hf))
      fun claimed => ?_
    intro w' hinv' hw'
    obtain ⟨hoperation, hholding⟩ := hw'
    refine u.settleIntent_safe input claimed.1 claimed.2 hreqs ?_ w' hinv' hholding
    intro hop
    rw [hoperation] at hop
    exact huses found hf hop

end ExecuteCeremonyOperationUseCase

/-! ## The threads that come after the call -/

def storeFailure : Event ports WorkerInput → Option Nat
  | .called n (.store _) (.error _) => some n
  | _ => none

def storeFailures (log : AttemptLog) : List Nat := log.filterMap storeFailure

/-- The effect is accounted for: there is a receipt, or the requirement to reconcile the intent that
made the call, or the store failed the thread. -/
def Settled (operationId : ExecutionOperationId) (intent : ExecutionIntent) (n : Nat)
    (w : AttemptWorld) : Prop :=
  (∃ receipt, w.state.receipts[operationId]? = some receipt) ∨
    w.state.requirements.get2 operationId intent.claimFence = some (.fromIntent intent) ∨
    n ∈ storeFailures w.log

variable {intent : ExecutionIntent}

theorem Settled.frame :
    (oneConnector operationId connector).Frame n Plain (Settled operationId intent n) := by
  have hrcpt : (oneConnector operationId connector).Frame n Plain fun w =>
      ∃ receipt, w.state.receipts[operationId]? = some receipt := by
    refine .of_state (P := fun s : ExecutionStore => ∃ receipt,
      s.receipts[operationId]? = some receipt) ?_
    rintro s c reply t performs ⟨receipt, hs⟩
    exact ⟨receipt, (Performs.grows performs).receipts _ _ hs⟩
  have hrequirement : (oneConnector operationId connector).Frame n Plain fun w =>
      w.state.requirements.get2 operationId intent.claimFence = some (.fromIntent intent) := by
    refine .of_state (P := fun s : ExecutionStore =>
      s.requirements.get2 operationId intent.claimFence = some (.fromIntent intent)) ?_
    intro s c reply t performs hs
    exact (Performs.grows performs).requirements _ _ _ hs
  exact hrcpt.or (hrequirement.or (.mem_log _ _))

def CallMade (operationId : ExecutionOperationId) (intent : ExecutionIntent) (w : AttemptWorld) :
    Prop :=
  ∃ k, (k, intent) ∈ executions operationId w.log

/-- What the store holds once the call was made. -/
structure Producer (operationId : ExecutionOperationId) (connector : ConnectorContract)
    (intent : ExecutionIntent) (s : ExecutionStore) : Prop where
  root : s.operations[operationId]? = some intent.operation
  stored : s.intents.get2 operationId intent.claimFence = some intent
  keyed : intent.operation.operationId = operationId
  contract : intent.contract = connector

theorem OperationKept.producer (inv : OperationKept operationId connector w)
    (h : CallMade operationId intent w) : Producer operationId connector intent w.state := by
  obtain ⟨k, hk⟩ := h
  obtain ⟨hroot, hst⟩ := inv.first _ (inv.executed _ hk)
  exact ⟨hroot, hst, (inv.stored _ _ hst).2.1, inv.contract hst⟩

theorem CallMade.frame :
    (oneConnector operationId connector).Frame n Plain (CallMade operationId intent) := by
  have hmem := fun k => Frame.mem_log (D := oneConnector operationId connector) (n := n)
    (A := Plain) (execution operationId) (k, intent)
  constructor
  · rintro w w' env ⟨k, hk⟩
    exact ⟨k, (hmem k).stable w w' env hk⟩
  · rintro w c reply t hplain performs ⟨k, hk⟩
    exact ⟨k, (hmem k).own w c reply t hplain performs hk⟩

/-- A call of the store by a late thread: it failed, or it was the transaction. -/
theorem store_settles {c : StoreCall} {Q : c.Answer → AttemptWorld → Prop}
    (plain : Plain (.store c)) (frame : (oneConnector operationId connector).Frame n Plain P)
    (step : ∀ w a t, OperationKept operationId connector w → P w → w.state.run c = (.ok a, t) →
      Q a (w.call n (.store c) (.ok a) t))
    (stable : ∀ a, (oneConnector operationId connector).Stable n (Q a)) :
    (oneConnector operationId connector).ExceptTriple n P (Attempt.store c)
      (fun a w => P w ∧ Q a w) (Settled operationId intent n) := by
  refine Triple.ask (I := ports) (c := PortCall.store c) frame.stable ?_ ?_
  · intro w hinv hw reply t performs
    refine ⟨OperationKept.harmless hinv (plain.harmless operationId) performs, ?_⟩
    cases reply with
    | ok a =>
      exact ⟨frame.own w (.store c) (.ok a) t plain performs hw,
        step w a t hinv hw (Performs.run_eq performs rfl)⟩
    | error fault =>
      right
      right
      rw [World.call, storeFailures, List.filterMap_append]
      exact List.mem_append_right _ (List.mem_singleton.mpr rfl)
  · intro reply
    cases reply with
    | ok a => exact frame.stable.and (stable a)
    | error => exact Settled.frame.stable

/-- However a part of a late thread ends, the effect is accounted for. -/
def Settles (operationId : ExecutionOperationId) (connector : ConnectorContract)
    (intent : ExecutionIntent) (n : Nat) (P : AttemptWorld → Prop) {α : Type} (p : Attempt α) :
    Prop :=
  (oneConnector operationId connector).ExceptTriple n P p
    (fun _ => Settled operationId intent n) (Settled operationId intent n)

section Settles

variable {α β : Type} {p : Attempt α} {f : α → Attempt β}

theorem settled_plain (plain : p.Only Plain) :
    Settles operationId connector intent n (Settled operationId intent n) p :=
  oneConnector_plainSafe.triple plain Settled.frame fun _ h => h

/-- A first part whose answer tells whether the effect is accounted for. -/
theorem Settles.branch {S : α → Prop} (h : (oneConnector operationId connector).ExceptTriple n P p
      (fun a w => P w ∧ (S a → Settled operationId intent n w)) (Settled operationId intent n))
    (yes : ∀ a, S a → (f a).Only Plain)
    (no : ∀ a, ¬ S a → Settles operationId connector intent n P (f a)) :
    Settles operationId connector intent n P (p >>= f) :=
  .bind_known_if Settled.frame.stable h
    (fun a ha => (settled_plain (yes a ha)).conseq (fun _ _ hw => hw.2) fun _ _ _ hw => hw) no

end Settles

section Late

variable (frame : (oneConnector operationId connector).Frame n Plain P)
  {input : ExecuteCeremonyOperationInput}
include frame

theorem readReceipt_settles :
    (oneConnector operationId connector).ExceptTriple n P (Attempt.store (.receipt operationId))
      (fun stored w => P w ∧ (stored.isSome = true → Settled operationId intent n w))
      (Settled operationId intent n) := by
  refine store_settles trivial frame ?_ fun _ => (Frame.imp Settled.frame).stable
  intro w stored t _ _ hrun hsome
  obtain ⟨receipt, rfl⟩ := Option.isSome_iff_exists.mp hsome
  exact .inl ⟨receipt, (run_receipt hrun).2⟩

/-- The requirement of the intent that made the call, recorded now or before. -/
theorem recordRequirement_settles (prior : ExecutionIntent)
    (keyed : prior.operation.operationId = operationId) :
    (oneConnector operationId connector).ExceptTriple n P
      (Attempt.store (.recordReconciliationRequirement (.fromIntent prior)))
      (fun _ w => P w ∧ (prior = intent → Settled operationId intent n w))
      (Settled operationId intent n) := by
  refine store_settles trivial frame ?_ fun _ => (Frame.imp Settled.frame).stable
  rintro w _ t _ _ hrun rfl
  refine .inr (.inl ?_)
  have hst := run_recordReconciliationRequirement hrun
  rw [ExecutionReconciliationRequirement.fromIntent, keyed] at hst
  rw [ExecutionReconciliationRequirement.fromIntent, keyed]
  exact hst

/-- Either there is a receipt, or the rest of a late attempt settles the effect. -/
theorem ExecuteCeremonyOperationUseCase.existingReceipt_settles
    (u : ExecuteCeremonyOperationUseCase)
    (h : Settles operationId connector intent n P rest) :
    Settles operationId connector intent n P (do
        match ← u.existingReceipt operationId with
        | some outcome => pure outcome
        | none => rest) := by
  refine .branch (S := fun existing => existing.isSome) ?_ (fun existing hsome => ?_) ?_
  · refine .bind_known_if Settled.frame.stable (readReceipt_settles frame)
      (fun stored hsome => ?_) fun stored hnone => ?_
    · obtain ⟨receipt, rfl⟩ := Option.isSome_iff_exists.mp hsome
      exact (oneConnector_plainSafe.triple (.bind (verifyReceiptArtifacts_plain _ _)
        fun _ => .pure _) (frame.and Settled.frame) fun _ hw => hw.2).conseq (fun _ _ hw => hw)
        fun _ _ _ hw => ⟨hw.1, fun _ => hw.2⟩
    · rw [Option.not_isSome_iff_eq_none] at hnone
      subst hnone
      exact .pure frame.stable fun _ _ hw => ⟨hw, fun hfalse => absurd hfalse Bool.false_ne_true⟩
  · obtain ⟨outcome, rfl⟩ := Option.isSome_iff_exists.mp hsome
    exact .pure _
  · intro existing hnone
    rw [Option.not_isSome_iff_eq_none] at hnone
    subst hnone
    exact h

variable (keyed : intent.operation.operationId = operationId)
include keyed

/-- The requirement of the intent that made the call, through the check of its operation. -/
theorem recordReconciliationRequired_settles :
    Settles operationId connector intent n P
      (recordReconciliationRequired intent intent.operation.operationId) := by
  refine check_bind (a := ()) (by rw [require_eq_ok]) ?_
  exact (recordRequirement_settles frame intent keyed).conseq (fun _ _ hw => hw)
    fun _ _ _ hw => hw.2 rfl

variable (made : ∀ w, P w → CallMade operationId intent w)
include made

/-- A stored requirement of the intent that made the call is its own. -/
theorem reconciliationRequired_settles :
    (oneConnector operationId connector).ExceptTriple n P (reconciliationRequired intent)
      (fun required w => P w ∧ (required = true → Settled operationId intent n w))
      (Settled operationId intent n) := by
  refine .bind_known_if (T := Settled operationId intent n) (p := fun stored => stored.isSome)
    Settled.frame.stable (store_settles trivial frame ?_ fun _ => (Frame.imp Settled.frame).stable)
    (fun stored hsome => ?_) fun stored hnone => ?_
  · intro w stored t hinv hw hrun hsome
    obtain ⟨requirement, rfl⟩ := Option.isSome_iff_exists.mp hsome
    obtain ⟨hread, rfl⟩ := Prod.mk.inj hrun
    have hget := (reconciliationRequirement_eq_some.mp hread).1
    rw [keyed] at hget
    obtain ⟨producer, hprod, hm⟩ := hinv.required _ _ hget
    rw [(hinv.producer (made w hw)).stored, Option.some.injEq] at hprod
    subst hprod hm
    exact .inr (.inl hget)
  · obtain ⟨requirement, rfl⟩ := Option.isSome_iff_exists.mp hsome
    have hboth : (oneConnector operationId connector).Frame n Plain fun w =>
        P w ∧ Settled operationId intent n w := frame.and Settled.frame
    refine .bind Settled.frame.stable (check_triple hboth.stable fun _ h => h.2) fun _ => ?_
    exact .pure ((Stable.const _).and hboth.stable) fun _ _ h => ⟨h.2.1, fun _ => h.2.2⟩
  · rw [Option.not_isSome_iff_eq_none] at hnone
    subst hnone
    exact .pure frame.stable fun _ _ hw => ⟨hw, fun hfalse => absurd hfalse Bool.false_ne_true⟩

theorem operation_settles (hcand : input.candidate = .ok intent.operation) :
    (oneConnector operationId connector).ExceptTriple n P (operation input)
      (fun found w => P w ∧ found = intent.operation) (Settled operationId intent n) := by
  refine check_bind hcand (.bind_known (a := some intent.operation) Settled.frame.stable
    (store_settles trivial frame ?_ fun _ => .const _) ?_)
  · intro w stored t hinv hw hrun
    obtain ⟨hread, -⟩ := Prod.mk.inj hrun
    have hroot := (hinv.producer (made w hw)).root
    rw [← keyed] at hroot
    cases stored with
    | none =>
      have hnone := readChecked_eq_none.mp hread
      rw [hroot] at hnone
      cases hnone
    | some stored =>
      have hsome := (operation_eq_some.mp hread).1
      rw [hroot] at hsome
      exact hsome.symm
  · refine check_bind (a := ()) (by rw [require_eq_ok]) ?_
    exact .pure frame.stable fun _ _ hw => ⟨hw, rfl⟩

theorem ExecuteCeremonyOperationUseCase.executeCancellable_settles
    (u : ExecuteCeremonyOperationUseCase) (hcand : input.candidate = .ok intent.operation)
    (h : Settles operationId connector intent n P (u.claimAndExecute intent.operation input)) :
    Settles operationId connector intent n P (u.executeCancellable input false) := by
  subst keyed
  refine check_bind (a := ()) (by rw [ensureAuthority, require_eq_ok]) ?_
  exact .bind_known Settled.frame.stable (operation_settles frame rfl made hcand)
    (u.existingReceipt_settles frame h)

end Late

/-- The loop over prior intents reaches the one that made the call. -/
theorem recordEach_settles (u : ExecuteCeremonyOperationUseCase) (huses : u.connector = connector)
    (operationIdOf : ExecutionIntent → ExecutionOperationId) (intents : List ExecutionIntent)
    (hprior : ∀ prior ∈ intents, prior.operation.operationId = operationId ∧
      operationIdOf prior = operationId ∧ prior.contract = connector) :
    Settles operationId connector intent n
      (fun w => intent ∈ intents ∨ Settled operationId intent n w)
      (u.recordEach operationIdOf intents) := by
  -- Along the loop: what is left still holds the intent, or its requirement is there.
  induction intents with
  | nil =>
    refine .pure ((Frame.const _).or Settled.frame).stable fun w _ hw => ?_
    exact hw.resolve_left List.not_mem_nil
  | cons prior rest ih =>
    obtain ⟨hkeyed, hnamed, hcontr⟩ := hprior prior (List.mem_cons_self ..)
    have hframe : (oneConnector operationId connector).Frame n Plain fun w =>
        intent ∈ prior :: rest ∨ Settled operationId intent n w :=
      (Frame.const _).or Settled.frame
    have hchk : u.ensureConnectorContract prior = .ok () := by
      rw [ensureConnectorContract, require_eq_ok, hcontr, huses]
    have hname : require (operationIdOf prior = prior.operation.operationId)
        (DomainError.conflict "execution_reconciliation_requirement") = .ok () := by
      rw [require_eq_ok, hnamed, hkeyed]
    refine check_bind hchk (.bind Settled.frame.stable (check_bind hname
      (recordRequirement_settles hframe prior hkeyed)) fun _ => ?_)
    refine (ih fun prior' hmem => hprior prior' (List.mem_cons_of_mem _ hmem)).conseq ?_
      fun _ _ _ h => h
    rintro w _ ⟨hmem | hset, hown⟩
    · rcases List.mem_cons.mp hmem with heq | hmem
      · exact .inr (hown heq.symm)
      · exact .inl hmem
    · exact .inr hset

/-- After the call, a claim that was not presented before it. -/
structure Newcomer (operationId : ExecutionOperationId) (intent : ExecutionIntent)
    (claimFence : StepClaimFence) (w : AttemptWorld) : Prop where
  made : CallMade operationId intent w
  unseen : ∀ p ∈ presentedEarly operationId w.log, p.claimFence ≠ claimFence

theorem Newcomer.absent (h : Newcomer operationId intent claimFence w)
    (inv : OperationKept operationId connector w) :
    w.state.intents.get2 operationId claimFence = none := by
  by_contra hsome
  obtain ⟨stored, hst⟩ := Option.ne_none_iff_exists'.mp hsome
  obtain ⟨hfence, -, k, hrec⟩ := inv.stored _ _ hst
  exact h.unseen _ (inv.recorded _ hrec).2 hfence

theorem Newcomer.frame :
    (oneConnector operationId connector).Frame n Plain
      (Newcomer operationId intent claimFence) := by
  constructor
  · intro w w' env hw
    obtain ⟨k, hk⟩ := hw.made
    refine ⟨CallMade.frame.stable w w' env hw.made, fun p hp => hw.unseen p ?_⟩
    cases env with
    | start | call => exact presentedEarly_late _ hk ▸ hp
  · intro w c reply t hplain performs hw
    obtain ⟨k, hk⟩ := hw.made
    refine ⟨CallMade.frame.own w c reply t hplain performs hw.made, ?_⟩
    rw [World.call, presentedEarly_late _ hk]
    exact hw.unseen

namespace ExecuteCeremonyOperationUseCase

variable (u : ExecuteCeremonyOperationUseCase)

theorem settleIntent_settles (hreqs : u.connector.recoveryCapability = .reconciliationRequired)
    (keyed : intent.operation.operationId = operationId) :
    Settles operationId connector intent n (CallMade operationId intent)
      (u.settleIntent input intent .alreadyRecorded) := by
  rw [settleIntent, keyed]
  refine u.existingReceipt_settles CallMade.frame (.branch
    (reconciliationRequired_settles CallMade.frame keyed fun _ h => h) (fun required h => ?_)
    fun required h => ?_)
  · rw [if_pos h]
    exact .pure _
  · rw [if_neg h, if_pos ⟨nofun, hreqs⟩, recordRetryAmbiguity, if_pos rfl]
    refine .bind Settled.frame.stable (recordReconciliationRequired_settles CallMade.frame keyed)
      fun _ => ?_
    exact .pure Settled.frame.stable fun _ _ hw => hw

variable (huses : u.connector = connector)
  (hreqs : connector.recoveryCapability = .reconciliationRequired)
include huses hreqs

/-- A late attempt under a new claim finds the prior intents, the caller's among them. -/
theorem priorAmbiguity_settles :
    (oneConnector operationId connector).ExceptTriple n (Newcomer operationId intent claimFence)
      (u.priorAmbiguity none operationId)
      (fun ambiguous w => Settled operationId intent n w ∧ ambiguous = true)
      (Settled operationId intent n) := by
  have hframe : (oneConnector operationId connector).Frame n Plain
      (Newcomer operationId intent claimFence) := Newcomer.frame
  have hcapability : ¬ u.connector.recoveryCapability ≠ .reconciliationRequired := by
    rw [huses, hreqs]
    exact fun h => h rfl
  rw [priorAmbiguity, Option.isNone_none, if_pos rfl, recordPriorNonQueryableAmbiguity,
    if_neg hcapability]
  refine .bind (Q := fun prior w => Newcomer operationId intent claimFence w ∧
    (intent ∈ prior ∧ ∀ stored ∈ prior, stored.operation.operationId = operationId ∧
      operationId = operationId ∧ stored.contract = connector))
    Settled.frame.stable ?_ fun prior => ?_
  · refine store_settles trivial hframe ?_ fun _ => .const _
    intro w prior t hinv hw hrun
    obtain ⟨hread, -⟩ := Prod.mk.inj hrun
    refine ⟨mem_intents_ hread (hinv.producer hw.made).stored, ?_⟩
    intro stored hmem
    obtain ⟨fence, hget⟩ := exists_of_mem_intents_ hread hmem
    exact ⟨(hinv.stored _ _ hget).2.1, rfl, hinv.contract hget⟩
  · intro w hinv hw
    obtain ⟨-, hmem, hprior⟩ := hw
    refine ExceptTriple.bind Settled.frame.stable
      (recordEach_settles u huses (fun _ => operationId) prior hprior) (fun _ => ?_) w hinv
      (.inl hmem)
    refine .pure Settled.frame.stable fun _ _ hset => ⟨hset, ?_⟩
    cases prior with
    | nil => cases hmem
    | cons => rfl

/-- Under the claim that made the call, the attempt finds its intent recorded. -/
theorem claimAndExecute_settles (keyed : intent.operation.operationId = operationId)
    (hclaim : input.claimFence = intent.claimFence ∧ input.actorKind = intent.actorKind) :
    Settles operationId connector intent n (CallMade operationId intent)
      (u.claimAndExecute intent.operation input) := by
  subst keyed
  intro w hinv hmade
  have hcontr := (OperationKept.producer hinv hmade).contract
  refine ExceptTriple.bind_known (S := CallMade intent.operation.operationId intent)
    (a := some intent) Settled.frame.stable ?_ ?_ w hinv hmade
  · refine store_settles trivial CallMade.frame ?_ fun _ => .const _
    intro w existing t hinv hw hrun
    obtain ⟨hread, -⟩ := Prod.mk.inj hrun
    have hst := (hinv.producer hw).stored
    rw [hclaim.1] at hread
    cases existing with
    | none =>
      have hnone := readChecked_eq_none.mp hread
      rw [hst] at hnone
      cases hnone
    | some existing =>
      have hsome := (intent_eq_some.mp hread).1
      rw [hst] at hsome
      exact hsome.symm
  · refine .bind_known (a := false) Settled.frame.stable
      (.pure CallMade.frame.stable fun _ _ h => ⟨h, rfl⟩) ?_
    rw [if_neg Bool.false_ne_true]
    refine .bind_known (a := (intent, .alreadyRecorded)) Settled.frame.stable
      (check_bind (a := ()) ?_ (.pure CallMade.frame.stable fun _ _ h => ⟨h, rfl⟩))
      (u.settleIntent_settles input (huses ▸ hreqs) rfl)
    rw [require_eq_ok]
    exact ⟨rfl, hcontr.trans huses.symm, hclaim.2.symm⟩

/-- Under a new claim, the attempt finds no intent of its own. -/
theorem claimAndExecute_newcomer_settles (keyed : intent.operation.operationId = operationId) :
    Settles operationId connector intent n (Newcomer operationId intent input.claimFence)
      (u.claimAndExecute intent.operation input) := by
  subst keyed
  refine .bind_known (a := none) Settled.frame.stable
    (store_settles trivial Newcomer.frame ?_ fun _ => .const _) ?_
  · intro w existing t hinv hw hrun
    obtain ⟨hread, -⟩ := Prod.mk.inj hrun
    cases existing with
    | none => rfl
    | some existing =>
      have hsome := (intent_eq_some.mp hread).1
      rw [hw.absent hinv] at hsome
      cases hsome
  · refine .bind_known (a := true) Settled.frame.stable (u.priorAmbiguity_settles huses hreqs) ?_
    rw [if_pos rfl]
    refine settled_plain (.bind (u.existingReceipt_plain _) fun existing => ?_)
    cases existing <;> exact .pure _

end ExecuteCeremonyOperationUseCase

theorem late_recover_settles (u : RecoverExecutionIntentUseCase)
    (keyed : intent.operation.operationId = operationId) (huses : u.connector = connector)
    (hreqs : connector.recoveryCapability = .reconciliationRequired) :
    Settles operationId connector intent n (CallMade operationId intent) (u.execute intent) := by
  subst keyed
  intro w hinv hmade
  have hcontr := (OperationKept.producer hinv hmade).contract
  refine Settles.branch (readReceipt_settles CallMade.frame) (fun stored hsome => ?_)
    (fun stored hnone => ?_) w hinv hmade
  · obtain ⟨receipt, rfl⟩ := Option.isSome_iff_exists.mp hsome
    exact .bind (verifyReceiptArtifacts_plain _ _) fun _ => .pure _
  · rw [Option.not_isSome_iff_eq_none] at hnone
    subst hnone
    refine check_bind (a := ()) (by rw [require_eq_ok, hcontr, huses]) (Settles.branch
      (reconciliationRequired_settles CallMade.frame rfl fun _ h => h) (fun required h => ?_)
      fun required h => ?_)
    · rw [if_pos h]
      exact .pure _
    · have hcapability : intent.recoveryCapability = .reconciliationRequired := by
        rw [← hreqs, ← hcontr]
        rfl
      rw [if_neg h, if_pos hcapability]
      refine .bind Settled.frame.stable ((recordRequirement_settles CallMade.frame intent
        rfl).conseq (fun _ _ hw => hw) fun _ _ _ hw => hw.2 rfl) fun _ => ?_
      exact .pure Settled.frame.stable fun _ _ hw => hw

end OneConnector

end Made
