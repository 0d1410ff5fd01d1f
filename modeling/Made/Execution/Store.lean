import Made.Execution.Values

/-!
# The execution store

Operations, intents, requirements and receipts, as the SQLite adapter keeps them: every operation of
the store is one transaction, reads check that a value stands under its own key, and nothing is ever
changed or removed.  The operation root is the serialization point: only one record of an intent
finds it absent.
-/

namespace Made

open Outcome

inductive RecordExecutionIntentOutcome where
  | recordedFirst
  | recordedAdditional
  | alreadyRecorded
deriving DecidableEq, Repr

inductive RecordExecutionReceiptOutcome where
  | recorded
  | alreadyRecorded
deriving DecidableEq, Repr

/-- The tables of the store.  Intents and requirements stand under an operation and a fence, in the
order of the fences. -/
structure ExecutionStore where
  operations : Map ExecutionOperationId ExecutionOperation
  intents : Map ExecutionOperationId (Map StepClaimFence ExecutionIntent)
  requirements : Map ExecutionOperationId (Map StepClaimFence ExecutionReconciliationRequirement)
  receipts : Map ExecutionOperationId ExecutionReceipt

def Map.get2 {κ κ' ν : Type} [Ord κ] [Std.TransOrd κ] [Ord κ'] [Std.TransOrd κ']
    (map : Map κ (Map κ' ν)) (k : κ) (k' : κ') : Option ν :=
  map[k]?.bind fun inner => inner[k']?

def Map.insert2 {κ κ' ν : Type} [Ord κ] [Std.TransOrd κ] [Ord κ'] [Std.TransOrd κ']
    (map : Map κ (Map κ' ν)) (k : κ) (k' : κ') (v : ν) : Map κ (Map κ' ν) :=
  map.insert k ((map[k]?.getD ∅).insert k' v)

section get2

variable {κ κ' ν : Type} [Ord κ] [Std.TransOrd κ] [Std.LawfulEqOrd κ] [Ord κ'] [Std.TransOrd κ']
  [Std.LawfulEqOrd κ'] {map : Map κ (Map κ' ν)} {k j : κ} {k' j' : κ'} {v : ν}

theorem Map.get2_insert2_self : (map.insert2 k k' v).get2 k k' = some v := by
  simp [Map.get2, Map.insert2]

theorem Map.get2_insert2_of_ne (h : ¬ (j = k ∧ j' = k')) :
    (map.insert2 k k' v).get2 j j' = map.get2 j j' := by
  unfold Map.get2 Map.insert2
  by_cases hj : j = k
  · subst hj
    have hj' : j' ≠ k' := fun heq => h ⟨rfl, heq⟩
    rw [Std.ExtTreeMap.getElem?_insert_self, Option.bind_some, Map.getElem?_insert_of_ne hj']
    cases map[j]? with
    | none => simp
    | some inner => rfl
  · rw [Map.getElem?_insert_of_ne hj]

theorem Map.getElem?_insert_of_absent {κ ν : Type} [Ord κ] [Std.TransOrd κ] [Std.LawfulEqOrd κ]
    {map : Map κ ν} {key other : κ} {value stored : ν} (absent : map[key]? = none)
    (h : map[other]? = some stored) : (map.insert key value)[other]? = some stored := by
  rw [Map.getElem?_insert_of_ne]
  · exact h
  · rintro rfl
    rw [absent] at h
    cases h

theorem Map.get2_insert2_of_absent {value stored : ν} (absent : map.get2 k k' = none)
    (h : map.get2 j j' = some stored) : (map.insert2 k k' value).get2 j j' = some stored := by
  rw [Map.get2_insert2_of_ne]
  · exact h
  · rintro ⟨rfl, rfl⟩
    rw [absent] at h
    cases h

end get2

namespace ExecutionStore

def empty : ExecutionStore := ⟨∅, ∅, ∅, ∅⟩

variable (s : ExecutionStore)

/-! ## Reads -/

def readChecked {α : Type} (stored : Option α) (check : α → Result Unit) : Result (Option α) :=
  match stored with
  | none => .ok none
  | some a => do
    check a
    pure (some a)

theorem readChecked_eq_some {α : Type} {stored : Option α} {check : α → Result Unit} {a : α} :
    readChecked stored check = .ok (some a) ↔ stored = some a ∧ check a = .ok () := by
  cases stored with
  | none => simp [readChecked]
  | some b =>
    simp only [readChecked, bind_eq_ok, pure_eq_ok, Option.some.injEq]
    constructor
    · rintro ⟨_, hchk, rfl⟩
      exact ⟨rfl, hchk⟩
    · rintro ⟨rfl, hchk⟩
      exact ⟨(), hchk, rfl⟩

theorem readChecked_eq_none {α : Type} {stored : Option α} {check : α → Result Unit} :
    readChecked stored check = .ok none ↔ stored = none := by
  cases stored with
  | none => simp [readChecked]
  | some b =>
    rw [readChecked, bind_eq_ok]
    simp

def operation (operationId : ExecutionOperationId) : Result (Option ExecutionOperation) :=
  readChecked s.operations[operationId]? fun stored =>
    require (stored.operationId = operationId)
      (.invariantViolated "sqlite: execution operation key does not match its value")

def intent (operationId : ExecutionOperationId) (claimFence : StepClaimFence) :
    Result (Option ExecutionIntent) :=
  readChecked (s.intents.get2 operationId claimFence) fun stored =>
    require (stored.operation.operationId = operationId ∧ stored.claimFence = claimFence)
      (.invariantViolated "sqlite: execution intent key does not match its value")

def receipt (operationId : ExecutionOperationId) : Result (Option ExecutionReceipt) :=
  readChecked s.receipts[operationId]? fun stored => do
    stored.validate
    require (stored.operationId = operationId)
      (.invariantViolated "sqlite: execution receipt key does not match its value")

def reconciliationRequirement (operationId : ExecutionOperationId) (claimFence : StepClaimFence) :
    Result (Option ExecutionReconciliationRequirement) :=
  readChecked (s.requirements.get2 operationId claimFence) fun stored =>
    require (stored.operationId = operationId ∧ stored.producerClaimFence = claimFence)
      (.invariantViolated
        "sqlite: execution reconciliation requirement key does not match its value")

/-- All intents of an operation, in the order of their fences. -/
def intents_ (operationId : ExecutionOperationId) : Result (List ExecutionIntent) := do
  let stored := (s.intents[operationId]?.getD ∅).inOrder
  require (∀ intent ∈ stored, intent.operation.operationId = operationId)
    (.invariantViolated "sqlite: execution intent range contains another operation")
  pure stored

/-! ## Writes -/

/-- Whether an operation is new, stored as it is, or stored with another request. -/
def intentOutcome (stored : Option ExecutionOperation) (operation : ExecutionOperation) :
    Result RecordExecutionIntentOutcome :=
  match stored with
  | some stored =>
    if stored ≠ operation then refuse (.conflict "execution_operation")
    else .ok .recordedAdditional
  | none => .ok .recordedFirst

def recordIntent (toRecord : ExecutionIntent) :
    Result (RecordExecutionIntentOutcome × ExecutionStore) := do
  let operationId := toRecord.operation.operationId
  let storedOperation ← s.operation operationId
  let outcome ← intentOutcome storedOperation toRecord.operation
  match ← s.intent operationId toRecord.claimFence with
  | some stored =>
    if stored = toRecord then pure (.alreadyRecorded, s)
    else refuse (.conflict "execution_intent")
  | none =>
    pure (outcome,
      { s with
        operations :=
          if storedOperation.isNone then s.operations.insert operationId toRecord.operation
          else s.operations
        intents := s.intents.insert2 operationId toRecord.claimFence toRecord })

def recordReconciliationRequirement (requirement : ExecutionReconciliationRequirement) :
    Result (Unit × ExecutionStore) := do
  let producer ← s.intent requirement.operationId requirement.producerClaimFence
  let producer ← okOr producer (.notFound "execution_intent")
  require (requirement.matchesIntent producer = true)
    (.conflict "execution_reconciliation_requirement")
  match ← s.reconciliationRequirement requirement.operationId requirement.producerClaimFence with
  | some stored =>
    if stored = requirement then pure ((), s)
    else refuse (.conflict "execution_reconciliation_requirement")
  | none =>
    pure ((), { s with
      requirements :=
        s.requirements.insert2 requirement.operationId requirement.producerClaimFence requirement })

def recordReceipt (toRecord : ExecutionReceipt) :
    Result (RecordExecutionReceiptOutcome × ExecutionStore) := do
  toRecord.validate
  let storedOperation ← s.operation toRecord.operationId
  let storedOperation ← okOr storedOperation (.notFound "execution_operation")
  let producer ← s.intent toRecord.operationId toRecord.producerClaimFence
  let producer ← okOr producer
    (.invariantViolated "execution receipt does not match a recorded intent")
  require
    (storedOperation.requestDigest = toRecord.requestDigest ∧ producer.contract = toRecord.contract)
    (.invariantViolated "execution receipt does not match its producer intent contract")
  match ← s.receipt toRecord.operationId with
  | some stored =>
    if stored = toRecord then pure (.alreadyRecorded, s)
    else refuse (.conflict "execution_receipt")
  | none =>
    pure (.recorded, { s with receipts := s.receipts.insert toRecord.operationId toRecord })

end ExecutionStore

/-! ## Calls -/

/-- The operations of `ExecutionReceiptStorePort` that the use cases call. -/
inductive StoreCall where
  | recordIntent (intent : ExecutionIntent)
  | intent (operationId : ExecutionOperationId) (claimFence : StepClaimFence)
  | intents (operationId : ExecutionOperationId)
  | operation (operationId : ExecutionOperationId)
  | receipt (operationId : ExecutionOperationId)
  | recordReconciliationRequirement (requirement : ExecutionReconciliationRequirement)
  | reconciliationRequirement (operationId : ExecutionOperationId) (claimFence : StepClaimFence)
  | recordReceipt (receipt : ExecutionReceipt)

abbrev StoreCall.Answer : StoreCall → Type
  | recordIntent _ => RecordExecutionIntentOutcome
  | intent _ _ => Option ExecutionIntent
  | intents _ => List ExecutionIntent
  | operation _ => Option ExecutionOperation
  | receipt _ => Option ExecutionReceipt
  | recordReconciliationRequirement _ => Unit
  | reconciliationRequirement _ _ => Option ExecutionReconciliationRequirement
  | recordReceipt _ => RecordExecutionReceiptOutcome

namespace ExecutionStore

variable {intent : ExecutionIntent} {requirement : ExecutionReconciliationRequirement}
    {outcome : RecordExecutionReceiptOutcome}

def commit {α : Type} (s : ExecutionStore) : Result (α × ExecutionStore) → Result α × ExecutionStore
  | .ok (a, t) => (.ok a, t)
  | .error e => (.error e, s)

/-- One call of the store: its answer, and the store after it. -/
def run (s : ExecutionStore) : (c : StoreCall) → Result c.Answer × ExecutionStore
  | .recordIntent intent => s.commit (s.recordIntent intent)
  | .intent operationId claimFence => (s.intent operationId claimFence, s)
  | .intents operationId => (s.intents_ operationId, s)
  | .operation operationId => (s.operation operationId, s)
  | .receipt operationId => (s.receipt operationId, s)
  | .recordReconciliationRequirement requirement =>
    s.commit (s.recordReconciliationRequirement requirement)
  | .reconciliationRequirement operationId claimFence =>
    (s.reconciliationRequirement operationId claimFence, s)
  | .recordReceipt receipt => s.commit (s.recordReceipt receipt)

/-! ## What the answers say -/

variable {s t : ExecutionStore} {operationId : ExecutionOperationId} {claimFence : StepClaimFence}

theorem operation_eq_some {stored : ExecutionOperation} :
    s.operation operationId = .ok (some stored) ↔
      s.operations[operationId]? = some stored ∧ stored.operationId = operationId := by
  rw [operation, readChecked_eq_some, require_eq_ok]

theorem intent_eq_some {stored : ExecutionIntent} :
    s.intent operationId claimFence = .ok (some stored) ↔
      s.intents.get2 operationId claimFence = some stored ∧
        stored.operation.operationId = operationId ∧ stored.claimFence = claimFence := by
  rw [intent, readChecked_eq_some, require_eq_ok]

theorem receipt_eq_some {stored : ExecutionReceipt} :
    s.receipt operationId = .ok (some stored) ↔
      s.receipts[operationId]? = some stored ∧ stored.validate = .ok () ∧
        stored.operationId = operationId := by
  rw [receipt, readChecked_eq_some, bind_eq_ok]
  simp only [require_eq_ok]
  constructor
  · rintro ⟨hget, _, hval, hkey⟩
    exact ⟨hget, hval, hkey⟩
  · rintro ⟨hget, hval, hkey⟩
    exact ⟨hget, (), hval, hkey⟩

theorem reconciliationRequirement_eq_some {stored : ExecutionReconciliationRequirement} :
    s.reconciliationRequirement operationId claimFence = .ok (some stored) ↔
      s.requirements.get2 operationId claimFence = some stored ∧
        stored.operationId = operationId ∧ stored.producerClaimFence = claimFence := by
  rw [reconciliationRequirement, readChecked_eq_some, require_eq_ok]

theorem mem_intents_ {stored : List ExecutionIntent} (h : s.intents_ operationId = .ok stored)
    (hget : s.intents.get2 operationId claimFence = some intent) : intent ∈ stored := by
  simp only [intents_, bind_eq_ok, require_eq_ok, pure_eq_ok, exists_const] at h
  obtain ⟨-, rfl⟩ := h
  unfold Map.get2 at hget
  obtain ⟨inner, hinner, hget⟩ := Option.bind_eq_some_iff.mp hget
  rw [hinner, Option.getD_some]
  exact Map.mem_inOrder.mpr ⟨claimFence, hget⟩

theorem exists_of_mem_intents_ {stored : List ExecutionIntent}
    (h : s.intents_ operationId = .ok stored) (hmem : intent ∈ stored) :
    ∃ claimFence, s.intents.get2 operationId claimFence = some intent := by
  simp only [intents_, bind_eq_ok, require_eq_ok, pure_eq_ok, exists_const] at h
  obtain ⟨-, rfl⟩ := h
  obtain ⟨claimFence, hget⟩ := Map.mem_inOrder.mp hmem
  refine ⟨claimFence, ?_⟩
  unfold Map.get2
  cases hinner : s.intents[operationId]? with
  | none =>
    rw [hinner] at hget
    simp at hget
  | some inner =>
    rw [hinner] at hget
    exact hget

inductive IntentRecorded (s : ExecutionStore) (intent : ExecutionIntent) :
    RecordExecutionIntentOutcome → ExecutionStore → Prop where
  | first (root : s.operations[intent.operation.operationId]? = none)
      (absent : s.intents.get2 intent.operation.operationId intent.claimFence = none) :
      IntentRecorded s intent .recordedFirst
        { s with
          operations := s.operations.insert intent.operation.operationId intent.operation
          intents := s.intents.insert2 intent.operation.operationId intent.claimFence intent }
  | additional (root : s.operations[intent.operation.operationId]? = some intent.operation)
      (absent : s.intents.get2 intent.operation.operationId intent.claimFence = none) :
      IntentRecorded s intent .recordedAdditional
        { s with
          intents := s.intents.insert2 intent.operation.operationId intent.claimFence intent }
  | already (stored : s.intents.get2 intent.operation.operationId intent.claimFence = some intent) :
      IntentRecorded s intent .alreadyRecorded s

theorem recordIntent_eq_ok {outcome : RecordExecutionIntentOutcome}
    (h : s.recordIntent intent = .ok (outcome, t)) : IntentRecorded s intent outcome t := by
  simp only [recordIntent, bind_eq_ok] at h
  obtain ⟨storedOperation, hop, outcome', hout, stored, hst, h⟩ := h
  cases stored with
  | some stored =>
    dsimp only at h
    split at h
    case isTrue heq =>
      subst heq
      cases h
      exact .already (intent_eq_some.mp hst).1
    case isFalse => simp at h
  | none =>
    have habsent := readChecked_eq_none.mp hst
    cases storedOperation with
    | none =>
      cases hout
      cases h
      exact .first (readChecked_eq_none.mp hop) habsent
    | some storedOperation =>
      unfold intentOutcome at hout
      split at hout
      case h_2 heq => cases heq
      case h_1 stored heq =>
        cases heq
        split at hout
        case isTrue => simp at hout
        case isFalse hsame =>
          rw [ne_eq, not_not] at hsame
          subst hsame
          cases hout
          cases h
          exact .additional (operation_eq_some.mp hop).1 habsent

inductive RequirementRecorded (s : ExecutionStore)
    (requirement : ExecutionReconciliationRequirement) : ExecutionStore → Prop where
  | recorded (producer : ExecutionIntent)
      (stored : s.intents.get2 requirement.operationId requirement.producerClaimFence =
        some producer) (matched : requirement = .fromIntent producer)
      (absent : s.requirements.get2 requirement.operationId requirement.producerClaimFence = none) :
      RequirementRecorded s requirement
        { s with
          requirements := s.requirements.insert2 requirement.operationId
            requirement.producerClaimFence requirement }
  | already (stored : s.requirements.get2 requirement.operationId requirement.producerClaimFence =
        some requirement) : RequirementRecorded s requirement s

theorem recordReconciliationRequirement_eq_ok {u : Unit}
    (h : s.recordReconciliationRequirement requirement = .ok (u, t)) :
    RequirementRecorded s requirement t := by
  simp only [recordReconciliationRequirement, bind_eq_ok, okOr_eq_ok,
    require_eq_ok, exists_const, ExecutionReconciliationRequirement.matchesIntent,
    decide_eq_true_eq] at h
  obtain ⟨_, hprod, producer, rfl, hmatched, stored, hst, h⟩ := h
  cases stored with
  | some stored =>
    dsimp only at h
    split at h
    case isTrue heq =>
      subst heq
      cases h
      exact .already (reconciliationRequirement_eq_some.mp hst).1
    case isFalse => simp at h
  | none =>
    cases h
    exact .recorded producer (intent_eq_some.mp hprod).1 hmatched (readChecked_eq_none.mp hst)

theorem RequirementRecorded.stored (h : RequirementRecorded s requirement t) :
    t.requirements.get2 requirement.operationId requirement.producerClaimFence =
      some requirement := by
  cases h with
  | recorded => exact Map.get2_insert2_self
  | already stored => exact stored

theorem run_recordReconciliationRequirement {u : Unit}
    (h : s.run (.recordReconciliationRequirement requirement) = (.ok u, t)) :
    t.requirements.get2 requirement.operationId requirement.producerClaimFence =
      some requirement := by
  rw [run] at h
  cases hrec : s.recordReconciliationRequirement requirement with
  | error fault =>
    rw [hrec] at h
    cases h
  | ok pair =>
    rw [hrec] at h
    obtain ⟨-, rfl⟩ := Prod.mk.inj h
    exact (recordReconciliationRequirement_eq_ok hrec).stored

inductive ReceiptRecorded (s : ExecutionStore) (receipt : ExecutionReceipt) :
    RecordExecutionReceiptOutcome → ExecutionStore → Prop where
  | recorded (absent : s.receipts[receipt.operationId]? = none) :
      ReceiptRecorded s receipt .recorded
        { s with receipts := s.receipts.insert receipt.operationId receipt }
  | already (stored : s.receipts[receipt.operationId]? = some receipt) :
      ReceiptRecorded s receipt .alreadyRecorded s

theorem recordReceipt_eq_ok {receipt : ExecutionReceipt}
    (h : s.recordReceipt receipt = .ok (outcome, t)) : ReceiptRecorded s receipt outcome t := by
  simp only [recordReceipt, bind_eq_ok, okOr_eq_ok, require_eq_ok, exists_const] at h
  obtain ⟨_, _, _, _, _, _, _, _, _, _, _, stored, hst, h⟩ := h
  cases stored with
  | some stored =>
    dsimp only at h
    split at h
    case isTrue heq =>
      subst heq
      cases h
      exact .already (receipt_eq_some.mp hst).1
    case isFalse => simp at h
  | none =>
    cases h
    exact .recorded (readChecked_eq_none.mp hst)

/-! ## Nothing stored is lost -/

/-- Everything stored stays stored, under the same keys. -/
structure Grows (s t : ExecutionStore) : Prop where
  operations : ∀ (id : ExecutionOperationId) (stored : ExecutionOperation),
    s.operations[id]? = some stored → t.operations[id]? = some stored
  intents : ∀ (id : ExecutionOperationId) (fence : StepClaimFence) (stored : ExecutionIntent),
    s.intents.get2 id fence = some stored → t.intents.get2 id fence = some stored
  requirements : ∀ (id : ExecutionOperationId) (fence : StepClaimFence)
    (stored : ExecutionReconciliationRequirement),
    s.requirements.get2 id fence = some stored → t.requirements.get2 id fence = some stored
  receipts : ∀ (id : ExecutionOperationId) (stored : ExecutionReceipt),
    s.receipts[id]? = some stored → t.receipts[id]? = some stored

theorem Grows.refl (s : ExecutionStore) : Grows s s :=
  ⟨fun _ _ h => h, fun _ _ _ h => h, fun _ _ _ h => h, fun _ _ h => h⟩

theorem Grows.trans {s t u : ExecutionStore} (h : Grows s t) (h' : Grows t u) : Grows s u where
  operations id stored hs := h'.operations id stored (h.operations id stored hs)
  intents id fence stored hs := h'.intents id fence stored (h.intents id fence stored hs)
  requirements id fence stored hs :=
    h'.requirements id fence stored (h.requirements id fence stored hs)
  receipts id stored hs := h'.receipts id stored (h.receipts id stored hs)

theorem IntentRecorded.grows {outcome : RecordExecutionIntentOutcome}
    (h : IntentRecorded s intent outcome t) : Grows s t := by
  cases h with
  | first root absent =>
    exact ⟨fun _ _ => Map.getElem?_insert_of_absent root,
      fun _ _ _ => Map.get2_insert2_of_absent absent, fun _ _ _ h => h, fun _ _ h => h⟩
  | additional root absent =>
    exact ⟨fun _ _ h => h, fun _ _ _ => Map.get2_insert2_of_absent absent, fun _ _ _ h => h,
      fun _ _ h => h⟩
  | already => exact .refl s

theorem RequirementRecorded.grows (h : RequirementRecorded s requirement t) : Grows s t := by
  cases h with
  | recorded producer stored matched absent =>
    exact ⟨fun _ _ h => h, fun _ _ _ h => h, fun _ _ _ => Map.get2_insert2_of_absent absent,
      fun _ _ h => h⟩
  | already => exact .refl s

theorem ReceiptRecorded.grows {receipt : ExecutionReceipt}
    (h : ReceiptRecorded s receipt outcome t) :
    Grows s t := by
  cases h with
  | recorded absent =>
    exact ⟨fun _ _ h => h, fun _ _ _ h => h, fun _ _ _ h => h,
      fun _ _ => Map.getElem?_insert_of_absent absent⟩
  | already => exact .refl s

end ExecutionStore

end Made
