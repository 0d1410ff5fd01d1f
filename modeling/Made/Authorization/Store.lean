import Made.Authorization.Policy
import Made.Library.Interleaving

/-!
# The stores of a policy

A policy is stored as the list of its events, under optimistic concurrency: an append names the
version it was decided at.  In memory the list is folded for every call.  In SQLite the decisions
have a table of their own, unique by request, and the policy is folded from the other events.
-/

namespace Made

open Interleaving Outcome

structure AuthorizationPolicySnapshot where
  version : AuthorizationPolicyVersion
  policy : AuthorizationPolicy

inductive AuthorizationPolicyAppendOutcome where
  | appended (version : AuthorizationPolicyVersion)
  | conflict (expected actual : AuthorizationPolicyVersion)
deriving DecidableEq

def validateEvents (policyId : AuthorizationPolicyId) (events : List AuthorizationPolicyEvent) :
    Result Unit := do
  require (events ≠ []) (.emptyCollection "authorization_policy_events")
  require (events.all (fun event => event.policyId = policyId) = true)
    (.invariantViolated "authorization append contains an event for another policy")

/-! ## In memory -/

structure MemoryPolicies where
  streams : Map AuthorizationPolicyId (List AuthorizationPolicyEvent)

/-- The first decision that matches; every decision on the way to it is validated. -/
def findDecision (enc : DecisionEncoding) (matches_ : AuthorizationDecision → Bool) :
    List AuthorizationPolicyEvent → Result (Option AuthorizationDecision)
  | [] => .ok none
  | .decisionRecorded _ decision :: rest => do
    decision.validate enc
    if matches_ decision then pure (some decision) else findDecision enc matches_ rest
  | _ :: rest => findDecision enc matches_ rest

variable (enc : DecisionEncoding)

namespace MemoryPolicies

def empty : MemoryPolicies := ⟨∅⟩

def load (s : MemoryPolicies) (policyId : AuthorizationPolicyId) :
    Result (Option AuthorizationPolicySnapshot) :=
  match s.streams[policyId]? with
  | none => .ok none
  | some events => do
    let policy ← AuthorizationPolicy.rehydrate enc events
    pure (some ⟨policy.version, policy⟩)

/-- The entry of a policy is there from the first append on, accepted or not. -/
def append (s : MemoryPolicies) (policyId : AuthorizationPolicyId)
    (expected : AuthorizationPolicyVersion) (events : List AuthorizationPolicyEvent) :
    Result AuthorizationPolicyAppendOutcome × MemoryPolicies :=
  match validateEvents policyId events with
  | .error fault => (.error fault, s)
  | .ok () =>
    let stored := (s.streams[policyId]?).getD []
    let entered : MemoryPolicies := ⟨s.streams.insert policyId stored⟩
    if stored.length ≠ expected then
      (.ok (.conflict expected stored.length), entered)
    else
      let candidate := stored ++ events
      match AuthorizationPolicy.rehydrate enc candidate with
      | .error fault => (.error fault, entered)
      | .ok _ =>
        (.ok (.appended candidate.length), ⟨s.streams.insert policyId candidate⟩)

def find (s : MemoryPolicies) (policyId : AuthorizationPolicyId)
    (matches_ : AuthorizationDecision → Bool) : Result (Option AuthorizationDecision) :=
  match s.streams[policyId]? with
  | none => .ok none
  | some events => findDecision enc matches_ events.reverse

def decision (enc : DecisionEncoding) (s : MemoryPolicies) (policyId : AuthorizationPolicyId)
    (decisionId : AuthorizationDecisionId) : Result (Option AuthorizationDecision) :=
  s.find enc policyId fun decision => decision.id = decisionId

def decisionForRequest (s : MemoryPolicies) (policyId : AuthorizationPolicyId)
    (requestId : AuthorizationRequestId) : Result (Option AuthorizationDecision) :=
  s.find enc policyId fun decision => decision.request.id = requestId

end MemoryPolicies

/-! ## Projections -/

namespace AuthorizationPolicy

/-- The fold of an event whose authorities were read elsewhere; a decision leaves no trace but the
version. -/
def applyProjectedWithAuthorities (p : AuthorizationPolicy) (event : AuthorizationPolicyEvent)
    (approval accepted : Option AuthorizationDecision) : Result AuthorizationPolicy :=
  match event with
  | .decisionRecorded policyId decision => do
    require (p.id = some policyId)
      (.invariantViolated "authorization event belongs to another policy")
    decision.validate enc
    require (decision.policyVersion = p.version.next)
      (.invariantViolated "authorization decision carries the wrong policy version")
    require (p.decisionAuthorityIsValidWithAuthorities decision approval accepted = true)
      (.invariantViolated "stored authorization decision contradicts the active policy")
    pure { p with version := p.version.next }
  | event => p.apply enc event

def restoreVersion (p : AuthorizationPolicy) (version : AuthorizationPolicyVersion) :
    Result AuthorizationPolicy := do
  require (p.version ≤ version)
    (.invariantViolated "authorization projection version precedes its state")
  pure { p with version }

end AuthorizationPolicy

/-! ## In SQLite -/

structure DecisionRow where
  requestId : AuthorizationRequestId
  payload : AuthorizationDecision

/-- The rows of one policy: its events by version, its decisions by id, and its projection, which
leaves the decisions out. -/
structure PolicyRows where
  events : Map AuthorizationPolicyVersion AuthorizationPolicyEvent
  decisions : Map AuthorizationDecisionId DecisionRow
  state : Option (AuthorizationPolicyVersion × List AuthorizationPolicyEvent)

structure SqlitePolicies where
  policies : Map AuthorizationPolicyId PolicyRows

def AuthorizationPolicyEvent.isDecision : AuthorizationPolicyEvent → Bool
  | .decisionRecorded _ _ => true
  | _ => false

namespace PolicyRows

def empty : PolicyRows := ⟨∅, ∅, none⟩

def contiguous (policyId : AuthorizationPolicyId) :
    Nat → List (AuthorizationPolicyVersion × AuthorizationPolicyEvent) →
      Result (List AuthorizationPolicyEvent)
  | _, [] => .ok []
  | index, (version, event) :: rest => do
    require (index + 1 ≤ i64Max) (.invariantViolated "authorization policy version exceeds i64")
    require (version = index + 1)
      (.invariantViolated "authorization policy journal has a non-contiguous version")
    require (event.policyId = policyId)
      (.invariantViolated "authorization event payload belongs to another policy")
    let events ← contiguous policyId (index + 1) rest
    pure (event :: events)

variable (rows : PolicyRows)

def loadEvents (policyId : AuthorizationPolicyId) : Result (List AuthorizationPolicyEvent) :=
  contiguous policyId 0 rows.events.toList

def projectedPolicy (events : List AuthorizationPolicyEvent)
    (version : AuthorizationPolicyVersion) : Result AuthorizationPolicy := do
  let policy ← AuthorizationPolicy.rehydrate enc events
  policy.restoreVersion version

def loadSnapshot (policyId : AuthorizationPolicyId) : Result (Option AuthorizationPolicySnapshot) :=
  match rows.state with
  | some (version, events) => do
    let policy ← projectedPolicy enc events version
    pure (some ⟨version, policy⟩)
  | none => do
    let events ← rows.loadEvents policyId
    if events = [] then
      pure none
    else do
      let policy ← AuthorizationPolicy.rehydrate enc events
      pure (some ⟨policy.version, policy⟩)

/-- The policy without its decisions, the events it is folded from, and the version. -/
def loadProjection (policyId : AuthorizationPolicyId) :
    Result (AuthorizationPolicy × List AuthorizationPolicyEvent × AuthorizationPolicyVersion) :=
  match rows.state with
  | some (version, events) => do
    let policy ← projectedPolicy enc events version
    pure (policy, events, version)
  | none => do
    let events ← rows.loadEvents policyId
    if events = [] then
      pure (.empty, [], 0)
    else do
      let policy ← AuthorizationPolicy.rehydrate enc events
      let kept := events.filter fun event => !event.isDecision
      let projected ← projectedPolicy enc kept policy.version
      pure (projected, kept, policy.version)

def readRow (storedId : AuthorizationDecisionId) (row : DecisionRow) :
    Result AuthorizationDecision := do
  row.payload.validate enc
  require (row.payload.id = storedId ∧ row.payload.request.id = row.requestId)
    (.invariantViolated "authorization decision projection keys contradict its payload")
  pure row.payload

def decision (decisionId : AuthorizationDecisionId) : Result (Option AuthorizationDecision) :=
  match rows.decisions[decisionId]? with
  | none => .ok none
  | some row => some <$> readRow enc decisionId row

def decisionForRequest
    (requestId : AuthorizationRequestId) : Result (Option AuthorizationDecision) :=
  match rows.decisions.toList.find? fun (_, row) => row.requestId = requestId with
  | none => .ok none
  | some (storedId, row) => some <$> readRow enc storedId row

def authority : Option AuthorizationDecisionId → Result (Option AuthorizationDecision)
  | none => .ok none
  | some id => rows.decision enc id

end PolicyRows

/-- The decisions a new decision rests on: its approval, and the work it continues. -/
def AuthorizationPolicyEvent.authorities :
    AuthorizationPolicyEvent → Option AuthorizationDecisionId × Option AuthorizationDecisionId
  | .decisionRecorded _ decision =>
    (decision.request.approvalDecisionId, decision.request.acceptedWorkDecisionId)
  | _ => (none, none)

def sqliteBackendFailed : DomainError :=
  .invariantViolated "sqlite: authorization persistence backend failed"

/-- A transaction: the rows as it has written them, and the projection it will save. -/
structure PolicyTransaction where
  policy : AuthorizationPolicy
  version : AuthorizationPolicyVersion
  rows : PolicyRows
  state : List AuthorizationPolicyEvent

variable (writable : AuthorizationPolicyEvent → Bool)

namespace PolicyTransaction

/-- File one event; there is no transaction to go on with where its request has been decided. -/
def file (t : PolicyTransaction)
    (event : AuthorizationPolicyEvent) : Result (Option PolicyTransaction) := do
  let approval ← t.rows.authority enc event.authorities.1
  let accepted ← t.rows.authority enc event.authorities.2
  let policy ← t.policy.applyProjectedWithAuthorities enc event approval accepted
  let version := t.version.next
  require (version ≤ i64Max) (.invariantViolated "authorization SQLite integer exceeds i64")
  require (writable event = true) (.invariantViolated "authorization SQLite encoding failed")
  -- PRIMARY KEY(policy_id, version)
  require (t.rows.events[version]? = none) sqliteBackendFailed
  let rows := { t.rows with events := t.rows.events.insert version event }
  match event with
  | .decisionRecorded _ decision =>
    -- UNIQUE(policy_id, request_id)
    if rows.decisions.toList.any fun (_, row) => row.requestId = decision.request.id then
      pure none
    else do
      -- PRIMARY KEY(policy_id, decision_id)
      require (rows.decisions[decision.id]? = none) sqliteBackendFailed
      let decisions := rows.decisions.insert decision.id ⟨decision.request.id, decision⟩
      pure (some { t with policy, version, rows := { rows with decisions } })
  | event => pure (some { policy, version, rows, state := t.state ++ [event] })

def fileAll (enc : DecisionEncoding) (writable : AuthorizationPolicyEvent → Bool) :
    PolicyTransaction → List AuthorizationPolicyEvent → Result (Option PolicyTransaction)
  | t, [] => .ok (some t)
  | t, event :: rest => do
    match ← t.file enc writable event with
    | none => pure none
    | some t => fileAll enc writable t rest

def saveState (t : PolicyTransaction) : Result PolicyRows := do
  require (t.version ≤ i64Max) (.invariantViolated "authorization SQLite integer exceeds i64")
  require (t.state.all writable = true) (.invariantViolated "authorization SQLite encoding failed")
  pure { t.rows with state := some (t.version, t.state) }

end PolicyTransaction

namespace SqlitePolicies

def empty : SqlitePolicies := ⟨∅⟩

def rows (s : SqlitePolicies) (policyId : AuthorizationPolicyId) : PolicyRows :=
  (s.policies[policyId]?).getD .empty

/-- What a transaction commits, or why it is rolled back. -/
def appendEvents (rows : PolicyRows) (policyId : AuthorizationPolicyId)
    (expected : AuthorizationPolicyVersion) (events : List AuthorizationPolicyEvent) :
    Result (AuthorizationPolicyAppendOutcome × Option PolicyRows) := do
  validateEvents policyId events
  let (policy, state, actual) ← rows.loadProjection enc policyId
  if actual ≠ expected then
    pure (.conflict expected actual, none)
  else do
    match ← PolicyTransaction.fileAll enc writable ⟨policy, expected, rows, state⟩ events with
    | none => pure (.conflict expected actual, none)
    | some t => do
      let rows ← t.saveState writable
      pure (.appended t.version, some rows)

def append (s : SqlitePolicies) (policyId : AuthorizationPolicyId)
    (expected : AuthorizationPolicyVersion) (events : List AuthorizationPolicyEvent) :
    Result AuthorizationPolicyAppendOutcome × SqlitePolicies :=
  match appendEvents enc writable (s.rows policyId) policyId expected events with
  | .error fault => (.error fault, s)
  | .ok (outcome, none) => (.ok outcome, s)
  | .ok (outcome, some rows) => (.ok outcome, ⟨s.policies.insert policyId rows⟩)

end SqlitePolicies

/-! ## Ports -/

structure PolicyStore where
  State : Type
  empty : State
  load : State → AuthorizationPolicyId → Result (Option AuthorizationPolicySnapshot)
  append : State → AuthorizationPolicyId → AuthorizationPolicyVersion →
    List AuthorizationPolicyEvent → Result AuthorizationPolicyAppendOutcome × State
  decision : State → AuthorizationPolicyId → AuthorizationDecisionId →
    Result (Option AuthorizationDecision)
  decisionForRequest : State → AuthorizationPolicyId → AuthorizationRequestId →
    Result (Option AuthorizationDecision)

def memoryPolicies : PolicyStore where
  State := MemoryPolicies
  empty := .empty
  load := MemoryPolicies.load enc
  append := MemoryPolicies.append enc
  decision := MemoryPolicies.decision enc
  decisionForRequest := MemoryPolicies.decisionForRequest enc

/-- The store in SQLite, where an event that cannot be written as JSON is refused. -/
def sqlitePolicies : PolicyStore where
  State := SqlitePolicies
  empty := .empty
  load s policyId := (s.rows policyId).loadSnapshot enc policyId
  append := SqlitePolicies.append enc writable
  decision s policyId decisionId := (s.rows policyId).decision enc decisionId
  decisionForRequest s policyId requestId := (s.rows policyId).decisionForRequest enc requestId

inductive PolicyCall where
  | load (policyId : AuthorizationPolicyId)
  | append (policyId : AuthorizationPolicyId) (expected : AuthorizationPolicyVersion)
      (events : List AuthorizationPolicyEvent)
  | decision (policyId : AuthorizationPolicyId) (decisionId : AuthorizationDecisionId)
  | decisionForRequest (policyId : AuthorizationPolicyId) (requestId : AuthorizationRequestId)
  | now

abbrev PolicyCall.Reply : PolicyCall → Type
  | load _ => Result (Option AuthorizationPolicySnapshot)
  | append _ _ _ => Result AuthorizationPolicyAppendOutcome
  | decision _ _ => Result (Option AuthorizationDecision)
  | decisionForRequest _ _ => Result (Option AuthorizationDecision)
  | now => OffsetDateTime

abbrev policyPorts : Interface := ⟨PolicyCall, PolicyCall.Reply⟩

/-- What the ports do; the clock shows any instant. -/
inductive PolicyStore.Performs (store : PolicyStore) :
    store.State → (c : PolicyCall) → c.Reply → store.State → Prop where
  | load (s : store.State) (policyId : AuthorizationPolicyId) :
      Performs store s (.load policyId) (store.load s policyId) s
  | append (s : store.State) (policyId : AuthorizationPolicyId)
      (expected : AuthorizationPolicyVersion) (events : List AuthorizationPolicyEvent) :
      Performs store s (.append policyId expected events)
        (store.append s policyId expected events).1 (store.append s policyId expected events).2
  | decision (s : store.State) (policyId : AuthorizationPolicyId)
      (decisionId : AuthorizationDecisionId) :
      Performs store s (.decision policyId decisionId) (store.decision s policyId decisionId) s
  | decisionForRequest (s : store.State) (policyId : AuthorizationPolicyId)
      (requestId : AuthorizationRequestId) :
      Performs store s (.decisionForRequest policyId requestId)
        (store.decisionForRequest s policyId requestId) s
  | now (s : store.State) (instant : OffsetDateTime) : Performs store s .now instant s

def PolicyStore.answer (store : PolicyStore) (instant : OffsetDateTime) (s : store.State) :
    (c : PolicyCall) → Option (c.Reply × store.State)
  | .load policyId => some (store.load s policyId, s)
  | .append policyId expected events => some (store.append s policyId expected events)
  | .decision policyId decisionId => some (store.decision s policyId decisionId, s)
  | .decisionForRequest policyId requestId =>
    some (store.decisionForRequest s policyId requestId, s)
  | .now => some (instant, s)

theorem PolicyStore.answer_sound (store : PolicyStore) (instant : OffsetDateTime)
    (s : store.State) (c : PolicyCall) (reply : c.Reply) (t : store.State)
    (h : store.answer instant s c = some (reply, t)) : store.Performs s c reply t := by
  cases c with
  | load policyId =>
    cases h
    exact .load s policyId
  | append policyId expected events =>
    have heq := Option.some.inj h
    have hperforms : store.Performs s (.append policyId expected events) _ _ :=
      .append s policyId expected events
    rw [heq] at hperforms
    exact hperforms
  | decision policyId decisionId =>
    cases h
    exact .decision s policyId decisionId
  | decisionForRequest policyId requestId =>
    cases h
    exact .decisionForRequest s policyId requestId
  | now =>
    cases h
    exact .now s instant

end Made
