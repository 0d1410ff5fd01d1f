import Made.Delivery.Record
import Made.Library.Scans

/-!
# The ledger of deliveries

Deliveries are enqueued, leased to hosts, answered, given up on, re-addressed and listed.  Two
ledgers do this.  One keeps an ordered map in memory; the other keeps the deliveries in a SQLite
table and files each of them a second time under its destination.  Operations on one delivery have
the same text in both, over reading and writing one delivery; leases, sweeps and listings select
deliveries in two ways.
-/

namespace Made

/-! ## Questions and answers -/

inductive HostDeliveryTargetFilter where
  | any
  | anyOf (targets : List HostDeliveryTarget)
deriving DecidableEq

namespace HostDeliveryTargetFilter

def admits : HostDeliveryTargetFilter → HostDeliveryTarget → Bool
  | any, _ => true
  | anyOf targets, target => targets.contains target

def keys : HostDeliveryTargetFilter → Option (List HostDeliveryTargetKey)
  | any => none
  | anyOf targets => some (targets.map HostDeliveryTarget.targetKey)

end HostDeliveryTargetFilter

structure HostDeliveryFilter where
  ceremonyId : Option CeremonyId
  target : HostDeliveryTargetFilter
  itemKind : Option HostDeliveryItemKind
deriving DecidableEq

def HostDeliveryFilter.admits (filter : HostDeliveryFilter) (record : HostDeliveryRecord) : Bool :=
  filter.ceremonyId.all (· == record.item.ceremonyId) &&
    filter.itemKind.all (· == record.item.kind) && filter.target.admits record.target

abbrev HostDeliveryPageLimit := Ordinal ⟨"host_delivery_page_limit", 100⟩

structure HostDeliveryQuery where
  ceremonyId : Option CeremonyId
  state : Option HostDeliveryStateKind
  target : HostDeliveryTargetFilter
  limit : HostDeliveryPageLimit
  cursor : Option HostDeliveryId
deriving DecidableEq

def HostDeliveryQuery.admits (query : HostDeliveryQuery) (record : HostDeliveryRecord) : Bool :=
  query.ceremonyId.all (· == record.item.ceremonyId) &&
    query.state.all (· == record.state.kind) && query.target.admits record.target

structure HostDeliveryPage where
  records : List HostDeliveryRecord
  nextCursor : Option HostDeliveryId
deriving DecidableEq

inductive EnqueueOutcome where
  | enqueued (record : HostDeliveryRecord)
  | alreadyQueued (record : HostDeliveryRecord)
deriving DecidableEq

structure LeasedDelivery where
  lease : HostDeliveryLease
  record : HostDeliveryRecord
deriving DecidableEq

structure SupersessionOutcome where
  superseded : List HostDeliveryId
  replacements : List HostDeliveryRecord
deriving DecidableEq

/-- The operations of a ledger.  The identities of new leases are drawn one after the other; they
are part of the call. -/
inductive HostDeliveryCall where
  | enqueue (record : HostDeliveryRecord)
  | lease (filter : HostDeliveryFilter) (owner : HostAgentIncarnation) (now : OffsetDateTime)
      (duration : DurationMs) (limit : HostDeliveryPageLimit)
      (leaseIds : Nat → HostDeliveryLeaseId)
  | acknowledge (lease : HostDeliveryLease) (observation : HostDeliveryObservation)
      (now : OffsetDateTime)
  | markProcessed (deliveryId : HostDeliveryId) (owner : HostAgentIncarnation)
      (fence : Option IntegratorFence) (action : ProcessedActionRef) (now : OffsetDateTime)
  | recordActivation (deliveryId : HostDeliveryId) (outcome : HostActivationOutcome)
      (now : OffsetDateTime)
  | markFailed (lease : HostDeliveryLease) (reason : DeliveryFailureReason) (now : OffsetDateTime)
  | release (lease : HostDeliveryLease) (now : OffsetDateTime)
  | expire (now : OffsetDateTime)
  | abandon (deliveryId : HostDeliveryId) (cause : DeliveryExpiryCause) (now : OffsetDateTime)
  | expireCeremony (ceremonyId : CeremonyId) (cause : DeliveryExpiryCause) (now : OffsetDateTime)
  | supersede (previous replacement : HostDeliveryTarget) (following : FollowReplacement)
      (now : OffsetDateTime)
  | get (id : HostDeliveryId)
  | list (query : HostDeliveryQuery)

inductive HostDeliveryReply where
  | enqueue (outcome : Result EnqueueOutcome)
  | lease (leased : Result (List LeasedDelivery))
  | acknowledge (outcome : Result AckOutcome)
  | markProcessed (outcome : Result ProcessedOutcome)
  | recordActivation (recorded : Result RecordedActivation)
  | markFailed (outcome : Result DeliveryFailureOutcome)
  | release (done : Result Unit)
  | expire (ids : Result (List HostDeliveryId))
  | abandon (record : Result (Option HostDeliveryRecord))
  | expireCeremony (ids : Result (List HostDeliveryId))
  | supersede (outcome : Result SupersessionOutcome)
  | get (record : Result (Option HostDeliveryRecord))
  | list (page : Result HostDeliveryPage)
deriving DecidableEq

def StoredHostDelivery.affectedBy (stored : StoredHostDelivery) (previous : HostDeliveryTarget) :
    Bool :=
  stored.record.target = previous && !stored.record.state.isTerminal

/-! ## Operations on one delivery -/

structure DeliveryStore (σ : Type) where
  read : σ → HostDeliveryId → Option StoredHostDelivery
  write : σ → HostDeliveryId → StoredHostDelivery → Result σ

namespace DeliveryStore

variable {σ α : Type} (store : DeliveryStore σ)

def keep (state : σ) (id : HostDeliveryId) (stored : StoredHostDelivery) (answer : α) :
    Result α × σ :=
  match store.write state id stored with
  | .error fault => (.error fault, state)
  | .ok next => (.ok answer, next)

def enqueue (state : σ) (record : HostDeliveryRecord) : Result EnqueueOutcome × σ :=
  match store.read state record.id with
  | some existing => (.ok (.alreadyQueued existing.record), state)
  | none => store.keep state record.id (.new record) (.enqueued record)

/-- Read one delivery, decide about it, and write it back if it has changed. -/
def amend (state : σ) (id : HostDeliveryId) (absent : Result α)
    (transition : StoredHostDelivery → Option StoredHostDelivery × α) : Result α × σ :=
  match store.read state id with
  | none => (absent, state)
  | some stored =>
    match transition stored with
    | (none, answer) => (.ok answer, state)
    | (some next, answer) => store.keep state id next answer

def acknowledge (state : σ) (lease : HostDeliveryLease) (observation : HostDeliveryObservation)
    (now : OffsetDateTime) : Result AckOutcome × σ :=
  store.amend state lease.deliveryId (.ok .leaseNotOwned) fun stored =>
    stored.acknowledged lease observation now

def markProcessed (state : σ) (deliveryId : HostDeliveryId) (owner : HostAgentIncarnation)
    (fence : Option IntegratorFence) (action : ProcessedActionRef) (now : OffsetDateTime) :
    Result ProcessedOutcome × σ :=
  store.amend state deliveryId (Outcome.refuse (.notFound "host_delivery")) fun stored =>
    stored.processed owner fence action now

def recordActivation (state : σ) (deliveryId : HostDeliveryId) (outcome : HostActivationOutcome)
    (now : OffsetDateTime) : Result RecordedActivation × σ :=
  store.amend state deliveryId (.ok .unknown) fun stored => stored.activated outcome now

def markFailed (state : σ) (lease : HostDeliveryLease) (reason : DeliveryFailureReason)
    (now : OffsetDateTime) : Result DeliveryFailureOutcome × σ :=
  store.amend state lease.deliveryId (.ok .leaseNotOwned) fun stored =>
    stored.failed lease reason now

def release (state : σ) (lease : HostDeliveryLease) (now : OffsetDateTime) : Result Unit × σ :=
  store.amend state lease.deliveryId (.ok ()) fun stored => (stored.released lease now, ())

def abandon (state : σ) (deliveryId : HostDeliveryId) (cause : DeliveryExpiryCause)
    (now : OffsetDateTime) : Result (Option HostDeliveryRecord) × σ :=
  store.amend state deliveryId (.ok none) fun stored =>
    let next := stored.abandoned cause now
    (next, next.map (·.record))

section

variable (replacement : HostDeliveryTarget) (following : FollowReplacement) (now : OffsetDateTime)

/-- What takes the place of a delivery that is closed: when the work follows, the delivery to the
replacement, which is opened unless it exists. -/
def reopen (state : σ) (stored : StoredHostDelivery) :
    Result (Option HostDeliveryId × List HostDeliveryRecord) × σ :=
  if following.follows then
    match stored.reAddressed replacement now with
    | .error fault => (.error fault, state)
    | .ok candidate =>
      match store.read state candidate.id with
      | some _ => (.ok (some candidate.id, []), state)
      | none => store.keep state candidate.id candidate (some candidate.id, [candidate.record])
  else (.ok (none, []), state)

/-- Close the affected deliveries one by one.  A refused identity ends the loop where it is. -/
def supersedeEach :
    σ → List StoredHostDelivery → SupersessionOutcome → Result SupersessionOutcome × σ
  | state, [], outcome => (.ok outcome, state)
  | state, stored :: affected, outcome =>
    match store.reopen replacement following now state stored with
    | (.error fault, state) => (.error fault, state)
    | (.ok (opened, replacements), state) =>
      match store.write state stored.id (stored.superseded opened now) with
      | .error fault => (.error fault, state)
      | .ok state =>
        supersedeEach state affected
          ⟨outcome.superseded ++ [stored.id], outcome.replacements ++ replacements⟩

end

end DeliveryStore

/-! ## In memory -/

structure InMemoryHostDeliveryLedger where
  inner : Map HostDeliveryId StoredHostDelivery

namespace InMemoryHostDeliveryLedger

def empty : InMemoryHostDeliveryLedger := ⟨∅⟩

variable (ledger : InMemoryHostDeliveryLedger)

def values : List StoredHostDelivery :=
  ledger.inner.toList.map (·.2)

def insert (id : HostDeliveryId) (stored : StoredHostDelivery) : InMemoryHostDeliveryLedger :=
  ⟨ledger.inner.insert id stored⟩

def store : DeliveryStore InMemoryHostDeliveryLedger where
  read ledger id := ledger.inner[id]?
  write ledger id stored := .ok (ledger.insert id stored)

/-- Lease the deliveries one by one; `n` counts the identities drawn. -/
def leaseEach (owner : HostAgentIncarnation) (now : OffsetDateTime) (duration : DurationMs)
    (leaseIds : Nat → HostDeliveryLeaseId) :
    Nat → InMemoryHostDeliveryLedger → List HostDeliveryId → List LeasedDelivery →
      Result (List LeasedDelivery) × InMemoryHostDeliveryLedger
  | _, ledger, [], leased => (.ok leased, ledger)
  | n, ledger, id :: ids, leased =>
    match ledger.inner[id]? with
    | none => leaseEach owner now duration leaseIds n ledger ids leased
    | some stored =>
      match stored.leased (leaseIds n) owner now duration with
      | .error fault => (.error fault, ledger)
      | .ok (next, lease) =>
        leaseEach owner now duration leaseIds (n + 1) (ledger.insert id next) ids
          (leased ++ [⟨lease, next.record⟩])

def lease (filter : HostDeliveryFilter) (owner : HostAgentIncarnation) (now : OffsetDateTime)
    (duration : DurationMs) (limit : HostDeliveryPageLimit) (leaseIds : Nat → HostDeliveryLeaseId) :
    Result (List LeasedDelivery) × InMemoryHostDeliveryLedger :=
  let offerable := (ledger.values.filter fun stored =>
    stored.record.isOfferableAt now && filter.admits stored.record).take limit.val
  leaseEach owner now duration leaseIds 0 ledger (offerable.map (·.id)) []

/-- Change every delivery that has something to change, after deciding about all of them. -/
def sweep (next : StoredHostDelivery → Result (Option StoredHostDelivery)) :
    Result (List HostDeliveryId) × InMemoryHostDeliveryLedger :=
  match ledger.values.mapM fun stored => do
      let changed ← next stored
      pure (changed.map fun changed => (stored.id, changed)) with
  | .error fault => (.error fault, ledger)
  | .ok found =>
    let changed := found.filterMap fun row => row
    (.ok (changed.map (·.1)), changed.foldl (fun ledger row => ledger.insert row.1 row.2) ledger)

def expire (now : OffsetDateTime) : Result (List HostDeliveryId) × InMemoryHostDeliveryLedger :=
  ledger.sweep fun stored => stored.expired now

def expireCeremony (ceremonyId : CeremonyId) (cause : DeliveryExpiryCause) (now : OffsetDateTime) :
    Result (List HostDeliveryId) × InMemoryHostDeliveryLedger :=
  ledger.sweep fun stored =>
    .ok (if stored.record.item.ceremonyId = ceremonyId then stored.abandoned cause now else none)

def supersede (previous replacement : HostDeliveryTarget) (following : FollowReplacement)
    (now : OffsetDateTime) : Result SupersessionOutcome × InMemoryHostDeliveryLedger :=
  store.supersedeEach replacement following now ledger
    (ledger.values.filter (·.affectedBy previous))
    ⟨[], []⟩

def list (query : HostDeliveryQuery) : HostDeliveryPage :=
  let matching := ((ledger.values.filter fun stored => query.admits stored.record).filter fun
    stored => Scans.isAfter query.cursor stored.id).map (·.record)
  let records := matching.take query.limit.val
  let more := !(matching.drop query.limit.val).isEmpty
  ⟨records, if more then records.getLast?.map (·.id) else none⟩

def answer : HostDeliveryCall → HostDeliveryReply × InMemoryHostDeliveryLedger
  | .enqueue record => (store.enqueue ledger record).map .enqueue id
  | .lease filter owner now duration limit leaseIds =>
    (ledger.lease filter owner now duration limit leaseIds).map .lease id
  | .acknowledge lease observation now =>
    (store.acknowledge ledger lease observation now).map .acknowledge id
  | .markProcessed deliveryId owner fence action now =>
    (store.markProcessed ledger deliveryId owner fence action now).map .markProcessed id
  | .recordActivation deliveryId outcome now =>
    (store.recordActivation ledger deliveryId outcome now).map .recordActivation id
  | .markFailed lease reason now =>
    (store.markFailed ledger lease reason now).map .markFailed id
  | .release lease now => (store.release ledger lease now).map .release id
  | .expire now => (ledger.expire now).map .expire id
  | .abandon deliveryId cause now => (store.abandon ledger deliveryId cause now).map .abandon id
  | .expireCeremony ceremonyId cause now =>
    (ledger.expireCeremony ceremonyId cause now).map .expireCeremony id
  | .supersede previous replacement following now =>
    (ledger.supersede previous replacement following now).map .supersede id
  | .get deliveryId => (.get (.ok (ledger.inner[deliveryId]?.map (·.record))), ledger)
  | .list query => (.list (.ok (ledger.list query)), ledger)

end InMemoryHostDeliveryLedger

/-! ## In SQLite -/

def hostDeliveryTarget (targetKey deliveryId : String) : String :=
  targetKey ++ "\n" ++ deliveryId

/-- What the rows of one destination start with. -/
def hostDeliveryTargetPrefix (targetKey : String) : String := targetKey ++ "\n"

/-- What the identities of one ceremony's deliveries start with. -/
def hostDeliveryCeremonyPrefix (ceremonyId : CeremonyId) : String := ceremonyId.val ++ ":"

/-- `?2 IS NULL OR substr(k, 1, length(?2)) = ?2`. -/
def startsWithFront (front : Option String) (k : String) : Bool :=
  front.all fun p => k.toList.take p.length = p.toList

def scanStrPage {ν : Type} (table : Map String ν) (after front : Option String) (limit : Nat) :
    List (String × ν) :=
  (Scans.scan table fun k => Scans.isAfter after k && startsWithFront front k).take limit

def scanPageSize : Nat := 256

structure SqliteHostDeliveryLedger where
  deliveries : Map String StoredHostDelivery
  targets : Map String String

namespace SqliteHostDeliveryLedger

def empty : SqliteHostDeliveryLedger := ⟨∅, ∅⟩

variable (ledger : SqliteHostDeliveryLedger)

def read (id : HostDeliveryId) : Option StoredHostDelivery :=
  ledger.deliveries[id.val]?

/-- One delivery and its place in the destination index, together. -/
def put (stored : StoredHostDelivery) : SqliteHostDeliveryLedger where
  deliveries := ledger.deliveries.insert stored.id.val stored
  targets := ledger.targets.insert (hostDeliveryTarget stored.targetKey stored.id.val) stored.id.val

section

variable (writable : StoredHostDelivery → Bool)

def encodingFailure : DomainError :=
  .invariantViolated "sqlite: stored record could not be encoded or decoded"

/-- A delivery is encoded before it is put, which not every delivery can be. -/
def write (stored : StoredHostDelivery) : Result SqliteHostDeliveryLedger :=
  if writable stored then .ok (ledger.put stored) else Outcome.refuse encodingFailure

/-- A delivery is written under its own identity. -/
def store : DeliveryStore SqliteHostDeliveryLedger where
  read := read
  write ledger _ stored := ledger.write writable stored

end

/-- Walk one table and keep what `wanted` admits, up to a limit; no limit stands for the largest
number.  There is a turn for every row. -/
def collect {ν : Type} (table : Map String ν) (decodeRow : ν → Option StoredHostDelivery)
    (front after : Option String) (limit : Option Nat)
    (wanted : StoredHostDelivery → Result Bool) : Result (List StoredHostDelivery) :=
  Scans.collect (fun row : String × ν => row.1)
    (fun after => scanStrPage table after front scanPageSize) (fun row => decodeRow row.2) wanted
    limit (table.size + 1) [] after

def collectDeliveries (front after : Option String) (limit : Option Nat)
    (wanted : StoredHostDelivery → Result Bool) : Result (List StoredHostDelivery) :=
  collect ledger.deliveries some front after limit wanted

/-- Every delivery filed under one destination; the index holds identities only. -/
def toDestination (targetKey : String) (limit : Option Nat)
    (wanted : StoredHostDelivery → Result Bool) : Result (List StoredHostDelivery) :=
  collect ledger.targets (fun id => ledger.deliveries[id]?)
    (some (hostDeliveryTargetPrefix targetKey)) none limit wanted

/-- Destination after destination, until the limit is reached. -/
def candidates (ledger : SqliteHostDeliveryLedger) (limit : Nat)
    (offerable : StoredHostDelivery → Bool) :
    List HostDeliveryTargetKey → List StoredHostDelivery → Result (List StoredHostDelivery)
  | [], found => .ok found
  | key :: keys, found => do
    let more ← ledger.toDestination key.val (some (limit - found.length)) fun stored =>
      .ok (offerable stored)
    let found := found ++ more
    if found.length = limit then pure found else candidates ledger limit offerable keys found

def leaseEach (writable : StoredHostDelivery → Bool) (owner : HostAgentIncarnation)
    (now : OffsetDateTime) (duration : DurationMs) (leaseIds : Nat → HostDeliveryLeaseId) :
    Nat → SqliteHostDeliveryLedger → List StoredHostDelivery → List LeasedDelivery →
      Result (List LeasedDelivery) × SqliteHostDeliveryLedger
  | _, ledger, [], leased => (.ok leased, ledger)
  | n, ledger, stored :: rest, leased =>
    match stored.leased (leaseIds n) owner now duration with
    | .error fault => (.error fault, ledger)
    | .ok (next, lease) =>
      match ledger.write writable next with
      | .error fault => (.error fault, ledger)
      | .ok ledger =>
        leaseEach writable owner now duration leaseIds (n + 1) ledger rest
          (leased ++ [⟨lease, next.record⟩])

/-- By destination when the filter names some, else among all deliveries. -/
def leaseCandidates (filter : HostDeliveryFilter)
    (now : OffsetDateTime) (limit : HostDeliveryPageLimit) : Result (List StoredHostDelivery) :=
  let offerable := fun stored : StoredHostDelivery =>
    stored.record.isOfferableAt now && filter.admits stored.record
  match filter.target.keys with
  | some keys => ledger.candidates limit.val offerable keys []
  | none => ledger.collectDeliveries none none (some limit.val) fun stored => .ok (offerable stored)

section

variable (writable : StoredHostDelivery → Bool)

def lease (filter : HostDeliveryFilter) (owner : HostAgentIncarnation) (now : OffsetDateTime)
    (duration : DurationMs) (limit : HostDeliveryPageLimit) (leaseIds : Nat → HostDeliveryLeaseId) :
    Result (List LeasedDelivery) × SqliteHostDeliveryLedger :=
  match ledger.leaseCandidates filter now limit with
  | .error fault => (.error fault, ledger)
  | .ok found => leaseEach writable owner now duration leaseIds 0 ledger found []

/-- Write the changes of the deliveries found, deciding about each of them once more. -/
def sweepEach (next : StoredHostDelivery → Result (Option StoredHostDelivery)) :
    SqliteHostDeliveryLedger → List StoredHostDelivery → List HostDeliveryId →
      Result (List HostDeliveryId) × SqliteHostDeliveryLedger
  | ledger, [], ids => (.ok ids, ledger)
  | ledger, stored :: rest, ids =>
    match next stored with
    | .error fault => (.error fault, ledger)
    | .ok none => sweepEach next ledger rest ids
    | .ok (some changed) =>
      match ledger.write writable changed with
      | .error fault => (.error fault, ledger)
      | .ok ledger => sweepEach next ledger rest (ids ++ [changed.id])

/-- Change every delivery with a front that has something to change. -/
def sweep (front : Option String) (next : StoredHostDelivery → Result (Option StoredHostDelivery)) :
    Result (List HostDeliveryId) × SqliteHostDeliveryLedger :=
  match ledger.collectDeliveries front none none (fun stored => do
      let changed ← next stored
      pure changed.isSome) with
  | .error fault => (.error fault, ledger)
  | .ok found => sweepEach writable next ledger found []

def expire (now : OffsetDateTime) : Result (List HostDeliveryId) × SqliteHostDeliveryLedger :=
  ledger.sweep writable none fun stored => stored.expired now

/-- The front alone decides which deliveries are the ceremony's. -/
def expireCeremony (ceremonyId : CeremonyId) (cause : DeliveryExpiryCause) (now : OffsetDateTime) :
    Result (List HostDeliveryId) × SqliteHostDeliveryLedger :=
  ledger.sweep writable (some (hostDeliveryCeremonyPrefix ceremonyId)) fun stored =>
    .ok (stored.abandoned cause now)

def supersede (previous replacement : HostDeliveryTarget) (following : FollowReplacement)
    (now : OffsetDateTime) : Result SupersessionOutcome × SqliteHostDeliveryLedger :=
  match ledger.toDestination previous.targetKey.val none fun stored =>
      .ok (stored.affectedBy previous) with
  | .error fault => (.error fault, ledger)
  | .ok affected =>
    (store writable).supersedeEach replacement following now ledger affected ⟨[], []⟩

end

def list (query : HostDeliveryQuery) : Result HostDeliveryPage := do
  let wanted := query.limit.val + 1
  let found ← ledger.collectDeliveries (query.ceremonyId.map hostDeliveryCeremonyPrefix)
    (query.cursor.map (·.val)) (some wanted) fun stored => .ok (query.admits stored.record)
  let records := (found.take query.limit.val).map (·.record)
  pure ⟨records, if found.length = wanted then records.getLast?.map (·.id) else none⟩

/-- What a call leaves behind: a transaction that failed is rolled back, and a panic of the task
comes back as an error. -/
def blocking {α : Type} (ledger : SqliteHostDeliveryLedger)
    (work : Result α × SqliteHostDeliveryLedger) : Result α × SqliteHostDeliveryLedger :=
  match work with
  | (.ok answer, next) => (.ok answer, next)
  | (.error (.refused error), _) => (Outcome.refuse error, ledger)
  | (.error (.panicked _), _) =>
    (Outcome.refuse (.invariantViolated "sqlite: storage task did not complete"), ledger)

def answer (writable : StoredHostDelivery → Bool) (ledger : SqliteHostDeliveryLedger) :
    HostDeliveryCall → HostDeliveryReply × SqliteHostDeliveryLedger
  | .enqueue record => (ledger.blocking ((store writable).enqueue ledger record)).map .enqueue id
  | .lease filter owner now duration limit leaseIds =>
    (ledger.blocking (ledger.lease writable filter owner now duration limit leaseIds)).map .lease id
  | .acknowledge lease observation now =>
    (ledger.blocking ((store writable).acknowledge ledger lease observation now)).map
      .acknowledge id
  | .markProcessed deliveryId owner fence action now =>
    (ledger.blocking ((store writable).markProcessed ledger deliveryId owner fence action now)).map
      .markProcessed id
  | .recordActivation deliveryId outcome now =>
    (ledger.blocking ((store writable).recordActivation ledger deliveryId outcome now)).map
      .recordActivation id
  | .markFailed lease reason now =>
    (ledger.blocking ((store writable).markFailed ledger lease reason now)).map .markFailed id
  | .release lease now =>
    (ledger.blocking ((store writable).release ledger lease now)).map .release id
  | .expire now => (ledger.blocking (ledger.expire writable now)).map .expire id
  | .abandon deliveryId cause now =>
    (ledger.blocking ((store writable).abandon ledger deliveryId cause now)).map .abandon id
  | .expireCeremony ceremonyId cause now =>
    (ledger.blocking (ledger.expireCeremony writable ceremonyId cause now)).map .expireCeremony id
  | .supersede previous replacement following now =>
    (ledger.blocking (ledger.supersede writable previous replacement following now)).map
      .supersede id
  | .get deliveryId => (.get (.ok ((ledger.read deliveryId).map (·.record))), ledger)
  | .list query => (ledger.blocking (ledger.list query, ledger)).map .list id

end SqliteHostDeliveryLedger

end Made
