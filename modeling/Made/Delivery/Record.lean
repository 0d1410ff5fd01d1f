import Made.Delivery.Identity
import Made.Values.Agenda

/-!
# One delivery on its way

A delivery record follows one item to one destination through its states; every transition gives a
new record and is remembered in a bounded history.  A store keeps two facts beside the record: who
held the delivery last and under which fence it was closed.
-/

namespace Made

open Outcome

/-! ## Parts -/

/-- Texts that may hold line breaks and tabs but no other control character. -/
def proseRule (field : String) (maxLen : Nat) : TextRule :=
  ⟨field, maxLen, fun c => !isControl c || c == '\n' || c == '\t'⟩

abbrev HostDeliveryLeaseId := Text (proseRule "host_delivery_lease_id" 256)
abbrev DeliveryFailureReason := Text (proseRule "delivery_failure_reason" 1000)
abbrev HostTransportRef := Text (proseRule "host_transport_ref" 256)

abbrev IntegratorFence := Nat

/-- How often a delivery has failed, an unsigned 32-bit number. -/
abbrev DeliveryAttempt := Nat

def DeliveryAttempt.next (attempt : DeliveryAttempt) : DeliveryAttempt := min (attempt + 1) u32Max

abbrev DeliveryAttemptLimit := Ordinal ⟨"delivery_attempt_limit", 100⟩

def DeliveryAttemptLimit.isExhaustedBy (limit : DeliveryAttemptLimit) (attempt : DeliveryAttempt) :
    Bool :=
  limit.val ≤ attempt

inductive HostDeliveryMode where
  | pullLease
  | activation
deriving DecidableEq

inductive FollowReplacement where
  | stay
  | follow
deriving DecidableEq

def FollowReplacement.follows : FollowReplacement → Bool
  | stay => false
  | follow => true

structure HostDeliveryPolicy where
  mode : HostDeliveryMode
  leaseDuration : DurationMs
  ackTimeout : Option DurationMs
  maxAttempts : DeliveryAttemptLimit
  followReplacement : FollowReplacement
  leaseDuration_bounds : 1 ≤ leaseDuration.millis ∧ leaseDuration.millis ≤ 3600000
  ackTimeout_ne_zero : ackTimeout.all (fun timeout => timeout.millis != 0) = true
deriving DecidableEq

/-- The default: a host pulls its work under a lease of a minute. -/
def HostDeliveryPolicy.pull : HostDeliveryPolicy where
  mode := .pullLease
  leaseDuration := ⟨60000, by decide⟩
  ackTimeout := none
  maxAttempts := .of 3 (.refl true)
  followReplacement := .stay
  leaseDuration_bounds := by decide
  ackTimeout_ne_zero := .refl true

inductive DeliveryExpiryCause where
  | timeout
  | ceremonyEnded
  | targetRevoked
  | queueOverflow
deriving DecidableEq

inductive HostActivationAdapterKind where
  | none
  | command
deriving DecidableEq

structure HostActivationReceipt where
  adapter : HostActivationAdapterKind
  at_ : OffsetDateTime
  transportRef : Option HostTransportRef
deriving DecidableEq

inductive ProcessedActionKind where
  | responded
  | delegated
  | integrated
  | correctionRequested
  | transitionProposed
  | escalatedToUser
  | noAction
deriving DecidableEq

structure ProcessedActionRef where
  kind : ProcessedActionKind
  idempotencyKey : Option IdempotencyKey
deriving DecidableEq

/-- The right to deliver one item to one host for a while. -/
structure HostDeliveryLease where
  deliveryId : HostDeliveryId
  leaseId : HostDeliveryLeaseId
  owner : HostAgentIncarnation
  leasedUntil : OffsetDateTime
deriving DecidableEq

def HostDeliveryLease.isLiveAt (lease : HostDeliveryLease) (now : OffsetDateTime) : Bool :=
  now < lease.leasedUntil

/-! ## States -/

inductive HostDeliveryStateKind where
  | queued
  | leased
  | deliveredToHost
  | acknowledged
  | processed
  | failed
  | expired
  | superseded
deriving DecidableEq

def HostDeliveryStateKind.isTerminal : HostDeliveryStateKind → Bool
  | processed | failed | expired | superseded => true
  | queued | leased | deliveredToHost | acknowledged => false

inductive HostDeliveryState where
  | queued
  | leased (lease : HostDeliveryLease)
  | deliveredToHost (receipt : HostActivationReceipt)
  | acknowledged (observation : HostDeliveryObservation)
  | processed (at_ : OffsetDateTime) (action : ProcessedActionRef)
  | failed (reason : DeliveryFailureReason) (attempt : DeliveryAttempt)
  | expired (at_ : OffsetDateTime) (cause : DeliveryExpiryCause)
  /-- `by_` is the delivery opened in its place, when the work follows. -/
  | superseded (by_ : Option HostDeliveryId)
deriving DecidableEq

namespace HostDeliveryState

def kind : HostDeliveryState → HostDeliveryStateKind
  | queued => .queued
  | leased _ => .leased
  | deliveredToHost _ => .deliveredToHost
  | acknowledged _ => .acknowledged
  | processed _ _ => .processed
  | failed _ _ => .failed
  | expired _ _ => .expired
  | superseded _ => .superseded

def isTerminal (state : HostDeliveryState) : Bool := state.kind.isTerminal

def lease : HostDeliveryState → Option HostDeliveryLease
  | leased lease => some lease
  | _ => none

end HostDeliveryState

structure DeliveryHistoryEntry where
  stateKind : HostDeliveryStateKind
  at_ : OffsetDateTime
deriving DecidableEq

def deliveryHistoryCapacity : Nat := 32

structure DeliveryHistory where
  entries : List DeliveryHistoryEntry
  length_le : entries.length ≤ deliveryHistoryCapacity
deriving DecidableEq

namespace DeliveryHistory

def new : DeliveryHistory := ⟨[], by decide⟩

/-- A full history forgets its oldest entry. -/
def recording (history : DeliveryHistory) (entry : DeliveryHistoryEntry) : DeliveryHistory :=
  if h : history.entries.length = deliveryHistoryCapacity then
    ⟨history.entries.tail ++ [entry], by
      rw [List.length_append, List.length_tail, h, List.length_singleton]
      decide⟩
  else
    ⟨history.entries ++ [entry], by
      rw [List.length_append]
      exact Nat.lt_of_le_of_ne history.length_le h⟩

end DeliveryHistory

/-! ## Records -/

structure HostDeliveryRecord where
  id : HostDeliveryId
  item : HostDeliveryItem
  target : HostDeliveryTarget
  policy : HostDeliveryPolicy
  state : HostDeliveryState
  attempt : DeliveryAttempt
  createdAt : OffsetDateTime
  updatedAt : OffsetDateTime
  history : DeliveryHistory
  derived : item.deliveryId target = .ok id
deriving DecidableEq

variable (record : HostDeliveryRecord)

namespace HostDeliveryRecord

def queued (item : HostDeliveryItem) (target : HostDeliveryTarget) (policy : HostDeliveryPolicy)
    (createdAt : OffsetDateTime) : Result HostDeliveryRecord :=
  match h : item.deliveryId target with
  | .error fault => .error fault
  | .ok id =>
    .ok ⟨id, item, target, policy, .queued, 0, createdAt, createdAt,
      DeliveryHistory.new.recording ⟨.queued, createdAt⟩, h⟩

theorem noPanic_queued (item : HostDeliveryItem) (target : HostDeliveryTarget)
    (policy : HostDeliveryPolicy) (createdAt : OffsetDateTime) :
    NoPanic (queued item target policy createdAt) := by
  have hid : NoPanic (item.deliveryId target) := by
    rw [HostDeliveryItem.deliveryId, HostDeliveryId.derive]
    exact Text.noPanic_new _
  unfold queued
  split
  · next fault herror =>
      intro message hpanic
      cases hpanic
      exact hid message herror
  · exact noPanic_ok _

variable (now : OffsetDateTime)

/-- Whether a host could be handed this delivery: an expired lease excludes no one. -/
def isOfferableAt : Bool :=
  match record.state with
  | .queued | .deliveredToHost _ => true
  | .leased lease => !lease.isLiveAt now
  | _ => false

def liveLeaseAt : Option HostDeliveryLease :=
  record.state.lease.filter fun lease => lease.isLiveAt now

def transitioned (state : HostDeliveryState) (now : OffsetDateTime) : HostDeliveryRecord :=
  { record with
    state := state
    updatedAt := now
    history := record.history.recording ⟨state.kind, now⟩ }

/-- Given up on, with the attempt that gave up counted. -/
def failed (reason : DeliveryFailureReason) (now : OffsetDateTime) : HostDeliveryRecord :=
  let attempt := DeliveryAttempt.next record.attempt
  { record.transitioned (.failed reason attempt) now with attempt := attempt }

/-- Back in the queue after a failed attempt, which is counted. -/
def requeued : HostDeliveryRecord :=
  { record.transitioned .queued now with attempt := DeliveryAttempt.next record.attempt }

/-- Back in the queue, uncounted. -/
def released : HostDeliveryRecord :=
  record.transitioned .queued now

def expired (cause : DeliveryExpiryCause) (now : OffsetDateTime) : HostDeliveryRecord :=
  record.transitioned (.expired now cause) now

def superseded (by_ : Option HostDeliveryId) (now : OffsetDateTime) : HostDeliveryRecord :=
  record.transitioned (.superseded by_) now

/-- The same item offered to another destination, under an identity of its own. -/
def reAddressed (target : HostDeliveryTarget) (now : OffsetDateTime) : Result HostDeliveryRecord :=
  queued record.item target record.policy now

end HostDeliveryRecord

/-! ## What a store holds -/

inductive HostActivationOutcome where
  | accepted (receipt : HostActivationReceipt)
  | unsupported
  | failed (reason : DeliveryFailureReason)
deriving DecidableEq

inductive AckOutcome where
  | acknowledged (record : HostDeliveryRecord)
  | alreadyAcknowledged (record : HostDeliveryRecord)
  | conflict (existing : HostDeliveryObservation)
  | leaseNotOwned
deriving DecidableEq

inductive ProcessedOutcome where
  | processed (record : HostDeliveryRecord)
  | alreadyProcessed (record : HostDeliveryRecord)
  | conflict (existing : ProcessedActionRef)
  | notAcknowledged (state : HostDeliveryStateKind)
  | fenceRejected (current : IntegratorFence)
  | leaseNotOwned
deriving DecidableEq

inductive RecordedActivation where
  | delivered (record : HostDeliveryRecord)
  | notAttempted (record : HostDeliveryRecord)
  | requeued (record : HostDeliveryRecord)
  | exhausted (record : HostDeliveryRecord)
  | alreadyEnded (record : HostDeliveryRecord)
  | unknown
deriving DecidableEq

inductive DeliveryFailureOutcome where
  | requeued (record : HostDeliveryRecord)
  | exhausted (record : HostDeliveryRecord)
  | leaseNotOwned
deriving DecidableEq

/-- An instant plus a duration; the sum panics outside the range of the clock. -/
def OffsetDateTime.plus (at_ : OffsetDateTime) (duration : DurationMs) : Result OffsetDateTime :=
  expect (at_.checkedAdd (min duration.millis i64Max)) "resulting value is out of range"

/-- One delivery with who held it last and the fence it was closed under. -/
structure StoredHostDelivery where
  record : HostDeliveryRecord
  owner : Option HostAgentIncarnation
  fence : Option IntegratorFence
deriving DecidableEq

namespace StoredHostDelivery

variable (stored : StoredHostDelivery) {next : StoredHostDelivery} {lease : HostDeliveryLease}
  {now : OffsetDateTime}

def new (record : HostDeliveryRecord) : StoredHostDelivery := ⟨record, none, none⟩

def id : HostDeliveryId := stored.record.id

def targetKey : String := stored.record.target.targetKey.val

def withRecord (record : HostDeliveryRecord) : StoredHostDelivery :=
  { stored with record := record }

def holds (lease : HostDeliveryLease) (now : OffsetDateTime) : Bool :=
  (stored.record.liveLeaseAt now).any fun held => held.leaseId == lease.leaseId

def leased (leaseId : HostDeliveryLeaseId) (owner : HostAgentIncarnation) (now : OffsetDateTime)
    (duration : DurationMs) : Result (StoredHostDelivery × HostDeliveryLease) := do
  let until_ ← now.plus duration
  let lease : HostDeliveryLease := ⟨stored.id, leaseId, owner, until_⟩
  pure (⟨stored.record.transitioned (.leased lease) now, some owner, stored.fence⟩, lease)

def acknowledged (lease : HostDeliveryLease) (observation : HostDeliveryObservation)
    (now : OffsetDateTime) : Option StoredHostDelivery × AckOutcome :=
  match stored.record.state with
  | .acknowledged held =>
    if held = observation then (none, .alreadyAcknowledged stored.record)
    else (none, .conflict held)
  | _ =>
    if stored.holds lease now then
      let next := stored.withRecord (stored.record.transitioned (.acknowledged observation) now)
      (some next, .acknowledged next.record)
    else
      (none, .leaseNotOwned)

/-- Close a delivery the host has acted on.  The fence is looked at before the state. -/
def processed (owner : HostAgentIncarnation)
    (fence : Option IntegratorFence) (action : ProcessedActionRef) (now : OffsetDateTime) :
    Option StoredHostDelivery × ProcessedOutcome :=
  match (do
    let offered ← fence
    let current ← stored.fence
    if offered < current then some current else none : Option IntegratorFence) with
  | some current => (none, .fenceRejected current)
  | none =>
    match stored.record.state with
    | .processed _ held =>
      if held = action then (none, .alreadyProcessed stored.record)
      else (none, .conflict held)
    | .acknowledged _ =>
      if stored.owner.any (· != owner) then
        (none, .leaseNotOwned)
      else
        let next : StoredHostDelivery :=
          ⟨stored.record.transitioned (.processed now action) now, stored.owner,
            fence.or stored.fence⟩
        (some next, .processed next.record)
    | state => (none, .notAcknowledged state.kind)

variable (reason : DeliveryFailureReason)

/-- A failed attempt is counted, and retried or given up by the policy. -/
def attempted (now : OffsetDateTime) : Bool × StoredHostDelivery :=
  if stored.record.policy.maxAttempts.isExhaustedBy (DeliveryAttempt.next stored.record.attempt) then
    (true, stored.withRecord (stored.record.failed reason now))
  else
    (false, stored.withRecord (stored.record.requeued now))

def activated (outcome : HostActivationOutcome)
    (now : OffsetDateTime) : Option StoredHostDelivery × RecordedActivation :=
  if stored.record.state.isTerminal then
    (none, .alreadyEnded stored.record)
  else
    match outcome with
    | .unsupported => (none, .notAttempted stored.record)
    | .accepted receipt =>
      let next := stored.withRecord (stored.record.transitioned (.deliveredToHost receipt) now)
      (some next, .delivered next.record)
    | .failed reason =>
      let (exhausted, next) := stored.attempted reason now
      (some next, if exhausted then .exhausted next.record else .requeued next.record)

/-- Count a failed attempt of the holder. -/
def failed (lease : HostDeliveryLease) (reason : DeliveryFailureReason) (now : OffsetDateTime) :
    Option StoredHostDelivery × DeliveryFailureOutcome :=
  if stored.holds lease now then
    let (exhausted, next) := stored.attempted reason now
    (some next, if exhausted then .exhausted next.record else .requeued next.record)
  else
    (none, .leaseNotOwned)

def released (lease : HostDeliveryLease) (now : OffsetDateTime) : Option StoredHostDelivery :=
  if stored.holds lease now then some (stored.withRecord (stored.record.released now)) else none

/-- Whatever has run out of time. -/
def expired (now : OffsetDateTime) : Result (Option StoredHostDelivery) :=
  match stored.record.state, stored.record.policy.ackTimeout with
  | .leased lease, _ =>
    .ok (if lease.isLiveAt now then none
      else some (stored.withRecord (stored.record.released now)))
  | .acknowledged observation, some timeout => do
    let deadline ← observation.observedAt.plus timeout
    pure (if deadline ≤ now then
      some (stored.withRecord (stored.record.expired .timeout now)) else none)
  | _, _ => .ok none

def abandoned (cause : DeliveryExpiryCause) (now : OffsetDateTime) : Option StoredHostDelivery :=
  if stored.record.state.isTerminal then none
  else some (stored.withRecord (stored.record.expired cause now))

def superseded (by_ : Option HostDeliveryId) (now : OffsetDateTime) : StoredHostDelivery :=
  stored.withRecord (stored.record.superseded by_ now)

variable (target : HostDeliveryTarget)

def reAddressed
    (now : OffsetDateTime) : Result StoredHostDelivery := do
  let record ← stored.record.reAddressed target now
  pure (new record)

theorem noPanic_reAddressed (now : OffsetDateTime) : NoPanic (stored.reAddressed target now) :=
  NoPanic.bind (HostDeliveryRecord.noPanic_queued _ _ _ _) fun _ _ => noPanic_pure _

/-! ## What a transition keeps -/

/-- A transition keeps the identity, the item and the destination of a delivery. -/
structure SameDelivery (stored next : StoredHostDelivery) : Prop where
  id : next.record.id = stored.record.id
  item : next.record.item = stored.record.item
  target : next.record.target = stored.record.target

theorem SameDelivery.withRecord (state : HostDeliveryState) (now : OffsetDateTime) :
    SameDelivery stored (stored.withRecord (stored.record.transitioned state now)) :=
  ⟨rfl, rfl, rfl⟩

theorem SameDelivery.attempted
    (now : OffsetDateTime) : SameDelivery stored (stored.attempted reason now).2 := by
  unfold StoredHostDelivery.attempted
  split
  · exact ⟨rfl, rfl, rfl⟩
  · exact ⟨rfl, rfl, rfl⟩

variable {stored}

theorem sameDelivery_leased {leaseId : HostDeliveryLeaseId} {owner : HostAgentIncarnation}
    {duration : DurationMs} (h : stored.leased leaseId owner now duration = .ok (next, lease)) :
    SameDelivery stored next := by
  obtain ⟨until_, -, h⟩ := (bind_eq_ok _ _ _).mp h
  cases h
  exact ⟨rfl, rfl, rfl⟩

theorem sameDelivery_acknowledged {observation : HostDeliveryObservation}
    (h : (stored.acknowledged lease observation now).1 = some next) : SameDelivery stored next := by
  unfold acknowledged at h
  split at h
  · split at h
    · cases h
    · cases h
  · split at h
    · cases h
      exact .withRecord stored _ now
    · cases h

theorem sameDelivery_processed {owner : HostAgentIncarnation} {fence : Option IntegratorFence}
    {action : ProcessedActionRef} (h : (stored.processed owner fence action now).1 = some next) :
    SameDelivery stored next := by
  unfold processed at h
  split at h
  · cases h
  · split at h
    · split at h
      · cases h
      · cases h
    · split at h
      · cases h
      · cases h
        exact ⟨rfl, rfl, rfl⟩
    · cases h

theorem sameDelivery_activated {outcome : HostActivationOutcome}
    (h : (stored.activated outcome now).1 = some next) : SameDelivery stored next := by
  unfold activated at h
  split at h
  · cases h
  · cases outcome with
    | unsupported => cases h
    | accepted receipt =>
      cases h
      exact .withRecord stored _ now
    | failed reason =>
      cases h
      exact .attempted stored reason now

theorem sameDelivery_failed {reason : DeliveryFailureReason}
    (h : (stored.failed lease reason now).1 = some next) : SameDelivery stored next := by
  unfold failed at h
  split at h
  · cases h
    exact .attempted stored reason now
  · cases h

theorem sameDelivery_released (h : stored.released lease now = some next) :
    SameDelivery stored next := by
  unfold released at h
  split at h
  · cases h
    exact .withRecord stored _ now
  · cases h

theorem sameDelivery_expired (h : stored.expired now = .ok (some next)) :
    SameDelivery stored next := by
  unfold expired at h
  split at h
  · rw [Except.ok.injEq] at h
    split at h
    · cases h
    · cases h
      exact .withRecord stored _ now
  · obtain ⟨deadline, -, h⟩ := (bind_eq_ok _ _ _).mp h
    rw [pure_eq_ok] at h
    split at h
    · cases h
      exact .withRecord stored _ now
    · cases h
  · cases h

theorem sameDelivery_abandoned {cause : DeliveryExpiryCause}
    (h : stored.abandoned cause now = some next) : SameDelivery stored next := by
  unfold abandoned at h
  split at h
  · cases h
  · cases h
    exact .withRecord stored _ now

end StoredHostDelivery

end Made
