import Made.Journal.Record
import Made.Library.Scans

/-!
# The event store in memory

The store keeps the streams of all ceremonies, the order in which their records were accepted, and
snapshots of sessions.  An append states the version it was decided against; it is refused as a
conflict when the stream has moved on.
-/

namespace Made

/-! ## The port -/

inductive AppendOutcome where
  | appended (version : StreamVersion) (records : List AuditRecord) (firstPosition : GlobalPosition)
  | conflict (expected actual : StreamVersion)
deriving DecidableEq

structure PositionedRecord where
  position : GlobalPosition
  record : AuditRecord
deriving DecidableEq

structure CeremonyInstanceIdPage where
  ids : List CeremonyId
  hasMore : Bool
deriving DecidableEq

abbrev CeremonyEventPageLimit := Ordinal ⟨"ceremony_event_page_limit", 1000⟩
abbrev CeremonyInstancePageLimit := Ordinal ⟨"ceremony_instance_page_limit", 100⟩

abbrev FromPosition := Ordinal ⟨"global_position", u64Max⟩

/-- A literal front of ceremony ids; white space counts. -/
structure CeremonyIdPrefix where
  val : String
  valid : val ≠ "" ∧ val.utf8ByteSize ≤ 256 ∧ val.toList.all (fun c => !isControl c) = true
deriving DecidableEq

/-- The calls of the store and of its index of streams; an append comes with or without evidence. -/
inductive EventStoreCall where
  | append (stream : CeremonyId) (expected : StreamVersion) (facts : List AuditFact)
      (authorization : Option AuthorizationEvidence)
  | read (stream : CeremonyId) (after : StreamVersion) (limit : CeremonyEventPageLimit)
  | readAll (from_ : FromPosition) (limit : CeremonyEventPageLimit)
  | head (stream : CeremonyId)
  | streams
  | idsAfter (after : Option CeremonyId) (idPrefix : Option CeremonyIdPrefix)
      (limit : CeremonyInstancePageLimit)

inductive EventStoreReply where
  | append (outcome : Result AppendOutcome)
  | read (records : Result (List AuditRecord))
  | readAll (records : Result (List PositionedRecord))
  | head (version : Result StreamVersion)
  | streams (ids : Result (List CeremonyId))
  | idsAfter (page : Result CeremonyInstanceIdPage)
deriving DecidableEq

def versionOf (records : List AuditRecord) : StreamVersion :=
  (records.getLast?.map (·.sequence)).getD 0

/-! ## The store -/

structure EventStoreState where
  streams : Map CeremonyId (List AuditRecord)
  /-- Where every record stands among the records of all streams. -/
  log : List (GlobalPosition × CeremonyId × AuditSequence)
  snapshots : Map CeremonyId (Map StreamVersion CeremonyInstance)

namespace EventStoreState

def empty : EventStoreState := ⟨∅, [], ∅⟩

variable (state : EventStoreState)

def stream (id : CeremonyId) : List AuditRecord :=
  state.streams[id]?.getD []

def nextPosition : GlobalPosition :=
  match state.log.getLast? with
  | none => 1
  | some (position, _, _) => position + 1

def logEntries (stream : CeremonyId) :
    GlobalPosition → List AuditRecord → List (GlobalPosition × CeremonyId × AuditSequence)
  | _, [] => []
  | position, record :: records =>
    (position, stream, record.sequence) :: logEntries stream (position + 1) records

variable (stream : CeremonyId)

def extend (sealed : List AuditRecord) : EventStoreState :=
  { state with
    log := state.log ++ logEntries stream state.nextPosition sealed
    streams := state.streams.insert stream (state.stream stream ++ sealed) }

def append (enc : RecordEncoding) (state : EventStoreState) (stream : CeremonyId)
    (expected : StreamVersion) (facts : List AuditFact)
    (authorization : Option AuthorizationEvidence) : Result AppendOutcome × EventStoreState :=
  let existing := state.stream stream
  let actual := versionOf existing
  if actual ≠ expected then
    (.ok (.conflict expected actual), state)
  else
    match sealContinuation enc stream existing facts authorization with
    | .error fault => (.error fault, state)
    | .ok sealed =>
      (.ok (.appended (versionOf (existing ++ sealed)) sealed state.nextPosition),
        state.extend stream sealed)

def read (after : StreamVersion) (limit : Nat) : List AuditRecord :=
  ((state.stream stream).drop after).take limit

def recordAt (entry : GlobalPosition × CeremonyId × AuditSequence) : Result PositionedRecord := do
  let record ← Outcome.okOr (state.stream entry.2.1)[entry.2.2 - 1]?
    (.invariantViolated "in-memory event store: the global log points at a missing record")
  pure ⟨entry.1, record⟩

def readAll (from_ : GlobalPosition) (limit : Nat) : Result (List PositionedRecord) :=
  ((state.log.drop (from_ - 1)).take limit).mapM state.recordAt

def head : StreamVersion :=
  versionOf (state.stream stream)

def streamIds : List CeremonyId := state.streams.toList.map (·.1)

def admitsId (idPrefix : Option CeremonyIdPrefix) (id : CeremonyId) : Bool :=
  idPrefix.all fun p => p.val.toList.isPrefixOf id.val.toList

def idsAfter (after : Option CeremonyId)
    (idPrefix : Option CeremonyIdPrefix) (limit : Nat) : CeremonyInstanceIdPage :=
  let ids := ((state.streamIds.filter (Scans.isAfter after)).filter (admitsId idPrefix)).take
    (limit + 1)
  ⟨ids.take limit, limit < ids.length⟩

def answer (enc : RecordEncoding) (state : EventStoreState) :
    EventStoreCall → EventStoreReply × EventStoreState
  | .append stream expected facts authorization =>
    let (outcome, state) := state.append enc stream expected facts authorization
    (.append outcome, state)
  | .read stream after limit => (.read (.ok (state.read stream after limit.val)), state)
  | .readAll from_ limit => (.readAll (state.readAll from_.val limit.val), state)
  | .head stream => (.head (.ok (state.head stream)), state)
  | .streams => (.streams (.ok state.streamIds), state)
  | .idsAfter after idPrefix limit =>
    (.idsAfter (.ok (state.idsAfter after idPrefix limit.val)), state)

/-! ## Snapshots -/

def save (version : StreamVersion) (i : CeremonyInstance) : EventStoreState :=
  { state with
    snapshots := state.snapshots.insert i.id ((state.snapshots[i.id]?.getD ∅).insert version i) }

def latest : Option (StreamVersion × CeremonyInstance) :=
  state.snapshots[stream]?.bind fun versions => versions.toList.getLast?

/-! ## Appends -/

end EventStoreState

namespace EventStoreState

variable {authorization : Option AuthorizationEvidence} {enc : RecordEncoding}
  {facts : List AuditFact}

structure Appends (store : EventStoreState) (id : CeremonyId)
    (expected : StreamVersion) (facts : List AuditFact) (version : StreamVersion)
    (records : List AuditRecord) (store' : EventStoreState) : Prop where
  expected : versionOf (store.stream id) = expected
  facts_ne : facts ≠ []
  ceremony : ∀ fact ∈ facts, fact.ceremonyId = id
  seals : SealsAll (nextSequence (store.stream id).getLast?) facts records
  version : version = versionOf (store.stream id ++ records)
  store : store' = store.extend id records

theorem append_eq_appended {store store' : EventStoreState} {id : CeremonyId}
    {expected version : StreamVersion} {records : List AuditRecord} {firstPosition : GlobalPosition}
    (h : store.append enc id expected facts authorization =
      (.ok (.appended version records firstPosition), store')) :
    Appends store id expected facts version records store' := by
  simp only [EventStoreState.append] at h
  split at h
  · cases h
  · rename_i hexp
    split at h
    · cases h
    · rename_i sealed hseal
      obtain ⟨hne, hcer, -, -, hseals⟩ := sealContinuation_eq_ok hseal
      cases h
      exact ⟨not_not.mp hexp, hne, hcer, hseals, rfl, rfl⟩

theorem append_fst_ne_appended {store : EventStoreState} {id : CeremonyId}
    {expected : StreamVersion} (h : ∀ version records firstPosition,
      (store.append enc id expected facts authorization).1 ≠
        .ok (.appended version records firstPosition)) :
    (store.append enc id expected facts authorization).2 = store := by
  simp only [EventStoreState.append] at h ⊢
  split
  · rfl
  · rename_i hexp
    rw [if_neg hexp] at h
    split
    · rfl
    · rename_i sealed hseal
      rw [hseal] at h
      exact absurd rfl (h _ _ _)

theorem stream_extend (store : EventStoreState) (id other : CeremonyId)
    (records : List AuditRecord) :
    (store.extend id records).stream other =
      store.stream other ++ if id = other then records else [] := by
  rw [EventStoreState.stream, EventStoreState.extend]
  by_cases hid : id = other
  · subst hid
    rw [if_pos rfl, Std.ExtTreeMap.getElem?_insert_self]
    rfl
  · rw [if_neg hid, Map.getElem?_insert_of_ne (Ne.symm hid), List.append_nil]
    rfl

end EventStoreState

end Made
