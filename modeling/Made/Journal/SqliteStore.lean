import Made.Journal.MemoryStore
import Made.Library.ByteOrder

/-!
# The event store in SQLite

Four tables carry the streams: the records under ceremony and sequence, the log that maps each
global position to the key of its record, the index of streams, and the last position handed out.
Keys are compared byte by byte.  Every call is one transaction, so that a refused append leaves all
tables as they were.
-/

namespace Made

structure StoredEvent where
  position : GlobalPosition
  record : AuditRecord
deriving DecidableEq

structure SqliteTables where
  events : Map (List UInt8) StoredEvent
  eventLog : Map (List UInt8) (List UInt8)
  streamIndex : Map String Unit
  /-- The row of the table of settings that the store keeps. -/
  lastGlobalPosition : Option GlobalPosition

/-! ## Keys -/

def scopedKey (ceremonyId : CeremonyId) (ordinal : Nat) : List UInt8 :=
  ByteOrder.scopedKey (Framing.utf8 ceremonyId.val) ordinal

def ceremonyOf (key : List UInt8) : Option (List UInt8) :=
  if 9 ≤ key.length then some (key.take (key.length - 9)) else none

def positionKey (value : GlobalPosition) : List UInt8 := Sha256.beBytes 8 value

/-- Bytes as a text; only texts are ever stored. -/
def fromUtf8Lossy (bytes : List UInt8) : String :=
  (String.fromUTF8? ⟨bytes.toArray⟩).getD ""

namespace SqliteTables

def empty : SqliteTables := ⟨∅, ∅, ∅, none⟩

def scanBytesRange {ν : Type} (table : Map (List UInt8) ν) (start end_ : List UInt8) :
    List (List UInt8 × ν) :=
  Scans.scan table fun k => compare start k != .gt && compare k end_ != .gt

variable (tables : SqliteTables)
variable (stream : CeremonyId)

def recordsAfter (after : StreamVersion) : List AuditRecord :=
  (scanBytesRange tables.events (scopedKey stream (min (after + 1) u64Max))
    (scopedKey stream u64Max)).map fun row => row.2.record

def insertRecords (stream : CeremonyId) :
    SqliteTables → GlobalPosition → List AuditRecord → SqliteTables
  | tables, _, [] => tables
  | tables, next, record :: records =>
    let key := scopedKey stream record.sequence
    insertRecords stream
      { tables with
        events := tables.events.insert key ⟨next, record⟩
        eventLog := tables.eventLog.insert (positionKey next) key }
      (next + 1) records

def extend (firstPosition : GlobalPosition) (sealed : List AuditRecord) : SqliteTables :=
  let tables := insertRecords stream tables firstPosition sealed
  { tables with
    streamIndex := tables.streamIndex.insert stream.val ()
    lastGlobalPosition := some (firstPosition + (sealed.length - 1)) }

def append (enc : RecordEncoding) (tables : SqliteTables) (stream : CeremonyId)
    (expected : StreamVersion) (facts : List AuditFact)
    (authorization : Option AuthorizationEvidence) : Result AppendOutcome × SqliteTables :=
  let existing := tables.recordsAfter stream 0
  let actual := versionOf existing
  if actual ≠ expected then
    (.ok (.conflict expected actual), tables)
  else
    match sealContinuation enc stream existing facts authorization with
    | .error fault => (.error fault, tables)
    | .ok sealed =>
      let firstPosition := (tables.lastGlobalPosition.map (· + 1)).getD 1
      (.ok (.appended ((sealed.getLast?.map (·.sequence)).getD actual) sealed firstPosition),
        tables.extend stream firstPosition sealed)

def read (after : StreamVersion) (limit : Nat) : List AuditRecord :=
  (tables.recordsAfter stream after).take limit

def recordAt (row : List UInt8 × List UInt8) : Result PositionedRecord := do
  let stored ← Outcome.okOr tables.events[row.2]?
    (.invariantViolated "sqlite: the event log points at a missing event")
  pure ⟨stored.position, stored.record⟩

def readAll (from_ : GlobalPosition) (limit : Nat) : Result (List PositionedRecord) :=
  let end_ := min (from_ + (limit - 1)) u64Max
  ((scanBytesRange tables.eventLog (positionKey from_) (positionKey end_)).take limit).mapM
    tables.recordAt

def head : StreamVersion :=
  versionOf (tables.recordsAfter stream 0)

def streamOfRow (row : List UInt8 × StoredEvent) : Result CeremonyId := do
  let id ← Outcome.okOr (ceremonyOf row.1)
    (.invariantViolated "sqlite: an events-table key is too short to hold a ceremony id")
  Text.new _ (fromUtf8Lossy id)

def streams : Result (List CeremonyId) := do
  let ids ← tables.events.toList.mapM streamOfRow
  let set : Map CeremonyId Unit := ids.foldl (fun set id => set.insert id ()) ∅
  pure (set.toList.map (·.1))

/-- `substr(k, 1, length(p)) = p`. -/
def startsWith (idPrefix : Option CeremonyIdPrefix) (k : String) : Bool :=
  idPrefix.all fun p => k.toList.take p.val.length = p.val.toList

def idsAfter (after : Option CeremonyId)
    (idPrefix : Option CeremonyIdPrefix) (limit : Nat) : Result CeremonyInstanceIdPage := do
  let rows := (Scans.scan tables.streamIndex fun k =>
    Scans.isAfter (after.map (·.val)) k && startsWith idPrefix k).take (limit + 1)
  let ids ← (rows.take limit).mapM fun row => Text.new (plainRule "ceremony_id" 256) row.1
  pure ⟨ids, limit < rows.length⟩

def answer (enc : RecordEncoding) (tables : SqliteTables) :
    EventStoreCall → EventStoreReply × SqliteTables
  | .append stream expected facts authorization =>
    let (outcome, tables) := tables.append enc stream expected facts authorization
    (.append outcome, tables)
  | .read stream after limit => (.read (.ok (tables.read stream after limit.val)), tables)
  | .readAll from_ limit => (.readAll (tables.readAll from_.val limit.val), tables)
  | .head stream => (.head (.ok (tables.head stream)), tables)
  | .streams => (.streams tables.streams, tables)
  | .idsAfter after idPrefix limit =>
    (.idsAfter (tables.idsAfter after idPrefix limit.val), tables)

end SqliteTables

end Made
