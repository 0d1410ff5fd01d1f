import Made.Journal.Facts
import Made.Journal.MemoryStore
import Made.Library.Interleaving

/-!
# A session as the fold of its stream

A use case loads the fold of a stream, decides, and appends the facts its decision produced,
expecting the stream to be at the version it decided against.  Loading starts at the latest snapshot
and folds the records after it; a snapshot is written after every append, and its failure is
swallowed.  Every `await` on a port is one call of the program.
-/

namespace Made

open Interleaving Outcome

/-! ## Ports -/

/-- The calls to the event store, the snapshot store, the authorization of appends and the
subscriber. -/
inductive StreamCall where
  | latest (id : CeremonyId)
  | save (version : StreamVersion) (i : CeremonyInstance)
  | head (id : CeremonyId)
  | read (id : CeremonyId) (after : StreamVersion) (limit : CeremonyEventPageLimit)
  | authorize (id : CeremonyId) (version : StreamVersion) (facts : List AuditFact)
  | append (id : CeremonyId) (expected : StreamVersion) (facts : List AuditFact)
      (authorization : Option AuthorizationEvidence)
  | observe (version : StreamVersion) (records : List AuditRecord) (firstPosition : GlobalPosition)

abbrev StreamCall.Reply : StreamCall → Type
  | latest _ => Option (StreamVersion × CeremonyInstance)
  | save _ _ => Result Unit
  | head _ => StreamVersion
  | read _ _ _ => List AuditRecord
  | authorize _ _ _ => Result (Option AuthorizationEvidence)
  | append _ _ _ _ => Result AppendOutcome
  | observe _ _ _ => Unit

abbrev streamPorts : Interface := ⟨StreamCall, StreamCall.Reply⟩

abbrev StreamProg (α : Type) := ExceptT (Fault DomainError) (Prog streamPorts) α

namespace StreamProg

def ask (c : StreamCall) : StreamProg c.Reply :=
  ExceptT.mk (Except.ok <$> Prog.ask (I := streamPorts) c)

def check {α : Type} (result : Result α) : StreamProg α := ExceptT.mk (pure result)

end StreamProg

/-! ## Folding records -/

structure LoadedSession where
  instance_ : CeremonyInstance
  version : StreamVersion
  head : Option EventId
deriving DecidableEq

structure FoldState where
  instance_ : Option CeremonyInstance
  version : StreamVersion
  head : Option EventId
deriving DecidableEq

namespace SessionStream

/-- The event of a record; a record of the first schema carries none. -/
def eventOf (record : AuditRecord) : Result CeremonyEvent :=
  okOr record.event (.unreadableCeremonyEvent record.eventType.asStr record.schemaVersion
    "the record carries no event to fold; a schema version 1 journal needs the migration command")

/-- The first event opens the session, every other one is written into it. -/
def foldEvent : Option CeremonyInstance → CeremonyEvent → Result CeremonyInstance
  | none, .ceremonyInstanceStarted started => .ok (CeremonyInstance.fromStarted started)
  | none, .instanceImported imported => .ok imported.snapshot
  | none, _ => refuse
      (.invariantViolated "a ceremony stream opens with its start or with its import")
  | some i, event => i.apply event

def foldRecord (s : FoldState) (record : AuditRecord) : Result FoldState := do
  let event ← eventOf record
  let i ← foldEvent s.instance_ event
  pure ⟨some i, record.sequence, some record.eventId⟩

def loaded (s : FoldState) : Result LoadedSession := do
  let i ← okOr s.instance_ (.notFound "ceremony_instance")
  pure ⟨i, s.version, s.head⟩

def foldRecords (records : List AuditRecord) : Result LoadedSession := do
  let s ← records.foldlM foldRecord ⟨none, 0, none⟩
  loaded s

/-- Fold a record after a snapshot; one that the snapshot covers only says which record was the
head. -/
def resumeRecord (s : FoldState) (record : AuditRecord) : Result FoldState := do
  let event ← eventOf record
  if s.version < record.sequence then do
    let i ← foldEvent s.instance_ event
    pure ⟨some i, record.sequence, some record.eventId⟩
  else
    pure { s with head := some record.eventId }

/-! ## Loading -/

structure CeremonyEventPage where
  records : List AuditRecord
  nextVersion : StreamVersion

def readPage (id : CeremonyId) (from_ : StreamVersion) (limit : CeremonyEventPageLimit) :
    StreamProg CeremonyEventPage := do
  let records ← .ask (.read id from_ limit)
  let head ← .ask (.head id)
  .check (require (head ≠ 0) (.notFound "ceremony_instance"))
  pure ⟨records, (records.getLast?.map (·.sequence)).getD head⟩

def defaultPageLimit : Nat := 200

def pageLimit (remaining : Nat) : Result CeremonyEventPageLimit :=
  let value := min remaining defaultPageLimit
  if h : 1 ≤ value ∧ value ≤ 1000 then
    .ok ⟨value, h.1, h.2⟩
  else
    refuse (.outOfRange "ceremony_event_page_limit" value 1 1000)

/-- Read page after page up to the head; every page brings at least one record, so that there are
turns enough. -/
def readThrough (id : CeremonyId) (through : StreamVersion) :
    Nat → StreamVersion → List AuditRecord → StreamProg (List AuditRecord)
  | 0, _, records => pure records
  | turns + 1, from_, records =>
    if from_ < through then do
      let limit ← .check (pageLimit (through - from_))
      let page ← readPage id from_ limit
      .check (require (page.records ≠ [] ∧ from_ < page.nextVersion)
        (.invariantViolated "ceremony event page did not advance to the captured head"))
      readThrough id through turns page.nextVersion (records ++ page.records)
    else
      pure records

/-- The records after `from_`, up to the head captured by this call. -/
def executeFrom (id : CeremonyId) (from_ : StreamVersion) : StreamProg (List AuditRecord) := do
  let through ← .ask (.head id)
  .check (require (through ≠ 0) (.notFound "ceremony_instance"))
  readThrough id through (through - from_) from_ []

def fromSnapshot : Option (StreamVersion × CeremonyInstance) → FoldState
  | some (version, i) => ⟨some i, version, none⟩
  | none => ⟨none, 0, none⟩

def resume (s : FoldState) (records : List AuditRecord) : Result LoadedSession := do
  let s ← records.foldlM resumeRecord s
  loaded s

def load (id : CeremonyId) : StreamProg LoadedSession := do
  let snapshot ← .ask (.latest id)
  let s := fromSnapshot snapshot
  let records ← executeFrom id (s.version - 1)
  .check (resume s records)

/-! ## Appending -/

/-- A fact that is admitted now is never backdated. -/
def admitFact (evidence : AuthorizationEvidence) (fact : AuditFact) : AuditFact :=
  { fact with occurredAt := max fact.occurredAt evidence.admittedAt }

/-- The facts as they are appended under an authorization, if there is one. -/
def admitted (evidence : Option AuthorizationEvidence) (facts : List AuditFact) : List AuditFact :=
  match evidence with
  | some evidence => facts.map (admitFact evidence)
  | none => facts

def append (id : CeremonyId) (version : StreamVersion) (facts : List AuditFact) :
    StreamProg AppendOutcome := do
  let authorization ← .ask (.authorize id version facts)
  let evidence ← .check authorization
  let outcome ← .ask (.append id version (admitted evidence facts) evidence)
  .check outcome

/-- Every fact correlates to the opening and is caused by the fact before it, the first one by the
head it was decided at. -/
def dress (correlation : EventId) (trace : String) : Option EventId → List AuditFact →
    List AuditFact
  | _, [] => []
  | causation, fact :: facts =>
    { fact with
      correlationId := some correlation
      causationId := causation
      traceId := some trace } :: dress correlation trace (some fact.eventId) facts

/-- What is done with an append: write the snapshot, whatever becomes of it, and tell the
subscriber. -/
def afterAppend (i : CeremonyInstance) (head : Option EventId) (refused : DomainError) :
    AppendOutcome → StreamProg LoadedSession
  | .appended version records firstPosition => do
    let _ ← .ask (.save version i)
    let _ ← .ask (.observe version records firstPosition)
    pure ⟨i, version, head⟩
  | .conflict _ _ => .check (refuse refused)

/-- The facts of an opening, dressed, and the session they start. -/
def openingFacts (opening : List CeremonyEvent) (actor : AuditActor) (occurredAt : OffsetDateTime)
    (trace : String) : Result (CeremonyInstance × List AuditFact) :=
  match opening with
  | .ceremonyInstanceStarted started :: _ => do
    let i := CeremonyInstance.fromStarted started
    let facts ← SessionFacts.facts i opening actor occurredAt
    let i ← i.applyAll (facts.map (·.event))
    match facts with
    | first :: _ => pure (i, dress first.eventId trace none facts)
    | [] => pure (i, [])
  | _ => refuse (.invariantViolated "a session opens with its start event")

def open_ (opening : List CeremonyEvent) (actor : AuditActor) (occurredAt : OffsetDateTime)
    (trace : String) : StreamProg LoadedSession := do
  let (i, facts) ← .check (openingFacts opening actor occurredAt trace)
  let outcome ← append i.id 0 facts
  afterAppend i (facts.getLast?.map (·.eventId)) (.alreadyExists "ceremony_instance") outcome

/-- The facts of a commit, dressed, and the session after them. -/
def committedFacts (session : LoadedSession) (facts : List AuditFact) (trace : String) :
    Result (CeremonyInstance × List AuditFact) := do
  let correlation ← SessionFacts.openingEventId session.instance_.id
  let i ← session.instance_.applyAll (facts.map (·.event))
  pure (i, dress correlation trace session.head facts)

/-- Append the facts a decision produced, expecting the stream to be where the session was loaded
from. -/
def commit (session : LoadedSession) (facts : List AuditFact) (trace : String) :
    StreamProg LoadedSession := do
  let (i, dressed) ← .check (committedFacts session facts trace)
  let outcome ← append i.id session.version dressed
  afterAppend i ((facts.getLast?.map (·.eventId)).or session.head) (.conflict "ceremony_instance")
    outcome

/-- Decide and append once; what follows a conflict is the caller's to say. -/
def attempt (decide_ : LoadedSession → Result (List AuditFact)) (trace : String)
    (session : LoadedSession) (onConflict : String → StreamProg LoadedSession) :
    StreamProg LoadedSession := do
  let facts ← .check (decide_ session)
  if facts = [] then
    pure session
  else
    ExceptT.mk do
      match ← (commit session facts trace).run with
      | .error (.refused (.conflict resource)) => (onConflict resource).run
      | outcome => pure outcome

/-- Decide against the session and append; on a conflict the stream is loaded again, as long as
attempts are left. -/
def execute (decide_ : LoadedSession → Result (List AuditFact)) (trace : String) (id : CeremonyId) :
    Nat → LoadedSession → StreamProg LoadedSession
  | 0, session | 1, session =>
    attempt decide_ trace session fun resource => .check (refuse (.conflict resource))
  | attempts + 2, session => attempt decide_ trace session fun _ => do
      let session ← load id
      execute decide_ trace id (attempts + 1) session

end SessionStream

/-! ## Any number of writers -/

inductive StreamInput where
  | load (id : CeremonyId)
  | open_ (opening : List CeremonyEvent) (actor : AuditActor) (occurredAt : OffsetDateTime)
      (trace : String)
  | commit (session : LoadedSession) (facts : List AuditFact) (trace : String)
  | execute (session : LoadedSession) (attempts : Nat)
      (decide_ : LoadedSession → Result (List AuditFact)) (trace : String)

def StreamInput.code : StreamInput → Prog streamPorts (Result LoadedSession)
  | load id => (SessionStream.load id).run
  | open_ opening actor occurredAt trace => (SessionStream.open_ opening actor occurredAt trace).run
  | commit session facts trace => (SessionStream.commit session facts trace).run
  | execute session attempts decide_ trace =>
    (SessionStream.execute decide_ trace session.instance_.id attempts session).run

/-- The store, and every snapshot that was ever handed to it. -/
structure StreamStore where
  store : EventStoreState
  requested : List (StreamVersion × CeremonyInstance)

/-- Snapshots handed to the store are written at any time, in any order, or never. -/
inductive StreamStore.Writes : StreamStore → StreamStore → Prop where
  | none (s : StreamStore) : Writes s s
  | save {s t : StreamStore} {version : StreamVersion} {i : CeremonyInstance}
      (requested : (version, i) ∈ s.requested)
      (rest : Writes ⟨s.store.save version i, s.requested⟩ t) : Writes s t

/-- What a port replies.  An authorization may be refused or given, and the write of a snapshot may
fail or be put off; everything else is the store in memory. -/
inductive StreamStore.Answers (enc : RecordEncoding) :
    StreamStore → (c : StreamCall) → c.Reply → StreamStore → Prop where
  | latest (s : StreamStore) (id : CeremonyId) : Answers enc s (.latest id) (s.store.latest id) s
  | save (s : StreamStore) (version : StreamVersion) (i : CeremonyInstance) (reply : Result Unit) :
      Answers enc s (.save version i) reply ⟨s.store, s.requested ++ [(version, i)]⟩
  | head (s : StreamStore) (id : CeremonyId) : Answers enc s (.head id) (s.store.head id) s
  | read (s : StreamStore) (id : CeremonyId) (after : StreamVersion)
      (limit : CeremonyEventPageLimit) :
      Answers enc s (.read id after limit) (s.store.read id after limit.val) s
  | authorize (s : StreamStore) (id : CeremonyId) (version : StreamVersion) (facts : List AuditFact)
      (reply : Result (Option AuthorizationEvidence)) :
      Answers enc s (.authorize id version facts) reply s
  | append (s : StreamStore) (id : CeremonyId) (expected : StreamVersion) (facts : List AuditFact)
      (authorization : Option AuthorizationEvidence) :
      Answers enc s (.append id expected facts authorization)
        (s.store.append enc id expected facts authorization).1
        ⟨(s.store.append enc id expected facts authorization).2, s.requested⟩
  | observe (s : StreamStore) (version : StreamVersion) (records : List AuditRecord)
      (firstPosition : GlobalPosition) :
      Answers enc s (.observe version records firstPosition) () s

/-- A call, after whatever writes of snapshots have come through. -/
def StreamStore.Performs (enc : RecordEncoding) (s : StreamStore) (c : StreamCall) (reply : c.Reply)
    (t : StreamStore) : Prop :=
  ∃ s', Writes s s' ∧ Answers enc s' c reply t

def streamWriters (enc : RecordEncoding) :
    Pool streamPorts StreamStore StreamInput (Result LoadedSession) where
  code := StreamInput.code
  performs := StreamStore.Performs enc

end Made
