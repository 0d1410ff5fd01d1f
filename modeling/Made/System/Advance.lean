import Made.Journal.SessionStream
import Made.System.Run

/-!
# Advancing a run

Advancing a run brings its links up to date with what their ceremonies say, starts what is ready,
sends completed loops round again, starts what is ready then, and stores the run.  A composition is
started by opening the stream of its derived identity and seating its participants; the run itself
is stored once, at the end.
-/

namespace Made

open Interleaving Outcome

/-! ## Memory scopes -/

structure MemoryScope where
  val : String
deriving DecidableEq

namespace MemoryScope

def isKindCharacter (c : Char) : Bool :=
  isAsciiLowercase c || isAsciiDigit c || c == '_' || c == '-'

def new (raw : String) : Result MemoryScope := do
  let trimmed := trim raw
  require (trimmed ≠ "") (.emptyField "memory_scope")
  require (trimmed.length ≤ 256) (.fieldTooLong "memory_scope" trimmed.length 256)
  require (trimmed.toList.all fun c => !isControl c) (.invalidCharacters "memory_scope")
  let kind := trimmed.toList.takeWhile (· ≠ ':')
  let name := trimmed.toList.dropWhile (· ≠ ':')
  require (name ≠ []) (.invariantViolated
    "a memory scope says what kind of thing it is about, as `kind:name`")
  require (kind ≠ [] ∧ kind.all isKindCharacter = true) (.invalidCharacters "memory_scope.kind")
  require (trim (String.ofList name.tail) ≠ "") (.emptyField "memory_scope.name")
  pure ⟨trimmed⟩

/-- The scope a context declares, or the one of the ceremony alone. -/
def ofContext (context : CeremonyContext) (ceremonyId : CeremonyId) : Result MemoryScope :=
  match context.attributes.get "memory_scope" with
  | none => new ("ceremony:" ++ ceremonyId.val)
  | some (.string declared) => new declared
  | some _ => refuse (.invalidCharacters "context.memory_scope")

end MemoryScope

/-! ## Ports -/

inductive AgenticSystemExecutionUpdate where
  | updated (run : AgenticSystemExecution)
  | conflict (stored : AgenticSystemExecution)
deriving DecidableEq

def AgenticSystemExecutionUpdate.intoExecution :
    AgenticSystemExecutionUpdate → AgenticSystemExecution
  | updated run => run
  | conflict stored => stored

inductive AgenticSystemExecutionCreation where
  | created (run : AgenticSystemExecution)
  | alreadyExists (stored : AgenticSystemExecution)
deriving DecidableEq

/-- The calls of the use cases: the streams of ceremonies, the stored runs, publications, memory and
the clock. -/
inductive SystemCall where
  | stream (c : StreamCall)
  | createRun (run : AgenticSystemExecution)
  | getRun (id : AgenticSystemExecutionId)
  | updateRun (run : AgenticSystemExecution) (expectedUpdatedAt : OffsetDateTime)
  | publishedSystem (id : AgenticSystemId) (revision : Nat)
  | publishedDefinition (name : CeremonyName) (version : CeremonyVersion)
  | definition (name : CeremonyName) (version : CeremonyVersion)
  | recall (scope : MemoryScope)
  | now

abbrev SystemCall.Reply : SystemCall → Type
  | stream c => c.Reply
  | createRun _ => AgenticSystemExecutionCreation
  | getRun _ => Option AgenticSystemExecution
  | updateRun _ _ => Result AgenticSystemExecutionUpdate
  | publishedSystem _ _ => Option AgenticSystem
  | publishedDefinition _ _ => Option PublishedCeremonyDefinition
  | definition _ _ => Result CeremonyDefinition
  | .recall _ => Option SessionRecollection
  | now => OffsetDateTime

abbrev systemPorts : Interface := ⟨SystemCall, SystemCall.Reply⟩

abbrev SystemProg (α : Type) := ExceptT (Fault DomainError) (Prog systemPorts) α

namespace SystemProg

variable {α : Type}

def ask (c : SystemCall) : SystemProg c.Reply :=
  ExceptT.mk (Prog.call (I := systemPorts) c fun reply => .done (.ok reply))

def check (result : Result α) : SystemProg α := ExceptT.mk (pure result)

def stream (p : StreamProg α) : SystemProg α :=
  ExceptT.mk (p.run.translate (J := systemPorts) SystemCall.stream fun _ reply => reply)

end SystemProg

namespace Advance

/-! ## What the instances say -/

def found : Result LoadedSession → Result (Option CeremonyInstance)
  | .ok session => .ok (some session.instance_)
  | .error (.refused (.notFound _)) => .ok none
  | .error fault => .error fault

def load (id : CeremonyId) : SystemProg (Option CeremonyInstance) :=
  ExceptT.mk do
    let result ← (SystemProg.stream (SessionStream.load id)).run
    pure (found result)

def endedStatus (i : CeremonyInstance) : Option LinkStatus :=
  if i.lifecycle.phase ≠ .ended then none
  else if i.lifecycle.endReason = some .completed then some .completed
  else some .failed

def statusOf (id : CeremonyId) : SystemProg (Option LinkStatus) := do
  let session ← load id
  pure (session.bind endedStatus)

variable (run : AgenticSystemExecution)

def startedLinks : List (SystemCeremonyId × CeremonyId) :=
  run.ceremonies.toList.filterMap fun (id, link) =>
    if link.status = .started then link.instanceId.map fun instance_ => (id, instance_) else none

def settleLink (ceremony : SystemCeremonyId)
    (status : LinkStatus) : Result AgenticSystemExecution := do
  let link ← okOr (run.link ceremony) (.notFound "agentic_system_execution.ceremony")
  run.withLink ceremony (link.settled status) run.updatedAt

def settleAll : List (SystemCeremonyId × CeremonyId) → AgenticSystemExecution →
    SystemProg AgenticSystemExecution
  | [], run => pure run
  | (ceremony, instance_) :: rest, run => do
    match ← statusOf instance_ with
    | none => settleAll rest run
    | some status => do
      let run ← .check (settleLink run ceremony status)
      settleAll rest run

/-- Bring every started link up to date with its instance. -/
def settle : SystemProg AgenticSystemExecution :=
  settleAll (startedLinks run) run

def projectAll (run : AgenticSystemExecution) : List (InputName × CeremonyOutputRef) →
    Map String Value → SystemProg (Map String Value)
  | [], entries => pure entries
  | (input, source) :: rest, entries =>
    match (run.link source.ceremony).bind (·.instanceId) with
    | none => projectAll run rest entries
    | some instance_ => do
      let session ← load instance_
      match session.bind fun i => i.context.attributes.get source.output.val with
      | none => projectAll run rest entries
      | some value => projectAll run rest (entries.insert input.val value)

def projectedInputs (composition : CeremonyComposition) : SystemProg CeremonyContext := do
  let entries ← projectAll run composition.inputsFrom.toList ∅
  let attributes ← .check (Attributes.new entries)
  pure ⟨attributes⟩

/-! ## Launching -/

structure Caller where
  actorId : AuditActorId
  actorKind : AuditActorKind
  trace : String

variable (caller : Caller)

def party : Result AuditActor :=
  AuditActor.new caller.actorId.val caller.actorKind none

/-- Start a published ceremony: the append refuses a stream that is there already. -/
def startPublished (id : CeremonyId) (pin : DefinitionPin)
    (context : CeremonyContext) : SystemProg CeremonyInstance := do
  let published ← .ask (.publishedDefinition pin.name pin.version)
  let published ← .check (okOr published (.notFound "published_ceremony_definition"))
  let actor ← .check (party caller)
  let scope ← .check (MemoryScope.ofContext context id)
  let recalled ← .ask (.recall scope)
  let now ← .ask .now
  let opening ← .check (CeremonyInstance.decideStartBound id published context recalled now)
  let session ← .stream (SessionStream.open_ opening actor now caller.trace)
  pure session.instance_

def resolveDefinition (i : CeremonyInstance) : SystemProg CeremonyDefinition :=
  match i.boundDefinition with
  | none => do
    let definition ← .ask (.definition i.definitionName i.definitionVersion)
    .check definition
  | some digest => do
    let published ← .ask (.publishedDefinition i.definitionName i.definitionVersion)
    let published ← .check (okOr published (.notFound "published_ceremony_definition"))
    .check (require (published.digest = digest) (.invariantViolated
      "the published definition no longer matches the digest this instance ran"))
    pure published.definition

/-- Seat one role after the other, each against the seating so far. -/
def seatEvents (d : CeremonyDefinition) (now : OffsetDateTime) : CeremonyInstance →
    List (RoleId × Specialty) → Result (List CeremonyEvent)
  | _, [] => .ok []
  | i, (roleId, specialty) :: rest => do
    let decided ← i.decide d (.bindParticipant ⟨roleId, specialty, now⟩)
    let seated ← i.applyAll decided
    let more ← seatEvents d now seated rest
    pure (decided ++ more)

def retryAttempts : Nat := 3

def bindParticipants (id : CeremonyId) (seats : List (RoleId × Specialty)) :
    SystemProg CeremonyInstance := do
  let session ← .stream (SessionStream.load id)
  let definition ← resolveDefinition session.instance_
  let actor ← .check (party caller)
  let now ← .ask .now
  let session ← .stream (SessionStream.execute (fun session => do
    let events ← seatEvents definition now session.instance_ seats
    SessionFacts.facts session.instance_ events actor now) caller.trace session.instance_.id
    retryAttempts session)
  pure session.instance_

/-- Start one composition under its derived identity and seat it. -/
def launch (run : AgenticSystemExecutionId) (composition : CeremonyComposition)
    (round : LoopRound) (context : CeremonyContext)
    (materialized : Map ParticipantId ParticipantMaterialization) : SystemProg CeremonyId := do
  let id ← .check (instanceId run composition.id round)
  let _ ← startPublished caller id composition.pin context
  let seats := seating composition materialized
  if seats = [] then
    pure id
  else do
    let _ ← bindParticipants caller id seats
    pure id

/-! ## Advancing -/

def begin_ (system : AgenticSystem) (run : AgenticSystemExecution)
    (ceremony : SystemCeremonyId) : SystemProg CeremonyExecutionLink := do
  let link ← .check (okOr (run.link ceremony) (.notFound "agentic_system_execution.ceremony"))
  match ← .check (blocking system run.participants ceremony) with
  | some reason => pure (link.skipped reason)
  | none => do
    let composition ← .check (expect system.ceremonies[ceremony]? "no entry found for key")
    let context ← projectedInputs run composition
    let id ← launch caller run.id composition link.round.next context run.participants
    pure (link.started id link.round.next)

def beginAll (caller : Caller) (system : AgenticSystem) : List SystemCeremonyId →
    AgenticSystemExecution → SystemProg AgenticSystemExecution
  | [], run => pure run
  | ceremony :: rest, run => do
    let link ← begin_ caller system run ceremony
    let now ← .ask .now
    let run ← .check (run.withLink ceremony link now)
    beginAll caller system rest run

def startReady (system : AgenticSystem) (run : AgenticSystemExecution) :
    SystemProg AgenticSystemExecution :=
  beginAll caller system (run.ready system) run

def store : SystemProg AgenticSystemExecution := do
  let stored ← .ask (.getRun run.id)
  let stored ← .check (okOr stored (.notFound "agentic_system_execution"))
  let update ← .ask (.updateRun run stored.updatedAt)
  let update ← .check update
  pure update.intoExecution

def advanced (id : AgenticSystemExecutionId) :
    SystemProg AgenticSystemExecution := do
  let before ← .ask (.getRun id)
  let before ← .check (okOr before (.notFound "agentic_system_execution"))
  let system ← .ask (.publishedSystem before.system.id before.system.revision)
  let system ← .check (okOr system (.notFound "published_agentic_system"))
  let run ← settle before
  let run ← startReady caller system run
  let now ← .ask .now
  let run ← .check (reopen run system now)
  startReady caller system run

def execute (id : AgenticSystemExecutionId) :
    SystemProg AgenticSystemExecution := do
  let run ← advanced caller id
  store run

end Advance

/-! ## The stores -/

structure Publications where
  systems : AgenticSystemId → Nat → Option AgenticSystem
  definitions : CeremonyName → CeremonyVersion → Option PublishedCeremonyDefinition
  repository : CeremonyName → CeremonyVersion → Result CeremonyDefinition

structure SystemState where
  events : EventStoreState
  runs : Map AgenticSystemExecutionId AgenticSystemExecution

namespace SystemState

def createRun (s : SystemState) (run : AgenticSystemExecution) :
    AgenticSystemExecutionCreation × SystemState :=
  match s.runs[run.id]? with
  | some stored => (.alreadyExists stored, s)
  | none => (.created run, { s with runs := s.runs.insert run.id run })

def updateRun (s : SystemState) (run : AgenticSystemExecution)
    (expectedUpdatedAt : OffsetDateTime) : Result AgenticSystemExecutionUpdate × SystemState :=
  match s.runs[run.id]? with
  | none => (refuse (.notFound "agentic_system_execution"), s)
  | some stored =>
    if stored.updatedAt ≠ expectedUpdatedAt then (.ok (.conflict stored), s)
    else (.ok (.updated run), { s with runs := s.runs.insert run.id run })

end SystemState

namespace Advance

/-- What the ports do.  The clock and the memory reply anything, an authorization may be given or
refused, and the write of a snapshot may fail. -/
inductive Performs (enc : RecordEncoding) (published : Publications) :
    SystemState → (c : SystemCall) → c.Reply → SystemState → Prop where
  | latest (s : SystemState) (id : CeremonyId) :
      Performs enc published s (.stream (.latest id)) (s.events.latest id) s
  | saved (s : SystemState) (version : StreamVersion) (i : CeremonyInstance) :
      Performs enc published s (.stream (.save version i)) (.ok ())
        { s with events := s.events.save version i }
  | unsaved (s : SystemState) (version : StreamVersion) (i : CeremonyInstance)
      (fault : Fault DomainError) :
      Performs enc published s (.stream (.save version i)) (.error fault) s
  | head (s : SystemState) (id : CeremonyId) :
      Performs enc published s (.stream (.head id)) (s.events.head id) s
  | read (s : SystemState) (id : CeremonyId) (after : StreamVersion)
      (limit : CeremonyEventPageLimit) :
      Performs enc published s (.stream (.read id after limit)) (s.events.read id after limit.val) s
  | authorize (s : SystemState) (id : CeremonyId) (version : StreamVersion)
      (facts : List AuditFact) (reply : Result (Option AuthorizationEvidence)) :
      Performs enc published s (.stream (.authorize id version facts)) reply s
  | append (s : SystemState) (id : CeremonyId) (expected : StreamVersion) (facts : List AuditFact)
      (authorization : Option AuthorizationEvidence) :
      Performs enc published s (.stream (.append id expected facts authorization))
        (s.events.append enc id expected facts authorization).1
        { s with events := (s.events.append enc id expected facts authorization).2 }
  | observe (s : SystemState) (version : StreamVersion) (records : List AuditRecord)
      (firstPosition : GlobalPosition) :
      Performs enc published s (.stream (.observe version records firstPosition)) () s
  | createRun (s : SystemState) (run : AgenticSystemExecution) :
      Performs enc published s (.createRun run) (s.createRun run).1 (s.createRun run).2
  | getRun (s : SystemState) (id : AgenticSystemExecutionId) :
      Performs enc published s (.getRun id) s.runs[id]? s
  | updateRun (s : SystemState) (run : AgenticSystemExecution) (expectedUpdatedAt : OffsetDateTime) :
      Performs enc published s (.updateRun run expectedUpdatedAt)
        (s.updateRun run expectedUpdatedAt).1 (s.updateRun run expectedUpdatedAt).2
  | publishedSystem (s : SystemState) (id : AgenticSystemId) (revision : Nat) :
      Performs enc published s (.publishedSystem id revision) (published.systems id revision) s
  | publishedDefinition (s : SystemState) (name : CeremonyName) (version : CeremonyVersion) :
      Performs enc published s (.publishedDefinition name version)
        (published.definitions name version) s
  | definition (s : SystemState) (name : CeremonyName) (version : CeremonyVersion) :
      Performs enc published s (.definition name version) (published.repository name version) s
  | recall (s : SystemState) (scope : MemoryScope) (recalled : Option SessionRecollection) :
      Performs enc published s (.recall scope) recalled s
  | now (s : SystemState) (instant : OffsetDateTime) : Performs enc published s .now instant s

end Advance

end Made
