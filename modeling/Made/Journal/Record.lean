import Made.Authorization.Values
import Made.Events.Types

/-!
# Sealed records

A fact states an event and its envelope before the journal has a place for it.  Sealing gives the
fact its sequence and binds it by a digest to the record before it.  `sealContinuation` is the part
of an append that every store shares: it refuses an empty batch, a fact of another ceremony and an
event id that the stream or the batch already holds, and seals the rest one after the other.
-/

namespace Made

open Outcome

variable {authorization : Option AuthorizationEvidence}

/-! ## Facts and records -/

abbrev AuditActorName := Text ⟨"audit_actor.actor_id", 256, fun _ => true⟩

structure AuditActor where
  actorId : AuditActorName
  kind : AuditActorKind
  roleId : Option RoleId
deriving DecidableEq

def AuditActor.new (actorId : String) (kind : AuditActorKind) (roleId : Option RoleId) :
    Result AuditActor := do
  let actorId ← Text.new _ actorId
  pure ⟨actorId, kind, roleId⟩

abbrev AuditSequence := Nat

abbrev StreamVersion := Nat

/-- The place of a record among the records of all streams, from one. -/
abbrev GlobalPosition := Nat

structure AuditFact where
  eventId : EventId
  event : CeremonyEvent
  ceremonyId : CeremonyId
  definitionName : CeremonyName
  definitionVersion : CeremonyVersion
  occurredAt : OffsetDateTime
  actor : AuditActor
  correlationId : Option EventId
  causationId : Option EventId
  traceId : Option String
deriving DecidableEq

structure AuditRecord where
  eventId : EventId
  eventType : AuditEventType
  schemaVersion : Nat
  ceremonyId : CeremonyId
  definitionName : CeremonyName
  definitionVersion : CeremonyVersion
  sequence : AuditSequence
  occurredAt : OffsetDateTime
  actor : AuditActor
  correlationId : Option EventId
  causationId : Option EventId
  traceId : Option String
  eventSchemaVersion : Option EventSchemaVersion
  event : Option CeremonyEvent
  authorizationEvidence : Option AuthorizationEvidence
  previousRecordHash : Option AuditRecordHash
  recordHash : AuditRecordHash
deriving DecidableEq

/-- The renderings a digest covers: timestamps, and the payloads as canonical JSON. -/
structure RecordEncoding where
  timestamp : OffsetDateTime → Option String
  event : CeremonyEvent → Option (List UInt8)
  evidence : AuthorizationEvidence → Option (List UInt8)

def eventBearingSchemaVersion : Nat := 2

def authorizedSchemaVersion : Nat := 3

def AuditActorKind.asStr : AuditActorKind → String
  | human => "human"
  | agent => "agent"
  | service => "service"
  | engine => "engine"

/-! ## Digests -/

/-- An absent field is one byte; a present one is tagged before its length. -/
def writeOptional : Option (List UInt8) → List UInt8
  | none => [0]
  | some value => 1 :: Framing.frame value

namespace AuditRecord

variable (enc : RecordEncoding)

def canonicalScheme : Nat → Option String
  | 1 => some "underpass.made.audit-record.v1"
  | 2 => some "underpass.made.audit-record.v2"
  | 3 => some "underpass.made.audit-record.v3"
  | _ => none

/-- The fields every shape digests, after the scheme and the schema version. -/
def canonicalEnvelope (r : AuditRecord) (occurredAt : String) : List UInt8 :=
  Framing.frame (Framing.utf8 r.eventId.val) ++ Framing.frame (Framing.utf8 r.eventType.asStr) ++
    Framing.frame (Framing.utf8 r.ceremonyId.val) ++
    Framing.frame (Framing.utf8 r.definitionName.val) ++
    Framing.frame (Framing.utf8 r.definitionVersion.val) ++ Sha256.beBytes 8 r.sequence ++
    Framing.frame (Framing.utf8 occurredAt) ++
    Framing.frame (Framing.utf8 r.actor.actorId.val) ++
    Framing.frame (Framing.utf8 r.actor.kind.asStr) ++
    writeOptional (r.actor.roleId.map fun role => Framing.utf8 role.val) ++
    writeOptional (r.correlationId.map fun id => Framing.utf8 id.val) ++
    writeOptional (r.causationId.map fun id => Framing.utf8 id.val) ++
    writeOptional (r.traceId.map Framing.utf8) ++
    writeOptional (r.previousRecordHash.map (·.bytes))

def canonicalPayload (r : AuditRecord) : Result (List UInt8) :=
  if r.schemaVersion = eventBearingSchemaVersion ∨ r.schemaVersion = authorizedSchemaVersion then
    match r.eventSchemaVersion, r.event with
    | some version, some event => do
      let payload ← okOr (enc.event event)
        (.invariantViolated "ceremony event cannot be rendered canonically")
      pure (Sha256.beBytes 4 version.val ++ Framing.frame payload)
    | _, _ => refuse (.invariantViolated "a version-2 audit record must carry its event")
  else
    .ok []

def canonicalEvidence (r : AuditRecord) : Result (List UInt8) :=
  if r.schemaVersion = authorizedSchemaVersion then do
    let evidence ← okOr r.authorizationEvidence
      (.invariantViolated "a version-3 audit record must carry authorization evidence")
    let authorization ← okOr (enc.evidence evidence)
      (.invariantViolated "authorization evidence cannot be rendered canonically")
    pure (Framing.frame authorization)
  else
    .ok []

def computeHash (r : AuditRecord) : Result AuditRecordHash := do
  let occurredAt ← okOr (enc.timestamp r.occurredAt)
    (.invariantViolated "audit record timestamp cannot be rendered canonically")
  let scheme ← okOr (canonicalScheme r.schemaVersion)
    (.invariantViolated "audit record schema version has no canonical form")
  let payload ← r.canonicalPayload enc
  let authorization ← r.canonicalEvidence enc
  pure (RawDigest.ofMessage _ (Framing.utf8 scheme ++ Sha256.beBytes 4 r.schemaVersion ++
    r.canonicalEnvelope occurredAt ++ payload ++ authorization))

/-- Whether the fields present match what the schema version seals. -/
def hasCanonicalShape (r : AuditRecord) : Bool :=
  match r.schemaVersion with
  | 1 => r.event.isNone && r.eventSchemaVersion.isNone && r.authorizationEvidence.isNone
  | 2 => r.event.isSome && r.eventSchemaVersion.isSome && r.authorizationEvidence.isNone
  | 3 => r.event.isSome && r.eventSchemaVersion.isSome && r.authorizationEvidence.isSome
  | _ => false

def digestIsIntact (r : AuditRecord) : Result Bool :=
  if r.hasCanonicalShape then do
    let hash ← r.computeHash enc
    pure (decide (hash = r.recordHash))
  else
    .ok false

/-! ## Sealing -/

def validatePredecessor (previous : AuditRecord) : Result Unit := do
  let intact ← previous.digestIsIntact enc
  require (intact = true) (.invariantViolated
    "an audit record cannot follow an unsupported or altered predecessor")

def validateAuthorizationEvidence (evidence : AuthorizationEvidence)
    (occurredAt : OffsetDateTime) : Result Unit := do
  require (evidence.admittedAt < evidence.validUntil)
    (.invariantViolated "audit authorization evidence expiry must follow admission")
  require (evidence.admittedAt ≤ occurredAt ∧ occurredAt < evidence.validUntil)
    (.invariantViolated "audit fact must occur while its authorization evidence is live")

/-- The evidence of an authorized fact is checked, an unauthorized fact has none. -/
def validateEvidence (evidence : Option AuthorizationEvidence) (occurredAt : OffsetDateTime) :
    Result Unit :=
  match evidence with
  | some evidence => validateAuthorizationEvidence evidence occurredAt
  | none => .ok ()

def unsealed (fact : AuditFact) (authorizationEvidence : Option AuthorizationEvidence)
    (sequence : AuditSequence) (previousRecordHash : Option AuditRecordHash) : AuditRecord where
  eventId := fact.eventId
  eventType := fact.event.eventType
  schemaVersion :=
    if authorizationEvidence.isSome then authorizedSchemaVersion else eventBearingSchemaVersion
  ceremonyId := fact.ceremonyId
  definitionName := fact.definitionName
  definitionVersion := fact.definitionVersion
  sequence := sequence
  occurredAt := fact.occurredAt
  actor := fact.actor
  correlationId := fact.correlationId
  causationId := fact.causationId
  traceId := fact.traceId
  eventSchemaVersion := some fact.event.schemaVersion
  event := some fact.event
  authorizationEvidence := authorizationEvidence
  previousRecordHash := previousRecordHash
  recordHash := ⟨List.replicate 32 0, rfl⟩

def seal_ (fact : AuditFact) (authorizationEvidence : Option AuthorizationEvidence)
    (sequence : AuditSequence) (previousRecordHash : Option AuditRecordHash) :
    Result AuditRecord := do
  validateEvidence authorizationEvidence fact.occurredAt
  let record := unsealed fact authorizationEvidence sequence previousRecordHash
  let recordHash ← record.computeHash enc
  pure { record with recordHash }

def first (fact : AuditFact) (evidence : Option AuthorizationEvidence) : Result AuditRecord :=
  seal_ enc fact evidence 1 none

def following (fact : AuditFact) (evidence : Option AuthorizationEvidence)
    (previous : AuditRecord) : Result AuditRecord := do
  previous.validatePredecessor enc
  require (fact.ceremonyId = previous.ceremonyId)
    (.invariantViolated "an audit record must belong to the same ceremony as its predecessor")
  seal_ enc fact evidence (previous.sequence + 1) (some previous.recordHash)

end AuditRecord

/-! ## Continuations -/

/-- The ids of a batch, each of them new to what is seen before it. -/
def requireNewEventIds : List EventId → List AuditFact → Result Unit
  | _, [] => .ok ()
  | seen, fact :: rest =>
    if fact.eventId ∈ seen then refuse (.alreadyExists "ceremony_event")
    else requireNewEventIds (fact.eventId :: seen) rest

def sealNext (enc : RecordEncoding) (authorization : Option AuthorizationEvidence)
    (head : Option AuditRecord) (fact : AuditFact) : Result AuditRecord :=
  match head with
  | some previous => AuditRecord.following enc fact authorization previous
  | none => AuditRecord.first enc fact authorization

/-- Seal facts one after the other, each against the record before it. -/
def sealAll (enc : RecordEncoding) (authorization : Option AuthorizationEvidence) :
    Option AuditRecord → List AuditFact → Result (List AuditRecord)
  | _, [] => .ok []
  | head, fact :: rest => do
    let record ← sealNext enc authorization head fact
    let more ← sealAll enc authorization (some record) rest
    pure (record :: more)

/-- The records that `facts` become after `existing`, the whole of `stream` as stored. -/
def sealContinuation (enc : RecordEncoding) (stream : CeremonyId) (existing : List AuditRecord)
    (facts : List AuditFact) (authorization : Option AuthorizationEvidence) :
    Result (List AuditRecord) := do
  require (facts ≠ []) (.emptyCollection "event_store_facts")
  require (∀ fact ∈ facts, fact.ceremonyId = stream)
    (.invariantViolated "an event store append only takes facts of the stream it targets")
  requireNewEventIds (existing.map (·.eventId)) facts
  sealAll enc authorization existing.getLast? facts

/-! ## What is sealed -/

variable {facts : List AuditFact}

theorem requireNewEventIds_eq_ok {seen : List EventId} {u : Unit} :
    requireNewEventIds seen facts = .ok u ↔
      (facts.map (·.eventId)).Nodup ∧ ∀ fact ∈ facts, fact.eventId ∉ seen := by
  induction facts generalizing seen with
  | nil => simp [requireNewEventIds]
  | cons fact rest ih =>
    rw [requireNewEventIds, List.map_cons, List.nodup_cons, List.forall_mem_cons]
    by_cases hseen : fact.eventId ∈ seen
    · simp [hseen]
    · rw [if_neg hseen, ih]
      simp only [List.mem_cons, not_or, List.mem_map, not_exists, not_and]
      constructor
      · rintro ⟨hnd, hrest⟩
        exact ⟨⟨fun other ho => (hrest other ho).1, hnd⟩, hseen, fun other ho => (hrest other ho).2⟩
      · rintro ⟨⟨hfact, hnd⟩, -, hrest⟩
        exact ⟨hnd, fun other ho => ⟨hfact other ho, hrest other ho⟩⟩

structure AuditRecord.Seals (r : AuditRecord) (fact : AuditFact) (sequence : AuditSequence) :
    Prop where
  eventId : r.eventId = fact.eventId
  event : r.event = some fact.event
  ceremonyId : r.ceremonyId = fact.ceremonyId
  sequence : r.sequence = sequence

theorem AuditRecord.seal_eq_ok {enc : RecordEncoding} {fact : AuditFact}
    {evidence : Option AuthorizationEvidence} {sequence : AuditSequence}
    {previous : Option AuditRecordHash} {r : AuditRecord}
    (h : seal_ enc fact evidence sequence previous = .ok r) : r.Seals fact sequence := by
  simp only [seal_, bind_eq_ok, pure_eq_ok] at h
  obtain ⟨_, _, _, _, rfl⟩ := h
  exact ⟨rfl, rfl, rfl, rfl⟩

def nextSequence (head : Option AuditRecord) : AuditSequence :=
  (head.map (·.sequence)).getD 0 + 1

theorem sealNext_eq_ok {enc : RecordEncoding} {head : Option AuditRecord} {fact : AuditFact}
    {r : AuditRecord} (h : sealNext enc authorization head fact = .ok r) :
    r.Seals fact (nextSequence head) := by
  cases head with
  | none => exact AuditRecord.seal_eq_ok h
  | some previous =>
    simp only [sealNext, AuditRecord.following, bind_eq_ok] at h
    obtain ⟨_, _, _, _, h⟩ := h
    exact AuditRecord.seal_eq_ok h

/-- Records that state facts one after the other, from a sequence on. -/
inductive SealsAll : AuditSequence → List AuditFact → List AuditRecord → Prop where
  | nil (sequence : AuditSequence) : SealsAll sequence [] []
  | cons {sequence : AuditSequence} {fact : AuditFact} {r : AuditRecord} {facts : List AuditFact}
      {records : List AuditRecord} (seals : r.Seals fact sequence)
      (rest : SealsAll (sequence + 1) facts records) :
      SealsAll sequence (fact :: facts) (r :: records)

variable {records : List AuditRecord}

theorem sealAll_eq_ok {enc : RecordEncoding} {head : Option AuditRecord}
    (h : sealAll enc authorization head facts = .ok records) :
    SealsAll (nextSequence head) facts records := by
  induction facts generalizing head records with
  | nil =>
    cases h
    exact .nil _
  | cons fact rest ih =>
    simp only [sealAll, bind_eq_ok, pure_eq_ok] at h
    obtain ⟨r, hr, more, hmore, rfl⟩ := h
    have hseals := sealNext_eq_ok hr
    refine .cons hseals ?_
    have hrest := ih hmore
    simpa [nextSequence, hseals.sequence] using hrest

theorem sealContinuation_eq_ok {enc : RecordEncoding} {stream : CeremonyId}
    {existing : List AuditRecord}
    (h : sealContinuation enc stream existing facts authorization = .ok records) :
    facts ≠ [] ∧ (∀ fact ∈ facts, fact.ceremonyId = stream) ∧ (facts.map (·.eventId)).Nodup ∧
      (∀ fact ∈ facts, fact.eventId ∉ existing.map (·.eventId)) ∧
      SealsAll (nextSequence existing.getLast?) facts records := by
  simp only [sealContinuation, bind_eq_ok, require_eq_ok,
    requireNewEventIds_eq_ok, exists_const] at h
  obtain ⟨hne, hstr, hnew, hseal⟩ := h
  exact ⟨hne, hstr, hnew.1, hnew.2, sealAll_eq_ok hseal⟩

theorem SealsAll.eventIds {sequence : AuditSequence}
    (h : SealsAll sequence facts records) : records.map (·.eventId) = facts.map (·.eventId) := by
  induction h with
  | nil => rfl
  | cons seals _ ih => rw [List.map_cons, List.map_cons, seals.eventId, ih]

end Made
