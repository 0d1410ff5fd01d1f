import Made.Journal.Record
import Made.Library.HashChain

/-!
# Journals and their verification

`AuditChain.verify` reads a journal once and answers whether it is intact, or else what is wrong
with it and where.  It trusts nothing but the records: the first has to be a root, and every other
record has to belong to the same ceremony, stand one place further and name the digest of the record
before it; and each has to produce the digest it carries.
-/

namespace Made

open Outcome Framing AuditRecord

/-! ## Verdicts -/

namespace AuditSequence

/-- Places saturate instead of wrapping around. -/
def next (sequence : AuditSequence) : AuditSequence := min (sequence + 1) u64Max

def follows (sequence previous : AuditSequence) : Bool := decide (sequence = next previous)

def isFirst (sequence : AuditSequence) : Bool := decide (sequence = 1)

end AuditSequence

inductive AuditChainDefect where
  | doesNotStartAtTheBeginning (found : AuditSequence)
  | digestAltered (place : AuditSequence)
  | unexpectedRoot (place : AuditSequence)
  | sequenceBroken (expected found : AuditSequence)
  | linkBroken (place : AuditSequence)
  | foreignCeremony (place : AuditSequence)
deriving DecidableEq, Repr

inductive AuditChainVerdict where
  | intact
  | broken (defect : AuditChainDefect)
deriving DecidableEq, Repr

namespace AuditChain

variable (enc : RecordEncoding)

/-- A record whose digest cannot even be computed again counts as altered. -/
def digestDefect (record : AuditRecord) : Option AuditChainVerdict :=
  match record.digestIsIntact enc with
  | .ok true => none
  | .ok false | .error _ => some (.broken (.digestAltered record.sequence))

/-- The records behind `previous`, up to the first defect. -/
def verifyRest : AuditRecord → List AuditRecord → AuditChainVerdict
  | _, [] => .intact
  | previous, record :: rest =>
    if record.ceremonyId ≠ previous.ceremonyId then
      .broken (.foreignCeremony record.sequence)
    else if record.sequence.follows previous.sequence = false then
      .broken (.sequenceBroken previous.sequence.next record.sequence)
    else
      match record.previousRecordHash with
      | none => .broken (.unexpectedRoot record.sequence)
      | some hash =>
        if hash ≠ previous.recordHash then .broken (.linkBroken record.sequence)
        else
          match digestDefect enc record with
          | some verdict => verdict
          | none => verifyRest record rest

def verify : List AuditRecord → AuditChainVerdict
  | [] => .intact
  | first :: rest =>
    if first.sequence.isFirst = false then
      .broken (.doesNotStartAtTheBeginning first.sequence)
    else if first.previousRecordHash.isSome then
      .broken (.unexpectedRoot first.sequence)
    else
      match digestDefect enc first with
      | some verdict => verdict
      | none => verifyRest enc first rest

end AuditChain

namespace AuditRecord

def continues (record previous : AuditRecord) : Bool :=
  decide (record.ceremonyId = previous.ceremonyId) && record.sequence.follows previous.sequence &&
    decide (record.previousRecordHash = some previous.recordHash)

def IsRoot (record : AuditRecord) : Prop :=
  record.sequence = 1 ∧ record.previousRecordHash = none

end AuditRecord

/-! ## What intact means -/

theorem AuditRecord.continues_iff {record previous : AuditRecord} :
    record.continues previous = true ↔ record.ceremonyId = previous.ceremonyId ∧
      record.sequence = previous.sequence.next ∧
      record.previousRecordHash = some previous.recordHash := by
  rw [continues, Bool.and_eq_true, Bool.and_eq_true, AuditSequence.follows, decide_eq_true_iff,
    decide_eq_true_iff, decide_eq_true_iff, and_assoc]

namespace AuditChain

variable {enc : RecordEncoding} {r : AuditRecord} {rest : List AuditRecord} {previous : AuditRecord}

theorem digestDefect_eq_none : digestDefect enc r = none ↔ r.digestIsIntact enc = .ok true := by
  rw [digestDefect]
  split
  case h_1 h => simp [h]
  case h_2 h => simp [h]
  case h_3 fault h => simp [h]

theorem digestDefect_ne_intact {verdict : AuditChainVerdict}
    (h : digestDefect enc r = some verdict) : verdict ≠ .intact := by
  rw [digestDefect] at h
  split at h
  case h_1 => nomatch h
  all_goals
    cases h
    exact AuditChainVerdict.noConfusion

theorem verifyRest_cons :
    verifyRest enc previous (r :: rest) = .intact ↔
      r.continues previous = true ∧ r.digestIsIntact enc = .ok true ∧
        verifyRest enc r rest = .intact := by
  rw [verifyRest, continues, ← digestDefect_eq_none]
  by_cases hcer : r.ceremonyId = previous.ceremonyId
  · cases hfollows : r.sequence.follows previous.sequence with
    | false => simp [hcer]
    | true =>
      cases hhash : r.previousRecordHash with
      | none => simp [hcer]
      | some hash =>
        by_cases hlink : hash = previous.recordHash
        · cases hdefect : digestDefect enc r with
          | none => simp [hcer, hlink]
          | some verdict => simp [hcer, hlink, digestDefect_ne_intact hdefect]
        · simp [hcer, hlink]
  · simp [hcer]

theorem verify_cons :
    verify enc (r :: rest) = .intact ↔
      r.IsRoot ∧ r.digestIsIntact enc = .ok true ∧ verifyRest enc r rest = .intact := by
  rw [verify, AuditRecord.IsRoot, ← digestDefect_eq_none, AuditSequence.isFirst]
  by_cases hfirst : r.sequence = 1
  · cases hhash : r.previousRecordHash with
    | some hash => simp [hfirst]
    | none =>
      cases hdefect : digestDefect enc r with
      | none => simp [hfirst]
      | some verdict => simp [hfirst, digestDefect_ne_intact hdefect]
  · simp [hfirst]

/-- What verification establishes of each record by itself. -/
structure Sealed (enc : RecordEncoding) (r : AuditRecord) : Prop where
  digest : r.digestIsIntact enc = .ok true
  sequence_le : r.sequence ≤ u64Max

/-- What the loop establishes: every record is linked to the one before it and sealed. -/
theorem linked_of_verifyRest (h : verifyRest enc previous rest = .intact) :
    HashChain.Linked (·.previousRecordHash) (·.recordHash) (some previous.recordHash) rest ∧
      ∀ r ∈ rest, Sealed enc r := by
  induction rest generalizing previous with
  | nil => exact ⟨trivial, by simp⟩
  | cons r rest ih =>
    obtain ⟨hcontinues, hdig, hrest⟩ := verifyRest_cons.mp h
    obtain ⟨-, hplace, hlink⟩ := continues_iff.mp hcontinues
    obtain ⟨hlinked, hseal⟩ := ih hrest
    refine ⟨⟨hlink, hlinked⟩, List.forall_mem_cons.mpr ⟨⟨hdig, ?_⟩, hseal⟩⟩
    rw [hplace]
    exact Nat.min_le_right _ _

theorem linked_of_verify {records : List AuditRecord} (h : verify enc records = .intact) :
    HashChain.Linked (·.previousRecordHash) (·.recordHash) none records ∧
      ∀ r ∈ records, Sealed enc r := by
  cases records with
  | nil => exact ⟨trivial, by simp⟩
  | cons r rest =>
    obtain ⟨hroot, hdig, hrest⟩ := verify_cons.mp h
    obtain ⟨hlinked, hseal⟩ := linked_of_verifyRest hrest
    refine ⟨⟨hroot.2, hlinked⟩, List.forall_mem_cons.mpr ⟨⟨hdig, ?_⟩, hseal⟩⟩
    rw [hroot.1]
    decide

end AuditChain

/-! ## The bytes a digest covers -/

theorem AuditEventType.ctorIdx_mem_range (t : AuditEventType) : t.ctorIdx ∈ List.range 37 := by
  cases t <;> decide

theorem AuditEventType.asStr_injective : Function.Injective AuditEventType.asStr := by
  have hnames : ((List.range 37).map fun n => (ofNat n).asStr).Nodup := by decide +kernel
  intro a b h
  have hidx : a.ctorIdx = b.ctorIdx := by
    refine List.inj_on_of_nodup_map hnames a.ctorIdx_mem_range b.ctorIdx_mem_range ?_
    rw [ofNat_ctorIdx, ofNat_ctorIdx]
    exact h
  rw [← ofNat_ctorIdx a, hidx, ofNat_ctorIdx]

theorem AuditActorKind.asStr_injective : Function.Injective AuditActorKind.asStr := by
  intro a b h
  cases a <;> cases b <;> first | rfl | exact absurd h (by decide)

theorem AuditEventType.asStr_fits (t : AuditEventType) : (utf8 t.asStr).length < 256 ^ 8 := by
  have hlengths : ∀ n ∈ List.range 37, (ofNat n).asStr.length ≤ 40 := by decide +kernel
  have hlen := hlengths t.ctorIdx t.ctorIdx_mem_range
  rw [ofNat_ctorIdx] at hlen
  have hbytes := utf8_length_le t.asStr
  omega

theorem AuditActorKind.asStr_fits (k : AuditActorKind) : (utf8 k.asStr).length < 256 ^ 8 := by
  have hlen : k.asStr.length ≤ 10 := by cases k <;> decide
  have hbytes := utf8_length_le k.asStr
  omega

theorem Text.utf8_fits {rule : TextRule} (t : Text rule) : (utf8 t.val).length < 256 ^ 8 := by
  rw [utf8_length]
  have hbytes := t.utf8ByteSize_le
  rw [maxStringLen] at hbytes
  omega

variable {payload : List UInt8}

namespace AuditRecord

variable {enc : RecordEncoding} {r : AuditRecord} {rule : TextRule}

def canonical (enc : RecordEncoding) (r : AuditRecord) : Result (List UInt8) := do
  let occurredAt ← okOr (enc.timestamp r.occurredAt)
    (.invariantViolated "audit record timestamp cannot be rendered canonically")
  let scheme ← okOr (canonicalScheme r.schemaVersion)
    (.invariantViolated "audit record schema version has no canonical form")
  let payload ← r.canonicalPayload enc
  let authorization ← r.canonicalEvidence enc
  pure (Framing.utf8 scheme ++ Sha256.beBytes 4 r.schemaVersion ++
    r.canonicalEnvelope occurredAt ++ payload ++ authorization)

theorem computeHash_eq_ok {hash : AuditRecordHash} :
    r.computeHash enc = .ok hash ↔
      ∃ message, r.canonical enc = .ok message ∧ RawDigest.ofMessage _ message = hash := by
  simp only [computeHash, canonical, bind_eq_ok, okOr_eq_ok, pure_eq_ok]
  constructor
  · rintro ⟨occurredAt, htime, scheme, hscheme, payload, hpay, evidence, hevid, hhash⟩
    exact ⟨_, ⟨occurredAt, htime, scheme, hscheme, payload, hpay, evidence, hevid, rfl⟩, hhash⟩
  · rintro ⟨_, ⟨occurredAt, htime, scheme, hscheme, payload, hpay, evidence, hevid, rfl⟩, hhash⟩
    exact ⟨occurredAt, htime, scheme, hscheme, payload, hpay, evidence, hevid, hhash⟩

theorem digestIsIntact_eq_true :
    r.digestIsIntact enc = .ok true ↔ r.hasCanonicalShape = true ∧
        ∃ message, r.canonical enc = .ok message ∧
          RawDigest.ofMessage _ message = r.recordHash := by
  rw [digestIsIntact]
  cases hshape : r.hasCanonicalShape with
  | false => simp
  | true =>
    simp only [if_true, true_and, bind_eq_ok, pure_eq_ok, decide_eq_true_eq]
    simp only [← computeHash_eq_ok]
    constructor
    · rintro ⟨hash, hhash, rfl⟩
      exact hhash
    · intro h
      exact ⟨_, h, rfl⟩

/-! ### Field by field -/

theorem delimits_writeOptional :
    Framing.Delimits writeOptional (fun value => ∀ part ∈ value, part.length < 256 ^ 8) := by
  have htagged : writeOptional = tagged frame := by
    funext value
    cases value <;> rfl
  rw [htagged]
  exact delimits_frame.tagged

theorem delimits_text :
    Framing.Delimits (fun t : Text rule => frame (utf8 t.val)) (fun _ => True) :=
  fun t u _ _ _ _ h =>
    delimits_frame.comp (utf8_injective.comp Text.val_injective) t.utf8_fits u.utf8_fits h

theorem delimits_optionalText :
    Framing.Delimits
      (fun value : Option (Text rule) => writeOptional (value.map fun t => utf8 t.val))
      (fun _ => True) := by
  have hfits (value : Option (Text rule)) :
      ∀ part ∈ value.map fun t => utf8 t.val, part.length < 256 ^ 8 := by
    intro part hpart
    obtain ⟨t, -, rfl⟩ := Option.mem_map.mp hpart
    exact t.utf8_fits
  intro t u _ _ _ _ h
  exact delimits_writeOptional.comp
    (Option.map_injective (utf8_injective.comp Text.val_injective)) (hfits t) (hfits u) h

theorem delimits_optionalHash :
    Framing.Delimits (fun value : Option AuditRecordHash => writeOptional (value.map (·.bytes)))
      (fun _ => True) := by
  have hbytes : Function.Injective fun hash : AuditRecordHash => hash.bytes := by
    rintro ⟨bytes, _⟩ ⟨_, _⟩ rfl
    rfl
  have hfits (value : Option AuditRecordHash) :
      ∀ part ∈ value.map (·.bytes), part.length < 256 ^ 8 := by
    intro part hpart
    obtain ⟨hash, -, rfl⟩ := Option.mem_map.mp hpart
    rw [hash.length_eq]
    decide
  intro x y _ _ _ _ h
  exact delimits_writeOptional.comp (Option.map_injective hbytes) (hfits x) (hfits y) h

structure SameEnvelope (r s : AuditRecord) : Prop where
  eventId : r.eventId = s.eventId
  eventType : r.eventType = s.eventType
  ceremonyId : r.ceremonyId = s.ceremonyId
  definitionName : r.definitionName = s.definitionName
  definitionVersion : r.definitionVersion = s.definitionVersion
  sequence : r.sequence = s.sequence
  actor : r.actor = s.actor
  correlationId : r.correlationId = s.correlationId
  causationId : r.causationId = s.causationId
  traceId : r.traceId = s.traceId
  previousRecordHash : r.previousRecordHash = s.previousRecordHash

/-- What the types of the source allow a record to hold: a place of 64 bits, and a trace id whose
length is one. -/
structure Held (r : AuditRecord) : Prop where
  sequence_le : r.sequence ≤ u64Max
  traceId_fits : ∀ traceId ∈ r.traceId, (Framing.utf8 traceId).length ≤ u64Max

theorem canonicalEnvelope_inj {s : AuditRecord} (hr : r.Held) (hs : s.Held)
    {occurredAt occurredAt' : String} (ht : (utf8 occurredAt).length < 256 ^ 8)
    (ht' : (utf8 occurredAt').length < 256 ^ 8) {rest rest' : List UInt8}
    (h : r.canonicalEnvelope occurredAt ++ rest = s.canonicalEnvelope occurredAt' ++ rest') :
    r.SameEnvelope s ∧ occurredAt = occurredAt' ∧ rest = rest' := by
  have hplace {t : AuditRecord} (ht : t.Held) : t.sequence < 256 ^ 8 :=
    Nat.lt_of_le_of_lt ht.sequence_le (by decide)
  have htrace {t : AuditRecord} (ht : t.Held) :
      ∀ part ∈ t.traceId.map utf8, part.length < 256 ^ 8 := by
    intro part hpart
    obtain ⟨traceId, hmem, rfl⟩ := Option.mem_map.mp hpart
    exact Nat.lt_of_le_of_lt (ht.traceId_fits traceId hmem) (by decide)
  simp only [canonicalEnvelope, List.append_assoc] at h
  obtain ⟨hid, h⟩ := delimits_text trivial trivial h
  obtain ⟨htype, h⟩ := delimits_frame.comp (utf8_injective.comp AuditEventType.asStr_injective)
    r.eventType.asStr_fits s.eventType.asStr_fits h
  obtain ⟨hcer, h⟩ := delimits_text trivial trivial h
  obtain ⟨hname, h⟩ := delimits_text trivial trivial h
  obtain ⟨hver, h⟩ := delimits_text trivial trivial h
  obtain ⟨hseq, h⟩ := delimits_beBytes 8 (hplace hr) (hplace hs) h
  obtain ⟨htime, h⟩ := delimits_frame.comp utf8_injective ht ht' h
  obtain ⟨hactor, h⟩ := delimits_text trivial trivial h
  obtain ⟨hkind, h⟩ := delimits_frame.comp (utf8_injective.comp AuditActorKind.asStr_injective)
    r.actor.kind.asStr_fits s.actor.kind.asStr_fits h
  obtain ⟨hrole, h⟩ := delimits_optionalText trivial trivial h
  obtain ⟨hcorrelation, h⟩ := delimits_optionalText trivial trivial h
  obtain ⟨hcausation, h⟩ := delimits_optionalText trivial trivial h
  obtain ⟨htraceId, h⟩ := delimits_writeOptional.comp
    (Option.map_injective utf8_injective) (htrace hr) (htrace hs) h
  obtain ⟨hprevious, h⟩ := delimits_optionalHash trivial trivial h
  have hactors : r.actor = s.actor := by
    cases hra : r.actor
    cases hsa : s.actor
    simp_all
  exact ⟨⟨hid, htype, hcer, hname, hver, hseq, hactors, hcorrelation, hcausation,
    htraceId, hprevious⟩, htime, h⟩

/-! ### The three shapes -/

theorem hasCanonicalShape_eq_true :
    r.hasCanonicalShape = true ↔
      (r.schemaVersion = 1 ∧ r.event = none ∧ r.eventSchemaVersion = none ∧
        r.authorizationEvidence = none) ∨
      (r.schemaVersion = 2 ∧ r.event.isSome ∧ r.eventSchemaVersion.isSome ∧
        r.authorizationEvidence = none) ∨
      (r.schemaVersion = 3 ∧ r.event.isSome ∧ r.eventSchemaVersion.isSome ∧
        r.authorizationEvidence.isSome) := by
  rw [hasCanonicalShape]
  split
  all_goals simp_all [and_assoc]

/-- The separators of all shapes have one length, so the version behind them is read alike. -/
theorem canonicalScheme_length {version : Nat} {scheme : String}
    (h : canonicalScheme version = some scheme) :
    (utf8 scheme).length = 30 ∧ version < 256 ^ 4 := by
  unfold canonicalScheme at h
  split at h
  case h_4 => nomatch h
  all_goals
    cases h
    exact ⟨by decide +kernel, by decide⟩

theorem canonicalPayload_eq_ok (hver : r.schemaVersion = 2 ∨ r.schemaVersion = 3)
    (h : r.canonicalPayload enc = .ok payload) :
    ∃ version event rendered, r.eventSchemaVersion = some version ∧ r.event = some event ∧
      enc.event event = some rendered ∧
      payload = Sha256.beBytes 4 version.val ++ frame rendered := by
  have hcarries : r.schemaVersion = eventBearingSchemaVersion ∨
      r.schemaVersion = authorizedSchemaVersion := hver
  rw [canonicalPayload, if_pos hcarries] at h
  split at h
  case h_1 version event hv he =>
      simp only [bind_eq_ok, okOr_eq_ok, pure_eq_ok] at h
      obtain ⟨rendered, hrendered, rfl⟩ := h
      exact ⟨version, event, rendered, hv, he, hrendered, rfl⟩
  case h_2 => exact absurd h (refuse_ne_ok _ _)

theorem canonicalEvidence_eq_ok (hver : r.schemaVersion = 3) {authorization : List UInt8}
    (h : r.canonicalEvidence enc = .ok authorization) :
    ∃ evidence rendered, r.authorizationEvidence = some evidence ∧
      enc.evidence evidence = some rendered ∧ authorization = frame rendered := by
  have hcarries : r.schemaVersion = authorizedSchemaVersion := hver
  rw [canonicalEvidence, if_pos hcarries] at h
  simp only [bind_eq_ok, okOr_eq_ok, pure_eq_ok] at h
  obtain ⟨evidence, hevid, rendered, hrendered, rfl⟩ := h
  exact ⟨evidence, rendered, hevid, hrendered, rfl⟩

end AuditRecord

/-- Renderings that lose nothing, and are as long as memory allows. -/
structure RecordEncoding.Lossless (enc : RecordEncoding) : Prop where
  timestamp_inj : ∀ {a b text}, enc.timestamp a = some text → enc.timestamp b = some text → a = b
  event_inj : ∀ {a b bytes}, enc.event a = some bytes → enc.event b = some bytes → a = b
  evidence_inj : ∀ {a b bytes}, enc.evidence a = some bytes → enc.evidence b = some bytes → a = b
  timestamp_fits : ∀ {a text}, enc.timestamp a = some text → (Framing.utf8 text).length ≤ u64Max
  event_fits : ∀ {a bytes}, enc.event a = some bytes → bytes.length ≤ u64Max
  evidence_fits : ∀ {a bytes}, enc.evidence a = some bytes → bytes.length ≤ u64Max

namespace AuditRecord

variable {enc : RecordEncoding} {r s : AuditRecord} {authorization message : List UInt8}

section

variable (hlossless : enc.Lossless)
include hlossless

theorem canonicalPayload_inj (hr : r.schemaVersion = 2 ∨ r.schemaVersion = 3)
    (hs : s.schemaVersion = 2 ∨ s.schemaVersion = 3) {payload' rest rest' : List UInt8}
    (hpay : r.canonicalPayload enc = .ok payload)
    (hpayload' : s.canonicalPayload enc = .ok payload') (h : payload ++ rest = payload' ++ rest') :
    r.eventSchemaVersion = s.eventSchemaVersion ∧ r.event = s.event ∧ rest = rest' := by
  obtain ⟨version, event, bytes, hv, he, hbytes, rfl⟩ := canonicalPayload_eq_ok hr hpay
  obtain ⟨version', event', bytes', hv', he', hbytes', rfl⟩ := canonicalPayload_eq_ok hs hpayload'
  have hordinal (v : EventSchemaVersion) : v.val < 256 ^ 4 :=
    Nat.lt_of_le_of_lt v.le_max (by decide)
  have hfits {a bytes} (hrendered : enc.event a = some bytes) : bytes.length < 256 ^ 8 :=
    Nat.lt_of_le_of_lt (hlossless.event_fits hrendered) (by decide)
  rw [List.append_assoc, List.append_assoc] at h
  obtain ⟨hver, h⟩ := delimits_beBytes 4 (hordinal version) (hordinal version') h
  obtain ⟨rfl, hrest⟩ := delimits_frame (hfits hbytes) (hfits hbytes') h
  rw [hv, hv', he, he', hlossless.event_inj hbytes hbytes', Ordinal.ext hver]
  exact ⟨rfl, rfl, hrest⟩

theorem canonicalEvidence_inj (hr : r.schemaVersion = 3) (hs : s.schemaVersion = 3)
    (hevid : r.canonicalEvidence enc = .ok authorization)
    (hevidence' : s.canonicalEvidence enc = .ok authorization) :
    r.authorizationEvidence = s.authorizationEvidence := by
  obtain ⟨evidence, bytes, hpresent, hbytes, rfl⟩ := canonicalEvidence_eq_ok hr hevid
  obtain ⟨evidence', bytes', hpresent', hbytes', hframe⟩ := canonicalEvidence_eq_ok hs hevidence'
  have hfits {a bytes} (hrendered : enc.evidence a = some bytes) : bytes.length < 256 ^ 8 :=
    Nat.lt_of_le_of_lt (hlossless.evidence_fits hrendered) (by decide)
  have hframes : frame bytes ++ [] = frame bytes' ++ [] := by rw [hframe]
  obtain ⟨rfl, -⟩ := delimits_frame (hfits hbytes) (hfits hbytes') hframes
  rw [hpresent, hpresent', hlossless.evidence_inj hbytes hbytes']

/-- Records of one shape whose payloads are written alike carry the same payloads. -/
theorem payload_inj (hr : r.hasCanonicalShape = true) (hs : s.hasCanonicalShape = true)
    (hver : r.schemaVersion = s.schemaVersion) {payload' authorization' : List UInt8}
    (hpay : r.canonicalPayload enc = .ok payload)
    (hpayload' : s.canonicalPayload enc = .ok payload')
    (hevid : r.canonicalEvidence enc = .ok authorization)
    (hevidence' : s.canonicalEvidence enc = .ok authorization')
    (h : payload ++ authorization = payload' ++ authorization') :
    r.eventSchemaVersion = s.eventSchemaVersion ∧ r.event = s.event ∧
      r.authorizationEvidence = s.authorizationEvidence := by
  rw [hasCanonicalShape_eq_true] at hr hs
  obtain ⟨hv, hev, heventVersion, hauth⟩ | ⟨hv, -, -, hauth⟩ | ⟨hv, -, -, -⟩ := hr
  · -- the first shape seals no payload, so both records have none
    rw [hver] at hv
    obtain ⟨-, hevent', heventVersion', hauth'⟩ : s.schemaVersion = 1 ∧ s.event = none ∧
        s.eventSchemaVersion = none ∧ s.authorizationEvidence = none := by simpa [hv] using hs
    rw [hev, hevent', heventVersion, heventVersion', hauth, hauth']
    exact ⟨rfl, rfl, rfl⟩
  · have hv' : s.schemaVersion = 2 := hver ▸ hv
    obtain ⟨-, -, -, hauth'⟩ : s.schemaVersion = 2 ∧ s.event.isSome ∧
        s.eventSchemaVersion.isSome ∧ s.authorizationEvidence = none := by simpa [hv'] using hs
    obtain ⟨heventVersion, hev, -⟩ :=
      canonicalPayload_inj hlossless (.inl hv) (.inl hv') hpay hpayload' h
    exact ⟨heventVersion, hev, hauth.trans hauth'.symm⟩
  · have hv' : s.schemaVersion = 3 := hver ▸ hv
    obtain ⟨heventVersion, hev, rfl⟩ :=
      canonicalPayload_inj hlossless (.inr hv) (.inr hv') hpay hpayload' h
    exact ⟨heventVersion, hev, canonicalEvidence_inj hlossless hv hv' hevid hevidence'⟩

/-- The bytes a digest covers determine every field besides the digest. -/
theorem canonical_inj (hr : r.Held) (hs : s.Held) (hrshape : r.hasCanonicalShape = true)
    (hsshape : s.hasCanonicalShape = true) (hrmessage : r.canonical enc = .ok message)
    (hsmessage : s.canonical enc = .ok message) : r = { s with recordHash := r.recordHash } := by
  simp only [canonical, bind_eq_ok, okOr_eq_ok, pure_eq_ok] at hrmessage hsmessage
  obtain ⟨time, htime, scheme, hscheme, payload, hpay, evidence, hevid, rfl⟩ := hrmessage
  obtain ⟨time', htime', scheme', hscheme', payload', hpayload', evidence', hevidence', h⟩ :=
    hsmessage
  have hfits {a text} (hrendered : enc.timestamp a = some text) :
      (utf8 text).length < 256 ^ 8 :=
    Nat.lt_of_le_of_lt (hlossless.timestamp_fits hrendered) (by decide)
  obtain ⟨hwidth, hbound⟩ := canonicalScheme_length hscheme
  obtain ⟨hwidth', hbound'⟩ := canonicalScheme_length hscheme'
  simp only [List.append_assoc] at h
  obtain ⟨-, h⟩ := List.append_inj h (hwidth'.trans hwidth.symm)
  obtain ⟨hver, h⟩ := delimits_beBytes 4 hbound' hbound h
  obtain ⟨henv, rfl, htail⟩ := canonicalEnvelope_inj hs hr (hfits htime') (hfits htime) h
  obtain ⟨heventVersion, hev, hauth⟩ :=
    payload_inj hlossless hsshape hrshape hver hpayload' hpay hevidence' hevid htail
  have hoccurred := hlossless.timestamp_inj htime' htime
  cases r
  cases s
  rw [mk.injEq]
  exact ⟨henv.eventId.symm, henv.eventType.symm, hver.symm,
    henv.ceremonyId.symm, henv.definitionName.symm, henv.definitionVersion.symm,
    henv.sequence.symm, hoccurred.symm, henv.actor.symm, henv.correlationId.symm,
    henv.causationId.symm, henv.traceId.symm, heventVersion.symm, hev.symm,
    hauth.symm, henv.previousRecordHash.symm, rfl⟩

end

end AuditRecord

/-! ## Journals as they are written -/

/-- The records that facts become one after the other, each with an authorization of its own. -/
def sealEach (enc : RecordEncoding) :
    Option AuditRecord → List (AuditFact × Option AuthorizationEvidence) → Result (List AuditRecord)
  | _, [] => .ok []
  | head, (fact, authorization) :: rest => do
    let record ← sealNext enc authorization head fact
    let more ← sealEach enc (some record) rest
    pure (record :: more)

section Written

variable {enc : RecordEncoding} {evidence : Option AuthorizationEvidence} {fact : AuditFact}
  {facts : List (AuditFact × Option AuthorizationEvidence)} {records : List AuditRecord}

/-- A sealed record stands where it was put and carries the digest of what it says. -/
theorem AuditRecord.seal_spec {sequence : AuditSequence} {previous : Option AuditRecordHash}
    {r : AuditRecord} (h : seal_ enc fact evidence sequence previous = .ok r) :
    r.ceremonyId = fact.ceremonyId ∧ r.sequence = sequence ∧ r.previousRecordHash = previous ∧
      r.digestIsIntact enc = .ok true := by
  simp only [seal_, bind_eq_ok, pure_eq_ok] at h
  obtain ⟨-, -, hash, hhash, rfl⟩ := h
  refine ⟨rfl, rfl, rfl, digestIsIntact_eq_true.mpr ⟨?_, computeHash_eq_ok.mp hhash⟩⟩
  rw [hasCanonicalShape_eq_true]
  cases evidence with
  | none => exact .inr (.inl ⟨rfl, rfl, rfl, rfl⟩)
  | some evidence => exact .inr (.inr ⟨rfl, rfl, rfl, rfl⟩)

theorem AuditRecord.following_eq_ok {previous r : AuditRecord}
    (h : following enc fact evidence previous = .ok r) :
    fact.ceremonyId = previous.ceremonyId ∧
      seal_ enc fact evidence (previous.sequence + 1) (some previous.recordHash) = .ok r := by
  simp only [following, bind_eq_ok, require_eq_ok] at h
  obtain ⟨-, -, -, hcer, hseal⟩ := h
  exact ⟨hcer, hseal⟩

/-- Facts sealed behind a record continue it, as long as the places last. -/
theorem AuditChain.verifyRest_of_sealEach {previous : AuditRecord}
    (hplaces : previous.sequence + facts.length ≤ u64Max)
    (h : sealEach enc (some previous) facts = .ok records) :
    verifyRest enc previous records = .intact := by
  induction facts generalizing previous records with
  | nil =>
    cases h
    rfl
  | cons fact facts ih =>
    simp only [sealEach, sealNext, bind_eq_ok, pure_eq_ok] at h
    obtain ⟨r, hr, more, hmore, rfl⟩ := h
    obtain ⟨hcer, hseal⟩ := following_eq_ok hr
    obtain ⟨hid, hplace, hlink, hdig⟩ := seal_spec hseal
    rw [List.length_cons] at hplaces
    have hnext : previous.sequence.next = previous.sequence + 1 :=
      Nat.min_eq_left (Nat.le_trans (Nat.add_le_add_left (Nat.le_add_left 1 _) _) hplaces)
    rw [verifyRest_cons, continues_iff]
    refine ⟨⟨hid.trans hcer, hplace.trans hnext.symm, hlink⟩, hdig, ih ?_ hmore⟩
    rw [hplace, Nat.add_right_comm]
    exact hplaces

theorem AuditChain.verify_of_sealEach (hplaces : facts.length ≤ u64Max)
    (h : sealEach enc none facts = .ok records) : verify enc records = .intact := by
  cases facts with
  | nil =>
    cases h
    rfl
  | cons fact facts =>
    simp only [sealEach, sealNext, first, bind_eq_ok, pure_eq_ok] at h
    obtain ⟨r, hr, more, hmore, rfl⟩ := h
    obtain ⟨-, hplace, hlink, hdig⟩ := seal_spec hr
    refine verify_cons.mpr ⟨⟨hplace, hlink⟩, hdig, verifyRest_of_sealEach ?_ hmore⟩
    rw [hplace, Nat.add_comm]
    exact hplaces

end Written

end Made
