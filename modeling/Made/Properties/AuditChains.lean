import Made.Journal.Chain

/-!
# The head of a journal commits to the journal

A journal that verifies is known by the digest of its last record: two intact journals with one head
are the same journal.  What the digests are taken of is unambiguous, so under a collision-free
SHA-256 equal digests come from equal records, and the link is one of the fields of a record.
-/

namespace Made

/-- SHA-256 tells the messages of these records apart. -/
def DigestsCollisionFree (enc : RecordEncoding) (records : List AuditRecord) : Prop :=
  ∀ r ∈ records, ∀ s ∈ records, ∀ message message',
    r.canonical enc = .ok message → s.canonical enc = .ok message' →
      Sha256.digestBytes message = Sha256.digestBytes message' → message = message'

theorem AuditRecord.eq_of_recordHash_eq {enc : RecordEncoding} (hlossless : enc.Lossless)
    {records : List AuditRecord} (hfree : DigestsCollisionFree enc records)
    (htraces : ∀ r ∈ records, ∀ traceId ∈ r.traceId, (Framing.utf8 traceId).length ≤ u64Max)
    {r s : AuditRecord} (hr : r ∈ records) (hs : s ∈ records) (hrsealed : AuditChain.Sealed enc r)
    (hssealed : AuditChain.Sealed enc s) (h : r.recordHash = s.recordHash) : r = s := by
  obtain ⟨hrshape, message, hmessage, hdig⟩ := digestIsIntact_eq_true.mp hrsealed.digest
  obtain ⟨hsshape, message', hmessage', hdigest'⟩ := digestIsIntact_eq_true.mp hssealed.digest
  have hbytes : Sha256.digestBytes message = Sha256.digestBytes message' :=
    congrArg RawDigest.bytes (hdig.trans (h.trans hdigest'.symm))
  obtain rfl := hfree r hr s hs message message' hmessage hmessage' hbytes
  have hfields := canonical_inj hlossless ⟨hrsealed.sequence_le, htraces r hr⟩
    ⟨hssealed.sequence_le, htraces s hs⟩ hrshape hsshape hmessage hmessage'
  rw [hfields, h]

/-- Two intact journals with one head are one journal, and a journal that was written record after
record is intact. -/
theorem head_commits_to_journal (enc : RecordEncoding) :
    (∀ (a b : List AuditRecord) (last last' : AuditRecord), enc.Lossless →
      DigestsCollisionFree enc (a ++ b) →
      (∀ r ∈ a ++ b, ∀ traceId ∈ r.traceId, (Framing.utf8 traceId).length ≤ u64Max) →
      AuditChain.verify enc a = .intact → AuditChain.verify enc b = .intact →
      a.getLast? = some last → b.getLast? = some last' → last.recordHash = last'.recordHash →
      a = b) ∧
    (∀ (facts : List (AuditFact × Option AuthorizationEvidence)) (records : List AuditRecord),
      facts.length ≤ u64Max → sealEach enc none facts = .ok records →
      AuditChain.verify enc records = .intact) := by
  refine ⟨?_, fun facts records => AuditChain.verify_of_sealEach⟩
  intro a b last last' hlossless hfree htraces ha hb hlast hlast' hhash
  obtain ⟨hlinked, hseal⟩ := AuditChain.linked_of_verify ha
  obtain ⟨hlinked', hsealed'⟩ := AuditChain.linked_of_verify hb
  refine hlinked.eq_of_head_eq hlinked' ?_ ?_
  · intro r hr s hs hdig
    exact AuditRecord.eq_of_recordHash_eq hlossless hfree htraces (List.mem_append_left _ hr)
      (List.mem_append_right _ hs) (hseal r hr) (hsealed' s hs) hdig
  · rw [HashChain.head, HashChain.head, hlast, hlast', Option.map_some, Option.map_some, hhash]

namespace PausedTwice

def instant : OffsetDateTime := .afterEpoch 0

def pause : CeremonyEvent := .ceremonyPaused ⟨⟨"hold", by decide⟩, instant⟩

def encoding : RecordEncoding where
  timestamp := fun t => if t = instant then some "1970-01-01T00:00:00Z" else none
  event := fun e => if e = pause then some [0] else none
  evidence := fun _ => none

theorem encoding_lossless : encoding.Lossless where
  timestamp_inj := by
    intro a b text ha hb
    simp only [encoding, ite_eq_iff, reduceCtorEq, and_false, or_false] at ha hb
    exact ha.1.trans hb.1.symm
  event_inj := by
    intro a b bytes ha hb
    simp only [encoding, ite_eq_iff, reduceCtorEq, and_false, or_false] at ha hb
    exact ha.1.trans hb.1.symm
  evidence_inj := fun h => nomatch h
  timestamp_fits := by
    intro a text ha
    simp only [encoding, Option.ite_none_right_eq_some, Option.some.injEq] at ha
    rw [← ha.2]
    decide +kernel
  event_fits := by
    intro a bytes ha
    simp only [encoding, Option.ite_none_right_eq_some, Option.some.injEq] at ha
    rw [← ha.2]
    decide
  evidence_fits := fun h => nomatch h

def fact (id : EventId) : AuditFact where
  eventId := id
  event := pause
  ceremonyId := ⟨"a", .refl true⟩
  definitionName := ⟨"review", .refl true⟩
  definitionVersion := ⟨"1.0", .refl true⟩
  occurredAt := instant
  actor := ⟨⟨"operator", .refl true⟩, .human, none⟩
  correlationId := none
  causationId := none
  traceId := none

def facts : List (AuditFact × Option AuthorizationEvidence) :=
  [(fact ⟨"a:1", by decide⟩, none), (fact ⟨"a:2", by decide⟩, none)]

/-- Sealed records leave no collision to be had when those of one digest have one message. -/
theorem digestsCollisionFree_of_sealed {enc : RecordEncoding} {records : List AuditRecord}
    (hseal : ∀ r ∈ records, AuditChain.Sealed enc r)
    (hmessages : ∀ r ∈ records, ∀ s ∈ records, r.recordHash = s.recordHash →
      (r.canonical enc).toOption = (s.canonical enc).toOption) :
    DigestsCollisionFree enc records := by
  intro r hr s hs message message' hmessage hmessage' hbytes
  obtain ⟨-, m, hm, hdig⟩ := AuditRecord.digestIsIntact_eq_true.mp (hseal r hr).digest
  obtain ⟨-, m', hm', hdigest'⟩ := AuditRecord.digestIsIntact_eq_true.mp (hseal s hs).digest
  obtain rfl : m = message := Except.ok.inj (hm.symm.trans hmessage)
  obtain rfl : m' = message' := Except.ok.inj (hm'.symm.trans hmessage')
  have hhash : r.recordHash = s.recordHash := by
    rw [← hdig, ← hdigest']
    simp only [RawDigest.ofMessage, hbytes]
  have hsame := hmessages r hr s hs hhash
  rw [hm, hm'] at hsame
  exact Option.some.inj hsame

end PausedTwice

/-- A ceremony paused twice, written record by record and as one batch: the two journals have one
head, so they are one journal. -/
theorem paused_twice_is_known_by_its_head :
    ∃ a b last last', sealEach PausedTwice.encoding none PausedTwice.facts = .ok a ∧
      sealAll PausedTwice.encoding none none (PausedTwice.facts.map (·.1)) = .ok b ∧
      a.length = 2 ∧ AuditChain.verify PausedTwice.encoding a = .intact ∧
      a.getLast? = some last ∧ b.getLast? = some last' ∧
      last.recordHash = last'.recordHash ∧ a = b := by
  have hrun : (sealEach PausedTwice.encoding none PausedTwice.facts).toOption.any (fun a =>
      (sealAll PausedTwice.encoding none none (PausedTwice.facts.map (·.1))).toOption.any
        fun b => a.getLast?.any fun last => b.getLast?.any fun last' => decide
          (a.length = 2 ∧ AuditChain.verify PausedTwice.encoding b = .intact ∧
            last.recordHash = last'.recordHash ∧ (∀ r ∈ a ++ b, r.traceId = none) ∧
            ∀ r ∈ a ++ b, ∀ s ∈ a ++ b, r.recordHash = s.recordHash →
              (r.canonical PausedTwice.encoding).toOption =
                (s.canonical PausedTwice.encoding).toOption)) = true := by
    decide +kernel
  obtain ⟨a, ha, hrun⟩ := (Option.any_eq_true _ _).mp hrun
  obtain ⟨b, hb, hrun⟩ := (Option.any_eq_true _ _).mp hrun
  obtain ⟨last, hlast, hrun⟩ := (Option.any_eq_true _ _).mp hrun
  obtain ⟨last', hlast', hrun⟩ := (Option.any_eq_true _ _).mp hrun
  obtain ⟨hlen, hintact', hhash, htraces, hmessages⟩ := of_decide_eq_true hrun
  have hbuilt := Outcome.eq_ok_of_toOption ha
  have hintact := (head_commits_to_journal PausedTwice.encoding).2 PausedTwice.facts a
    (by decide) hbuilt
  refine ⟨a, b, last, last', hbuilt, Outcome.eq_ok_of_toOption hb, hlen, hintact, hlast,
    hlast', hhash, ?_⟩
  refine (head_commits_to_journal PausedTwice.encoding).1 a b last last'
    PausedTwice.encoding_lossless ?_ ?_ hintact hintact' hlast hlast' hhash
  · refine PausedTwice.digestsCollisionFree_of_sealed ?_ hmessages
    intro r hr
    obtain hr | hr := List.mem_append.mp hr
    · exact (AuditChain.linked_of_verify hintact).2 r hr
    · exact (AuditChain.linked_of_verify hintact').2 r hr
  · intro r hr traceId htrace
    rw [htraces r hr] at htrace
    cases htrace

end Made
