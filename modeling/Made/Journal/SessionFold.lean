import Made.Aggregate.FoldLemmas
import Made.Journal.SessionStream

/-!
# Folding a stream, from its opening or from a snapshot

A stream numbers its records from one.  Folding it whole and going on from a snapshot of one of its
versions give the same session, at the version and the id of the last record.
-/

namespace Made

open Outcome List

variable {version : StreamVersion} {records : List AuditRecord}

/-! ## Numbered records -/

def Numbered : StreamVersion → List AuditRecord → Prop
  | _, [] => True
  | version, r :: records => r.sequence = version + 1 ∧ Numbered (version + 1) records

theorem numbered_append {more : List AuditRecord} :
    Numbered version (records ++ more) ↔
      Numbered version records ∧ Numbered (version + records.length) more := by
  induction records generalizing version with
  | nil => simp [Numbered]
  | cons r records ih =>
    rw [cons_append, Numbered, Numbered, ih, length_cons, and_assoc,
      Nat.add_right_comm version 1, Nat.add_assoc version]

theorem SealsAll.numbered {facts : List AuditFact} (h : SealsAll (version + 1) facts records) :
    Numbered version records := by
  generalize hseq : version + 1 = sequence at h
  induction h generalizing version with
  | nil => trivial
  | cons seals _ ih => exact ⟨by rw [seals.sequence, hseq], ih (by rw [hseq])⟩

theorem Numbered.last (h : Numbered version records) :
    (records.getLast?.map (·.sequence)).getD version = version + records.length := by
  induction records generalizing version with
  | nil => rfl
  | cons r records ih =>
    have hrest := ih h.2
    rw [getLast?_cons, length_cons]
    cases hlast : records.getLast? with
    | none =>
      rw [getLast?_eq_none_iff.mp hlast]
      exact h.1
    | some last =>
      rw [hlast] at hrest
      show last.sequence = _
      rw [show last.sequence = version + 1 + records.length from hrest, Nat.add_right_comm]
      rfl

theorem Numbered.versionOf (h : Numbered 0 records) : Made.versionOf records = records.length := by
  rw [Made.versionOf, h.last, Nat.zero_add]

theorem Numbered.nextSequence (h : Numbered 0 records) :
    Made.nextSequence records.getLast? = records.length + 1 := by
  rw [Made.nextSequence, h.last, Nat.zero_add]

namespace SessionStream

variable {records : List AuditRecord} {session : LoadedSession} {s t : FoldState}
  {i : CeremonyInstance} {facts dressed : List AuditFact} {actor : AuditActor}
  {occurredAt : OffsetDateTime}

/-! ## Folding -/

def start : FoldState := ⟨none, 0, none⟩

def stateOf (session : LoadedSession) : FoldState :=
  ⟨some session.instance_, session.version, session.head⟩

theorem foldRecords_eq_ok :
    foldRecords records = .ok session ↔
      records.foldlM foldRecord start = .ok (stateOf session) := by
  rw [foldRecords, bind_eq_ok]
  simp only [loaded, bind_eq_ok, okOr_eq_ok, pure_eq_ok]
  constructor
  · rintro ⟨s, hs, i, hi, rfl⟩
    rw [show start = ⟨none, 0, none⟩ from rfl, hs, stateOf, ← hi]
  · intro h
    exact ⟨_, h, session.instance_, rfl, rfl⟩

theorem foldRecords_append {more : List AuditRecord} (h : foldRecords records = .ok session) :
    foldRecords (records ++ more) = more.foldlM foldRecord (stateOf session) >>= loaded := by
  rw [foldRecords, foldlM_append, show (⟨none, 0, none⟩ : FoldState) = start from rfl,
    foldRecords_eq_ok.mp h]
  rfl

theorem foldRecord_eq_ok {r : AuditRecord} :
    foldRecord s r = .ok t ↔ ∃ event i, r.event = some event ∧
      foldEvent s.instance_ event = .ok i ∧ t = ⟨some i, r.sequence, some r.eventId⟩ := by
  simp only [foldRecord, eventOf, bind_eq_ok, okOr_eq_ok, pure_eq_ok]
  constructor
  · rintro ⟨event, hev, i, hi, rfl⟩
    exact ⟨event, i, hev, hi, rfl⟩
  · rintro ⟨event, i, hev, hi, rfl⟩
    exact ⟨event, hev, i, hi, rfl⟩

theorem version_of_fold (hnum : Numbered s.version records)
    (h : records.foldlM foldRecord s = .ok t) : t.version = s.version + records.length := by
  induction records generalizing s with
  | nil =>
    cases h
    rfl
  | cons r records ih =>
    rw [foldlM_cons, bind_eq_ok] at h
    obtain ⟨mid, hmid, hrest⟩ := h
    obtain ⟨event, i, -, -, rfl⟩ := foldRecord_eq_ok.mp hmid
    have hver := ih (by rw [show _ = s.version + 1 from hnum.1]; exact hnum.2) hrest
    rw [hver, show r.sequence = s.version + 1 from hnum.1, length_cons, Nat.add_right_comm]
    rfl

theorem version_of_foldRecords (hnum : Numbered 0 records) (h : foldRecords records = .ok session) :
    session.version = records.length := by
  have hver := version_of_fold (s := start) hnum (foldRecords_eq_ok.mp h)
  rw [show (stateOf session).version = session.version from rfl] at hver
  rw [hver, show start.version = 0 from rfl, Nat.zero_add]

theorem head_of_fold (h : records.foldlM foldRecord s = .ok t) :
    t.head = (records.getLast?.map (·.eventId)).or s.head := by
  induction records generalizing s with
  | nil =>
    cases h
    rfl
  | cons r records ih =>
    rw [foldlM_cons, bind_eq_ok] at h
    obtain ⟨mid, hmid, hrest⟩ := h
    obtain ⟨event, i, -, -, rfl⟩ := foldRecord_eq_ok.mp hmid
    rw [ih hrest, getLast?_cons]
    cases records.getLast? with
    | none | some last => rfl

theorem head_of_foldRecords (h : foldRecords records = .ok session) :
    session.head = records.getLast?.map (·.eventId) := by
  have hhead := head_of_fold (foldRecords_eq_ok.mp h)
  rw [show (stateOf session).head = session.head from rfl] at hhead
  rw [hhead, show start.head = none from rfl, Option.or_none]

/-- Records that state facts fold as the facts are applied. -/
theorem fold_of_seals (h : SealsAll (version + 1) facts records) {t : CeremonyInstance}
    (head : Option EventId) (hfold : i.applyAll (facts.map (·.event)) = .ok t) :
    ∃ head', records.foldlM foldRecord ⟨some i, version, head⟩ =
      .ok ⟨some t, version + records.length, head'⟩ := by
  generalize hseq : version + 1 = sequence at h
  induction h generalizing version i head with
  | nil =>
    cases hfold
    exact ⟨head, rfl⟩
  | cons seals _ ih =>
    rename_i fact r facts records _
    obtain ⟨j, hj, hrest⟩ := CeremonyInstance.applyAll_cons_eq_ok.mp hfold
    have hstep : foldRecord ⟨some i, version, head⟩ r = .ok ⟨some j, version + 1, some r.eventId⟩ :=
      foldRecord_eq_ok.mpr ⟨fact.event, j, seals.event, hj, by rw [seals.sequence, hseq]⟩
    have hnext : ∃ head', records.foldlM foldRecord ⟨some j, version + 1, some r.eventId⟩ =
        .ok ⟨some t, version + 1 + records.length, head'⟩ :=
      ih (some r.eventId) hrest (by rw [hseq])
    obtain ⟨head', hfinal⟩ := hnext
    refine ⟨head', ?_⟩
    rw [foldlM_cons, hstep, ok_bind, hfinal, length_cons, Nat.add_right_comm]
    rfl

/-! ## Reading from a snapshot on -/

/-- Behind the version reached so far every record is folded. -/
theorem resume_eq_fold (hnum : Numbered s.version records) :
    records.foldlM resumeRecord s = records.foldlM foldRecord s := by
  induction records generalizing s with
  | nil => rfl
  | cons r records ih =>
    have hseq : r.sequence = s.version + 1 := hnum.1
    have hstep : resumeRecord s r = foldRecord s r := by
      have hlt : s.version < r.sequence := hseq ▸ Nat.lt_succ_self _
      simp only [resumeRecord, foldRecord, if_pos hlt]
    rw [foldlM_cons, foldlM_cons, hstep]
    cases hfold : foldRecord s r with
    | error fault => rfl
    | ok t =>
      obtain ⟨event, i, -, -, rfl⟩ := foldRecord_eq_ok.mp hfold
      exact ih (by rw [show _ = s.version + 1 from hseq]; exact hnum.2)

theorem resume_start (hnum : Numbered 0 records) :
    resume (fromSnapshot none) records = foldRecords records := by
  rw [resume, resume_eq_fold (s := fromSnapshot none) hnum]
  rfl

/-- The record before the snapshot's version gives the head, the ones behind it are folded. -/
theorem resume_snapshot {head : Option EventId} (hnum : Numbered 0 records)
    {before : List AuditRecord} (hpre : before <+: records)
    (h : foldRecords before = .ok ⟨i, version, head⟩) :
    resume (fromSnapshot (some (version, i))) (records.drop (version - 1)) =
      foldRecords records := by
  obtain ⟨more, rfl⟩ := hpre
  obtain ⟨hfirst, hmore⟩ := numbered_append.mp hnum
  have hver : version = before.length := version_of_foldRecords hfirst h
  rcases eq_nil_or_concat before with rfl | ⟨front, r, rfl⟩
  · cases h
  -- Split off the last record the snapshot covers.
  rw [concat_eq_append] at *
  obtain ⟨-, hlast⟩ := numbered_append.mp hfirst
  have hlen : version = front.length + 1 := by
    rw [hver, length_append, length_singleton]
  have hdrop : (front ++ [r] ++ more).drop (version - 1) = r :: more := by
    rw [hlen, Nat.add_sub_cancel, append_assoc, drop_left']
    · rfl
    · rfl
  have hfold := foldRecords_eq_ok.mp h
  rw [foldlM_append, bind_eq_ok] at hfold
  obtain ⟨mid, -, hfold⟩ := hfold
  rw [foldlM_cons, bind_eq_ok] at hfold
  obtain ⟨t, hstep, hend⟩ := hfold
  cases hend
  obtain ⟨event, j, hev, -, hstate⟩ := foldRecord_eq_ok.mp hstep
  have hresume : resumeRecord (fromSnapshot (some (version, i))) r =
      .ok (stateOf ⟨i, version, head⟩) := by
    have hseq : r.sequence = version := by
      rw [hlen]
      simpa using hlast.1
    rw [hstate]
    simp [resumeRecord, eventOf, hev, okOr, fromSnapshot, hseq, stateOf] at hstate ⊢
    exact hstate.1
  rw [resume, hdrop, foldlM_cons, hresume, ok_bind, foldRecords_append h, resume_eq_fold]
  rw [show (stateOf ⟨i, version, head⟩).version = version from rfl, hver]
  simpa using hmore

/-! ## Openings -/

theorem events_of_facts {events : List CeremonyEvent}
    (h : SessionFacts.facts i events actor occurredAt = .ok facts) :
    facts.map (·.event) = events := by
  rw [SessionFacts.facts, mapM_eq_ok] at h
  induction h with
  | nil => rfl
  | cons hfact _ ih =>
    simp only [SessionFacts.fact, bind_eq_ok, pure_eq_ok] at hfact
    obtain ⟨eventId, -, rfl⟩ := hfact
    rw [map_cons, ih]

theorem openingFacts_eq_ok {opening : List CeremonyEvent} {trace : String}
    (h : openingFacts opening actor occurredAt trace = .ok (i, dressed)) :
    ∃ started rest facts correlation, opening = .ceremonyInstanceStarted started :: rest ∧
      SessionFacts.facts (CeremonyInstance.fromStarted started) opening actor occurredAt =
        .ok facts ∧
      (CeremonyInstance.fromStarted started).applyAll opening = .ok i ∧
      dressed = dress correlation trace none facts := by
  unfold openingFacts at h
  split at h
  · rename_i started rest
    simp only [bind_eq_ok] at h
    obtain ⟨facts, hfacts, t, happ, hdress⟩ := h
    rw [events_of_facts hfacts] at happ
    cases facts with
    | nil => exact absurd (events_of_facts hfacts) (cons_ne_nil _ _).symm
    | cons first facts =>
      cases hdress
      exact ⟨started, rest, first :: facts, first.eventId, rfl, hfacts, happ, rfl⟩
  · cases h

end SessionStream

end Made
