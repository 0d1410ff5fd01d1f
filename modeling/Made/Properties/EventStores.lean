import Made.Journal.SqliteStore
import Made.Library.Mealy
import Made.Library.OrderedSets
import Mathlib.Data.List.Pairwise

/-!
# Two event stores, one history

What an event store holds is a history: the records of all streams in the order in which they were
accepted, numbered from one, each with the next sequence of its stream.  The store in memory keeps
it as lists, the one in SQLite as four tables tied together by composite keys; every call gets the
same reply from both.
-/

namespace Made

open Scans Mealy Outcome Std ExtTreeMap Framing List EventStoreState

variable {other : CeremonyId}

/-! ## Histories -/

/-- A record of a stream at its place among all records. -/
structure FiledRecord where
  position : GlobalPosition
  stream : CeremonyId
  record : AuditRecord

def recordsOf (id : CeremonyId) (history : List FiledRecord) : List AuditRecord :=
  (history.filter fun e => e.stream = id).map (·.record)

/-- Histories: each record takes the next position and the next sequence of its stream. -/
inductive Filed : List FiledRecord → Prop
  | nil : Filed []
  | snoc {history : List FiledRecord} {id : CeremonyId} {r : AuditRecord} (before : Filed history)
      (hsequence : r.sequence = (recordsOf id history).length + 1) :
      Filed (history ++ [⟨history.length + 1, id, r⟩])

variable {history : List FiledRecord} {state : EventStoreState} {tables : SqliteTables}
  {id : CeremonyId} {r : AuditRecord}

@[simp] theorem recordsOf_append (id : CeremonyId) (history more : List FiledRecord) :
    recordsOf id (history ++ more) = recordsOf id history ++ recordsOf id more := by
  simp [recordsOf]

theorem recordsOf_singleton_self (position : GlobalPosition) (id : CeremonyId) (r : AuditRecord) :
    recordsOf id [⟨position, id, r⟩] = [r] := by
  simp [recordsOf]

theorem recordsOf_singleton_of_ne (position : GlobalPosition) (r : AuditRecord) (h : id ≠ other) :
    recordsOf other [⟨position, id, r⟩] = [] := by
  simp [recordsOf, h]

theorem length_recordsOf_le (id : CeremonyId) (history : List FiledRecord) :
    (recordsOf id history).length ≤ history.length := by
  rw [recordsOf, List.length_map]
  exact length_filter_le _ _

theorem mem_recordsOf : r ∈ recordsOf id history ↔ ∃ e ∈ history, e.stream = id ∧ e.record = r := by
  simp [recordsOf, and_assoc]

theorem exists_stream_iff : (∃ e ∈ history, e.stream = id) ↔ recordsOf id history ≠ [] := by
  constructor
  · rintro ⟨e, he, hstr⟩
    exact ne_nil_of_mem (mem_recordsOf.mpr ⟨e, he, hstr, rfl⟩)
  · intro hne
    obtain ⟨r, hr⟩ := exists_mem_of_ne_nil _ hne
    obtain ⟨e, he, hstr, -⟩ := mem_recordsOf.mp hr
    exact ⟨e, he, hstr⟩

theorem exists_stream_val_iff {s : String} : (∃ e ∈ history, s = e.stream.val) ↔
    ∃ id : CeremonyId, s = id.val ∧ recordsOf id history ≠ [] := by
  simp only [← exists_stream_iff]
  constructor
  · rintro ⟨e, he, rfl⟩
    exact ⟨e.stream, rfl, e, he, rfl⟩
  · rintro ⟨_, rfl, e, he, rfl⟩
    exact ⟨e, he, rfl⟩

namespace Filed

variable {e : FiledRecord}

section

variable (h : Filed history)
include h

theorem sequences (id : CeremonyId) :
    (recordsOf id history).map (·.sequence) = range' 1 (recordsOf id history).length := by
  induction h with
  | nil => rfl
  | @snoc history id' r before hseq ih =>
    rw [recordsOf_append]
    by_cases hid : id' = id
    · subst hid
      rw [recordsOf_singleton_self, map_append, ih, length_append,
        length_singleton, map_singleton, hseq, ← range'_append]
      simp [Nat.add_comm]
    · rw [recordsOf_singleton_of_ne _ _ hid, append_nil, ih]

theorem positions : history.map (·.position) = range' 1 history.length := by
  induction h with
  | nil => rfl
  | @snoc history id r before hseq ih =>
    rw [map_append, ih, length_append, length_singleton, map_singleton, ← range'_append]
    simp [Nat.add_comm]

theorem position_bounds (he : e ∈ history) : 1 ≤ e.position ∧ e.position ≤ history.length := by
  obtain ⟨hlow, hhigh⟩ := bounds_of_numbered h.positions he
  rw [Nat.add_comm] at hhigh
  exact ⟨hlow, Nat.le_of_lt_succ hhigh⟩

theorem sequence_bounds (he : e ∈ history) :
    1 ≤ e.record.sequence ∧ e.record.sequence ≤ (recordsOf e.stream history).length := by
  have hrec : e.record ∈ recordsOf e.stream history := mem_recordsOf.mpr ⟨e, he, rfl, rfl⟩
  obtain ⟨hlow, hhigh⟩ := bounds_of_numbered (h.sequences e.stream) hrec
  rw [Nat.add_comm] at hhigh
  exact ⟨hlow, Nat.le_of_lt_succ hhigh⟩

theorem pairwise_position : history.Pairwise fun e e' => e.position < e'.position := by
  have hrange : (history.map (·.position)).Pairwise (· < ·) := by
    rw [h.positions]
    exact pairwise_lt_range'
  exact pairwise_map.mp hrange

theorem pairwise_sequence :
    history.Pairwise fun e e' => e.stream = e'.stream →
      e.record.sequence < e'.record.sequence := by
  induction h with
  | nil => exact .nil
  | @snoc history id r before hseq ih =>
    rw [pairwise_append]
    refine ⟨ih, pairwise_singleton _ _, ?_⟩
    intro e he e' he' hstr
    rw [mem_singleton] at he'
    subst he'
    have hbounds := before.sequence_bounds he
    rw [hstr] at hbounds
    show e.record.sequence < r.sequence
    rw [hseq]
    exact Nat.lt_succ_of_le hbounds.2

end

end Filed

def fileAll (id : CeremonyId) : List FiledRecord → List AuditRecord → List FiledRecord
  | history, [] => history
  | history, r :: records => fileAll id (history ++ [⟨history.length + 1, id, r⟩]) records

theorem length_fileAll (id : CeremonyId) (history : List FiledRecord) (records : List AuditRecord) :
    (fileAll id history records).length = history.length + records.length := by
  induction records generalizing history with
  | nil => rfl
  | cons r records ih =>
    rw [fileAll, ih, length_append, length_singleton, length_cons]
    omega

theorem recordsOf_fileAll_self (id : CeremonyId) (history : List FiledRecord)
    (records : List AuditRecord) :
    recordsOf id (fileAll id history records) = recordsOf id history ++ records := by
  induction records generalizing history with
  | nil => simp [fileAll]
  | cons r records ih =>
    rw [fileAll, ih, recordsOf_append, recordsOf_singleton_self, append_assoc]
    rfl

theorem recordsOf_fileAll_of_ne (h : id ≠ other) (history : List FiledRecord)
    (records : List AuditRecord) :
    recordsOf other (fileAll id history records) = recordsOf other history := by
  induction records generalizing history with
  | nil => rfl
  | cons r records ih =>
    rw [fileAll, ih, recordsOf_append, recordsOf_singleton_of_ne _ _ h, append_nil]

theorem Filed.fileAll (h : Filed history) {facts : List AuditFact} {records : List AuditRecord}
    (hseal : SealsAll ((recordsOf id history).length + 1) facts records) :
    Filed (fileAll id history records) := by
  induction records generalizing history facts with
  | nil => exact h
  | cons r records ih =>
    cases hseal with
    | cons seals rest =>
      have hlen : (recordsOf id (history ++ [⟨history.length + 1, id, r⟩])).length =
          (recordsOf id history).length + 1 := by
        rw [recordsOf_append, recordsOf_singleton_self, length_append, length_singleton]
      rw [← hlen] at rest
      exact ih (h.snoc seals.sequence) rest

theorem Filed.versionOf (h : Filed history) (id : CeremonyId) :
    versionOf (recordsOf id history) = (recordsOf id history).length :=
  getLast?_of_numbered (h.sequences id)

theorem Filed.nextSequence (h : Filed history) (id : CeremonyId) :
    nextSequence (recordsOf id history).getLast? = (recordsOf id history).length + 1 := by
  have hver := h.versionOf id
  rw [Made.versionOf] at hver
  rw [Made.nextSequence, hver]

/-! ## The store in memory -/

/-- The lists of the store hold the history. -/
structure Lists (history : List FiledRecord) (state : EventStoreState) : Prop where
  filed : Filed history
  streams : ∀ id : CeremonyId, state.streams[id]? =
    if recordsOf id history = [] then none else some (recordsOf id history)
  log : state.log = history.map fun e => (e.position, e.stream, e.record.sequence)

namespace Lists

theorem stream (h : Lists history state) (id : CeremonyId) :
    state.stream id = recordsOf id history := by
  rw [EventStoreState.stream, h.streams id]
  split
  · next hempty => rw [hempty, Option.getD_none]
  · rfl

theorem nextPosition (h : Lists history state) : state.nextPosition = history.length + 1 := by
  rw [← getLast?_of_numbered h.filed.positions, EventStoreState.nextPosition, h.log, getLast?_map]
  cases history.getLast? with
  | none | some => rfl

theorem logEntries_eq (id : CeremonyId) (history : List FiledRecord) (records : List AuditRecord) :
    (history.map fun e => (e.position, e.stream, e.record.sequence)) ++
        logEntries id (history.length + 1) records =
      (Made.fileAll id history records).map
        fun e => (e.position, e.stream, e.record.sequence) := by
  induction records generalizing history with
  | nil => simp [logEntries, Made.fileAll]
  | cons r records ih =>
    rw [logEntries, Made.fileAll, ← ih, map_append, length_append, length_singleton, append_assoc]
    rfl

theorem extend (h : Lists history state) {records : List AuditRecord} (hne : records ≠ [])
    (hfiled : Filed (fileAll id history records)) :
    Lists (fileAll id history records) (state.extend id records) where
  filed := hfiled
  streams := by
    intro other
    by_cases hid : id = other
    · subst hid
      rw [EventStoreState.extend, getElem?_insert_self, h.stream, recordsOf_fileAll_self, if_neg]
      exact append_ne_nil_of_right_ne_nil _ hne
    · rw [EventStoreState.extend, Map.getElem?_insert_of_ne (Ne.symm hid), h.streams,
        recordsOf_fileAll_of_ne hid]
  log := by
    rw [EventStoreState.extend, h.log, h.nextPosition]
    exact logEntries_eq id history records

theorem mem_streamIds (h : Lists history state) :
    id ∈ state.streamIds ↔ ∃ e ∈ history, e.stream = id := by
  rw [streamIds, mem_map]
  constructor
  · rintro ⟨⟨id', records⟩, hrow, rfl⟩
    rw [mem_toList_iff_getElem?_eq_some, h.streams] at hrow
    split at hrow
    · cases hrow
    · next hne => exact exists_stream_iff.mpr hne
  · intro hstr
    refine ⟨(id, recordsOf id history), ?_, rfl⟩
    rw [mem_toList_iff_getElem?_eq_some, h.streams, if_neg (exists_stream_iff.mp hstr)]

theorem sorted_streamIds (state : EventStoreState) :
    Sorted (fun id : CeremonyId => id) state.streamIds :=
  pairwise_map.mpr ordered_keys_toList

end Lists

/-! ## The tables -/

/-- The rows of the records and of the log are those of the history. -/
structure Rows (history : List FiledRecord) (tables : SqliteTables) : Prop where
  filed : Filed history
  events : ∀ (k : List UInt8) (stored : StoredEvent), tables.events[k]? = some stored ↔
    ∃ e ∈ history, k = scopedKey e.stream e.record.sequence ∧ stored = ⟨e.position, e.record⟩
  eventLog : ∀ k k' : List UInt8, tables.eventLog[k]? = some k' ↔
    ∃ e ∈ history, k = positionKey e.position ∧ k' = scopedKey e.stream e.record.sequence

/-- The tables of the store hold the history. -/
structure Tables (history : List FiledRecord) (tables : SqliteTables) : Prop
    extends Rows history tables where
  streamIndex : ∀ s : String, tables.streamIndex[s]? = some () ↔ ∃ e ∈ history, s = e.stream.val
  last : tables.lastGlobalPosition = if history = [] then none else some history.length

theorem zero_notMem_id (id : CeremonyId) : 0 ∉ utf8 id.val := by
  refine ByteOrder.zero_notMem_utf8 fun c hc hzero => ?_
  have hadms := id.admits_of_mem c hc
  simp [plainRule, isControl, hzero] at hadms

theorem u64Max_lt : u64Max < 256 ^ 8 := by decide

theorem scopedKey_inj {id' : CeremonyId} {n n' : Nat} (hn : n < u64Max) (hn' : n' < u64Max)
    (h : scopedKey id n = scopedKey id' n') : id = id' ∧ n = n' := by
  obtain ⟨hid, hsame⟩ := ByteOrder.scopedKey_inj (zero_notMem_id id) (zero_notMem_id id')
    (hn.trans u64Max_lt) (hn'.trans u64Max_lt) h
  exact ⟨Text.ext (utf8_injective hid), hsame⟩

theorem positionKey_inj {p p' : GlobalPosition} (hp : p < u64Max) (hp' : p' < u64Max)
    (h : positionKey p = positionKey p') : p = p' := by
  exact beBytes_injective (hp.trans u64Max_lt) (hp'.trans u64Max_lt) h

/-! ### Reading the tables -/

namespace Tables

variable {e : FiledRecord} {from_ : GlobalPosition}

theorem sequence_lt (hfiled : Filed history) (hbound : history.length < u64Max) (he : e ∈ history) :
    e.record.sequence < u64Max :=
  ((hfiled.sequence_bounds he).2.trans (length_recordsOf_le _ _)).trans_lt hbound

theorem position_lt (hfiled : Filed history) (hbound : history.length < u64Max) (he : e ∈ history) :
    e.position < u64Max :=
  (hfiled.position_bounds he).2.trans_lt hbound

theorem between_iff {id' : CeremonyId} {lo n : Nat} (hlo : lo ≤ u64Max) (hn : n < u64Max) :
    (compare (scopedKey id lo) (scopedKey id' n) != .gt &&
        compare (scopedKey id' n) (scopedKey id u64Max) != .gt) = true ↔ id' = id ∧ lo ≤ n := by
  have hbetween := ByteOrder.between_scoped_iff (zero_notMem_id id) (zero_notMem_id id')
    (hlo.trans_lt u64Max_lt) u64Max_lt (hn.trans u64Max_lt)
  rw [Bool.and_eq_true, bne_iff_ne, bne_iff_ne, scopedKey, scopedKey, scopedKey, hbetween]
  constructor
  · rintro ⟨hid, hle, -⟩
    exact ⟨Text.ext (utf8_injective hid), hle⟩
  · rintro ⟨rfl, hle⟩
    exact ⟨rfl, hle, hn.le⟩

theorem recordsAfter_eq (h : Tables history tables) (hbound : history.length < u64Max) (id : CeremonyId) (after : StreamVersion) :
    tables.recordsAfter id after = (recordsOf id history).drop after := by
  -- The rows of the range are the records of the stream above `after`.
  have hscan : SqliteTables.scanBytesRange tables.events
      (scopedKey id (min (after + 1) u64Max)) (scopedKey id u64Max) =
      ((history.filter fun e => e.stream = id).filter fun e => 1 + after ≤ e.record.sequence).map
        fun e => (scopedKey e.stream e.record.sequence, ⟨e.position, e.record⟩) := by
    refine scan_eq ?_ ?_
    · refine pairwise_map.mpr ?_
      have hsub : (history.filter fun e => e.stream = id).Pairwise fun e e' =>
          e.stream = e'.stream → e.record.sequence < e'.record.sequence :=
        h.filed.pairwise_sequence.filter _
      refine (hsub.filter _).imp_of_mem ?_
      intro e e' he he' hlt
      have hmem := mem_filter.mp (mem_filter.mp he).1
      have hmem' := mem_filter.mp (mem_filter.mp he').1
      have hid : e.stream = id := of_decide_eq_true hmem.2
      have hid' : e'.stream = id := of_decide_eq_true hmem'.2
      rw [hid, hid', scopedKey, scopedKey, ByteOrder.compare_scopedKey _
        ((sequence_lt h.filed hbound hmem.1).trans u64Max_lt)
        ((sequence_lt h.filed hbound hmem'.1).trans u64Max_lt), Nat.compare_eq_lt]
      exact hlt (hid.trans hid'.symm)
    · intro k stored
      simp only [mem_map, mem_filter, decide_eq_true_eq, Prod.mk.injEq]
      rw [h.events]
      constructor
      · rintro ⟨e, ⟨⟨he, hid⟩, hle⟩, rfl, rfl⟩
        refine ⟨⟨e, he, rfl, rfl⟩, ?_⟩
        rw [between_iff (min_le_right _ _) (sequence_lt h.filed hbound he)]
        exact ⟨hid, (min_le_left _ _).trans (by rw [Nat.add_comm]; exact hle)⟩
      · rintro ⟨⟨e, he, rfl, rfl⟩, hbetween⟩
        have hlt := sequence_lt h.filed hbound he
        rw [between_iff (min_le_right _ _) hlt] at hbetween
        refine ⟨e, ⟨⟨he, hbetween.1⟩, ?_⟩, rfl, rfl⟩
        rcases min_le_iff.mp hbetween.2 with hle | hle
        · rw [Nat.add_comm]
          exact hle
        · exact absurd hle (Nat.not_le.mpr hlt)
  rw [SqliteTables.recordsAfter, hscan, List.map_map]
  have hdrop := filter_le_eq_drop (l := recordsOf id history) (h.filed.sequences id) after
  rw [← hdrop, recordsOf, filter_map]
  rfl

def page (history : List FiledRecord) (from_ : GlobalPosition) (limit : Nat) : List FiledRecord :=
  (history.drop (from_ - 1)).take limit

theorem page_eq_filter (hfiled : Filed history) (hfrom : 1 ≤ from_) (limit : Nat) :
    page history from_ limit =
      history.filter fun e => from_ ≤ e.position && e.position < from_ + limit := by
  have hbetween := filter_between_eq (l := history) hfiled.positions (from_ - 1) limit
  rw [Nat.add_sub_cancel' hfrom] at hbetween
  exact hbetween.symm

theorem readAll_eq (h : Tables history tables) (hbound : history.length < u64Max)
    (hfrom : 1 ≤ from_) (hfromMax : from_ ≤ u64Max) {limit : Nat} (hlimit : 1 ≤ limit) :
    tables.readAll from_ limit =
      .ok ((page history from_ limit).map fun e => ⟨e.position, e.record⟩) := by
  have hscan : SqliteTables.scanBytesRange tables.eventLog (positionKey from_)
      (positionKey (min (from_ + (limit - 1)) u64Max)) =
      (page history from_ limit).map
        fun e => (positionKey e.position, scopedKey e.stream e.record.sequence) := by
    rw [page_eq_filter h.filed hfrom]
    have hend : min (from_ + (limit - 1)) u64Max < 256 ^ 8 := (min_le_right _ _).trans_lt u64Max_lt
    refine scan_eq ?_ ?_
    · refine pairwise_map.mpr ((h.filed.pairwise_position.filter _).imp_of_mem ?_)
      intro e e' he he' hlt
      rw [positionKey, positionKey, ByteOrder.compare_beBytes 8
        ((position_lt h.filed hbound (mem_filter.mp he).1).trans u64Max_lt)
        ((position_lt h.filed hbound (mem_filter.mp he').1).trans u64Max_lt), Nat.compare_eq_lt]
      exact hlt
    · intro k k'
      have hinside : ∀ e ∈ history, (compare (positionKey from_) (positionKey e.position) != .gt &&
            compare (positionKey e.position)
              (positionKey (min (from_ + (limit - 1)) u64Max)) != .gt) = true ↔
          from_ ≤ e.position ∧ e.position < from_ + limit := by
        intro e he
        have hlt := position_lt h.filed hbound he
        rw [Bool.and_eq_true, bne_iff_ne, bne_iff_ne, positionKey, positionKey, positionKey,
          ByteOrder.compare_beBytes 8 (hfromMax.trans_lt u64Max_lt) (hlt.trans u64Max_lt),
          ByteOrder.compare_beBytes 8 (hlt.trans u64Max_lt) hend, Nat.compare_ne_gt,
          Nat.compare_ne_gt, Nat.le_min]
        refine and_congr_right fun _ => ⟨fun hle => ?_, fun hle => ⟨?_, hlt.le⟩⟩
        · exact hle.1.trans_lt (Nat.add_lt_add_left (Nat.sub_one_lt_of_le hlimit le_rfl) _)
        · rw [← Nat.add_sub_assoc hlimit]
          exact Nat.le_sub_one_of_lt hle
      simp only [mem_map, mem_filter, Bool.and_eq_true, decide_eq_true_eq, Prod.mk.injEq]
      rw [h.eventLog]
      constructor
      · rintro ⟨e, ⟨he, hrange⟩, rfl, rfl⟩
        exact ⟨⟨e, he, rfl, rfl⟩, Bool.and_eq_true_iff.mp ((hinside e he).mpr hrange)⟩
      · rintro ⟨⟨e, he, rfl, rfl⟩, hrange⟩
        exact ⟨e, ⟨he, (hinside e he).mp (Bool.and_eq_true_iff.mpr hrange)⟩, rfl, rfl⟩
  have hlen : (page history from_ limit).length ≤ limit := by
    rw [page]
    exact length_take_le _ _
  rw [SqliteTables.readAll, hscan, take_of_length_le (by rwa [List.length_map]), mapM_map]
  refine mapM_eq_ok_map fun e he => ?_
  have hmem : e ∈ history := mem_of_mem_drop (mem_of_mem_take he)
  have hst := (h.events _ ⟨e.position, e.record⟩).mpr ⟨e, hmem, rfl, rfl⟩
  simp only [Function.comp_apply, SqliteTables.recordAt, hst, okOr, ok_bind]
  rfl

end Tables

theorem Lists.readAll_eq (h : Lists history state) (from_ : GlobalPosition) (limit : Nat) :
    state.readAll from_ limit =
      .ok ((Tables.page history from_ limit).map fun e => ⟨e.position, e.record⟩) := by
  rw [readAll, h.log, ← map_drop, ← map_take, mapM_map]
  refine mapM_eq_ok_map fun e he => ?_
  have hmem : e ∈ history := mem_of_mem_drop (mem_of_mem_take he)
  have hrec : (recordsOf e.stream history)[e.record.sequence - 1]? = some e.record :=
    getElem?_of_numbered (h.filed.sequences e.stream) (mem_recordsOf.mpr ⟨e, hmem, rfl, rfl⟩)
  simp only [Function.comp_apply, recordAt, h.stream, hrec, okOr, ok_bind]
  rfl

/-! ### Listing streams -/

theorem fromUtf8Lossy_utf8 (s : String) : fromUtf8Lossy (utf8 s) = s := by
  have hbytes : (⟨(utf8 s).toArray⟩ : ByteArray) = s.toByteArray := by
    rw [utf8, String.toUTF8_eq_toByteArray]
  rw [fromUtf8Lossy, hbytes, String.fromUTF8?, dif_pos s.isValidUTF8]
  rfl

theorem ceremonyOf_scopedKey (id : CeremonyId) (n : Nat) :
    ceremonyOf (scopedKey id n) = some (utf8 id.val) := by
  have hlen : (scopedKey id n).length = (utf8 id.val).length + 9 := by
    rw [scopedKey, ByteOrder.scopedKey, length_append, length_cons, Sha256.beBytes_length]
  rw [ceremonyOf, if_pos (by omega), hlen, Nat.add_sub_cancel, scopedKey, ByteOrder.scopedKey,
    take_left']
  rfl

theorem streamOfRow_scopedKey (id : CeremonyId) (n : Nat) (stored : StoredEvent) :
    SqliteTables.streamOfRow (scopedKey id n, stored) = .ok id := by
  rw [SqliteTables.streamOfRow, ceremonyOf_scopedKey, okOr, ok_bind, fromUtf8Lossy_utf8]
  exact Text.new_of_text id

namespace Tables

variable {facts : List AuditFact} {records : List AuditRecord}

theorem streams_eq (h : Tables history tables) (hlists : Lists history state) :
    tables.streams = .ok state.streamIds := by
  -- Every row of the records names the stream it belongs to.
  have hrow : ∀ (k : List UInt8) (stored : StoredEvent), tables.events[k]? = some stored →
      ∃ e ∈ history, SqliteTables.streamOfRow (k, stored) = .ok e.stream := by
    intro k stored hst
    obtain ⟨e, he, rfl, rfl⟩ := (h.events k stored).mp hst
    exact ⟨e, he, streamOfRow_scopedKey _ _ _⟩
  obtain ⟨ids, hids⟩ : ∃ ids, tables.events.toList.mapM SqliteTables.streamOfRow = .ok ids := by
    refine exists_mapM_eq_ok ?_
    rintro ⟨k, stored⟩ hmem
    obtain ⟨e, -, hstr⟩ := hrow k stored (mem_toList_iff_getElem?_eq_some.mp hmem)
    exact ⟨e.stream, hstr⟩
  have hmem : ∀ id, id ∈ ids ↔ ∃ e ∈ history, e.stream = id := by
    intro id
    rw [mem_of_mapM_eq_ok hids]
    constructor
    · rintro ⟨⟨k, stored⟩, hmem, hid⟩
      obtain ⟨e, he, hstr⟩ := hrow k stored (mem_toList_iff_getElem?_eq_some.mp hmem)
      rw [hstr, Except.ok.injEq] at hid
      exact ⟨e, he, hid⟩
    · rintro ⟨e, he, rfl⟩
      have hst := (h.events _ ⟨e.position, e.record⟩).mpr ⟨e, he, rfl, rfl⟩
      exact ⟨_, mem_toList_iff_getElem?_eq_some.mpr hst, streamOfRow_scopedKey _ _ _⟩
  rw [SqliteTables.streams, hids, ok_bind]
  show Except.ok _ = _
  congr 1
  have hmemory : Sorted (fun id : CeremonyId => id) state.streamIds :=
    Lists.sorted_streamIds state
  refine Sorted.eq_of_mem_iff (pairwise_map.mpr ordered_keys_toList) hmemory ?_
  intro id
  rw [hlists.mem_streamIds, ← hmem, map_fst_toList_eq_keys, ExtTreeMap.mem_keys,
    OrderedSets.mem_foldl_insert]
  simp

theorem startsWith_eq (idPrefix : Option CeremonyIdPrefix) (id : CeremonyId) :
    SqliteTables.startsWith idPrefix id.val = admitsId idPrefix id := by
  cases idPrefix with
  | none => rfl
  | some p =>
    rw [SqliteTables.startsWith, admitsId, Option.all_some, Option.all_some,
      Bool.eq_iff_iff, decide_eq_true_eq, isPrefixOf_iff_prefix, prefix_iff_eq_take,
      String.length_toList]
    exact eq_comm

def admittedIds (state : EventStoreState) (after : Option CeremonyId)
    (idPrefix : Option CeremonyIdPrefix) : List CeremonyId :=
  (state.streamIds.filter (isAfter after)).filter (EventStoreState.admitsId idPrefix)

theorem scan_streamIndex (h : Tables history tables) (hlists : Lists history state)
    (after : Option CeremonyId) (idPrefix : Option CeremonyIdPrefix) :
    (scan tables.streamIndex fun k =>
        isAfter (after.map (·.val)) k && SqliteTables.startsWith idPrefix k) =
      (admittedIds state after idPrefix).map fun id => (id.val, ()) := by
  have hafter : ∀ id : CeremonyId, isAfter (after.map (·.val)) id.val = isAfter after id := by
    intro id
    cases after <;> rfl
  refine scan_eq ?_ ?_
  · refine pairwise_map.mpr (((Lists.sorted_streamIds state).filter _).filter _)
  · rintro k ⟨⟩
    simp only [admittedIds, mem_map, mem_filter, Prod.mk.injEq, and_true, Bool.and_eq_true]
    rw [h.streamIndex]
    constructor
    · rintro ⟨id, ⟨⟨hid, hcursor⟩, hcut⟩, rfl⟩
      obtain ⟨e, he, rfl⟩ := hlists.mem_streamIds.mp hid
      rw [hafter, startsWith_eq]
      exact ⟨⟨e, he, rfl⟩, hcursor, hcut⟩
    · rintro ⟨⟨e, he, rfl⟩, hcursor, hcut⟩
      rw [hafter] at hcursor
      rw [startsWith_eq] at hcut
      exact ⟨e.stream, ⟨⟨hlists.mem_streamIds.mpr ⟨e, he, rfl⟩, hcursor⟩, hcut⟩, rfl⟩

theorem idsAfter_eq (h : Tables history tables) (hlists : Lists history state)
    (after : Option CeremonyId) (idPrefix : Option CeremonyIdPrefix) (limit : Nat) :
    tables.idsAfter after idPrefix limit = .ok (state.idsAfter after idPrefix limit) := by
  rw [SqliteTables.idsAfter, scan_streamIndex h hlists]
  simp only [← map_take, mapM_map, List.length_map]
  have hids := mapM_eq_ok_map (ε := DomainError)
    (f := (fun row : String × Unit => Text.new (plainRule "ceremony_id" 256) row.1) ∘
      fun id : CeremonyId => (id.val, ()))
    (g := fun id => id)
    (l := ((admittedIds state after idPrefix).take (limit + 1)).take limit)
    fun id _ => Text.new_of_text id
  rw [hids, ok_bind, map_id']
  rfl

/-! ### Appending -/

theorem insert_record (h : Rows history tables) (hbound : history.length + 1 < u64Max)
    (hseq : r.sequence = (recordsOf id history).length + 1) :
    Rows (history ++ [⟨history.length + 1, id, r⟩])
      { tables with
        events := tables.events.insert (scopedKey id r.sequence) ⟨history.length + 1, r⟩
        eventLog := tables.eventLog.insert (positionKey (history.length + 1))
          (scopedKey id r.sequence) } := by
  have hlt : history.length < u64Max := Nat.lt_of_succ_lt hbound
  have hnew : r.sequence < u64Max := by
    rw [hseq]
    exact (Nat.succ_le_succ (length_recordsOf_le id history)).trans_lt hbound
  -- Neither key is in use.
  have hfresh : ∀ e ∈ history, scopedKey e.stream e.record.sequence ≠ scopedKey id r.sequence := by
    intro e he heq
    obtain ⟨hid, hsame⟩ := scopedKey_inj (sequence_lt h.filed hlt he) hnew heq
    have hbounds := h.filed.sequence_bounds he
    rw [hid, hsame, hseq] at hbounds
    exact absurd hbounds.2 (Nat.not_succ_le_self _)
  have hplace : ∀ e ∈ history, positionKey e.position ≠ positionKey (history.length + 1) := by
    intro e he heq
    have hsame := positionKey_inj (position_lt h.filed hlt he) hbound heq
    have hbounds := h.filed.position_bounds he
    rw [hsame] at hbounds
    exact absurd hbounds.2 (Nat.not_succ_le_self _)
  refine ⟨h.filed.snoc hseq, fun k stored => ?_, fun k k' => ?_⟩
  · exact getElem?_insert_iff (fun e : FiledRecord => scopedKey e.stream e.record.sequence)
      (fun e => ⟨e.position, e.record⟩) h.events ⟨history.length + 1, id, r⟩ hfresh k stored
  · exact getElem?_insert_iff (fun e : FiledRecord => positionKey e.position)
      (fun e => scopedKey e.stream e.record.sequence) h.eventLog ⟨history.length + 1, id, r⟩
      hplace k k'

theorem insertRecords (h : Rows history tables)
    (hbound : history.length + records.length < u64Max)
    (hseal : SealsAll ((recordsOf id history).length + 1) facts records) :
    Rows (fileAll id history records)
        (SqliteTables.insertRecords id tables (history.length + 1) records) ∧
      (SqliteTables.insertRecords id tables (history.length + 1) records).streamIndex =
        tables.streamIndex := by
  induction records generalizing history tables facts with
  | nil => exact ⟨h, rfl⟩
  | cons r records ih =>
    cases hseal with
    | cons seals rest =>
      have hlen : (history ++ [(⟨history.length + 1, id, r⟩ : FiledRecord)]).length =
          history.length + 1 := by
        rw [length_append, length_singleton]
      have hcnt : (recordsOf id (history ++ [⟨history.length + 1, id, r⟩])).length =
          (recordsOf id history).length + 1 := by
        rw [recordsOf_append, recordsOf_singleton_self, length_append, length_singleton]
      rw [length_cons] at hbound
      rw [← hcnt] at rest
      have hstep := ih (insert_record h (by omega) seals.sequence) (by rw [hlen]; omega) rest
      rw [hlen] at hstep
      exact hstep

theorem extend (h : Tables history tables)
    (hbound : history.length + records.length < u64Max) (hne : records ≠ [])
    (hseal : SealsAll ((recordsOf id history).length + 1) facts records) :
    Tables (fileAll id history records) (tables.extend id (history.length + 1) records) := by
  obtain ⟨hrows, hindex⟩ := insertRecords h.toRows hbound hseal
  have hlen := length_fileAll id history records
  have hpos : 0 < records.length := length_pos_iff.mpr hne
  refine { hrows with streamIndex := ?_, last := ?_ }
  · intro s
    -- The streams of the longer history: those of the shorter one, and this one.
    have hmem : ∀ other : CeremonyId, recordsOf other (fileAll id history records) ≠ [] ↔
        other = id ∨ recordsOf other history ≠ [] := by
      intro other
      by_cases hid : id = other
      · subst hid
        rw [recordsOf_fileAll_self]
        simp [hne]
      · rw [recordsOf_fileAll_of_ne hid]
        simp [Ne.symm hid]
    have hstreams : (∃ e ∈ fileAll id history records, s = e.stream.val) ↔
        s = id.val ∨ ∃ e ∈ history, s = e.stream.val := by
      simp only [exists_stream_val_iff, hmem, and_or_left, exists_or, exists_eq_right]
    rw [hstreams, SqliteTables.extend]
    show (insert _ id.val ())[s]? = some () ↔ _
    rw [hindex]
    by_cases hs : s = id.val
    · subst hs
      simp
    · rw [Map.getElem?_insert_of_ne hs, h.streamIndex]
      simp [hs]
  · have hnonempty : fileAll id history records ≠ [] := by
      rw [← length_pos_iff, hlen]
      omega
    rw [if_neg hnonempty, hlen]
    show some (history.length + 1 + (records.length - 1)) = _
    congr 1
    omega

/-! ### One call -/

theorem SealsAll.length_eq {sequence : AuditSequence} (h : SealsAll sequence facts records) :
    records.length = facts.length := by
  induction h with
  | nil => rfl
  | cons _ _ ih => rw [length_cons, length_cons, ih]

theorem firstPosition_eq (h : Tables history tables) :
    (tables.lastGlobalPosition.map (· + 1)).getD 1 = history.length + 1 := by
  rw [h.last]
  split
  · next hempty =>
      subst hempty
      rfl
  · rfl

end Tables

def EventStoreCall.factCount : EventStoreCall → Nat
  | append _ _ facts _ => facts.length
  | _ => 0

variable (enc : RecordEncoding)

/-- Both stores answer a call in the same way, and hold one history afterwards. -/
theorem Tables.answer_eq (hlists : Lists history state) (h : Tables history tables)
    (call : EventStoreCall) (hbound : history.length + call.factCount < u64Max) :
    (tables.answer enc call).1 = (state.answer enc call).1 ∧
      ∃ history', Lists history' (state.answer enc call).2 ∧
        Tables history' (tables.answer enc call).2 ∧
        history'.length ≤ history.length + call.factCount := by
  have hlt : history.length < u64Max := (Nat.le_add_right _ _).trans_lt hbound
  cases call with
  | read stream after limit =>
    refine ⟨?_, history, hlists, h, Nat.le_add_right _ _⟩
    simp only [SqliteTables.answer, answer, SqliteTables.read,
      EventStoreState.read, h.recordsAfter_eq hlt, hlists.stream]
  | readAll from_ limit =>
    refine ⟨?_, history, hlists, h, Nat.le_add_right _ _⟩
    simp only [SqliteTables.answer, answer, hlists.readAll_eq,
      h.readAll_eq hlt from_.pos from_.le_max limit.pos]
  | head stream =>
    refine ⟨?_, history, hlists, h, Nat.le_add_right _ _⟩
    simp only [SqliteTables.answer, answer, SqliteTables.head,
      EventStoreState.head, h.recordsAfter_eq hlt, hlists.stream, drop_zero]
  | streams =>
    refine ⟨?_, history, hlists, h, Nat.le_add_right _ _⟩
    simp only [SqliteTables.answer, answer, h.streams_eq hlists]
  | idsAfter after idPrefix limit =>
    refine ⟨?_, history, hlists, h, Nat.le_add_right _ _⟩
    simp only [SqliteTables.answer, answer, h.idsAfter_eq hlists]
  | append stream expected facts authorization =>
    simp only [SqliteTables.answer, answer, SqliteTables.append,
      append, h.recordsAfter_eq hlt, hlists.stream, drop_zero]
    split
    · exact ⟨rfl, history, hlists, h, Nat.le_add_right _ _⟩
    · cases hseal : sealContinuation enc stream (recordsOf stream history) facts
          authorization with
      | error fault => exact ⟨rfl, history, hlists, h, Nat.le_add_right _ _⟩
      | ok sealed =>
        obtain ⟨hfacts, -, -, -, hsealed⟩ := sealContinuation_eq_ok hseal
        rw [h.filed.nextSequence] at hsealed
        have hcnt := SealsAll.length_eq hsealed
        have hne : sealed ≠ [] := by
          rw [← length_pos_iff, hcnt]
          exact length_pos_iff.mpr hfacts
        have hver : (sealed.getLast?.map (·.sequence)).getD (versionOf (recordsOf stream history)) =
            versionOf (recordsOf stream history ++ sealed) := by
          rw [versionOf, versionOf, getLast?_append, getLast?_eq_some_getLast hne]
          rfl
        refine ⟨?_, fileAll stream history sealed,
          hlists.extend hne (h.filed.fileAll hsealed), ?_, ?_⟩
        · dsimp only
          rw [hver, h.firstPosition_eq, hlists.nextPosition]
        · dsimp only
          rw [h.firstPosition_eq]
          refine h.extend ?_ hne hsealed
          rw [hcnt]
          exact hbound
        · rw [length_fileAll, hcnt]
          exact le_rfl

/-! ## Runs -/

theorem Tables.replies_eq (hlists : Lists history state) (h : Tables history tables)
    (calls : List EventStoreCall)
    (hbound : history.length + (calls.map EventStoreCall.factCount).sum < u64Max) :
    (replies (SqliteTables.answer enc) tables calls).1 = (replies (answer enc) state calls).1 ∧
      ∃ history', Lists history' (replies (answer enc) state calls).2 ∧
        Tables history' (replies (SqliteTables.answer enc) tables calls).2 ∧
        history'.length < u64Max := by
  induction calls generalizing history state tables with
  | nil => exact ⟨rfl, history, hlists, h, by simpa using hbound⟩
  | cons call calls ih =>
    rw [map_cons, sum_cons] at hbound
    obtain ⟨hrep, next, hlists', h', hlen⟩ := h.answer_eq enc hlists call (by omega)
    obtain ⟨hrest, hafter⟩ := ih hlists' h' (by omega)
    exact ⟨by rw [replies, replies, hrep, hrest], hafter⟩

/-! ## Paging -/

def EventStoreReply.records : EventStoreReply → List AuditRecord
  | read (.ok records) => records
  | _ => []

def EventStoreReply.positioned : EventStoreReply → List PositionedRecord
  | readAll (.ok records) => records
  | _ => []

def EventStoreReply.ids : EventStoreReply → List CeremonyId
  | idsAfter (.ok page) => page.ids
  | _ => []

def FromPosition.next (after : Option GlobalPosition) : FromPosition where
  val := min (after.getD 0 + 1) u64Max
  pos := le_min (Nat.succ_le_succ (Nat.zero_le _)) (by decide)
  le_max := min_le_right _ _

/-- Reading page by page, with any limits, meets every record of a stream, every record of all
streams and every admitted stream once, in order. -/
structure ReadsOnce (answer : EventStoreCall → EventStoreReply) (state : EventStoreState) :
    Prop where
  read : ∀ id limits, walk (fun r : AuditRecord => r.sequence)
        (fun after limit => (answer (.read id (after.getD 0) limit)).records) none limits =
      (state.stream id).take (limits.map (·.val)).sum
  readAll : ∃ all, state.log.mapM state.recordAt = .ok all ∧ ∀ limits,
    walk (fun r : PositionedRecord => r.position)
        (fun after limit => (answer (.readAll (FromPosition.next after) limit)).positioned)
        none limits =
      all.take (limits.map (·.val)).sum
  idsAfter : ∀ idPrefix limits, walk (fun id : CeremonyId => id)
        (fun after limit => (answer (.idsAfter after idPrefix limit)).ids) none limits =
      (state.streamIds.filter (EventStoreState.admitsId idPrefix)).take (limits.map (·.val)).sum

theorem Lists.readsOnce (h : Lists history state) (hbound : history.length < u64Max) :
    ReadsOnce (fun call => (state.answer enc call).1) state where
  read := by
    intro id limits
    have hnum := h.filed.sequences id
    have hpage : ∀ (after : Option AuditSequence) (limit : CeremonyEventPageLimit),
        (state.answer enc (.read id (after.getD 0) limit)).1.records =
          pageOf (fun r : AuditRecord => r.sequence) (recordsOf id history) after limit.val := by
      intro after limit
      rw [pageOf, filter_isAfter_eq_drop hnum, answer,
        EventStoreReply.records, EventStoreState.read, h.stream]
    rw [walk_eq (sorted_of_numbered hnum) hpage, filter_isAfter_eq_drop hnum,
      Option.getD_none, drop_zero, h.stream]
  readAll := by
    have hall := h.readAll_eq 1 history.length
    have hwhole : Tables.page history 1 history.length = history := by simp [Tables.page]
    have hlog : (state.log.drop (1 - 1)).take history.length = state.log := by
      rw [h.log, Nat.sub_self, drop_zero, take_of_length_le (List.length_map _).le]
    rw [readAll, hlog, hwhole] at hall
    refine ⟨_, hall, ?_⟩
    intro limits
    have hnum : (history.map fun e => (⟨e.position, e.record⟩ : PositionedRecord)).map
        (fun r => r.position) = range' 1
          (history.map fun e => (⟨e.position, e.record⟩ : PositionedRecord)).length := by
      rw [List.map_map, List.length_map]
      exact h.filed.positions
    have hpage : ∀ (after : Option GlobalPosition) (limit : CeremonyEventPageLimit),
        (state.answer enc (.readAll (FromPosition.next after) limit)).1.positioned =
          pageOf (fun r : PositionedRecord => r.position)
            (history.map fun e => (⟨e.position, e.record⟩ : PositionedRecord)) after limit.val := by
      intro after limit
      rw [pageOf, filter_isAfter_eq_drop hnum, answer, h.readAll_eq,
        EventStoreReply.positioned, Tables.page, map_take, map_drop]
      congr 1
      -- Beyond the largest position there is nothing to read.
      rcases Nat.lt_or_ge u64Max (after.getD 0 + 1) with hlarge | hsmall
      · have hval : (FromPosition.next after).val = u64Max := min_eq_right hlarge.le
        rw [hval, drop_eq_nil_of_le, drop_eq_nil_of_le]
        · rw [List.length_map]
          exact (Nat.lt_of_lt_of_le hbound (Nat.le_of_lt_succ hlarge)).le
        · rw [List.length_map]
          exact Nat.le_sub_one_of_lt hbound
      · have hval : (FromPosition.next after).val = after.getD 0 + 1 := min_eq_left hsmall
        rw [hval, Nat.add_sub_cancel]
    rw [walk_eq (sorted_of_numbered hnum) hpage, filter_isAfter_eq_drop hnum,
      Option.getD_none, drop_zero]
  idsAfter := by
    intro idPrefix limits
    have hsort : Sorted (fun id : CeremonyId => id) (state.streamIds.filter (admitsId idPrefix)) :=
      (Lists.sorted_streamIds state).filter _
    have hpage : ∀ (after : Option CeremonyId) (limit : CeremonyInstancePageLimit),
        (state.answer enc (.idsAfter after idPrefix limit)).1.ids =
          pageOf (fun id : CeremonyId => id)
            (state.streamIds.filter (admitsId idPrefix)) after limit.val := by
      intro after limit
      rw [pageOf, answer, EventStoreReply.ids, idsAfter]
      dsimp only
      rw [take_take, Nat.min_eq_left (Nat.le_succ _), filter_comm]
    rw [walk_eq hsort hpage, filter_isAfter_none]

/-! ## Both stores -/

theorem Lists.positions (h : Lists history state) :
    state.log.map (·.1) = range' 1 state.log.length ∧ (state.log.map (·.2)).Nodup ∧
      ∀ id sequence, (id, sequence) ∈ state.log.map (·.2) ↔
        1 ≤ sequence ∧ sequence ≤ (state.stream id).length := by
  refine ⟨?_, ?_, ?_⟩
  · rw [h.log, List.map_map, List.length_map]
    exact h.filed.positions
  · rw [h.log, List.map_map]
    refine pairwise_map.mpr (h.filed.pairwise_sequence.imp ?_)
    intro e e' hlt heq
    simp only [Function.comp_apply, Prod.mk.injEq] at heq
    exact absurd heq.2 (Nat.ne_of_lt (hlt heq.1))
  · intro id sequence
    rw [h.log, List.map_map, h.stream]
    simp only [mem_map, Function.comp_apply, Prod.mk.injEq]
    constructor
    · rintro ⟨e, he, rfl, rfl⟩
      exact h.filed.sequence_bounds he
    · rintro ⟨hlow, hhigh⟩
      have hmem : sequence ∈ (recordsOf id history).map (·.sequence) := by
        rw [h.filed.sequences, mem_range'_1, Nat.add_comm]
        exact ⟨hlow, Nat.lt_succ_of_le hhigh⟩
      obtain ⟨r, hr, rfl⟩ := mem_map.mp hmem
      obtain ⟨e, he, hstr, rfl⟩ := mem_recordsOf.mp hr
      exact ⟨e, he, hstr, rfl⟩

theorem lists_empty : Lists [] EventStoreState.empty where
  filed := .nil
  streams := by
    intro id
    simp [EventStoreState.empty, recordsOf]
  log := rfl

theorem tables_empty : Tables [] SqliteTables.empty where
  filed := .nil
  events := by simp [SqliteTables.empty]
  eventLog := by simp [SqliteTables.empty]
  streamIndex := by simp [SqliteTables.empty]
  last := rfl

/-- Calls made one after the other on empty stores get the same replies from both.  The positions
afterwards are one to the number of records, each of one record of one stream, and both stores are
read once, page by page, with any limits. -/
theorem sqlite_event_store_refines_memory (enc : RecordEncoding) (calls : List EventStoreCall)
    (hcount : (calls.map EventStoreCall.factCount).sum < u64Max) :
    (replies (SqliteTables.answer enc) .empty calls).1 =
        (replies (EventStoreState.answer enc) .empty calls).1 ∧
      ∀ state tables, (replies (EventStoreState.answer enc) .empty calls).2 = state →
        (replies (SqliteTables.answer enc) .empty calls).2 = tables →
        (state.log.map (·.1) = List.range' 1 state.log.length ∧ (state.log.map (·.2)).Nodup ∧
          ∀ id sequence, (id, sequence) ∈ state.log.map (·.2) ↔
            1 ≤ sequence ∧ sequence ≤ (state.stream id).length) ∧
        ReadsOnce (fun call => (state.answer enc call).1) state ∧
        ReadsOnce (fun call => (tables.answer enc call).1) state := by
  obtain ⟨hreplies, history, hlists, htables, hlen⟩ :=
    tables_empty.replies_eq enc lists_empty calls (by simpa using hcount)
  refine ⟨hreplies, ?_⟩
  rintro state tables rfl rfl
  have hmemory := hlists.readsOnce enc hlen
  refine ⟨hlists.positions, hmemory, ?_⟩
  -- A page is read without adding records, so both stores give it.
  have hsame : ∀ call : EventStoreCall, call.factCount = 0 →
      ((replies (SqliteTables.answer enc) .empty calls).2.answer enc call).1 =
        ((replies (EventStoreState.answer enc) .empty calls).2.answer enc call).1 := by
    intro call hzero
    exact (htables.answer_eq enc hlists call (by rw [hzero]; exact hlen)).1
  constructor
  · intro id limits
    rw [← hmemory.read id limits]
    congr 1
    funext after limit
    exact congrArg EventStoreReply.records (hsame _ rfl)
  · obtain ⟨all, hall, hwalk⟩ := hmemory.readAll
    refine ⟨all, hall, fun limits => ?_⟩
    rw [← hwalk limits]
    congr 1
    funext after limit
    exact congrArg EventStoreReply.positioned (hsame _ rfl)
  · intro idPrefix limits
    rw [← hmemory.idsAfter idPrefix limits]
    congr 1
    funext after limit
    exact congrArg EventStoreReply.ids (hsame _ rfl)

namespace TwoStreams

def encoding : RecordEncoding where
  timestamp := fun t => some (toString t.nanos)
  event := fun _ => some [0]
  evidence := fun _ => some [1]

def paused (id : CeremonyId) (eventId : EventId) : AuditFact where
  eventId := eventId
  event := .ceremonyPaused ⟨⟨"hold", .refl true⟩, .afterEpoch 0⟩
  ceremonyId := id
  definitionName := ⟨"review", .refl true⟩
  definitionVersion := ⟨"1.0", .refl true⟩
  occurredAt := .afterEpoch 0
  actor := ⟨⟨"operator", .refl true⟩, .human, none⟩
  correlationId := none
  causationId := none
  traceId := none

/-- Two streams of which one id begins the other, an append that comes too late, and a page. -/
def calls : List EventStoreCall :=
  [.append ⟨"a", .refl true⟩ 0 [paused ⟨"a", .refl true⟩ ⟨"a:1", .refl true⟩] none,
    .append ⟨"ab", .refl true⟩ 0 [paused ⟨"ab", .refl true⟩ ⟨"ab:1", .refl true⟩] none,
    .append ⟨"a", .refl true⟩ 0 [paused ⟨"a", .refl true⟩ ⟨"a:2", .refl true⟩] none,
    .idsAfter none (some ⟨"a", by decide⟩) (.of 1 (.refl true))]

end TwoStreams

/-- Two streams of which one id begins the other are told apart by both stores. -/
theorem two_streams_reply_alike :
    (TwoStreams.calls.map EventStoreCall.factCount).sum = 3 ∧
      (replies (SqliteTables.answer TwoStreams.encoding) .empty TwoStreams.calls).1 =
        (replies (EventStoreState.answer TwoStreams.encoding) .empty TwoStreams.calls).1 ∧
      (replies (EventStoreState.answer TwoStreams.encoding) .empty TwoStreams.calls).1.getLast? =
        some (.idsAfter (.ok ⟨[⟨"a", by decide⟩], true⟩)) := by
  refine ⟨by decide, ?_, by decide +kernel⟩
  exact (sqlite_event_store_refines_memory TwoStreams.encoding TwoStreams.calls (by decide)).1

end Made
