import Made.Delivery.Ledger
import Made.Library.Mealy
import Made.Properties.Identities

/-!
# Two ledgers of deliveries

The ledger in SQLite holds the deliveries of the one in memory twice: once under their identities
and once under their destinations.  A scan of either table is a selection among the deliveries in
the order of their identities, which is the order of the one in memory.
-/

namespace Made

open Scans Mealy Outcome Std List HostDeliveryTarget
open InMemoryHostDeliveryLedger renaming store → memoryStore, leaseEach → memoryLeaseEach
open SqliteHostDeliveryLedger renaming store → sqliteStore, leaseEach → sqliteLeaseEach
open SqliteHostDeliveryLedger (write candidates sweepEach)
open StoredHostDelivery hiding id

variable {g : StoredHostDelivery → Option StoredHostDelivery} {memory : InMemoryHostDeliveryLedger}
  {sqlite : SqliteHostDeliveryLedger} {writable : StoredHostDelivery → Bool}

/-! ## Identities -/

variable (record : HostDeliveryRecord)

namespace HostDeliveryRecord

theorem id_val :
    record.id.val = record.item.ceremonyId.val ++ ":" ++ deliveryTail record.item record.target :=
  deliveryId_eq_ok_iff.mp record.derived

theorem startsWith_ceremony :
    startsWithFront (some (hostDeliveryCeremonyPrefix record.item.ceremonyId)) record.id.val =
      true := by
  rw [startsWithFront, Option.all_some, decide_eq_true_eq, record.id_val, String.toList_append,
    hostDeliveryCeremonyPrefix, ← String.length_toList, take_left]

theorem newline_notMem_id (id : HostDeliveryId) : '\n' ∉ id.val.toList := by
  intro hmem
  have h := id.admits_of_mem '\n' hmem
  revert h
  decide

/-- The destination is part of the identity, which holds no line break. -/
theorem newline_notMem_targetKey : '\n' ∉ record.target.targetKey.val.toList := by
  intro hmem
  refine newline_notMem_id record.id ?_
  rw [record.id_val, deliveryTail]
  simp only [String.toList_append, mem_append]
  exact .inr (.inr (.inr hmem))

end HostDeliveryRecord

/-- A row of the index starts with a destination exactly when it is filed under it. -/
theorem startsWithFront_target {key key' id : String} (hkey' : '\n' ∉ key'.toList)
    (hid : '\n' ∉ id.toList) :
    startsWithFront (some (hostDeliveryTargetPrefix key)) (hostDeliveryTarget key' id) = true ↔
      key' = key := by
  rw [startsWithFront, Option.all_some, decide_eq_true_eq, ← String.length_toList]
  constructor
  · intro htake
    have hfront : (hostDeliveryTargetPrefix key).toList <+: (hostDeliveryTarget key' id).toList :=
      prefix_iff_eq_take.mpr htake.symm
    obtain ⟨rest, hrest⟩ := hfront
    simp only [hostDeliveryTargetPrefix, hostDeliveryTarget, String.toList_append] at hrest
    have hsplit : key.toList ++ '\n' :: rest = key'.toList ++ '\n' :: id.toList := by
      simpa using hrest
    -- The row holds one line break, so the destination asked for holds none.
    have hnone : '\n' ∉ key.toList := by
      intro hmem
      have hcnt := congrArg (count '\n') hsplit
      have hpos := count_pos_iff.mpr hmem
      simp only [count_append, count_cons_self, count_eq_zero.mpr hkey',
        count_eq_zero.mpr hid] at hcnt
      omega
    exact String.toList_inj.mp (Separated.append_cons_inj hnone hkey' hsplit).1.symm
  · rintro rfl
    rw [hostDeliveryTarget, String.toList_append, hostDeliveryTargetPrefix, take_left]

theorem compare_append_text {a b : String} (s : String) (h : compare a b = .lt) :
    compare (s ++ a) (s ++ b) = .lt := by
  have hlt : a < b := compareOfLessAndEq_eq_lt.mp h
  refine compareOfLessAndEq_eq_lt.mpr ?_
  rw [String.lt_iff_toList_lt] at hlt ⊢
  rw [String.toList_append, String.toList_append]
  exact append_left_lt hlt

/-! ## The ledger in memory -/

/-- Every delivery stands under its own identity. -/
def Keyed (memory : InMemoryHostDeliveryLedger) : Prop :=
  ∀ (id : HostDeliveryId) (stored : StoredHostDelivery),
    memory.inner[id]? = some stored → stored.id = id

namespace Keyed

theorem mem_values (h : Keyed memory) {stored : StoredHostDelivery} :
    stored ∈ memory.values ↔ memory.inner[stored.id]? = some stored := by
  rw [InMemoryHostDeliveryLedger.values, mem_map]
  constructor
  · rintro ⟨⟨id, stored'⟩, hrow, rfl⟩
    rw [ExtTreeMap.mem_toList_iff_getElem?_eq_some] at hrow
    rw [h id stored' hrow]
    exact hrow
  · intro hst
    exact ⟨(stored.id, stored), ExtTreeMap.mem_toList_iff_getElem?_eq_some.mpr hst, rfl⟩

theorem sorted_values (h : Keyed memory) : Sorted StoredHostDelivery.id memory.values := by
  have hrows : memory.inner.toList.Pairwise fun a b => compare a.1 b.1 = .lt :=
    ExtTreeMap.ordered_keys_toList
  refine pairwise_map.mpr (hrows.imp_of_mem ?_)
  intro a b ha hb hlt
  rw [h a.1 a.2 (ExtTreeMap.mem_toList_iff_getElem?_eq_some.mp ha),
    h b.1 b.2 (ExtTreeMap.mem_toList_iff_getElem?_eq_some.mp hb)]
  exact hlt

theorem insert (h : Keyed memory) (stored : StoredHostDelivery) :
    Keyed (memory.insert stored.id stored) := by
  intro id other ho
  rw [InMemoryHostDeliveryLedger.insert] at ho
  by_cases hid : stored.id = id
  · subst hid
    rw [ExtTreeMap.getElem?_insert_self] at ho
    cases ho
    rfl
  · rw [Map.getElem?_insert_of_ne (Ne.symm hid)] at ho
    exact h id other ho

end Keyed

/-! ## The tables -/

/-- The tables hold the deliveries in memory, under their identities and destinations. -/
structure Mirrors (memory : InMemoryHostDeliveryLedger) (sqlite : SqliteHostDeliveryLedger) :
    Prop where
  keyed : Keyed memory
  rows : ∀ (k : String) (stored : StoredHostDelivery), sqlite.deliveries[k]? = some stored ↔
    k = stored.id.val ∧ memory.inner[stored.id]? = some stored
  index : ∀ k v : String, sqlite.targets[k]? = some v ↔
    ∃ stored : StoredHostDelivery, memory.inner[stored.id]? = some stored ∧
      k = hostDeliveryTarget stored.targetKey stored.id.val ∧ v = stored.id.val

namespace Mirrors

theorem read_eq (h : Mirrors memory sqlite) (id : HostDeliveryId) :
    sqlite.read id = memory.inner[id]? := by
  refine Option.ext fun stored => ?_
  rw [SqliteHostDeliveryLedger.read, h.rows]
  constructor
  · rintro ⟨hid, hst⟩
    rw [Text.ext hid]
    exact hst
  · intro hst
    have hid := h.keyed id stored hst
    exact ⟨congrArg Text.val hid.symm, hid ▸ hst⟩

/-- A new delivery is put, or one whose destination has not changed. -/
theorem put (h : Mirrors memory sqlite) (stored : StoredHostDelivery)
    (hsame : ∀ old : StoredHostDelivery, memory.inner[stored.id]? = some old →
      old.targetKey = stored.targetKey) :
    Mirrors (memory.insert stored.id stored) (sqlite.put stored) where
  keyed := h.keyed.insert stored
  rows := by
    intro k other
    rw [SqliteHostDeliveryLedger.put, InMemoryHostDeliveryLedger.insert]
    by_cases hk : stored.id.val = k
    · subst hk
      rw [ExtTreeMap.getElem?_insert_self, Option.some.injEq]
      constructor
      · rintro rfl
        exact ⟨rfl, ExtTreeMap.getElem?_insert_self⟩
      · rintro ⟨hid, ho⟩
        rw [Text.ext hid, ExtTreeMap.getElem?_insert_self] at ho
        exact Option.some.inj ho
    · rw [Map.getElem?_insert_of_ne (Ne.symm hk), h.rows]
      refine and_congr_right fun ho => ?_
      rw [Map.getElem?_insert_of_ne fun hid => hk (by rw [ho, hid])]
  index := by
    intro k v
    rw [SqliteHostDeliveryLedger.put, InMemoryHostDeliveryLedger.insert]
    by_cases hk : hostDeliveryTarget stored.targetKey stored.id.val = k
    · subst hk
      rw [ExtTreeMap.getElem?_insert_self, Option.some.injEq]
      constructor
      · rintro rfl
        exact ⟨stored, ExtTreeMap.getElem?_insert_self, rfl, rfl⟩
      · rintro ⟨other, -, hrow, rfl⟩
        -- A row determines the identity after its line break.
        have hsplit := congrArg String.toList hrow
        simp only [hostDeliveryTarget, String.toList_append, append_assoc] at hsplit
        have hid := (Separated.append_cons_inj stored.record.newline_notMem_targetKey
          other.record.newline_notMem_targetKey hsplit).2
        exact String.toList_inj.mp hid
    · rw [Map.getElem?_insert_of_ne (Ne.symm hk), h.index]
      constructor
      · rintro ⟨other, ho, rfl, rfl⟩
        refine ⟨other, ?_, rfl, rfl⟩
        rw [Map.getElem?_insert_of_ne]
        · exact ho
        · intro hid
          refine hk ?_
          rw [hid, hsame other (hid ▸ ho)]
      · rintro ⟨other, ho, rfl, rfl⟩
        refine ⟨other, ?_, rfl, rfl⟩
        rw [Map.getElem?_insert_of_ne] at ho
        · exact ho
        · intro hid
          rw [hid, ExtTreeMap.getElem?_insert_self] at ho
          cases ho
          exact hk rfl

end Mirrors

theorem mirrors_empty : Mirrors .empty .empty where
  keyed := by
    intro id stored h
    simp [InMemoryHostDeliveryLedger.empty] at h
  rows := by simp [InMemoryHostDeliveryLedger.empty, SqliteHostDeliveryLedger.empty]
  index := by simp [InMemoryHostDeliveryLedger.empty, SqliteHostDeliveryLedger.empty]

/-! ## Scans -/

variable {front : Option String}

namespace Mirrors

variable {limit : Option Nat} {wanted : StoredHostDelivery → Result Bool}
    {w : StoredHostDelivery → Bool}

theorem scan_deliveries (h : Mirrors memory sqlite) (p : String → Bool) :
    scan sqlite.deliveries p =
      (memory.values.filter fun stored => p stored.id.val).map fun stored =>
        (stored.id.val, stored) := by
  refine scan_eq ?_ ?_
  · exact pairwise_map.mpr (h.keyed.sorted_values.filter _)
  · intro k stored
    rw [h.rows, mem_map]
    constructor
    · rintro ⟨other, ho, heq⟩
      cases heq
      rw [mem_filter, h.keyed.mem_values] at ho
      exact ⟨⟨rfl, ho.1⟩, ho.2⟩
    · rintro ⟨⟨rfl, hst⟩, hp⟩
      exact ⟨stored, mem_filter.mpr ⟨h.keyed.mem_values.mpr hst, hp⟩, rfl⟩

theorem scan_targets (h : Mirrors memory sqlite) (key : String) :
    scan sqlite.targets (startsWithFront (some (hostDeliveryTargetPrefix key))) =
      (memory.values.filter fun stored => stored.targetKey = key).map fun stored =>
        (hostDeliveryTarget key stored.id.val, stored.id.val) := by
  refine scan_eq ?_ ?_
  · refine pairwise_map.mpr ((h.keyed.sorted_values.filter _).imp ?_)
    intro a b hlt
    exact compare_append_text (key ++ "\n") hlt
  · intro k v
    rw [h.index, mem_map]
    constructor
    · rintro ⟨stored, hst, heq⟩
      cases heq
      rw [mem_filter, h.keyed.mem_values, decide_eq_true_eq] at hst
      obtain ⟨hst, rfl⟩ := hst
      exact ⟨⟨stored, hst, rfl, rfl⟩, (startsWithFront_target stored.record.newline_notMem_targetKey
          (HostDeliveryRecord.newline_notMem_id _)).mpr rfl⟩
    · rintro ⟨⟨stored, hst, rfl, rfl⟩, hfront⟩
      have hkey := (startsWithFront_target stored.record.newline_notMem_targetKey
        (HostDeliveryRecord.newline_notMem_id stored.id)).mp hfront
      refine ⟨stored, ?_, by rw [← hkey]; rfl⟩
      rw [mem_filter, h.keyed.mem_values, decide_eq_true_eq]
      exact ⟨hst, hkey⟩

theorem collect_eq {ν : Type} {table : Map String ν} {decodeRow : ν → Option StoredHostDelivery}
    {after : Option String} (hlimit : limit ≠ some 0)
    (hwanted : ∀ row ∈ scan table (startsWithFront front), ∀ stored,
      decodeRow row.2 = some stored → wanted stored = .ok (w stored)) :
    SqliteHostDeliveryLedger.collect table decodeRow front after limit wanted =
      .ok (upTo limit (wantedOf (fun row : String × ν => decodeRow row.2) w
        ((scan table (startsWithFront front)).filter fun row => isAfter after row.1))) := by
  have hpage : ∀ after, scanStrPage table after front scanPageSize =
      pageOf (fun row : String × ν => row.1) (scan table (startsWithFront front)) after
        scanPageSize := by
    intro after
    rw [scanStrPage, pageOf, scan, scan, filter_filter]
  have hfuel : ((scan table (startsWithFront front)).filter fun row =>
      isAfter after row.1).length < table.size + 1 := by
    refine Nat.lt_succ_of_le ?_
    rw [← ExtTreeMap.length_toList]
    exact (length_filter_le _ _).trans (length_filter_le _ _)
  have hbelow : Below limit ([] : List StoredHostDelivery).length := by
    intro n hn
    rcases Nat.eq_zero_or_pos n with rfl | hpos
    · exact absurd hn hlimit
    · exact hpos
  exact Scans.collect_eq (scan_sorted table (startsWithFront front)) (by decide) hpage hwanted
    hfuel hbelow

theorem collectDeliveries_eq (h : Mirrors memory sqlite) {after : Option String}
    (hlimit : limit ≠ some 0) (hwanted : ∀ stored ∈ memory.values,
      startsWithFront front stored.id.val = true → wanted stored = .ok (w stored)) :
    sqlite.collectDeliveries front after limit wanted =
      .ok (upTo limit (memory.values.filter fun stored =>
        startsWithFront front stored.id.val && isAfter after stored.id.val && w stored)) := by
  have hrows : ∀ row ∈ scan sqlite.deliveries (startsWithFront front), ∀ stored,
      some row.2 = some stored → wanted stored = .ok (w stored) := by
    rintro row hrow stored hst
    rw [h.scan_deliveries, mem_map] at hrow
    obtain ⟨other, ho, rfl⟩ := hrow
    cases hst
    rw [mem_filter] at ho
    exact hwanted other ho.1 ho.2
  rw [SqliteHostDeliveryLedger.collectDeliveries, collect_eq hlimit hrows, h.scan_deliveries,
    wantedOf, filter_map, filterMap_map, filter_filter]
  congr 2
  simp only [Function.comp_def, filterMap_some, filter_filter]
  refine filter_congr fun stored _ => ?_
  cases startsWithFront front stored.id.val <;> cases isAfter after stored.id.val <;>
    cases w stored <;> rfl

theorem toDestination_eq (h : Mirrors memory sqlite) {key : String} (hlimit : limit ≠ some 0)
    (w : StoredHostDelivery → Bool) :
    sqlite.toDestination key limit (fun stored => .ok (w stored)) =
      .ok (upTo limit (memory.values.filter fun stored => stored.targetKey = key && w stored)) := by
  have hrows : ∀ row ∈ scan sqlite.targets (startsWithFront (some (hostDeliveryTargetPrefix key))),
      ∀ stored, sqlite.deliveries[row.2]? = some stored →
        (.ok (w stored) : Result Bool) = .ok (w stored) := fun _ _ _ _ => rfl
  rw [SqliteHostDeliveryLedger.toDestination, collect_eq hlimit hrows, h.scan_targets, wantedOf]
  -- The index leads back to the delivery it was filed for.
  have hall : ∀ rows : List StoredHostDelivery, (∀ stored ∈ rows, stored ∈ memory.values) →
      (rows.map fun stored => (hostDeliveryTarget key stored.id.val, stored.id.val)).filterMap
        (fun row => sqlite.deliveries[row.2]?) = rows := by
    intro rows
    induction rows with
    | nil => intro _; rfl
    | cons stored rows ih =>
      intro hmem
      have hst : sqlite.deliveries[stored.id.val]? = some stored :=
        (h.rows _ _).mpr ⟨rfl, h.keyed.mem_values.mp (hmem stored mem_cons_self)⟩
      rw [map_cons, filterMap_cons, hst]
      dsimp only
      rw [ih fun other ho => hmem other (mem_cons_of_mem _ ho)]
  rw [filter_isAfter_none, hall _ fun stored hst => (mem_filter.mp hst).1, filter_filter]
  simp only [Bool.and_comm]

end Mirrors

/-! ## Operations on one delivery -/

/-- A delivery that is held, at the destination it names. -/
def Held (memory : InMemoryHostDeliveryLedger) (stored : StoredHostDelivery) : Prop :=
  ∃ old : StoredHostDelivery, memory.inner[stored.id]? = some old ∧ old.targetKey = stored.targetKey

namespace Held

variable {stored next : StoredHostDelivery}

theorem fits (h : Held memory stored) (old : StoredHostDelivery)
    (hold : memory.inner[stored.id]? = some old) : old.targetKey = stored.targetKey := by
  obtain ⟨held, hst, hkey⟩ := h
  rw [hst, Option.some.injEq] at hold
  rw [← hold, hkey]

theorem of_sameDelivery (hst : memory.inner[stored.id]? = some stored)
    (hkeeps : SameDelivery stored next) : Held memory next := by
  have hid : next.id = stored.id := hkeeps.id
  refine ⟨stored, hid ▸ hst, ?_⟩
  rw [StoredHostDelivery.targetKey, StoredHostDelivery.targetKey, hkeeps.target]

theorem insert (h : Held memory stored) (hnext : ∀ old : StoredHostDelivery,
      memory.inner[next.id]? = some old → old.targetKey = next.targetKey) :
    Held (memory.insert next.id next) stored := by
  obtain ⟨old, hold, hkey⟩ := h
  by_cases hid : stored.id = next.id
  · refine ⟨next, ?_, ?_⟩
    · rw [hid]
      exact ExtTreeMap.getElem?_insert_self
    · rw [← hnext old (hid ▸ hold), hkey]
  · exact ⟨old, (Map.getElem?_insert_of_ne hid).trans hold, hkey⟩

end Held

/-- SQLite can encode every delivery held in memory. -/
def Encodable (writable : StoredHostDelivery → Bool) (memory : InMemoryHostDeliveryLedger) : Prop :=
  ∀ stored ∈ memory.values, writable stored = true

namespace Encodable

variable {stored : StoredHostDelivery} {id : HostDeliveryId}

theorem of_held (h : Encodable writable memory) (hst : memory.inner[id]? = some stored) :
    writable stored = true :=
  h stored (mem_map.mpr ⟨(id, stored), ExtTreeMap.mem_toList_iff_getElem?_eq_some.mpr hst, rfl⟩)

end Encodable

theorem SqliteHostDeliveryLedger.keep_eq {α : Type} {id : HostDeliveryId}
    {stored : StoredHostDelivery} (hw : writable stored = true) (answer : α) :
    (store writable).keep sqlite id stored answer = (.ok answer, sqlite.put stored) := by
  simp [DeliveryStore.keep, store, write, hw]

/-- A call answered alike, if what memory holds afterwards can be encoded: the same reply, and
ledgers that still hold the same. -/
def Alike {α : Type} (writable : StoredHostDelivery → Bool)
    (memory : Result α × InMemoryHostDeliveryLedger)
    (sqlite : Result α × SqliteHostDeliveryLedger) : Prop :=
  Encodable writable memory.2 → sqlite.1 = memory.1 ∧ Mirrors memory.2 sqlite.2

theorem Alike.blocking_ok {α : Type} {next : SqliteHostDeliveryLedger} {answer : α}
    (h : Mirrors memory next) :
    Alike writable (.ok answer, memory) (sqlite.blocking (.ok answer, next)) :=
  fun _ => ⟨rfl, h⟩

theorem Alike.blocking_refused {α : Type} {next : SqliteHostDeliveryLedger} {error : DomainError}
    (h : Mirrors memory sqlite) :
    Alike (α := α) writable (refuse error, memory) (sqlite.blocking (refuse error, next)) :=
  fun _ => ⟨rfl, h⟩

theorem Alike.keep {α : Type} {id : HostDeliveryId} {stored : StoredHostDelivery} {answer : α}
    (h : Mirrors (memory.insert id stored) (sqlite.put stored)) :
    Alike writable (memoryStore.keep memory id stored answer)
      (sqlite.blocking ((sqliteStore writable).keep sqlite id stored answer)) := by
  intro hpost
  rw [SqliteHostDeliveryLedger.keep_eq (hpost.of_held ExtTreeMap.getElem?_insert_self)]
  exact ⟨rfl, h⟩

namespace Mirrors

section

variable (h : Mirrors memory sqlite)
include h

theorem put_back {stored next : StoredHostDelivery} (hst : memory.inner[stored.id]? = some stored)
    (hkeeps : SameDelivery stored next) :
    Mirrors (memory.insert stored.id next) (sqlite.put next) := by
  rw [← show next.id = stored.id from hkeeps.id]
  exact h.put next (Held.of_sameDelivery hst hkeeps).fits

theorem store_read (id : HostDeliveryId) :
    (sqliteStore writable).read sqlite id = memoryStore.read memory id :=
  h.read_eq id

theorem enqueue :
    Alike writable (memoryStore.enqueue memory record)
      (sqlite.blocking ((sqliteStore writable).enqueue sqlite record)) := by
  unfold DeliveryStore.enqueue
  rw [h.store_read]
  cases hheld : memoryStore.read memory record.id with
  | some existing => exact .blocking_ok h
  | none =>
    exact .keep (h.put (.new record) fun old hold => absurd (hheld.symm.trans hold) (by simp))

theorem amend {α : Type} (id : HostDeliveryId) {absent : Result α} (habsent : NoPanic absent)
    {transition : StoredHostDelivery → Option StoredHostDelivery × α}
    (hkeeps : ∀ stored next, (transition stored).1 = some next → SameDelivery stored next) :
    Alike writable (memoryStore.amend memory id absent transition)
      (sqlite.blocking ((sqliteStore writable).amend sqlite id absent transition)) := by
  unfold DeliveryStore.amend
  rw [h.store_read]
  cases hheld : memoryStore.read memory id with
  | none =>
    match absent, habsent with
    | .ok answer, _ => exact .blocking_ok h
    | .error (.refused error), _ => exact .blocking_refused h
    | .error (.panicked message), hpanic => exact absurd rfl (hpanic message)
  | some stored =>
    obtain rfl := h.keyed id stored hheld
    dsimp only
    match htr : transition stored with
    | (none, answer) => exact .blocking_ok h
    | (some next, answer) => exact .keep (h.put_back hheld (hkeeps stored next (by rw [htr])))

end

end Mirrors

/-! ## Leases -/

def DoneAlike {α : Type} (memory : Result α × InMemoryHostDeliveryLedger)
    (sqlite : Result α × SqliteHostDeliveryLedger) : Prop :=
  ∃ answer memory' sqlite', memory = (.ok answer, memory') ∧ sqlite = (.ok answer, sqlite') ∧
    Mirrors memory' sqlite'

theorem DoneAlike.blocking {α : Type} {memory : Result α × InMemoryHostDeliveryLedger}
    {sqlite : Result α × SqliteHostDeliveryLedger} (h : DoneAlike memory sqlite)
    (before : SqliteHostDeliveryLedger) : Alike writable memory (before.blocking sqlite) := by
  obtain ⟨answer, memory', sqlite', rfl, rfl, hmirrors⟩ := h
  exact .blocking_ok hmirrors

def Mirrors.atDestinations (memory : InMemoryHostDeliveryLedger) (w : StoredHostDelivery → Bool)
    (keys : List HostDeliveryTargetKey) : List StoredHostDelivery :=
  keys.flatMap fun key => memory.values.filter fun stored => stored.targetKey = key.val && w stored

def Mirrors.offered (filter : HostDeliveryFilter) (now : OffsetDateTime)
    (stored : StoredHostDelivery) : Bool :=
  stored.record.isOfferableAt now && filter.admits stored.record

/-- The deliveries to the destinations asked for follow one another in the order of identities. -/
def OrderedFor (memory : InMemoryHostDeliveryLedger) (filter : HostDeliveryFilter)
    (now : OffsetDateTime) : Prop :=
  match filter.target with
  | .any => True
  | .anyOf targets => Sorted (fun stored : StoredHostDelivery => stored.id)
      (Mirrors.atDestinations memory (Mirrors.offered filter now)
        (targets.map HostDeliveryTarget.targetKey))

/-- In an ordered list, those that come later are other deliveries. -/
theorem ne_of_sorted {stored : StoredHostDelivery} {found : List StoredHostDelivery}
    (h : Sorted StoredHostDelivery.id (stored :: found)) :
    ∀ other ∈ found, other.id ≠ stored.id := by
  intro other ho heq
  have hlt : compare stored.id other.id = .lt := (pairwise_cons.mp h).1 other ho
  rw [heq, Std.ReflOrd.compare_self] at hlt
  cases hlt

namespace Mirrors

variable {now : OffsetDateTime} {found : List StoredHostDelivery} {filter : HostDeliveryFilter}
  {until_ : OffsetDateTime} {duration : DurationMs}

section

variable (h : Mirrors memory sqlite)
include h

omit h in
theorem read_leaseEach {owner : HostAgentIncarnation} {leaseIds : Nat → HostDeliveryLeaseId}
    {ids : List HostDeliveryId} {id : HostDeliveryId} (hid : id ∉ ids) (n : Nat)
    (leased : List LeasedDelivery) :
    (memoryLeaseEach owner now duration leaseIds n memory ids
      leased).2.inner[id]? = memory.inner[id]? := by
  induction ids generalizing memory n leased with
  | nil => rfl
  | cons first ids ih =>
    obtain ⟨hfirst, hrest⟩ := not_or.mp (mt mem_cons.mpr hid)
    rw [memoryLeaseEach]
    split
    · exact ih hrest _ _
    · split
      · rfl
      · exact (ih hrest _ _).trans (Map.getElem?_insert_of_ne hfirst)

theorem leaseEach {owner : HostAgentIncarnation} (hplus : now.plus duration = .ok until_)
    (leaseIds : Nat → HostDeliveryLeaseId)
    (hf : ∀ stored ∈ found, memory.inner[stored.id]? = some stored)
    (hsort : Sorted StoredHostDelivery.id found) (n : Nat) (leased : List LeasedDelivery)
    (hpost : Encodable writable (memoryLeaseEach owner now duration leaseIds n
      memory (found.map (·.id)) leased).2) :
    DoneAlike (memoryLeaseEach owner now duration leaseIds n memory (found.map (·.id)) leased)
      (sqliteLeaseEach writable owner now duration leaseIds n sqlite found
        leased) := by
  induction found generalizing memory sqlite n leased with
  | nil => exact ⟨leased, memory, sqlite, rfl, rfl, h⟩
  | cons stored found ih =>
    have hst := hf stored mem_cons_self
    have hothers := ne_of_sorted hsort
    cases hleased : stored.leased (leaseIds n) owner now duration with
    | error fault => simp [StoredHostDelivery.leased, hplus] at hleased
    | ok result =>
      obtain ⟨next, lease⟩ := result
      have hkeeps := sameDelivery_leased hleased
      simp only [map_cons, memoryLeaseEach, hst, hleased] at hpost
      have hlater : stored.id ∉ found.map (·.id) := by
        rw [mem_map]
        rintro ⟨other, ho, heq⟩
        exact hothers other ho heq
      have hw : writable next = true :=
        hpost.of_held ((read_leaseEach hlater _ _).trans ExtTreeMap.getElem?_insert_self)
      simp only [map_cons, memoryLeaseEach, sqliteLeaseEach, hst, hleased, write, hw, if_true]
      refine ih (h.put_back hst hkeeps) (fun other ho => ?_) (pairwise_cons.mp hsort).2 _ _ hpost
      rw [InMemoryHostDeliveryLedger.insert, Map.getElem?_insert_of_ne (hothers other ho)]
      exact hf other (mem_cons_of_mem _ ho)

theorem candidates_eq {limit : Nat} (w : StoredHostDelivery → Bool)
    (keys : List HostDeliveryTargetKey) (hf : found.length < limit) :
    sqlite.candidates limit w keys found =
      .ok ((found ++ atDestinations memory w keys).take limit) := by
  induction keys generalizing found with
  | nil =>
    rw [candidates, atDestinations, flatMap_nil, append_nil, take_of_length_le hf.le]
  | cons key keys ih =>
    have hremaining : some (limit - found.length) ≠ some 0 := by
      intro hzero
      rw [Option.some.injEq] at hzero
      omega
    rw [candidates, h.toDestination_eq hremaining, ok_bind]
    have hsplit : found ++ atDestinations memory w (key :: keys) =
        (found ++ memory.values.filter fun stored => stored.targetKey = key.val && w stored) ++
          atDestinations memory w keys := by
      rw [atDestinations, flatMap_cons, ← append_assoc]
      rfl
    rw [hsplit]
    generalize (memory.values.filter fun stored => stored.targetKey = key.val && w stored) = more
    simp only [upTo]
    have hlen : (found ++ more.take (limit - found.length)).length =
        min limit (found ++ more).length := by
      rw [length_append, length_take, length_append]
      omega
    have hcut : found ++ more.take (limit - found.length) = (found ++ more).take limit := by
      rw [take_append, take_of_length_le hf.le]
    show (if (found ++ more.take (limit - found.length)).length = limit then
        .ok (found ++ more.take (limit - found.length))
      else sqlite.candidates limit w keys (found ++ more.take (limit - found.length))) = _
    split
    · next hfull =>
        have hlimit : limit ≤ (found ++ more).length := by
          rw [hlen] at hfull
          omega
        rw [hcut, take_append_of_le_length hlimit]
    · next hfull =>
        have hall : (found ++ more).length < limit := by
          rw [hlen] at hfull
          omega
        rw [hcut, take_of_length_le hall.le]
        exact ih hall

theorem atDestinations_eq {targets : List HostDeliveryTarget}
    (htgt : filter.target = .anyOf targets) (hordered : OrderedFor memory filter now) :
    atDestinations memory (offered filter now) (targets.map targetKey) =
      memory.values.filter (offered filter now) := by
  rw [OrderedFor, htgt] at hordered
  refine Sorted.eq_of_mem_iff hordered (h.keyed.sorted_values.filter _) fun stored => ?_
  simp only [atDestinations, mem_flatMap, mem_map, mem_filter, Bool.and_eq_true, decide_eq_true_eq]
  constructor
  · rintro ⟨key, -, hst, -, hoffered⟩
    exact ⟨hst, hoffered⟩
  · rintro ⟨hst, hoffered⟩
    have hadms : filter.target.admits stored.record.target = true := by
      simp only [offered, HostDeliveryFilter.admits, Bool.and_eq_true] at hoffered
      exact hoffered.2.2
    rw [htgt, HostDeliveryTargetFilter.admits, contains_iff_mem] at hadms
    exact ⟨_, ⟨stored.record.target, hadms, rfl⟩, hst, rfl, hoffered⟩

theorem leaseCandidates_eq (limit : HostDeliveryPageLimit)
    (hordered : OrderedFor memory filter now) :
    sqlite.leaseCandidates filter now limit =
      .ok ((memory.values.filter (offered filter now)).take limit.val) := by
  have hpos : 0 < limit.val := limit.pos
  unfold SqliteHostDeliveryLedger.leaseCandidates
  cases htgt : filter.target with
  | any =>
    have hlimit : some limit.val ≠ some 0 := by simp [hpos.ne']
    exact h.collectDeliveries_eq hlimit fun _ _ _ => rfl
  | anyOf targets =>
    have hcandidates := h.candidates_eq (offered filter now)
      (targets.map targetKey) (length_nil.trans_lt hpos)
    rw [nil_append, h.atDestinations_eq htgt hordered] at hcandidates
    exact hcandidates

theorem lease (owner : HostAgentIncarnation) (limit : HostDeliveryPageLimit)
    (leaseIds : Nat → HostDeliveryLeaseId) (hplus : now.plus duration = .ok until_)
    (hordered : OrderedFor memory filter now) :
    Alike writable (memory.lease filter owner now duration limit leaseIds)
      (sqlite.blocking (sqlite.lease writable filter owner now duration limit leaseIds)) := by
  have hheld : ∀ stored ∈ (memory.values.filter (offered filter now)).take limit.val,
      memory.inner[stored.id]? = some stored := fun stored hst =>
    h.keyed.mem_values.mp (mem_filter.mp (mem_of_mem_take hst)).1
  have horder : Sorted StoredHostDelivery.id
      ((memory.values.filter (offered filter now)).take limit.val) :=
    List.Pairwise.sublist (take_sublist _ _) (h.keyed.sorted_values.filter _)
  rw [SqliteHostDeliveryLedger.lease, h.leaseCandidates_eq limit hordered]
  exact fun hpost => (h.leaseEach hplus leaseIds hheld horder 0 [] hpost).blocking sqlite hpost

/-! ## Sweeps -/

theorem putAll {changes : List StoredHostDelivery} (hheld : ∀ next ∈ changes, Held memory next) :
    Mirrors (changes.foldl (fun ledger next => ledger.insert next.id next) memory)
      (changes.foldl (fun ledger next => ledger.put next) sqlite) := by
  induction changes generalizing memory sqlite with
  | nil => exact h
  | cons next changes ih =>
    have hfits := (hheld next mem_cons_self).fits
    exact ih (h.put next hfits) fun other ho =>
      (hheld other (mem_cons_of_mem _ ho)).insert hfits

end

end Mirrors

theorem inner_insertAll (changes : List StoredHostDelivery) (memory : InMemoryHostDeliveryLedger) :
    (changes.foldl (fun ledger next => ledger.insert next.id next) memory).inner =
      memory.inner.insertMany (changes.map fun next => (next.id, next)) := by
  induction changes generalizing memory with
  | nil => rfl
  | cons next changes ih =>
    rw [foldl_cons, ih, map_cons, ExtTreeMap.insertMany_cons]
    rfl

section

variable {next : StoredHostDelivery → Result (Option StoredHostDelivery)}

theorem sweepEach_eq {found : List StoredHostDelivery}
    (hnext : ∀ stored ∈ found, next stored = .ok (g stored))
    (hw : ∀ stored ∈ found, ∀ changed, g stored = some changed → writable changed = true)
    (sqlite : SqliteHostDeliveryLedger) (ids : List HostDeliveryId) :
    sweepEach writable next sqlite found ids = (.ok (ids ++ (found.filterMap g).map (·.id)),
        (found.filterMap g).foldl (fun ledger changed => ledger.put changed) sqlite) := by
  induction found generalizing sqlite ids with
  | nil => simp [sweepEach]
  | cons stored found ih =>
    have hrest := ih (fun other ho => hnext other (mem_cons_of_mem _ ho))
      fun other ho => hw other (mem_cons_of_mem _ ho)
    rw [sweepEach, hnext stored mem_cons_self]
    cases hg : g stored with
    | none =>
      rw [filterMap_cons_none hg]
      exact hrest sqlite ids
    | some changed =>
      rw [filterMap_cons_some hg]
      simp only [map_cons, foldl_cons, write, hw stored mem_cons_self changed hg, if_true]
      rw [hrest, append_assoc, singleton_append]

variable (hnext : ∀ stored ∈ memory.values, next stored = .ok (g stored))
  (hkeeps : ∀ stored changed, g stored = some changed → SameDelivery stored changed)
include hnext hkeeps

theorem memory_sweep_eq :
    memory.sweep next = (.ok ((memory.values.filterMap g).map (·.id)),
        (memory.values.filterMap g).foldl (fun ledger changed => ledger.insert changed.id changed)
          memory) := by
  have hmap : (memory.values.mapM fun stored => do
      let changed ← next stored
      pure (changed.map fun changed => (stored.id, changed)) : Result _) =
      .ok (memory.values.map fun stored => (g stored).map fun changed => (stored.id, changed)) := by
    refine mapM_eq_ok_map fun stored hst => ?_
    rw [hnext stored hst]
    rfl
  have hrows : (memory.values.map fun stored => (g stored).map fun changed =>
      (stored.id, changed)).filterMap (fun row => row) =
      (memory.values.filterMap g).map fun changed => (changed.id, changed) := by
    rw [filterMap_map, map_filterMap]
    refine filterMap_congr fun stored _ => ?_
    cases hg : g stored with
    | none => simp [hg]
    | some changed =>
      have hid : changed.id = stored.id := (hkeeps stored changed hg).id
      simp [hg, hid]
  rw [InMemoryHostDeliveryLedger.sweep, hmap]
  simp only [hrows, map_map, foldl_map]
  rfl

theorem Keyed.read_sweep (h : Keyed memory) (id : HostDeliveryId) :
    (memory.sweep next).2.inner[id]? =
      memory.inner[id]?.map fun stored => (g stored).getD stored := by
  have hunder : ∀ stored changed, g stored = some changed →
      (stored ∈ memory.values ∧ changed.id = id ↔ memory.inner[id]? = some stored) := by
    intro stored changed hg
    have hid : changed.id = stored.id := (hkeeps stored changed hg).id
    rw [hid, h.mem_values]
    constructor
    · rintro ⟨hst, rfl⟩
      exact hst
    · intro hst
      obtain rfl := h id stored hst
      exact ⟨hst, rfl⟩
  rw [memory_sweep_eq hnext hkeeps, inner_insertAll]
  cases hread : memory.inner[id]?.bind g with
  | some changed =>
    obtain ⟨stored, hst, hg⟩ := Option.bind_eq_some_iff.mp hread
    obtain ⟨hmem, rfl⟩ := (hunder stored changed hg).mpr hst
    rw [hst, Option.map_some, hg, Option.getD_some]
    refine ExtTreeMap.getElem?_insertMany_list_of_mem Std.ReflCmp.compare_self ?_
      (mem_map_of_mem (mem_filterMap.mpr ⟨stored, hmem, hg⟩))
    refine pairwise_map.mpr (h.sorted_values.filterMap g ?_)
    intro a b hlt a' ha b' hb
    rw [show a'.id = a.id from (hkeeps a a' ha).id, show b'.id = b.id from (hkeeps b b' hb).id]
    simp [show compare a.id b.id = .lt from hlt]
  | none =>
    rw [ExtTreeMap.getElem?_insertMany_list_of_contains_eq_false]
    · cases hst : memory.inner[id]? with
      | none => rfl
      | some stored => simp [show g stored = none by simpa [hst] using hread]
    · simp only [contains_eq_mem, mem_map, mem_filterMap, decide_eq_false_iff_not]
      rintro ⟨_, ⟨changed, ⟨stored, hmem, hg⟩, rfl⟩, hid⟩
      simp [(hunder stored changed hg).mp ⟨hmem, hid⟩, hg] at hread

/-- A sweep changes the same deliveries in both ledgers when the front leaves out only those that
have nothing to change. -/
theorem Mirrors.sweep (h : Mirrors memory sqlite)
    {next' : StoredHostDelivery → Result (Option StoredHostDelivery)}
    (hnext' : ∀ stored ∈ memory.values, startsWithFront front stored.id.val = true →
      next' stored = .ok (g stored))
    (hfront : ∀ stored ∈ memory.values, startsWithFront front stored.id.val = false →
      g stored = none) :
    Alike writable (memory.sweep next) (sqlite.blocking (sqlite.sweep writable front next')) := by
  intro hpost
  have hw : ∀ stored ∈ memory.values, ∀ changed, g stored = some changed →
      writable changed = true := by
    intro stored hst changed hg
    refine hpost.of_held ((h.keyed.read_sweep hnext hkeeps stored.id).trans ?_)
    rw [h.keyed.mem_values.mp hst, Option.map_some, hg, Option.getD_some]
  have hf : sqlite.collectDeliveries front none none (fun stored => do
      let changed ← next' stored
      pure changed.isSome) = .ok (memory.values.filter fun stored =>
        startsWithFront front stored.id.val && (g stored).isSome) := by
    rw [h.collectDeliveries_eq (w := fun stored => (g stored).isSome) (by simp)]
    · simp only [upTo, isAfter, Bool.and_true]
    · intro stored hst hstarts
      rw [hnext' stored hst hstarts]
      rfl
  have hsame : ((memory.values.filter fun stored =>
      startsWithFront front stored.id.val && (g stored).isSome).filterMap g) =
      memory.values.filterMap g := by
    rw [filterMap_filter]
    refine filterMap_congr fun stored hst => ?_
    cases hstarts : startsWithFront front stored.id.val with
    | false => simp [hfront stored hst hstarts]
    | true => cases hg : g stored <;> simp
  rw [memory_sweep_eq hnext hkeeps, SqliteHostDeliveryLedger.sweep, hf]
  dsimp only
  rw [sweepEach_eq (g := g), hsame, nil_append]
  · refine ⟨rfl, h.putAll fun changed hchanged => ?_⟩
    obtain ⟨stored, hst, hg⟩ := mem_filterMap.mp hchanged
    exact .of_sameDelivery (h.keyed.mem_values.mp hst) (hkeeps stored changed hg)
  · intro stored hst
    rw [mem_filter, Bool.and_eq_true] at hst
    exact hnext' stored hst.1 hst.2.1
  · exact fun stored hst => hw stored (mem_filter.mp hst).1

end

/-! ## Replaced destinations -/

namespace Mirrors

variable {replacement : HostDeliveryTarget} {following : FollowReplacement} {now : OffsetDateTime}

section

variable {id : HostDeliveryId} {held : StoredHostDelivery} (hheld : memory.inner[id]? = some held)
include hheld

/-- Only a free place is taken. -/
theorem reopen_keeps (replacement : HostDeliveryTarget) (following : FollowReplacement)
    (now : OffsetDateTime) (stored : StoredHostDelivery) :
    (memoryStore.reopen replacement following now memory stored).2.inner[id]? =
      some held := by
  unfold DeliveryStore.reopen
  split
  · split
    · exact hheld
    · next candidate _ =>
        cases hfree : memoryStore.read memory candidate.id with
        | some _ => exact hheld
        | none =>
          refine (Map.getElem?_insert_of_ne ?_).trans hheld
          rintro rfl
          exact absurd (hfree.symm.trans hheld) (by simp)
  · exact hheld

theorem supersedeEach_keeps {affected : List StoredHostDelivery}
    (hid : ∀ stored ∈ affected, stored.id ≠ id) (outcome : SupersessionOutcome) :
    (memoryStore.supersedeEach replacement following now memory affected
      outcome).2.inner[id]? = some held := by
  induction affected generalizing memory outcome with
  | nil => exact hheld
  | cons stored affected ih =>
    obtain ⟨hfirst, hrest⟩ := forall_mem_cons.mp hid
    have hkept := reopen_keeps hheld replacement following now stored
    rw [DeliveryStore.supersedeEach]
    split
    · next heq =>
        rw [heq] at hkept
        exact hkept
    · next heq =>
        rw [heq] at hkept
        exact ih ((Map.getElem?_insert_of_ne hfirst.symm).trans hkept) hrest _

end

section

variable (h : Mirrors memory sqlite)
include h

/-- A place is taken alike; or SQLite fails, though memory takes it when it exists. -/
theorem reopen (writable : StoredHostDelivery → Bool) (stored : StoredHostDelivery) :
    DoneAlike (memoryStore.reopen replacement following now memory stored)
        ((sqliteStore writable).reopen replacement following now sqlite stored) ∨
      ∃ fault, (sqliteStore writable).reopen replacement following now sqlite stored =
          (.error fault, sqlite) ∧
        ((following.follows = true → isOk (stored.reAddressed replacement now) = true) →
          ∃ opened memory' candidate,
            memoryStore.reopen replacement following now memory stored = (.ok opened, memory') ∧
            memory.inner[candidate.id]? = none ∧ memory'.inner[candidate.id]? = some candidate ∧
            writable candidate = false) := by
  unfold DeliveryStore.reopen
  cases hfollow : following.follows with
  | false => exact .inl ⟨_, _, _, rfl, rfl, h⟩
  | true =>
    simp only [if_true]
    cases stored.reAddressed replacement now with
    | error fault => exact .inr ⟨fault, rfl, fun hmoved => nomatch hmoved trivial⟩
    | ok candidate =>
      simp only [h.store_read]
      cases hfree : memoryStore.read memory candidate.id with
      | some existing => exact .inl ⟨_, _, _, rfl, rfl, h⟩
      | none =>
        cases hw : writable candidate with
        | true =>
          refine .inl ⟨_, _, _, rfl, SqliteHostDeliveryLedger.keep_eq hw _, h.put candidate ?_⟩
          -- The replacement is new, so no delivery is overwritten by it.
          exact fun old hold => absurd (hfree.symm.trans hold) (by simp)
        | false =>
          refine .inr ⟨.refused SqliteHostDeliveryLedger.encodingFailure, ?_, fun _ =>
            ⟨_, _, candidate, rfl, hfree, ExtTreeMap.getElem?_insert_self, hw⟩⟩
          simp [DeliveryStore.keep, sqliteStore, write, hw, refuse]

/-- The loop runs alike, or SQLite fails: a delivery cannot be re-addressed, or memory keeps one
that cannot be encoded. -/
theorem supersedeEach (writable : StoredHostDelivery → Bool) {affected : List StoredHostDelivery}
    (hheld : ∀ stored ∈ affected, Held memory stored)
    (hsort : Sorted StoredHostDelivery.id affected) (outcome : SupersessionOutcome) :
    DoneAlike (memoryStore.supersedeEach replacement following now memory affected outcome)
        ((sqliteStore writable).supersedeEach replacement following now sqlite affected outcome) ∨
      (∃ fault state, (sqliteStore writable).supersedeEach replacement following now sqlite affected
          outcome = (.error fault, state)) ∧
        ((following.follows = true → ∀ stored ∈ affected,
            isOk (stored.reAddressed replacement now) = true) →
          ¬ Encodable writable
            (memoryStore.supersedeEach replacement following now memory affected outcome).2) := by
  induction affected generalizing memory sqlite outcome with
  | nil => exact .inl ⟨outcome, memory, sqlite, rfl, rfl, h⟩
  | cons stored affected ih =>
    have hothers := ne_of_sorted hsort
    rw [DeliveryStore.supersedeEach, DeliveryStore.supersedeEach]
    rcases h.reopen writable stored with ⟨opened, memory', sqlite', hmem, hsql, hmirrors⟩ |
      ⟨fault, hsql, hspoilt⟩
    · have hkept : ∀ other, Held memory other → Held memory' other := by
        rintro other ⟨old, hold, hkey⟩
        have hkept := reopen_keeps hold replacement following now stored
        rw [hmem] at hkept
        exact ⟨old, hkept, hkey⟩
      have hfits := (hkept stored (hheld stored mem_cons_self)).fits
      rw [hmem, hsql]
      cases hw : writable (stored.superseded opened.1 now) with
      | true =>
        simp only [sqliteStore, write, hw, if_true]
        refine (ih (hmirrors.put (stored.superseded opened.1 now) hfits)
          (fun other ho => (hkept other (hheld other (mem_cons_of_mem _ ho))).insert hfits)
          (pairwise_cons.mp hsort).2 _).imp_right (And.imp_right fun hrest hmoved => hrest ?_)
        exact fun htrue other ho => hmoved htrue other (mem_cons_of_mem _ ho)
      | false =>
        refine .inr ⟨?_, fun _ hpost => ?_⟩
        · simp only [sqliteStore, write, hw]
          exact ⟨_, _, rfl⟩
        · have hclosed := hpost.of_held
            (supersedeEach_keeps ExtTreeMap.getElem?_insert_self hothers _)
          rw [hw] at hclosed
          cases hclosed
    · refine .inr ⟨?_, fun hmoved hpost => ?_⟩
      · rw [hsql]
        exact ⟨fault, sqlite, rfl⟩
      · obtain ⟨opened, memory', candidate, hmem, hfree, hcand, hw⟩ :=
          hspoilt fun htrue => hmoved htrue stored mem_cons_self
        have hother : ∀ other ∈ stored :: affected, other.id ≠ candidate.id := by
          intro other ho heq
          obtain ⟨old, hold, -⟩ := hheld other ho
          rw [heq, hfree] at hold
          cases hold
        rw [hmem] at hpost
        have hopened := hpost.of_held (supersedeEach_keeps
          ((Map.getElem?_insert_of_ne (hother stored mem_cons_self).symm).trans hcand)
          (fun other ho => hother other (mem_cons_of_mem _ ho)) _)
        rw [hw] at hopened
        cases hopened

theorem affected_eq (previous : HostDeliveryTarget) :
    (sqlite.toDestination previous.targetKey.val none fun stored =>
      .ok (stored.affectedBy previous)) =
      .ok (memory.values.filter (·.affectedBy previous)) := by
  rw [h.toDestination_eq (by simp)]
  congr 1
  refine filter_congr fun stored _ => ?_
  cases haffected : stored.affectedBy previous with
  | false => rw [Bool.and_false]
  | true =>
    simp only [StoredHostDelivery.affectedBy, Bool.and_eq_true, decide_eq_true_eq] at haffected
    simp [StoredHostDelivery.targetKey, haffected.1]

omit h in
theorem affected_held (h : Keyed memory) (previous : HostDeliveryTarget) :
    (∀ stored ∈ memory.values.filter (·.affectedBy previous), Held memory stored) ∧
      Sorted StoredHostDelivery.id (memory.values.filter (·.affectedBy previous)) :=
  ⟨fun stored hst => ⟨stored, h.mem_values.mp (mem_filter.mp hst).1, rfl⟩, h.sorted_values.filter _⟩

theorem supersede (previous replacement : HostDeliveryTarget) (hmoved : following.follows = true →
      (∀ stored ∈ memory.values.filter (·.affectedBy previous),
        isOk (stored.reAddressed replacement now) = true) ∨
      ((memory.values.filter (·.affectedBy previous)).head?.any fun stored =>
        !isOk (stored.reAddressed replacement now)) = true) :
    Alike writable (memory.supersede previous replacement following now)
      (sqlite.blocking (sqlite.supersede writable previous replacement following now)) := by
  obtain ⟨hheld, hsort⟩ := affected_held h.keyed previous
  rw [InMemoryHostDeliveryLedger.supersede, SqliteHostDeliveryLedger.supersede, h.affected_eq]
  dsimp only
  generalize (memory.values.filter (·.affectedBy previous)) = affected at hheld hsort hmoved
  have hdone : (following.follows = true → ∀ stored ∈ affected,
      isOk (stored.reAddressed replacement now) = true) → Alike writable _ _ := fun hall hpost =>
    ((h.supersedeEach writable hheld hsort ⟨[], []⟩).resolve_right fun hspoilt =>
      hspoilt.2 hall hpost).blocking sqlite hpost
  cases hfollow : following.follows with
  | false => exact hdone fun htrue => absurd (hfollow.symm.trans htrue) (by decide)
  | true =>
    rcases hmoved hfollow with hall | hfirst
    · exact hdone fun _ => hall
    · -- The first delivery has no place to go, and nothing is written.
      cases affected with
      | nil => cases hfirst
      | cons stored affected =>
        rw [DeliveryStore.supersedeEach, DeliveryStore.supersedeEach, DeliveryStore.reopen,
          DeliveryStore.reopen, if_pos hfollow, if_pos hfollow]
        have hpanic := stored.noPanic_reAddressed replacement now
        match hmove : stored.reAddressed replacement now with
        | .ok candidate => simp [hmove, isOk] at hfirst
        | .error (.panicked message) => exact absurd hmove (hpanic message)
        | .error (.refused error) => exact .blocking_refused h

end

end Mirrors

/-! ## Listings -/

def admitted (memory : InMemoryHostDeliveryLedger) (query : HostDeliveryQuery) :
    List StoredHostDelivery :=
  memory.values.filter fun stored => query.admits stored.record

/-- A page of what is left, with a cursor if that is not all. -/
def pageFrom (left : List StoredHostDelivery) (limit : Nat) : HostDeliveryPage :=
  ⟨(left.take limit).map (·.record),
    if limit < left.length then (left.take limit).getLast?.map (·.id) else none⟩

theorem list_eq_page (memory : InMemoryHostDeliveryLedger) (query : HostDeliveryQuery) :
    memory.list query =
      pageFrom ((admitted memory query).filter fun stored => isAfter query.cursor stored.id)
        query.limit.val := by
  have hpage : ∀ (left : List StoredHostDelivery) (limit : Nat), (⟨(left.map (·.record)).take limit,
        if !((left.map (·.record)).drop limit).isEmpty then
          ((left.map (·.record)).take limit).getLast?.map (·.id) else none⟩ : HostDeliveryPage) =
        pageFrom left limit := by
    intro left limit
    rw [pageFrom, ← map_take, ← map_drop, getLast?_map, Option.map_map, isEmpty_map]
    by_cases hmore : limit < left.length
    · have hleft : (left.drop limit).isEmpty = false := by
        rw [isEmpty_eq_false_iff, ne_eq, List.drop_eq_nil_iff]
        omega
      rw [hleft, if_pos hmore]
      rfl
    · have hleft : (left.drop limit).isEmpty = true := by
        rw [List.isEmpty_iff, List.drop_eq_nil_iff]
        omega
      rw [hleft, if_neg hmore]
      rfl
  exact hpage _ _

/-- The front narrows a listing to the ceremony asked for, and the query decides. -/
theorem Mirrors.list_eq (h : Mirrors memory sqlite) (query : HostDeliveryQuery) :
    sqlite.list query = .ok (memory.list query) := by
  have hlimit : some (query.limit.val + 1) ≠ some 0 := by simp
  have hcollect : sqlite.collectDeliveries (query.ceremonyId.map hostDeliveryCeremonyPrefix)
      (query.cursor.map (·.val)) (some (query.limit.val + 1))
      (fun stored => .ok (query.admits stored.record)) =
      .ok (((admitted memory query).filter fun stored => isAfter query.cursor stored.id).take
        (query.limit.val + 1)) := by
    rw [h.collectDeliveries_eq (w := fun stored => query.admits stored.record) hlimit
      fun _ _ _ => rfl, upTo, admitted, filter_filter]
    congr 2
    refine filter_congr fun stored _ => ?_
    have hafter : isAfter (query.cursor.map (·.val)) stored.id.val =
        isAfter query.cursor stored.id := by
      cases query.cursor <;> rfl
    rw [hafter]
    cases hadms : query.admits stored.record with
    | false => rw [Bool.and_false, Bool.and_false]
    | true =>
      -- An admitted delivery is the ceremony's, so its identity has the front.
      have hfront : startsWithFront (query.ceremonyId.map hostDeliveryCeremonyPrefix)
          stored.id.val = true := by
        cases hcer : query.ceremonyId with
        | none => rfl
        | some ceremonyId =>
          simp only [HostDeliveryQuery.admits, hcer, Option.all_some, Bool.and_eq_true,
            beq_iff_eq] at hadms
          rw [hadms.1.1]
          exact stored.record.startsWith_ceremony
      rw [hfront, Bool.true_and]
  rw [SqliteHostDeliveryLedger.list, hcollect, ok_bind, list_eq_page]
  have hpage : ∀ (left : List StoredHostDelivery) (limit : Nat),
      (⟨((left.take (limit + 1)).take limit).map (·.record),
        if (left.take (limit + 1)).length = limit + 1 then
          (((left.take (limit + 1)).take limit).map (·.record)).getLast?.map (·.id)
        else none⟩ : HostDeliveryPage) = pageFrom left limit := by
    intro left limit
    rw [pageFrom, take_take, Nat.min_eq_left (Nat.le_succ _), length_take,
      getLast?_map, Option.map_map]
    by_cases hmore : limit < left.length
    · rw [if_pos hmore, if_pos (Nat.min_eq_left hmore)]
      rfl
    · rw [if_neg hmore, if_neg]
      omega
  exact congrArg Except.ok (hpage _ _)

/-- Following the cursors of a listing to its end, with any limit on each page. -/
inductive Paged (list : HostDeliveryQuery → Result HostDeliveryPage) :
    HostDeliveryQuery → List HostDeliveryRecord → Prop
  | last {query : HostDeliveryQuery} {page : HostDeliveryPage} (hpage : list query = .ok page)
      (hnone : page.nextCursor = none) : Paged list query page.records
  | more {query : HostDeliveryQuery} {page : HostDeliveryPage} {cursor : HostDeliveryId}
      (hpage : list query = .ok page) (hcursor : page.nextCursor = some cursor)
      (limit : HostDeliveryPageLimit) {rest : List HostDeliveryRecord}
      (hrest : Paged list { query with cursor := some cursor, limit := limit } rest) :
      Paged list query (page.records ++ rest)

def remaining (memory : InMemoryHostDeliveryLedger) (query : HostDeliveryQuery) :
    List HostDeliveryRecord :=
  ((admitted memory query).filter fun stored => isAfter query.cursor stored.id).map (·.record)

/-- A page is the front of what is left, and its cursor leads to the rest. -/
theorem Keyed.list_cases (h : Keyed memory) (query : HostDeliveryQuery) :
    ((memory.list query).nextCursor = none ∧ (memory.list query).records = remaining memory query) ∨
      ∃ cursor, (memory.list query).nextCursor = some cursor ∧
        (memory.list query).records ≠ [] ∧ ∀ limit,
          remaining memory query = (memory.list query).records ++
            remaining memory { query with cursor := some cursor, limit := limit } := by
  have hsort : Sorted StoredHostDelivery.id (admitted memory query) :=
    h.sorted_values.filter _
  have hleft := filter_after_page hsort query.cursor query.limit.val
  rw [list_eq_page, pageFrom, ← pageOf]
  by_cases hmore : query.limit.val < ((admitted memory query).filter fun stored =>
      isAfter query.cursor stored.id).length
  · right
    rw [if_pos hmore]
    cases hlast : (pageOf (fun stored : StoredHostDelivery => stored.id) (admitted memory query)
        query.cursor query.limit.val).getLast? with
    | none =>
      exfalso
      rw [getLast?_eq_none_iff, pageOf, take_eq_nil_iff] at hlast
      rcases hlast with hzero | hnil
      · exact absurd hzero (Nat.ne_of_gt query.limit.pos)
      · rw [hnil] at hmore
        cases hmore
    | some last =>
      rw [hlast, Option.map_some, Option.some_or] at hleft
      refine ⟨last.id, rfl, ?_, fun limit => ?_⟩
      · intro hnil
        rw [map_eq_nil_iff] at hnil
        rw [hnil] at hlast
        cases hlast
      · have hsame : admitted memory { query with cursor := some last.id, limit := limit } =
            admitted memory query := rfl
        rw [remaining, remaining, hsame, hleft, ← map_append, pageOf, take_append_drop]
  · left
    rw [if_neg hmore]
    refine ⟨rfl, ?_⟩
    rw [remaining, pageOf, take_of_length_le (Nat.not_lt.mp hmore)]

theorem Keyed.paged_iff (h : Keyed memory) (query : HostDeliveryQuery)
    (records : List HostDeliveryRecord) :
    Paged (fun query => .ok (memory.list query)) query records ↔
      records = remaining memory query := by
  constructor
  · intro hpaged
    induction hpaged with
    | @last query page hpage hnone =>
      cases hpage
      rcases h.list_cases query with ⟨-, hrecs⟩ | ⟨cursor, hcursor, -⟩
      · exact hrecs
      · rw [hnone] at hcursor
        cases hcursor
    | @more query page cursor hpage hcursor limit rest hrest ih =>
      cases hpage
      rcases h.list_cases query with ⟨hnone, -⟩ | ⟨cursor', hcursor', -, hsplit⟩
      · rw [hcursor] at hnone
        cases hnone
      · rw [hcursor, Option.some.injEq] at hcursor'
        rw [hsplit limit, ← hcursor', ih]
  · rintro rfl
    -- Every page takes something off what is left.
    generalize hlen : (remaining memory query).length = n
    induction n using Nat.strong_induction_on generalizing query with
    | _ n ih =>
      rcases h.list_cases query with ⟨hnone, hrecs⟩ | ⟨cursor, hcursor, hne, hsplit⟩
      · rw [← hrecs]
        exact .last rfl hnone
      · rw [hsplit query.limit]
        refine .more rfl hcursor query.limit (ih _ ?_ _ rfl)
        rw [← hlen, hsplit query.limit, length_append]
        have hpos := length_pos_iff.mpr hne
        omega

/-! ## Expiry by ceremony -/

variable (ceremonyId : CeremonyId)

def isOpenIn (stored : StoredHostDelivery) : Bool :=
  stored.record.item.ceremonyId = ceremonyId && !stored.record.state.isTerminal

/-- A delivery after its ceremony has ended: closed if it was open, else as it was. -/
def afterCeremony (cause : DeliveryExpiryCause) (now : OffsetDateTime)
    (stored : StoredHostDelivery) : StoredHostDelivery :=
  if isOpenIn ceremonyId stored then
    stored.withRecord (stored.record.transitioned (.expired now cause) now)
  else stored

/-- A sweep by ceremony names and closes the open deliveries of the ceremony, and leaves all others
alone. -/
structure ClosesCeremony (memory : InMemoryHostDeliveryLedger) (ceremonyId : CeremonyId)
    (cause : DeliveryExpiryCause) (now : OffsetDateTime) (reply : HostDeliveryReply)
    (read : HostDeliveryId → Option StoredHostDelivery) : Prop where
  reply_eq : reply = .expireCeremony (.ok ((memory.values.filter (isOpenIn ceremonyId)).map (·.id)))
  read_eq : ∀ id, read id = memory.inner[id]?.map (afterCeremony ceremonyId cause now)

def closedIn (cause : DeliveryExpiryCause) (now : OffsetDateTime)
    (stored : StoredHostDelivery) : Option StoredHostDelivery :=
  if stored.record.item.ceremonyId = ceremonyId then stored.abandoned cause now else none

theorem closedIn_eq (cause : DeliveryExpiryCause) (now : OffsetDateTime)
    (stored : StoredHostDelivery) :
    closedIn ceremonyId cause now stored =
      if isOpenIn ceremonyId stored then some (afterCeremony ceremonyId cause now stored)
      else none := by
  by_cases hcer : stored.record.item.ceremonyId = ceremonyId
  · cases hterm : stored.record.state.isTerminal <;>
      simp [closedIn, afterCeremony, isOpenIn, hcer, StoredHostDelivery.abandoned, hterm,
        HostDeliveryRecord.expired]
  · simp [closedIn, isOpenIn, hcer]

theorem sameDelivery_closedIn {ceremonyId : CeremonyId} {cause : DeliveryExpiryCause}
    {now : OffsetDateTime} {stored changed : StoredHostDelivery}
    (h : closedIn ceremonyId cause now stored = some changed) :
    SameDelivery stored changed := by
  unfold closedIn at h
  split at h
  · exact sameDelivery_abandoned h
  · cases h

theorem Keyed.closesCeremony (h : Keyed memory) (ceremonyId : CeremonyId)
    (cause : DeliveryExpiryCause) (now : OffsetDateTime) :
    ClosesCeremony memory ceremonyId cause now
      (memory.answer (.expireCeremony ceremonyId cause now)).1
      (fun id => (memory.answer (.expireCeremony ceremonyId cause now)).2.inner[id]?) := by
  have hid : ∀ stored, (afterCeremony ceremonyId cause now stored).id = stored.id := by
    intro stored
    unfold afterCeremony
    split <;> rfl
  have hchanges : memory.values.filterMap (closedIn ceremonyId cause now) =
      (memory.values.filter (isOpenIn ceremonyId)).map (afterCeremony ceremonyId cause now) := by
    rw [← filterMap_eq_map, filterMap_filter]
    exact filterMap_congr fun stored _ => closedIn_eq ceremonyId cause now stored
  have hsweep : memory.expireCeremony ceremonyId cause now =
      (.ok ((memory.values.filterMap (closedIn ceremonyId cause now)).map (·.id)),
        (memory.values.filterMap (closedIn ceremonyId cause now)).foldl
          (fun ledger changed => ledger.insert changed.id changed) memory) :=
    memory_sweep_eq (fun _ _ => rfl) fun _ _ => sameDelivery_closedIn
  rw [hchanges] at hsweep
  constructor
  · rw [InMemoryHostDeliveryLedger.answer, hsweep, Prod.map_fst, map_map]
    exact congrArg _ (congrArg _ (map_congr_left fun stored _ => hid stored))
  · intro id
    rw [InMemoryHostDeliveryLedger.answer, Prod.map_snd]
    refine (h.read_sweep (g := closedIn ceremonyId cause now) (fun _ _ => rfl)
      (fun _ _ => sameDelivery_closedIn) id).trans ?_
    refine congrArg (Option.map · _) (funext fun stored => ?_)
    rw [closedIn_eq, afterCeremony]
    split <;> rfl

/-! ## Calls -/

/-- When both ledgers select alike: sums of instants stay in the range of the clock; the
destinations of a lease are listed in the order of their deliveries; no open delivery of another
ceremony has an identity that starts like those of the ceremony to expire; and if work follows a
replaced destination, all of it can be re-addressed or the first of it cannot. -/
def SelectsAlike (memory : InMemoryHostDeliveryLedger) : HostDeliveryCall → Prop
  | .lease filter _ now duration _ _ =>
    isOk (now.plus duration) = true ∧ OrderedFor memory filter now
  | .expire now => ∀ stored ∈ memory.values, isOk (stored.expired now) = true
  | .expireCeremony ceremonyId _ _ => ∀ stored ∈ memory.values,
      stored.record.state.isTerminal = false →
      startsWithFront (some (hostDeliveryCeremonyPrefix ceremonyId)) stored.id.val = true →
      stored.record.item.ceremonyId = ceremonyId
  | .supersede previous replacement following now => following.follows = true →
      (∀ stored ∈ memory.values.filter (·.affectedBy previous),
        isOk (stored.reAddressed replacement now) = true) ∨
      ((memory.values.filter (·.affectedBy previous)).head?.any fun stored =>
        !isOk (stored.reAddressed replacement now)) = true
  | _ => True

/-- When both ledgers answer a call alike: they select alike, and what memory holds afterwards can
be encoded. -/
def Agrees (writable : StoredHostDelivery → Bool) (memory : InMemoryHostDeliveryLedger)
    (call : HostDeliveryCall) : Prop :=
  SelectsAlike memory call ∧ Encodable writable (memory.answer call).2

theorem Mirrors.answer (call : HostDeliveryCall) (h : Mirrors memory sqlite)
    (hagrees : Agrees writable memory call) :
    (sqlite.answer writable call).1 = (memory.answer call).1 ∧
      Mirrors (memory.answer call).2 (sqlite.answer writable call).2 := by
  obtain ⟨hagrees, hpost⟩ := hagrees
  have hrep : ∀ {α : Type} {m : Result α × InMemoryHostDeliveryLedger}
      {s : Result α × SqliteHostDeliveryLedger} (reply : Result α → HostDeliveryReply),
      Encodable writable (m.map reply id).2 → Alike writable m s →
        (s.map reply id).1 = (m.map reply id).1 ∧
          Mirrors (m.map reply id).2 (s.map reply id).2 := by
    intro α m s reply hpost halike
    obtain ⟨hsame, hmirrors⟩ := halike hpost
    exact ⟨congrArg reply hsame, hmirrors⟩
  cases call with
  | enqueue record => exact hrep _ hpost (h.enqueue record)
  | lease filter owner now duration limit leaseIds =>
    obtain ⟨until_, hplus⟩ := exists_eq_ok_of_isOk hagrees.1
    exact hrep _ hpost (h.lease owner limit leaseIds hplus hagrees.2)
  | acknowledge lease observation now =>
    exact hrep _ hpost (h.amend _ (noPanic_ok _) fun _ _ => sameDelivery_acknowledged)
  | markProcessed deliveryId owner fence action now =>
    exact hrep _ hpost (h.amend _ (noPanic_refuse _) fun _ _ => sameDelivery_processed)
  | recordActivation deliveryId outcome now =>
    exact hrep _ hpost (h.amend _ (noPanic_ok _) fun _ _ => sameDelivery_activated)
  | markFailed lease reason now =>
    exact hrep _ hpost (h.amend _ (noPanic_ok _) fun _ _ => sameDelivery_failed)
  | release lease now =>
    exact hrep _ hpost (h.amend _ (noPanic_ok _) fun _ _ => sameDelivery_released)
  | expire now =>
    have hnext : ∀ stored ∈ memory.values,
        stored.expired now = .ok ((stored.expired now).toOption.getD none) := by
      intro stored hst
      obtain ⟨next, hexpired⟩ := exists_eq_ok_of_isOk (hagrees stored hst)
      rw [hexpired]
      rfl
    refine hrep _ hpost (h.sweep hnext ?_ (fun stored hst _ => hnext stored hst)
      fun stored _ hfront => by cases hfront)
    intro stored changed hchanged
    have hexpired : stored.expired now = .ok (some changed) := by
      cases hres : stored.expired now with
      | error fault => simp [hres, Except.toOption] at hchanged
      | ok next =>
        simp only [hres, Except.toOption, Option.getD_some] at hchanged
        rw [hchanged]
    exact sameDelivery_expired hexpired
  | abandon deliveryId cause now =>
    exact hrep _ hpost (h.amend _ (noPanic_ok _) fun _ _ => sameDelivery_abandoned)
  | expireCeremony ceremonyId cause now =>
    have hfront : ∀ stored ∈ memory.values,
        startsWithFront (some (hostDeliveryCeremonyPrefix ceremonyId)) stored.id.val = false →
        closedIn ceremonyId cause now stored = none := by
      intro stored _ hfront
      unfold closedIn
      split
      · next hcer =>
          have hstarts := stored.record.startsWith_ceremony
          rw [hcer] at hstarts
          exact absurd (hfront.symm.trans hstarts) (by decide)
      · rfl
    refine hrep _ hpost (h.sweep (fun _ _ => rfl) (fun _ _ => sameDelivery_closedIn)
      (fun stored hst hstarts => ?_) hfront)
    -- A delivery with this front that is not the ceremony's is closed already.
    show Except.ok (stored.abandoned cause now) = .ok (closedIn ceremonyId cause now stored)
    unfold closedIn
    split
    · rfl
    · next ho =>
        have hterm : stored.record.state.isTerminal = true := by
          by_contra hopen
          exact ho (hagrees stored hst (Bool.not_eq_true _ ▸ hopen) hstarts)
        rw [StoredHostDelivery.abandoned, if_pos hterm]
  | supersede previous replacement following now =>
    exact hrep _ hpost (h.supersede previous replacement hagrees)
  | get deliveryId =>
    refine ⟨?_, h⟩
    rw [InMemoryHostDeliveryLedger.answer, SqliteHostDeliveryLedger.answer, h.read_eq]
  | list query =>
    rw [InMemoryHostDeliveryLedger.answer, SqliteHostDeliveryLedger.answer, h.list_eq]
    exact ⟨rfl, h⟩

/-! ## Runs -/

instance {κ α : Type} [Ord κ] (key : α → κ) (l : List α) : Decidable (Sorted key l) :=
  inferInstanceAs (Decidable (List.Pairwise _ l))

instance (memory : InMemoryHostDeliveryLedger) (filter : HostDeliveryFilter)
    (now : OffsetDateTime) : Decidable (OrderedFor memory filter now) :=
  match h : filter.target with
  | .any => decidable_of_iff True (by rw [OrderedFor, h])
  | .anyOf targets =>
    decidable_of_iff (Sorted (fun stored : StoredHostDelivery => stored.id)
      (Mirrors.atDestinations memory (Mirrors.offered filter now)
        (targets.map HostDeliveryTarget.targetKey))) (by rw [OrderedFor, h])

instance (memory : InMemoryHostDeliveryLedger) (call : HostDeliveryCall) :
    Decidable (SelectsAlike memory call) :=
  match call with
  | .lease _ _ _ _ _ _ => inferInstanceAs (Decidable (_ ∧ _))
  | .expire _ => inferInstanceAs (Decidable (∀ stored ∈ memory.values, _ = true))
  | .expireCeremony _ _ _ =>
    inferInstanceAs (Decidable (∀ stored ∈ memory.values, _ = false → _ = true → _ = _))
  | .supersede _ _ _ _ => inferInstanceAs (Decidable (_ = true → _ ∨ _))
  | .enqueue _ | .acknowledge _ _ _ | .markProcessed _ _ _ _ _ | .recordActivation _ _ _
  | .markFailed _ _ _ | .release _ _ | .abandon _ _ _ | .get _ | .list _ =>
    inferInstanceAs (Decidable True)

instance (memory : InMemoryHostDeliveryLedger) (call : HostDeliveryCall) :
    Decidable (Agrees writable memory call) :=
  inferInstanceAs (Decidable (_ ∧ ∀ stored ∈ (memory.answer call).2.values, _ = true))

/-- Calls made one after the other on empty ledgers, each of which meets its condition, get the same
replies from both, and both hold the same deliveries afterwards.  Then a ceremony that is expired
loses its open deliveries and no others, and a listing followed to its end shows every admitted
delivery once, in the order of identities. -/
theorem sqlite_host_delivery_ledger_refines_memory (writable : StoredHostDelivery → Bool)
    (calls : List HostDeliveryCall)
    (hcalls : Along InMemoryHostDeliveryLedger.answer (Agrees writable) .empty calls) :
    (replies (SqliteHostDeliveryLedger.answer writable) .empty calls).1 =
        (replies InMemoryHostDeliveryLedger.answer .empty calls).1 ∧
      ∀ memory sqlite, (replies InMemoryHostDeliveryLedger.answer .empty calls).2 = memory →
        (replies (SqliteHostDeliveryLedger.answer writable) .empty calls).2 = sqlite →
        (∀ id, sqlite.read id = memory.inner[id]?) ∧
        (∀ ceremonyId cause now, ClosesCeremony memory ceremonyId cause now
            (memory.answer (.expireCeremony ceremonyId cause now)).1
            (fun id => (memory.answer (.expireCeremony ceremonyId cause now)).2.inner[id]?) ∧
          (Agrees writable memory (.expireCeremony ceremonyId cause now) →
            ClosesCeremony memory ceremonyId cause now
              (sqlite.answer writable (.expireCeremony ceremonyId cause now)).1
              (sqlite.answer writable (.expireCeremony ceremonyId cause now)).2.read)) ∧
        ∀ query records, (Paged (fun query => .ok (memory.list query)) query records ↔
            records = remaining memory query) ∧
          (Paged sqlite.list query records ↔ records = remaining memory query) := by
  obtain ⟨hreplies, hmirrors⟩ :=
    replies_simulate (fun _ _ call h hagrees => Mirrors.answer call h hagrees) mirrors_empty hcalls
  refine ⟨hreplies, ?_⟩
  rintro memory sqlite rfl rfl
  refine ⟨hmirrors.read_eq, ?_, ?_⟩
  · intro ceremonyId cause now
    have hmemory := hmirrors.keyed.closesCeremony ceremonyId cause now
    refine ⟨hmemory, fun hagrees => ?_⟩
    obtain ⟨hrep, hafter⟩ := hmirrors.answer (.expireCeremony ceremonyId cause now) hagrees
    refine ⟨hrep.trans hmemory.reply_eq, fun id => ?_⟩
    rw [hafter.read_eq]
    exact hmemory.read_eq id
  · intro query records
    refine ⟨hmirrors.keyed.paged_iff query records, ?_⟩
    rw [← hmirrors.keyed.paged_iff query records]
    have hlist : (replies (SqliteHostDeliveryLedger.answer writable) .empty calls).2.list =
        fun query => .ok ((replies InMemoryHostDeliveryLedger.answer .empty calls).2.list query) :=
      funext hmirrors.list_eq
    rw [hlist]

namespace Desk

def queued (id : HostDeliveryId) (ceremonyId : CeremonyId) (role : RoleId)
    (derived : (HostDeliveryItem.intervention ceremonyId ⟨"ask", .refl true⟩).deliveryId
      (.role role) = .ok id) : HostDeliveryRecord where
  id := id
  item := .intervention ceremonyId ⟨"ask", .refl true⟩
  target := .role role
  policy := .pull
  state := .queued
  attempt := 0
  createdAt := .afterEpoch 0
  updatedAt := .afterEpoch 0
  history := DeliveryHistory.new.recording ⟨.queued, .afterEpoch 0⟩
  derived := derived

/-- A delivery of a ceremony whose name goes on after a colon. -/
def nested : HostDeliveryRecord :=
  queued ⟨"a:b:intervention:ask:role:editor", by decide⟩ ⟨"a:b", by decide⟩
    ⟨"editor", by decide⟩ (by decide +kernel)

def own : HostDeliveryRecord :=
  queued ⟨"a:intervention:ask:role:writer", by decide⟩ ⟨"a", by decide⟩
    ⟨"writer", by decide⟩ (by decide +kernel)

def lease (roles : List RoleId) : HostDeliveryCall :=
  .lease ⟨none, .anyOf (roles.map .role), none⟩ ⟨"host", .refl true⟩ (.afterEpoch 0)
    (.fromMillis 60000) ⟨10, by decide, by decide⟩ fun _ => ⟨"l", .refl true⟩

/-- Two deliveries, a lease for both roles and the end of the inner ceremony. -/
def calls : List HostDeliveryCall :=
  [.enqueue nested, .enqueue own, lease [⟨"editor", .refl true⟩, ⟨"writer", .refl true⟩],
    .expireCeremony ⟨"a:b", .refl true⟩ .ceremonyEnded (.afterEpoch 0)]

end Desk

/-- A ceremony that is expired takes a delivery of another ceremony with it in SQLite only; and a
lease for two roles is given in the order of the roles in SQLite, of the identities in memory. -/
theorem ledgers_disagree :
    (replies (SqliteHostDeliveryLedger.answer fun _ => true) .empty
        [.enqueue Desk.nested, .expireCeremony ⟨"a", by decide⟩ .ceremonyEnded ⟨0, by decide⟩]).1 =
      [.enqueue (.ok (.enqueued Desk.nested)), .expireCeremony (.ok [Desk.nested.id])] ∧
    (replies InMemoryHostDeliveryLedger.answer .empty
        [.enqueue Desk.nested, .expireCeremony ⟨"a", by decide⟩ .ceremonyEnded ⟨0, by decide⟩]).1 =
      [.enqueue (.ok (.enqueued Desk.nested)), .expireCeremony (.ok [])] ∧
    (replies (SqliteHostDeliveryLedger.answer fun _ => true) .empty
        [.enqueue Desk.nested, .enqueue Desk.own,
          Desk.lease [⟨"writer", by decide⟩, ⟨"editor", by decide⟩]]).1 ≠
      (replies InMemoryHostDeliveryLedger.answer .empty [.enqueue Desk.nested, .enqueue Desk.own,
          Desk.lease [⟨"writer", by decide⟩, ⟨"editor", by decide⟩]]).1 := by
  decide +kernel

/-- Deliveries of both ceremonies are leased by role in order, and those of the inner one expire. -/
theorem desk_run_agrees :
    Along InMemoryHostDeliveryLedger.answer (Agrees fun _ => true) .empty Desk.calls ∧
      (replies (SqliteHostDeliveryLedger.answer fun _ => true) .empty Desk.calls).1 =
        (replies InMemoryHostDeliveryLedger.answer .empty Desk.calls).1 := by
  have hcalls : Along InMemoryHostDeliveryLedger.answer (Agrees fun _ => true) .empty
      Desk.calls := by
    decide +kernel
  exact ⟨hcalls, (sqlite_host_delivery_ledger_refines_memory _ _ hcalls).1⟩

end Made
