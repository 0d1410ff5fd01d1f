import Made.Journal.SessionFold
import Made.Library.Logs
import Mathlib.Data.List.Infix

/-!
# Loading a session is folding its stream

Any number of writers open, load and extend streams on one store; snapshots are written late, out of
order or not at all.  What a writer appends was decided against the fold of exactly the records it
stands after, and a load answers the fold of a stream as it was at one moment of the load.
-/

namespace Made

open Interleaving Interleaving.Discipline Outcome Std List

namespace SessionStream

variable {records : List AuditRecord}

/-! ## Batches -/

abbrev StreamLog := List (Event streamPorts StreamInput)

abbrev StreamWorld := World streamPorts StreamStore StreamInput

/-- The records of one append, and the thread that made it. -/
structure Batch where
  thread : Nat
  records : List AuditRecord

/-- The batch that a reply reports for a stream. -/
def landedCall (id : CeremonyId) (thread : Nat) : (c : StreamCall) → c.Reply → Option Batch
  | .append target _ _ _, .ok (.appended _ records _) =>
    if target = id then some ⟨thread, records⟩ else none
  | _, _ => none

def landedEvent (id : CeremonyId) : Event streamPorts StreamInput → Option Batch
  | .started _ _ => none
  | .called thread c reply => landedCall id thread c reply

/-- The batches of a stream, in the order in which they were appended. -/
def landed (id : CeremonyId) (log : StreamLog) : List Batch := log.filterMap (landedEvent id)

def written (batches : List Batch) : List AuditRecord := batches.flatMap (·.records)

@[simp] theorem written_append (batches more : List Batch) :
    written (batches ++ more) = written batches ++ written more :=
  flatMap_append

theorem landed_append (id : CeremonyId) (log : StreamLog) (e : Event streamPorts StreamInput) :
    landed id (log ++ [e]) = landed id log ++ (landedEvent id e).toList := by
  rw [landed, filterMap_append]
  cases h : landedEvent id e <;> simp [landed, h]

theorem landed_grows (id : CeremonyId) (log : StreamLog) (e : Event streamPorts StreamInput) :
    landed id log <+: landed id (log ++ [e]) :=
  ⟨_, (landed_append id log e).symm⟩

structure States (records : List AuditRecord) (facts : List AuditFact) : Prop where
  eventIds : records.map (·.eventId) = facts.map (·.eventId)
  events : records.map (·.event) = facts.map fun fact => some fact.event

theorem States.of_maps {facts sealed : List AuditFact} (h : States records sealed)
    (hids : sealed.map (·.eventId) = facts.map (·.eventId))
    (hevs : sealed.map (·.event) = facts.map (·.event)) : States records facts := by
  refine ⟨h.eventIds.trans hids, ?_⟩
  have hsome := congrArg (map some) hevs
  rw [map_map, map_map] at hsome
  exact h.events.trans hsome

/-- A batch of records is what the call decided against the fold of the records before it. -/
def Decides (past records : List AuditRecord) : StreamInput → Prop
  | .load _ => False
  | .open_ opening actor occurredAt _ =>
    past = [] ∧ ∃ started rest facts, opening = .ceremonyInstanceStarted started :: rest ∧
      SessionFacts.facts (CeremonyInstance.fromStarted started) opening actor occurredAt =
        .ok facts ∧ States records facts
  | .commit session facts _ => foldRecords past = .ok session ∧ States records facts
  | .execute _ _ decide_ _ => ∃ session facts, foldRecords past = .ok session ∧
      decide_ session = .ok facts ∧ States records facts

def Decided (log : StreamLog) (past : List AuditRecord) (batch : Batch) : Prop :=
  ∃ input, .started batch.thread input ∈ log ∧ Decides past batch.records input

/-- A session that a stream stood for after some of its batches. -/
def Recorded (log : StreamLog) (session : LoadedSession) : Prop :=
  ∃ batches, batches <+: landed session.instance_.id log ∧
    foldRecords (written batches) = .ok session

theorem growing_started (n : Nat) (input : StreamInput) :
    Growing fun log : StreamLog => .started n input ∈ log :=
  .mem _

theorem growing_landed (id : CeremonyId) (batches : List Batch) :
    Growing fun log => batches <+: landed id log :=
  fun log e h => h.trans (landed_grows id log e)

theorem growing_decided (past : List AuditRecord) (batch : Batch) :
    Growing fun log => Decided log past batch :=
  fun _ _ ⟨input, hstarted, h⟩ => ⟨input, mem_append_left _ hstarted, h⟩

theorem growing_recorded (session : LoadedSession) : Growing fun log => Recorded log session :=
  fun log e ⟨batches, hbatches, h⟩ => ⟨batches, hbatches.trans (landed_grows _ log e), h⟩

/-! ## The store and the log -/

/-- What the store holds is what the log of calls accounts for. -/
structure Journaled (s : StreamStore) (log : StreamLog) : Prop where
  stream : ∀ id, s.store.stream id = written (landed id log)
  numbered : ∀ id, Numbered 0 (written (landed id log))
  folds : ∀ id, written (landed id log) ≠ [] →
    ∃ session, foldRecords (written (landed id log)) = .ok session ∧ session.instance_.id = id
  decided : ∀ id earlier batch later, landed id log = earlier ++ batch :: later →
    Decided log (written earlier) batch
  requested : ∀ version i, (version, i) ∈ s.requested → ∃ head, Recorded log ⟨i, version, head⟩
  snapshots : ∀ (id : CeremonyId) (versions : Map StreamVersion CeremonyInstance)
    (version : StreamVersion) (i : CeremonyInstance), s.store.snapshots[id]? = some versions →
    versions[version]? = some i → i.id = id ∧ ∃ head, Recorded log ⟨i, version, head⟩

namespace Journaled

variable {s t : StreamStore} {log : StreamLog} {i : CeremonyInstance}

theorem initial : Journaled ⟨EventStoreState.empty, []⟩ [] where
  stream _ := by simp [EventStoreState.stream, EventStoreState.empty, landed, written]
  numbered _ := trivial
  folds _ h := absurd rfl h
  decided _ _ _ _ h := by simp [landed] at h
  requested _ _ h := by simp at h
  snapshots _ _ _ _ h := by simp [EventStoreState.empty] at h

theorem save (h : Journaled s log) {version : StreamVersion}
    (hrecorded : ∃ head, Recorded log ⟨i, version, head⟩) :
    Journaled ⟨s.store.save version i, s.requested⟩ log where
  stream := h.stream
  numbered := h.numbered
  folds := h.folds
  decided := h.decided
  requested := h.requested
  snapshots := by
    intro id versions version' i' hvers hget
    by_cases hid : id = i.id
    · subst hid
      rw [EventStoreState.save, ExtTreeMap.getElem?_insert_self, Option.some.injEq] at hvers
      subst hvers
      by_cases hver : version' = version
      · subst hver
        rw [ExtTreeMap.getElem?_insert_self, Option.some.injEq] at hget
        subst hget
        exact ⟨rfl, hrecorded⟩
      · rw [Map.getElem?_insert_of_ne hver] at hget
        cases hold : s.store.snapshots[i.id]? with
        | none =>
          rw [hold] at hget
          simp at hget
        | some old =>
          rw [hold] at hget
          exact h.snapshots i.id old version' i' hold hget
    · rw [EventStoreState.save, Map.getElem?_insert_of_ne hid] at hvers
      exact h.snapshots id versions version' i' hvers hget

theorem writes (hwrites : StreamStore.Writes s t) (h : Journaled s log) : Journaled t log := by
  induction hwrites with
  | none => exact h
  | save requested _ ih => exact ih (h.save (h.requested _ _ requested))

theorem latest (h : Journaled s log) {id : CeremonyId} {version : StreamVersion}
    (hlatest : s.store.latest id = some (version, i)) :
    i.id = id ∧ ∃ head, Recorded log ⟨i, version, head⟩ := by
  obtain ⟨versions, hvers, hlast⟩ := Option.bind_eq_some_iff.mp hlatest
  have hmem := mem_of_getLast? hlast
  rw [ExtTreeMap.mem_toList_iff_getElem?_eq_some] at hmem
  exact h.snapshots id versions version i hvers hmem

theorem quiet (h : Journaled s log) {e : Event streamPorts StreamInput}
    (hquiet : ∀ id, landedEvent id e = none) : Journaled s (log ++ [e]) := by
  have hlanded : ∀ id, landed id (log ++ [e]) = landed id log := by
    intro id
    rw [landed_append, hquiet, Option.toList_none, append_nil]
  constructor
  case stream => simpa only [hlanded] using h.stream
  case numbered => simpa only [hlanded] using h.numbered
  case folds => simpa only [hlanded] using h.folds
  case decided =>
    intro id earlier batch later hsplit
    rw [hlanded] at hsplit
    exact growing_decided _ _ _ _ (h.decided id earlier batch later hsplit)
  case requested =>
    intro version i hmem
    obtain ⟨head, hrecorded⟩ := h.requested version i hmem
    exact ⟨head, growing_recorded _ _ _ hrecorded⟩
  case snapshots =>
    intro id versions version i hvers hget
    obtain ⟨hid, head, hrecorded⟩ := h.snapshots id versions version i hvers hget
    exact ⟨hid, head, growing_recorded _ _ _ hrecorded⟩

theorem request (h : Journaled s log) {version : StreamVersion} {head : Option EventId}
    (hrecorded : Recorded log ⟨i, version, head⟩) :
    Journaled ⟨s.store, s.requested ++ [(version, i)]⟩ log := by
  refine ⟨h.stream, h.numbered, h.folds, h.decided, ?_, h.snapshots⟩
  intro version' i' hmem
  rcases mem_append.mp hmem with hmem | hmem
  · exact h.requested version' i' hmem
  · cases mem_singleton.mp hmem
    exact ⟨head, hrecorded⟩

theorem version (h : Journaled s log) (id : CeremonyId) :
    versionOf (s.store.stream id) = (written (landed id log)).length := by
  rw [h.stream, (h.numbered id).versionOf]

end Journaled

/-! ## An append -/

theorem states_of_seals {sequence : AuditSequence} {facts : List AuditFact}
    (h : SealsAll sequence facts records) : States records facts := by
  refine ⟨h.eventIds, ?_⟩
  induction h with
  | nil => rfl
  | cons seals _ ih => rw [map_cons, map_cons, seals.event, ih]

namespace Journaled

variable {s : StreamStore} {log : StreamLog}

/-- A batch that was decided against the fold of its stream, and folds on to a session. -/
theorem append (h : Journaled s log) {id : CeremonyId} {expected version : StreamVersion}
    {facts : List AuditFact} {store' : EventStoreState} {e : Event streamPorts StreamInput}
    {n : Nat} {session : LoadedSession}
    (happends : EventStoreState.Appends s.store id expected facts version records store')
    (hev : ∀ other, landedEvent other e = if id = other then some ⟨n, records⟩ else none)
    (hdecided : Decided log (written (landed id log)) ⟨n, records⟩)
    (hfold : foldRecords (written (landed id log) ++ records) = .ok session)
    (hid : session.instance_.id = id) :
    Journaled ⟨store', s.requested⟩ (log ++ [e]) ∧ Recorded (log ++ [e]) session := by
  have hlanded : ∀ other, landed other (log ++ [e]) =
      landed other log ++ if id = other then [⟨n, records⟩] else [] := by
    intro other
    rw [landed_append, hev]
    split <;> rfl
  have hself : written (landed id (log ++ [e])) = written (landed id log) ++ records := by
    rw [hlanded, if_pos rfl, written_append]
    simp [written]
  have ho : ∀ other, id ≠ other → landed other (log ++ [e]) = landed other log := by
    intro other hne
    rw [hlanded, if_neg hne, append_nil]
  refine ⟨?_, landed id (log ++ [e]), by rw [hid], by rw [hself, hfold]⟩
  constructor
  case stream =>
    intro other
    show store'.stream other = _
    rw [happends.store, EventStoreState.stream_extend, h.stream]
    by_cases hne : id = other
    · subst hne
      rw [if_pos rfl, hself]
    · rw [if_neg hne, ho other hne, append_nil]
  case numbered =>
    intro other
    by_cases hne : id = other
    · subst hne
      rw [hself, numbered_append, Nat.zero_add]
      have hseals := happends.seals
      rw [h.stream, (h.numbered id).nextSequence] at hseals
      exact ⟨h.numbered id, hseals.numbered⟩
    · rw [ho other hne]
      exact h.numbered other
  case folds =>
    intro other
    by_cases hne : id = other
    · subst hne
      intro _
      exact ⟨session, by rw [hself, hfold], hid⟩
    · rw [ho other hne]
      exact h.folds other
  case decided =>
    intro other earlier batch later hsplit
    by_cases hne : id = other
    · subst hne
      rw [hlanded, if_pos rfl] at hsplit
      -- Either the batch is the new one, or it stands in front of it.
      rcases eq_nil_or_concat later with rfl | ⟨later, last, rfl⟩
      · obtain ⟨hearlier, hbatch⟩ := append_inj' hsplit rfl
        cases hbatch
        rw [← hearlier]
        exact growing_decided _ _ _ _ hdecided
      · rw [concat_eq_append, ← cons_append, ← append_assoc] at hsplit
        obtain ⟨hold, -⟩ := append_inj' hsplit rfl
        exact growing_decided _ _ _ _ (h.decided id earlier batch later hold)
    · rw [ho other hne] at hsplit
      exact growing_decided _ _ _ _ (h.decided other earlier batch later hsplit)
  case requested =>
    intro version i hmem
    obtain ⟨head, hrecorded⟩ := h.requested version i hmem
    exact ⟨head, growing_recorded _ _ _ hrecorded⟩
  case snapshots =>
    intro other versions version i hvers hget
    rw [happends.store] at hvers
    obtain ⟨hid, head, hrecorded⟩ := h.snapshots other versions version i hvers hget
    exact ⟨hid, head, growing_recorded _ _ _ hrecorded⟩

end Journaled

/-! ## Rules for programs -/

/-- A writer works on a stream of its own ceremony, from a session some stream stood for. -/
def Admissible (log : StreamLog) : StreamInput → Prop
  | .load _ => True
  | .open_ _ _ _ _ => True
  | .commit session facts _ => Recorded log session ∧
      ∀ fact ∈ facts, fact.ceremonyId = session.instance_.id
  | .execute session _ decide_ _ => Recorded log session ∧
      ∀ session facts, decide_ session = .ok facts →
        ∀ fact ∈ facts, fact.ceremonyId = session.instance_.id

def discipline (enc : RecordEncoding) : Discipline streamPorts StreamStore StreamInput where
  performs := StreamStore.Performs enc
  ok w input := Admissible w.log input
  inv w := Journaled w.state w.log

section Rules

variable {enc : RecordEncoding} {n : Nat} {β : Type} {P : StreamLog → Prop} {c : StreamCall}

/-- A call, after whatever writes of snapshots came through before it. -/
theorem call_establishes {f : c.Reply → StreamProg β} {Q : c.Reply → StreamLog → Prop}
    {R : Result β → StreamLog → Prop} (growing : Growing P)
    (step : ∀ s log reply t, Journaled s log → P log → StreamStore.Answers enc s c reply t →
      Journaled t (log ++ [.called n c reply]) ∧ Q reply (log ++ [.called n c reply]))
    (growing' : ∀ reply, Growing (Q reply))
    (hf : ∀ reply, (discipline enc).Establishes n (Q reply) (f reply) R) :
    (discipline enc).Establishes n P (StreamProg.ask c >>= f) R := by
  have hask : (discipline enc).Triple n (fun w => P w.log) (Prog.ask (I := streamPorts) c)
      fun reply w => Q reply w.log := by
    refine Triple.ask (growing.lasting n).stable ?_ fun reply => ((growing' reply).lasting n).stable
    rintro w hinv hw reply state ⟨s, hwrites, hans⟩
    exact step s w.log reply state (hinv.writes hwrites) hw hans
  show (discipline enc).Triple n _ (Prog.ask (I := streamPorts) c >>= fun reply => (f reply).run) _
  exact Triple.bind hask hf

/-- Calls that neither append nor hand over a snapshot. -/
def Looks : StreamCall → Prop
  | .append _ _ _ _ => False
  | .save _ _ => False
  | _ => True

theorem Looks.quiet (h : Looks c) (reply : c.Reply) (id : CeremonyId) :
    landedEvent id (.called n c reply) = none := by
  cases c with
  | append => exact h.elim
  | save | latest | head | read | authorize | observe => rfl

theorem Looks.state (h : Looks c) {s t : StreamStore} {reply : c.Reply}
    (hans : StreamStore.Answers enc s c reply t) : t = s := by
  cases hans with
  | append | save => exact h.elim
  | latest | head | read | authorize | observe => rfl

theorem look_establishes {f : c.Reply → StreamProg β} {Q : c.Reply → StreamLog → Prop}
    {R : Result β → StreamLog → Prop} (looks : Looks c) (growing : Growing P)
    (step : ∀ s log reply, Journaled s log → P log → StreamStore.Answers enc s c reply s →
      Q reply log) (growing' : ∀ reply, Growing (Q reply))
    (hf : ∀ reply, (discipline enc).Establishes n (Q reply) (f reply) R) :
    (discipline enc).Establishes n P (StreamProg.ask c >>= f) R := by
  refine call_establishes growing ?_ growing' hf
  intro s log reply t hinv hP hans
  obtain rfl := looks.state hans
  exact ⟨hinv.quiet (looks.quiet reply), growing' reply _ _ (step t log reply hinv hP hans)⟩

end Rules

/-! ## Loading -/

section Loading

variable {enc : RecordEncoding} {n : Nat} {id : CeremonyId} {batches : List Batch}
  {base : List Batch} {log : StreamLog} {snapshot : Option (StreamVersion × CeremonyInstance)}

theorem pageLimit_eq_ok (remaining : Nat) (h : 0 < remaining) :
    ∃ limit, pageLimit remaining = .ok limit ∧ limit.val ≤ remaining := by
  have hbounds : 1 ≤ min remaining defaultPageLimit ∧ min remaining defaultPageLimit ≤ 1000 := by
    unfold defaultPageLimit
    omega
  exact ⟨⟨_, hbounds.1, hbounds.2⟩, dif_pos hbounds, Nat.min_le_left _ _⟩

variable {s : StreamStore}

/-- A page in front of the captured head is the same whatever was appended since. -/
theorem Journaled.read (h : Journaled s log) (hcut : batches <+: landed id log)
    {from_ limit : Nat} (hlimit : from_ + limit ≤ (written batches).length) :
    s.store.read id from_ limit = ((written batches).drop from_).take limit := by
  obtain ⟨more, hmore⟩ := hcut.flatMap (·.records)
  have hstr : s.store.stream id = written batches ++ more := by
    rw [h.stream]
    exact hmore.symm
  rw [EventStoreState.read, hstr, drop_append_of_le_length (by omega),
    take_append_of_le_length (by rw [length_drop]; omega)]

theorem Journaled.prefix_numbered (h : Journaled s log)
    (hcut : batches <+: landed id log) : Numbered 0 (written batches) := by
  obtain ⟨more, hmore⟩ := hcut.flatMap (·.records)
  have hall := h.numbered id
  rw [show written (landed id log) = written batches ++ more from hmore.symm] at hall
  exact (numbered_append.mp hall).1

theorem Journaled.head_ne (h : Journaled s log) (hcut : batches <+: landed id log)
    (hne : 0 < (written batches).length) : s.store.head id ≠ 0 := by
  have hle : (written batches).length ≤ (written (landed id log)).length :=
    (hcut.flatMap (·.records)).length_le
  rw [EventStoreState.head, h.version]
  exact Nat.ne_of_gt (Nat.lt_of_lt_of_le hne hle)

theorem readPage_establishes {from_ : Nat} {limit : CeremonyEventPageLimit}
    (hlimit : from_ + limit.val ≤ (written batches).length) (hnum : Numbered 0 (written batches)) :
    (discipline enc).Establishes n (fun log => batches <+: landed id log) (readPage id from_ limit)
      fun r log => r = .ok ⟨((written batches).drop from_).take limit.val, from_ + limit.val⟩ ∧
        batches <+: landed id log := by
  have hcut := growing_landed id batches
  have hpos : 0 < limit.val := limit.pos
  refine look_establishes trivial hcut (Q := fun records log =>
    records = ((written batches).drop from_).take limit.val ∧ batches <+: landed id log) ?_
    (fun _ => (Growing.const _).and hcut) fun records => .assuming fun hrecs => ?_
  · intro s log records hinv hlog hans
    cases hans
    exact ⟨hinv.read hlog hlimit, hlog⟩
  refine look_establishes trivial hcut
    (Q := fun head log => head ≠ 0 ∧ batches <+: landed id log) ?_
    (fun _ => (Growing.const _).and hcut) fun head => .assuming fun hhead => ?_
  · intro s log head hinv hlog hans
    cases hans
    exact ⟨hinv.head_ne hlog (by omega), hlog⟩
  refine .check (hcut.lasting n) (fun _ _ => ?_) fun e he => ?_
  · refine .pure (hcut.lasting n) fun _ _ hlog => ⟨?_, hlog⟩
    have hlen : records.length = limit.val := by
      rw [hrecs, length_take, length_drop]
      omega
    -- The last record of the page stands right before where the next page starts.
    have hpage : Numbered from_ records := by
      have hsplit := hnum
      rw [← take_append_drop from_ (written batches), numbered_append] at hsplit
      have hdrop := hsplit.2
      rw [length_take, Nat.zero_add, Nat.min_eq_left (by omega),
        ← take_append_drop limit.val (drop from_ (written batches)),
        numbered_append] at hdrop
      rw [hrecs]
      exact hdrop.1
    have hne : records ≠ [] := by
      rintro rfl
      rw [length_nil] at hlen
      omega
    obtain ⟨last, hlast⟩ := Option.isSome_iff_exists.mp (getLast?_isSome.mpr hne)
    have hnext := hpage.last
    rw [hlast, hlen] at hnext
    rw [hlast, ← hrecs]
    exact congrArg (fun v => Except.ok (CeremonyEventPage.mk records v)) hnext
  · rw [require, if_pos hhead] at he
    cases he

/-- Every turn reads on, and the last one reaches the captured head. -/
theorem readThrough_establishes (hnum : Numbered 0 (written batches)) (turns : Nat) (from_ : Nat)
    (records : List AuditRecord) (hturns : (written batches).length - from_ ≤ turns) :
    (discipline enc).Establishes n (fun log => batches <+: landed id log)
      (readThrough id (written batches).length turns from_ records)
      fun r log => r = .ok (records ++ (written batches).drop from_) ∧
        batches <+: landed id log := by
  have hcut := growing_landed id batches
  induction turns generalizing from_ records with
  | zero =>
    refine .pure (hcut.lasting n) fun _ _ hlog => ⟨?_, hlog⟩
    rw [drop_eq_nil_of_le (by omega), append_nil]
  | succ turns ih =>
    rw [readThrough]
    by_cases hlt : from_ < (written batches).length
    · rw [if_pos hlt]
      obtain ⟨limit, hpage, hle⟩ :=
        pageLimit_eq_ok ((written batches).length - from_) (by omega)
      have hpos : 0 < limit.val := limit.pos
      refine .check (hcut.lasting n) (fun limit' hlimit' => ?_) fun e he => by
        rw [hpage] at he
        cases he
      rw [hpage] at hlimit'
      cases hlimit'
      refine .bind (readPage_establishes (by omega) hnum)
        (fun _ => ((Growing.const _).and hcut).lasting n)
        (fun page => .assuming fun hok => ?_) fun e log h => by cases h.1
      cases hok
      have hlen : (((written batches).drop from_).take limit.val).length = limit.val := by
        rw [length_take, length_drop]
        omega
      refine .check (hcut.lasting n) (fun _ _ => ?_) fun e he => ?_
      · refine (ih (from_ + limit.val) _ (by omega)).conseq (fun _ h => h) fun r log hr => ?_
        rwa [append_assoc, ← drop_drop, take_append_drop] at hr
      · rw [require, if_pos] at he
        · cases he
        · refine ⟨fun hnil => ?_, Nat.lt_add_of_pos_right hpos⟩
          rw [show take _ _ = [] from hnil, length_nil] at hlen
          omega
    · rw [if_neg hlt]
      refine .pure (hcut.lasting n) fun _ _ hlog => ⟨?_, hlog⟩
      rw [drop_eq_nil_of_le (by omega), append_nil]

/-- What a load captures with the head: the batches that have landed, and what it needs to know of
them to go on from the snapshot it found. -/
structure Cut (id : CeremonyId) (base : List Batch)
    (snapshot : Option (StreamVersion × CeremonyInstance)) (batches : List Batch) : Prop where
  base : base <+: batches
  numbered : Numbered 0 (written batches)
  folds : written batches ≠ [] →
    ∃ session, foldRecords (written batches) = .ok session ∧ session.instance_.id = id
  snapshot : ∀ version i, snapshot = some (version, i) → ∃ before head,
    before <+: written batches ∧ foldRecords before = .ok ⟨i, version, head⟩

/-- The answer of a load that found `base`: the fold of all batches up to one moment since. -/
def Loads (id : CeremonyId) (base : List Batch) (r : Result LoadedSession) (log : StreamLog) :
    Prop :=
  ∃ batches, base <+: batches ∧ batches <+: landed id log ∧ r = foldRecords (written batches) ∧
    (written batches ≠ [] → ∃ session, r = .ok session ∧ session.instance_.id = id)

theorem growing_loads (id : CeremonyId) (base : List Batch) (r : Result LoadedSession) :
    Growing (Loads id base r) :=
  fun log e ⟨batches, hbase, hbatches, h⟩ =>
    ⟨batches, hbase, hbatches.trans (landed_grows id log e), h⟩

theorem Loads.recorded {session : LoadedSession} (h : Loads id base (.ok session) log) :
    Recorded log session ∧ session.instance_.id = id := by
  obtain ⟨batches, -, hbatches, hfold, hid⟩ := h
  have hne : written batches ≠ [] := by
    intro hnil
    rw [hnil] at hfold
    cases hfold
  obtain ⟨session', hsess, hself⟩ := hid hne
  cases hsess
  exact ⟨⟨batches, by rw [hself]; exact hbatches, hfold.symm⟩, hself⟩

theorem Cut.resume (h : Cut id base snapshot batches) :
    SessionStream.resume (fromSnapshot snapshot)
      ((written batches).drop ((fromSnapshot snapshot).version - 1)) =
      foldRecords (written batches) := by
  cases snapshot with
  | none => exact resume_start h.numbered
  | some snapshot =>
    obtain ⟨version, i⟩ := snapshot
    obtain ⟨before, head, hpre, hfold⟩ := h.snapshot version i rfl
    exact resume_snapshot h.numbered hpre hfold

theorem Journaled.cut (h : Journaled s log) (hbase : base <+: landed id log)
    (hsnapshot : ∀ version i, snapshot = some (version, i) →
      i.id = id ∧ ∃ head, Recorded log ⟨i, version, head⟩) :
    Cut id base snapshot (landed id log) where
  base := hbase
  numbered := h.numbered id
  folds := h.folds id
  snapshot := by
    intro version i hsome
    obtain ⟨hid, head, batches, hbatches, hfold⟩ := hsnapshot version i hsome
    rw [show (LoadedSession.mk i version head).instance_.id = id from hid] at hbatches
    exact ⟨written batches, head, hbatches.flatMap (·.records), hfold⟩

theorem load_establishes (base : List Batch) :
    (discipline enc).Establishes n (fun log => base <+: landed id log) (load id)
      (Loads id base) := by
  have hbase := growing_landed id base
  let Found (snapshot : Option (StreamVersion × CeremonyInstance)) (log : StreamLog) : Prop :=
    ∀ version i, snapshot = some (version, i) → i.id = id ∧ ∃ head, Recorded log ⟨i, version, head⟩
  have hf : ∀ snapshot, Growing (Found snapshot) := by
    intro snapshot log e h version i hsome
    obtain ⟨hid, head, hrecorded⟩ := h version i hsome
    exact ⟨hid, head, growing_recorded _ _ _ hrecorded⟩
  refine look_establishes trivial hbase
    (Q := fun snapshot log => base <+: landed id log ∧ Found snapshot log)
    ?_ (fun snapshot => hbase.and (hf snapshot)) fun snapshot => ?_
  · intro s log snapshot hinv hlog hans
    cases hans
    exact ⟨hlog, fun version i hsome => hinv.latest hsome⟩
  -- The head says which batches this load answers for; later ones are not read.
  let Captured (through : StreamVersion) (log : StreamLog) : Prop :=
    ∃ batches, (Cut id base snapshot batches ∧ through = (written batches).length) ∧
      batches <+: landed id log
  have hcaptured : ∀ through, Growing (Captured through) :=
    fun through log e ⟨batches, hcut, h⟩ => ⟨batches, hcut, growing_landed id batches log e h⟩
  have hrecs : (discipline enc).Establishes n
      (fun log => base <+: landed id log ∧ Found snapshot log)
      (executeFrom id ((fromSnapshot snapshot).version - 1)) fun r log =>
      ∃ batches, (Cut id base snapshot batches ∧
        (r = .ok ((written batches).drop ((fromSnapshot snapshot).version - 1)) ∨
          written batches = [] ∧ r = refuse (.notFound "ceremony_instance"))) ∧
        batches <+: landed id log := by
    refine look_establishes trivial (hbase.and (hf snapshot)) (Q := Captured) ?_ hcaptured
      fun through => ?_
    · intro s log through hinv hlog hans
      cases hans
      exact ⟨landed id log, ⟨hinv.cut hlog.1 hlog.2, hinv.version id⟩, prefix_rfl⟩
    refine .exists fun batches => .assuming fun hcut => ?_
    obtain ⟨hcut, rfl⟩ := hcut
    refine .check ((growing_landed id batches).lasting n) (fun _ _ => ?_) fun e he w _ hlog =>
      ⟨batches, ⟨hcut, ?_⟩, hlog⟩
    · refine (readThrough_establishes hcut.numbered _ _ [] (Nat.le_refl _)).conseq
        (fun _ h => h) fun r log hr => ⟨batches, ⟨hcut, .inl hr.1⟩, hr.2⟩
    · rw [require] at he
      split at he
      · cases he
      · rename_i hempty
        refine .inr ⟨eq_nil_of_length_eq_zero (not_not.mp hempty), ?_⟩
        cases he
        rfl
  refine .bind hrecs (fun e => ?_) (fun records => ?_) ?_
  · exact ((Growing.exists_ fun batches => (Growing.const _).and
      (growing_landed id batches)).lasting n)
  · refine .exists fun batches => .assuming fun hcut => ?_
    obtain ⟨hcut, hread | ⟨-, hread⟩⟩ := hcut
    · cases hread
      refine Triple.pure ((growing_landed id batches).lasting n).stable fun w _ hlog =>
        ⟨batches, hcut.base, hlog, hcut.resume, fun hne => ?_⟩
      rw [hcut.resume]
      exact hcut.folds hne
    · cases hread
  · rintro e log ⟨batches, ⟨hcut, hread | ⟨hnil, hread⟩⟩, hlog⟩
    · cases hread
    · cases hread
      exact ⟨batches, hcut.base, hlog, by rw [hnil]; rfl, fun hne => absurd hnil hne⟩

end Loading

/-! ## Appending -/

section Appending

variable {enc : RecordEncoding} {n : Nat} {id : CeremonyId} {input : StreamInput}
  {i : CeremonyInstance} {facts : List AuditFact} {session : LoadedSession} {trace : String}
  {head : Option EventId} {dressed : List AuditFact}
  {decide_ : LoadedSession → Result (List AuditFact)} {opening : List CeremonyEvent}
  {actor : AuditActor} {occurredAt : OffsetDateTime}

/-- Admitting and dressing facts change none of what their events say. -/
theorem map_admitted {α : Type} (f : AuditFact → α) (hf : ∀ evidence fact,
    f (admitFact evidence fact) = f fact) (evidence : Option AuthorizationEvidence)
    (facts : List AuditFact) : (admitted evidence facts).map f = facts.map f := by
  cases evidence with
  | none => rfl
  | some evidence =>
    rw [admitted, map_map]
    exact map_congr_left fun fact _ => hf evidence fact

theorem map_dress {α : Type} (f : AuditFact → α) (hf : ∀ (fact : AuditFact) a b c,
    f { fact with correlationId := a, causationId := b, traceId := c } = f fact)
    (correlation : EventId) (trace : String) (causation : Option EventId) (facts : List AuditFact) :
    (dress correlation trace causation facts).map f = facts.map f := by
  induction facts generalizing causation with
  | nil => rfl
  | cons fact facts ih => rw [dress, map_cons, map_cons, hf, ih]

/-- On top of a stream of the expected length the facts are what the input decided, and fold to the
instance. -/
def Fits (input : StreamInput) (past : List AuditRecord) (version : StreamVersion)
    (facts : List AuditFact) (i : CeremonyInstance) (head : Option EventId) : Prop :=
  ∀ evidence records, SealsAll (version + 1) (admitted evidence facts) records →
    Decides past records input ∧ ∃ session, foldRecords (past ++ records) = .ok session ∧
      session.instance_ = i ∧ session.head = head

def Landed (i : CeremonyInstance) (head : Option EventId) (r : Result AppendOutcome)
    (log : StreamLog) : Prop :=
  ∀ version records firstPosition, r = .ok (.appended version records firstPosition) →
    Recorded log ⟨i, version, head⟩

theorem growing_of_landed (i : CeremonyInstance) (head : Option EventId)
    (r : Result AppendOutcome) : Growing (Landed i head r) :=
  fun log e h version records firstPosition hr =>
    growing_recorded _ log e (h version records firstPosition hr)

theorem append_establishes {P : StreamLog → Prop} {version : StreamVersion} (growing : Growing P)
    (hstarted : ∀ log, P log → .started n input ∈ log) (hfits : ∀ s log, Journaled s log → P log →
      (written (landed i.id log)).length = version → facts ≠ [] →
      (∀ fact ∈ facts, fact.ceremonyId = i.id) →
      Fits input (written (landed i.id log)) version facts i head) :
    (discipline enc).Establishes n P (append i.id version facts) (Landed i head) := by
  refine look_establishes trivial growing (Q := fun _ => P) (fun _ _ _ _ hP _ => hP)
    (fun _ => growing)
    fun authorization => ?_
  refine .check (growing.lasting n) (fun evidence _ => ?_) fun e _ _ _ _ _ _ _ h => by cases h
  refine call_establishes growing (Q := Landed i head) ?_ (growing_of_landed i head)
    fun outcome => ?_
  case refine_2 =>
    exact Triple.pure ((growing_of_landed i head outcome).lasting n).stable fun _ _ h => h
  intro s log reply t hinv hP hans
  cases hans
  cases hrep : s.store.append enc i.id version (admitted evidence facts) evidence with
  | mk reply store' =>
  dsimp only
  by_cases happended : ∃ version' records firstPosition,
      reply = .ok (.appended version' records firstPosition)
  · obtain ⟨version', records, firstPosition, rfl⟩ := happended
    have happends := EventStoreState.append_eq_appended hrep
    have hlen : (written (landed i.id log)).length = version := by
      rw [← hinv.version, happends.expected]
    have hceremonies : ∀ fact ∈ facts, fact.ceremonyId = i.id := by
      have hall := happends.ceremony
      rw [← forall_mem_map (f := AuditFact.ceremonyId) (P := (· = i.id)),
        map_admitted _ fun _ _ => rfl, forall_mem_map] at hall
      exact hall
    have hne : facts ≠ [] := by
      rintro rfl
      refine happends.facts_ne ?_
      cases evidence <;> rfl
    have hseals := happends.seals
    rw [hinv.stream, (hinv.numbered i.id).nextSequence, hlen] at hseals
    obtain ⟨hdecides, session, hfold, rfl, rfl⟩ :=
      hfits s log hinv hP hlen hne hceremonies evidence records hseals
    have hnum : Numbered 0 (written (landed session.instance_.id log) ++ records) :=
      numbered_append.mpr ⟨hinv.numbered _, by
        rw [Nat.zero_add, hlen]
        exact hseals.numbered⟩
    have hver : version' = session.version := by
      rw [happends.version, hinv.stream, hnum.versionOf, version_of_foldRecords hnum hfold]
    obtain ⟨hinv', hrecorded⟩ := hinv.append happends
      (e := .called n (.append session.instance_.id version (admitted evidence facts) evidence)
        (.ok (.appended version' records firstPosition)))
      (fun _ => rfl) ⟨input, hstarted log hP, hdecides⟩ hfold rfl
    refine ⟨hinv', ?_⟩
    intro _ _ _ heq
    cases heq
    subst hver
    exact hrecorded
  · have hstore : (s.store.append enc i.id version (admitted evidence facts) evidence).2 =
        s.store := by
      refine EventStoreState.append_fst_ne_appended fun version' records firstPosition heq =>
        happended ?_
      rw [hrep] at heq
      exact ⟨version', records, firstPosition, heq⟩
    rw [hrep] at hstore
    rw [show store' = s.store from hstore]
    refine ⟨hinv.quiet fun other => ?_, fun _ _ _ heq => (happended ⟨_, _, _, heq⟩).elim⟩
    show landedCall other n (.append i.id version (admitted evidence facts) evidence) reply = none
    cases reply with
    | error => rfl
    | ok outcome =>
      cases outcome with
      | conflict => rfl
      | appended => exact (happended ⟨_, _, _, rfl⟩).elim

/-- The session that a call returned is one of its stream. -/
def Returns (r : Result LoadedSession) (log : StreamLog) : Prop :=
  ∀ session, r = .ok session → Recorded log session

theorem returns_error (e : Fault DomainError) (log : StreamLog) : Returns (.error e) log := by
  intro session h
  cases h

theorem growing_returns (r : Result LoadedSession) : Growing (Returns r) :=
  fun log e h session hr => growing_recorded session log e (h session hr)

theorem afterAppend_establishes (refused : DomainError) (outcome : AppendOutcome) :
    (discipline enc).Establishes n (Landed i head (.ok outcome))
      (afterAppend i head refused outcome)
      Returns := by
  cases outcome with
  | conflict expected actual =>
    exact Triple.pure ((growing_of_landed i head _).lasting n).stable fun w _ _ =>
      returns_error _ w.log
  | appended version records firstPosition =>
    have hrecorded := growing_recorded ⟨i, version, head⟩
    have hpre : ∀ log, Landed i head (.ok (.appended version records firstPosition)) log →
        Recorded log ⟨i, version, head⟩ := fun log h => h _ _ _ rfl
    refine Establishes.strengthen ?_ hpre
    refine call_establishes hrecorded (Q := fun _ log => Recorded log ⟨i, version, head⟩) ?_
      (fun _ => hrecorded) fun _ => ?_
    · intro s log reply t hinv hlog hans
      cases hans
      exact ⟨(hinv.request hlog).quiet fun _ => rfl, hrecorded log _ hlog⟩
    refine look_establishes trivial hrecorded (Q := fun _ log => Recorded log ⟨i, version, head⟩)
      (fun _ _ _ _ hlog _ => hlog) (fun _ => hrecorded) fun _ => ?_
    refine .pure (hrecorded.lasting n) fun _ _ hlog => ?_
    intro session hsess
    cases hsess
    exact hlog

theorem fits_commit {past : List AuditRecord}
    (hdecides : ∀ records, States records facts → Decides past records input)
    (hpast : foldRecords past = .ok session)
    (hfacts : committedFacts session facts trace = .ok (i, dressed)) :
    Fits input past session.version dressed i
      ((facts.getLast?.map (·.eventId)).or session.head) := by
  intro evidence records hseals
  simp only [committedFacts, bind_eq_ok, pure_eq_ok, Prod.mk.injEq] at hfacts
  obtain ⟨correlation, -, t, happ, rfl, rfl⟩ := hfacts
  have hevs : ((admitted evidence (dress correlation trace session.head facts)).map (·.event)) =
      facts.map (·.event) := by
    rw [map_admitted _ fun _ _ => rfl, map_dress _ fun _ _ _ _ => rfl]
  have hstates : States records facts := (states_of_seals hseals).of_maps
    (by rw [map_admitted _ fun _ _ => rfl, map_dress _ fun _ _ _ _ => rfl]) hevs
  rw [← hevs] at happ
  obtain ⟨head, hfold⟩ := fold_of_seals hseals session.head happ
  refine ⟨hdecides records hstates, ⟨t, session.version + records.length, head⟩, ?_, rfl, ?_⟩
  · rw [foldRecords_append hpast, show stateOf session = ⟨some session.instance_, session.version,
      session.head⟩ from rfl, hfold]
    rfl
  · rw [show head = _ from head_of_fold hfold, ← getLast?_map, hstates.eventIds, getLast?_map]

theorem commit_establishes (trace : String)
    (hown : ∀ fact ∈ facts, fact.ceremonyId = session.instance_.id)
    (hdecides : ∀ past records, foldRecords past = .ok session → States records facts →
      Decides past records input) :
    (discipline enc).Establishes n (fun log => .started n input ∈ log ∧ Recorded log session)
      (commit session facts trace) Returns := by
  have hgrows := (growing_started n input).and (growing_recorded session)
  refine .check (hgrows.lasting n) (fun pair hpair => ?_) fun e _ w _ _ => returns_error e w.log
  obtain ⟨i, dressed⟩ := pair
  refine .bind (append_establishes hgrows (fun _ h => h.1) ?_)
    (fun _ => (growing_of_landed _ _ _).lasting n) (afterAppend_establishes _)
    fun e log _ => returns_error e log
  rintro s log hinv ⟨-, batches, hbatches, hfold⟩ hlen hne hceremonies
  -- The facts are of the session's own stream, so that is the one they were appended to.
  have hid : i.id = session.instance_.id := by
    simp only [committedFacts, bind_eq_ok, pure_eq_ok, Prod.mk.injEq] at hpair
    obtain ⟨correlation, -, t, -, rfl, rfl⟩ := hpair
    obtain ⟨fact, hfact⟩ := exists_mem_of_ne_nil _ hne
    have hmem : fact.ceremonyId ∈ facts.map (·.ceremonyId) := by
      rw [← map_dress (·.ceremonyId) (fun _ _ _ _ => rfl) correlation trace session.head]
      exact mem_map_of_mem hfact
    obtain ⟨given, hgiven, heq⟩ := mem_map.mp hmem
    rw [← hceremonies fact hfact, ← heq, hown given hgiven]
  rw [hid] at hlen ⊢
  have hcut : written batches <+: written (landed session.instance_.id log) :=
    hbatches.flatMap (·.records)
  have hnum := hinv.prefix_numbered hbatches
  have hsame : written batches = written (landed session.instance_.id log) := by
    refine hcut.eq_of_length ?_
    rw [hlen, version_of_foldRecords hnum hfold]
  rw [← hsame]
  exact fits_commit (fun records => hdecides _ records hfold) hfold hpair

theorem attempt_establishes {onConflict : String → StreamProg LoadedSession}
    (hown : ∀ facts, decide_ session = .ok facts →
      ∀ fact ∈ facts, fact.ceremonyId = session.instance_.id)
    (hdecides : ∀ past records facts, foldRecords past = .ok session →
      decide_ session = .ok facts → States records facts → Decides past records input)
    (hconflict : ∀ resource, (discipline enc).Establishes n (fun log => .started n input ∈ log)
      (onConflict resource) Returns) :
    (discipline enc).Establishes n (fun log => .started n input ∈ log ∧ Recorded log session)
      (attempt decide_ trace session onConflict) Returns := by
  have hgrows := (growing_started n input).and (growing_recorded session)
  refine .check (hgrows.lasting n) (fun facts hfacts => ?_) fun e _ w _ _ => returns_error e w.log
  split
  · refine .pure (hgrows.lasting n) fun _ _ hlog => ?_
    intro session' hsess
    cases hsess
    exact hlog.2
  -- The start is still in the log when a commit has failed.
  have hcommit : (discipline enc).Establishes n
      (fun log => .started n input ∈ log ∧ Recorded log session)
      (commit session facts trace) Returns :=
    commit_establishes trace (hown facts hfacts) fun past records hpast =>
      hdecides past records facts hpast hfacts
  refine Triple.bind ((hcommit.frame (growing_started n input)).strengthen fun _ h => ⟨h, h.1⟩)
    fun outcome => ?_
  have hlog : Growing fun log => Returns outcome log ∧ .started n input ∈ log :=
    (growing_returns outcome).and (growing_started _ _)
  split
  · exact Triple.conseq (hconflict _) (fun _ _ h => h.2) fun _ _ _ h => h
  · exact Triple.pure (hlog.lasting n).stable fun _ _ h => h.1

theorem execute_establishes (hown : ∀ session facts, decide_ session = .ok facts →
      ∀ fact ∈ facts, fact.ceremonyId = session.instance_.id)
    (hdecides : ∀ past records session facts, foldRecords past = .ok session →
      decide_ session = .ok facts → States records facts → Decides past records input)
    (attempts : Nat) (session : LoadedSession) :
    (discipline enc).Establishes n (fun log => .started n input ∈ log ∧ Recorded log session)
      (execute decide_ trace id attempts session) Returns := by
  have hlast : ∀ session, (discipline enc).Establishes n
      (fun log => .started n input ∈ log ∧ Recorded log session)
      (attempt decide_ trace session fun resource => .check (refuse (.conflict resource)))
      Returns :=
    fun session => attempt_establishes (hown session)
      (fun past records facts => hdecides past records session facts)
      fun _ => Triple.pure ((growing_started _ _).lasting n).stable fun w _ _ =>
        returns_error _ w.log
  induction attempts generalizing session with
  | zero => exact hlast session
  | succ attempts ih =>
    cases attempts with
    | zero => exact hlast session
    | succ attempts =>
      refine attempt_establishes (hown session)
        (fun past records facts => hdecides past records session facts) fun _ => ?_
      -- The stream is loaded again, and the decision is made against what is there now.
      have hload : (discipline enc).Establishes n (fun log => [] <+: landed id log) (load id)
          (Loads id []) := load_establishes []
      refine .bind ((hload.frame (growing_started n input)).strengthen
        fun _ h => ⟨List.nil_prefix, h⟩)
        (fun _ => ((growing_loads _ _ _).and (growing_started _ _)).lasting n) (fun session => ?_)
        fun e log _ => returns_error e log
      exact (ih session).strengthen fun _ h => ⟨h.2, h.1.recorded.1⟩

/-! ## Opening -/

theorem fits_open (h : openingFacts opening actor occurredAt trace = .ok (i, dressed)) :
    Fits (.open_ opening actor occurredAt trace) [] 0 dressed i
      (dressed.getLast?.map (·.eventId)) := by
  intro evidence records hseals
  obtain ⟨started, rest, facts, correlation, rfl, hfacts, happ, rfl⟩ := openingFacts_eq_ok h
  have hstates : States records facts := (states_of_seals hseals).of_maps
    (by rw [map_admitted _ fun _ _ => rfl, map_dress _ fun _ _ _ _ => rfl])
    (by rw [map_admitted _ fun _ _ => rfl, map_dress _ fun _ _ _ _ => rfl])
  have hevs : (admitted evidence (dress correlation trace none facts)).map (·.event) =
      .ceremonyInstanceStarted started :: rest := by
    rw [map_admitted _ fun _ _ => rfl, map_dress _ fun _ _ _ _ => rfl, events_of_facts hfacts]
  have hids : (dress correlation trace none facts).map (·.eventId) = records.map (·.eventId) := by
    rw [hstates.eventIds, map_dress _ fun _ _ _ _ => rfl]
  -- Folding the start into the session it opens changes nothing.
  obtain ⟨j, hj, hrest⟩ := CeremonyInstance.applyAll_cons_eq_ok.mp happ
  cases hj
  generalize admitted evidence (dress correlation trace none facts) = admittedFacts at hseals hevs
  cases hseals with
  | nil => cases hevs
  | cons seals hseals =>
    rename_i first r more records
    obtain ⟨hfirst, hmore⟩ := cons.inj hevs
    rw [← hmore] at hrest
    obtain ⟨head, hfold⟩ := fold_of_seals hseals (some r.eventId) hrest
    have hopen : foldRecord start r =
        .ok ⟨some (CeremonyInstance.fromStarted started), 0 + 1, some r.eventId⟩ :=
      foldRecord_eq_ok.mpr ⟨_, _, seals.event.trans (congrArg some hfirst), rfl,
        by rw [seals.sequence]⟩
    have hsess : foldRecords (r :: records) = .ok ⟨i, 0 + 1 + records.length, head⟩ :=
      foldRecords_eq_ok.mpr (by rw [foldlM_cons, hopen, ok_bind, hfold]; rfl)
    refine ⟨⟨rfl, started, rest, facts, rfl, hfacts, hstates⟩, _, hsess, rfl, ?_⟩
    rw [head_of_foldRecords hsess, ← getLast?_map, ← getLast?_map, hids]

theorem open_establishes :
    (discipline enc).Establishes n
      (fun log => .started n (.open_ opening actor occurredAt trace) ∈ log)
      (open_ opening actor occurredAt trace) Returns := by
  have hgrows := growing_started n (.open_ opening actor occurredAt trace)
  refine .check (hgrows.lasting n) (fun pair hpair => ?_) fun e _ w _ _ => returns_error e w.log
  obtain ⟨i, dressed⟩ := pair
  refine .bind (append_establishes hgrows (fun _ h => h) ?_)
    (fun _ => (growing_of_landed _ _ _).lasting n) (afterAppend_establishes _)
    fun e log _ => returns_error e log
  intro s log _ _ hlen _ _
  rw [eq_nil_of_length_eq_zero hlen]
  exact fits_open hpair

end Appending

/-! ## Every interleaving -/

/-- What a thread that started in one world has answered by another. -/
def Answered (_ : Nat) (input : StreamInput) (before : StreamWorld) (r : Result LoadedSession)
    (after : StreamWorld) : Prop :=
  match input with
  | .load id => Loads id (landed id before.log) r after.log
  | _ => Returns r after.log

theorem streamWriters_verified (enc : RecordEncoding) :
    (streamWriters enc).Verified (discipline enc) Answered where
  performs_eq := rfl
  start_inv _ _ _ _ hinv _ := hinv.quiet fun _ => rfl
  code_safe := by
    intro w n input _ hinv hok hinv'
    have hstarted : Event.started n input ∈ (w.start n input).log :=
      mem_append_right _ (mem_singleton_self _)
    cases input with
    | load id =>
      exact load_establishes (landed id w.log) (w.start n (.load id)) hinv'
        (landed_grows id w.log _)
    | open_ opening actor occurredAt trace => exact open_establishes _ hinv' hstarted
    | commit session facts trace =>
      have hdecides : ∀ past records, foldRecords past = .ok session → States records facts →
          Decides past records (.commit session facts trace) :=
        fun _ _ hpast hstates => ⟨hpast, hstates⟩
      exact commit_establishes trace hok.2 hdecides _ hinv' ⟨hstarted, growing_recorded _ _ _ hok.1⟩
    | execute session attempts decide_ trace =>
      have hdecides : ∀ past records found facts, foldRecords past = .ok found →
          decide_ found = .ok facts → States records facts →
          Decides past records (.execute session attempts decide_ trace) :=
        fun _ _ found facts hpast hfacts hstates => ⟨found, facts, hpast, hfacts, hstates⟩
      exact execute_establishes hok.2 hdecides attempts session _ hinv'
        ⟨hstarted, growing_recorded _ _ _ hok.1⟩

end SessionStream

open SessionStream

/-- The session that records stand for, at the version and the id of the last of them. -/
inductive FoldOf (records : List AuditRecord) : Result LoadedSession → Prop where
  | absent (empty : records = []) : FoldOf records (refuse (.notFound "ceremony_instance"))
  | session {session : LoadedSession} {last : AuditRecord}
      (fold : foldRecords records = .ok session) (last_eq : records.getLast? = some last)
      (version : session.version = last.sequence) (head : session.head = some last.eventId) :
      FoldOf records (.ok session)

/-- What holds of every stream and of every answer in a configuration of writers. -/
structure StreamsFold (cfg : Config streamPorts StreamStore StreamInput (Result LoadedSession)) :
    Prop where
  /-- A stream is the batches that were appended to it. -/
  stream : ∀ id, cfg.world.state.store.stream id = written (landed id cfg.world.log)
  /-- Every batch was decided against the fold of the records before it. -/
  decided : ∀ id earlier batch later, landed id cfg.world.log = earlier ++ batch :: later →
    Decided cfg.world.log (written earlier) batch
  /-- A load answers the fold of a stream from its opening, as it was at a moment of the load. -/
  load : ∀ (n : Nat) (thread : Thread streamPorts StreamStore StreamInput (Result LoadedSession))
    (id : CeremonyId) (r : Result LoadedSession), cfg.threads[n]? = some thread →
    thread.input = .load id → thread.rest = some (.done r) →
    ∃ batches, landed id thread.before.log <+: batches ∧ batches <+: landed id cfg.world.log ∧
      FoldOf (written batches) r
  /-- A session that any call returned is one its stream stood for, as new calls ask for. -/
  returned : ∀ (n : Nat)
    (thread : Thread streamPorts StreamStore StreamInput (Result LoadedSession))
    (session : LoadedSession), cfg.threads[n]? = some thread →
    thread.rest = some (.done (.ok session)) → Recorded cfg.world.log session

namespace SessionStream

theorem foldOf_ok {records : List AuditRecord} (hnum : Numbered 0 records) {session : LoadedSession}
    (h : foldRecords records = .ok session) : FoldOf records (.ok session) := by
  have hne : records ≠ [] := by
    rintro rfl
    cases h
  obtain ⟨last, hlast⟩ := Option.isSome_iff_exists.mp (getLast?_isSome.mpr hne)
  have hver := hnum.last
  have hhead := head_of_foldRecords h
  rw [hlast] at hver hhead
  refine .session h hlast ?_ hhead
  rw [version_of_foldRecords hnum h, ← Nat.zero_add records.length]
  exact hver.symm

end SessionStream

/-- Any number of writers, from an empty store, with any of their snapshots written late, out of
order or never, and stopped at any call. -/
theorem session_streams_fold (enc : RecordEncoding)
    (cfg : Config streamPorts StreamStore StreamInput (Result LoadedSession))
    (run : (streamWriters enc).Steps (fun w input => Admissible w.log input)
      (.initial ⟨EventStoreState.empty, []⟩) cfg) : StreamsFold cfg := by
  have hsound := Pool.Steps.sound (streamWriters_verified enc) Journaled.initial run
  have hinv : Journaled cfg.world.state cfg.world.log := hsound.inv
  refine ⟨hinv.stream, hinv.decided, ?_, ?_⟩
  · intro n thread id r hthr hinput hrest
    have hpost := hsound.post hthr hrest
    rw [hinput] at hpost
    obtain ⟨batches, hbase, hcut, hfold, hok⟩ := hpost
    refine ⟨batches, hbase, hcut, ?_⟩
    by_cases hnil : written batches = []
    · rw [hfold, hnil]
      exact .absent rfl
    · obtain ⟨session, rfl, -⟩ := hok hnil
      exact foldOf_ok (hinv.prefix_numbered hcut) hfold.symm
  · intro n thread session hthr hrest
    have hpost := hsound.post hthr hrest
    cases hinput : thread.input with
    | load id =>
      rw [hinput] at hpost
      exact (Loads.recorded hpost).1
    | open_ | commit | execute =>
      rw [hinput] at hpost
      exact hpost session rfl

/-! ### A run -/

/-- What a schedule has the store do at a call: first write all snapshots asked for, or not. -/
def StreamStore.flush (s : StreamStore) : StreamStore :=
  s.requested.foldl (fun t request => ⟨t.store.save request.1 request.2, t.requested⟩) s

def StreamStore.perform (enc : RecordEncoding) (s : StreamStore) :
    (c : StreamCall) → c.Reply × StreamStore
  | .latest id => (s.store.latest id, s)
  | .save version i => (.ok (), ⟨s.store, s.requested ++ [(version, i)]⟩)
  | .head id => (s.store.head id, s)
  | .read id after limit => (s.store.read id after limit.val, s)
  | .authorize _ _ _ => (.ok none, s)
  | .append id expected facts authorization =>
    ((s.store.append enc id expected facts authorization).1,
      ⟨(s.store.append enc id expected facts authorization).2, s.requested⟩)
  | .observe _ _ _ => ((), s)

theorem StreamStore.writes_flush (s : StreamStore) : s.Writes s.flush := by
  have hsome : ∀ (requests : List (StreamVersion × CeremonyInstance)) (t : StreamStore),
      (∀ request ∈ requests, request ∈ t.requested) →
      t.Writes (requests.foldl (fun t request => ⟨t.store.save request.1 request.2, t.requested⟩)
        t) := by
    intro requests
    induction requests with
    | nil => exact fun t _ => .none t
    | cons request requests ih =>
      intro t hmem
      refine .save (hmem request (mem_cons_self ..)) (ih _ fun other ho => ?_)
      exact hmem other (mem_cons_of_mem _ ho)
  exact hsome s.requested s fun _ h => h

theorem StreamStore.perform_answers (enc : RecordEncoding) (s : StreamStore) (c : StreamCall) :
    StreamStore.Answers enc s c (s.perform enc c).1 (s.perform enc c).2 := by
  cases c with
  | latest => exact .latest s _
  | save => exact .save s _ _ _
  | head => exact .head s _
  | read => exact .read s _ _ _
  | authorize => exact .authorize s _ _ _ _
  | append => exact .append s _ _ _ _
  | observe => exact .observe s _ _ _

def StreamStore.answer (enc : RecordEncoding) (flush : Bool) (s : StreamStore) (c : StreamCall) :
    Option (c.Reply × StreamStore) :=
  some ((if flush then s.flush else s).perform enc c)

theorem StreamStore.answer_sound (enc : RecordEncoding) (flush : Bool) (s : StreamStore)
    (c : StreamCall) (reply : c.Reply) (t : StreamStore)
    (h : s.answer enc flush c = some (reply, t)) : s.Performs enc c reply t := by
  have hperform := Option.some.inj h
  have hans := StreamStore.perform_answers enc (if flush then s.flush else s) c
  rw [hperform] at hans
  refine ⟨_, ?_, hans⟩
  cases flush with
  | true => exact s.writes_flush
  | false => exact .none s

namespace SessionStream

/-- Whether a call starts from the session its stream stands for now. -/
def admits (w : StreamWorld) : StreamInput → Bool
  | .load _ => true
  | .open_ _ _ _ _ => true
  | .commit session facts _ =>
    (match foldRecords (written (landed session.instance_.id w.log)) with
      | .ok found => decide (found = session)
      | .error _ => false) && facts.all fun fact => fact.ceremonyId = session.instance_.id
  | .execute _ _ _ _ => false

theorem admissible_of_admits {w : StreamWorld} {input : StreamInput} (h : admits w input = true) :
    Admissible w.log input := by
  cases input with
  | load | open_ => trivial
  | execute => cases h
  | commit session facts trace =>
    rw [admits, Bool.and_eq_true] at h
    obtain ⟨hf, hfacts⟩ := h
    refine ⟨⟨_, prefix_rfl, ?_⟩, by simpa using hfacts⟩
    split at hf
    · rename_i found hfold
      rw [hfold, of_decide_eq_true hf]
    · cases hf

namespace Review

def encoding : RecordEncoding where
  timestamp := fun t => some (toString t.nanos)
  event := fun _ => some [0]
  evidence := fun _ => some [1]

def started : CeremonyInstanceStarted where
  ceremonyId := ⟨"review", .refl true⟩
  definitionName := ⟨"review", .refl true⟩
  definitionVersion := ⟨"1.0", .refl true⟩
  initialState := ⟨"OPEN", .refl true⟩
  stepIds := []
  context := .empty
  boundDefinition := none
  lineage := none
  succession := none
  budgetAccountId := none
  ceremonyDeadline := none
  stateDeadline := none
  createdAt := .afterEpoch 0

def operator : AuditActor := ⟨⟨"operator", .refl true⟩, .human, none⟩

def opened : LoadedSession :=
  ⟨CeremonyInstance.fromStarted started, 1,
    some ⟨"review:ceremony_instance_started:session", by decide⟩⟩

def pause : AuditFact where
  eventId := ⟨"review:pause", .refl true⟩
  event := .ceremonyPaused ⟨⟨"hold", .refl true⟩, .afterEpoch 1⟩
  ceremonyId := ⟨"review", .refl true⟩
  definitionName := ⟨"review", .refl true⟩
  definitionVersion := ⟨"1.0", .refl true⟩
  occurredAt := .afterEpoch 1
  actor := operator
  correlationId := none
  causationId := none
  traceId := none

/-- Two writers pause the same opening; one is late.  The snapshot of the opening comes through, the
one of the pause does not, and the stream is loaded from there. -/
def schedule : List (Action StreamInput Bool) :=
  [.start (.open_ [.ceremonyInstanceStarted started] operator (.afterEpoch 0) "trace"),
    .call 0 false, .call 0 false, .call 0 false, .call 0 false,
    .start (.commit opened [pause] "trace"), .start (.commit opened [pause] "trace"),
    .call 1 true, .call 1 false, .call 2 false, .call 2 false, .call 1 false, .crash 1,
    .start (.load ⟨"review", .refl true⟩),
    .call 3 false, .call 3 false, .call 3 false, .call 3 false]

def versions (cfg : Config streamPorts StreamStore StreamInput (Result LoadedSession)) :
    List (Option StreamVersion) :=
  cfg.threads.map fun thread =>
    match thread.rest with
    | some (.done (.ok session)) => some session.version
    | _ => none

end Review

end SessionStream

open SessionStream.Review in
/-- The late writer is refused, and the load finds the pause behind an older snapshot. -/
theorem review_loads_behind_snapshot :
    ∃ cfg, (streamWriters encoding).Steps (fun w input => Admissible w.log input)
      (.initial ⟨EventStoreState.empty, []⟩) cfg ∧
      versions cfg = [some 1, none, none, some 2] ∧ StreamsFold cfg := by
  have hexec : (((streamWriters encoding).exec (fun flush s => s.answer encoding flush) admits
      (.initial ⟨EventStoreState.empty, []⟩) schedule).any fun cfg =>
        versions cfg = [some 1, none, none, some 2]) = true := by decide +kernel
  obtain ⟨cfg, hsteps, hvers⟩ :=
    Pool.exists_steps_of_exec (fun flush s => s.answer_sound encoding flush) hexec
  have hsteps := hsteps.mono fun _ _ => admissible_of_admits
  exact ⟨cfg, hsteps, of_decide_eq_true hvers, session_streams_fold encoding cfg hsteps⟩

end Made
