import Made.Authorization.History

/-!
# Both stores keep a history

Whatever a store holds of a policy comes from the list of events it accepted.  Looking a decision up
finds what the policy folded from that list knows; the snapshot is that policy, with its decisions
or without them; an append that is accepted is an event the policy accepts.
-/

namespace Made

open AuthorizationPolicy Outcome Std SqlitePolicies ExtTreeMap List

/-- How the replies of a store follow from the events it accepted for a policy. -/
structure PolicyStore.Faithful (store : PolicyStore) (enc : DecisionEncoding)
    (policyId : AuthorizationPolicyId) (writable : AuthorizationPolicyEvent → Bool) where
  Holds : store.State → List AuthorizationPolicyEvent → Prop
  empty : Holds store.empty []
  folds : ∀ {s h}, Holds s h → ∃ p, rehydrate enc h = .ok p
  own : ∀ {s h}, Holds s h → ∀ event ∈ h, event.policyId = policyId
  /-- A snapshot may leave the decisions out. -/
  load : ∀ {s h p}, Holds s h → rehydrate enc h = .ok p →
    (h = [] ∧ store.load s policyId = .ok none) ∨
      ∃ q, store.load s policyId = .ok (some ⟨p.version, q⟩) ∧ (q = p ∨ q = p.projected p.version)
  decision : ∀ {s h p}, Holds s h → rehydrate enc h = .ok p → ∀ id,
    store.decision s policyId id = .ok p.decisionsById[id]?
  decisionForRequest : ∀ {s h p}, Holds s h → rehydrate enc h = .ok p → ∀ id,
    store.decisionForRequest s policyId id = .ok p.decisionsByRequest[id]?
  append : ∀ {s h p}, Holds s h → rehydrate enc h = .ok p → ∀ expected event,
    (∃ version next, (store.append s policyId expected [event]).1 = .ok (.appended version) ∧
        p.apply enc event = .ok next ∧
        Holds (store.append s policyId expected [event]).2 (h ++ [event])) ∨
      ((∀ version, (store.append s policyId expected [event]).1 ≠ .ok (.appended version)) ∧
        Holds (store.append s policyId expected [event]).2 h)
  conflicts : ∀ {s h}, Holds s h → ∀ expected event, event.policyId = policyId →
    expected ≠ h.length →
    ∃ actual, (store.append s policyId expected [event]).1 = .ok (.conflict expected actual)
  /-- An event the policy accepts is accepted, at the version of the policy. -/
  accepts : ∀ {s h p next}, Holds s h → rehydrate enc h = .ok p → ∀ event,
    p.apply enc event = .ok next → event.policyId = policyId →
    (event.isDecision = true → p.id ≠ none) → h.length < i64Max → writable event = true →
    ∃ version, (store.append s policyId h.length [event]).1 = .ok (.appended version)

theorem validateEvents_singleton {policyId : AuthorizationPolicyId}
    {event : AuthorizationPolicyEvent} :
    validateEvents policyId [event] = .ok () ↔ event.policyId = policyId := by
  simp [validateEvents, bind_eq_ok]

theorem i64Max_lt_u64Max : i64Max < u64Max := by decide

theorem version_of_room {enc : DecisionEncoding} {p : AuthorizationPolicy}
    {h : List AuthorizationPolicyEvent} (hp : rehydrate enc h = .ok p) (hroom : h.length ≤ i64Max) :
    p.version = h.length := by
  rw [(recounts_of_rehydrate hp).version]
  exact Nat.min_eq_left (hroom.trans i64Max_lt_u64Max.le)

/-! ## In memory -/

variable {expected : AuthorizationPolicyVersion}

namespace MemoryPolicies

variable {enc : DecisionEncoding} {matches_ : AuthorizationDecision → Bool}
  {found : Option AuthorizationDecision} {event : AuthorizationPolicyEvent}
  {h : List AuthorizationPolicyEvent}

/-- The search stops at the decision that matches, if there is one such decision at most. -/
theorem findDecision_eq (hval : ∀ d ∈ decisionsOf h, d.validate enc = .ok ())
    (hf : ∀ d, found = some d ↔ d ∈ decisionsOf h ∧ matches_ d = true) :
    findDecision enc matches_ h = .ok found := by
  induction h with
  | nil =>
    cases found with
    | none => rfl
    | some d => cases ((hf d).mp rfl).1
  | cons event rest ih =>
    have hrest : ∀ d ∈ decisionsOf rest, d ∈ decisionsOf (event :: rest) := by
      intro d hd
      rw [decisionsOf, filterMap_cons]
      split
      · exact hd
      · exact mem_cons_of_mem _ hd
    cases event with
    | decisionRecorded policyId decision =>
      have hmem : decision ∈ decisionsOf (.decisionRecorded policyId decision :: rest) :=
        mem_cons_self
      rw [findDecision, hval decision hmem, ok_bind]
      cases hmatches : matches_ decision with
      | true => rw [(hf decision).mpr ⟨hmem, hmatches⟩]; rfl
      | false =>
        refine ih (fun d hd => hval d (hrest d hd)) fun d => ?_
        rw [hf d]
        constructor
        · rintro ⟨hd, hd'⟩
          obtain rfl | hd := mem_cons.mp hd
          · rw [hmatches] at hd'
            cases hd'
          · exact ⟨hd, hd'⟩
        · rintro ⟨hd, hd'⟩
          exact ⟨hrest d hd, hd'⟩
    | opened | grantIssued | grantRevoked => exact ih hval hf

theorem mem_decisionsOf_reverse {d : AuthorizationDecision} :
    d ∈ decisionsOf h.reverse ↔ d ∈ decisionsOf h := by
  rw [decisionsOf, filterMap_reverse, mem_reverse, ← decisionsOf]

structure Keeps (enc : DecisionEncoding) (policyId : AuthorizationPolicyId) (s : MemoryPolicies)
    (h : List AuthorizationPolicyEvent) : Prop where
  stream : (s.streams[policyId]?).getD [] = h
  folds : ∃ p, rehydrate enc h = .ok p
  own : ∀ event ∈ h, event.policyId = policyId

variable {policyId : AuthorizationPolicyId} {s : MemoryPolicies}
  {h : List AuthorizationPolicyEvent} {p : AuthorizationPolicy}

section

variable (hs : Keeps enc policyId s h)
include hs

theorem Keeps.load_eq (hp : rehydrate enc h = .ok p) :
    (h = [] ∧ s.load enc policyId = .ok none) ∨
      s.load enc policyId = .ok (some ⟨p.version, p⟩) := by
  have hstr := hs.stream
  cases hent : s.streams[policyId]? with
  | none =>
    rw [hent] at hstr
    exact .inl ⟨hstr.symm, by rw [load, hent]⟩
  | some events =>
    rw [hent, Option.getD_some] at hstr
    subst hstr
    right
    simp only [load, hent, hp, ok_bind]
    rfl

theorem Keeps.find_eq (hp : rehydrate enc h = .ok p)
    (hf : ∀ d, found = some d ↔ d ∈ decisionsOf h ∧ matches_ d = true) :
    s.find enc policyId matches_ = .ok found := by
  have hstr := hs.stream
  have hval := (recounts_of_rehydrate hp).valid
  cases hent : s.streams[policyId]? with
  | none =>
    rw [hent] at hstr
    subst hstr
    rw [find, hent]
    exact findDecision_eq (h := []) hval hf
  | some events =>
    rw [hent, Option.getD_some] at hstr
    subst hstr
    rw [find, hent]
    refine findDecision_eq (fun d hd => hval d (mem_decisionsOf_reverse.mp hd)) fun d => ?_
    rw [hf, mem_decisionsOf_reverse]

theorem Keeps.append_cases (expected : AuthorizationPolicyVersion)
    (event : AuthorizationPolicyEvent) :
    (∃ next, rehydrate enc (h ++ [event]) = .ok next ∧
        (s.append enc policyId expected [event]).1 = .ok (.appended (h ++ [event]).length) ∧
        Keeps enc policyId (s.append enc policyId expected [event]).2 (h ++ [event])) ∨
      ((∀ version, (s.append enc policyId expected [event]).1 ≠ .ok (.appended version)) ∧
        Keeps enc policyId (s.append enc policyId expected [event]).2 h) := by
  have hentered : Keeps enc policyId ⟨s.streams.insert policyId h⟩ h := by
    refine ⟨?_, hs.folds, hs.own⟩
    rw [getElem?_insert_self]
    rfl
  unfold append
  cases hval : validateEvents policyId [event] with
  | error fault => exact .inr ⟨(fun _ hrep => nomatch hrep), hs⟩
  | ok =>
    simp only [hs.stream]
    split
    case isTrue => exact .inr ⟨(fun _ hrep => nomatch hrep), hentered⟩
    case isFalse =>
      cases hnext : rehydrate enc (h ++ [event]) with
      | error fault => exact .inr ⟨(fun _ hrep => nomatch hrep), hentered⟩
      | ok next =>
        refine .inl ⟨next, rfl, rfl, ?_, ⟨next, hnext⟩, ?_⟩
        · rw [getElem?_insert_self]
          rfl
        · rw [forall_mem_append, forall_mem_singleton]
          exact ⟨hs.own, validateEvents_singleton.mp hval⟩

theorem Keeps.append_accepts {next : AuthorizationPolicy}
    (hnext : rehydrate enc (h ++ [event]) = .ok next) (hown : event.policyId = policyId) :
    (s.append enc policyId h.length [event]).1 = .ok (.appended (h ++ [event]).length) := by
  have hval := validateEvents_singleton.mpr hown
  simp only [append, hval, hs.stream, ne_eq, not_true_eq_false, if_false, hnext]

theorem Keeps.append_conflicts (hown : event.policyId = policyId) (hexp : expected ≠ h.length) :
    (s.append enc policyId expected [event]).1 = .ok (.conflict expected h.length) := by
  simp only [append, validateEvents_singleton.mpr hown, hs.stream]
  rw [if_pos hexp.symm]

end

end MemoryPolicies

def memoryFaithful (enc : DecisionEncoding) (policyId : AuthorizationPolicyId)
    (writable : AuthorizationPolicyEvent → Bool) :
    (memoryPolicies enc).Faithful enc policyId writable where
  Holds s h := MemoryPolicies.Keeps enc policyId s h
  empty := ⟨by simp [memoryPolicies, MemoryPolicies.empty], ⟨.empty, rfl⟩, by simp⟩
  folds hs := hs.folds
  own hs := hs.own
  load hs hp := (hs.load_eq hp).imp id fun hload => ⟨_, hload, .inl rfl⟩
  decision hs hp id := hs.find_eq hp fun d => by
    rw [(recounts_of_rehydrate hp).byId, decide_eq_true_eq]
  decisionForRequest hs hp id := hs.find_eq hp fun d => by
    rw [(recounts_of_rehydrate hp).byRequest, decide_eq_true_eq]
  append hs hp expected event := by
    refine (hs.append_cases expected event).imp ?_ id
    rintro ⟨next, hnext, hreply, hkeeps⟩
    obtain ⟨p', hp', happly⟩ := rehydrate_concat_eq_ok.mp hnext
    cases hp.symm.trans hp'
    exact ⟨_, next, hreply, happly, hkeeps⟩
  conflicts hs _ _ hown hexpected := ⟨_, hs.append_conflicts hown hexpected⟩
  accepts hs hp event happly hown _ _ _ :=
    ⟨_, hs.append_accepts (rehydrate_concat_eq_ok.mpr ⟨_, hp, happly⟩) hown⟩

/-! ## In SQLite -/

namespace PolicyRows

variable {enc : DecisionEncoding} {policyId : AuthorizationPolicyId}
  {event : AuthorizationPolicyEvent} {next : AuthorizationPolicy}
  {writable : AuthorizationPolicyEvent → Bool}

structure Files (enc : DecisionEncoding) (policyId : AuthorizationPolicyId)
    (writable : AuthorizationPolicyEvent → Bool) (rows : PolicyRows)
    (h : List AuthorizationPolicyEvent) (p : AuthorizationPolicy) : Prop where
  folds : rehydrate enc h = .ok p
  own : ∀ event ∈ h, event.policyId = policyId
  written : ∀ event ∈ h, writable event = true
  room : h.length ≤ i64Max
  state : rows.state = if h = [] then none else some (h.length, keptOf h)
  events : ∀ index, rows.events[index + 1]? = h[index]?
  start : rows.events[0]? = none
  decisions : ∀ id : AuthorizationDecisionId,
    rows.decisions[id]? = p.decisionsById[id]?.map fun d => DecisionRow.mk d.request.id d

theorem files_empty : Files enc policyId writable .empty [] .empty where
  folds := rfl
  own _ hev := by cases hev
  written _ hev := by cases hev
  room := Nat.zero_le _
  state := rfl
  events _ := by simp [empty]
  start := by simp [empty]
  decisions _ := by simp [empty, AuthorizationPolicy.empty]

variable {rows : PolicyRows} {h : List AuthorizationPolicyEvent} {p : AuthorizationPolicy}

theorem Files.loadEvents_eq (hrows : Files enc policyId writable rows [] p) :
    rows.loadEvents policyId = .ok [] := by
  have hempty : rows.events = ∅ := by
    refine ext_getElem? fun version => ?_
    rw [getElem?_empty]
    cases version with
    | zero => exact hrows.start
    | succ index => rw [hrows.events, getElem?_nil]
  rw [loadEvents, hempty]
  rfl

theorem next_of_room {n : Nat} (h : n < i64Max) : AuthorizationPolicyVersion.next n = n + 1 := by
  have := i64Max_lt_u64Max
  change (min (n + 1) u64Max : Nat) = n + 1
  omega

section

variable (hrows : Files enc policyId writable rows h p)
include hrows

theorem Files.version : p.version = h.length :=
  version_of_room hrows.folds hrows.room

theorem Files.projectedPolicy_eq :
    projectedPolicy enc (keptOf h) h.length = .ok (p.projected p.version) := by
  obtain ⟨v, hv, hkept⟩ := rehydrate_kept hrows.folds
  have hle : (p.projected v).version ≤ h.length := by
    rw [← hrows.version]
    exact hv
  rw [projectedPolicy, hkept, ok_bind, restoreVersion, require, if_pos hle]
  rw [hrows.version]
  rfl

theorem Files.loadSnapshot_eq :
    (h = [] ∧ rows.loadSnapshot enc policyId = .ok none) ∨
      rows.loadSnapshot enc policyId = .ok (some ⟨p.version, p.projected p.version⟩) := by
  have hstate := hrows.state
  split at hstate
  case isTrue hnil =>
    subst hnil
    refine .inl ⟨rfl, ?_⟩
    rw [loadSnapshot, hstate]
    simp only [hrows.loadEvents_eq, ok_bind]
    rfl
  case isFalse =>
    right
    rw [loadSnapshot, hstate]
    simp only [hrows.projectedPolicy_eq, ok_bind, hrows.version]
    rfl

theorem Files.loadProjection_eq :
    rows.loadProjection enc policyId = .ok (p.projected p.version, keptOf h, h.length) := by
  have hstate := hrows.state
  split at hstate
  case isTrue hnil =>
    subst hnil
    rw [loadProjection, hstate]
    simp only [hrows.loadEvents_eq, ok_bind]
    cases hrows.folds
    rfl
  case isFalse =>
    rw [loadProjection, hstate]
    simp only [hrows.projectedPolicy_eq, ok_bind]
    rfl

/-! ### Decisions -/

theorem Files.readRow_eq {id : AuthorizationDecisionId} {d : AuthorizationDecision}
    (hd : p.decisionsById[id]? = some d) : readRow enc id ⟨d.request.id, d⟩ = .ok d := by
  have hrecounts := recounts_of_rehydrate hrows.folds
  obtain ⟨hmem, hid⟩ := (hrecounts.byId id d).mp hd
  rw [readRow, hrecounts.valid d hmem, ok_bind, require, if_pos ⟨hid, rfl⟩]
  rfl

theorem Files.decision_eq
    (id : AuthorizationDecisionId) : rows.decision enc id = .ok p.decisionsById[id]? := by
  rw [decision, hrows.decisions]
  cases hd : p.decisionsById[id]? with
  | none => rfl
  | some d =>
    rw [Option.map_some]
    simp only [hrows.readRow_eq hd]
    rfl

theorem Files.authority_eq (id : Option AuthorizationDecisionId) :
    rows.authority enc id = .ok (id.bind fun id => p.decisionsById[id]?) := by
  cases id with
  | none => rfl
  | some id => exact hrows.decision_eq id

theorem Files.mem_decisions {entry : AuthorizationDecisionId × DecisionRow} :
    entry ∈ rows.decisions.toList ↔ ∃ d, p.decisionsById[d.id]? = some d ∧
      entry = (d.id, ⟨d.request.id, d⟩) := by
  obtain ⟨id, row⟩ := entry
  rw [mem_toList_iff_getElem?_eq_some, hrows.decisions, Option.map_eq_some_iff]
  constructor
  · rintro ⟨d, hd, rfl⟩
    obtain ⟨-, rfl⟩ := ((recounts_of_rehydrate hrows.folds).byId id d).mp hd
    exact ⟨d, hd, rfl⟩
  · rintro ⟨d, hd, heq⟩
    cases heq
    exact ⟨d, hd, rfl⟩

theorem Files.decisionForRequest_eq (id : AuthorizationRequestId) :
    rows.decisionForRequest enc id = .ok p.decisionsByRequest[id]? := by
  have hrecounts := recounts_of_rehydrate hrows.folds
  rw [decisionForRequest]
  split
  · next hfind =>
    cases hd : p.decisionsByRequest[id]? with
    | none => rfl
    | some d =>
      -- The decision would have a row, and the search would have met it.
      obtain ⟨hmem, hreq⟩ := (hrecounts.byRequest id d).mp hd
      have hrow := hrows.mem_decisions.mpr ⟨d, (hrecounts.byId _ d).mpr ⟨hmem, rfl⟩, rfl⟩
      have hnone := find?_eq_none.mp hfind _ hrow
      simp [hreq] at hnone
  · next hfind =>
    obtain ⟨d, hd, hrow⟩ := hrows.mem_decisions.mp (mem_of_find?_eq_some hfind)
    cases hrow
    have hreq : d.request.id = id := by simpa using find?_some hfind
    have hmem := ((hrecounts.byId _ d).mp hd).1
    rw [(hrecounts.byRequest id d).mpr ⟨hmem, hreq⟩]
    simp only [hrows.readRow_eq hd]
    rfl

theorem Files.any_decisions (id : AuthorizationRequestId) :
    (rows.decisions.toList.any fun (_, row) => row.requestId = id) =
      (p.decisionsByRequest[id]?).isSome := by
  have hrecounts := recounts_of_rehydrate hrows.folds
  rw [Bool.eq_iff_iff, any_eq_true, Option.isSome_iff_exists]
  constructor
  · rintro ⟨entry, hent, hreq⟩
    obtain ⟨d, hd, rfl⟩ := hrows.mem_decisions.mp hent
    have hmem := ((hrecounts.byId _ d).mp hd).1
    exact ⟨d, (hrecounts.byRequest id d).mpr ⟨hmem, of_decide_eq_true hreq⟩⟩
  · rintro ⟨d, hd⟩
    obtain ⟨hmem, hreq⟩ := (hrecounts.byRequest id d).mp hd
    exact ⟨_, hrows.mem_decisions.mpr ⟨d, (hrecounts.byId _ d).mpr ⟨hmem, rfl⟩, rfl⟩,
      decide_eq_true hreq⟩

/-! ### Filing an event -/

def after (rows : PolicyRows) (h : List AuthorizationPolicyEvent)
    (event : AuthorizationPolicyEvent) : PolicyRows where
  events := rows.events.insert (h.length + 1) event
  decisions :=
    match event.decision? with
    | none => rows.decisions
    | some d => rows.decisions.insert d.id ⟨d.request.id, d⟩
  state := some (h.length + 1, keptOf (h ++ [event]))

theorem Files.step (happ : p.apply enc event = .ok next) (hown : event.policyId = policyId)
    (hwr : writable event = true) (hroom : h.length < i64Max) :
    Files enc policyId writable (rows.after h event) (h ++ [event]) next where
  folds := rehydrate_concat_eq_ok.mpr ⟨p, hrows.folds, happ⟩
  own := by
    rw [forall_mem_append, forall_mem_singleton]
    exact ⟨hrows.own, hown⟩
  written := by
    rw [forall_mem_append, forall_mem_singleton]
    exact ⟨hrows.written, hwr⟩
  room := by
    rw [length_append, length_singleton]
    omega
  state := by
    rw [if_neg (by simp), length_append, length_singleton]
    rfl
  events := by
    intro index
    by_cases hindex : index = h.length
    · subst hindex
      rw [getElem?_concat_length]
      exact getElem?_insert_self
    · change (rows.events.insert (h.length + 1) event)[index + 1]? = _
      rw [Map.getElem?_insert_of_ne (by omega), hrows.events]
      by_cases hlt : index < h.length
      · rw [getElem?_append_left hlt]
      · rw [List.getElem?_eq_none (by omega), List.getElem?_eq_none (by simp; omega)]
  start := by
    change (rows.events.insert (h.length + 1) event)[0]? = none
    rw [Map.getElem?_insert_of_ne (by omega)]
    exact hrows.start
  decisions := by
    intro id
    cases hev : event.isDecision with
    | false =>
      rw [after, decision?_of_isDecision hev, (decisions_of_change hev happ).2]
      exact hrows.decisions id
    | true =>
      cases event with
      | decisionRecorded policyId' d =>
        obtain ⟨-, -, -, -, hids⟩ := decisions_of_decision happ
        rw [hids]
        change (rows.decisions.insert d.id ⟨d.request.id, d⟩)[id]? = _
        by_cases hid : id = d.id
        · subst hid
          rw [getElem?_insert_self, getElem?_insert_self]
          rfl
        · rw [Map.getElem?_insert_of_ne hid, Map.getElem?_insert_of_ne hid]
          exact hrows.decisions id
      | opened | grantIssued | grantRevoked => cases hev

def begun (rows : PolicyRows) (h : List AuthorizationPolicyEvent) (p : AuthorizationPolicy) :
    PolicyTransaction :=
  ⟨p.projected p.version, h.length, rows, keptOf h⟩

def filed (rows : PolicyRows) (h : List AuthorizationPolicyEvent)
    (event : AuthorizationPolicyEvent) (next : AuthorizationPolicy) : PolicyTransaction :=
  ⟨next.projected next.version, h.length + 1, { rows.after h event with state := rows.state },
    keptOf (h ++ [event])⟩

theorem Files.file_eq
    (happ : p.apply enc event = .ok next) (hopen : event.isDecision = true → p.id ≠ none)
    (hwr : writable event = true) (hroom : h.length < i64Max) :
    (begun rows h p).file enc writable event = .ok (some (filed rows h event next)) := by
  have hver : rows.events[h.length + 1]? = none := by
    rw [hrows.events]
    exact List.getElem?_eq_none (Nat.le_refl _)
  have hroom' : h.length + 1 ≤ i64Max := hroom
  simp only [PolicyTransaction.file, begun, bind_eq_ok, require_eq_ok,
    exists_unit, next_of_room hroom]
  refine ⟨_, hrows.authority_eq _, _, hrows.authority_eq _, _,
    applyProjected_of_apply happ hopen, hroom', hwr, hver, ?_⟩
  cases event with
  | decisionRecorded policyId' d =>
    obtain ⟨-, hreq, hid, -, -⟩ := decisions_of_decision happ
    have hnew : rows.decisions[d.id]? = none := by
      rw [hrows.decisions, hid]
      rfl
    have hkept : keptOf (h ++ [.decisionRecorded policyId' d]) = keptOf h := by
      simp [keptOf, AuthorizationPolicyEvent.isDecision]
    simp only [hrows.any_decisions, hreq, Option.isSome_none, Bool.false_eq_true, if_false,
      bind_eq_ok, require_eq_ok, exists_unit, hnew, true_and, filed, hkept]
    rfl
  | opened | grantIssued | grantRevoked =>
    simp [filed, keptOf, AuthorizationPolicyEvent.isDecision, after,
      AuthorizationPolicyEvent.decision?]

theorem Files.apply_of_file {t : PolicyTransaction}
    (hfile : (begun rows h p).file enc writable event = .ok (some t)) :
    (∃ next, p.apply enc event = .ok next) ∧ (event.isDecision = true → p.id ≠ none) ∧
      writable event = true ∧ h.length < i64Max := by
  simp only [PolicyTransaction.file, bind_eq_ok, require_eq_ok, exists_unit] at hfile
  obtain ⟨approval, happroval, accepted, hacc, q, happ, hroom, hwr, -, hrest⟩ := hfile
  cases (hrows.authority_eq _).symm.trans happroval
  cases (hrows.authority_eq _).symm.trans hacc
  have hlt : h.length < i64Max := by
    have := i64Max_lt_u64Max
    change (min (h.length + 1) u64Max : Nat) ≤ i64Max at hroom
    omega
  refine ⟨?_, ?_, hwr, hlt⟩
  · refine apply_of_applyProjected happ ?_
    rintro policyId' d rfl
    simp only [begun, hrows.any_decisions] at hrest
    split at hrest
    case isTrue => cases hrest
    case isFalse hreq =>
      simp only [bind_eq_ok, require_eq_ok, exists_unit, hrows.decisions,
        Option.map_eq_none_iff] at hrest
      exact ⟨by simpa using hreq, hrest.1⟩
  · intro hev
    cases event with
    | decisionRecorded policyId' d =>
      obtain ⟨hid, -⟩ := applyProjected_eq_ok.mp happ
      intro hnone
      cases hnone.symm.trans hid
    | opened | grantIssued | grantRevoked => cases hev

/-! ### Appending -/

theorem Files.saveState_eq
    (next : AuthorizationPolicy) (hwr : writable event = true) (hroom : h.length < i64Max) :
    (filed rows h event next).saveState writable = .ok (rows.after h event) := by
  have hall : (keptOf (h ++ [event])).all writable = true := by
    rw [all_eq_true]
    intro e he
    obtain hold | hnew := mem_append.mp (mem_of_mem_filter he)
    · exact hrows.written e hold
    · rw [mem_singleton.mp hnew]
      exact hwr
  simp only [PolicyTransaction.saveState, bind_eq_ok, require_eq_ok, exists_unit, pure_eq_ok]
  exact ⟨hroom, hall, rfl⟩

/-- What is left of an append once its version is found to be the expected one. -/
theorem Files.appendEvents_expected (hown : event.policyId = policyId) :
    appendEvents enc writable rows policyId h.length [event] = (do
      match ← (begun rows h p).file enc writable event with
      | none => pure (.conflict h.length h.length, none)
      | some t => do
        let rows ← t.saveState writable
        pure (.appended t.version, some rows)) := by
  simp only [appendEvents, validateEvents_singleton.mpr hown,
    hrows.loadProjection_eq, ok_bind, ne_eq, not_true_eq_false, if_false,
    PolicyTransaction.fileAll]
  change ((begun rows h p).file enc writable event >>= _) >>= _ = _
  cases (begun rows h p).file enc writable event with
  | error fault => rfl
  | ok t => cases t <;> rfl

theorem Files.appendEvents_conflict
    (hown : event.policyId = policyId) (hexp : expected ≠ h.length) :
    appendEvents enc writable rows policyId expected [event] =
      .ok (.conflict expected h.length, none) := by
  simp only [appendEvents, validateEvents_singleton.mpr hown, hrows.loadProjection_eq, ok_bind]
  rw [if_pos hexp.symm]
  rfl

theorem Files.appendEvents_eq (happ : p.apply enc event = .ok next)
    (hopen : event.isDecision = true → p.id ≠ none) (hown : event.policyId = policyId)
    (hwr : writable event = true) (hroom : h.length < i64Max) :
    appendEvents enc writable rows policyId h.length [event] =
      .ok (.appended (h.length + 1), some (rows.after h event)) := by
  rw [hrows.appendEvents_expected hown, hrows.file_eq happ hopen hwr hroom]
  simp only [ok_bind, hrows.saveState_eq next hwr hroom]
  rfl

/-- What an append comes to: the event is filed, or nothing is. -/
theorem Files.appendEvents_cases
    (expected : AuthorizationPolicyVersion) (event : AuthorizationPolicyEvent) :
    (∃ next, p.apply enc event = .ok next ∧
        appendEvents enc writable rows policyId expected [event] =
          .ok (.appended (h.length + 1), some (rows.after h event)) ∧
        Files enc policyId writable (rows.after h event) (h ++ [event]) next) ∨
      (∃ fault, appendEvents enc writable rows policyId expected [event] = .error fault) ∨
      ∃ actual, appendEvents enc writable rows policyId expected [event] =
        .ok (.conflict expected actual, none) := by
  cases hval : validateEvents policyId [event] with
  | error fault =>
    refine .inr (.inl ⟨fault, ?_⟩)
    rw [appendEvents, hval]
    rfl
  | ok =>
    have hown := validateEvents_singleton.mp hval
    by_cases hexp : expected = h.length
    · subst hexp
      cases hfile : (begun rows h p).file enc writable event with
      | error fault =>
        refine .inr (.inl ⟨fault, ?_⟩)
        rw [hrows.appendEvents_expected hown, hfile]
        rfl
      | ok result =>
        cases result with
        | none =>
          refine .inr (.inr ⟨h.length, ?_⟩)
          rw [hrows.appendEvents_expected hown, hfile]
          rfl
        | some t =>
          obtain ⟨⟨next, happ⟩, hopen, hwr, hroom⟩ := hrows.apply_of_file hfile
          exact .inl ⟨next, happ, hrows.appendEvents_eq happ hopen hown hwr hroom,
            hrows.step happ hown hwr hroom⟩
    · exact .inr (.inr ⟨h.length, hrows.appendEvents_conflict hown hexp⟩)

end

end PolicyRows

namespace SqlitePolicies

variable {enc : DecisionEncoding} {policyId : AuthorizationPolicyId}
  {event : AuthorizationPolicyEvent} {writable : AuthorizationPolicyEvent → Bool}

def Keeps (enc : DecisionEncoding) (policyId : AuthorizationPolicyId)
    (writable : AuthorizationPolicyEvent → Bool) (s : SqlitePolicies)
    (h : List AuthorizationPolicyEvent) : Prop :=
  ∃ p, PolicyRows.Files enc policyId writable (s.rows policyId) h p

theorem keeps_empty : Keeps enc policyId writable .empty [] := by
  have hrows : empty.rows policyId = .empty := by
    simp [rows, empty]
  exact ⟨.empty, hrows.symm ▸ PolicyRows.files_empty⟩

variable {s : SqlitePolicies} {h : List AuthorizationPolicyEvent} {p : AuthorizationPolicy}

section

variable (hs : Keeps enc policyId writable s h)
include hs

theorem Keeps.files (hp : rehydrate enc h = .ok p) :
    PolicyRows.Files enc policyId writable (s.rows policyId) h p := by
  obtain ⟨p', hrows⟩ := hs
  cases hp.symm.trans hrows.folds
  exact hrows

theorem Keeps.append_cases (hp : rehydrate enc h = .ok p) (expected : AuthorizationPolicyVersion)
    (event : AuthorizationPolicyEvent) :
    (∃ version next, (s.append enc writable policyId expected [event]).1 = .ok (.appended version) ∧
        p.apply enc event = .ok next ∧
        Keeps enc policyId writable (s.append enc writable policyId expected [event]).2
          (h ++ [event])) ∨
      ((∀ version, (s.append enc writable policyId expected [event]).1 ≠ .ok (.appended version)) ∧
        Keeps enc policyId writable (s.append enc writable policyId expected [event]).2 h) := by
  have hrows := hs.files hp
  unfold append
  obtain ⟨next, happ, hrep, hfiles⟩ | ⟨fault, hrep⟩ | ⟨actual, hrep⟩ :=
    hrows.appendEvents_cases expected event
  · rw [hrep]
    have hwritten : (mk (s.policies.insert policyId
        ((s.rows policyId).after h event))).rows policyId = (s.rows policyId).after h event := by
      rw [rows, getElem?_insert_self]
      rfl
    exact .inl ⟨_, next, rfl, happ, next, hwritten.symm ▸ hfiles⟩
  · rw [hrep]
    exact .inr ⟨(fun _ heq => nomatch heq), hs⟩
  · rw [hrep]
    exact .inr ⟨(fun _ heq => nomatch heq), hs⟩

theorem Keeps.append_accepts (hp : rehydrate enc h = .ok p) {next : AuthorizationPolicy}
    (happ : p.apply enc event = .ok next) (hopen : event.isDecision = true → p.id ≠ none)
    (hown : event.policyId = policyId) (hwr : writable event = true) (hroom : h.length < i64Max) :
    (s.append enc writable policyId h.length [event]).1 = .ok (.appended (h.length + 1)) := by
  rw [append, (hs.files hp).appendEvents_eq happ hopen hown hwr hroom]

theorem Keeps.append_conflicts (hown : event.policyId = policyId) (hexp : expected ≠ h.length) :
    (s.append enc writable policyId expected [event]).1 = .ok (.conflict expected h.length) := by
  obtain ⟨p, hrows⟩ := hs
  rw [append, hrows.appendEvents_conflict hown hexp]

end

end SqlitePolicies

def sqliteFaithful (enc : DecisionEncoding) (policyId : AuthorizationPolicyId)
    (writable : AuthorizationPolicyEvent → Bool) :
    (sqlitePolicies enc writable).Faithful enc policyId writable where
  Holds s h := SqlitePolicies.Keeps enc policyId writable s h
  empty := SqlitePolicies.keeps_empty
  folds := fun ⟨p, hrows⟩ => ⟨p, hrows.folds⟩
  own := fun ⟨_, hrows⟩ => hrows.own
  load hs hp := ((SqlitePolicies.Keeps.files hs hp).loadSnapshot_eq).imp id
    fun hload => ⟨_, hload, .inr rfl⟩
  decision hs hp id := (SqlitePolicies.Keeps.files hs hp).decision_eq id
  decisionForRequest hs hp id := (SqlitePolicies.Keeps.files hs hp).decisionForRequest_eq id
  append hs hp expected event := SqlitePolicies.Keeps.append_cases hs hp expected event
  conflicts hs _ _ hown hexpected :=
    ⟨_, SqlitePolicies.Keeps.append_conflicts hs hown hexpected⟩
  accepts hs hp _ happly hown hopen hroom hwritable :=
    ⟨_, SqlitePolicies.Keeps.append_accepts hs hp happly hopen hown hwritable hroom⟩

end Made
