import Made.Authorization.Refinement
import Made.Authorization.UseCases
import Made.Library.Logs

/-!
# What the calls on a policy leave behind

The log of the calls on one policy says which events were recorded, which were offered, and what
each thread looked up in vain.
-/

namespace Made

open Interleaving List
open AuthorizationPolicy hiding id

variable {d : AuthorizationDecision}

abbrev PolicyEntry := Event policyPorts PolicyInput

abbrev PolicyLog := Log policyPorts PolicyInput

/-! ## Reading the log -/

def recordedBy : PolicyEntry → List AuthorizationPolicyEvent
  | .called _ (.append _ _ events) (.ok (.appended _)) => events
  | _ => []

def recorded (log : PolicyLog) : List AuthorizationPolicyEvent := log.flatMap recordedBy

def offeredBy : PolicyEntry → List AuthorizationPolicyEvent
  | .called _ (.append _ _ events) _ => events
  | _ => []

/-- The events of all appends, recorded or not. -/
def offered (log : PolicyLog) : List AuthorizationPolicyEvent := log.flatMap offeredBy

inductive LookUp where
  | request (id : AuthorizationRequestId)
  | decision (id : AuthorizationDecisionId)

def LookUp.Finds : LookUp → AuthorizationDecision → Prop
  | request id, d => d.request.id = id
  | decision id, d => d.id = id

instance : ∀ (l : LookUp) (d : AuthorizationDecision), Decidable (l.Finds d)
  | .request id, d => inferInstanceAs (Decidable (d.request.id = id))
  | .decision id, d => inferInstanceAs (Decidable (d.id = id))

def LookUp.call (policyId : AuthorizationPolicyId) : LookUp → PolicyCall
  | request id => .decisionForRequest policyId id
  | decision id => .decision policyId id

def LookUp.program (policyId : AuthorizationPolicyId) :
    LookUp → PolicyProg (Option AuthorizationDecision)
  | request id => .decisionForRequest policyId id
  | decision id => .decision policyId id

def LookUp.inPolicy (p : AuthorizationPolicy) : LookUp → Option AuthorizationDecision
  | request id => p.decisionsByRequest[id]?
  | decision id => p.decisionsById[id]?

def missedAfter (n : Nat) (misses : List LookUp) : PolicyEntry → List LookUp
  | .called k (.load _) _ => if k = n then [] else misses
  | .called k (.decisionForRequest _ id) (.ok none) =>
    if k = n then .request id :: misses else misses
  | .called k (.decision _ id) (.ok none) => if k = n then .decision id :: misses else misses
  | _ => misses

/-- What a thread looked up in vain since it last loaded the policy. -/
def missed (n : Nat) (log : PolicyLog) : List LookUp := log.foldl (missedAfter n) []

def isConflictOf (n : Nat) : PolicyEntry → Bool
  | .called k (.append _ _ _) (.ok (.conflict _ _)) => k = n
  | _ => false

def conflictsOf (n : Nat) (log : PolicyLog) : Nat := log.countP (isConflictOf n)

section Concat

variable (n : Nat) (log : PolicyLog) (e : PolicyEntry) {event : AuthorizationPolicyEvent}

@[simp] theorem recorded_concat : recorded (log ++ [e]) = recorded log ++ recordedBy e := by
  simp [recorded]

@[simp] theorem offered_concat : offered (log ++ [e]) = offered log ++ offeredBy e := by
  simp [offered]

@[simp] theorem missed_concat : missed n (log ++ [e]) = missedAfter n (missed n log) e := by
  simp [missed]

@[simp] theorem conflictsOf_concat :
    conflictsOf n (log ++ [e]) = conflictsOf n log + if isConflictOf n e then 1 else 0 := by
  simp [conflictsOf, countP_singleton]

theorem recordedBy_subset (h : event ∈ recordedBy e) : event ∈ offeredBy e := by
  unfold recordedBy at h
  split at h
  · exact h
  · cases h

theorem recorded_subset_offered (h : event ∈ recorded log) : event ∈ offered log := by
  obtain ⟨e, he, hev⟩ := mem_flatMap.mp h
  exact mem_flatMap.mpr ⟨e, he, recordedBy_subset e hev⟩

theorem missedAfter_of_ne {n : Nat} {e : PolicyEntry} (h : e.thread ≠ n) (misses : List LookUp) :
    missedAfter n misses e = misses := by
  unfold missedAfter
  split
  · exact if_neg h
  · exact if_neg h
  · exact if_neg h
  · rfl

end Concat

theorem mem_decisionsOf {events : List AuthorizationPolicyEvent} :
    d ∈ decisionsOf events ↔ ∃ event ∈ events, event.decision? = some d := by
  rw [decisionsOf, mem_filterMap]

def Found (d : AuthorizationDecision) (log : PolicyLog) : Prop := d ∈ decisionsOf (recorded log)

theorem found_of_past {h : List AuthorizationPolicyEvent} {log : PolicyLog}
    (hpast : h <+: recorded log) (hd : d ∈ decisionsOf h) : Found d log := by
  obtain ⟨event, hev, hdec⟩ := mem_decisionsOf.mp hd
  exact mem_decisionsOf.mpr ⟨event, hpast.subset hev, hdec⟩

theorem growing_found (d : AuthorizationDecision) : Growing (Found d) := by
  intro log e h
  rw [Found, recorded_concat, decisionsOf, filterMap_append]
  exact mem_append_left _ h

theorem growing_past (h : List AuthorizationPolicyEvent) :
    Growing fun log : PolicyLog => h <+: recorded log := by
  intro log e hpast
  rw [recorded_concat]
  exact hpast.trans (prefix_append _ _)

/-- A thread made a call when this had been recorded. -/
def CalledAt (n : Nat) (c : PolicyCall) (h : List AuthorizationPolicyEvent) (log : PolicyLog) :
    Prop :=
  ∃ before reply after, log = before ++ .called n c reply :: after ∧ recorded before = h

theorem calledAt_concat (n : Nat) (log : PolicyLog) (c : PolicyCall) (reply : policyPorts.Reply c) :
    CalledAt n c (recorded log) (log ++ [.called n c reply]) :=
  ⟨log, reply, [], rfl, rfl⟩

theorem growing_calledAt (n : Nat) (c : PolicyCall) (h : List AuthorizationPolicyEvent) :
    Growing (CalledAt n c h) := by
  rintro log e ⟨before, reply, after, rfl, hrecorded⟩
  exact ⟨before, reply, after ++ [e], by rw [append_assoc, cons_append], hrecorded⟩

theorem growing_conflicts (n k : Nat) : Growing fun log : PolicyLog => k ≤ conflictsOf n log := by
  intro log e h
  rw [conflictsOf_concat]
  exact Nat.le_add_right_of_le h

/-! ## Undisturbed logs -/

/-- At each load nothing is recorded of what the thread looked up in vain before it. -/
def TimelyLoad (before : PolicyLog) : PolicyEntry → Prop
  | .called n (.load _) _ => ∀ l ∈ missed n before, ∀ d, Found d before → ¬ l.Finds d
  | _ => True

/-- The look-ups of every thread are still right when it loads the policy; and the events are such
that a store can tell them apart, write them and number them. -/
structure Undisturbed (writable : AuthorizationPolicyEvent → Bool) (log : PolicyLog) : Prop where
  timely : EveryEntry TimelyLoad log
  distinct : ∀ d ∈ decisionsOf (offered log), ∀ d' ∈ decisionsOf (offered log), d.id = d'.id →
    d.request.id = d'.request.id
  valid : ∀ d ∈ decisionsOf (offered log), d.request.validate = .ok ()
  written : ∀ event ∈ offered log, writable event = true
  room : (recorded log).length < i64Max

variable {writable : AuthorizationPolicyEvent → Bool}

instance (before : PolicyLog) : ∀ e, Decidable (TimelyLoad before e)
  | .called n (.load _) _ => inferInstanceAs (Decidable (∀ l ∈ missed n before,
      ∀ d ∈ decisionsOf (recorded before), ¬ l.Finds d))
  | .called _ (.append _ _ _) _ | .called _ (.decision _ _) _
  | .called _ (.decisionForRequest _ _) _ | .called _ .now _ | .started _ _ =>
    inferInstanceAs (Decidable True)

instance (log : PolicyLog) : Decidable (Undisturbed writable log) :=
  decidable_of_iff (EveryEntry TimelyLoad log ∧
      (∀ d ∈ decisionsOf (offered log), ∀ d' ∈ decisionsOf (offered log), d.id = d'.id →
        d.request.id = d'.request.id) ∧
      (∀ d ∈ decisionsOf (offered log), d.request.validate = .ok ()) ∧
      (∀ event ∈ offered log, writable event = true) ∧ (recorded log).length < i64Max)
    ⟨fun ⟨timely, distinct, valid, written, room⟩ => ⟨timely, distinct, valid, written, room⟩,
      fun h => ⟨h.timely, h.distinct, h.valid, h.written, h.room⟩⟩

theorem Undisturbed.of_concat (log : PolicyLog) (e : PolicyEntry)
    (h : Undisturbed writable (log ++ [e])) : Undisturbed writable log := by
  have hdecs : ∀ d ∈ decisionsOf (offered log), d ∈ decisionsOf (offered (log ++ [e])) := by
    intro d hd
    rw [offered_concat, decisionsOf, filterMap_append]
    exact mem_append_left _ hd
  refine ⟨(everyEntry_concat.mp h.timely).1, ?_, ?_, ?_, ?_⟩
  · intro d hd d' hd'
    exact h.distinct d (hdecs d hd) d' (hdecs d' hd')
  · intro d hd
    exact h.valid d (hdecs d hd)
  · intro event hev
    refine h.written event ?_
    rw [offered_concat]
    exact mem_append_left _ hev
  · have hroom := h.room
    rw [recorded_concat, length_append] at hroom
    exact Nat.lt_of_le_of_lt (Nat.le_add_right _ _) hroom

theorem growing_disturbed : Growing fun log => ¬ Undisturbed writable log :=
  fun log e h hnot => h (hnot.of_concat log e)

def AcceptedAppend (before : PolicyLog) : PolicyEntry → Prop
  | .called _ (.append _ expected _) reply =>
    expected = (recorded before).length → ∃ version, reply = .ok (.appended version)
  | _ => True

/-- No event that was decided on the last version of the policy was refused. -/
def Accepts (log : PolicyLog) : Prop := EveryEntry AcceptedAppend log

instance : ∀ reply : Result AuthorizationPolicyAppendOutcome,
    Decidable (∃ version, reply = .ok (.appended version))
  | .ok (.appended version) => .isTrue ⟨version, rfl⟩
  | .ok (.conflict _ _) => .isFalse fun ⟨_, h⟩ => nomatch h
  | .error _ => .isFalse fun ⟨_, h⟩ => nomatch h

instance (before : PolicyLog) : ∀ e, Decidable (AcceptedAppend before e)
  | .called _ (.append _ expected _) reply => inferInstanceAs (Decidable
      (expected = (recorded before).length → ∃ version, reply = .ok (.appended version)))
  | .called _ (.load _) _ | .called _ (.decision _ _) _
  | .called _ (.decisionForRequest _ _) _ | .called _ .now _ | .started _ _ =>
    inferInstanceAs (Decidable True)

instance (log : PolicyLog) : Decidable (Accepts log) :=
  inferInstanceAs (Decidable (EveryEntry AcceptedAppend log))

/-! ## The discipline -/

section Discipline

variable {store : PolicyStore} {enc : DecisionEncoding} {policyId : AuthorizationPolicyId}
  {p : AuthorizationPolicy} {event : AuthorizationPolicyEvent} {k : Nat}
  {E : Fault DomainError → PolicyLog → Prop} (F : store.Faithful enc policyId writable)
  {e : PolicyEntry} {log : PolicyLog} {h events : List AuthorizationPolicyEvent}

/-- The store holds what was recorded, starting with the opening of the policy. -/
structure PolicyInvariant (w : World policyPorts store.State PolicyInput) : Prop where
  holds : F.Holds w.state (recorded w.log)
  opened : ∀ p, rehydrate enc (recorded w.log) = .ok p → recorded w.log = [] ∨ p.id = some policyId
  accepts : Undisturbed writable w.log → Accepts w.log

def policyDiscipline : Discipline policyPorts store.State PolicyInput where
  performs := store.Performs
  ok _ _ := True
  inv := PolicyInvariant F

def Quiet (e : PolicyEntry) : Prop :=
  ∀ n policyId expected events reply, e ≠ .called n (.append policyId expected events) reply

theorem recordedBy_quiet (h : Quiet e) : recordedBy e = [] := by
  unfold recordedBy
  split
  · exact absurd rfl (h _ _ _ _ _)
  · rfl

theorem acceptedAppend_quiet (h : Quiet e) (log : PolicyLog) : AcceptedAppend log e := by
  unfold AcceptedAppend
  split
  · exact absurd rfl (h _ _ _ _ _)
  · trivial

variable {F}

theorem PolicyInvariant.quiet {w : World policyPorts store.State PolicyInput}
    (hw : PolicyInvariant F w) (he : Quiet e) : PolicyInvariant F ⟨w.state, w.log ++ [e]⟩ := by
  have hrecorded : recorded (w.log ++ [e]) = recorded w.log := by
    rw [recorded_concat, recordedBy_quiet he, append_nil]
  refine ⟨?_, ?_, ?_⟩
  · rw [hrecorded]
    exact hw.holds
  · rw [hrecorded]
    exact hw.opened
  · intro hundisturbed
    exact everyEntry_concat.mpr
      ⟨hw.accepts (hundisturbed.of_concat w.log e), acceptedAppend_quiet he w.log⟩

/-- What an attempt knows of the policy: the fold of a past history. -/
structure Basis (enc : DecisionEncoding) (policyId : AuthorizationPolicyId) (log : PolicyLog)
    (h : List AuthorizationPolicyEvent) (p : AuthorizationPolicy) : Prop where
  past : h <+: recorded log
  folds : rehydrate enc h = .ok p
  opened : h = [] ∨ p.id = some policyId

theorem Basis.empty_or_opened (hbasis : Basis enc policyId log h p) :
    p = .empty ∨ p.id = some policyId := by
  refine hbasis.opened.imp_left ?_
  rintro rfl
  cases hbasis.folds
  rfl

theorem Basis.own {id : AuthorizationPolicyId} (hbasis : Basis enc policyId log h p)
    (hid : p.id = some id) : id = policyId := by
  rcases hbasis.empty_or_opened with rfl | hopened
  · cases hid
  · exact Option.some.inj (hid.symm.trans hopened)

theorem growing_basis (h : List AuthorizationPolicyEvent) (p : AuthorizationPolicy) :
    Growing fun log => Basis enc policyId log h p :=
  fun log e hbasis => ⟨growing_past h log e hbasis.past, hbasis.folds, hbasis.opened⟩

theorem PolicyInvariant.basis {w : World policyPorts store.State PolicyInput}
    (hw : PolicyInvariant F w) : ∃ p, Basis enc policyId w.log (recorded w.log) p := by
  obtain ⟨p, hp⟩ := F.folds hw.holds
  exact ⟨p, prefix_rfl, hp, hw.opened p hp⟩

/-! ## Look-ups -/

theorem inPolicy_eq_some (hp : rehydrate enc h = .ok p) (l : LookUp) (d : AuthorizationDecision) :
    l.inPolicy p = some d ↔ d ∈ decisionsOf h ∧ l.Finds d := by
  cases l with
  | request id => exact (recounts_of_rehydrate hp).byRequest id d
  | decision id => exact (recounts_of_rehydrate hp).byId id d

/-- What a look-up tells a thread: a decision that was recorded, or a miss of its own. -/
def Saw (n : Nat) (log : PolicyLog) : LookUp × Option AuthorizationDecision → Prop
  | (l, some d) => Found d log ∧ l.Finds d
  | (l, none) => l ∈ missed n log

def SawAll (n : Nat) (reads : List (LookUp × Option AuthorizationDecision)) (log : PolicyLog) :
    Prop :=
  ∀ read ∈ reads, Saw n log read

abbrev Reads := List (LookUp × Option AuthorizationDecision)

theorem sawAll_nil {n : Nat} : SawAll n [] log := fun _ h => nomatch h

theorem lasting_sawAll (n : Nat) (reads : Reads) :
    Interleaving.Lasting n (SawAll n reads) := by
  rintro log e he h ⟨l, found⟩ hread
  cases found with
  | some d => exact (h _ hread).imp_left (growing_found d log e)
  | none =>
    rw [Saw, missed_concat, missedAfter_of_ne he]
    exact h _ hread

/-- The answer of a look-up, and what becomes of the earlier ones. -/
theorem sawAll_cons {n : Nat} {l : LookUp} {found : Option AuthorizationDecision}
    {reads : Reads} (hp : rehydrate enc (recorded log) = .ok p) (hf : found = l.inPolicy p)
    (hquiet : recordedBy e = []) (hmissed : missedAfter n (missed n log) e =
      if found = none then l :: missed n log else missed n log) (h : SawAll n reads log) :
    SawAll n ((l, found) :: reads) (log ++ [e]) := by
  have hrecorded : recorded (log ++ [e]) = recorded log := by
    rw [recorded_concat, hquiet, append_nil]
  rintro ⟨l', found'⟩ hread
  rcases mem_cons.mp hread with heq | hread
  · cases heq
    cases found with
    | some d =>
      rw [Saw, Found, hrecorded]
      exact (inPolicy_eq_some hp l d).mp hf.symm
    | none =>
      rw [Saw, missed_concat, hmissed, if_pos rfl]
      exact mem_cons_self
  · have hsaw := h _ hread
    cases found' with
    | some d =>
      rw [Saw, Found, hrecorded]
      exact hsaw
    | none =>
      rw [Saw, missed_concat, hmissed]
      split
      · exact mem_cons_of_mem _ hsaw
      · exact hsaw

variable {n : Nat} {M : PolicyLog → Prop} {reads : Reads}

theorem lookUp_establishes (hM : Growing M) (reads : Reads) (l : LookUp) :
    (policyDiscipline F).Establishes n (fun log => M log ∧ SawAll n reads log) (l.program policyId)
      fun result log => ∃ found, result = .ok found ∧ (M log ∧ SawAll n ((l, found) :: reads) log) ∧
        ∃ h p, found = l.inPolicy p ∧ Basis enc policyId log h p ∧
          CalledAt n (l.call policyId) h log := by
  have hbefore := (hM.lasting n).and (lasting_sawAll n reads)
  have hafter : ∀ result : Result (Option AuthorizationDecision), Interleaving.Lasting n fun log =>
      ∃ found, result = .ok found ∧ (M log ∧ SawAll n ((l, found) :: reads) log) ∧
        ∃ h p, found = l.inPolicy p ∧ Basis enc policyId log h p ∧
          CalledAt n (l.call policyId) h log := by
    intro result
    refine .exists_ fun found => ((Growing.const _).lasting n).and
      (((hM.lasting n).and (lasting_sawAll n _)).and (Growing.lasting ?_ n))
    exact .exists_ fun h => .exists_ fun p => (Growing.const _).and
      ((growing_basis h p).and (growing_calledAt n _ h))
  cases l with
  | request id =>
    refine .call (I := policyPorts) (c := PolicyCall.decisionForRequest policyId id) (fun r => r)
      hbefore ?_ hafter
    rintro w hw ⟨hm, hsaw⟩ reply state performs
    cases performs
    obtain ⟨p, hp⟩ := hw.basis
    have hrep := F.decisionForRequest hw.holds hp.folds id
    refine ⟨hw.quiet fun _ _ _ _ _ h => (by cases h), _, hrep, ⟨hM _ _ hm, ?_⟩,
      _, p, rfl, growing_basis _ p _ _ hp, calledAt_concat n _ _ _⟩
    refine sawAll_cons hp.folds (l := .request id) rfl rfl ?_ hsaw
    rw [hrep]
    cases hf : p.decisionsByRequest[id]? with
    | none | some d => simp [missedAfter]
  | decision id =>
    refine .call (I := policyPorts) (c := PolicyCall.decision policyId id) (fun r => r)
      hbefore ?_ hafter
    rintro w hw ⟨hm, hsaw⟩ reply state performs
    cases performs
    obtain ⟨p, hp⟩ := hw.basis
    have hrep := F.decision hw.holds hp.folds id
    refine ⟨hw.quiet fun _ _ _ _ _ h => (by cases h), _, hrep, ⟨hM _ _ hm, ?_⟩,
      _, p, rfl, growing_basis _ p _ _ hp, calledAt_concat n _ _ _⟩
    refine sawAll_cons hp.folds (l := .decision id) rfl rfl ?_ hsaw
    rw [hrep]
    cases hf : p.decisionsById[id]? with
    | none | some d => simp [missedAfter]

/-! ## Loading the policy -/

/-- The snapshot of a policy, with its decisions or without them; there is none of an empty one. -/
def Shows (p : AuthorizationPolicy) (h : List AuthorizationPolicyEvent)
    (snapshot : Option AuthorizationPolicySnapshot) : Prop :=
  (h = [] ∧ snapshot = none) ∨
    ∃ q, snapshot = some ⟨p.version, q⟩ ∧ (q = p ∨ q = p.projected p.version)

/-- What a thread knows of the policy it loaded: a decision it had found is there, and in an
undisturbed log it misses what it had missed. -/
structure Loaded (writable : AuthorizationPolicyEvent → Bool) (enc : DecisionEncoding)
    (policyId : AuthorizationPolicyId) (n : Nat) (reads : Reads)
    (h : List AuthorizationPolicyEvent) (p : AuthorizationPolicy) (log : PolicyLog) : Prop where
  basis : Basis enc policyId log h p
  called : CalledAt n (.load policyId) h log
  found : ∀ l d, (l, some d) ∈ reads → l.inPolicy p = some d
  agrees : Undisturbed writable log → ∀ read ∈ reads, read.2 = read.1.inPolicy p

theorem growing_loaded (h : List AuthorizationPolicyEvent) (p : AuthorizationPolicy) :
    Growing (Loaded writable enc policyId n reads h p) :=
  fun log e hload => ⟨growing_basis h p log e hload.basis,
    growing_calledAt n _ h log e hload.called, hload.found,
    fun hundisturbed => hload.agrees (hundisturbed.of_concat log e)⟩

theorem load_establishes (hM : Growing M) (reads : Reads) :
    (policyDiscipline F).Establishes n (fun log => M log ∧ SawAll n reads log)
      (PolicyProg.load policyId)
      fun result log => ∃ snapshot, result = .ok snapshot ∧ ∃ h p, Shows p h snapshot ∧
        M log ∧ Loaded writable enc policyId n reads h p log := by
  refine .call (I := policyPorts) (c := PolicyCall.load policyId) (fun r => r)
    ((hM.lasting n).and (lasting_sawAll n reads)) ?_ ?_
  · rintro w hw ⟨hm, hsaw⟩ reply state performs
    cases performs
    obtain ⟨p, hp⟩ := hw.basis
    refine ⟨hw.quiet fun _ _ _ _ _ h => (by cases h), ?_⟩
    have hf : ∀ l d, (l, some d) ∈ reads → l.inPolicy p = some d := by
      intro l d hread
      exact (inPolicy_eq_some hp.folds l d).mpr (hsaw _ hread)
    have hload : Loaded writable enc policyId n reads (recorded w.log) p
        (w.log ++ [.called n (.load policyId) (store.load w.state policyId)]) := by
      refine ⟨growing_basis _ p _ _ hp, calledAt_concat n _ _ _, hf, ?_⟩
      rintro hundisturbed ⟨l, found⟩ hread
      cases found with
      | some d => exact (hf l d hread).symm
      | none =>
        -- A decision that matches now would have come between the look-up and this load.
        have htimely := (everyEntry_concat.mp hundisturbed.timely).2 l (hsaw _ hread)
        symm
        rw [Option.eq_none_iff_forall_ne_some]
        intro d hd
        obtain ⟨hrecorded, hfinds⟩ := (inPolicy_eq_some hp.folds l d).mp hd
        exact htimely d hrecorded hfinds
    rcases F.load hw.holds hp.folds with ⟨hempty, hrep⟩ | ⟨q, hrep, hq⟩
    · exact ⟨none, hrep, _, p, .inl ⟨hempty, rfl⟩, hM _ _ hm, hload⟩
    · exact ⟨_, hrep, _, p, .inr ⟨q, rfl, hq⟩, hM _ _ hm, hload⟩
  · intro result
    refine Growing.lasting ?_ n
    refine .exists_ fun snapshot => .and (.const _) ?_
    exact .exists_ fun h => .exists_ fun p => .and (.const _) (hM.and (growing_loaded h p))

theorem clock_establishes (hM : Growing M) :
    (policyDiscipline F).Establishes n M PolicyProg.now
      fun result log => ∃ instant, result = .ok instant ∧ M log ∧
        .called n PolicyCall.now instant ∈ log := by
  refine .call (I := policyPorts) (c := PolicyCall.now) Except.ok (hM.lasting n) ?_ ?_
  · intro w hw hm reply state performs
    cases performs
    exact ⟨hw.quiet fun _ _ _ _ _ h => (by cases h), _, rfl, hM _ _ hm, by simp⟩
  · intro result
    exact (Growing.exists_ fun instant => (Growing.const _).and (hM.and (.mem _))).lasting n

theorem now_establishes (hM : Growing M) :
    (policyDiscipline F).Establishes n M PolicyProg.now
      fun result log => ∃ instant, result = .ok instant ∧ M log :=
  (clock_establishes hM).conseq (fun _ hlog => hlog)
    fun _ _ ⟨instant, hresult, hm, _⟩ => ⟨instant, hresult, hm⟩

/-! ## Recording an event -/

/-- The event is accepted on the policy, if the decision in it is valid and its id is its own. -/
def Fits (enc : DecisionEncoding) (h : List AuthorizationPolicyEvent) (p : AuthorizationPolicy)
    (event : AuthorizationPolicyEvent) : Prop :=
  (∀ d, event.decision? = some d → d.request.validate = .ok () ∧
    ∀ d' ∈ decisionsOf h, d'.id = d.id → d'.request.id = d.request.id) →
  ∃ next, p.apply enc event = .ok next

/-- An event that was decided on a past policy. -/
structure Proposed (writable : AuthorizationPolicyEvent → Bool) (enc : DecisionEncoding)
    (policyId : AuthorizationPolicyId) (h : List AuthorizationPolicyEvent)
    (p : AuthorizationPolicy) (event : AuthorizationPolicyEvent) (log : PolicyLog) : Prop where
  basis : Basis enc policyId log h p
  own : event.policyId = policyId
  opened : event.isDecision = true → p.id = some policyId
  fits : Undisturbed writable log → Fits enc h p event

theorem growing_proposed (h : List AuthorizationPolicyEvent) (p : AuthorizationPolicy)
    (event : AuthorizationPolicyEvent) : Growing (Proposed writable enc policyId h p event) :=
  fun log e hprop => ⟨growing_basis h p log e hprop.basis, hprop.own,
    hprop.opened, fun hundisturbed => hprop.fits (hundisturbed.of_concat log e)⟩

/-- The first event opens the policy, and the others leave its id alone. -/
theorem id_after_apply {next : AuthorizationPolicy} (hp : p = .empty ∨ p.id ≠ none)
    (hopen : event.isDecision = true → p.id ≠ none) (h : p.apply enc event = .ok next) :
    next.id = some event.policyId := by
  obtain ⟨hown, -⟩ := apply_eq_ok.mp h
  have hstays : p.id ≠ none → p.id = some event.policyId := by
    intro hid
    obtain ⟨id, hid⟩ := Option.ne_none_iff_exists'.mp hid
    rw [hid, hown id hid]
  cases applied_of_apply h with
  | opened => rfl
  | grantIssued isOpen => exact hstays isOpen
  | grantRevoked held =>
    rcases hp with rfl | hid
    · simp [empty] at held
    · exact hstays hid
  | decisionRecorded => exact hstays (hopen rfl)

variable {reply : Result AuthorizationPolicyAppendOutcome}

theorem recordedBy_of_not_appended {id : AuthorizationPolicyId}
    {expected : AuthorizationPolicyVersion} (h : ∀ version, reply ≠ .ok (.appended version)) :
    recordedBy (.called k (.append id expected events) reply) = [] := by
  cases reply with
  | error => rfl
  | ok outcome =>
    cases outcome with
    | appended version => exact absurd rfl (h version)
    | conflict => rfl

section Append

variable {w : World policyPorts store.State PolicyInput} {h : List AuthorizationPolicyEvent}

theorem PolicyInvariant.append_holds (hw : PolicyInvariant F w)
    (hprop : Proposed writable enc policyId h p event w.log)
    (expected : AuthorizationPolicyVersion) :
    let reply := (store.append w.state policyId expected [event]).1
    let log := w.log ++ [.called n (.append policyId expected [event]) reply]
    F.Holds (store.append w.state policyId expected [event]).2 (recorded log) ∧
      ∀ q, rehydrate enc (recorded log) = .ok q → recorded log = [] ∨ q.id = some policyId := by
  obtain ⟨current, hcur⟩ := hw.basis
  intro reply log
  rcases F.append hw.holds hcur.folds expected event with
    ⟨version, next, hrep, happ, hholds⟩ | ⟨hrep, hholds⟩
  · have hrecorded : recorded log = recorded w.log ++ [event] := by
      simp only [log, reply, hrep, recorded_concat, recordedBy]
    rw [hrecorded]
    refine ⟨hholds, fun q hq => .inr ?_⟩
    obtain ⟨current', hcurrent', happly'⟩ := rehydrate_concat_eq_ok.mp hq
    cases hcur.folds.symm.trans hcurrent'
    rw [← hprop.own]
    refine id_after_apply ?_ ?_ happly'
    · exact hcur.empty_or_opened.imp_right fun hid => by simp [hid]
    · intro hdec
      -- The decision was made on an open policy, and a policy stays open.
      rcases hcur.opened with hempty | hid
      · have hpast := hprop.basis.past
        rw [hempty, prefix_nil] at hpast
        have hfolds := hprop.basis.folds
        rw [hpast] at hfolds
        cases hfolds
        cases hprop.opened hdec
      · simp [hid]
  · have hrecorded : recorded log = recorded w.log := by
      simp only [log, recorded_concat, recordedBy_of_not_appended hrep, reply, append_nil]
    rw [hrecorded]
    exact ⟨hholds, hw.opened⟩

theorem PolicyInvariant.append_accepts (hw : PolicyInvariant F w)
    (hprop : Proposed writable enc policyId h p event w.log)
    (hundisturbed : Undisturbed writable
      (w.log ++ [.called n (.append policyId p.version [event]) reply]))
    (hver : p.version = (recorded w.log).length) :
    ∃ version, (store.append w.state policyId p.version [event]).1 = .ok (.appended version) := by
  have hpre := hundisturbed.of_concat _ _
  have hpast := hprop.basis.past
  have hlen : h.length ≤ i64Max := hpast.length_le.trans hpre.room.le
  have heq : h = recorded w.log := by
    refine hpast.eq_of_length ?_
    rw [← hver]
    exact (version_of_room hprop.basis.folds hlen).symm
  have hoffered : event ∈ offered
      (w.log ++ [.called n (.append policyId p.version [event]) reply]) := by
    rw [offered_concat]
    exact mem_append_right _ (mem_singleton_self event)
  obtain ⟨next, hnext⟩ := hprop.fits hpre (by
    intro d hd
    have hmem := mem_decisionsOf.mpr ⟨event, hoffered, hd⟩
    refine ⟨hundisturbed.valid d hmem, fun d' hd' hid => hundisturbed.distinct d' ?_ d hmem hid⟩
    obtain ⟨event', hevent', hd'⟩ := mem_decisionsOf.mp hd'
    refine mem_decisionsOf.mpr ⟨event', ?_, hd'⟩
    rw [offered_concat]
    exact mem_append_left _ (recorded_subset_offered _ (hpast.subset hevent')))
  rw [hver]
  refine F.accepts hw.holds (heq ▸ hprop.basis.folds) event hnext hprop.own ?_
    hpre.room (hundisturbed.written event hoffered)
  intro hdec
  simp [hprop.opened hdec]

/-- An append keeps the invariant, and fails in a disturbed log only. -/
theorem PolicyInvariant.append (hw : PolicyInvariant F w)
    (hprop : Proposed writable enc policyId h p event w.log) :
    let reply := (store.append w.state policyId p.version [event]).1
    let entry := Event.called (I := policyPorts) (ι := PolicyInput) n
      (.append policyId p.version [event]) reply
    PolicyInvariant F ⟨(store.append w.state policyId p.version [event]).2, w.log ++ [entry]⟩ ∧
      ∀ fault, reply = .error fault → ¬ Undisturbed writable (w.log ++ [entry]) := by
  intro reply entry
  obtain ⟨hholds, hopened⟩ := hw.append_holds (n := n) hprop p.version
  refine ⟨⟨hholds, hopened, ?_⟩, ?_⟩
  · intro hundisturbed
    refine everyEntry_concat.mpr ⟨hw.accepts (hundisturbed.of_concat _ _), ?_⟩
    exact hw.append_accepts hprop hundisturbed
  · intro fault hfault hundisturbed
    by_cases hver : p.version = (recorded w.log).length
    · obtain ⟨version, hrep⟩ := hw.append_accepts hprop hundisturbed hver
      cases hfault.symm.trans hrep
    · obtain ⟨actual, hrep⟩ :=
        F.conflicts hw.holds p.version event hprop.own hver
      cases hfault.symm.trans hrep

end Append

/-- How an attempt ends: with an answer, with one more conflict, or with a fault. -/
def Attempted {α : Type} (n k : Nat) (A : α → PolicyLog → Prop)
    (E : Fault DomainError → PolicyLog → Prop) : Result (Option α) → PolicyLog → Prop
  | .ok (some a), log => A a log
  | .ok none, log => k + 1 ≤ conflictsOf n log
  | .error fault, log => E fault log

theorem growing_attempted {α : Type} {A : α → PolicyLog → Prop} (hA : ∀ a, Growing (A a))
    (hE : ∀ fault, Growing (E fault)) (result : Result (Option α)) :
    Growing (Attempted n k A E result) := by
  cases result with
  | error fault => exact hE fault
  | ok answer =>
    cases answer with
    | some a => exact hA a
    | none => exact growing_conflicts n (k + 1)

theorem record_establishes {α : Type} {answer : AuthorizationPolicyVersion → α} :
    (policyDiscipline F).Establishes n
      (fun log => k ≤ conflictsOf n log ∧ Proposed writable enc policyId h p event log)
      (record policyId p.version event answer)
      (Attempted n k (fun a log => event ∈ recorded log ∧ ∃ version, a = answer version)
        fun _ log => ¬ Undisturbed writable log) := by
  have hmem : Growing fun log : PolicyLog => event ∈ recorded log := by
    intro log e hev
    rw [recorded_concat]
    exact mem_append_left _ hev
  let Q : Result AuthorizationPolicyAppendOutcome → PolicyLog → Prop := fun reply log =>
    match reply with
    | .ok (.appended _) => event ∈ recorded log
    | .ok (.conflict _ _) => k + 1 ≤ conflictsOf n log
    | .error _ => ¬ Undisturbed writable log
  have hQ : ∀ reply, Growing (Q reply) := by
    intro reply
    match reply with
    | .ok (.appended _) => exact hmem
    | .ok (.conflict _ _) => exact growing_conflicts n (k + 1)
    | .error _ => exact growing_disturbed
  have happend : (policyDiscipline F).Establishes n
      (fun log => k ≤ conflictsOf n log ∧ Proposed writable enc policyId h p event log)
      (PolicyProg.append policyId p.version [event]) Q := by
    refine .call (I := policyPorts) (c := PolicyCall.append policyId p.version [event])
      (fun r => r) (((growing_conflicts n k).and (growing_proposed h p event)).lasting n) ?_
      fun reply => (hQ reply).lasting n
    rintro w hw ⟨hk, hprop⟩ reply state performs
    cases performs
    obtain ⟨hinv, hfault⟩ := hw.append (n := n) hprop
    refine ⟨hinv, ?_⟩
    generalize (store.append w.state policyId p.version [event]).1 = reply at hfault ⊢
    match reply with
    | .ok (.appended version) =>
      change event ∈ recorded _
      rw [recorded_concat]
      exact mem_append_right _ (mem_singleton_self event)
    | .ok (.conflict expected actual) =>
      change k + 1 ≤ conflictsOf n _
      rw [conflictsOf_concat]
      simpa [isConflictOf] using hk
    | .error fault => exact hfault fault rfl
  refine .bind happend (fun e => (hQ (.error e)).lasting n) ?_ fun e log hlog => hlog
  intro outcome
  cases outcome with
  | appended version =>
    exact .pure (hmem.lasting n) fun w _ hw => ⟨hw, version, rfl⟩
  | conflict => exact .pure ((growing_conflicts n (k + 1)).lasting n) fun w _ hw => hw

/-- How a loop of attempts ends: an attempt answered or failed, or there were too many conflicts. -/
def Ended {α : Type} (n k : Nat) (A : α → PolicyLog → Prop)
    (E : Fault DomainError → PolicyLog → Prop) : Result α → PolicyLog → Prop
  | .ok a, log => A a log
  | .error fault, log =>
    E fault log ∨ (fault = .refused policyConflict ∧ k ≤ conflictsOf n log)

theorem growing_ended {α : Type} {A : α → PolicyLog → Prop} (hA : ∀ a, Growing (A a))
    (hE : ∀ fault, Growing (E fault)) (result : Result α) : Growing (Ended n k A E result) := by
  cases result with
  | ok a => exact hA a
  | error fault => exact (hE fault).or ((Growing.const _).and (growing_conflicts n k))

/-- One conflict for each turn that gave no answer. -/
theorem retrying_establishes {α : Type} {attempt : PolicyProg (Option α)} {A : α → PolicyLog → Prop}
    (hM : Growing M) (hA : ∀ a, Growing (A a)) (hE : ∀ fault, Growing (E fault))
    (hatt : ∀ k, (policyDiscipline F).Establishes n
      (fun log => M log ∧ k ≤ conflictsOf n log) attempt (Attempted n k A E)) (turns k : Nat) :
    (policyDiscipline F).Establishes n (fun log => M log ∧ k ≤ conflictsOf n log)
      (retrying attempt turns) (Ended n (k + turns) A E) := by
  induction turns generalizing k with
  | zero =>
    exact Discipline.Triple.pure ((hM.and (growing_conflicts n k)).lasting n).stable
      fun w _ hw => .inr ⟨rfl, hw.2⟩
  | succ turns ih =>
    have hgrow := fun result => (growing_attempted (n := n) (k := k) hA hE result).and hM
    refine .bind (((hatt k).frame hM).strengthen fun log hlog => ⟨hlog, hlog.1⟩)
      (fun e => (hgrow (.error e)).lasting n) ?_ fun e log hlog => .inl hlog.1
    intro answer
    cases answer with
    | some a => exact .pure ((hgrow (.ok (some a))).lasting n) fun w _ hw => hw.1
    | none =>
      have hrest := ih (k + 1)
      rw [Nat.add_right_comm] at hrest
      exact hrest.strengthen fun log hlog => hlog.symm

end Discipline

end Made
