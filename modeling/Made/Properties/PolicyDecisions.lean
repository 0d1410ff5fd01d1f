import Made.Authorization.Conduct

/-!
# One decision for each request

Any number of calls authorize operations on one policy, continue accepted work and administer the
policy, interleaved at their calls of a store in memory or in SQLite.
-/

namespace Made

open Interleaving Outcome
open AuthorizationPolicy hiding id

section Calls

variable {writable : AuthorizationPolicyEvent → Bool} {store : PolicyStore}
  {enc : DecisionEncoding} {policyId : AuthorizationPolicyId}
  {F : store.Faithful enc policyId writable} {n k : Nat} {M : PolicyLog → Prop}
  {ttl : AuthorizationDecisionTtl} {request : AuthorizationRequest} {p : AuthorizationPolicy}
  {h : List AuthorizationPolicyEvent}

/-! ## Deciding on a request -/

/-- A decision on another request has the id; or at one of the loads of the call there was no
decision on the request, and the policy as it was then refuses, at an instant that the call read
unless there was no policy at all. -/
def Refused (enc : DecisionEncoding) (policyId : AuthorizationPolicyId) (n : Nat)
    (request : AuthorizationRequest)
    (merits : AuthorizationPolicy → OffsetDateTime → Result AuthorizationDecisionPlan)
    (fault : Fault DomainError) (log : PolicyLog) : Prop :=
  (∃ d, Found d log ∧ d.request.id = request.id ∧ d.request ≠ request) ∨
    ∃ h p now, CalledAt n (.load policyId) h log ∧ rehydrate enc h = .ok p ∧
      (∀ d ∈ decisionsOf h, d.request.id ≠ request.id) ∧
      (h = [] ∨ .called n PolicyCall.now now ∈ log) ∧ merits p now = .error fault

def RequestSettled (writable : AuthorizationPolicyEvent → Bool) (enc : DecisionEncoding)
    (policyId : AuthorizationPolicyId) (n : Nat) (request : AuthorizationRequest)
    (merits : AuthorizationPolicy → OffsetDateTime → Result AuthorizationDecisionPlan) :
    Result AuthorizationDecision → PolicyLog → Prop :=
  Ended n maxConflictRetries (fun d log => Found d log ∧ d.request = request)
    fun fault log => Undisturbed writable log → Refused enc policyId n request merits fault log

def Reads.Agree (reads : Reads) (p : AuthorizationPolicy) : Prop :=
  ∀ read ∈ reads, read.2 = read.1.inPolicy p

/-- The decision that a policy knows as the approval of a request. -/
def approvalIn (p : AuthorizationPolicy) (request : AuthorizationRequest) :
    Option AuthorizationDecision :=
  request.approvalDecisionId.bind fun id => p.decisionsById[id]?

/-- The decision that a policy knows as the one that accepted the work of a request. -/
def acceptedIn (p : AuthorizationPolicy) (request : AuthorizationRequest) :
    Option AuthorizationDecision :=
  request.acceptedWorkDecisionId.bind fun id => p.decisionsById[id]?

/-- What the two ways to decide on a request have in common. -/
structure DecidesOn (enc : DecisionEncoding) (request : AuthorizationRequest) (reads : Reads)
    (merits decide_ : AuthorizationPolicy → OffsetDateTime → Result AuthorizationDecisionPlan) :
    Prop where
  projected : ∀ p now, decide_ (p.projected p.version) now = decide_ p now
  unopened : ∀ now, merits .empty now = .error (.refused policyNotFound)
  replays : ∀ {p now plan}, p.Sound → decide_ p now = .ok plan → plan.event = none →
    (.request request.id, some plan.decision) ∈ reads ∧ plan.decision.request = request
  records : ∀ {p now plan event}, p.Sound → decide_ p now = .ok plan → plan.event = some event →
    plan.decision.request = request ∧
      (∃ id, p.id = some id ∧ event = .decisionRecorded id plan.decision) ∧
      (reads.Agree p → p.decisionsByRequest[request.id]? = none ∧
        Stands enc p plan.decision (approvalIn p request) (acceptedIn p request))
  faults : ∀ {p now fault}, decide_ p now = .error fault → reads.Agree p →
    (p.id = none → p.decisionsByRequest[request.id]? = none) →
    (∃ d, p.decisionsByRequest[request.id]? = some d ∧ d.request ≠ request) ∨
      (p.decisionsByRequest[request.id]? = none ∧ merits p now = .error fault)

section Deciding

variable {reads : Reads} {existing : Option AuthorizationDecision}
  {merits decide_ : AuthorizationPolicy → OffsetDateTime → Result AuthorizationDecisionPlan}
  {now : OffsetDateTime} {log : PolicyLog}

theorem growing_unless_refused (fault : Fault DomainError) :
    Growing fun log =>
      Undisturbed writable log → Refused enc policyId n request merits fault log := by
  refine .imp Undisturbed.of_concat ?_
  refine .or (.exists_ fun d => (growing_found d).and (.const _)) ?_
  exact .exists_ fun h => .exists_ fun p => .exists_ fun now => (growing_calledAt n _ h).and
    (.and (.const _) (.and (.const _) (.and (.or (.const _) (.mem _)) (.const _))))

theorem growing_found_for (request : AuthorizationRequest) (d : AuthorizationDecision) :
    Growing fun log => Found d log ∧ d.request = request :=
  (growing_found d).and (.const _)

theorem growing_requestSettled (result : Result AuthorizationDecision) :
    Growing (RequestSettled writable enc policyId n request merits result) :=
  growing_ended (growing_found_for request) growing_unless_refused result

/-- A request that was found decided is answered again; another one is decided by the policy. -/
theorem DecidesOn.of_lookUp
    (projected : ∀ p now, decide_ (p.projected p.version) now = decide_ p now)
    (unopened : ∀ now, merits .empty now = .error (.refused policyNotFound))
    (read : (.request request.id, existing) ∈ reads)
    (again : ∀ d p now, existing = some d →
      decide_ p now = okOr p.id policyNotFound >>= fun _ => replay request d)
    (first : ∀ p now plan, existing = none → p.Sound → decide_ p now = .ok plan →
      plan.decision.request = request ∧
        (∃ id, p.id = some id ∧ plan.event = some (.decisionRecorded id plan.decision)) ∧
        (reads.Agree p → Stands enc p plan.decision (approvalIn p request) (acceptedIn p request)))
    (alone : ∀ p now, existing = none → reads.Agree p → decide_ p now = merits p now) :
    DecidesOn enc request reads merits decide_ where
  projected := projected
  unopened := unopened
  replays {p now plan} hsound hplan hev := by
    cases existing with
    | some d =>
      rw [again d p now rfl, bind_eq_ok] at hplan
      obtain ⟨-, -, hplan⟩ := hplan
      obtain ⟨hreq, rfl⟩ := replay_eq_ok hplan
      exact ⟨read, hreq⟩
    | none =>
      obtain ⟨-, ⟨_, -, hrecorded⟩, -⟩ := first p now plan rfl hsound hplan
      cases hev.symm.trans hrecorded
  records {p now plan event} hsound hplan hev := by
    cases existing with
    | some d =>
      rw [again d p now rfl, bind_eq_ok] at hplan
      obtain ⟨-, -, hplan⟩ := hplan
      obtain ⟨-, rfl⟩ := replay_eq_ok hplan
      cases hev
    | none =>
      obtain ⟨hreq, ⟨id, hid, hrecorded⟩, hstands⟩ := first p now plan rfl hsound hplan
      refine ⟨hreq, ⟨id, hid, Option.some.inj (hev.symm.trans hrecorded)⟩, fun hagree => ?_⟩
      exact ⟨(hagree _ read).symm, hstands hagree⟩
  faults {p now fault} hfault hagree hempty := by
    have hex : existing = p.decisionsByRequest[request.id]? := hagree _ read
    cases existing with
    | none => exact .inr ⟨hex.symm, (alone p now rfl hagree).symm.trans hfault⟩
    | some d =>
      refine .inl ⟨d, hex.symm, fun hreq => ?_⟩
      cases hid : p.id with
      | none =>
        rw [hempty hid] at hex
        cases hex
      | some policyId =>
        rw [again d p now rfl, hid] at hfault
        change replay request d = _ at hfault
        rw [replay, if_pos hreq] at hfault
        cases hfault

theorem loadPresent_establishes (hM : Growing M) (reads : Reads) :
    (policyDiscipline F).Establishes n (fun log => M log ∧ SawAll n reads log)
      (loadPresent policyId)
      fun result log =>
        match result with
        | .ok snapshot =>
          ∃ h p q, (snapshot = ⟨p.version, q⟩ ∧ (q = p ∨ q = p.projected p.version)) ∧
            M log ∧ Loaded writable enc policyId n reads h p log
        | .error fault =>
          fault = .refused policyNotFound ∧ CalledAt n (.load policyId) [] log := by
  refine .bindOk (load_establishes hM reads) fun snapshot => ?_
  refine .exists fun h => .exists fun p => .assuming fun hshows => ?_
  have hgrow : Growing fun log => M log ∧ Loaded writable enc policyId n reads h p log :=
    hM.and (growing_loaded h p)
  rcases hshows with ⟨rfl, rfl⟩ | ⟨q, rfl, hq⟩
  · exact Discipline.Triple.pure (hgrow.lasting n).stable fun w _ hw => ⟨rfl, hw.2.called⟩
  · exact Discipline.Triple.pure (hgrow.lasting n).stable fun w _ hw => ⟨h, p, q, ⟨rfl, hq⟩, hw⟩

/-- What was decided on the policy fits it, when the reads before the load agree with it. -/
theorem proposed_of_records (hd : DecidesOn enc request reads merits decide_)
    {plan : AuthorizationDecisionPlan} {event : AuthorizationPolicyEvent}
    (hplan : decide_ p now = .ok plan) (hev : plan.event = some event)
    (hload : Loaded writable enc policyId n reads h p log) :
    (event = .decisionRecorded policyId plan.decision ∧ plan.decision.request = request) ∧
      Proposed writable enc policyId h p event log := by
  have hrecounts := recounts_of_rehydrate hload.basis.folds
  obtain ⟨hreq, ⟨id, hid, rfl⟩, hstands⟩ := hd.records hrecounts.sound hplan hev
  obtain rfl := hload.basis.own hid
  refine ⟨⟨rfl, hreq⟩, hload.basis, rfl, fun _ => hid, ?_⟩
  intro hundisturbed hval
  obtain ⟨hval, hdistinct⟩ := hval plan.decision rfl
  obtain ⟨hnew, hstands⟩ := hstands (hload.agrees hundisturbed)
  subst hreq
  refine apply_of_stands hid hstands hval hnew ?_
  rw [Option.eq_none_iff_forall_ne_some]
  intro d hf
  obtain ⟨hd', hsame⟩ := (hrecounts.byId _ d).mp hf
  have hreq := (hrecounts.byRequest plan.decision.request.id d).mpr ⟨hd', hdistinct d hd' hsame⟩
  rw [hnew] at hreq
  cases hreq

theorem refused_of_fault (hd : DecidesOn enc request reads merits decide_)
    {fault : Fault DomainError} (hfault : decide_ p now = .error fault)
    (hload : Loaded writable enc policyId n reads h p log)
    (hnow : .called n PolicyCall.now now ∈ log) (hundisturbed : Undisturbed writable log) :
    Refused enc policyId n request merits fault log := by
  have hrecounts := recounts_of_rehydrate hload.basis.folds
  have hempty : p.id = none → p.decisionsByRequest[request.id]? = none := by
    intro hid
    rcases hload.basis.empty_or_opened with rfl | hopened
    · simp [empty]
    · rw [hid] at hopened
      cases hopened
  rcases hd.faults hfault (hload.agrees hundisturbed) hempty with
    ⟨d, hf, ho⟩ | ⟨hnew, hmerits⟩
  · obtain ⟨hmem, hid⟩ := (hrecounts.byRequest _ d).mp hf
    exact .inl ⟨d, found_of_past hload.basis.past hmem, hid, ho⟩
  · refine .inr ⟨h, p, now, hload.called, hload.basis.folds, ?_, .inr hnow, hmerits⟩
    intro d hmem hid
    rw [(hrecounts.byRequest _ d).mpr ⟨hmem, hid⟩] at hnew
    cases hnew

/-- The end of an attempt: load, read the clock, decide, record. -/
theorem deciding_establishes (hd : DecidesOn enc request reads merits decide_) :
    (policyDiscipline F).Establishes n (fun log => k ≤ conflictsOf n log ∧ SawAll n reads log)
      (loadPresent policyId >>= fun snapshot => PolicyProg.now >>= fun now =>
        PolicyProg.check (decide_ snapshot.policy now) >>= fun plan =>
          recordPlan policyId snapshot.version plan)
      (Attempted n k (fun d log => Found d log ∧ d.request = request)
        fun fault log =>
          Undisturbed writable log → Refused enc policyId n request merits fault log) := by
  refine .bind (loadPresent_establishes (growing_conflicts n k) reads) ?_ ?_ ?_
  · exact fun fault => ((Growing.const _).and (growing_calledAt n _ [])).lasting n
  · intro snapshot
    refine .exists fun h => .exists fun p => .exists fun q => .assuming ?_
    rintro ⟨rfl, hq⟩
    have hload : Growing fun log =>
        k ≤ conflictsOf n log ∧ Loaded writable enc policyId n reads h p log :=
      (growing_conflicts n k).and (growing_loaded h p)
    refine .bindOk (clock_establishes hload) fun now => ?_
    have hgrow := hload.and (.mem (.called n PolicyCall.now now))
    have hdecide : decide_ q now = decide_ p now := by
      rcases hq with rfl | rfl
      · rfl
      · exact hd.projected p now
    refine .check (hgrow.lasting n) ?_ ?_
    · intro plan hplan
      rw [hdecide] at hplan
      unfold recordPlan
      split
      · rename_i hev
        refine .given (fun log hlog => (recounts_of_rehydrate hlog.1.2.basis.folds).sound) ?_
        intro hsound
        obtain ⟨hread, hreq⟩ := hd.replays hsound hplan hev
        refine .pure (hgrow.lasting n) fun w _ hw => ⟨?_, hreq⟩
        have hloaded := hw.1.2
        have hf := (inPolicy_eq_some hloaded.basis.folds _ _).mp (hloaded.found _ _ hread)
        exact found_of_past hloaded.basis.past hf.1
      · rename_i event hev
        refine .given (fun log hlog => (proposed_of_records hd hplan hev hlog.1.2).1) ?_
        rintro ⟨rfl, hreq⟩
        refine Discipline.Establishes.conseq (record_establishes (h := h) (k := k)) ?_ ?_
        · rintro log ⟨⟨hk, hload⟩, -⟩
          exact ⟨hk, (proposed_of_records hd hplan hev hload).2⟩
        · intro result log hlog
          match result with
          | .ok (some d) =>
            obtain ⟨hmem, -, rfl⟩ := hlog
            exact ⟨mem_decisionsOf.mpr ⟨_, hmem, rfl⟩, hreq⟩
          | .ok none => exact hlog
          | .error fault => exact fun hundisturbed => absurd hundisturbed hlog
    · intro fault hfault w _ hw
      rw [hdecide] at hfault
      exact refused_of_fault hd hfault hw.1.2 hw.2
  · rintro fault log ⟨rfl, hcalled⟩ -
    refine .inr ⟨[], .empty, ⟨0, by decide⟩, hcalled, rfl, ?_, .inl rfl, hd.unopened _⟩
    intro d hmem
    cases hmem

end Deciding

/-! ## Authorizing -/

namespace AuthorizeOperation

variable {existing approval : Option AuthorizationDecision}

/-- What the policy alone says to a request. -/
def merits (enc : DecisionEncoding) (ttl : AuthorizationDecisionTtl)
    (request : AuthorizationRequest) (p : AuthorizationPolicy) (now : OffsetDateTime) :
    Result AuthorizationDecisionPlan :=
  p.decideAuthorize enc request now ttl

def readsOf (request : AuthorizationRequest) (existing approval : Option AuthorizationDecision) :
    Reads :=
  match request.approvalDecisionId with
  | some id => [(.decision id, approval), (.request request.id, existing)]
  | none => [(.request request.id, existing)]

theorem readsOf_agree (hnone : request.approvalDecisionId = none → approval = none)
    (h : (readsOf request existing approval).Agree p) : approval = approvalIn p request := by
  unfold readsOf at h
  rw [approvalIn]
  split at h
  · rename_i id hid
    rw [hid]
    exact h (.decision id, approval) (by simp)
  · rename_i hid
    rw [hid]
    exact hnone hid

theorem mem_readsOf : (.request request.id, existing) ∈ readsOf request existing approval := by
  unfold readsOf
  split
  · simp
  · simp

theorem decidesOn (hnone : request.approvalDecisionId = none → approval = none) :
    DecidesOn enc request (readsOf request existing approval) (merits enc ttl request)
      fun p now => p.decideAuthorizeWithDecisions enc request existing approval now ttl := by
  refine .of_lookUp (fun p now => decideAuthorize_projected p request existing approval now ttl)
    (fun _ => rfl) mem_readsOf ?_ ?_ ?_
  · rintro d p now rfl
    rfl
  · rintro p now plan rfl hsound hplan
    obtain ⟨hreq, hid, hstands⟩ := decideAuthorize_stands hsound hplan (acceptedIn p request)
    refine ⟨hreq, hid, fun hagree => ?_⟩
    rw [← readsOf_agree hnone hagree]
    exact hstands
  · rintro p now rfl hagree
    have hnew : none = p.decisionsByRequest[request.id]? := hagree _ mem_readsOf
    rw [merits, decideAuthorize, ← hnew, ← approvalIn, ← readsOf_agree hnone hagree]

end AuthorizeOperation

section Authorizing

open AuthorizeOperation

theorem approval_establishes (hM : Growing M) (existing : Option AuthorizationDecision) :
    (policyDiscipline F).Establishes n
      (fun log => M log ∧ SawAll n [(.request request.id, existing)] log)
      (approval policyId request)
      fun result log => ∃ approval, result = .ok approval ∧
        (request.approvalDecisionId = none → approval = none) ∧
          M log ∧ SawAll n (readsOf request existing approval) log := by
  unfold approval
  split
  · rename_i id hid
    refine (lookUp_establishes hM _ (.decision id)).conseq (fun log hlog => hlog) ?_
    rintro result log ⟨found, rfl, ⟨hm, hsaw⟩, -⟩
    refine ⟨found, rfl, fun hnone => ?_, hm, ?_⟩
    · rw [hid] at hnone
      cases hnone
    · simpa only [readsOf, hid] using hsaw
  · rename_i hid
    refine .pure ((hM.lasting n).and (lasting_sawAll n _)) fun w _ hw => ?_
    refine ⟨none, rfl, fun _ => rfl, hw.1, ?_⟩
    simpa only [readsOf, hid] using hw.2

theorem authorize_attempt_establishes (ttl : AuthorizationDecisionTtl) (k : Nat) :
    (policyDiscipline F).Establishes n (fun log => True ∧ k ≤ conflictsOf n log)
      (AuthorizeOperation.attempt enc policyId ttl request)
      (Attempted n k (fun d log => Found d log ∧ d.request = request)
        fun fault log => Undisturbed writable log →
          Refused enc policyId n request (merits enc ttl request) fault log) := by
  have hgrow := growing_conflicts n k
  refine .bindOk ((lookUp_establishes hgrow [] (.request request.id)).strengthen
    fun log hlog => ⟨hlog.2, sawAll_nil⟩) fun existing => ?_
  refine .bindOk ((approval_establishes hgrow existing).strengthen fun log hlog => hlog.1)
    fun approval => ?_
  exact .assuming fun hnone => deciding_establishes (decidesOn hnone)

theorem authorize_decide_establishes :
    (policyDiscipline F).Establishes n (fun _ => True)
      (AuthorizeOperation.decide enc policyId ttl request)
      (RequestSettled writable enc policyId n request (merits enc ttl request)) := by
  have hloop := retrying_establishes (F := F) (n := n) (M := fun _ => True) (.const _)
    (growing_found_for request) growing_unless_refused
    (fun k => authorize_attempt_establishes ttl k) maxConflictRetries 0
  rw [Nat.zero_add] at hloop
  exact hloop.strengthen fun log _ => ⟨trivial, Nat.zero_le _⟩

/-- The outcome that a decision has, at one instant if it allows. -/
def AuthorizationGateOutcome.IsVerdictOf (outcome : AuthorizationGateOutcome)
    (d : AuthorizationDecision) : Prop :=
  (d.kind = .deny ∧ outcome = .denied d) ∨ (d.kind ≠ .deny ∧ ∃ now, outcome = .of d now)

/-- How a call that authorizes a request ends: with the verdict of the recorded decision. -/
def Gated (writable : AuthorizationPolicyEvent → Bool) (enc : DecisionEncoding)
    (policyId : AuthorizationPolicyId) (n : Nat) (ttl : AuthorizationDecisionTtl)
    (request : AuthorizationRequest) :
    Result AuthorizationGateOutcome → PolicyLog → Prop
  | .ok outcome, log => ∃ d, (Found d log ∧ d.request = request) ∧ outcome.IsVerdictOf d
  | .error fault, log =>
    RequestSettled writable enc policyId n request (merits enc ttl request) (.error fault) log

theorem growing_gated (result : Result AuthorizationGateOutcome) :
    Growing (Gated writable enc policyId n ttl request result) := by
  cases result with
  | ok outcome => exact .exists_ fun d => (growing_found_for request d).and (.const _)
  | error fault => exact growing_requestSettled (.error fault)

theorem execute_establishes :
    (policyDiscipline F).Establishes n (fun _ => True)
      (AuthorizeOperation.execute enc policyId ttl request)
      (Gated writable enc policyId n ttl request) := by
  refine .bind authorize_decide_establishes
    (fun fault => (growing_requestSettled (.error fault)).lasting n) ?_ fun fault log hlog => hlog
  intro d
  have hgrow := growing_found_for request d
  unfold outcomeOf
  split
  case isTrue hdeny => exact .pure (hgrow.lasting n) fun w _ hw => ⟨d, hw, .inl ⟨hdeny, rfl⟩⟩
  case isFalse hallow =>
    refine .bindOk (now_establishes hgrow) fun now => ?_
    exact .pure (hgrow.lasting n) fun w _ hw => ⟨d, hw, .inr ⟨hallow, now, rfl⟩⟩

/-- The request that a policy has for an operation which is to be admitted again. -/
def AuthorizeOperation.readmittedOn (p : AuthorizationPolicy) (operation : AuthorizedOperation)
    (requestId : AuthorizationRequestId) : Result AuthorizationRequest := do
  let original ← okOr p.decisionsById[operation.evidence.decisionId]?
    (.notFound "authorization_decision")
  readmitted operation requestId original

/-- What a past policy knew; if the call looked a decision up by name, it is the policy then. -/
def Consulted (enc : DecisionEncoding) (policyId : AuthorizationPolicyId) (n : Nat)
    (named : Option AuthorizationDecisionId) (h : List AuthorizationPolicyEvent)
    (p : AuthorizationPolicy) (log : PolicyLog) : Prop :=
  Basis enc policyId log h p ∧ ∀ id ∈ named, CalledAt n (.decision policyId id) h log

/-- A call that makes a request out of what the policy knew, and goes on with the request. -/
def Asked {α β : Type} (enc : DecisionEncoding) (policyId : AuthorizationPolicyId) (n : Nat)
    (named : Option AuthorizationDecisionId) (ask : AuthorizationPolicy → Result α)
    (Q : α → Result β → PolicyLog → Prop) (result : Result β) (log : PolicyLog) : Prop :=
  ∃ h p, Consulted enc policyId n named h p log ∧
    match ask p with
    | .ok a => Q a result log
    | .error fault => result = .error fault

variable {named : Option AuthorizationDecisionId}

theorem growing_consulted (named : Option AuthorizationDecisionId)
    (h : List AuthorizationPolicyEvent) (p : AuthorizationPolicy) :
    Growing (Consulted enc policyId n named h p) :=
  (growing_basis h p).and fun log e hlog id hid => growing_calledAt n _ h log e (hlog id hid)

theorem growing_asked {α β : Type} {ask : AuthorizationPolicy → Result α}
    {Q : α → Result β → PolicyLog → Prop} (hQ : ∀ a result, Growing (Q a result))
    (result : Result β) : Growing (Asked enc policyId n named ask Q result) := by
  refine .exists_ fun h => .exists_ fun p => (growing_consulted named h p).and ?_
  cases ask p with
  | ok a => exact hQ a result
  | error fault => exact .const _

/-- Go on with the request, if there is one. -/
theorem asked_bind {α β : Type} {ask : AuthorizationPolicy → Result α}
    {Q : α → Result β → PolicyLog → Prop} {q : PolicyProg α} {f : α → PolicyProg β}
    (hq : (policyDiscipline F).Establishes n (fun _ => True) q
      fun result log => ∃ h p, ask p = result ∧ Consulted enc policyId n named h p log)
    (hf : ∀ a h p, ask p = .ok a → (policyDiscipline F).Establishes n
      (fun log => Basis enc policyId log h p) (f a) (Q a)) :
    (policyDiscipline F).Establishes n (fun _ => True) (q >>= f)
      (Asked enc policyId n named ask Q) := by
  have hgrow : ∀ h p, Growing (Consulted enc policyId n named h p) := growing_consulted named
  refine .bind hq (fun fault => Growing.lasting (.exists_ fun h => .exists_ fun p =>
    (Growing.const _).and (hgrow h p)) n) ?_ ?_
  · intro a
    refine .exists fun h => .exists fun p => .assuming fun hask => ?_
    refine ((hf a h p hask).frame (hgrow h p)).conseq (fun log hlog => ⟨hlog.1, hlog⟩) ?_
    rintro result log ⟨hres, hknown⟩
    refine ⟨h, p, hknown, ?_⟩
    rw [hask]
    exact hres
  · rintro fault log ⟨h, p, hask, hknown⟩
    refine ⟨h, p, hknown, ?_⟩
    rw [hask]

/-- Look a decision up that has to be there, and compute with it. -/
theorem lookUp_present {α : Type} (id : AuthorizationDecisionId) (error : DomainError)
    (g : AuthorizationDecision → Result α) :
    (policyDiscipline F).Establishes n (fun _ => True)
      (PolicyProg.decision policyId id >>= fun found =>
        PolicyProg.check (okOr found error) >>= fun d => PolicyProg.check (g d))
      fun result log => ∃ h p, (okOr p.decisionsById[id]? error >>= g) = result ∧
        Consulted enc policyId n (some id) h p log := by
  refine .bindOk ((lookUp_establishes (.const True) [] (.decision id)).strengthen
    fun log hlog => ⟨hlog, sawAll_nil⟩) fun found => ?_
  refine Discipline.Establishes.strengthen (P := fun log => ∃ h p,
    found = p.decisionsById[id]? ∧ Consulted enc policyId n (some id) h p log) ?_ ?_
  · refine .exists fun h => .exists fun p => .assuming fun hf => ?_
    have hgrow : Growing (Consulted enc policyId n (some id) h p) := growing_consulted _ h p
    have hlasting := hgrow.lasting n
    cases found with
    | none | some d =>
      refine Discipline.Triple.pure hlasting.stable fun w _ hw => ⟨h, p, ?_, hw⟩
      rw [← hf]
      rfl
  · rintro log ⟨-, h, p, hf, hbasis, hcalled⟩
    refine ⟨h, p, hf, hbasis, fun id' hid => ?_⟩
    cases hid
    exact hcalled

theorem revalidate_establishes (operation : AuthorizedOperation)
    (requestId : AuthorizationRequestId) :
    (policyDiscipline F).Establishes n (fun _ => True)
      (AuthorizeOperation.revalidate enc policyId ttl operation requestId)
      (Asked enc policyId n (some operation.evidence.decisionId)
        (fun p => readmittedOn p operation requestId) (Gated writable enc policyId n ttl)) := by
  have heq : AuthorizeOperation.revalidate enc policyId ttl operation requestId =
      (PolicyProg.decision policyId operation.evidence.decisionId >>= fun found =>
        PolicyProg.check (okOr found (.notFound "authorization_decision")) >>= fun d =>
          PolicyProg.check (readmitted operation requestId d)) >>=
        AuthorizeOperation.execute enc policyId ttl := by
    simp only [AuthorizeOperation.revalidate, bind_assoc]
  rw [heq]
  refine asked_bind (lookUp_present _ _ (readmitted operation requestId)) ?_
  intro request h p hask
  exact execute_establishes.strengthen fun _ _ => trivial

end Authorizing

/-! ## Continuing accepted work -/

namespace ContinueAcceptedWork

variable {work : AcceptedWork} {accepted : AuthorizationDecision}
  {existing : Option AuthorizationDecision}

/-- What the policy alone says to a request that continues accepted work. -/
def merits (enc : DecisionEncoding) (ttl : AuthorizationDecisionTtl)
    (accepted : AuthorizationDecision) (request : AuthorizationRequest) (p : AuthorizationPolicy)
    (now : OffsetDateTime) : Result AuthorizationDecisionPlan :=
  p.decideAcceptedWork enc request none accepted now ttl

/-- The request that a policy has for accepted work, and the decision that accepted it. -/
def askedOn (work : AcceptedWork) (p : AuthorizationPolicy) :
    Result (AuthorizationDecision × AuthorizationRequest) := do
  let evidence ← okOr work.source.authorizationEvidence
    (.invariantViolated "accepted ceremony work has no authorization evidence")
  okOr p.decisionsById[evidence.decisionId]? (.notFound "accepted_authorization_decision")
    >>= fun accepted => do
      let request ← continuing work evidence accepted
      pure (accepted, request)

def namedBy (work : AcceptedWork) : Option AuthorizationDecisionId :=
  work.source.authorizationEvidence.map (·.decisionId)

theorem acceptedWorkDecisionId_of_continuing {evidence : AuthorizationEvidence}
    (h : continuing work evidence accepted = .ok request) :
    request.acceptedWorkDecisionId = some accepted.id := by
  simp only [continuing, bind_eq_ok, require_eq_ok, pure_eq_ok, exists_unit] at h
  obtain ⟨-, -, -, -, rfl⟩ := h
  rfl

def readsOf (request : AuthorizationRequest) (accepted : AuthorizationDecision)
    (existing : Option AuthorizationDecision) : Reads :=
  [(.request request.id, existing), (.decision accepted.id, some accepted)]

theorem readsOf_agree (hacc : request.acceptedWorkDecisionId = some accepted.id)
    (h : (readsOf request accepted existing).Agree p) : some accepted = acceptedIn p request := by
  rw [acceptedIn, hacc]
  exact h (.decision accepted.id, some accepted) (by simp [readsOf])

theorem decidesOn (existing : Option AuthorizationDecision)
    (hacc : request.acceptedWorkDecisionId = some accepted.id) :
    DecidesOn enc request (readsOf request accepted existing) (merits enc ttl accepted request)
      fun p now => p.decideAcceptedWork enc request existing accepted now ttl := by
  refine .of_lookUp (fun _ _ => rfl) (fun _ => rfl) List.mem_cons_self ?_ ?_ ?_
  · rintro d p now rfl
    rfl
  · rintro p now plan rfl - hplan
    obtain ⟨hreq, hid, hstands⟩ := decideAcceptedWork_stands hplan (approvalIn p request)
    refine ⟨hreq, hid, fun hagree => ?_⟩
    rw [← readsOf_agree hacc hagree]
    exact hstands
  · rintro p now rfl -
    rfl

end ContinueAcceptedWork

variable (asked : AuthorizationDecision × AuthorizationRequest)

section Continuing

open ContinueAcceptedWork

variable {work : AcceptedWork} {accepted : AuthorizationDecision}

theorem acceptedRequest_establishes :
    (policyDiscipline F).Establishes n (fun _ => True) (acceptedRequest policyId work)
      fun result log => ∃ h p, askedOn work p = result ∧
        Consulted enc policyId n (namedBy work) h p log := by
  unfold acceptedRequest
  refine .check ((Growing.const _).lasting n) ?_ ?_
  · intro evidence hevid
    have hchk : ∀ accepted, (PolicyProg.check (continuing work evidence accepted) >>=
        fun request => pure (accepted, request)) = PolicyProg.check (do
          let request ← continuing work evidence accepted
          pure (accepted, request)) := by
      intro accepted
      cases continuing work evidence accepted with
      | ok | error => rfl
    simp only [hchk]
    refine (lookUp_present evidence.decisionId _ _).conseq (fun _ _ => trivial) ?_
    rintro result log ⟨h, p, hask, hknown⟩
    refine ⟨h, p, ?_, ?_⟩
    · rw [askedOn, hevid]
      exact hask
    · rw [namedBy, (okOr_eq_ok _ _ _).mp hevid]
      exact hknown
  · intro fault hfault w hw _
    obtain ⟨p, hp⟩ := hw.basis
    refine ⟨_, p, ?_, hp, ?_⟩
    · rw [askedOn, hfault]
      rfl
    · cases hevid : work.source.authorizationEvidence with
      | none => simp [namedBy, hevid]
      | some evidence =>
        rw [hevid] at hfault
        cases hfault

theorem continue_attempt_establishes (ttl : AuthorizationDecisionTtl) (k : Nat)
    (hacc : request.acceptedWorkDecisionId = some accepted.id) :
    (policyDiscipline F).Establishes n (fun log => Found accepted log ∧ k ≤ conflictsOf n log)
      (ContinueAcceptedWork.attempt enc policyId ttl request accepted)
      (Attempted n k (fun d log => Found d log ∧ d.request = request)
        fun fault log => Undisturbed writable log →
          Refused enc policyId n request (merits enc ttl accepted request) fault log) := by
  refine .bindOk ((lookUp_establishes (growing_conflicts n k)
    [(.decision accepted.id, some accepted)] (.request request.id)).strengthen
    fun log hlog => ⟨hlog.2, fun read hread => ?_⟩) fun existing => ?_
  · rw [List.mem_singleton.mp hread]
    exact ⟨hlog.1, rfl⟩
  · exact (deciding_establishes (decidesOn existing hacc)).strengthen fun log hlog => hlog.1

def AdmittedBy (request : AuthorizationRequest) (operation : AuthorizedOperation)
    (log : PolicyLog) : Prop :=
  ∃ d now, (Found d log ∧ d.request = request) ∧ d.evidence now = .ok operation.evidence ∧
    operation.principal = request.principal

def UnavailingFor (request : AuthorizationRequest) (fault : Fault DomainError) (log : PolicyLog) :
    Prop :=
  ∃ d now, (Found d log ∧ d.request = request) ∧ d.evidence now = .error fault

theorem growing_admittedBy (operation : AuthorizedOperation) :
    Growing (AdmittedBy request operation) :=
  .exists_ fun d => .exists_ fun _ => (growing_found_for request d).and (.const _)

theorem growing_unavailing (fault : Fault DomainError) : Growing (UnavailingFor request fault) :=
  .exists_ fun d => .exists_ fun _ => (growing_found_for request d).and (.const _)

theorem admitted_establishes (request : AuthorizationRequest) (d : AuthorizationDecision) :
    (policyDiscipline F).Establishes n (fun log => Found d log ∧ d.request = request)
      (ContinueAcceptedWork.admitted request d)
      fun result log =>
        match result with
        | .ok operation => AdmittedBy request operation log
        | .error fault => UnavailingFor request fault log := by
  have hgrow := growing_found_for request d
  refine .bindOk (now_establishes hgrow) fun now => ?_
  refine .check (hgrow.lasting n) ?_ ?_
  · intro evidence hevid
    refine .given (fun log hlog => hlog.2) ?_
    rintro rfl
    have hprincipal : d.request.principal.id = evidence.principalId := by
      simp only [AuthorizationDecision.evidence, bind_eq_ok, require_eq_ok,
        pure_eq_ok, exists_unit] at hevid
      obtain ⟨-, -, rfl⟩ := hevid
      rfl
    unfold AuthorizedOperation.new
    rw [dif_pos hprincipal]
    exact Discipline.Triple.pure (hgrow.lasting n).stable fun w _ hw => ⟨d, now, hw, hevid, rfl⟩
  · intro fault hfault w _ hw
    exact ⟨d, now, hw, hfault⟩

def Continued (writable : AuthorizationPolicyEvent → Bool) (enc : DecisionEncoding)
    (policyId : AuthorizationPolicyId) (n : Nat) (ttl : AuthorizationDecisionTtl)
    (asked : AuthorizationDecision × AuthorizationRequest) :
    Result AuthorizedOperation → PolicyLog → Prop
  | .ok operation, log => AdmittedBy asked.2 operation log
  | .error fault, log => UnavailingFor asked.2 fault log ∨
      RequestSettled writable enc policyId n asked.2 (merits enc ttl asked.1 asked.2) (.error fault)
        log

theorem growing_continued (result : Result AuthorizedOperation) :
    Growing (Continued writable enc policyId n ttl asked result) := by
  cases result with
  | ok operation => exact growing_admittedBy operation
  | error fault => exact (growing_unavailing fault).or (growing_requestSettled (.error fault))

/-- The decision that accepted the work is one that the policy knows. -/
theorem askedOn_eq_ok (h : askedOn work p = .ok (accepted, request)) :
    (∃ id : AuthorizationDecisionId, p.decisionsById[id]? = some accepted) ∧
      request.acceptedWorkDecisionId = some accepted.id := by
  simp only [askedOn, bind_eq_ok, okOr_eq_ok, pure_eq_ok, Prod.mk.injEq] at h
  obtain ⟨evidence, -, _, hf, _, hcontinuing, rfl, rfl⟩ := h
  exact ⟨⟨_, hf⟩, acceptedWorkDecisionId_of_continuing hcontinuing⟩

theorem decide_establishes (hacc : request.acceptedWorkDecisionId = some accepted.id) :
    (policyDiscipline F).Establishes n (Found accepted)
      (ContinueAcceptedWork.decide enc policyId ttl request accepted)
      (Continued writable enc policyId n ttl (accepted, request)) := by
  have hloop := retrying_establishes (F := F) (n := n) (growing_found accepted)
    (growing_found_for request) growing_unless_refused
    (fun k => continue_attempt_establishes ttl k hacc) maxConflictRetries 0
  rw [Nat.zero_add] at hloop
  refine .bind (hloop.strengthen fun log hlog => ⟨hlog, Nat.zero_le _⟩)
    (fun fault => (growing_requestSettled (.error fault)).lasting n) ?_
    fun fault log hlog => .inr hlog
  intro d
  refine (admitted_establishes request d).conseq (fun log hlog => hlog) ?_
  intro result log hlog
  cases result with
  | ok operation => exact hlog
  | error fault => exact .inl hlog

theorem executeFor_establishes :
    (policyDiscipline F).Establishes n (fun _ => True)
      (ContinueAcceptedWork.executeFor enc policyId ttl work)
      (Asked enc policyId n (namedBy work) (askedOn work)
        (Continued writable enc policyId n ttl)) := by
  refine asked_bind acceptedRequest_establishes ?_
  rintro ⟨accepted, request⟩ h p hask
  obtain ⟨⟨id, hknown⟩, hacc⟩ := askedOn_eq_ok hask
  refine (decide_establishes hacc).strengthen fun log hbasis => ?_
  obtain ⟨hmem, -⟩ := ((recounts_of_rehydrate hbasis.folds).byId _ _).mp hknown
  exact found_of_past hbasis.past hmem

def ContinuedBefore (policyId : AuthorizationPolicyId) (n : Nat)
    (asked : AuthorizationDecision × AuthorizationRequest) :
    Result (Option AuthorizedOperation) → PolicyLog → Prop
  | .ok none, log => ∃ h, CalledAt n (.decisionForRequest policyId asked.2.id) h log ∧
      ∀ d ∈ decisionsOf h, d.request.id ≠ asked.2.id
  | .ok (some operation), log => AdmittedBy asked.2 operation log
  | .error fault, log => UnavailingFor asked.2 fault log ∨
      ∃ d, Found d log ∧ d.request.id = asked.2.id ∧ d.request ≠ asked.2

theorem existingFor_establishes :
    (policyDiscipline F).Establishes n (fun _ => True)
      (ContinueAcceptedWork.existingFor policyId work)
      (Asked enc policyId n (namedBy work) (askedOn work) (ContinuedBefore policyId n)) := by
  refine asked_bind acceptedRequest_establishes ?_
  rintro ⟨accepted, request⟩ h₀ p₀ hask
  refine .bindOk ((lookUp_establishes (.const True) [] (.request request.id)).strengthen
    fun log _ => ⟨trivial, sawAll_nil⟩) fun found => ?_
  refine Discipline.Establishes.strengthen (P := fun log => ∃ h p,
    found = (LookUp.request request.id).inPolicy p ∧ Basis enc policyId log h p ∧
      CalledAt n (.decisionForRequest policyId request.id) h log) ?_ fun log hlog => hlog.2
  refine .exists fun h => .exists fun p => .assuming fun hf => ?_
  have hgrow : Growing fun log => Basis enc policyId log h p ∧
      CalledAt n (.decisionForRequest policyId request.id) h log :=
    (growing_basis h p).and (growing_calledAt n _ h)
  cases found with
  | none =>
    refine .pure (hgrow.lasting n) fun w _ hw => ⟨h, hw.2, ?_⟩
    intro d hmem hid
    rw [(inPolicy_eq_some hw.1.folds (.request request.id) d).mpr ⟨hmem, hid⟩] at hf
    cases hf
  | some d =>
    have hd : ∀ log, Basis enc policyId log h p → Found d log ∧ d.request.id = request.id := by
      intro log hbasis
      obtain ⟨hmem, hid⟩ := (inPolicy_eq_some hbasis.folds _ d).mp hf.symm
      exact ⟨found_of_past hbasis.past hmem, hid⟩
    refine .check (hgrow.lasting n) ?_ ?_
    · intro u hsame
      rw [require_eq_ok] at hsame
      refine .map ((admitted_establishes request d).strengthen
        fun log hlog => ⟨(hd log hlog.1).1, hsame⟩) ?_ ?_ ?_
      · intro result
        cases result with
        | ok operation => exact (growing_admittedBy operation).lasting n
        | error fault => exact (growing_unavailing fault).lasting n
      · exact fun operation log hlog => hlog
      · exact fun fault log hlog => .inl hlog
    · intro fault hfault w _ hw
      refine .inr ⟨d, (hd w.log hw.1).1, (hd w.log hw.1).2, fun hsame => ?_⟩
      rw [require, if_pos hsame] at hfault
      cases hfault

end Continuing

/-! ## Administration -/

section Administration

open PolicyAdministration

/-- Nothing is said of how a change of the policy ends. -/
abbrev ChangeAttempted (n k : Nat) :
    Result (Option AuthorizationMutationOutcome) → PolicyLog → Prop :=
  Attempted n k (fun _ _ => True) fun _ _ => True

/-- A change that the policy itself accepts is recorded, or meets another version. -/
theorem recordChange_establishes {event : Option AuthorizationPolicyEvent}
    (hchange : ∀ log, Loaded writable enc policyId n [] h p log → ∀ e, event = some e →
      e.policyId = policyId ∧ e.isDecision = false ∧ ∃ next, p.apply enc e = .ok next) :
    (policyDiscipline F).Establishes n
      (fun log => k ≤ conflictsOf n log ∧ Loaded writable enc policyId n [] h p log)
      (recordChange policyId p.version event) (ChangeAttempted n k) := by
  cases event with
  | none =>
    exact .pure (((growing_conflicts n k).and (growing_loaded h p)).lasting n) fun _ _ _ => trivial
  | some e =>
    refine Discipline.Establishes.conseq (record_establishes (h := h) (k := k)) ?_ ?_
    · rintro log ⟨hk, hload⟩
      obtain ⟨hown, hkind, hnext⟩ := hchange log hload e rfl
      refine ⟨hk, hload.basis, hown, fun hdec => ?_, fun _ _ => hnext⟩
      rw [hkind] at hdec
      cases hdec
    · intro result log hlog
      match result with
      | .ok (some _) => trivial
      | .ok none => exact hlog
      | .error _ => trivial

theorem openAttempt_establishes (owner : AuthenticatedPrincipal)
    (separationRules : List SeparationRule) :
    (policyDiscipline F).Establishes n (fun log => True ∧ k ≤ conflictsOf n log)
      (openAttempt policyId owner separationRules) (ChangeAttempted n k) := by
  refine .bindOk ((load_establishes (growing_conflicts n k) []).strengthen
    fun log hlog => ⟨hlog.2, sawAll_nil⟩) fun snapshot => ?_
  refine .exists fun h => .exists fun p => .assuming fun hshows => ?_
  have hgrow : Growing fun log =>
      k ≤ conflictsOf n log ∧ Loaded writable enc policyId n [] h p log :=
    (growing_conflicts n k).and (growing_loaded h p)
  refine .bindOk (now_establishes hgrow) fun now => .check (hgrow.lasting n) ?_ ?_
  · intro event hev
    refine .given (fun log hlog => hlog.2.basis.folds) fun hfolds => ?_
    -- Without a snapshot the policy is empty, and so is the one that is decided on.
    have hpolicy : ((Option.map AuthorizationPolicySnapshot.policy snapshot).getD
          AuthorizationPolicy.empty).version = p.version ∧
        p.decideOpen policyId owner separationRules now = .ok event := by
      rcases hshows with ⟨rfl, rfl⟩ | ⟨q, rfl, rfl | rfl⟩
      · cases hfolds
        exact ⟨rfl, hev⟩
      · exact ⟨rfl, hev⟩
      · exact ⟨rfl, hev⟩
    rw [hpolicy.1]
    refine recordChange_establishes fun log _ e he => ?_
    subst he
    exact apply_of_decideOpen hpolicy.2
  · exact fun _ _ _ _ _ => trivial

theorem mutateAttempt_establishes {decide_ : AuthorizationPolicy → OffsetDateTime →
      Result (Option AuthorizationPolicyEvent)}
    (hproj : ∀ p now, decide_ (p.projected p.version) now = decide_ p now)
    (hacc : ∀ p now event, decide_ p now = .ok (some event) →
      p.id = some event.policyId ∧ event.isDecision = false ∧
        ∃ next, p.apply enc event = .ok next) :
    (policyDiscipline F).Establishes n (fun log => True ∧ k ≤ conflictsOf n log)
      (mutateAttempt policyId decide_) (ChangeAttempted n k) := by
  refine .bind ((loadPresent_establishes (growing_conflicts n k) []).strengthen
    fun log hlog => ⟨hlog.2, sawAll_nil⟩)
    (fun _ => ((Growing.const _).and (growing_calledAt n _ [])).lasting n) ?_ fun _ _ _ => trivial
  intro snapshot
  refine .exists fun h => .exists fun p => .exists fun q => .assuming ?_
  rintro ⟨rfl, hq⟩
  have hgrow : Growing fun log =>
      k ≤ conflictsOf n log ∧ Loaded writable enc policyId n [] h p log :=
    (growing_conflicts n k).and (growing_loaded h p)
  refine .bindOk (now_establishes hgrow) fun now => .check (hgrow.lasting n) ?_ ?_
  · intro event hev
    have hdecide : decide_ p now = .ok event := by
      rcases hq with rfl | rfl
      · exact hev
      · rw [← hproj]
        exact hev
    refine recordChange_establishes fun log hloaded e he => ?_
    subst he
    obtain ⟨hid, hkind, hnext⟩ := hacc p now e hdecide
    exact ⟨hloaded.basis.own hid, hkind, hnext⟩
  · exact fun _ _ _ _ _ => trivial

theorem changing_establishes {attempt : PolicyProg (Option AuthorizationMutationOutcome)}
    (hatt : ∀ k, (policyDiscipline F).Establishes n
      (fun log => True ∧ k ≤ conflictsOf n log) attempt (ChangeAttempted n k)) :
    (policyDiscipline F).Establishes n (fun _ => True)
      (PolicyAnswer.mutation <$> retrying attempt maxConflictRetries) fun _ _ => True := by
  have hloop := retrying_establishes (M := fun _ => True) (.const _) (fun _ => .const _)
    (fun _ => .const _) hatt maxConflictRetries 0
  exact .map (hloop.conseq (fun _ _ => ⟨trivial, Nat.zero_le _⟩) fun _ _ _ => trivial)
    (fun _ => (Growing.const _).lasting n) (fun _ _ _ => trivial) fun _ _ _ => trivial

end Administration

/-! ## All calls -/

/-- How a call ends; nothing is said of a change of the policy. -/
def PolicyInput.Answered (writable : AuthorizationPolicyEvent → Bool) (enc : DecisionEncoding)
    (policyId : AuthorizationPolicyId) (n : Nat) :
    PolicyInput → Result PolicyAnswer → PolicyLog → Prop
  | authorize ttl request, result, log => ∃ outcome, result = outcome.map .gate ∧
      Gated writable enc policyId n ttl request outcome log
  | revalidate ttl operation requestId, result, log => ∃ outcome, result = outcome.map .gate ∧
      Asked enc policyId n (some operation.evidence.decisionId)
        (fun p => AuthorizeOperation.readmittedOn p operation requestId)
        (Gated writable enc policyId n ttl) outcome log
  | continue_ ttl work, result, log => ∃ outcome, result = outcome.map .operation ∧
      Asked enc policyId n (ContinueAcceptedWork.namedBy work) (ContinueAcceptedWork.askedOn work)
        (Continued writable enc policyId n ttl) outcome log
  | existing work, result, log => ∃ outcome,
      result = outcome.map (fun found => (found.map .operation).getD .noOperation) ∧
        Asked enc policyId n (ContinueAcceptedWork.namedBy work) (ContinueAcceptedWork.askedOn work)
          (ContinuedBefore policyId n) outcome log
  | open_ .., _, _ => True
  | issue .., _, _ => True
  | revoke .., _, _ => True

theorem mapped_establishes {α : Type} {q : PolicyProg α} {f : α → PolicyAnswer}
    {Q : Result α → PolicyLog → Prop} (hQ : ∀ result, Growing (Q result))
    (h : (policyDiscipline F).Establishes n (fun _ => True) q Q) :
    (policyDiscipline F).Establishes n (fun _ => True) (f <$> q)
      fun result log => ∃ outcome, result = outcome.map f ∧ Q outcome log :=
  .map h (fun result => (hQ result).lasting n) (fun a _ hlog => ⟨.ok a, rfl, hlog⟩)
    fun fault _ hlog => ⟨.error fault, rfl, hlog⟩

theorem growing_continuedBefore (result : Result (Option AuthorizedOperation)) :
    Growing (ContinuedBefore policyId n asked result) := by
  match result with
  | .ok none => exact .exists_ fun h => (growing_calledAt n _ h).and (.const _)
  | .ok (some operation) => exact growing_admittedBy operation
  | .error fault =>
    exact (growing_unavailing fault).or (.exists_ fun d => (growing_found d).and (.const _))

theorem code_establishes (input : PolicyInput) :
    (policyDiscipline F).Establishes n (fun _ => True) (input.code enc policyId)
      (input.Answered writable enc policyId n) := by
  cases input with
  | authorize ttl request => exact mapped_establishes growing_gated execute_establishes
  | revalidate ttl operation requestId =>
    exact mapped_establishes (growing_asked fun _ => growing_gated)
      (revalidate_establishes operation requestId)
  | continue_ ttl work =>
    exact mapped_establishes (growing_asked growing_continued) executeFor_establishes
  | existing work =>
    refine .bind existingFor_establishes
      (fun fault => (growing_asked growing_continuedBefore (.error fault)).lasting n) ?_
      fun fault log hlog => ⟨.error fault, rfl, hlog⟩
    intro found
    have hgrow : Growing (Asked enc policyId n (ContinueAcceptedWork.namedBy work)
        (ContinueAcceptedWork.askedOn work) (ContinuedBefore policyId n) (.ok found)) :=
      growing_asked growing_continuedBefore (.ok found)
    have hlasting := hgrow.lasting n
    cases found with
    | none => exact .pure hlasting fun w _ hw => ⟨.ok none, rfl, hw⟩
    | some operation => exact .pure hlasting fun w _ hw => ⟨.ok (some operation), rfl, hw⟩
  | open_ owner separationRules =>
    exact changing_establishes fun k => openAttempt_establishes owner separationRules
  | issue principal grant =>
    exact changing_establishes fun k => mutateAttempt_establishes
      (fun p now => decideIssue_projected p p.version principal grant now)
      fun p now event => apply_of_decideIssue
  | revoke principal grantId reason =>
    exact changing_establishes fun k => mutateAttempt_establishes
      (fun p now => decideRevoke_projected p p.version principal grantId reason now)
      fun p now event => apply_of_decideRevoke

theorem policyUsers_verified (F : store.Faithful enc policyId writable) :
    (policyUsers store enc policyId).Verified (policyDiscipline F)
      fun n input _ result w => input.Answered writable enc policyId n result w.log where
  performs_eq := rfl
  start_inv w n input _ hw _ := hw.quiet fun _ _ _ _ _ h => by cases h
  code_safe w n input _ _ _ hw := code_establishes input _ hw trivial

theorem decisionForRequest_eq_find (F : store.Faithful enc policyId writable) {s : store.State}
    (hs : F.Holds s h) (id : AuthorizationRequestId) :
    store.decisionForRequest s policyId id =
      .ok ((decisionsOf h).find? fun d => d.request.id = id) := by
  obtain ⟨p, hp⟩ := F.folds hs
  have hrecounts := recounts_of_rehydrate hp
  rw [F.decisionForRequest hs hp]
  congr 1
  cases hf : p.decisionsByRequest[id]? with
  | none =>
    symm
    rw [List.find?_eq_none]
    intro d hd hid
    rw [(hrecounts.byRequest id d).mpr ⟨hd, of_decide_eq_true hid⟩] at hf
    cases hf
  | some d =>
    obtain ⟨hd, hid⟩ := (hrecounts.byRequest id d).mp hf
    cases ho : (decisionsOf h).find? fun d => d.request.id = id with
    | none => exact absurd (decide_eq_true hid) (List.find?_eq_none.mp ho d hd)
    | some d' =>
      have hfinds := List.find?_some ho
      have hid' : d'.request.id = id := of_decide_eq_true hfinds
      have hsame : d'.request.id = d.request.id := by rw [hid', hid]
      rw [hrecounts.eq_of_request (List.mem_of_find?_eq_some ho) hd hsame]

end Calls

/-! ## Both stores -/

/-- Where the policies are kept; SQLite refuses an event that it cannot write. -/
inductive PolicyBackend where
  | memory
  | sqlite (writable : AuthorizationPolicyEvent → Bool)

namespace PolicyBackend

def policies (enc : DecisionEncoding) : PolicyBackend → PolicyStore
  | memory => memoryPolicies enc
  | sqlite writable => sqlitePolicies enc writable

def writes : PolicyBackend → AuthorizationPolicyEvent → Bool
  | memory => fun _ => true
  | sqlite writable => writable

def faithful (enc : DecisionEncoding) (policyId : AuthorizationPolicyId) :
    ∀ backend : PolicyBackend, (backend.policies enc).Faithful enc policyId backend.writes
  | memory => memoryFaithful enc policyId _
  | sqlite writable => sqliteFaithful enc policyId writable

end PolicyBackend

namespace PolicyRace

def policyId : AuthorizationPolicyId := ⟨"policy", .refl true⟩

def host : AuthenticatedPrincipal := ⟨⟨"host", .refl true⟩, .trustedHost, .localHostPolicy⟩

def ttl : AuthorizationDecisionTtl := ⟨60, by decide, by decide⟩

/-- The version stands for the contents of a decision; no two decisions of a policy share one. -/
def encoding : DecisionEncoding := fun contents => some [contents.policyVersion.toUInt8]

def target : AuthorizationTargetDigest :=
  ⟨"0000000000000000000000000000000000000000000000000000000000000000", by decide⟩

def reading : AuthorizationRequest where
  id := ⟨"reading", by decide⟩
  principal := host
  action := .readAuthorizationPolicy
  scope := .global
  targetDigest := target
  approvalDecisionId := none
  acceptedWorkDecisionId := none
  approvedAction := none

def alone (n calls : Nat) : List (Action PolicyInput OffsetDateTime) :=
  List.replicate calls (.call n (.afterEpoch 0))

/-- The second call starts when the first one has an answer. -/
def inTurn : List (Action PolicyInput OffsetDateTime) :=
  .start (.open_ host []) :: alone 0 3 ++ .start (.authorize ttl reading) :: alone 1 5 ++
    .start (.authorize ttl reading) :: alone 2 4

/-- The first call records its decision after the second one looked for it. -/
def racing : List (Action PolicyInput OffsetDateTime) :=
  .start (.open_ host []) :: alone 0 3 ++ .start (.authorize ttl reading) ::
    .start (.authorize ttl reading) :: alone 2 1 ++ alone 1 5 ++ alone 2 5

def answers {σ : Type} (cfg : Config policyPorts σ PolicyInput (Result PolicyAnswer)) :
    List (Option (Result PolicyAnswer)) :=
  cfg.threads.map fun thread =>
    match thread.rest with
    | some (.done result) => some result
    | _ => none

/-- The slower call failed on a request that was decided. -/
def slowerFailed {σ : Type} (cfg : Config policyPorts σ PolicyInput (Result PolicyAnswer)) : Bool :=
  match (cfg.threads[2]? : Option (Thread policyPorts σ PolicyInput (Result PolicyAnswer))) with
  | some ⟨.authorize t request, _, some (.done (.error fault))⟩ =>
    t = ttl ∧ request = reading ∧ fault = .refused (.alreadyExists "authorization_decision") ∧
      conflictsOf 2 cfg.world.log = 0 ∧
      ∃ d ∈ decisionsOf (recorded cfg.world.log), d.request = reading
  | _ => false

end PolicyRace

end Made
