import Made.Authorization.Agreement
import Mathlib.Data.List.Induction

/-!
# What a history of events says about its policy

* `decisionsOf`: the decisions that events record;
* `Recounts`, `recounts_of_rehydrate`: the policy knows exactly these decisions, each under its
  request and under its id, and its version counts the events.
-/

namespace Made

open EventSourcing

def AuthorizationPolicyEvent.decision? : AuthorizationPolicyEvent → Option AuthorizationDecision
  | .decisionRecorded _ decision => some decision
  | _ => none

def decisionsOf (events : List AuthorizationPolicyEvent) : List AuthorizationDecision :=
  events.filterMap (·.decision?)

def keptOf (events : List AuthorizationPolicyEvent) : List AuthorizationPolicyEvent :=
  events.filter fun event => !event.isDecision

theorem decisionsOf_concat (events : List AuthorizationPolicyEvent)
    (event : AuthorizationPolicyEvent) :
    decisionsOf (events ++ [event]) = decisionsOf events ++ event.decision?.toList := by
  rw [decisionsOf, List.filterMap_append]
  cases event <;> rfl

theorem decision?_of_isDecision {event : AuthorizationPolicyEvent}
    (h : event.isDecision = false) : event.decision? = none := by
  cases event with
  | decisionRecorded => cases h
  | _ => rfl

namespace AuthorizationPolicy

variable {enc : DecisionEncoding} {events : List AuthorizationPolicyEvent}
  {event : AuthorizationPolicyEvent} {next p : AuthorizationPolicy}

theorem rehydrate_concat_eq_ok :
    rehydrate enc (events ++ [event]) = .ok next ↔
      ∃ p, rehydrate enc events = .ok p ∧ p.apply enc event = .ok next := by
  simp only [rehydrate_eq_fold, Machine.fold_append_eq_ok, Machine.fold_cons_eq_ok,
    Machine.fold_nil, Except.ok.injEq]
  constructor
  · rintro ⟨p, hp, _, hnext, rfl⟩
    exact ⟨p, hp, hnext⟩
  · rintro ⟨p, hp, hnext⟩
    exact ⟨p, hp, next, hnext, rfl⟩

/-! ## The decisions of a policy -/

/-- The policy knows the decisions that its events recorded, and counts the events. -/
structure Recounts (enc : DecisionEncoding) (p : AuthorizationPolicy)
    (events : List AuthorizationPolicyEvent) : Prop where
  sound : p.Sound
  version : p.version = min events.length u64Max
  byRequest : ∀ (id : AuthorizationRequestId) d, p.decisionsByRequest[id]? = some d ↔
    d ∈ decisionsOf events ∧ d.request.id = id
  byId : ∀ (id : AuthorizationDecisionId) d, p.decisionsById[id]? = some d ↔
    d ∈ decisionsOf events ∧ d.id = id
  valid : ∀ d ∈ decisionsOf events, d.validate enc = .ok ()
  own : ∀ id, p.id = some id → ∃ event ∈ events, event.policyId = id

theorem Recounts.eq_of_request (h : Recounts enc p events) {d d' : AuthorizationDecision}
    (hd : d ∈ decisionsOf events) (hd' : d' ∈ decisionsOf events)
    (hreq : d.request.id = d'.request.id) : d = d' := by
  have hf := (h.byRequest _ d).mpr ⟨hd, hreq⟩
  rw [(h.byRequest _ d').mpr ⟨hd', rfl⟩] at hf
  exact (Option.some.inj hf).symm

theorem recounts_empty : Recounts enc empty [] where
  sound := sound_empty
  version := rfl
  byRequest id d := by simp [empty, decisionsOf]
  byId id d := by simp [empty, decisionsOf]
  valid d hd := by cases hd
  own id hid := by cases hid

theorem next_min (n : Nat) :
    AuthorizationPolicyVersion.next (min n u64Max) = min (n + 1) u64Max := by
  change (min (min n u64Max + 1) u64Max : Nat) = min (n + 1) u64Max
  omega

theorem next_mono {v w : Nat} (h : v ≤ w) :
    AuthorizationPolicyVersion.next v ≤ AuthorizationPolicyVersion.next w := by
  change (min (v + 1) u64Max : Nat) ≤ min (w + 1) u64Max
  omega

theorem le_next {n v : Nat} (h : v ≤ min n u64Max) :
    v ≤ AuthorizationPolicyVersion.next (min n u64Max) := by
  rw [next_min]
  omega

theorem decisions_of_change (hev : event.isDecision = false) (h : p.apply enc event = .ok next) :
    next.decisionsByRequest = p.decisionsByRequest ∧ next.decisionsById = p.decisionsById := by
  cases applied_of_apply h with
  | opened | grantIssued | grantRevoked => exact ⟨rfl, rfl⟩
  | decisionRecorded => cases hev

/-- A decision is filed under its request and under its id, both of them new. -/
theorem decisions_of_decision {policyId : AuthorizationPolicyId} {d : AuthorizationDecision}
    (h : p.apply enc (.decisionRecorded policyId d) = .ok next) :
    d.validate enc = .ok () ∧ p.decisionsByRequest[d.request.id]? = none ∧
      p.decisionsById[d.id]? = none ∧
      next.decisionsByRequest = p.decisionsByRequest.insert d.request.id d ∧
      next.decisionsById = p.decisionsById.insert d.id d := by
  obtain ⟨-, arm, harm, rfl⟩ := apply_eq_ok.mp h
  obtain ⟨hval, -, hreq, hid, -, rfl⟩ := applyDecision_eq_ok.mp harm
  exact ⟨hval, hreq, hid, rfl, rfl⟩

theorem id_of_apply (h : p.apply enc event = .ok next) {id : AuthorizationPolicyId}
    (hid : next.id = some id) : p.id = some id ∨ event.policyId = id := by
  cases applied_of_apply h with
  | opened => exact .inr (Option.some.inj hid)
  | grantIssued | grantRevoked | decisionRecorded => exact .inl hid

theorem getElem?_insert_new {κ ν : Type} [Ord κ] [Std.TransOrd κ] [Std.LawfulEqOrd κ]
    {map : Map κ ν} {key : κ} {value : ν} (hnew : map[key]? = none) (id : κ) (d : ν) :
    (map.insert key value)[id]? = some d ↔ map[id]? = some d ∨ (id = key ∧ d = value) := by
  by_cases hid : id = key
  · subst hid
    rw [Std.ExtTreeMap.getElem?_insert_self, hnew]
    simp [eq_comm]
  · rw [Map.getElem?_insert_of_ne hid]
    simp [hid]

theorem recounts_step (hp : Recounts enc p events) (h : p.apply enc event = .ok next) :
    Recounts enc next (events ++ [event]) := by
  have hver : next.version = min (events ++ [event]).length u64Max := by
    rw [version_of_apply h, hp.version, next_min, List.length_append, List.length_singleton]
  have hown : ∀ id, next.id = some id → ∃ e ∈ events ++ [event], e.policyId = id := by
    intro id hid
    obtain hold | hnew := id_of_apply h hid
    · obtain ⟨e, he, heq⟩ := hp.own id hold
      exact ⟨e, List.mem_append_left _ he, heq⟩
    · exact ⟨event, by simp, hnew⟩
  have hsound := sound_step h hp.sound
  cases hev : event.isDecision with
  | false =>
    obtain ⟨hrequests, hids⟩ := decisions_of_change hev h
    have hdecs : decisionsOf (events ++ [event]) = decisionsOf events := by
      rw [decisionsOf_concat, decision?_of_isDecision hev, Option.toList_none, List.append_nil]
    refine ⟨hsound, hver, ?_, ?_, ?_, hown⟩
    · rw [hrequests, hdecs]
      exact hp.byRequest
    · rw [hids, hdecs]
      exact hp.byId
    · rw [hdecs]
      exact hp.valid
  | true =>
    cases event with
    | decisionRecorded policyId d =>
      obtain ⟨hval, hreq, hid, hrequests, hids⟩ := decisions_of_decision h
      have hmem : ∀ d', d' ∈ decisionsOf (events ++ [.decisionRecorded policyId d]) ↔
          d' ∈ decisionsOf events ∨ d' = d := by
        intro d'
        rw [decisionsOf_concat, List.mem_append]
        simp [AuthorizationPolicyEvent.decision?, eq_comm]
      refine ⟨hsound, hver, ?_, ?_, ?_, hown⟩
      · intro id d'
        rw [hrequests, getElem?_insert_new hreq, hp.byRequest, hmem]
        constructor
        · rintro (⟨hold, heq⟩ | ⟨rfl, rfl⟩)
          · exact ⟨.inl hold, heq⟩
          · exact ⟨.inr rfl, rfl⟩
        · rintro ⟨hold | rfl, heq⟩
          · exact .inl ⟨hold, heq⟩
          · exact .inr ⟨heq.symm, rfl⟩
      · intro id d'
        rw [hids, getElem?_insert_new hid, hp.byId, hmem]
        constructor
        · rintro (⟨hold, heq⟩ | ⟨rfl, rfl⟩)
          · exact ⟨.inl hold, heq⟩
          · exact ⟨.inr rfl, rfl⟩
        · rintro ⟨hold | rfl, heq⟩
          · exact .inl ⟨hold, heq⟩
          · exact .inr ⟨heq.symm, rfl⟩
      · intro d' hd'
        obtain hold | rfl := (hmem d').mp hd'
        · exact hp.valid d' hold
        · exact hval
    | opened | grantIssued | grantRevoked => cases hev

section

variable (h : rehydrate enc events = .ok p)
include h

theorem recounts_of_rehydrate : Recounts enc p events := by
  induction events using List.reverseRecOn generalizing p with
  | nil =>
    cases h
    exact recounts_empty
  | append_singleton events event ih =>
    obtain ⟨q, hq, happ⟩ := rehydrate_concat_eq_ok.mp h
    exact recounts_step (ih hq) happ

theorem nodup_requests : ((decisionsOf events).map fun d => d.request.id).Nodup := by
  induction events using List.reverseRecOn generalizing p with
  | nil => exact List.nodup_nil
  | append_singleton events event ih =>
    obtain ⟨q, hq, happ⟩ := rehydrate_concat_eq_ok.mp h
    rw [decisionsOf_concat, List.map_append]
    cases event with
    | decisionRecorded policyId d =>
      obtain ⟨-, hnew, -⟩ := decisions_of_decision happ
      refine List.Nodup.append (ih hq) (List.nodup_singleton _) ?_
      intro id hid hid'
      rw [List.mem_singleton.mp hid'] at hid
      obtain ⟨d', hd', hsame⟩ := List.mem_map.mp hid
      rw [((recounts_of_rehydrate hq).byRequest d.request.id d').mpr ⟨hd', hsame⟩] at hnew
      cases hnew
    | opened | grantIssued | grantRevoked => simpa [AuthorizationPolicyEvent.decision?] using ih hq

/-! ## The projection of a policy -/

/-- Folding the events that are not decisions gives the policy without its decisions, at a version
that is not later. -/
theorem rehydrate_kept :
    ∃ v, v ≤ p.version ∧ rehydrate enc (keptOf events) = .ok (p.projected v) := by
  induction events using List.reverseRecOn generalizing p with
  | nil =>
    cases h
    exact ⟨0, Nat.zero_le _, rfl⟩
  | append_singleton events event ih =>
    obtain ⟨q, hq, happ⟩ := rehydrate_concat_eq_ok.mp h
    obtain ⟨v, hv, hkept⟩ := ih hq
    have hnext := version_of_apply happ
    cases hev : event.isDecision with
    | true =>
      refine ⟨v, ?_, ?_⟩
      · rw [(recounts_of_rehydrate hq).version] at hv
        rw [hnext, (recounts_of_rehydrate hq).version]
        exact le_next hv
      · have hsplit : keptOf (events ++ [event]) = keptOf events := by
          simp [keptOf, List.filter_append, hev]
        rw [hsplit, projected_of_decision hev happ v, hkept]
    | false =>
      refine ⟨v.next, ?_, ?_⟩
      · rw [hnext]
        exact next_mono hv
      · have hsplit : keptOf (events ++ [event]) = keptOf events ++ [event] := by
          simp [keptOf, List.filter_append, hev]
        rw [hsplit, rehydrate_concat_eq_ok]
        exact ⟨_, hkept, (apply_projected_eq_ok hev).mpr ⟨p, happ, rfl⟩⟩

end

end AuthorizationPolicy

end Made
