import Made.Authorization.History
import Made.Properties.Authorization

/-!
# Folding a policy without its decisions

The projection of a policy keeps no decisions, so its fold is handed those that an event names by
a caller who has seen them recorded.  Both folds go on after an event they refuse.
-/

namespace Made

open Outcome AuthorizationPolicy

/-! ## Folds that go on -/

section

variable {σ : Type} (step : σ → AuthorizationPolicyEvent → Result σ)

/-- The state after an event; one that is refused changes nothing. -/
def settle (s : σ) (event : AuthorizationPolicyEvent) : σ := (step s event).toOption.getD s

/-- Which events are accepted, each in its place. -/
def verdicts : σ → List AuthorizationPolicyEvent → List Bool
  | _, [] => []
  | s, event :: rest => (step s event).isOk :: verdicts (settle step s event) rest

end

/-- A policy without its decisions, and the decisions its caller has seen recorded. -/
structure ProjectedPolicy where
  policy : AuthorizationPolicy
  recorded : Map AuthorizationDecisionId AuthorizationDecision

namespace ProjectedPolicy

variable (enc : DecisionEncoding) (p : AuthorizationPolicy)

def of : ProjectedPolicy := ⟨p.projected p.version, p.decisionsById⟩

/-- One event, with the decisions it names looked up. -/
def observe (s : ProjectedPolicy) (event : AuthorizationPolicyEvent) : Result ProjectedPolicy := do
  let policy ← s.policy.applyProjectedWithAuthorities enc event
    (event.authorities.1.bind fun id => s.recorded[id]?)
    (event.authorities.2.bind fun id => s.recorded[id]?)
  pure ⟨policy, event.decision?.elim s.recorded fun d => s.recorded.insert d.id d⟩

/-- Every decision comes when the policy is open. -/
def decidesOpen : AuthorizationPolicy → List AuthorizationPolicyEvent → Bool
  | _, [] => true
  | p, event :: rest =>
    (!event.isDecision || p.id.isSome) && decidesOpen (settle (apply enc) p event) rest

variable {enc p} {event : AuthorizationPolicyEvent} {next : AuthorizationPolicy}

/-! ## One event -/

theorem observe_of_apply (h : p.apply enc event = .ok next)
    (hopen : event.isDecision = true → p.id ≠ none) :
    (of p).observe enc event = .ok (of next) := by
  have hfold := applyProjected_of_apply h hopen
  have hrecorded : (event.decision?.elim p.decisionsById fun d => p.decisionsById.insert d.id d) =
      next.decisionsById := by
    cases hev : event.isDecision with
    | false =>
      rw [decision?_of_isDecision hev]
      exact (decisions_of_change hev h).2.symm
    | true =>
      cases event with
      | decisionRecorded => exact (decisions_of_decision h).2.2.2.2.symm
      | opened | grantIssued | grantRevoked => cases hev
  simp only [observe, of, hfold, hrecorded]
  rfl

/-- A decision whose ids the policy has not met. -/
def Unmet (p : AuthorizationPolicy) (d : AuthorizationDecision) : Prop :=
  p.decisionsByRequest[d.request.id]? = none ∧ p.decisionsById[d.id]? = none

theorem step_agrees (hnew : ∀ d ∈ event.decision?, Unmet p d)
    (hopen : event.isDecision = true → p.id ≠ none) :
    ((of p).observe enc event).isOk = (p.apply enc event).isOk ∧
      settle (observe enc) (of p) event = of (settle (apply enc) p event) := by
  cases happ : p.apply enc event with
  | ok next =>
    have hobserved := observe_of_apply happ hopen
    simp only [settle, hobserved, happ]
    exact ⟨rfl, rfl⟩
  | error fault =>
    cases hobserved : (of p).observe enc event with
    | error =>
      simp only [settle, hobserved, happ]
      exact ⟨rfl, rfl⟩
    | ok s =>
      obtain ⟨q, hq, -⟩ := (bind_eq_ok _ _ _).mp hobserved
      obtain ⟨next, hnext⟩ := apply_of_applyProjected hq
        (fun policyId d hev => hnew d (by rw [hev]; rfl))
      cases hnext.symm.trans happ

theorem unmet_settle (enc) {d : AuthorizationDecision} (h : Unmet p d)
    (hne : ∀ d' ∈ event.decision?, d'.request.id ≠ d.request.id ∧ d'.id ≠ d.id) :
    Unmet (settle (apply enc) p event) d := by
  cases happ : p.apply enc event with
  | error =>
    simp only [settle, happ]
    exact h
  | ok next =>
    simp only [settle, happ]
    change Unmet next d
    cases hev : event.isDecision with
    | false =>
      obtain ⟨hrequests, hids⟩ := decisions_of_change hev happ
      rw [Unmet, hrequests, hids]
      exact h
    | true =>
      cases event with
      | decisionRecorded policyId d' =>
        obtain ⟨-, -, -, hrequests, hids⟩ := decisions_of_decision happ
        obtain ⟨hreq, hid⟩ := hne d' rfl
        rw [Unmet, hrequests, hids, Map.getElem?_insert_of_ne hreq.symm,
          Map.getElem?_insert_of_ne hid.symm]
        exact h
      | opened | grantIssued | grantRevoked => cases hev

/-! ## Whole streams -/

variable {events : List AuthorizationPolicyEvent}

/-- By induction on the stream: the projection of the policy is what the projection folds. -/
theorem streams_agree (enc)
    (unique : (decisionsOf events).Pairwise fun d d' => d.request.id ≠ d'.request.id ∧ d.id ≠ d'.id)
    (unmet : ∀ d ∈ decisionsOf events, Unmet p d) (hopen : decidesOpen enc p events = true) :
    verdicts (observe enc) (of p) events = verdicts (apply enc) p events ∧
      events.foldl (settle (observe enc)) (of p) = of (events.foldl (settle (apply enc)) p) := by
  induction events generalizing p with
  | nil => exact ⟨rfl, rfl⟩
  | cons event rest ih =>
    have hsplit : decisionsOf (event :: rest) = event.decision?.toList ++ decisionsOf rest := by
      cases event <;> rfl
    rw [hsplit, List.pairwise_append] at unique
    simp only [hsplit, List.mem_append, Option.mem_toList] at unmet unique
    rw [decidesOpen, Bool.and_eq_true] at hopen
    obtain ⟨hok, hsettle⟩ := step_agrees (fun d hd => unmet d (.inl hd))
      fun hev hid => by simp [hev, hid] at hopen
    have hrest := ih unique.2.1 (fun d hd =>
      unmet_settle enc (unmet d (.inr hd)) fun d' hd' => unique.2.2 d' hd' d hd) hopen.2
    rw [verdicts, verdicts, hok, hsettle, List.cons.injEq, List.foldl_cons, List.foldl_cons,
      hsettle]
    exact ⟨⟨rfl, hrest.1⟩, hrest.2⟩

end ProjectedPolicy

open ProjectedPolicy

/-- Of every stream whose decisions have ids of their own and come when the policy is open: the fold
of the policy and the fold of its projection accept the same events, and end in the same version,
owner, grants, revocations and rules. -/
theorem projection_agrees_on_open_policies (enc : DecisionEncoding) (p : AuthorizationPolicy)
    (events : List AuthorizationPolicyEvent)
    (unique : (decisionsOf events).Pairwise fun d d' => d.request.id ≠ d'.request.id ∧ d.id ≠ d'.id)
    (unmet : ∀ d ∈ decisionsOf events, Unmet p d) (hopen : decidesOpen enc p events = true) :
    verdicts (observe enc) (of p) events = verdicts (apply enc) p events ∧
      let projected := (events.foldl (settle (observe enc)) (of p)).policy
      let full := events.foldl (settle (apply enc)) p
      projected.version = full.version ∧ projected.owner = full.owner ∧
        projected.grants = full.grants ∧ projected.revoked = full.revoked ∧
        projected.separationRules = full.separationRules := by
  obtain ⟨hverdicts, hends⟩ := streams_agree enc unique unmet hopen
  refine ⟨hverdicts, ?_⟩
  rw [hends]
  exact ⟨rfl, rfl, rfl, rfl, rfl⟩

def openedEvents : List AuthorizationPolicyEvent :=
  delegatingEvents ++ [.decisionRecorded ⟨"policy", .refl true⟩ ownerReads]

theorem opened_policy_projects :
    verdicts (observe fun _ => some []) (of .empty) openedEvents =
      verdicts (apply fun _ => some []) .empty openedEvents :=
  (projection_agrees_on_open_policies (fun _ => some []) .empty openedEvents
    (List.pairwise_singleton _ _) (fun _ _ => ⟨by simp [empty], by simp [empty]⟩)
    (by decide +kernel)).1

/-- A denial that is the first event of its policy. -/
def strayDenial : AuthorizationPolicyEvent :=
  .decisionRecorded ⟨"policy", .refl true⟩
    { ownerReads with
      policyVersion := 1
      kind := .deny
      denialReason := some .noMatchingGrant }

theorem stray_denial_divides_the_folds :
    verdicts (apply fun _ => some []) .empty [strayDenial] = [true] ∧
      verdicts (observe fun _ => some []) (of .empty) [strayDenial] = [false] := by
  decide +kernel

end Made
