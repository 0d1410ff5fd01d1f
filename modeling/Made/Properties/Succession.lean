import Made.Properties.Deadlines
import Made.Properties.Leases

/-!
# Carried work

A successor opens with the work its plan carries over, as completed records.  Entering a state opens
the records of its steps anew, so only the work of the initial state stands.
-/

namespace Made

open EventSourcing Outcome Std

/-- The state of a step is left, or the step is restarted with it. -/
def CeremonyEvent.resets (step : CeremonyStep) : CeremonyEvent → Prop
  | .transitionApplied e => e.transition.fromState = step.stateId
  | .stateIterationStarted e => step.id ∈ e.stepIds
  | _ => False

def CarriedEvidence.record (evidence : CarriedEvidence) : StepExecutionRecord :=
  .carried evidence.output evidence.source .first .first

namespace CeremonyInstance

variable {d : CeremonyDefinition} {i t : CeremonyInstance} {e : CeremonyEvent} {stepId : StepId}
  {step : CeremonyStep} {evidence : CarriedEvidence}

/-- The successor is in the state of the step, and the work carried for it stands. -/
structure Stands (step : CeremonyStep) (evidence : CarriedEvidence) (i : CeremonyInstance) :
    Prop where
  state : i.currentState = step.stateId
  record : i.stepRecords[step.id]? = some evidence.record
  undated : i.stepDeadlines[step.id]? = none

theorem ClaimStep.kept_of_carried (h : ClaimStep d i e t stepId)
    (hrec : i.stepRecords[stepId]? = some evidence.record)
    (undated : i.stepDeadlines[stepId]? = none) (unmoved : ∀ move, e ≠ .transitionApplied move)
    (unrestarted : ∀ iteration, e = .stateIterationStarted iteration → stepId ∉ iteration.stepIds) :
    t.stepRecords[stepId]? = some evidence.record ∧ t.stepDeadlines[stepId]? = none := by
  cases h with
  | kept record_eq deadline_eq => exact ⟨record_eq.trans hrec, deadline_eq.trans undated⟩
  | started e step record admitted =>
    cases hrec.symm.trans admitted.record_eq
    exact absurd rfl (status_ne_completed_of_canBeStartedAt admitted.startable)
  | renewed e record lease admitted =>
    cases hrec.symm.trans admitted.record_eq
    cases admitted.lease_eq
  | completed e step record fence admitted | failed e step record fence admitted =>
    cases hrec.symm.trans admitted.claim.record_eq
    cases admitted.claim.inProgress
  | restarted e admitted mem => exact absurd mem (unrestarted e rfl)
  | entered e => exact absurd rfl (unmoved e)
  | timedOut e standing => cases undated.symm.trans standing

theorem Stands.preserved (h : Stands step evidence i) (stays : ¬ e.resets step)
    (execution : ExecutionStep d i e t) : Stands step evidence t := by
  have unmoved : ∀ move, e ≠ .transitionApplied move := by
    rintro move rfl
    cases execution with
    | other quiet => cases quiet
    | moved _ _ _ admitted => exact stays (admitted.fromState_eq.trans h.state)
  have hkept := (claimStep_of_execution execution step.id).kept_of_carried h.record h.undated
    unmoved fun iteration he => by
      subst he
      exact stays
  refine ⟨?_, hkept.1, hkept.2⟩
  cases positionStep_of_execution execution with
  | stayed state_eq => exact state_eq.trans h.state
  | iterated e admitted state_eq => exact state_eq.trans h.state
  | moved e => exact absurd rfl (unmoved e)

/-! ## The opening -/

theorem foldl_carryStep_of_ne (later : List CarriedEvidence) (i : CeremonyInstance)
    (h : ∀ other ∈ later, other.successorStepId ≠ stepId) :
    (later.foldl carryStep i).stepRecords[stepId]? = i.stepRecords[stepId]? := by
  induction later generalizing i with
  | nil => rfl
  | cons other later ih =>
    rw [List.forall_mem_cons] at h
    rw [List.foldl_cons, ih _ h.2, carryStep]
    split
    · exact Map.getElem?_insert_of_ne (Ne.symm h.1)
    · rfl

theorem carried_record {context : CeremonyContext} {earlier later : List CarriedEvidence}
    (fresh : FreshInstance d context i) (declared : evidence.successorStepId ∈ d.steps)
    (hlast : ∀ other ∈ later, other.successorStepId ≠ evidence.successorStepId) :
    ((earlier ++ evidence :: later).foldl carryStep i).stepRecords[evidence.successorStepId]? =
      some evidence.record := by
  rw [List.foldl_append, List.foldl_cons, foldl_carryStep_of_ne _ _ hlast]
  have hfresh := fresh_carried fresh earlier
  rw [carryStep, if_pos (ExtTreeMap.contains_iff_mem.mpr ((hfresh.records _).mpr declared)),
    hfresh.currentStateVisit, hfresh.currentStateIteration]
  exact ExtTreeMap.getElem?_insert_self

end CeremonyInstance

open CeremonyInstance

variable {d : CeremonyDefinition} {i t : CeremonyInstance} {events : List CeremonyEvent}
  {trace : List (CeremonyCommand × List CeremonyEvent)} {step : CeremonyStep}
  {evidence : CarriedEvidence} {earlier later : List CarriedEvidence} {id : CeremonyId}
  {published : PublishedCeremonyDefinition} {context : CeremonyContext}
  {succession : CeremonySuccession} {plan : SuccessionPlan} {now : OffsetDateTime}

/-- Work that a plan carries for a step of the initial state stands from the opening of the
successor until that state is left or the step is restarted.  The last work for a step counts. -/
theorem carried_work_stands
    (opened : Opened d (.startSuccessor id published context succession plan now) events i)
    (hcarried : plan.carried = earlier ++ evidence :: later)
    (hlast : ∀ other ∈ later, other.successorStepId ≠ evidence.successorStepId)
    (declared : d.step evidence.successorStepId = some step)
    (initial : step.stateId = d.initialStateId) (run : (machine d).Run (fun _ _ => True) i trace t)
    (stays : ∀ e ∈ Machine.stream trace, ¬ e.resets step) :
    t.currentState = step.stateId ∧ t.stepRecords[step.id]? = some evidence.record := by
  have hid : step.id = evidence.successorStepId := d.step_id_of_getElem? declared
  have hmem : evidence.successorStepId ∈ d.steps :=
    ExtTreeMap.mem_iff_isSome_getElem?.mpr (Option.isSome_of_eq_some declared)
  have hfresh := opened.fresh
  have hstart : Stands step evidence i := by
    refine ⟨hfresh.currentState.trans initial.symm, ?_, by rw [hfresh.stepDeadlines]; rfl⟩
    obtain ⟨rfl, accepted, folded⟩ := opened
    obtain ⟨j, at_, fresh, rfl⟩ := startSuccessor_folded accepted folded
    rw [hid, hcarried]
    exact carried_record fresh hmem hlast
  have hstands := ((opened.path run).and_mem stays).invariant (fun _ _ _ allowed step h =>
    h.preserved allowed.2 (effects_of_admitted allowed.1 step).execution) hstart
  exact ⟨hstands.state, hstands.record⟩

/-! ### A relay -/

def outlineId : StepId := ⟨"outline", by decide⟩

/-- An outline in the initial state, and a draft in the next one. -/
def relayDefinition : CeremonyDefinition :=
  (CeremonyDefinition.new ⟨"relay", .refl true⟩ firstVersion none [] []
    [.initial openState, .intermediate ⟨"WORK", .refl true⟩, .terminal doneState]
    [⟨openState, ⟨"WORK", .refl true⟩, ⟨"park", .refl true⟩, []⟩,
      ⟨⟨"WORK", .refl true⟩, doneState, finishTrigger, []⟩]
    [.new outlineId openState agentHandler .empty .singleAttempt none,
      .new draftId ⟨"WORK", .refl true⟩ agentHandler .empty .singleAttempt none]
    [] [.of author (.step outlineId) [.step draftId]]).get
    (by decide +kernel)

def relayPublished : PublishedCeremonyDefinition := ⟨relayDefinition, .ofMessage _ []⟩

def relayPin : DefinitionPin := ⟨relayDefinition.name, relayDefinition.version, .ofMessage _ []⟩

/-- The empty output of a step, as the first ceremony sealed it. -/
def relayed (stepId : StepId) (visit : StateVisit) : CarriedEvidence :=
  ⟨stepId, ⟨⟨"ceremony-1", .refl true⟩, stepId, ⟨"completed", .refl true⟩, .ofMessage _ [], visit,
    .first⟩, .empty⟩

def relayPlan : SuccessionPlan where
  planId := ⟨"plan-1", .refl true⟩
  successorId := (SuccessorCeremonyId.derive ⟨"ceremony-1", .refl true⟩
    ⟨"plan-1", .refl true⟩).toOption.get (by decide +kernel)
  successorDefinition := relayPin
  carried := [relayed outlineId .first, relayed draftId (.of 2 (.refl true))]
  dispositions := []
  budget := .fresh
  plannedBy := ⟨"operator"⟩
  plannedAt := .afterEpoch 500

def relaySuccessor : CeremonyOpening :=
  .startSuccessor relayPlan.successorId relayPublished .empty ⟨⟨"ceremony-1", .refl true⟩,
    .ofMessage _ [], 0, relayPin, relayPin, relayPlan.planId⟩ relayPlan (.afterEpoch 600)

def relayPause : PauseCeremony := ⟨⟨"handoff", by decide⟩, ⟨400, by decide⟩⟩

/-- The outline stands while the successor is paused. -/
theorem relayed_outline_stands :
    ∃ events i trace t, Opened relayDefinition relaySuccessor events i ∧
      (machine relayDefinition).Run (fun _ _ => True) i trace t ∧ Machine.stream trace ≠ [] ∧
      t.stepRecords[outlineId]? = some (relayed outlineId .first).record := by
  obtain ⟨events, i, trace, t, hopened, hrun, hstream⟩ := exists_run_of_script relaySuccessor
    [fun _ => .pauseCeremony relayPause] (fun _ trace _ => Machine.stream trace =
      [.ceremonyPaused ⟨relayPause.reason, relayPause.now⟩]) (by decide +kernel)
  have hstands := carried_work_stands (d := relayDefinition) hopened
    (show relayPlan.carried = [] ++ _ from rfl) (by decide) rfl rfl hrun
    (by simp [hstream, CeremonyEvent.resets])
  exact ⟨events, i, trace, t, hopened, hrun, by simp [hstream], hstands.2⟩

/-- Sealed with the outline, the draft is pending when the successor comes to its state. -/
theorem relayed_draft_is_reset :
    (∃ events i trace t, Opened relayDefinition (openingOf relayDefinition) events i ∧
      (machine relayDefinition).Run (fun _ _ => True) i trace t ∧
      t.successorPlan = some relayPlan) ∧
    ∃ events i trace t, Opened relayDefinition relaySuccessor events i ∧
      (machine relayDefinition).Run (fun _ _ => True) i trace t ∧
      t.currentState = ⟨"WORK", by decide⟩ ∧ draftIs .pending 2 t = true := by
  constructor
  · exact exists_run_of_script (openingOf relayDefinition)
      [fun _ => startAt outlineId ⟨"outline-1", by decide⟩ ⟨1, by decide⟩ ⟨100, by decide⟩
          (by decide), resultAt outlineId (completedWith .empty) ⟨2, by decide⟩,
        fun _ => park, fun _ => startAt draftId ⟨"draft-1", by decide⟩ ⟨201, by decide⟩
          ⟨300, by decide⟩ (by decide), resultAt draftId (completedWith .empty) ⟨202, by decide⟩,
        fun _ => .pauseCeremony relayPause,
        fun _ => .planSuccessor ⟨relayPlan, relayPublished, ⟨[]⟩, ⟨500, by decide⟩⟩] _
      (by decide +kernel)
  · exact exists_run_of_script relaySuccessor [fun _ => park] _ (by decide +kernel)

end Made
