import Made.Definition.Diff
import Made.Runs.Machine

/-!
# What a diff of definitions tells

A diff reports what it compares, and calls stranding what could take finished work back.
-/

namespace Made

open List CeremonyDefinitionDiff

variable (before after : CeremonyDefinition)

/-! ## Definitions without a reported change -/

/-- What governs a run and is never compared. -/
structure AgreeUncompared : Prop where
  order : before.stepOrder = after.stepOrder
  -- The first transition that is satisfied is taken.
  moves : ∀ stateId, (before.availableTransitions stateId).map (·.trigger) =
    (after.availableTransitions stateId).map (·.trigger)
  spawns : ∀ id, (before.step id).map (·.spawn) = (after.step id).map (·.spawn)
  ceremonyTimeout : before.ceremonyTimeout = after.ceremonyTimeout
  stateTimeout : before.stateTimeout = after.stateTimeout

def stateView (state : CeremonyState) := (state.kind, state.execution, state.repeat_)

def stepView (step : CeremonyStep) :=
  (step.stateId, step.handlerKind, step.handlerConfig, step.retryPolicy, step.timeout,
    step.repeatPolicy, step.dynamicRoleBinding, step.contextWrites, step.aggregation)

/-- Everything that governs a run.  A state and a trigger name one transition. -/
structure AgreeGoverning : Prop extends AgreeUncompared before after where
  states : ∀ id, (before.state id).map stateView = (after.state id).map stateView
  transitions : ∀ stateId trigger,
    before.transitionForTrigger stateId trigger = after.transitionForTrigger stateId trigger
  steps : ∀ id, (before.step id).map stepView = (after.step id).map stepView
  guards : ∀ name : GuardName,
    before.guards[name]?.map (·.condition) = after.guards[name]?.map (·.condition)
  roles : ∀ id, (before.role id).map (·.allowedActions) = (after.role id).map (·.allowedActions)
  maxTransitions : before.maxTransitions = after.maxTransitions
  maxBounces : before.maxBounces = after.maxBounces
  maxParallel : before.maxParallel = after.maxParallel
  inputs : ∀ name : InputName,
    before.inputs[name]?.map (·.required) = after.inputs[name]?.map (·.required)
  outputs : ∀ name : OutputName, before.outputs[name]?.isSome = after.outputs[name]?.isSome

variable {before after}

theorem transitionForTrigger_key {d : CeremonyDefinition} {t : CeremonyTransition}
    {stateId : StateId} {trigger : TransitionTrigger}
    (h : d.transitionForTrigger stateId trigger = some t) :
    t ∈ d.transitions ∧ t.from_ = stateId ∧ t.trigger = trigger :=
  ⟨mem_of_find?_eq_some h, by simpa using find?_some h⟩

/-- What may be reported of a transition that is still there. -/
theorem forall_diffTransitions {P : CeremonyDefinitionChange → Prop}
    (h : ∀ c ∈ diffTransitions before after, P c) (hstrands : ∀ locus, ¬ P ⟨locus, .strands⟩)
    {old : CeremonyTransition} (hold : old ∈ before.transitions) :
    ∃ now, after.transitionForTrigger old.from_ old.trigger = some now ∧ now.to_ = old.to_ ∧
      (now.requiredGuards ≠ old.requiredGuards → P ⟨.transition old.from_ old.trigger,
        impactIf (old.requiredGuards.all now.requiredGuards.contains)⟩) := by
  rw [diffTransitions, forall_mem_append] at h
  have hkept := fun c hc => h.1 c (mem_flatMap.mpr ⟨old, hold, hc⟩)
  cases hnow : after.transitionForTrigger old.from_ old.trigger with
  | none =>
    simp only [hnow, mem_singleton, forall_eq] at hkept
    exact absurd hkept (hstrands _)
  | some now =>
    by_cases hto : now.to_ = old.to_
    · simp only [hnow, hto, ne_eq, not_true, if_false, forall_record, decide_eq_true_eq] at hkept
      exact ⟨now, rfl, hto, hkept⟩
    · simp only [hnow, ne_eq, hto, not_false_iff, if_true, mem_singleton, forall_eq] at hkept
      exact absurd hkept (hstrands _)

theorem transitionForTrigger_eq (h : ∀ c ∈ diffTransitions before after, False) (stateId : StateId)
    (trigger : TransitionTrigger) :
    before.transitionForTrigger stateId trigger = after.transitionForTrigger stateId trigger := by
  cases hold : before.transitionForTrigger stateId trigger with
  | none =>
    cases hnow : after.transitionForTrigger stateId trigger with
    | none => rfl
    | some now =>
      obtain ⟨hmem, rfl, rfl⟩ := transitionForTrigger_key hnow
      rw [diffTransitions, forall_mem_append] at h
      refine (forall_record.mp (fun c hc => h.2 c (mem_flatMap.mpr ⟨now, hmem, hc⟩)) ?_).elim
      rw [hold]
      rfl
  | some old =>
    obtain ⟨hmem, rfl, rfl⟩ := transitionForTrigger_key hold
    obtain ⟨now, hnow, hto, hguards⟩ := forall_diffTransitions h (fun _ => id) hmem
    obtain ⟨-, hfrom, htrigger⟩ := transitionForTrigger_key hnow
    rw [hnow, Option.some.injEq, CeremonyTransition.mk.injEq]
    exact ⟨hfrom.symm, hto.symm, htrigger.symm, (not_not.mp hguards).symm⟩

/-- A pair of definitions without a reported change agrees on all that governs a run exactly when
it agrees on what is not compared. -/
theorem identical_agree_iff (before after : CeremonyDefinition) :
    ((between before after).isIdentical = true → AgreeGoverning before after) ↔
      ((between before after).isIdentical = true → AgreeUncompared before after) := by
  refine ⟨fun h hid => (h hid).toAgreeUncompared, fun h hid => ?_⟩
  have huncompared := h hid
  have hnone : ∀ c ∈ (between before after).changes, False := by
    rw [isIdentical, List.isEmpty_iff] at hid
    simp [hid]
  simp only [between, forall_mem_append, diffStates, diffSteps, diffGuards, diffRoles, diffShape,
    diffEntries, diffTransitionBudgets, diffTransitionBudget, diffMaxParallel, diffInputs,
    forall_record] at hnone
  obtain ⟨⟨⟨⟨⟨⟨⟨hstates, htransitions⟩, hsteps⟩, hguards⟩, hroles⟩, hparallel⟩, htotal, hedge⟩,
    ⟨⟨hgone, hnew⟩, houtputs⟩, -⟩ := hnone
  exact { huncompared with
    states := view_eq stateView hstates.1 hstates.2 (fun _ _ => id) (fun _ => id)
      fun _ _ _ h => by
        simp only [forall_mem_append, forall_record] at h
        simp_all [stateView]
    transitions := transitionForTrigger_eq htransitions
    steps := view_eq stepView hsteps.1 hsteps.2 (fun _ _ => id) (fun _ => id)
      fun _ _ _ h => by
        simp only [forall_mem_append, forall_record] at h
        simp_all [stepView]
    guards := view_eq _ hguards.1 hguards.2 (fun _ _ => id) (fun _ => id)
      fun _ _ _ h => Eq.symm (by simpa using forall_record.mp h)
    roles := view_eq _ hroles.1 hroles.2 (fun _ _ => id) (fun _ => id)
      fun _ _ _ h => Eq.symm (by simpa using forall_record.mp h)
    maxTransitions := Option.map_injective (fun _ _ => Ordinal.ext) (by simpa using htotal)
    maxBounces := Option.map_injective (fun _ _ => Ordinal.ext) (by simpa using hedge)
    maxParallel := by simpa using hparallel
    inputs := fun name => (view_eq _ hnew hgone (fun _ _ => id) (fun _ => id)
      (fun _ _ _ h => Eq.symm (by simpa using forall_record.mp h)) name).symm
    outputs := fun name => by
      simpa using congrArg Option.isSome (view_eq (fun _ => ()) houtputs.1 houtputs.2
        (fun _ _ => id) (fun _ => id) (fun _ _ _ _ => rfl) name) }

/-- A ceremony that may take any time, and the same with a limit of a second. -/
theorem timeout_is_not_compared :
    let timed := oneMoveDefinition.withCeremonyTimeout { duration := ⟨1000, by decide⟩ }
    (between oneMoveDefinition timed).isIdentical = true ∧
      ¬ AgreeGoverning oneMoveDefinition timed := by
  refine ⟨by decide +kernel, fun h => ?_⟩
  cases h.ceremonyTimeout

/-! ## Definitions without a stranding change -/

namespace CeremonyDefinition

variable (d : CeremonyDefinition) (t : CeremonyTransition) (stepId : StepId)
  (records : Map StepId StepExecutionRecord)

def repeatPolicy : Option StepRepeatPolicy := (d.step stepId).bind (·.repeatPolicy)

/-- Whether a transition requires a guard on the exhaustion of a step. -/
def asksExhaustion : Bool :=
  t.requiredGuards.any fun name => d.guards[name]?.any fun guard =>
    guard.condition = .stepRepeatExhausted stepId

theorem transitionWaivesExhaustedRepeat_eq :
    d.transitionWaivesExhaustedRepeat t stepId records =
      (d.asksExhaustion t stepId && d.stepRepeatIsExhaustedOnTransition t stepId records) := by
  rw [transitionWaivesExhaustedRepeat, asksExhaustion, Bool.eq_iff_iff]
  simp only [any_eq_true, Option.any_eq_true, Bool.and_eq_true, decide_eq_true_eq]
  constructor
  · rintro ⟨name, hname, guard, hguard, hexhausted⟩
    cases hcond : guard.condition with
    | stepRepeatExhausted guarded =>
      simp only [hcond, Bool.and_eq_true, decide_eq_true_eq] at hexhausted
      exact ⟨⟨name, hname, guard, hguard, by rw [hcond, hexhausted.1]⟩, hexhausted.2⟩
    | _ => simp [hcond] at hexhausted
  · rintro ⟨⟨name, hname, guard, hguard, hcond⟩, hexhausted⟩
    exact ⟨name, hname, guard, hguard, by simp [hcond, hexhausted]⟩

end CeremonyDefinition

/-- What a diff without a stranding change leaves as it was. -/
structure Carries (before after : CeremonyDefinition) : Prop where
  steps : ∀ id, (before.step id).map (·.stateId) = (after.step id).map (·.stateId)
  guards : ∀ {name : GuardName} {old now}, before.guards[name]? = some old →
    after.guards[name]? = some now → now = old
  transitions : ∀ t ∈ before.transitions, ∃ now,
    after.transitionForTrigger t.from_ t.trigger = some now ∧ now.to_ = t.to_

theorem carries_of_diff (h : (between before after).strandsRunningSessions = false) :
    Carries before after := by
  have hcarry : ∀ c ∈ (between before after).changes, c.impact ≠ .strands := by
    simpa [strandsRunningSessions] using h
  simp only [between, forall_mem_append, diffSteps, diffGuards, diffEntries] at hcarry
  obtain ⟨⟨⟨⟨⟨⟨⟨-, htransitions⟩, hsteps⟩, hguards⟩, -⟩, -⟩, -⟩, -⟩ := hcarry
  refine ⟨view_eq _ hsteps.1 hsteps.2 (fun _ _ h => h rfl) (fun _ h => h rfl) ?_, ?_, ?_⟩
  · intro locus old now haltered
    simp only [forall_mem_append, forall_record] at haltered
    exact Eq.symm (by simpa using haltered.1.1.1.1.1.1)
  · intro name old now hold hnow
    have hcond : now.condition = old.condition := by
      simpa using forall_record.mp (forall_altered hguards.1 hold hnow)
    rw [CeremonyGuard.mk.injEq, after.guard_name_of_getElem? hnow,
      before.guard_name_of_getElem? hold]
    exact ⟨rfl, hcond⟩
  · intro t ht
    obtain ⟨now, hnow, hto, -⟩ :=
      forall_diffTransitions htransitions (fun _ h => h rfl) ht
    exact ⟨now, hnow, hto⟩

/-- The steps whose repetition a guard reads. -/
def GuardCondition.ReadsRepeat (stepId : StepId) : GuardCondition → Prop
  | .stepRepeatExhausted other | .stepStatus other _ => other = stepId
  | .allStepsCompleted => True
  | _ => False

section

variable (before after) (t now : CeremonyTransition)

/-- A step repeats as before, and its exhaustion is asked for as before. -/
def SameRepeat (stepId : StepId) : Prop :=
  before.repeatPolicy stepId = after.repeatPolicy stepId ∧
    before.asksExhaustion t stepId = after.asksExhaustion now stepId

/-- A guard that was not required, or that reads a step which does not repeat as before. -/
def Renewed (guard : CeremonyGuard) : Prop :=
  guard.name ∉ t.requiredGuards ∨
    ∃ stepId, guard.condition.ReadsRepeat stepId ∧ ¬ SameRepeat before after t now stepId

/-- What the changes touch is satisfied again. -/
structure SatisfiedAgain (records : Map StepId StepExecutionRecord) (context : CeremonyContext) :
    Prop where
  steps : ∀ step ∈ after.stepsForState now.from_, ¬ SameRepeat before after t now step.id →
    after.repeatRequirementIsSatisfiedOrWaived now step.id records = true
  guards : ∀ name ∈ now.requiredGuards, ∀ guard, after.guards[name]? = some guard →
    Renewed before after t now guard →
      after.guardIsSatisfiedForTransition guard now records context = true

end

namespace Carries

variable (h : Carries before after) {t now : CeremonyTransition} (hfrom : now.from_ = t.from_)
  {stepId : StepId} {records : Map StepId StepExecutionRecord} {context : CeremonyContext}
include h

theorem ids_perm (stateId : StateId) : (before.stepsForState stateId).map (·.id) ~
    (after.stepsForState stateId).map (·.id) := by
  refine (perm_ext_iff_of_nodup (before.stepsForState_ids_nodup _)
    (after.stepsForState_ids_nodup _)).mpr fun id => ?_
  rw [before.mem_stepsForState_ids, after.mem_stepsForState_ids, h.steps]

theorem mem_steps : stepId ∈ before.steps ↔ stepId ∈ after.steps := by
  have hid := congrArg Option.isSome (h.steps stepId)
  rw [Option.isSome_map, Option.isSome_map] at hid
  rw [Std.ExtTreeMap.mem_iff_isSome_getElem?, Std.ExtTreeMap.mem_iff_isSome_getElem?]
  exact Bool.eq_iff_iff.mp hid

include hfrom

theorem completed_length : (before.completedSteps t records).length =
    (after.completedSteps now records).length := by
  have hperm := ((h.ids_perm t.from_).filter fun id =>
    records[id]?.any (·.status.isSuccess)).length_eq
  rw [filter_map, filter_map, length_map, length_map] at hperm
  rw [CeremonyDefinition.completedSteps, CeremonyDefinition.completedSteps, hfrom]
  exact hperm

theorem exhausted_eq (hpolicy : before.repeatPolicy stepId = after.repeatPolicy stepId) :
    before.stepRepeatIsExhaustedOnTransition t stepId records =
      after.stepRepeatIsExhaustedOnTransition now stepId records := by
  have hstep := h.steps stepId
  unfold CeremonyDefinition.repeatPolicy at hpolicy
  unfold CeremonyDefinition.stepRepeatIsExhaustedOnTransition
  cases hold : before.step stepId <;> cases hnow : after.step stepId <;> simp_all

theorem satisfiedOrWaived_eq (hsame : SameRepeat before after t now stepId) :
    before.repeatRequirementIsSatisfiedOrWaived t stepId records =
      after.repeatRequirementIsSatisfiedOrWaived now stepId records := by
  have hrequired : before.repeatRequirementIsSatisfied stepId records =
      after.repeatRequirementIsSatisfied stepId records := by
    have hpolicy := hsame.1
    unfold CeremonyDefinition.repeatPolicy at hpolicy
    rw [CeremonyDefinition.repeatRequirementIsSatisfied, hpolicy]
    rfl
  simp only [CeremonyDefinition.repeatRequirementIsSatisfiedOrWaived, hrequired,
    CeremonyDefinition.transitionWaivesExhaustedRepeat_eq, hsame.2, h.exhausted_eq hfrom hsame.1]

theorem guard_eq {guard : CeremonyGuard}
    (hsame : ∀ stepId, guard.condition.ReadsRepeat stepId → SameRepeat before after t now stepId) :
    before.guardIsSatisfiedForTransition guard t records context =
      after.guardIsSatisfiedForTransition guard now records context := by
  unfold CeremonyDefinition.guardIsSatisfiedForTransition
  cases hcond : guard.condition with
  | stepRepeatExhausted => exact h.exhausted_eq hfrom (hsame _ (by rw [hcond]; rfl)).1
  | stepStatus =>
    dsimp only
    rw [h.satisfiedOrWaived_eq hfrom (hsame _ (by rw [hcond]; rfl))]
  | allStepsCompleted =>
    have hall : ∀ stepId, before.repeatRequirementIsSatisfiedOrWaived t stepId records =
        after.repeatRequirementIsSatisfiedOrWaived now stepId records := fun stepId =>
      h.satisfiedOrWaived_eq hfrom (hsame _ (by rw [hcond]; trivial))
    rw [Bool.eq_iff_iff]
    simp only [hall, Bool.and_eq_true, all_eq_true, Std.ExtTreeMap.mem_keys, h.mem_steps]
  | anyStepCompleted =>
    rw [Bool.eq_iff_iff]
    simp only [Bool.not_eq_true', isEmpty_eq_false_iff, ← length_pos_iff, h.completed_length hfrom]
  | stepsCompleted => simp only [h.completed_length hfrom]
  | _ => rfl

end Carries

/-- A transition that may be taken before the change is still there, and may be taken when what the
changes touch is satisfied again. -/
theorem Carries.move (h : Carries before after) {t : CeremonyTransition}
    {records : Map StepId StepExecutionRecord} {context : CeremonyContext}
    (ht : t ∈ before.transitions) (hbefore : before.guardsAreSatisfied t records context = true)
    (hagain : ∀ now, after.transitionForTrigger t.from_ t.trigger = some now →
      SatisfiedAgain before after t now records context) :
    ∃ now, after.transitionForTrigger t.from_ t.trigger = some now ∧ now.to_ = t.to_ ∧
      after.guardsAreSatisfied now records context = true := by
  obtain ⟨now, hnow, hto⟩ := h.transitions t ht
  obtain ⟨hmem, hfrom, -⟩ := transitionForTrigger_key hnow
  refine ⟨now, hnow, hto, ?_⟩
  simp only [CeremonyDefinition.guardsAreSatisfied, Bool.and_eq_true, all_eq_true,
    CeremonyDefinition.repeatRequirementsAreSatisfiedForTransition] at hbefore ⊢
  constructor
  · intro step hstep
    by_cases hsame : SameRepeat before after t now step.id
    · have hid := (h.ids_perm now.from_).mem_iff.mpr (mem_map_of_mem hstep)
      obtain ⟨old, hold, hid⟩ := mem_map.mp hid
      rw [← h.satisfiedOrWaived_eq hfrom hsame, ← hid]
      exact hbefore.1 old (hfrom ▸ hold)
    · exact (hagain now hnow).steps step hstep hsame
  · intro name hname
    obtain ⟨guard, hguard⟩ := after.exists_guard hmem hname
    rw [hguard, Option.any_some]
    by_cases hnew : Renewed before after t now guard
    · exact (hagain now hnow).guards name hname guard hguard hnew
    · simp only [Renewed, not_or, not_not, not_exists, not_and] at hnew
      rw [← h.guard_eq hfrom hnew.2]
      have hheld := hbefore.2 guard.name hnew.1
      rw [after.guard_name_of_getElem? hguard] at hheld
      obtain ⟨old, hold, hsatisfied⟩ := (Option.any_eq_true _ _).mp hheld
      cases h.guards hold hguard
      exact hsatisfied

/-- Of every transition that may be taken before the change: it is still there, and may be taken
exactly when the guards that are new to it, and the steps and guards whose repetition has changed,
are satisfied. -/
theorem carried_move_iff (before after : CeremonyDefinition) (t : CeremonyTransition)
    (records : Map StepId StepExecutionRecord) (context : CeremonyContext) :
    ((t ∈ before.transitions ∧ before.guardsAreSatisfied t records context = true ∧
        (between before after).strandsRunningSessions = false) →
      ∃ now, after.transitionForTrigger t.from_ t.trigger = some now ∧ now.to_ = t.to_ ∧
        after.guardsAreSatisfied now records context = true) ↔
    ((t ∈ before.transitions ∧ before.guardsAreSatisfied t records context = true ∧
        (between before after).strandsRunningSessions = false) →
      ∀ now, after.transitionForTrigger t.from_ t.trigger = some now →
        SatisfiedAgain before after t now records context) := by
  refine ⟨fun h hcarried now hnow => ?_, fun h hcarried =>
    (carries_of_diff hcarried.2.2).move hcarried.1 hcarried.2.1 (h hcarried)⟩
  obtain ⟨now', hnow', -, hsatisfied⟩ := h hcarried
  cases hnow.symm.trans hnow'
  simp only [CeremonyDefinition.guardsAreSatisfied, Bool.and_eq_true, all_eq_true,
    CeremonyDefinition.repeatRequirementsAreSatisfiedForTransition] at hsatisfied
  refine ⟨fun step hstep _ => hsatisfied.1 step hstep, fun name hname guard hguard _ => ?_⟩
  simpa [hguard] using hsatisfied.2 name hname

/-- Without a guard that is new to its transition, and with every step repeating and waived as
before, all moves stay: a condition on the two definitions alone. -/
theorem carried_moves_stay (hdiff : (between before after).strandsRunningSessions = false)
    (hsame : ∀ t ∈ before.transitions, ∀ now,
      after.transitionForTrigger t.from_ t.trigger = some now →
      now.requiredGuards ⊆ t.requiredGuards ∧ ∀ stepId, SameRepeat before after t now stepId)
    {t : CeremonyTransition} {records : Map StepId StepExecutionRecord} {context : CeremonyContext}
    (ht : t ∈ before.transitions) (hbefore : before.guardsAreSatisfied t records context = true) :
    ∃ now, after.transitionForTrigger t.from_ t.trigger = some now ∧ now.to_ = t.to_ ∧
      after.guardsAreSatisfied now records context = true := by
  refine (carries_of_diff hdiff).move ht hbefore fun now hnow => ?_
  obtain ⟨hguards, hrepeats⟩ := hsame t ht now hnow
  refine ⟨fun step _ hchanged => absurd (hrepeats step.id) hchanged, ?_⟩
  rintro name hname guard hguard (hnew | ⟨stepId, -, hchanged⟩)
  · rw [after.guard_name_of_getElem? hguard] at hnew
    exact absurd (hguards hname) hnew
  · exact absurd (hrepeats stepId) hchanged

def guardedBy (name : GuardName) : Result CeremonyDefinition :=
  CeremonyDefinition.new ⟨"guarded", .refl true⟩ firstVersion none [] []
    [.initial openState, .terminal doneState]
    [finishing [name]] []
    [⟨⟨"free", .refl true⟩, .always⟩, ⟨⟨"worked", .refl true⟩, .anyStepCompleted⟩] []

/-- The guard is exchanged for one that nothing satisfies: not a larger set, so that it carries. -/
theorem exchanged_guard_is_not_satisfied :
    let before := (guardedBy ⟨"free", by decide⟩).get (by decide +kernel)
    let after := (guardedBy ⟨"worked", by decide⟩).get (by decide +kernel)
    (between before after).strandsRunningSessions = false ∧
      (∃ t ∈ before.transitions, before.guardsAreSatisfied t ∅ .empty = true) ∧
      ∀ now ∈ after.transitions, after.guardsAreSatisfied now ∅ .empty = false := by
  decide +kernel

end Made
