import Made.Definition.Analysis

/-!
# Ceremony definitions

A `CeremonyDefinition` carries the proof that it was accepted: its indexes are consistent and the
analysis of its parts finds no error.  What the engine reads out of a definition under the promise
of that acceptance (the initial state, the steps in declaration order) is total here because the
proof is part of the value.
-/

namespace Made

open Outcome Std ExtTreeMap

/-! ## Indexes -/

/-- Every map of the parts is keyed by the identity of its values, and the declaration order lists
the steps once each. -/
def CeremonyDefinitionParts.isIndexed (parts : CeremonyDefinitionParts) : Bool :=
  parts.states.toList.all (fun entry => entry.1 = entry.2.id) &&
    parts.steps.toList.all (fun entry => entry.1 = entry.2.id) &&
    parts.guards.toList.all (fun entry => entry.1 = entry.2.name) &&
    parts.roles.toList.all (fun entry => entry.1 = entry.2.id) &&
    parts.stepOrder.all parts.steps.contains &&
    parts.steps.keys.all parts.stepOrder.contains &&
    decide parts.stepOrder.Nodup

def CeremonyDefinitionParts.isAccepted (parts : CeremonyDefinitionParts) : Bool :=
  parts.isIndexed && parts.firstError.isNone

structure CeremonyDefinition extends CeremonyDefinitionParts where
  name : CeremonyName
  version : CeremonyVersion
  description : Option CeremonyDescription
  inputs : Map InputName CeremonyInputDefinition
  outputs : Map OutputName CeremonyOutputDefinition
  maxParallel : MaxParallel
  ceremonyTimeout : Option Timeout
  stateTimeout : Option Timeout
  accepted : toCeremonyDefinitionParts.isAccepted = true
deriving DecidableEq

/-- Index declared values by a key, refusing a key that was declared before. -/
def collect {κ α : Type} [Ord κ] [Std.TransOrd κ] (key : α → κ) (what : String) :
    List α → Map κ α → Result (Map κ α)
  | [], map => .ok map
  | value :: rest, map =>
    if map.contains (key value) then
      refuse (.alreadyExists what)
    else
      collect key what rest (map.insert (key value) value)

section collect

variable {κ α : Type} [Ord κ] [Std.TransOrd κ] [Std.LawfulEqOrd κ] {key : α → κ} {what : String}
  {result : Map κ α}

theorem collect_keyed {values : List α} {map : Map κ α}
    (h : collect key what values map = .ok result)
    (hmap : ∀ k v, map[k]? = some v → k = key v) : ∀ k v, result[k]? = some v → k = key v := by
  induction values generalizing map with
  | nil =>
    cases h
    exact hmap
  | cons value rest ih =>
    simp only [collect, ite_eq_ok, refuse_ne_ok, and_false, false_or] at h
    refine ih h.2 fun k v hv => ?_
    rw [getElem?_insert] at hv
    split at hv
    case isTrue heq =>
      cases hv
      exact (Std.LawfulEqOrd.eq_of_compare heq).symm
    case isFalse => exact hmap k v hv

/-- The keys of a collected map are those it started with and those of the values. -/
theorem collect_mem {values : List α} {map : Map κ α} (h : collect key what values map = .ok result)
    (k : κ) : k ∈ result ↔ k ∈ map ∨ k ∈ values.map key := by
  induction values generalizing map with
  | nil =>
    cases h
    simp
  | cons value rest ih =>
    simp only [collect, ite_eq_ok, refuse_ne_ok, and_false, false_or] at h
    rw [ih h.2, mem_insert, List.map_cons, List.mem_cons, Std.LawfulEqCmp.compare_eq_iff_eq]
    constructor
    · rintro ((rfl | hk) | hk)
      · exact .inr (.inl rfl)
      · exact .inl hk
      · exact .inr (.inr hk)
    · rintro (hk | rfl | hk)
      · exact .inl (.inr hk)
      · exact .inl (.inl rfl)
      · exact .inr hk

omit [Std.LawfulEqOrd κ] in
theorem collect_nodup {values : List α} {map : Map κ α}
    (h : collect key what values map = .ok result) :
    (values.map key).Nodup ∧ ∀ v ∈ values, key v ∉ map := by
  induction values generalizing map with
  | nil => simp
  | cons value rest ih =>
    simp only [collect, ite_eq_ok, refuse_ne_ok, and_false, false_or] at h
    obtain ⟨hnd, hfresh⟩ := ih h.2
    have hvalue : key value ∉ map := by simpa using h.1
    refine ⟨?_, ?_⟩
    · rw [List.map_cons, List.nodup_cons]
      refine ⟨fun hmem => ?_, hnd⟩
      obtain ⟨v, hv, heq⟩ := List.mem_map.mp hmem
      apply hfresh v hv
      rw [heq]
      exact mem_insert_self
    · intro v hv
      rcases List.mem_cons.mp hv with rfl | hv
      · exact hvalue
      · intro hmem
        exact hfresh v hv (mem_insert.mpr (.inr hmem))

end collect

namespace CeremonyDefinition

theorem toList_all_keyed {κ α : Type} [Ord κ] [Std.TransOrd κ] [Std.LawfulEqOrd κ]
    [DecidableEq κ] {map : Map κ α} {key : α → κ} (h : ∀ k v, map[k]? = some v → k = key v) :
    map.toList.all (fun entry => decide (entry.1 = key entry.2)) = true := by
  rw [List.all_eq_true]
  rintro ⟨k, v⟩ hmem
  rw [mem_toList_iff_getElem?_eq_some] at hmem
  simpa using h k v hmem

theorem isIndexed_of_collect {states : List CeremonyState} {steps : List CeremonyStep}
    {guards : List CeremonyGuard} {roles : List CeremonyRole} {parts : CeremonyDefinitionParts}
    (hstates : collect (·.id) "ceremony_state" states ∅ = .ok parts.states)
    (hsteps : collect (·.id) "ceremony_step" steps ∅ = .ok parts.steps)
    (hguards : collect (·.name) "ceremony_guard" guards ∅ = .ok parts.guards)
    (hroles : collect (·.id) "ceremony_role" roles ∅ = .ok parts.roles)
    (horder : parts.stepOrder = steps.map (·.id)) : parts.isIndexed = true := by
  have hempty {κ α : Type} [Ord κ] [Std.TransOrd κ] (key : α → κ) :
      ∀ k v, (∅ : Map κ α)[k]? = some v → k = key v := by simp
  simp only [CeremonyDefinitionParts.isIndexed, Bool.and_eq_true, horder]
  refine ⟨⟨⟨⟨⟨⟨?_, ?_⟩, ?_⟩, ?_⟩, ?_⟩, ?_⟩, ?_⟩
  · exact toList_all_keyed (collect_keyed hstates (hempty _))
  · exact toList_all_keyed (collect_keyed hsteps (hempty _))
  · exact toList_all_keyed (collect_keyed hguards (hempty _))
  · exact toList_all_keyed (collect_keyed hroles (hempty _))
  · simp only [List.all_eq_true, contains_iff_mem]
    intro k hk
    exact (collect_mem hsteps k).mpr (.inr hk)
  · simp only [List.all_eq_true, List.contains_iff_mem, mem_keys]
    intro k hk
    rcases (collect_mem hsteps k).mp hk with hk | hk
    · simp at hk
    · exact hk
  · rw [decide_eq_true_eq]
    exact (collect_nodup hsteps).1

/-- Assemble a definition from declared parts, as the engine does: collect, then analyse. -/
def newWithTransitionBudgets (name : CeremonyName) (version : CeremonyVersion)
    (description : Option CeremonyDescription) (inputs : List CeremonyInputDefinition)
    (outputs : List CeremonyOutputDefinition) (states : List CeremonyState)
    (transitions : List CeremonyTransition) (steps : List CeremonyStep)
    (guards : List CeremonyGuard) (roles : List CeremonyRole)
    (maxTransitions : Option MaxTransitions) (maxBounces : Option MaxBounces) :
    Result CeremonyDefinition := do
  let inputs ← collect (·.name) "ceremony_input" inputs ∅
  let outputs ← collect (·.name) "ceremony_output" outputs ∅
  match hstates : collect (·.id) "ceremony_state" states ∅,
      hsteps : collect (·.id) "ceremony_step" steps ∅,
      hguards : collect (·.name) "ceremony_guard" guards ∅,
      hroles : collect (·.id) "ceremony_role" roles ∅ with
  | .ok states, .ok stepMap, .ok guards, .ok roles =>
    let parts : CeremonyDefinitionParts :=
      { states, transitions, steps := stepMap, stepOrder := steps.map (·.id), guards, roles,
        maxTransitions, maxBounces }
    match herror : parts.firstError with
    | some defect => refuse defect
    | none =>
      pure { parts with
        name, version, description, inputs, outputs
        maxParallel := ⟨3, by decide, by decide⟩
        ceremonyTimeout := none
        stateTimeout := none
        accepted := by
          have hindexed : parts.isIndexed = true :=
            isIndexed_of_collect hstates hsteps hguards hroles rfl
          simp [CeremonyDefinitionParts.isAccepted, hindexed, herror] }
  | .error e, _, _, _ => .error e
  | _, .error e, _, _ => .error e
  | _, _, .error e, _ => .error e
  | _, _, _, .error e => .error e

def new (name : CeremonyName) (version : CeremonyVersion)
    (description : Option CeremonyDescription) (inputs : List CeremonyInputDefinition)
    (outputs : List CeremonyOutputDefinition) (states : List CeremonyState)
    (transitions : List CeremonyTransition) (steps : List CeremonyStep)
    (guards : List CeremonyGuard) (roles : List CeremonyRole) : Result CeremonyDefinition :=
  newWithTransitionBudgets name version description inputs outputs states transitions steps guards
    roles none none

def withMaxParallel (d : CeremonyDefinition) (maxParallel : MaxParallel) : CeremonyDefinition :=
  { d with maxParallel }

def withCeremonyTimeout (d : CeremonyDefinition) (timeout : Timeout) : CeremonyDefinition :=
  { d with ceremonyTimeout := some timeout }

def withStateTimeout (d : CeremonyDefinition) (timeout : Timeout) : CeremonyDefinition :=
  { d with stateTimeout := some timeout }

/-! ## What acceptance says -/

section accepted

variable (d : CeremonyDefinition)

theorem isIndexed : d.toCeremonyDefinitionParts.isIndexed = true := by
  have h := d.accepted
  simp only [CeremonyDefinitionParts.isAccepted, Bool.and_eq_true] at h
  exact h.1

theorem firstError_eq_none : d.toCeremonyDefinitionParts.firstError = none := by
  have h := d.accepted
  simp only [CeremonyDefinitionParts.isAccepted, Bool.and_eq_true, Option.isNone_iff_eq_none] at h
  exact h.2

theorem collectErrors_eq_nil : d.toCeremonyDefinitionParts.collectErrors = [] := by
  simpa [CeremonyDefinitionParts.firstError] using d.firstError_eq_none

theorem step_id_of_getElem? {stepId : StepId} {step : CeremonyStep}
    (h : d.steps[stepId]? = some step) : step.id = stepId := by
  have hi := d.isIndexed
  simp only [CeremonyDefinitionParts.isIndexed, Bool.and_eq_true, List.all_eq_true] at hi
  have := hi.1.1.1.1.1.2 (stepId, step) (mem_toList_iff_getElem?_eq_some.mpr h)
  simpa using (of_decide_eq_true this).symm

theorem guard_name_of_getElem? {name : GuardName} {guard : CeremonyGuard}
    (h : d.guards[name]? = some guard) : guard.name = name := by
  have hi := d.isIndexed
  simp only [CeremonyDefinitionParts.isIndexed, Bool.and_eq_true, List.all_eq_true] at hi
  have := hi.1.1.1.1.2 (name, guard) (mem_toList_iff_getElem?_eq_some.mpr h)
  simpa using (of_decide_eq_true this).symm

theorem stepOrder_nodup : d.stepOrder.Nodup := by
  have hi := d.isIndexed
  simp only [CeremonyDefinitionParts.isIndexed, Bool.and_eq_true, decide_eq_true_eq] at hi
  exact hi.2

theorem mem_stepOrder_iff (stepId : StepId) : stepId ∈ d.stepOrder ↔ stepId ∈ d.steps := by
  have hi := d.isIndexed
  simp only [CeremonyDefinitionParts.isIndexed, Bool.and_eq_true, List.all_eq_true,
    List.contains_iff_mem, mem_keys, contains_iff_mem] at hi
  exact ⟨hi.1.1.2 stepId, hi.1.2 stepId⟩

theorem exists_initial : ∃ state ∈ d.states.inOrder, state.isInitial = true := by
  have h := d.collectErrors_eq_nil
  simp only [CeremonyDefinitionParts.collectErrors, List.append_eq_nil_iff] at h
  have hinit : d.collectInitialStateErrors = [] := h.1.1.1.1.1.1.1.1.1
  unfold CeremonyDefinitionParts.collectInitialStateErrors at hinit
  split at hinit
  · simp at hinit
  · split at hinit
    · simp at hinit
    case isFalse hcnt =>
      have hlen : (d.states.inOrder.filter (·.isInitial)).length = 1 := not_not.mp hcnt
      obtain ⟨state, hstate⟩ := List.length_eq_one_iff.mp hlen
      have hmem : state ∈ d.states.inOrder.filter (·.isInitial) := by simp [hstate]
      exact ⟨state, List.mem_of_mem_filter hmem, List.of_mem_filter hmem⟩

theorem transitionGuardErrors_eq_nil {parts : CeremonyDefinitionParts}
    {seen : List (StateId × TransitionTrigger)} {transitions : List CeremonyTransition}
    (h : parts.transitionGraphErrors seen transitions = []) :
    ∀ t ∈ transitions, parts.transitionGuardErrors t = [] := by
  induction transitions generalizing seen with
  | nil => simp
  | cons first rest ih =>
    rw [CeremonyDefinitionParts.transitionGraphErrors] at h
    split at h
    · cases h
    · split_ifs at h
      rw [List.append_eq_nil_iff] at h
      exact List.forall_mem_cons.mpr ⟨h.1, ih h.2⟩

theorem exists_guard {t : CeremonyTransition} {name : GuardName} (ht : t ∈ d.transitions)
    (hname : name ∈ t.requiredGuards) : ∃ guard, d.guards[name]? = some guard := by
  have h := d.collectErrors_eq_nil
  simp only [CeremonyDefinitionParts.collectErrors, List.append_eq_nil_iff] at h
  have hguards := transitionGuardErrors_eq_nil h.1.1.1.1.1.1.1.1.2 t ht
  rw [CeremonyDefinitionParts.transitionGuardErrors, List.flatMap_eq_nil_iff] at hguards
  cases hguard : d.guards[name]? with
  | none => simpa [hguard] using hguards name hname
  | some guard => exact ⟨guard, rfl⟩

/-! ## Reading a definition -/

/-- The steps in declaration order.  Acceptance answers for the lookup of every one of them. -/
def stepsInDeclarationOrder : List CeremonyStep :=
  d.stepOrder.attach.map fun ⟨stepId, h⟩ =>
    d.steps.get stepId ((d.mem_stepOrder_iff stepId).mp h)

/-- The one initial state, which acceptance provides. -/
def initialStateId : StateId :=
  ((d.states.inOrder.find? (·.isInitial)).get (List.find?_isSome.mpr d.exists_initial)).id

variable (stateId : StateId)

def state : Option CeremonyState := d.states[stateId]?

def step (stepId : StepId) : Option CeremonyStep := d.steps[stepId]?

def role (roleId : RoleId) : Option CeremonyRole := d.roles[roleId]?

def stepsForState : List CeremonyStep :=
  d.stepsInDeclarationOrder.filter (·.stateId = stateId)

def isTerminalState : Bool := (d.state stateId).any (·.isTerminal)

def transitionForTrigger (trigger : TransitionTrigger) : Option CeremonyTransition :=
  d.transitions.find? fun t => decide (t.from_ = stateId) && decide (t.trigger = trigger)

def roleAllows (roleId : RoleId) (action : RoleAction) : Bool :=
  (d.role roleId).any (·.allows action)

def roleForAction (action : RoleAction) : Option CeremonyRole :=
  d.roles.inOrder.find? (·.allows action)

def roleIdForStep (stepId : StepId) : Result RoleId :=
  okOr ((d.roleForAction (.step stepId)).map (·.id))
    (.invariantViolated "no ceremony role can execute step")

theorem map_id_stepsInDeclarationOrder : d.stepsInDeclarationOrder.map (·.id) = d.stepOrder := by
  have h : ∀ stepId (hm : stepId ∈ d.stepOrder),
      (d.steps.get stepId ((d.mem_stepOrder_iff stepId).mp hm)).id = stepId := by
    intro stepId hm
    exact d.step_id_of_getElem? (getElem?_eq_some_getElem _)
  rw [stepsInDeclarationOrder, List.map_map]
  calc d.stepOrder.attach.map _ = d.stepOrder.attach.map Subtype.val := by
        refine List.map_congr_left fun entry _ => ?_
        exact h entry.1 entry.2
    _ = d.stepOrder := List.attach_map_subtype_val _

theorem mem_stepsInDeclarationOrder (step : CeremonyStep) :
    step ∈ d.stepsInDeclarationOrder ↔ d.step step.id = some step := by
  simp only [stepsInDeclarationOrder, List.mem_map, List.mem_attach, true_and, Subtype.exists]
  constructor
  · rintro ⟨stepId, hm, rfl⟩
    have hget : d.steps[stepId]? = some (d.steps.get stepId ((d.mem_stepOrder_iff stepId).mp hm)) :=
      getElem?_eq_some_getElem _
    rw [step, d.step_id_of_getElem? hget]
    exact hget
  · intro h
    have hmem : step.id ∈ d.steps := by
      rw [mem_iff_isSome_getElem?]
      exact Option.isSome_of_eq_some h
    refine ⟨step.id, (d.mem_stepOrder_iff _).mpr hmem, ?_⟩
    exact Option.some.inj ((getElem?_eq_some_getElem hmem).symm.trans h)

theorem mem_stepsForState (step : CeremonyStep) :
    step ∈ d.stepsForState stateId ↔ d.step step.id = some step ∧ step.stateId = stateId := by
  simp [stepsForState, mem_stepsInDeclarationOrder]

theorem mem_stepsForState_ids (stepId : StepId) :
    stepId ∈ (d.stepsForState stateId).map (·.id) ↔
      (d.step stepId).map (·.stateId) = some stateId := by
  simp only [List.mem_map, mem_stepsForState, Option.map_eq_some_iff]
  constructor
  · rintro ⟨step, ⟨hstep, hstate⟩, rfl⟩
    exact ⟨step, hstep, hstate⟩
  · rintro ⟨step, hstep, hstate⟩
    cases d.step_id_of_getElem? hstep
    exact ⟨step, ⟨hstep, hstate⟩, rfl⟩

theorem stepsInDeclarationOrder_ids_nodup : (d.stepsInDeclarationOrder.map (·.id)).Nodup := by
  rw [map_id_stepsInDeclarationOrder]
  exact d.stepOrder_nodup

theorem stepsForState_ids_nodup : ((d.stepsForState stateId).map (·.id)).Nodup :=
  d.stepsInDeclarationOrder_ids_nodup.sublist (List.filter_sublist.map _)

end accepted

end CeremonyDefinition

end Made
