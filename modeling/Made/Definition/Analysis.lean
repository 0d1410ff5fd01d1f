import Made.Definition.Parts

/-!
# Structural analysis of a definition

A definition is accepted when the analysis of its parts finds no error.  The checks are the
blocking ones of the engine, in its order, because the first error is the one construction raises;
findings that only warn are not part of acceptance.

The walk over the transition graph is a worklist loop.  Every transition is pushed at most once, so
`transitions.length + 1` steps finish it.
-/

namespace Made

structure CeremonyDefinitionParts where
  states : Map StateId CeremonyState
  transitions : List CeremonyTransition
  steps : Map StepId CeremonyStep
  stepOrder : List StepId
  guards : Map GuardName CeremonyGuard
  roles : Map RoleId CeremonyRole
  maxTransitions : Option MaxTransitions
  maxBounces : Option MaxBounces
deriving DecidableEq

namespace CeremonyDefinitionParts

variable (parts : CeremonyDefinitionParts)

/-! ## The initial state and the transition graph -/

def collectInitialStateErrors : List DomainError :=
  if parts.states.isEmpty then
    [.emptyCollection "ceremony_definition.states"]
  else if (parts.states.inOrder.filter (·.isInitial)).length ≠ 1 then
    [.invariantViolated "ceremony definition must have exactly one initial state"]
  else
    []

variable (transition : CeremonyTransition)

/-- The guards of one transition: declared, and an exhausted-repeat guard about its source. -/
def transitionGuardErrors : List DomainError :=
  transition.requiredGuards.flatMap fun name =>
    match parts.guards[name]? with
    | none => [.notFound "ceremony_transition.guard"]
    | some guard =>
      match guard.condition with
      | .stepRepeatExhausted stepId =>
        match parts.steps[stepId]? with
        | none => []
        | some step =>
          if step.stateId ≠ transition.from_ then
            [.invariantViolated
              "exhausted-repeat guard must reference a step in the transition source state"]
          else
            []
      | _ => []

/-- One transition after another; `seen` holds the state and trigger pairs accepted so far. -/
def transitionGraphErrors :
    List (StateId × TransitionTrigger) → List CeremonyTransition → List DomainError
  | _, [] => []
  | seen, transition :: rest =>
    match parts.states[transition.from_]? with
    | none => .notFound "ceremony_transition.from_state" :: transitionGraphErrors seen rest
    | some source =>
      if !parts.states.contains transition.to_ then
        .notFound "ceremony_transition.to_state" :: transitionGraphErrors seen rest
      else if source.isTerminal then
        .invariantViolated "terminal ceremony states cannot have outgoing transitions" ::
          transitionGraphErrors seen rest
      else if seen.contains (transition.from_, transition.trigger) then
        .alreadyExists "ceremony_transition.state_trigger" :: transitionGraphErrors seen rest
      else
        parts.transitionGuardErrors transition ++
          transitionGraphErrors ((transition.from_, transition.trigger) :: seen) rest

def collectTransitionGraphErrors : List DomainError :=
  parts.transitionGraphErrors [] parts.transitions

def transitionEndpointsResolve : Bool :=
  parts.transitions.all fun t => parts.states.contains t.from_ && parts.states.contains t.to_

/-! ## Cycles -/

/-- The worklist loop: pop a state, and push the targets of its transitions if it is new. -/
def reachLoop (transitions : List CeremonyTransition) :
    Nat → List StateId → List StateId → List StateId
  | 0, reached, _ => reached
  | fuel + 1, reached, pending =>
    match pending with
    | [] => reached
    | current :: rest =>
      if reached.contains current then
        reachLoop transitions fuel reached rest
      else
        reachLoop transitions fuel (current :: reached)
          (((transitions.filter (·.from_ = current)).map (·.to_)).reverse ++ rest)

def reachableFrom (transitions : List CeremonyTransition) (initial : StateId) : List StateId :=
  reachLoop transitions (transitions.length + 1) [] [initial]

/-- Cyclic strongly connected components, over the states in key order. -/
def cyclicComponents (transitions : List CeremonyTransition) :
    List StateId → List StateId → List (List StateId)
  | _, [] => []
  | assigned, stateId :: rest =>
    if assigned.contains stateId then
      cyclicComponents transitions assigned rest
    else
      let component := (reachableFrom transitions stateId).filter fun candidate =>
        (reachableFrom transitions candidate).contains stateId
      let selfLoop := component.length == 1 &&
        transitions.any fun t => decide (t.from_ = stateId) && decide (t.to_ = stateId)
      let remaining := cyclicComponents transitions (component ++ assigned) rest
      if 1 < component.length || selfLoop then component :: remaining else remaining

def collectCycleErrors : List DomainError :=
  if !parts.transitionEndpointsResolve then []
  else if (cyclicComponents parts.transitions [] parts.states.keys).isEmpty then []
  else if parts.maxTransitions.isNone && parts.maxBounces.isNone then
    [.invariantViolated "cyclic ceremony definition requires max_transitions or max_bounces"]
  else []

/-! ## Steps -/

variable (step : CeremonyStep)

def dynamicRoleErrors (stepId : StepId) : List DomainError :=
  match step.dynamicRoleBinding with
  | none => []
  | some binding =>
    (if binding.allowedRoles.isEmpty then
      [DomainError.emptyCollection "dynamic_role_binding.allowed_roles"] else []) ++
    binding.allowedRoles.flatMap fun roleId =>
      match parts.roles[roleId]? with
      | none => [.notFound "ceremony_step.dynamic_role"]
      | some role =>
        if !role.allows (.step stepId) then
          [.invariantViolated "dynamic role must be authorised for the ceremony step"]
        else
          []

def stepErrors (stepId : StepId) (step : CeremonyStep) : List DomainError :=
  match parts.states[step.stateId]? with
  | none => [.notFound "ceremony_step.state"]
  | some state =>
    (if state.isTerminal then
      [DomainError.invariantViolated "terminal ceremony states cannot own executable steps"]
      else []) ++
    (if step.spawn.isSome && step.repeatPolicy.isSome then
      [DomainError.invariantViolated "child-spawning ceremony steps cannot repeat"] else []) ++
    (if step.spawn.isSome && step.aggregation.isSome then
      [DomainError.invariantViolated
        "a ceremony step cannot both spawn children and aggregate a prior state"] else []) ++
    parts.dynamicRoleErrors step stepId

def collectStepErrors : List DomainError :=
  parts.steps.toList.flatMap fun (stepId, step) => parts.stepErrors stepId step

/-! ## Aggregation -/

def requiredGuardsOf : List CeremonyGuard :=
  transition.requiredGuards.filterMap fun name => parts.guards[name]?

def guardsEveryStep (required : List CeremonyGuard) (steps : List CeremonyStep) : Bool :=
  steps.all fun step => required.any fun guard =>
    match guard.condition with
    | .stepStatus stepId status => stepId == step.id && status.isSuccess
    | _ => false

def requiresEverySibling (steps : List CeremonyStep) : Bool :=
  let required := parts.requiredGuardsOf transition
  required.any (fun guard =>
    match guard.condition with
    | .stepsCompleted count => count.val == steps.length
    | _ => false) || guardsEveryStep required steps

def stepsOf (stateId : StateId) : List CeremonyStep :=
  parts.steps.inOrder.filter (·.stateId = stateId)

/-- The single predecessor of an aggregate step's state, and what its join must be. -/
def predecessorErrors : List DomainError :=
  match parts.transitions.filter (·.to_ = step.stateId) with
  | [transition] =>
    if transition.from_ = transition.to_ then
      [.invariantViolated "aggregate step predecessor must differ from its destination"]
    else
      match parts.states[transition.from_]? with
      | none => []
      | some predecessor =>
        if predecessor.execution ≠ .concurrent then
          [.invariantViolated "aggregate step requires a concurrent predecessor state"]
        else if !parts.requiresEverySibling transition (parts.stepsOf predecessor.id) then
          [.invariantViolated "aggregate step requires an all-siblings predecessor join"]
        else
          []
  | _ => [.invariantViolated "aggregate step requires exactly one predecessor state"]

def aggregateStepErrors : List DomainError :=
  match parts.states[step.stateId]? with
  | none => []
  | some destination =>
    let firstInState := parts.stepOrder.find? fun candidate =>
      parts.steps[candidate]?.any (·.stateId = step.stateId)
    (if destination.isInitial then
      [DomainError.invariantViolated "aggregate step cannot belong to the initial state"]
      else []) ++
    (if destination.execution ≠ .sequential then
      [DomainError.invariantViolated "aggregate step destination state must be sequential"]
      else []) ++
    (if firstInState ≠ some step.id then
      [DomainError.invariantViolated "aggregate step must be first in its destination state"]
      else []) ++
    (if (step.handlerConfig.get "see_prior").bind Value.asBool ≠ some true then
      [DomainError.invariantViolated "aggregate step requires see_prior: true"] else []) ++
    parts.predecessorErrors step

def collectAggregationErrors : List DomainError :=
  (parts.steps.inOrder.filter (·.aggregation.isSome)).flatMap parts.aggregateStepErrors

/-! ## Repeats and guards -/

def collectStateRepeatErrors : List DomainError :=
  parts.states.inOrder.flatMap fun state =>
    match state.repeat_ with
    | none => []
    | some policy =>
      match parts.steps[policy.until_.stepId]? with
      | none => [.notFound "ceremony_state.repeat.until.step"]
      | some step =>
        if step.stateId ≠ state.id then
          [.invariantViolated "state repeat condition must reference a step in that state"]
        else
          []

def childrenGuardErrors : GuardCondition → List DomainError
  | .childrenCompleted _ join =>
    match step.spawn with
    | none =>
      [.invariantViolated "children_completed guard must reference a child-spawning step"]
    | some spawn =>
      match join with
      | .quorum count =>
        if spawn.children.length < count.val then
          [.outOfRange "child_quorum" count.val 1 spawn.children.length]
        else
          []
      | _ => []
  | _ => []

def guardErrors (guard : CeremonyGuard) : List DomainError :=
  match guard.condition.referencedStepId with
  | none => []
  | some stepId =>
    match parts.steps[stepId]? with
    | none => [.notFound "ceremony_guard.step"]
    | some step =>
      (match guard.condition with
        | .stepRepeatExhausted _ =>
          if step.repeatPolicy.isNone then
            [DomainError.invariantViolated "exhausted-repeat guard must reference a repeating step"]
          else []
        | _ => []) ++
      childrenGuardErrors step guard.condition

def collectGuardErrors : List DomainError := parts.guards.inOrder.flatMap parts.guardErrors

/-- Guards about an exhausted state repeat: the state exists and repeats. -/
def exhaustedStateGuardErrors (guard : CeremonyGuard) : List DomainError :=
  match guard.condition with
  | .stateRepeatExhausted stateId =>
    match parts.states[stateId]? with
    | none => [.notFound "ceremony_guard.state"]
    | some state =>
      if state.repeat_.isNone then
        [.invariantViolated "exhausted-state-repeat guard must reference a repeating state"]
      else
        []
  | _ => []

/-- A transition whose exhausted-state guard is about another state than its source. -/
def exhaustedStateTransitionErrors : List DomainError :=
  if (parts.requiredGuardsOf transition).any (fun guard =>
      match guard.condition with
      | .stateRepeatExhausted stateId => decide (stateId ≠ transition.from_)
      | _ => false) then
    [.invariantViolated "exhausted-state-repeat guard must reference the transition source state"]
  else
    []

def collectStateRepeatExhaustionErrors : List DomainError :=
  parts.guards.inOrder.flatMap parts.exhaustedStateGuardErrors ++
    parts.transitions.flatMap parts.exhaustedStateTransitionErrors

/-! ## Roles and concurrent states -/

def roleActionErrors (action : RoleAction) : List DomainError :=
  match action with
  | .step stepId =>
    if parts.steps.contains stepId then [] else [.notFound "ceremony_role.step_action"]
  | .transition trigger =>
    if parts.transitions.any (·.trigger = trigger) then []
    else [.notFound "ceremony_role.transition_action"]
  | _ => []

def collectRoleErrors : List DomainError :=
  parts.roles.inOrder.flatMap fun role => role.allowedActions.flatMap parts.roleActionErrors

def ownerOf : Option RoleId :=
  (parts.roles.inOrder.find? (·.allows (.step step.id))).map (·.id)

def transitionHasJoin (steps : List CeremonyStep) : Bool :=
  let required := parts.requiredGuardsOf transition
  required.any (fun guard =>
    match guard.condition with
    | .allStepsCompleted | .anyStepCompleted | .stepsCompleted _ => true
    | _ => false) || guardsEveryStep required steps

def joinCountErrors (steps : List CeremonyStep) : List DomainError :=
  (parts.requiredGuardsOf transition).flatMap fun guard =>
    match guard.condition with
    | .stepsCompleted count =>
      if steps.length < count.val then
        [.outOfRange "join_step_count" count.val 1 steps.length]
      else
        []
    | _ => []

def concurrentStateErrors (state : CeremonyState) : List DomainError :=
  let steps := parts.stepsOf state.id
  let staticOwners := (steps.filter (·.dynamicRoleBinding.isNone)).filterMap parts.ownerOf
  let outgoing := parts.transitions.filter (·.from_ = state.id)
  (if ¬ staticOwners.Nodup then
    [DomainError.invariantViolated "concurrent ceremony steps must have distinct role owners"]
    else []) ++
  (if !outgoing.any (fun t => parts.transitionHasJoin t steps) then
    [DomainError.invariantViolated "concurrent ceremony state requires an outgoing join guard"]
    else []) ++
  outgoing.flatMap fun t => parts.joinCountErrors t steps

def collectConcurrentStateErrors : List DomainError :=
  (parts.states.inOrder.filter (·.execution = .concurrent)).flatMap parts.concurrentStateErrors

/-! ## Acceptance -/

def collectErrors : List DomainError :=
  parts.collectInitialStateErrors ++ parts.collectTransitionGraphErrors ++
    parts.collectCycleErrors ++ parts.collectStepErrors ++ parts.collectAggregationErrors ++
    parts.collectStateRepeatErrors ++ parts.collectGuardErrors ++
    parts.collectStateRepeatExhaustionErrors ++ parts.collectRoleErrors ++
    parts.collectConcurrentStateErrors

def firstError : Option DomainError := parts.collectErrors.head?

end CeremonyDefinitionParts

end Made
