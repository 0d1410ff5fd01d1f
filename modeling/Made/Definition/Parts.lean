import Made.Values.Step

/-!
# The parts of a ceremony definition

States, transitions, steps, guards and roles, as an author declares them.  A definition is a state
machine: each state owns steps, a transition leaves a state when its guards hold, and a role says
who may run which step, fire which trigger, or open and answer interventions.
-/

namespace Made

abbrev MaxTransitions := Ordinal ⟨"max_transitions", u32Max⟩
abbrev MaxBounces := Ordinal ⟨"max_bounces", u32Max⟩
abbrev MaxParallel := Ordinal ⟨"max_parallel", 8⟩
abbrev JoinStepCount := Ordinal ⟨"join_step_count", u32Max⟩
abbrev ChildQuorum := Ordinal ⟨"child_quorum", 65535⟩
abbrev MaxChildren := Ordinal ⟨"max_children", 64⟩
abbrev MaxChildDepth := Ordinal ⟨"max_child_depth", 16⟩

/-! ## States -/

inductive CeremonyStateKind where
  | initial
  | intermediate
  | terminal
deriving DecidableEq, Repr

inductive StateExecution where
  | sequential
  | concurrent
deriving DecidableEq, Repr

/-- A stop condition of a repeating state: a step of it completed with the expected output. -/
structure StateRepeatUntilCondition where
  stepId : StepId
  outputField : StepOutputField
  equals : Value
deriving DecidableEq

def StateRepeatUntilCondition.isSatisfied (c : StateRepeatUntilCondition)
    (record : StepExecutionRecord) : Bool :=
  record.status.isSuccess && record.output.attributes.get c.outputField.val = some c.equals

structure StateRepeatPolicy where
  maxIterations : StateIteration
  until_ : StateRepeatUntilCondition
deriving DecidableEq

def StateRepeatPolicy.isSatisfied (p : StateRepeatPolicy) (record : StepExecutionRecord) : Bool :=
  p.until_.isSatisfied record

def StateRepeatPolicy.permitsAnotherIteration (p : StateRepeatPolicy)
    (current : StateIteration) : Bool :=
  current.val < p.maxIterations.val

structure CeremonyState where
  id : StateId
  kind : CeremonyStateKind
  execution : StateExecution
  repeat_ : Option StateRepeatPolicy
  annotations : Attributes
deriving DecidableEq

def CeremonyState.new (id : StateId) (kind : CeremonyStateKind) : CeremonyState :=
  ⟨id, kind, .sequential, none, .empty⟩

def CeremonyState.initial (id : StateId) : CeremonyState := .new id .initial

def CeremonyState.intermediate (id : StateId) : CeremonyState := .new id .intermediate

def CeremonyState.terminal (id : StateId) : CeremonyState := .new id .terminal

def CeremonyState.isInitial (s : CeremonyState) : Bool := s.kind == .initial

def CeremonyState.isTerminal (s : CeremonyState) : Bool := s.kind == .terminal

/-! ## Steps -/

/-- Where a step copies fields of its output into the ceremony context. -/
abbrev ContextWrites := Map ContextKey StepOutputField

structure RepeatUntilCondition where
  field : StepOutputField
  expected : Value
deriving DecidableEq

def RepeatUntilCondition.isSatisfied (c : RepeatUntilCondition) (output : StepOutput) : Bool :=
  output.attributes.get c.field.val = some c.expected

structure StepRepeatPolicy where
  until_ : RepeatUntilCondition
  maxIterations : StepIteration
deriving DecidableEq

def StepRepeatPolicy.isSatisfied (p : StepRepeatPolicy) (output : StepOutput) : Bool :=
  p.until_.isSatisfied output

def StepRepeatPolicy.permitsAnotherIteration (p : StepRepeatPolicy)
    (current : StepIteration) : Bool :=
  current.val < p.maxIterations.val

structure RetryPolicy where
  maxAttempts : StepAttempt
  backoff : DurationMs
deriving DecidableEq

def RetryPolicy.singleAttempt : RetryPolicy := ⟨StepAttempt.first, DurationMs.zero⟩

def RetryPolicy.allowsAttempt (p : RetryPolicy) (attempt : StepAttempt) : Bool :=
  attempt.val ≤ p.maxAttempts.val

structure DynamicRoleBinding where
  contextKey : ContextKey
  allowedRoles : List RoleId
deriving DecidableEq

def DynamicRoleBinding.allows (b : DynamicRoleBinding) (roleId : RoleId) : Bool :=
  b.allowedRoles.contains roleId

structure CeremonyChildSpec where
  ceremony : CeremonyName
  version : CeremonyVersion
  inputs : Map InputName ContextKey
deriving DecidableEq

structure CeremonyChildSpawn where
  children : List CeremonyChildSpec
  maxChildren : MaxChildren
  maxDepth : MaxChildDepth
deriving DecidableEq

inductive CeremonyStepAggregation where
  | synthesize
  | vote (outputField : StepOutputField)
deriving DecidableEq

structure Timeout where
  duration : DurationMs
  nonzero : duration ≠ DurationMs.zero := by decide
deriving DecidableEq

structure CeremonyStep where
  id : StepId
  stateId : StateId
  handlerKind : StepHandlerKind
  handlerConfig : Attributes
  retryPolicy : RetryPolicy
  timeout : Option Timeout
  repeatPolicy : Option StepRepeatPolicy
  dynamicRoleBinding : Option DynamicRoleBinding
  contextWrites : ContextWrites
  spawn : Option CeremonyChildSpawn
  aggregation : Option CeremonyStepAggregation
deriving DecidableEq

def CeremonyStep.new (id : StepId) (stateId : StateId) (handlerKind : StepHandlerKind)
    (handlerConfig : Attributes) (retryPolicy : RetryPolicy) (timeout : Option Timeout) :
    CeremonyStep where
  id := id
  stateId := stateId
  handlerKind := handlerKind
  handlerConfig := handlerConfig
  retryPolicy := retryPolicy
  timeout := timeout
  repeatPolicy := none
  dynamicRoleBinding := none
  contextWrites := ∅
  spawn := none
  aggregation := none

/-! ## Contexts -/

structure CeremonyContext where
  attributes : Attributes
deriving DecidableEq

/-- Entries to be written into a context; a patch is never empty. -/
structure ContextPatch where
  entries : Map ContextKey Value
  nonempty : entries.isEmpty = false
deriving DecidableEq

def ContextPatch.new (entries : Map ContextKey Value) : Result ContextPatch :=
  if h : entries.isEmpty = false then
    .ok ⟨entries, h⟩
  else
    Outcome.refuse (.emptyCollection "context_patch.entries")

namespace CeremonyContext

def empty : CeremonyContext := ⟨Attributes.empty⟩

/-- The entries of a context with those of a patch inserted over them. -/
def patchEntries (entries : Map String Value) (patch : ContextPatch) : Map String Value :=
  patch.entries.foldl (fun acc key value => acc.insert key.val value) entries

variable (c : CeremonyContext)

def withGuardApproval (guardName : GuardName) : Result CeremonyContext := do
  let attributes ← Attributes.new (c.attributes.entries.insert guardName.val (.bool true))
  pure ⟨attributes⟩

def withPatch (patch : ContextPatch) : Result CeremonyContext := do
  let attributes ← Attributes.new (patchEntries c.attributes.entries patch)
  pure ⟨attributes⟩

def get (key : ContextKey) : Option Value := c.attributes.get key.val

def isGuardApproved (guardName : GuardName) : Bool :=
  ((c.attributes.get guardName.val).bind Value.asBool).getD false

end CeremonyContext

/-- The patch a step's output resolves to: every declared field must be present. -/
def ContextWrites.resolve (writes : ContextWrites) (output : StepOutput) :
    Result (Option ContextPatch) :=
  if writes.isEmpty then
    .ok none
  else do
    let patch ← writes.toList.foldlM
      (fun (acc : Map ContextKey Value) (entry : ContextKey × StepOutputField) => do
        let value ← Outcome.okOr (output.attributes.get entry.2.val)
          (.notFound "ceremony_step.context_write.output_field")
        pure (acc.insert entry.1 value))
      ∅
    let patch ← ContextPatch.new patch
    pure (some patch)

/-! ## Guards and transitions -/

inductive ChildJoin where
  | all
  | any
  | quorum (count : ChildQuorum)
deriving DecidableEq

def ChildJoin.isSatisfied (join : ChildJoin) (completed total : Nat) : Bool :=
  match join with
  | all => 0 < total && completed == total
  | any => 0 < completed
  | quorum count => count.val ≤ completed

inductive GuardCondition where
  | always
  | allStepsCompleted
  | anyStepCompleted
  | stepsCompleted (count : JoinStepCount)
  | stepStatus (stepId : StepId) (status : StepStatus)
  | outputField (stepId : StepId) (field : StepOutputField) (expected : Value)
  | stepRepeatExhausted (stepId : StepId)
  | childrenCompleted (stepId : StepId) (join : ChildJoin)
  | humanApproval
  | stateRepeatExhausted (stateId : StateId)
deriving DecidableEq

def GuardCondition.referencedStepId : GuardCondition → Option StepId
  | stepStatus stepId _ => some stepId
  | outputField stepId _ _ => some stepId
  | stepRepeatExhausted stepId => some stepId
  | childrenCompleted stepId _ => some stepId
  | always | allStepsCompleted | anyStepCompleted | stepsCompleted _ | humanApproval
  | stateRepeatExhausted _ => none

structure CeremonyGuard where
  name : GuardName
  condition : GuardCondition
deriving DecidableEq

/-- `OutputFieldGuardCondition::is_satisfied`. -/
def outputFieldSatisfied (field : StepOutputField) (expected : Value)
    (record : StepExecutionRecord) : Bool :=
  record.status.isSuccess && record.output.attributes.get field.val = some expected

/-- The guard alone, without what the definition and the instance add to it. -/
def CeremonyGuard.isSatisfied (guard : CeremonyGuard) (records : Map StepId StepExecutionRecord)
    (context : CeremonyContext) : Bool :=
  match guard.condition with
  | .always => true
  | .allStepsCompleted => !records.isEmpty && records.inOrder.all (·.status.isSuccess)
  | .anyStepCompleted => records.inOrder.any (·.status.isSuccess)
  | .stepsCompleted count => count.val ≤ (records.inOrder.filter (·.status.isSuccess)).length
  | .stepStatus stepId status => records[stepId]?.any (·.status == status)
  | .outputField stepId field expected => records[stepId]?.any (outputFieldSatisfied field expected)
  | .stepRepeatExhausted _ | .childrenCompleted _ _ | .stateRepeatExhausted _ => false
  | .humanApproval => context.isGuardApproved guard.name

structure CeremonyTransition where
  from_ : StateId
  to_ : StateId
  trigger : TransitionTrigger
  requiredGuards : List GuardName
deriving DecidableEq

/-! ## Roles and inputs -/

inductive RoleAction where
  | step (stepId : StepId)
  | transition (trigger : TransitionTrigger)
  | requestIntervention
  | respondToIntervention
deriving DecidableEq

def RoleAction.stepId : RoleAction → Option StepId
  | step stepId => some stepId
  | _ => none

structure CeremonyRole where
  id : RoleId
  allowedActions : List RoleAction
  nonempty : allowedActions ≠ []
deriving DecidableEq

def CeremonyRole.of (id : RoleId) (action : RoleAction) (more : List RoleAction) : CeremonyRole :=
  ⟨id, action :: more, List.cons_ne_nil action more⟩

def CeremonyRole.allows (role : CeremonyRole) (action : RoleAction) : Bool :=
  role.allowedActions.contains action

structure CeremonyInputDefinition where
  name : InputName
  required : Bool
deriving DecidableEq

structure CeremonyOutputDefinition where
  name : OutputName
deriving DecidableEq

end Made
