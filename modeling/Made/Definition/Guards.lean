import Made.Definition.Definition

/-!
# Guards under the rules of a definition

A raw `completed` record is not enough for a repeating step: its stop condition must hold as well,
unless the transition asks for the exhaustion of exactly that repeat.  These functions add that
rule to the bare guards, for the steps of the transition's source state.
-/

namespace Made

namespace CeremonyDefinition

variable (d : CeremonyDefinition)

/-- A repeating step has completed with its stop condition; other steps have nothing to show. -/
def repeatRequirementIsSatisfied (stepId : StepId) (records : Map StepId StepExecutionRecord) :
    Bool :=
  match (d.step stepId).bind (·.repeatPolicy) with
  | none => true
  | some policy => records[stepId]?.any fun record =>
    record.status.isSuccess && policy.isSatisfied record.output

variable (transition : CeremonyTransition)

/-- The last iteration of a step of the source state ended without its stop condition. -/
def stepRepeatIsExhaustedOnTransition (stepId : StepId)
    (records : Map StepId StepExecutionRecord) : Bool :=
  match d.step stepId with
  | none => false
  | some step =>
    if step.stateId ≠ transition.from_ then false
    else
      match step.repeatPolicy with
      | none => false
      | some policy => records[stepId]?.any fun record =>
        record.status.isSuccess && !policy.isSatisfied record.output &&
          !policy.permitsAnotherIteration record.iteration

def transitionWaivesExhaustedRepeat (stepId : StepId)
    (records : Map StepId StepExecutionRecord) : Bool :=
  transition.requiredGuards.any fun guardName => d.guards[guardName]?.any fun guard =>
    match guard.condition with
    | .stepRepeatExhausted guarded =>
      decide (guarded = stepId) && d.stepRepeatIsExhaustedOnTransition transition stepId records
    | _ => false

def repeatRequirementIsSatisfiedOrWaived (stepId : StepId)
    (records : Map StepId StepExecutionRecord) : Bool :=
  d.repeatRequirementIsSatisfied stepId records ||
    d.transitionWaivesExhaustedRepeat transition stepId records

def repeatRequirementsAreSatisfied (stateId : StateId) (records : Map StepId StepExecutionRecord) :
    Bool :=
  (d.stepsForState stateId).all fun step => d.repeatRequirementIsSatisfied step.id records

def repeatRequirementsAreSatisfiedForTransition (records : Map StepId StepExecutionRecord) : Bool :=
  (d.stepsForState transition.from_).all fun step =>
    d.repeatRequirementIsSatisfiedOrWaived transition step.id records

def completedSteps (records : Map StepId StepExecutionRecord) : List CeremonyStep :=
  (d.stepsForState transition.from_).filter fun step =>
    records[step.id]?.any (·.status.isSuccess)

/-- One guard, with the repetition semantics of the definition. -/
def guardIsSatisfiedForTransition (guard : CeremonyGuard) (transition : CeremonyTransition)
    (records : Map StepId StepExecutionRecord) (context : CeremonyContext) : Bool :=
  match guard.condition with
  | .stepRepeatExhausted stepId => d.stepRepeatIsExhaustedOnTransition transition stepId records
  | .stepStatus stepId status =>
    if status.isSuccess then
      guard.isSatisfied records context &&
        d.repeatRequirementIsSatisfiedOrWaived transition stepId records
    else
      guard.isSatisfied records context
  | .allStepsCompleted =>
    guard.isSatisfied records context && d.steps.keys.all fun stepId =>
      d.repeatRequirementIsSatisfiedOrWaived transition stepId records
  | .anyStepCompleted => !(d.completedSteps transition records).isEmpty
  | .stepsCompleted required => required.val ≤ (d.completedSteps transition records).length
  | _ => guard.isSatisfied records context

/-- Guards as the definition alone sees them; a session adds what it knows itself. -/
def guardsAreSatisfied (records : Map StepId StepExecutionRecord) (context : CeremonyContext) :
    Bool :=
  d.repeatRequirementsAreSatisfiedForTransition transition records &&
    transition.requiredGuards.all fun name => d.guards[name]?.any fun guard =>
      d.guardIsSatisfiedForTransition guard transition records context

def transitionRoutesStateRepeatExhaustion : Bool :=
  transition.requiredGuards.any fun guardName => d.guards[guardName]?.any fun guard =>
    match guard.condition with
    | .stateRepeatExhausted stateId => decide (stateId = transition.from_)
    | _ => false

end CeremonyDefinition

end Made
