import Made.Decisions.Openings
import Mathlib.Data.List.Sort

/-!
# Moving on, pausing and ending

A transition leaves the current state when its budget, its live leases, its repeats and its guards
allow it, and a move into a terminal state also completes the ceremony.  The lifecycle commands
pause, resume and cancel; the deadline sweep fails the steps that ran out before the ceremony or
its state did, and then ends the ceremony if one of those ran out as well.
-/

namespace Made

open Outcome

namespace CeremonyDefinition

def availableTransitions (d : CeremonyDefinition) (stateId : StateId) : List CeremonyTransition :=
  d.transitions.filter (·.from_ = stateId)

end CeremonyDefinition

namespace CeremonyInstance

variable (i : CeremonyInstance) (d : CeremonyDefinition)

/-! ## Guards of a transition -/

variable (transition : CeremonyTransition)

def guardIsSatisfiedForTransition (guard : CeremonyGuard) :
    Bool :=
  match guard.condition with
  | .childrenCompleted stepId join =>
    (d.step stepId).any (·.stateId = transition.from_) &&
      i.childrenCompletedGuardIsSatisfied stepId join
  | .stateRepeatExhausted stateId =>
    decide (stateId = transition.from_) && decide (transition.from_ = i.currentState) &&
      i.stateRepeatLimitReached d
  | _ => d.guardIsSatisfiedForTransition guard transition i.stepRecords i.context

def guardsAreSatisfied : Bool :=
  d.repeatRequirementsAreSatisfiedForTransition transition i.stepRecords &&
    transition.requiredGuards.all fun name => d.guards[name]?.any fun guard =>
      i.guardIsSatisfiedForTransition d transition guard

def stateRepeatPermits : Bool :=
  i.stateRepeatPermitsTransition d ||
    (i.stateRepeatLimitReached d && d.transitionRoutesStateRepeatExhaustion transition)

def exactEdgeCount : Nat :=
  (i.transitions.filter fun record =>
    decide (record.fromState = transition.from_) && decide (record.trigger = transition.trigger) &&
      decide (record.toState = transition.to_)).length

def requireTransitionBudget : Result Unit := do
  require (d.maxTransitions.any (·.val ≤ i.transitions.length) = false)
    (.invariantViolated "ceremony transition limit exhausted")
  require (d.maxBounces.any (·.val ≤ i.exactEdgeCount transition) = false)
    (.invariantViolated "ceremony transition bounce limit exhausted")

def requireInterventionsResolvedBeforeEntering (stateId : StateId) : Result Unit :=
  require ((d.isTerminalState stateId && i.interventions.any (·.status.isOpen)) = false)
    (.invariantViolated "ceremony cannot enter a terminal state with open interventions")

/-! ## Transitions -/

/-- The move and, into a terminal state, the completion sealed with it. -/
def transitionEvents (command : ApplyTransition) (toState : StateId) (nextVisit : StateVisit)
    (deadline : Option OffsetDateTime) : List CeremonyEvent :=
  .transitionApplied
    { transition :=
        { trigger := command.trigger
          fromState := i.currentState
          stateIteration := some i.currentStateIteration
          stateVisit := some i.currentStateVisit
          toState
          appliedBy := command.roleId
          appliedAt := command.now }
      destination := some
        { stateVisit := nextVisit
          stepIds := (d.stepsForState toState).map (·.id)
          deadline := deadline.map (StateDeadline.mk toState nextVisit) } } ::
  if d.isTerminalState toState then
    [.ceremonyCompleted { finalState := toState, completedAt := command.now }]
  else
    []

def requireMover (roleId : Option RoleId) (trigger : TransitionTrigger) : Result Unit :=
  match roleId with
  | some roleId => i.requireRole d roleId (.transition trigger)
  | none => .ok ()

def decideApplyTransition (command : ApplyTransition) : Result (List CeremonyEvent) := do
  i.requireMover d command.roleId command.trigger
  i.requireDefinition d
  i.requireAdmitsNewWork "apply_transition"
  require ((i.isTerminal d || i.isEnded) = false)
    (.invariantViolated "terminal ceremony instances cannot transition")
  let transition ← okOr (d.transitionForTrigger i.currentState command.trigger)
    (.invalidTransition "ceremony_instance.current_state" "transition_trigger")
  i.requireTransitionBudget d transition
  require (i.hasLiveStepLeasesAt d command.now = false)
    (.invariantViolated "ceremony cannot transition while a step lease is active")
  require (i.stateRepeatPermits d transition = true)
    (.invariantViolated "ceremony state repeat condition is not satisfied")
  require (i.guardsAreSatisfied d transition = true)
    (.invariantViolated "ceremony transition guards are not satisfied")
  let nextVisit ← i.currentStateVisit.next
  let deadline ← deadlineAfter command.now d.stateTimeout "state_deadline"
  i.requireInterventionsResolvedBeforeEntering d transition.to_
  pure (i.transitionEvents d command transition.to_ nextVisit deadline)

/-! ## Pausing, resuming, cancelling -/

def decidePause (command : PauseCeremony) : Result (List CeremonyEvent) := do
  i.requireDefinition d
  require (i.isEnded = false) (.lifecycleRefused "pause" .ended)
  match i.lifecycle_.phase with
  | .running => pure [.ceremonyPaused { reason := command.reason, pausedAt := command.now }]
  | .paused => pure []
  | .ended => refuse (.lifecycleRefused "pause" .ended)

def isSuperseded : Bool := i.successorPlan.isSome

def decideResume (now : OffsetDateTime) : Result (List CeremonyEvent) := do
  i.requireDefinition d
  require (i.isEnded = false) (.lifecycleRefused "resume" .ended)
  require (i.isSuperseded = false) (.lifecycleRefused "superseded_by_successor" i.lifecycle_.phase)
  match i.lifecycle_.phase with
  | .paused => pure [.ceremonyResumed { resumedAt := now }]
  | .running => pure []
  | .ended => refuse (.lifecycleRefused "resume" .ended)

def decideCancel (command : CancelCeremony) : Result (List CeremonyEvent) := do
  i.requireDefinition d
  if i.lifecycle_.endReason = some .cancelled then
    pure []
  else do
    require (i.isEnded = false) (.lifecycleRefused "cancel" .ended)
    pure [.ceremonyCancelled { reason := command.reason, cancelledAt := command.now }]

/-! ## Deadlines -/

/-- The instant at which the ceremony itself ran out, if it did by `now`. -/
def terminalAt (ceremony : Option CeremonyDeadline) (state : Option StateDeadline) :
    Option OffsetDateTime :=
  match ceremony, state with
  | some ceremony, some state => some (min ceremony.at_ state.at_)
  | some ceremony, none => some ceremony.at_
  | none, some state => some state.at_
  | none, none => none

/-- The order of the sweep: by instant, then by step. -/
def sweepOrder (left right : StepDeadline) : Prop :=
  left.at_ < right.at_ ∨ (left.at_ = right.at_ ∧ compare left.stepId right.stepId ≠ .gt)

instance : DecidableRel sweepOrder := fun left right =>
  inferInstanceAs (Decidable (left.at_ < right.at_ ∨
    (left.at_ = right.at_ ∧ compare left.stepId right.stepId ≠ .gt)))

/-- The step deadlines that ran out by `now`, and before the ceremony did. -/
def dueStepDeadlines (now : OffsetDateTime) (terminal : Option OffsetDateTime) :
    List StepDeadline :=
  (i.stepDeadlines.inOrder.filter fun deadline =>
    decide (deadline.at_ ≤ now) && terminal.all fun at_ => decide (deadline.at_ < at_)).insertionSort
      sweepOrder

/-- The ending of a sweep; a ceremony deadline goes before a state deadline of the same instant. -/
def deadlineEnding (ceremony : Option CeremonyDeadline) (state : Option StateDeadline)
    (now : OffsetDateTime) : List CeremonyEvent :=
  match ceremony, state with
  | some ceremony, some state =>
    if ceremony.at_ ≤ state.at_ then
      [.ceremonyDeadlineExceeded { deadline := ceremony, observedAt := now }]
    else
      [.stateDeadlineExceeded { deadline := state, observedAt := now }]
  | none, some state => [.stateDeadlineExceeded { deadline := state, observedAt := now }]
  | some ceremony, none => [.ceremonyDeadlineExceeded { deadline := ceremony, observedAt := now }]
  | none, none => []

def decideEnforceDeadlines (now : OffsetDateTime) : Result (List CeremonyEvent) := do
  i.requireDefinition d
  if i.isEnded then
    pure []
  else
    let ceremony := i.ceremonyDeadline.filter fun deadline => decide (deadline.at_ ≤ now)
    let state := i.stateDeadline.filter fun deadline => decide (deadline.at_ ≤ now)
    pure ((i.dueStepDeadlines now (terminalAt ceremony state)).map (fun deadline =>
        .stepDeadlineExceeded { deadline, result := StepResult.timedOut, observedAt := now }) ++
      deadlineEnding ceremony state now)

end CeremonyInstance

end Made
