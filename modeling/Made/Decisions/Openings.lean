import Made.Aggregate.Fold

/-!
# Opening a ceremony

An opening is decided without an instance: it checks the required inputs against the context of
this run and seals everything the fold needs to build the session without the definition.  Five of
the six constructors differ only in what they bind to the session; the sixth opens a successor and
seals what that successor was given.
-/

namespace Made

/-- The instant a duration after `now`, refused where the clock or a signed number ends. -/
def checkedDeadline (now : OffsetDateTime) (duration : DurationMs) (field : String) :
    Result OffsetDateTime := do
  Outcome.require (duration.millis ≤ i64Max) (.outOfRange field duration.millis 0 i64Max)
  Outcome.okOr (now.checkedAdd duration.millis) (.outOfRange field duration.millis 0 i64Max)

def deadlineAfter (now : OffsetDateTime) (timeout : Option Timeout) (field : String) :
    Result (Option OffsetDateTime) :=
  match timeout with
  | none => .ok none
  | some timeout => do
    let at_ ← checkedDeadline now timeout.duration field
    pure (some at_)

namespace CeremonyInstance

def missingInputs (d : CeremonyDefinition) (context : CeremonyContext) : List String :=
  ((d.inputs.inOrder.filter (·.required)).filter fun input =>
    (context.attributes.get input.name.val).isNone).map (·.name.val)

def opening (id : CeremonyId) (d : CeremonyDefinition) (context : CeremonyContext)
    (now : OffsetDateTime) (boundDefinition : Option CeremonyDefinitionDigest)
    (lineage : Option CeremonyLineage) (budgetAccountId : Option BudgetAccountId) :
    Result CeremonyInstanceStarted := do
  Outcome.require (missingInputs d context = [])
    (.invalidDocument ("missing required ceremony inputs: " ++
      String.intercalate ", " (missingInputs d context)))
  let ceremonyDeadline ← deadlineAfter now d.ceremonyTimeout "ceremony_deadline"
  let stateDeadline ← deadlineAfter now d.stateTimeout "state_deadline"
  pure {
    ceremonyId := id
    definitionName := d.name
    definitionVersion := d.version
    initialState := d.initialStateId
    stepIds := d.steps.keys
    context
    boundDefinition
    lineage
    succession := none
    budgetAccountId
    ceremonyDeadline := ceremonyDeadline.map CeremonyDeadline.mk
    stateDeadline := stateDeadline.map (StateDeadline.mk d.initialStateId StateVisit.first)
    createdAt := now }

def openingBatch (opening : CeremonyInstanceStarted) (recollection : Option SessionRecollection)
    (now : OffsetDateTime) : List CeremonyEvent :=
  .ceremonyInstanceStarted opening ::
    ((recollection.filter fun recalled => !recalled.entries.isEmpty).map fun recollection =>
      CeremonyEvent.memoryRecalled { recollection, recalledAt := now }).toList

/-- An opening with the given bindings: the part the public constructors share. -/
def decideOpening (id : CeremonyId) (d : CeremonyDefinition) (context : CeremonyContext)
    (boundDefinition : Option CeremonyDefinitionDigest) (lineage : Option CeremonyLineage)
    (budgetAccountId : Option BudgetAccountId) (recollection : Option SessionRecollection)
    (now : OffsetDateTime) : Result (List CeremonyEvent) := do
  let opening ← opening id d context now boundDefinition lineage budgetAccountId
  pure (openingBatch opening recollection now)

def decideStart (id : CeremonyId) (d : CeremonyDefinition) (context : CeremonyContext)
    (recollection : Option SessionRecollection) (now : OffsetDateTime) :
    Result (List CeremonyEvent) :=
  decideOpening id d context none none none recollection now

def decideStartBound (id : CeremonyId) (published : PublishedCeremonyDefinition)
    (context : CeremonyContext) (recollection : Option SessionRecollection)
    (now : OffsetDateTime) : Result (List CeremonyEvent) :=
  decideOpening id published.definition context (some published.digest) none none recollection now

def decideStartBoundChild (id : CeremonyId) (published : PublishedCeremonyDefinition)
    (context : CeremonyContext) (lineage : CeremonyLineage)
    (recollection : Option SessionRecollection) (now : OffsetDateTime) :
    Result (List CeremonyEvent) :=
  decideOpening id published.definition context (some published.digest) (some lineage) none
    recollection now

def decideStartBoundBudgeted (id : CeremonyId) (published : PublishedCeremonyDefinition)
    (context : CeremonyContext) (budgetAccountId : BudgetAccountId)
    (recollection : Option SessionRecollection) (now : OffsetDateTime) :
    Result (List CeremonyEvent) :=
  decideOpening id published.definition context (some published.digest) none
    (some budgetAccountId) recollection now

def decideStartBoundBudgetedChild (id : CeremonyId) (published : PublishedCeremonyDefinition)
    (context : CeremonyContext) (lineage : CeremonyLineage) (budgetAccountId : BudgetAccountId)
    (recollection : Option SessionRecollection) (now : OffsetDateTime) :
    Result (List CeremonyEvent) :=
  decideOpening id published.definition context (some published.digest) (some lineage)
    (some budgetAccountId) recollection now

/-- Open a successor with what the plan carries over to it. -/
def decideStartSuccessor (id : CeremonyId) (published : PublishedCeremonyDefinition)
    (context : CeremonyContext) (succession : CeremonySuccession) (plan : SuccessionPlan)
    (now : OffsetDateTime) : Result (List CeremonyEvent) := do
  let opening ← opening id published.definition context now (some published.digest) none none
  pure (.ceremonyInstanceStarted { opening with succession := some succession } ::
    if plan.carried.isEmpty then []
    else [.successionCarried { carried := plan.carried, carriedAt := now }])

end CeremonyInstance

inductive CeremonyOpening where
  | start (id : CeremonyId) (definition : CeremonyDefinition) (context : CeremonyContext)
      (recollection : Option SessionRecollection) (now : OffsetDateTime)
  | startBound (id : CeremonyId) (published : PublishedCeremonyDefinition)
      (context : CeremonyContext) (recollection : Option SessionRecollection)
      (now : OffsetDateTime)
  | startBoundChild (id : CeremonyId) (published : PublishedCeremonyDefinition)
      (context : CeremonyContext) (lineage : CeremonyLineage)
      (recollection : Option SessionRecollection) (now : OffsetDateTime)
  | startBoundBudgeted (id : CeremonyId) (published : PublishedCeremonyDefinition)
      (context : CeremonyContext) (budgetAccountId : BudgetAccountId)
      (recollection : Option SessionRecollection) (now : OffsetDateTime)
  | startBoundBudgetedChild (id : CeremonyId) (published : PublishedCeremonyDefinition)
      (context : CeremonyContext) (lineage : CeremonyLineage) (budgetAccountId : BudgetAccountId)
      (recollection : Option SessionRecollection) (now : OffsetDateTime)
  | startSuccessor (id : CeremonyId) (published : PublishedCeremonyDefinition)
      (context : CeremonyContext) (succession : CeremonySuccession) (plan : SuccessionPlan)
      (now : OffsetDateTime)
deriving DecidableEq

namespace CeremonyOpening

def definition : CeremonyOpening → CeremonyDefinition
  | start _ definition _ _ _ => definition
  | startBound _ published _ _ _ | startBoundChild _ published _ _ _ _
  | startBoundBudgeted _ published _ _ _ _ | startBoundBudgetedChild _ published _ _ _ _ _
  | startSuccessor _ published _ _ _ _ => published.definition

def context : CeremonyOpening → CeremonyContext
  | start _ _ context _ _ | startBound _ _ context _ _ | startBoundChild _ _ context _ _ _
  | startBoundBudgeted _ _ context _ _ _ | startBoundBudgetedChild _ _ context _ _ _ _
  | startSuccessor _ _ context _ _ _ => context

def decide : CeremonyOpening → Result (List CeremonyEvent)
  | start id definition context recollection now =>
    CeremonyInstance.decideStart id definition context recollection now
  | startBound id published context recollection now =>
    CeremonyInstance.decideStartBound id published context recollection now
  | startBoundChild id published context lineage recollection now =>
    CeremonyInstance.decideStartBoundChild id published context lineage recollection now
  | startBoundBudgeted id published context budgetAccountId recollection now =>
    CeremonyInstance.decideStartBoundBudgeted id published context budgetAccountId recollection now
  | startBoundBudgetedChild id published context lineage budgetAccountId recollection now =>
    CeremonyInstance.decideStartBoundBudgetedChild id published context lineage budgetAccountId
      recollection now
  | startSuccessor id published context succession plan now =>
    CeremonyInstance.decideStartSuccessor id published context succession plan now

end CeremonyOpening

end Made
