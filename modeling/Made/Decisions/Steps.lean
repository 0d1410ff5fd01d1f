import Made.Decisions.Openings

/-!
# Taking a step and filing its result

A start checks the state, the record, the retry policy, the role and the capacity, and seals the
claim together with its deadline.  A result is filed against the claim it names: the current claim
completes or fails the step, a claim that a deadline or an ending retired is observed as late, and
any other claim is refused.
-/

namespace Made

open Outcome

namespace CeremonyInstance

variable (i : CeremonyInstance) (d : CeremonyDefinition)

/-! ## Roles -/

variable (stepId : StepId)

/-- The role a record keeps from the other steps of its iteration. -/
def reservedRole (record : StepExecutionRecord) : Result (Option RoleId) :=
  match record.claimedRole with
  | some role => .ok (some role)
  | none =>
    if record.status ≠ .pending ∧ (d.step stepId).any (·.dynamicRoleBinding.isNone) then do
      let role ← d.roleIdForStep stepId
      pure (some role)
    else
      .ok none

/-- Whether a record belongs to the current visit and iteration of the current state. -/
def isCurrentRecordOf (record : StepExecutionRecord) : Bool :=
  decide (record.stateIteration = i.currentStateIteration) &&
    decide (record.stateVisit = i.currentStateVisit) &&
    (d.step stepId).any (·.stateId = i.currentState)

/-- The loop over records, in key order, that collects the reserved roles. -/
def collectReservedRoles (stepId : StepId) :
    List (StepId × StepExecutionRecord) → Result (List RoleId)
  | [] => .ok []
  | (otherId, record) :: rest =>
    if otherId ≠ stepId ∧ i.isCurrentRecordOf d otherId record then do
      let role ← reservedRole d otherId record
      let roles ← collectReservedRoles stepId rest
      pure (role.toList ++ roles)
    else
      collectReservedRoles stepId rest

def rolesAssignedToOtherSteps : Result (List RoleId) :=
  i.collectReservedRoles d stepId (i.stepRecords.toList ++
    i.stepRecordHistory.toList.flatMap fun entry => entry.2.map fun record => (entry.1, record))

def currentStateIsConcurrent : Bool := (d.state i.currentState).any (·.execution == .concurrent)

def requireRoleIsAvailable (role : RoleId) : Result Unit :=
  if i.currentStateIsConcurrent d then do
    let roles ← i.rolesAssignedToOtherSteps d stepId
    require (role ∉ roles)
      (.invariantViolated "role is already assigned to another step in this state iteration")
  else
    .ok ()

/-- `requested_role.map_or_else(|| definition.role_id_for_step(step_id), Ok)`. -/
def roleOrStatic (role : Option RoleId) (stepId : StepId) : Result RoleId :=
  match role with
  | some role => .ok role
  | none => d.roleIdForStep stepId

/-- The role a step is claimed under, and whether the context decided it. -/
def resolveStepRole (requestedRole : Option RoleId) : Result (RoleId × Bool) := do
  let step ← okOr (d.step stepId) (.notFound "ceremony_instance.step")
  match step.dynamicRoleBinding with
  | none => do
    let role ← roleOrStatic d requestedRole stepId
    i.requireRole d role (.step stepId)
    i.requireRoleIsAvailable d stepId role
    pure (role, false)
  | some binding => do
    let raw ← okOr (i.context.get binding.contextKey)
      (.notFound "ceremony_step.role_from.context_key")
    let raw ← okOr raw.asStr (.invariantViolated "dynamic role context value must be a string")
    let resolved ← Text.new _ raw
    require (binding.allows resolved = true)
      (.invariantViolated "dynamic role is outside the step allow-list")
    require (requestedRole.all (· = resolved) = true)
      (.invariantViolated "requested step role differs from the dynamic role")
    i.requireRole d resolved (.step stepId)
    i.requireRoleIsAvailable d stepId resolved
    pure (resolved, true)

/-! ## Starting -/

def requireNewStepIdempotencyKey (command : StartStep) : Result Unit :=
  require (command.lease.idempotencyKey ∉ i.idempotencyKeys)
    (.alreadyExists "ceremony_instance.idempotency_key")

/-- A budgeted ceremony runs a step under the reservation of exactly its operation. -/
def requireBudgetReservation (record : StepExecutionRecord) (command : StartStep) : Result Unit :=
  match i.budgetAccountId, command.budgetReservationId with
  | none, none => .ok ()
  | some account, some reservation =>
    require (reservation = BudgetReservationId.forOperation account
        (ExecutionOperationId.forStep i.id command.stepId i.currentStateVisit
          i.currentStateIteration record.iteration))
      (.invariantViolated "step claim budget reservation does not match its execution identity")
  | some _, none => refuse
      (.invariantViolated "budgeted ceremony steps require an admitted reservation")
  | none, some _ => refuse
      (.invariantViolated "unbudgeted ceremony steps cannot name a budget reservation")

def earliest (a b : Option OffsetDateTime) : Option OffsetDateTime :=
  match a, b with
  | some a, some b => some (min a b)
  | some a, none => some a
  | none, b => b

/-- The deadline a claim is sealed with: the step's own, cut at the state's and the ceremony's. -/
def stepDeadline (command : StartStep) (record : StepExecutionRecord) (attempt : StepAttempt)
    (claimFence : StepClaimFence) (startedBy : RoleId) (timeout : Option Timeout) :
    Result (Option StepDeadline) := do
  let own ← deadlineAfter command.now timeout "step_deadline"
  let at_ := earliest (earliest own (i.stateDeadline.map (·.at_))) (i.ceremonyDeadline.map (·.at_))
  pure (at_.map fun at_ =>
    { stepId := command.stepId
      stateVisit := i.currentStateVisit
      stateIteration := i.currentStateIteration
      stepIteration := record.iteration
      attempt, claimFence
      finishedBy := startedBy
      at_ })

/-- Whether a concurrent state lets a static step run under a role other than its first one. -/
def isAlternateStaticRole (dynamic : Bool) (stepId : StepId) (startedBy : RoleId) : Result Bool :=
  if dynamic = false ∧ i.currentStateIsConcurrent d = true then do
    let static ← d.roleIdForStep stepId
    pure (decide (static ≠ startedBy))
  else
    .ok false

/-- A concurrent state seals a static role that is not the one a later reader would derive. -/
def sealedRoleOf (dynamic : Bool) (stepId : StepId) (startedBy : RoleId) :
    Result (Option RoleId) := do
  let mixed := i.currentStateIsConcurrent d &&
    (d.stepsForState i.currentState).any (·.dynamicRoleBinding.isSome)
  let alternate ← i.isAlternateStaticRole d dynamic stepId startedBy
  pure (if dynamic = false ∧ (mixed || alternate) = true then some startedBy else none)

def roleFromOf (dynamic : Bool) (step : CeremonyStep) : Result (Option ContextKey) :=
  if dynamic then do
    let binding ← expect step.dynamicRoleBinding "a dynamically resolved step has a binding"
    pure (some binding.contextKey)
  else
    .ok none

def claimedRecord (command : StartStep) (record : StepExecutionRecord) (attempt : StepAttempt)
    (claimedRole : Option RoleId) : StepExecutionRecord :=
  (record.withStarted command.lease attempt claimedRole).withBudgetReservation
    command.budgetReservationId

def decideStartStep (command : StartStep) : Result (List CeremonyEvent) := do
  i.requireDefinition d
  i.requireAdmitsNewWork "start_step"
  require ((i.isTerminal d || i.isEnded) = false)
    (.invariantViolated "terminal ceremony instances cannot start steps")
  let step ← okOr (d.step command.stepId) (.notFound "ceremony_instance.step")
  require (step.stateId = i.currentState)
    (.invalidTransition "ceremony_instance.current_state" "ceremony_step.state")
  let record ← okOr i.stepRecords[command.stepId]? (.notFound "ceremony_instance.step_record")
  require (record.canBeStartedAt command.now = true)
    (.invariantViolated "step lease is still active")
  let attempt ← record.nextStartAttempt
  require (step.retryPolicy.allowsAttempt attempt = true)
    (.invariantViolated "step retry policy exhausted")
  let (startedBy, dynamic) ← i.resolveStepRole d command.stepId command.roleId
  let sealedRole ← i.sealedRoleOf d dynamic command.stepId startedBy
  let claimable ← i.resolvedStepIsClaimableAt d command.stepId command.now
    command.maxParallelCeiling
  require (claimable = true)
    (.invariantViolated "ceremony step is not claimable at the observed time and capacity")
  i.requireNewStepIdempotencyKey command
  let claimedRole := (if dynamic then some startedBy else none).or sealedRole
  i.requireBudgetReservation record command
  let claimFence ← StepClaimFence.forRecord i.id command.stepId
    (claimedRecord command record attempt claimedRole)
  let deadline ← i.stepDeadline command record attempt claimFence startedBy step.timeout
  let roleFrom ← roleFromOf dynamic step
  pure [.stepStarted
    { stepId := command.stepId
      stateVisit := some i.currentStateVisit
      stateIteration := some i.currentStateIteration
      iteration := record.iteration
      attempt
      lease := command.lease
      startedBy, roleFrom, sealedRole, deadline
      budgetReservationId := command.budgetReservationId
      startedAt := command.now }]

/-! ## Results -/

/-- The deadline that retired a claim of this step, if one did. -/
def retiredClaim (claimFence : StepClaimFence) : Option StepDeadline :=
  i.retiredDeadlineClaims[claimFence]?.filter fun deadline => decide (deadline.stepId = stepId)

def liveClaimMatches (record : StepExecutionRecord) (stepId : StepId)
    (claimFence : StepClaimFence) : Bool :=
  record.status == .inProgress &&
    match i.stepClaimFence stepId with
    | .ok fence => decide (fence = claimFence)
    | .error _ => false

/-- Who a late result is credited to: the holder of the retired claim, or of the record. -/
def lateFinishedBy (retired : Option StepDeadline) (record : StepExecutionRecord)
    (stepId : StepId) : Result RoleId :=
  match retired with
  | some deadline => .ok deadline.finishedBy
  | none => roleOrStatic d record.claimedRole stepId

variable (command : ApplyStepResult)

/-- A result whose claim is gone: observed once, repeated silently, or refused.  `none` means that
the result is not late and is decided as usual. -/
def decideLateStepResult : Result (Option (List CeremonyEvent)) :=
  match i.lateStepResults[command.claimFence]? with
  | some existing =>
    if existing.stepId = command.stepId ∧ existing.result = command.result then .ok (some [])
    else refuse (.invariantViolated
      "late step claim already has a different step or observed result")
  | none =>
    let retired := i.retiredClaim command.stepId command.claimFence
    if i.isEnded = false ∧ retired = none then .ok none
    else do
      let record ← okOr i.stepRecords[command.stepId]? (.notFound "ceremony_instance.step_record")
      require
        ((i.liveClaimMatches record command.stepId command.claimFence || retired.isSome) = true)
        (.invariantViolated "step result claim fence is not current or retired by a deadline")
      let finishedBy ← lateFinishedBy d retired record command.stepId
      pure (some [.lateStepResultObserved
        { result :=
            { stepId := command.stepId
              stateVisit := (retired.map (·.stateVisit)).getD record.stateVisit
              stateIteration := (retired.map (·.stateIteration)).getD record.stateIteration
              stepIteration := (retired.map (·.stepIteration)).getD record.iteration
              attempt := (retired.map (·.attempt)).getD record.attempt
              claimFence := command.claimFence
              result := command.result
              finishedBy }
          observedAt := command.now }])

/-- The next iteration of a repeating state whose work is done without its stop condition. -/
def decideStateIteration (now : OffsetDateTime) : Result (List CeremonyEvent) :=
  match (d.state i.currentState).bind (·.repeat_) with
  | none => .ok []
  | some policy =>
    if i.stateWorkIsComplete d = false ∨ i.stateRepeatConditionIsSatisfied d = true ∨
        policy.permitsAnotherIteration i.currentStateIteration = false then
      .ok []
    else do
      let stateIteration ← i.currentStateIteration.next
      pure [.stateIterationStarted
        { stateId := i.currentState
          stateVisit := some i.currentStateVisit
          stateIteration
          stepIds := (d.stepsForState i.currentState).map (·.id)
          startedAt := now }]

def nextIterationAfter (step : CeremonyStep) (result : StepResult) (iteration : StepIteration) :
    Result (Option StepIteration) :=
  match (step.repeatPolicy.filter fun policy => !policy.isSatisfied result.output).filter
      (·.permitsAnotherIteration iteration) with
  | none => .ok none
  | some _ => do
    let next ← iteration.next
    pure (some next)

variable (record : StepExecutionRecord)

def stepFailedOf (finishedBy : RoleId) : StepFailed where
  stepId := command.stepId
  stateVisit := some i.currentStateVisit
  stateIteration := some i.currentStateIteration
  iteration := record.iteration
  attempt := record.attempt
  result := command.result
  finishedBy := finishedBy
  finishedAt := command.now

def stepCompletedOf
    (nextIteration : Option StepIteration) (finishedBy : RoleId) : StepCompleted where
  stepId := command.stepId
  stateVisit := some i.currentStateVisit
  stateIteration := some i.currentStateIteration
  iteration := record.iteration
  attempt := record.attempt
  result := command.result
  nextIteration := nextIteration
  finishedBy := finishedBy
  finishedAt := command.now

def contextWrittenOf (patch : ContextPatch) : ContextWritten where
  stepId := command.stepId
  stateVisit := some i.currentStateVisit
  stateIteration := i.currentStateIteration
  iteration := record.iteration
  attempt := record.attempt
  patch := patch
  writtenAt := command.now

def completionEvents
    (nextIteration : Option StepIteration) (finishedBy : RoleId) (patch : Option ContextPatch) :
    List CeremonyEvent :=
  .stepCompleted (i.stepCompletedOf command record nextIteration finishedBy) ::
    (patch.map fun patch => CeremonyEvent.contextWritten
      (i.contextWrittenOf command record patch)).toList

def decideCurrentStepResult (step : CeremonyStep) :
    Result (List CeremonyEvent) := do
  require (step.stateId = i.currentState)
    (.invalidTransition "ceremony_instance.current_state" "ceremony_step.state")
  let record ← okOr i.stepRecords[command.stepId]? (.notFound "ceremony_instance.step_record")
  require (record.status = .inProgress)
    (.invariantViolated "step result requires an in-progress step")
  i.requireStepClaimFence command.stepId command.claimFence
  if command.result.isSuccess then do
    let nextIteration ← nextIterationAfter step command.result record.iteration
    let finishedBy ← roleOrStatic d record.claimedRole command.stepId
    let patch ← step.contextWrites.resolve command.result.output
    let events := i.completionEvents command record nextIteration finishedBy patch
    -- The state repeat is decided on the projected session; folding the patch into it can panic.
    let projected ← i.applyAll events
    let more ← projected.decideStateIteration d command.now
    pure (events ++ more)
  else do
    let finishedBy ← roleOrStatic d record.claimedRole command.stepId
    pure [.stepFailed (i.stepFailedOf command record finishedBy)]

def decideApplyStepResult : Result (List CeremonyEvent) := do
  i.requireDefinition d
  require (command.result.failureKind.isNone ∨ command.result.status = .failed)
    (.invariantViolated "only failed step results may carry a failure kind")
  let step ← okOr (d.step command.stepId) (.notFound "ceremony_instance.step")
  let late ← i.decideLateStepResult d command
  match late with
  | some events => pure events
  | none => i.decideCurrentStepResult d command step

/-! ## Receipts -/

/-- An adoption names the receipt that the first link named, where there is one. -/
def requireSameReceipt (original : Option ExecutionReceiptLink) (adoption : ExecutionReceiptLink) :
    Result Unit :=
  match original with
  | some original =>
    require (original.receiptId = adoption.receiptId ∧ original.operationId = adoption.operationId ∧
        original.producerClaimFence = adoption.producerClaimFence)
      (.conflict "execution_receipt_adoption")
  | none => .ok ()

/-- The operation a claim of a step stands for: that of the retiring deadline, or of the record. -/
def expectedOperationId (stepId : StepId) (claimFence : StepClaimFence)
    (record : StepExecutionRecord) : ExecutionOperationId :=
  match i.retiredClaim stepId claimFence with
  | some deadline => ExecutionOperationId.forStep i.id stepId deadline.stateVisit
      deadline.stateIteration deadline.stepIteration
  | none => ExecutionOperationId.forStep i.id stepId record.stateVisit record.stateIteration
      record.iteration

/-- The part of a receipt application that comes after the link is known to be new. -/
def decideLinkedStepResult (command : ApplyExecutionReceiptResult) :
    Result (List CeremonyEvent) := do
  let record ← okOr i.stepRecords[command.stepId]? (.notFound "ceremony_instance.step_record")
  require (command.receiptLink.operationId =
      i.expectedOperationId command.stepId command.claimFence record)
    (.invariantViolated "execution receipt operation does not match the step coordinates")
  let resultEvents ← i.decideApplyStepResult d
    { stepId := command.stepId
      claimFence := command.claimFence
      result := command.result
      now := command.now }
  pure (.executionReceiptLinked
    { stepId := command.stepId, link := command.receiptLink, linkedAt := command.now } ::
      resultEvents)

def decideApplyExecutionReceiptResult (command : ApplyExecutionReceiptResult) :
    Result (List CeremonyEvent) := do
  let link := command.receiptLink
  link.validate
  require (link.appliedClaimFence = command.claimFence)
    (.invariantViolated "execution receipt link does not target the completing claim fence")
  let original := i.executionReceiptLinks[link.operationId]?
  if original = some link then
    pure []
  else
    match link.kind with
    | .direct => do
      require (original = none) (.conflict "execution_receipt_link")
      i.decideLinkedStepResult d command
    | .adopted =>
      match i.executionReceiptAdoption link.operationId link.appliedClaimFence with
      | some stored =>
        if stored = link then pure []
        else refuse (.conflict "execution_receipt_adoption")
      | none => do
        i.requireAdmitsNewWork "adopt_execution_receipt"
        requireSameReceipt original link
        i.decideLinkedStepResult d command

end CeremonyInstance

end Made
