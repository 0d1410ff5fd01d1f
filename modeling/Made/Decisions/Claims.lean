import Made.Decisions.Openings

/-!
# Holding a claim

What the holder of a claim may do while it lasts: renew its lease, declare what became of its work
on the host, and plan or adopt the children that the claimed step spawns.  Every one of them names
the claim by its fence, and a repeated request is answered with no event.
-/

namespace Made

open Outcome

namespace CeremonyInstance

variable (i : CeremonyInstance) (d : CeremonyDefinition)

/-! ## Lease renewal -/

def absoluteDeadline (stepId : StepId) : Option OffsetDateTime :=
  (((i.stepDeadlines[stepId]?.map (·.at_)).toList ++ (i.stateDeadline.map (·.at_)).toList ++
    (i.ceremonyDeadline.map (·.at_)).toList)).min?

def decideNewRenewal (command : RenewStepLease) : Result (List CeremonyEvent) := do
  require ((i.isEnded || i.isTerminal d) = false)
    (.invariantViolated "ended ceremony cannot renew a lease")
  i.requireStepClaimFence command.stepId command.claimFence
  let record ← okOr i.stepRecords[command.stepId]? (.notFound "ceremony_step")
  let lease ← okOr record.lease (.notFound "step_lease")
  require (lease.ownerId = command.leaseOwnerId ∧ record.hasLiveLeaseAt command.now = true)
    (.invariantViolated "only the live lease owner may renew")
  require (record.effectiveLeaseExpiresAt = some command.expectedExpiresAt)
    (.conflict "step_lease_expiry")
  require (command.expectedExpiresAt ≤ command.expiresAt ∧ command.now < command.expiresAt)
    (.invariantViolated "renewal cannot shorten the effective lease expiry")
  require ((i.absoluteDeadline command.stepId).all (fun at_ =>
      decide (command.now < at_) && decide (command.expiresAt ≤ at_)) = true)
    (.invariantViolated "renewal cannot exceed the absolute deadline")
  if command.expiresAt = command.expectedExpiresAt ∧ command.request = none then
    pure []
  else
    pure [.stepLeaseRenewed
      { request := command.request
        stepId := command.stepId
        claimFence := command.claimFence
        leaseOwnerId := command.leaseOwnerId
        previousExpiresAt := command.expectedExpiresAt
        expiresAt := command.expiresAt
        renewedAt := command.now }]

def decideRenewStepLease (command : RenewStepLease) : Result (List CeremonyEvent) := do
  i.requireDefinition d
  match command.request.bind fun request => i.leaseRenewals[request.id]? with
  | some accepted => do
    require (accepted.request = command.request ∧ accepted.stepId = command.stepId ∧
        accepted.claimFence = command.claimFence ∧
        accepted.leaseOwnerId = command.leaseOwnerId)
      (.conflict "step_lease_renewal_request")
    pure []
  | none => i.decideNewRenewal d command

/-! ## Host handoffs -/

def decideNewHandoff (command : RecordHostHandoff) : Result (List CeremonyEvent) := do
  let declaration := command.declaration
  i.requireStepClaimFence declaration.stepId declaration.claimFence
  let lease ← okOr (i.stepRecords[declaration.stepId]?.bind (·.lease))
    (.notFound "accepted_step_lease")
  require (lease.ownerId = declaration.owner ∧ lease.acquiredAt ≤ declaration.observedAt ∧
      declaration.observedAt ≤ command.now)
    (.invariantViolated "host handoff must name its accepted owner and a valid observation time")
  require (i.hostHandoffs.inOrder.any (fun accepted =>
      decide (accepted.declaration.claimFence = declaration.claimFence) &&
        (decide (accepted.declaration.incarnation ≠ declaration.incarnation) ||
          decide (declaration.observedAt ≤ accepted.declaration.observedAt))) = false)
    (.conflict "host_handoff_incarnation_or_order")
  pure [.hostHandoffRecorded { declaration, recordedAt := command.now }]

def decideRecordHostHandoff (command : RecordHostHandoff) : Result (List CeremonyEvent) := do
  i.requireDefinition d
  command.declaration.validate
  match i.hostHandoffs[command.declaration.id]? with
  | some accepted =>
    if accepted.declaration = command.declaration then pure []
    else refuse (.conflict "host_handoff_identity")
  | none => i.decideNewHandoff command

/-! ## Children -/

structure ExpectedLineage where
  rootId : CeremonyId
  depth : ChildDepth
  remainingDepth : ChildDepthBudget

def childDepth : Result ChildDepth :=
  match i.lineage with
  | some lineage => lineage.depth.next
  | none => .ok ChildDepth.first

def expectedLineage (maxDepth : MaxChildDepth) : Result ExpectedLineage := do
  let inherited := (i.lineage.map (·.remainingDepth)).getD ChildDepthBudget.serverMax
  let remainingDepth ← inherited.forChild maxDepth
  let depth ← i.childDepth
  pure ⟨(i.lineage.map (·.rootId)).getD i.id, depth, remainingDepth⟩

def requirePlannedChild (plan : ChildSpawnPlan) (expected : ExpectedLineage)
    (entry : PlannedChild × CeremonyChildSpec) : Result Unit := do
  let child := entry.1
  require (child.ceremony = entry.2.ceremony ∧ child.version = entry.2.version)
    (.invariantViolated "planned child binding differs from the ceremony definition")
  require (child.lineage.parentId = i.id ∧ child.lineage.groupId = plan.groupId ∧
      child.lineage.position = child.position ∧ child.lineage.rootId = expected.rootId ∧
      child.lineage.depth = expected.depth ∧
      child.lineage.remainingDepth = expected.remainingDepth)
    (.invariantViolated "planned child lineage does not match its parent plan")

def decideNewChildPlan (command : PlanCeremonyChildren) : Result (List CeremonyEvent) := do
  let plan := command.plan
  let coordinates := plan.coordinates
  i.requireAdmitsNewWork "plan_children"
  require (coordinates.stateVisit = i.currentStateVisit ∧
      coordinates.stateIteration = i.currentStateIteration)
    (.invariantViolated "child spawn plan coordinates are not current")
  let step ← okOr (d.step coordinates.stepId) (.notFound "ceremony_child_spawn.step")
  require (step.stateId = i.currentState)
    (.invariantViolated "child-spawning step does not belong to the current state")
  let spawn ← okOr step.spawn (.invariantViolated "child spawn plan requires a child-spawning step")
  let record ← okOr i.stepRecords[coordinates.stepId]?
    (.notFound "ceremony_child_spawn.step_record")
  require (record.stateVisit = coordinates.stateVisit ∧
      record.stateIteration = coordinates.stateIteration ∧
      record.iteration = coordinates.stepIteration)
    (.invariantViolated "child spawn plan step iteration is not current")
  require (plan.groupId = ChildGroupId.derive i.id coordinates)
    (.invariantViolated "child spawn group identity does not match parent and coordinates")
  require (spawn.children.length = plan.children.length ∧
      spawn.maxChildren = plan.maxChildren ∧ spawn.maxDepth = plan.maxDepth)
    (.invariantViolated "child spawn plan differs from the ceremony definition")
  let expected ← i.expectedLineage spawn.maxDepth
  forEach (plan.children.zip spawn.children) (i.requirePlannedChild plan expected)
  i.requireStepClaimFence coordinates.stepId plan.activeClaimFence
  pure [.childSpawnPlanned { plan, plannedAt := command.now }]

def decidePlanChildren (command : PlanCeremonyChildren) : Result (List CeremonyEvent) := do
  i.requireDefinition d
  match i.childGroups[command.plan.groupId]? with
  | some existing =>
    if existing.plan = command.plan then pure []
    else refuse (.alreadyExists "child_spawn_group")
  | none => i.decideNewChildPlan d command

def decideAdoptChildPlan (command : AdoptChildSpawnPlan) : Result (List CeremonyEvent) := do
  i.requireDefinition d
  let group ← okOr i.childGroups[command.groupId]? (.notFound "child_spawn_group")
  if group.adoptedClaimFence = command.claimFence then
    pure []
  else do
    let coordinates := group.plan.coordinates
    let record ← okOr i.stepRecords[coordinates.stepId]?
      (.notFound "ceremony_child_spawn.step_record")
    require (coordinates.stateVisit = i.currentStateVisit ∧
        coordinates.stateIteration = i.currentStateIteration ∧
        coordinates.stateVisit = record.stateVisit ∧
        coordinates.stateIteration = record.stateIteration ∧
        coordinates.stepIteration = record.iteration)
      (.invariantViolated "cannot adopt a child spawn plan from another visit or iteration")
    i.requireStepClaimFence coordinates.stepId command.claimFence
    pure [.childSpawnPlanAdopted
      { groupId := command.groupId, claimFence := command.claimFence, adoptedAt := command.now }]

def decideAcceptChildCompletion (command : AcceptChildCompletion) :
    Result (List CeremonyEvent) := do
  i.requireDefinition d
  let completion := command.completion
  let group ← okOr i.childGroups[completion.groupId]? (.notFound "child_spawn_group")
  require (group.plan.children.any (·.childId = completion.childId) = true)
    (.invariantViolated "child completion does not belong to the sealed spawn plan")
  match group.completions[completion.childId]? with
  | some existing =>
    if existing = completion then pure []
    else refuse (.invariantViolated "child ceremony already has a different accepted terminal")
  | none => pure [.childCompletionAccepted { completion, acceptedAt := command.now }]

end CeremonyInstance

end Made
