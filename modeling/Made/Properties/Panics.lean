import Made.Runs.Effects

/-!
# Panics

Two places of the aggregate unwrap: a start that was resolved dynamically unwraps the binding it
was resolved from, and the fold of a context write unwraps a size-checked constructor.  The first
is never reached without a binding.  The second is: a result is decided by folding its own events
into a copy of the session, so a success whose declared writes bring the context over its key limit
takes the decision down instead of being refused.
-/

namespace Made

open EventSourcing Outcome Std.ExtTreeMap CeremonyContext

/-! ## Values -/

attribute [simp] Text.noPanic_new Ordinal.noPanic_new Attributes.noPanic_new

@[simp] theorem noPanic_ite {α : Type} (p : Prop) [Decidable p] (x y : Result α) :
    NoPanic (if p then x else y) ↔ (p → NoPanic x) ∧ (¬ p → NoPanic y) := by
  by_cases h : p <;> simp [h]

@[simp] theorem StateVisit.noPanic_next (visit : StateVisit) : NoPanic visit.next := by
  unfold StateVisit.next
  split <;> simp

@[simp] theorem StateIteration.noPanic_next (iteration : StateIteration) :
    NoPanic iteration.next := by
  simp [StateIteration.next]

@[simp] theorem StepAttempt.noPanic_next (attempt : StepAttempt) : NoPanic attempt.next := by
  simp [StepAttempt.next]

@[simp] theorem ChildDepth.noPanic_next (depth : ChildDepth) : NoPanic depth.next := by
  unfold ChildDepth.next
  split <;> simp

@[simp] theorem ChildDepthBudget.noPanic_forChild (budget : ChildDepthBudget)
    (locally : MaxChildDepth) : NoPanic (budget.forChild locally) := by
  simp [ChildDepthBudget.forChild]

variable (now : OffsetDateTime)

@[simp] theorem noPanic_deadlineAfter (timeout : Option Timeout)
    (field : String) : NoPanic (deadlineAfter now timeout field) := by
  unfold deadlineAfter
  split <;> simp [checkedDeadline]

@[simp] theorem StepExecutionRecord.noPanic_nextStartAttempt (record : StepExecutionRecord) :
    NoPanic record.nextStartAttempt := by
  unfold StepExecutionRecord.nextStartAttempt
  split <;> simp

@[simp] theorem StepClaimFence.noPanic_forRecord (id : CeremonyId) (stepId : StepId)
    (record : StepExecutionRecord) : NoPanic (StepClaimFence.forRecord id stepId record) := by
  simp [StepClaimFence.forRecord]

@[simp] theorem CeremonyDefinition.noPanic_roleIdForStep (d : CeremonyDefinition)
    (stepId : StepId) : NoPanic (d.roleIdForStep stepId) := by
  simp [CeremonyDefinition.roleIdForStep]

@[simp] theorem ReconsiderationConditions.noPanic_validate (r : ReconsiderationConditions) :
    NoPanic r.validate := by
  have hloop : ∀ rest seen, NoPanic (validateLoop seen rest) := by
    intro rest
    induction rest with
    | nil => simp [validateLoop]
    | cons condition rest ih =>
      intro seen
      unfold validateLoop
      dsimp only
      repeat' split
      all_goals simp [ih]
  unfold ReconsiderationConditions.validate
  repeat' split
  all_goals simp [hloop]

@[simp] theorem CeremonyInterventionTarget.noPanic_validate (target : CeremonyInterventionTarget) :
    NoPanic target.validate := by
  have hroles : ∀ rest seen, NoPanic (validateRoles seen rest) := by
    intro rest
    induction rest with
    | nil =>
      intro seen
      unfold validateRoles
      split <;> simp
    | cons roleId rest ih =>
      intro seen
      unfold validateRoles
      simp only [noPanic_bind, Text.noPanic_new, true_and]
      intro checked _
      repeat' split
      all_goals simp [ih]
  cases target with
  | table | agentExecution => simp [CeremonyInterventionTarget.validate]
  | roles roleIds => exact hroles roleIds []

@[simp] theorem CeremonyContext.noPanic_withGuardApproval (context : CeremonyContext)
    (guardName : GuardName) : NoPanic (context.withGuardApproval guardName) := by
  simp [withGuardApproval]

@[simp] theorem ContextWrites.noPanic_resolve (writes : ContextWrites) (output : StepOutput) :
    NoPanic (writes.resolve output) := by
  unfold ContextWrites.resolve ContextPatch.new
  split
  · simp
  · refine NoPanic.bind (noPanic_foldlM _ (fun acc entry => by simp) _ _) fun entries _ => ?_
    split <;> simp

variable (command : ApplyStepResult)

namespace CeremonyInstance

variable (i : CeremonyInstance) (d : CeremonyDefinition)

/-! ## Requirements -/

@[simp] theorem noPanic_requireDefinition : NoPanic (i.requireDefinition d) := by
  simp [requireDefinition]

@[simp] theorem noPanic_requireActive (reason : String) : NoPanic (i.requireActive d reason) := by
  simp [requireActive]

@[simp] theorem noPanic_requireAdmitsNewWork (operation : String) :
    NoPanic (i.requireAdmitsNewWork operation) := by
  simp [requireAdmitsNewWork]

@[simp] theorem noPanic_requireRole (roleId : RoleId) (action : RoleAction) :
    NoPanic (i.requireRole d roleId action) := by
  simp [requireRole]

@[simp] theorem noPanic_requireDeclaredRole (roleId : RoleId) :
    NoPanic (i.requireDeclaredRole d roleId) := by
  simp [requireDeclaredRole]

variable (stepId : StepId)

@[simp] theorem noPanic_stepClaimFence : NoPanic (i.stepClaimFence stepId) := by
  simp [stepClaimFence]

@[simp] theorem noPanic_requireStepClaimFence (fence : StepClaimFence) :
    NoPanic (i.requireStepClaimFence stepId fence) := by
  simp [requireStepClaimFence]

@[simp] theorem noPanic_requireHumanGuard (guardName : GuardName) (refusal : String) :
    NoPanic (requireHumanGuard d guardName refusal) := by
  simp [requireHumanGuard]

@[simp] theorem noPanic_roleOrStatic (role : Option RoleId) (stepId : StepId) :
    NoPanic (roleOrStatic d role stepId) := by
  cases role <;> simp [roleOrStatic]

@[simp] theorem noPanic_requireAnsweringRole (roleId : RoleId) :
    NoPanic (requireAnsweringRole d roleId) := by
  simp [requireAnsweringRole]

/-! ## The table -/

@[simp] theorem noPanic_decideRequestIntervention (command : RequestIntervention) :
    NoPanic (i.decideRequestIntervention d command) := by
  have hrequester : NoPanic (i.requireRequester d command) := by
    unfold requireRequester
    split <;> simp [SupervisorPrincipal.requestingRole]
  have htgt : NoPanic (requireInterventionTarget d command.target) := by
    unfold requireInterventionTarget
    split
    · simp
    · simp
    · exact noPanic_forEach _ _ fun roleId _ => noPanic_requireAnsweringRole d roleId
  have hprovenance : NoPanic (i.requireInterventionProvenance d command.roleId command.target
      command.provenance) := by
    unfold requireInterventionProvenance
    split <;> simp [requireSelectedResponse]
  simp [decideRequestIntervention, hrequester, htgt, hprovenance]

@[simp] theorem noPanic_decideRespondToIntervention (command : RespondToIntervention) :
    NoPanic (i.decideRespondToIntervention d command) := by
  have hanswer : ∀ item, NoPanic (answeringResponse command item) := by
    intro item
    unfold answeringResponse
    dsimp only
    split <;> simp [requireAnsweringExecutor]
  simp [decideRespondToIntervention, requireOpenIntervention,
    CeremonyIntervention.ensureCanRespond, hanswer]

@[simp] theorem noPanic_decideRespondToInterventionWithEvidence
    (command : RespondToInterventionWithEvidence) :
    NoPanic (i.decideRespondToInterventionWithEvidence d command) := by
  simp [decideRespondToInterventionWithEvidence, requireOpenIntervention,
    CeremonyIntervention.ensureCanRespond, CeremonyInterventionResponse.fromEvidence,
    CeremonyEvidencePack.interventionContent, CeremonyInterventionContent.new]

@[simp] theorem noPanic_decideAcknowledgeInterventionDelivery
    (command : AcknowledgeInterventionDelivery) :
    NoPanic (i.decideAcknowledgeInterventionDelivery d command) := by
  simp only [decideAcknowledgeInterventionDelivery, requireOpenIntervention, noPanic_bind,
    noPanic_requireActive, noPanic_okOr, noPanic_require, true_and]
  intro _ _ item _ _ _
  split
  · split <;> simp
  · simp

@[simp] theorem noPanic_decideAssertReason (reason : CeremonyReason) :
    NoPanic (i.decideAssertReason d reason) := by
  have hasserter : ∀ roleId, NoPanic (i.requireAsserter reason roleId) := by
    intro roleId
    unfold requireAsserter
    split <;> simp
  simp [decideAssertReason, requireRecord, hasserter]

/-! ## Moves and endings -/

@[simp] theorem noPanic_decideApplyTransition (command : ApplyTransition) :
    NoPanic (i.decideApplyTransition d command) := by
  have hmover : NoPanic (i.requireMover d command.roleId command.trigger) := by
    unfold requireMover
    split <;> simp
  simp [decideApplyTransition, requireTransitionBudget,
    requireInterventionsResolvedBeforeEntering, hmover]

@[simp] theorem noPanic_decidePause (command : PauseCeremony) :
    NoPanic (i.decidePause d command) := by
  cases h : i.lifecycle_.phase <;> simp [decidePause, h]

@[simp] theorem noPanic_decideResume : NoPanic (i.decideResume d now) := by
  cases h : i.lifecycle_.phase <;> simp [decideResume, h]

/-! ## Holding a claim -/

@[simp] theorem noPanic_decideRenewStepLease (command : RenewStepLease) :
    NoPanic (i.decideRenewStepLease d command) := by
  simp only [decideRenewStepLease, noPanic_bind, noPanic_requireDefinition, true_and]
  intro _ _
  split
  · simp
  · simp only [decideNewRenewal, noPanic_bind, noPanic_require, noPanic_okOr,
      noPanic_requireStepClaimFence, true_and]
    intros
    split <;> simp

@[simp] theorem noPanic_decideRecordHostHandoff (command : RecordHostHandoff) :
    NoPanic (i.decideRecordHostHandoff d command) := by
  have hval : NoPanic command.declaration.validate := by
    simp [HostHandoffDeclaration.validate, validateHandoffField]
  simp only [decideRecordHostHandoff, noPanic_bind, noPanic_requireDefinition, hval, true_and]
  intro _ _ _ _
  split
  · split <;> simp
  · simp [decideNewHandoff]

@[simp] theorem noPanic_decidePlanChildren (command : PlanCeremonyChildren) :
    NoPanic (i.decidePlanChildren d command) := by
  have hlineage : ∀ maxDepth, NoPanic (i.expectedLineage maxDepth) := by
    intro maxDepth
    have hdepth : NoPanic i.childDepth := by
      unfold childDepth
      split <;> simp
    simp [expectedLineage, hdepth]
  have hchildren : ∀ expected (spawned : List CeremonyChildSpec),
      NoPanic (forEach (command.plan.children.zip spawned)
        (i.requirePlannedChild command.plan expected)) := by
    intro expected spawned
    exact noPanic_forEach _ _ fun entry _ => by simp [requirePlannedChild]
  simp only [decidePlanChildren, noPanic_bind, noPanic_requireDefinition, true_and]
  intro _ _
  split
  · split <;> simp
  · simp [decideNewChildPlan, hlineage, hchildren]

@[simp] theorem noPanic_decideAdoptChildPlan (command : AdoptChildSpawnPlan) :
    NoPanic (i.decideAdoptChildPlan d command) := by
  simp only [decideAdoptChildPlan, noPanic_bind, noPanic_requireDefinition, noPanic_okOr, true_and]
  intro _ _ group _
  split <;> simp

@[simp] theorem noPanic_decideAcceptChildCompletion (command : AcceptChildCompletion) :
    NoPanic (i.decideAcceptChildCompletion d command) := by
  simp only [decideAcceptChildCompletion, noPanic_bind, noPanic_requireDefinition, noPanic_okOr,
    noPanic_require, true_and]
  intro _ _ group _ _ _
  split
  · split <;> simp
  · simp

@[simp] theorem noPanic_decidePlanSuccessor (command : PlanSuccessor) :
    NoPanic (i.decidePlanSuccessor d command) := by
  have hdisposed : ∀ plan now, NoPanic (i.requireEveryOutstandingClaimIsDisposed plan now) := by
    intro plan now
    unfold requireEveryOutstandingClaimIsDisposed
    refine NoPanic.bind (noPanic_forEach _ _ fun entry _ => ?_) fun _ _ =>
      noPanic_forEach _ _ fun disposition _ => by simp [requireOutstanding]
    unfold requireDisposed
    split <;> simp
  have hcarried : NoPanic (forEach command.plan.carried
      (i.requireCarriedEvidenceIsSound command)) :=
    noPanic_forEach _ _ fun evidence _ => by
      simp [requireCarriedEvidenceIsSound, requireSuccessorDeclares, requireStepCarries]
  simp only [decidePlanSuccessor, noPanic_bind, noPanic_requireDefinition, true_and]
  intro _ _
  split
  · split <;> simp
  · simp [decideNewSuccessor, requirePinnedSuccessor, requireDerivedSuccessorId,
      SuccessorCeremonyId.derive, hdisposed, hcarried]

/-! ## Starts -/

theorem dynamicRoleBinding_of_resolved {stepId : StepId} {requested : Option RoleId} {role : RoleId}
    {step : CeremonyStep} (h : i.resolveStepRole d stepId requested = .ok (role, true))
    (hstep : d.step stepId = some step) : step.dynamicRoleBinding.isSome = true := by
  simp only [resolveStepRole, hstep, bind_eq_ok, okOr_eq_ok] at h
  obtain ⟨_, ⟨⟩, h⟩ := h
  cases hbinding : step.dynamicRoleBinding with
  | some => rfl
  | none =>
    rw [hbinding] at h
    simp only [bind_eq_ok, pure_eq_ok, Prod.mk.injEq] at h
    obtain ⟨_, _, _, _, _, _, _, hstatic⟩ := h
    cases hstatic

theorem noPanic_resolveStepRole (requested : Option RoleId) :
    NoPanic (i.resolveStepRole d stepId requested) := by
  have hcollect : ∀ entries, NoPanic (i.collectReservedRoles d stepId entries) := by
    intro entries
    induction entries with
    | nil => simp [collectReservedRoles]
    | cons entry rest ih =>
      have hreserved : NoPanic (reservedRole d entry.1 entry.2) := by
        unfold reservedRole
        split
        · simp
        · split <;> simp
      unfold collectReservedRoles
      split <;> simp [ih, hreserved]
  have havailable : ∀ role, NoPanic (i.requireRoleIsAvailable d stepId role) := by
    intro role
    unfold requireRoleIsAvailable
    split <;> simp [rolesAssignedToOtherSteps, hcollect]
  simp only [resolveStepRole, noPanic_bind, noPanic_okOr, true_and]
  intro step _
  split <;> simp [havailable]

theorem noPanic_resolvedStepIsClaimableAt (now : OffsetDateTime)
    (ceiling : MaxParallel) : NoPanic (i.resolvedStepIsClaimableAt d stepId now ceiling) := by
  have hready : NoPanic (i.stepIsReadyWithoutRoleAt d stepId now) := by
    simp only [stepIsReadyWithoutRoleAt, noPanic_bind, noPanic_okOr, true_and]
    intros
    split <;> simp
  simp only [resolvedStepIsClaimableAt, noPanic_bind, noPanic_requireDefinition, noPanic_okOr,
    true_and]
  intro _ _ state _
  split
  · split <;> simp [hready]
  · split <;> simp [hready]

@[simp] theorem noPanic_decideStartStep (command : StartStep) :
    NoPanic (i.decideStartStep d command) := by
  have hrole := i.noPanic_resolveStepRole d command.stepId command.roleId
  have hclaimable := i.noPanic_resolvedStepIsClaimableAt d command.stepId command.now
    command.maxParallelCeiling
  have hseal : ∀ dynamic startedBy,
      NoPanic (i.sealedRoleOf d dynamic command.stepId startedBy) := by
    intro dynamic startedBy
    unfold sealedRoleOf isAlternateStaticRole
    simp only [noPanic_bind, noPanic_pure, implies_true, and_true]
    split <;> simp
  have hbudget : ∀ record, NoPanic (i.requireBudgetReservation record command) := by
    intro record
    unfold requireBudgetReservation
    split <;> simp
  simp only [decideStartStep, requireNewStepIdempotencyKey, stepDeadline, noPanic_bind,
    noPanic_requireDefinition, noPanic_requireAdmitsNewWork, noPanic_require, noPanic_okOr,
    StepExecutionRecord.noPanic_nextStartAttempt, StepClaimFence.noPanic_forRecord,
    noPanic_deadlineAfter, noPanic_pure, hrole, hclaimable, hseal, hbudget, true_and,
    implies_true, and_true]
  intro _ _ _ _ _ _ step hstep _ _ _ _ _ _ _ _ _ _ resolved hresd _ _ _ _ _ _ _ _ _ _ _ _ _ _
  rw [okOr_eq_ok] at hstep
  unfold roleFromOf
  split
  case isTrue hdynamic =>
    obtain ⟨role, dynamic⟩ := resolved
    subst hdynamic
    simp [noPanic_expect_iff, dynamicRoleBinding_of_resolved i d hresd hstep]
  case isFalse => simp

/-! ## Results -/

theorem noPanic_decideLateStepResult : NoPanic (i.decideLateStepResult d command) := by
  have hfin : ∀ retired record, NoPanic (lateFinishedBy d retired record command.stepId) := by
    intro retired record
    unfold lateFinishedBy
    split <;> simp
  unfold decideLateStepResult
  split
  · split <;> simp
  · dsimp only
    split <;> simp [hfin]

end CeremonyInstance

/-! ## The size of a context -/

namespace CeremonyContext

/-- The number of keys of a context once a patch is written into it. -/
def keysWith (context : CeremonyContext) (patch : ContextPatch) : Nat :=
  (patchEntries context.attributes.entries patch).size

theorem patchEntries_keys {entries : Map String Value} (patch : ContextPatch)
    (h : ∀ key ∈ entries, trim key ≠ "") : ∀ key ∈ patchEntries entries patch, trim key ≠ "" := by
  unfold patchEntries
  rw [foldl_eq_foldl_toList]
  induction patch.entries.toList generalizing entries with
  | nil => exact h
  | cons entry rest ih =>
    refine ih fun key hkey => ?_
    rw [mem_insert, Std.LawfulEqCmp.compare_eq_iff_eq] at hkey
    rcases hkey with rfl | hkey
    · rw [trim_of_isTrimmed _ entry.1.isTrimmed_val]
      exact entry.1.val_ne_empty
    · exact h key hkey

theorem withPatch_isOk_iff (context : CeremonyContext) (patch : ContextPatch) :
    (∃ patched, context.withPatch patch = .ok patched) ↔
      context.keysWith patch ≤ maxAttributesKeys := by
  have hkeys : ∀ key ∈ context.attributes.entries, trim key ≠ "" := by
    have hval := context.attributes.valid
    simp only [attributesOk, Bool.and_eq_true, List.all_eq_true, decide_eq_true_eq,
      mem_keys] at hval
    exact hval.2
  have hpatched := patchEntries_keys patch hkeys
  have hok : attributesOk (patchEntries context.attributes.entries patch) = true ↔
      context.keysWith patch ≤ maxAttributesKeys := by
    simp only [attributesOk, Bool.and_eq_true, List.all_eq_true, decide_eq_true_eq, mem_keys]
    exact ⟨fun h => h.1, fun h => ⟨h, hpatched⟩⟩
  rw [← hok, ← Attributes.new_isOk_iff]
  constructor
  · rintro ⟨patched, h⟩
    obtain ⟨attributes, hnew, -⟩ := (bind_eq_ok _ _ _).mp h
    exact ⟨attributes, hnew⟩
  · rintro ⟨attributes, hnew⟩
    exact ⟨⟨attributes⟩, (bind_eq_ok _ _ _).mpr ⟨attributes, hnew, rfl⟩⟩

end CeremonyContext

/-! ## Which results panic -/

namespace CeremonyInstance

variable {d : CeremonyDefinition} {i : CeremonyInstance} {events : List CeremonyEvent}

/-- A repeat that permits another iteration has one to go to. -/
theorem nextIterationAfter_isOk (step : CeremonyStep) (result : StepResult)
    (iteration : StepIteration) : ∃ next, nextIterationAfter step result iteration = .ok next := by
  unfold nextIterationAfter
  split
  · exact ⟨none, rfl⟩
  case h_2 policy hpolicy =>
    rw [Option.filter_eq_some_iff] at hpolicy
    have hroom : iteration.val < policy.maxIterations.val := of_decide_eq_true hpolicy.2
    have hmax : policy.maxIterations.val ≤ 1000 := policy.maxIterations.le_max
    have hnext : ∃ next, iteration.next = .ok next := by
      unfold StepIteration.next Ordinal.new saturatingSucc u32Max
      rw [dif_neg (by omega), dif_neg (by simp only; omega)]
      exact ⟨_, rfl⟩
    obtain ⟨next, hnext⟩ := hnext
    exact ⟨some next, (bind_eq_ok _ _ _).mpr ⟨next, hnext, rfl⟩⟩

/-- A success of the current claim whose declared context writes resolve to the patch. -/
structure CompletesWith (d : CeremonyDefinition) (i : CeremonyInstance) (command : ApplyStepResult)
    (patch : ContextPatch) : Prop where
  success : command.result.isSuccess = true
  claim : ∃ step record, CurrentClaim d i command.stepId step record command.claimFence ∧
    (∃ finishedBy, roleOrStatic d record.claimedRole command.stepId = .ok finishedBy) ∧
    step.contextWrites.resolve command.result.output = .ok (some patch)

/-- The fold of a completion panics exactly when its patch does not fit the context. -/
theorem noPanic_applyAll_completionEvents (record : StepExecutionRecord)
    (next : Option StepIteration) (finishedBy : RoleId) (patch : Option ContextPatch) :
    NoPanic (i.applyAll (i.completionEvents command record next finishedBy patch)) ↔
      ∀ written, patch = some written → i.context.keysWith written ≤ maxAttributesKeys := by
  obtain ⟨records, history, hshape⟩ :=
    applyStepCompleted_eq i (i.stepCompletedOf command record next finishedBy)
  cases patch with
  | none =>
    have hfold : i.applyAll (i.completionEvents command record next finishedBy none) =
        .ok (i.applyStepCompleted (i.stepCompletedOf command record next finishedBy)) := rfl
    simp [hfold]
  | some written =>
    have hfold : i.applyAll (i.completionEvents command record next finishedBy (some written)) =
        (i.applyStepCompleted (i.stepCompletedOf command record next finishedBy)
          ).applyContextWritten (i.contextWrittenOf command record written) >>= pure := rfl
    have hctx : (i.applyStepCompleted
        (i.stepCompletedOf command record next finishedBy)).context = i.context := by
      rw [hshape]
      rfl
    rw [hfold, noPanic_bind]
    simp only [noPanic_pure, implies_true, and_true, Option.some.injEq, forall_eq']
    rw [← withPatch_isOk_iff, applyContextWritten, hctx]
    cases hpatch : i.context.withPatch written with
    | ok patched => simp [contextWrittenOf, hpatch]
    | error fault => simp [contextWrittenOf, hpatch, NoPanic]

theorem noPanic_decideCurrentStepResult_iff (step : CeremonyStep) :
    NoPanic (i.decideCurrentStepResult d command step) ↔
      (step.stateId = i.currentState → ∀ record, i.stepRecords[command.stepId]? = some record →
        record.status = .inProgress → i.stepClaimFence command.stepId = .ok command.claimFence →
        command.result.isSuccess = true →
        ∀ finishedBy, roleOrStatic d record.claimedRole command.stepId = .ok finishedBy →
        ∀ patch, step.contextWrites.resolve command.result.output = .ok (some patch) →
          i.context.keysWith patch ≤ maxAttributesKeys) := by
  simp only [decideCurrentStepResult, noPanic_bind, noPanic_require, noPanic_okOr,
    noPanic_requireStepClaimFence, require_eq_ok, okOr_eq_ok, requireStepClaimFence_eq_ok,
    true_and, forall_const]
  refine imp_congr_right fun hstate => forall_congr' fun record => imp_congr_right fun hrec =>
    imp_congr_right fun hprog => imp_congr_right fun hfence => ?_
  split
  case isFalse hfailure => simp [hfailure]
  case isTrue hsucc =>
    obtain ⟨next, hnext⟩ := nextIterationAfter_isOk step command.result record.iteration
    have hmore : ∀ t : CeremonyInstance, NoPanic (t.decideStateIteration d command.now) := by
      intro t
      unfold decideStateIteration
      split
      · simp
      · split <;> simp
    simp only [noPanic_bind, noPanic_roleOrStatic, ContextWrites.noPanic_resolve,
      noPanic_applyAll_completionEvents, hmore, noPanic_pure, hnext,
      noPanic_ok, Except.ok.injEq, true_and, implies_true, and_true, hsucc, forall_const]
    constructor
    · intro h finishedBy hfin patch hpatch
      exact h next rfl finishedBy hfin (some patch) hpatch patch rfl
    · rintro h _ _ finishedBy hfin patch hpatch written rfl
      exact h finishedBy hfin written hpatch

/-- A result panics exactly when it completes the current claim and its patch does not fit. -/
theorem noPanic_decideApplyStepResult_iff :
    NoPanic (i.decideApplyStepResult d command) ↔
      ∀ patch, CompletesWith d i command patch → i.context.keysWith patch ≤ maxAttributesKeys := by
  have hreached : NoPanic (i.decideApplyStepResult d command) ↔ (i.matchesDefinition d = true →
        (command.result.failureKind.isNone = true ∨ command.result.status = .failed) →
        ∀ step, d.step command.stepId = some step →
        i.decideLateStepResult d command = .ok none →
          NoPanic (i.decideCurrentStepResult d command step)) := by
    simp only [decideApplyStepResult, noPanic_bind, noPanic_requireDefinition, noPanic_require,
      noPanic_okOr, noPanic_decideLateStepResult, requireDefinition_eq_ok, require_eq_ok,
      okOr_eq_ok, true_and, forall_const]
    refine imp_congr_right fun _ => imp_congr_right fun _ => forall_congr' fun step =>
      imp_congr_right fun _ => ⟨fun h hlate => h none hlate, fun h late hlate => ?_⟩
    cases late with
    | some events => simp
    | none => exact h hlate
  rw [hreached]
  constructor
  · rintro h patch ⟨hsucc, step, record, hclaim, ⟨finishedBy, hfin⟩, hpatch⟩
    have hkind : command.result.failureKind.isNone = true ∨ command.result.status = .failed := by
      refine .inl (Option.isNone_iff_eq_none.mpr (command.result.failureKind_eq_none ?_))
      intro hfailed
      simp [StepResult.isSuccess, StepStatus.isSuccess, hfailed] at hsucc
    have hlate : i.decideLateStepResult d command = .ok none := by
      simp [decideLateStepResult, hclaim.notLate, hclaim.notRetired, hclaim.notEnded]
    have hcur := h hclaim.matched hkind step hclaim.step_eq hlate
    exact (noPanic_decideCurrentStepResult_iff command step).mp hcur hclaim.inState record
      hclaim.record_eq hclaim.inProgress hclaim.fence_eq hsucc finishedBy hfin patch hpatch
  · intro h hm _ step hstep hlate
    rw [noPanic_decideCurrentStepResult_iff]
    intro hstate record hrec hprog hfence hsucc finishedBy hfin patch hpatch
    rcases decideLateStepResult_eq_ok hm hlate with hnone | ⟨_, _, hnone, _⟩
      | ⟨-, hend, hunseen, hret⟩
    · cases hnone
    · cases hnone
    · exact h patch ⟨hsucc, step, record, ⟨hm, hend, hstep, hstate, hrec, hprog,
        hfence, hunseen, hret⟩, ⟨finishedBy, hfin⟩, hpatch⟩

/-! ## Receipts -/

def receiptResult (command : ApplyExecutionReceiptResult) : ApplyStepResult :=
  ⟨command.stepId, command.claimFence, command.result, command.now⟩

/-- A receipt that is linked: it is valid, names the claim it completes and the operation of its
step, and is neither linked already nor in conflict with a link. -/
structure ReceiptIsNew (i : CeremonyInstance) (command : ApplyExecutionReceiptResult) : Prop where
  valid : command.receiptLink.validate = .ok ()
  applied : command.receiptLink.appliedClaimFence = command.claimFence
  unlinked : i.executionReceiptLinks[command.receiptLink.operationId]? ≠ some command.receiptLink
  direct : command.receiptLink.kind = .direct →
    i.executionReceiptLinks[command.receiptLink.operationId]? = none
  adopted : command.receiptLink.kind = .adopted →
    i.executionReceiptAdoption command.receiptLink.operationId
        command.receiptLink.appliedClaimFence = none ∧
      i.admitsNewWork = true ∧
      requireSameReceipt i.executionReceiptLinks[command.receiptLink.operationId]?
        command.receiptLink = .ok ()
  operation : ∃ record, i.stepRecords[command.stepId]? = some record ∧
    command.receiptLink.operationId = i.expectedOperationId command.stepId command.claimFence record

theorem noPanic_decideLinkedStepResult_iff (command : ApplyExecutionReceiptResult) :
    NoPanic (i.decideLinkedStepResult d command) ↔
      ((∃ record, i.stepRecords[command.stepId]? = some record ∧ command.receiptLink.operationId =
          i.expectedOperationId command.stepId command.claimFence record) →
        NoPanic (i.decideApplyStepResult d (receiptResult command))) := by
  simp only [decideLinkedStepResult, noPanic_bind, noPanic_okOr, noPanic_require, okOr_eq_ok,
    require_eq_ok, noPanic_pure, implies_true, and_true, true_and, forall_const, receiptResult]
  constructor
  · rintro h ⟨record, hrec, hop⟩
    exact h record hrec hop
  · intro h record hrec hop
    exact h ⟨record, hrec, hop⟩

theorem noPanic_decideApplyExecutionReceiptResult_iff (command : ApplyExecutionReceiptResult) :
    NoPanic (i.decideApplyExecutionReceiptResult d command) ↔
      (ReceiptIsNew i command → NoPanic (i.decideApplyStepResult d (receiptResult command))) := by
  have hvalidate : NoPanic command.receiptLink.validate := by
    simp [ExecutionReceiptLink.validate]
  have hsame : ∀ original, NoPanic (requireSameReceipt original command.receiptLink) := by
    intro original
    cases original <;> simp [requireSameReceipt]
  simp only [decideApplyExecutionReceiptResult, noPanic_bind, noPanic_require, require_eq_ok,
    hvalidate, true_and, forall_const]
  constructor
  · rintro h ⟨hval, happlied, hunlinked, hdirect, hadopted, hop⟩
    have h := h () hval happlied
    rw [if_neg hunlinked] at h
    cases hkind : command.receiptLink.kind with
    | direct =>
      simp only [hkind, noPanic_bind, noPanic_require, require_eq_ok, true_and,
        forall_const, noPanic_decideLinkedStepResult_iff] at h
      exact h (hdirect hkind) hop
    | adopted =>
      obtain ⟨hnone, hadms, hsame⟩ := hadopted hkind
      simp only [hkind, hnone, noPanic_bind, noPanic_requireAdmitsNewWork,
        requireAdmitsNewWork_eq_ok, true_and, forall_const,
        noPanic_decideLinkedStepResult_iff] at h
      exact (h hadms).2 () hsame hop
  · intro h _ hval happlied
    split
    case isTrue => simp
    case isFalse hunlinked =>
      cases hkind : command.receiptLink.kind with
      | direct =>
        simp only [noPanic_bind, noPanic_require, require_eq_ok, true_and, forall_const,
          noPanic_decideLinkedStepResult_iff]
        intro hnone hop
        refine h ⟨hval, happlied, hunlinked, fun _ => hnone, fun hadopted => ?_, hop⟩
        rw [hkind] at hadopted
        cases hadopted
      | adopted =>
        dsimp only
        split
        · split <;> simp
        case h_2 hnone =>
          simp only [noPanic_bind, noPanic_requireAdmitsNewWork, requireAdmitsNewWork_eq_ok,
            hsame, true_and, forall_const, noPanic_decideLinkedStepResult_iff]
          intro hadms _ hsame hop
          refine h ⟨hval, happlied, hunlinked, fun hdirect => ?_,
            fun _ => ⟨hnone, hadms, hsame⟩, hop⟩
          rw [hkind] at hdirect
          cases hdirect

/-! ## Every command -/

/-- The step result a command files: its own, or that of a receipt that is linked. -/
inductive Files (i : CeremonyInstance) : CeremonyCommand → ApplyStepResult → Prop where
  | result (command : ApplyStepResult) : Files i (.applyStepResult command) command
  | receipt (command : ApplyExecutionReceiptResult) (isNew : ReceiptIsNew i command) :
      Files i (.applyExecutionReceiptResult command) (receiptResult command)

/-- A command that files a success of the current claim whose declared context writes bring the
context over its key limit. -/
def OverflowsContext (d : CeremonyDefinition) (i : CeremonyInstance) (command : CeremonyCommand) :
    Prop :=
  ∃ result patch, Files i command result ∧ CompletesWith d i result patch ∧
    maxAttributesKeys < i.context.keysWith patch

theorem noPanic_decide_of_quiet {command : CeremonyCommand}
    (quiet : (∀ c, command ≠ .applyStepResult c) ∧ ∀ c, command ≠ .applyExecutionReceiptResult c) :
    NoPanic (i.decide d command) := by
  cases command with
  | applyStepResult command => exact absurd rfl (quiet.1 command)
  | applyExecutionReceiptResult command => exact absurd rfl (quiet.2 command)
  | closeIntervention =>
    simp [decide, decideCloseIntervention, requireOpenIntervention, CeremonyIntervention.close]
  | _ =>
    simp [decide, decideBindParticipant, decideApproveGuard, decideDeferGuard, decideCancel,
      decideEnforceDeadlines]

theorem noPanic_decide_iff (command : CeremonyCommand) :
    NoPanic (i.decide d command) ↔ ¬ OverflowsContext d i command := by
  by_cases hres : ∃ c, command = .applyStepResult c
  · obtain ⟨command, rfl⟩ := hres
    rw [decide, noPanic_decideApplyStepResult_iff]
    constructor
    · rintro h ⟨_, patch, ⟨⟩, hcompletes, hover⟩
      exact absurd (h patch hcompletes) (not_le.mpr hover)
    · intro h patch hcompletes
      exact not_lt.mp fun hover => h ⟨command, patch, .result command, hcompletes, hover⟩
  · by_cases hrcpt : ∃ c, command = .applyExecutionReceiptResult c
    · obtain ⟨command, rfl⟩ := hrcpt
      rw [decide, noPanic_decideApplyExecutionReceiptResult_iff, noPanic_decideApplyStepResult_iff]
      constructor
      · rintro h ⟨_, patch, hfiles, hcompletes, hover⟩
        cases hfiles with
        | receipt _ hnew => exact absurd (h hnew patch hcompletes) (not_le.mpr hover)
      · intro h hnew patch hcompletes
        exact not_lt.mp fun hover => h ⟨_, patch, .receipt command hnew, hcompletes, hover⟩
    · refine iff_of_true (noPanic_decide_of_quiet ⟨fun c h => hres ⟨c, h⟩,
        fun c h => hrcpt ⟨c, h⟩⟩) ?_
      rintro ⟨_, _, hfiles, -⟩
      cases hfiles with
      | result => exact hres ⟨_, rfl⟩
      | receipt => exact hrcpt ⟨_, rfl⟩

/-! ## Accepted batches fold -/

theorem applyAll_isOk (h : ∀ e ∈ events, e.eventType ≠ .contextWritten) :
    ∃ t, i.applyAll events = .ok t := by
  induction events generalizing i with
  | nil => exact ⟨i, rfl⟩
  | cons e rest ih =>
    rw [List.forall_mem_cons] at h
    obtain ⟨j, hj⟩ : ∃ j, i.apply e = .ok j := by
      cases e with
      | contextWritten => exact absurd rfl h.1
      | _ => exact ⟨_, rfl⟩
    obtain ⟨t, ht⟩ := ih (i := j) h.2
    exact ⟨t, applyAll_cons_eq_ok.mpr ⟨j, hj, ht⟩⟩

/-- The events a result was decided into fold, whatever receipts are linked before them. -/
theorem filedResult_isOk {command : ApplyStepResult} (filed : FiledResult d i command events)
    (links : Map ExecutionOperationId ExecutionReceiptLink)
    (adoptions : Map ExecutionOperationId (Map StepClaimFence ExecutionReceiptLink))
    (updatedAt : OffsetDateTime) :
    ∃ t, (i.withLinks links adoptions updatedAt).applyAll events = .ok t := by
  cases filed with
  | repeated | late e record admitted => exact ⟨_, rfl⟩
  | current step record _ claim result =>
    cases result with
    | failed => exact ⟨_, rfl⟩
    | completed next finishedBy patch projected more success next_eq patch_eq folded more_eq =>
      -- The decision has folded the completion itself, and an iteration always folds.
      have hfolded := withLinks_applyAll_completion links adoptions updatedAt folded
      have hmore : ∀ e ∈ more, e.eventType ≠ .contextWritten := by
        have hpath := completion_path claim success next_eq patch_eq folded
        rcases decideStateIteration_eq_ok hpath.2.1 hpath.2.2 more_eq with rfl | ⟨e, rfl, -⟩
        · simp
        · simp [CeremonyEvent.eventType]
      obtain ⟨t, ht⟩ :=
        applyAll_isOk (i := projected.withLinks links adoptions command.now) hmore
      exact ⟨t, applyAll_append_eq_ok.mpr ⟨_, hfolded, ht⟩⟩

theorem applyAll_isOk_of_decide {command : CeremonyCommand}
    (accepted : i.decide d command = .ok events) : ∃ t, i.applyAll events = .ok t := by
  have heach := decide_each accepted
  cases command with
  | applyStepResult command =>
    exact filedResult_isOk (decideApplyStepResult_eq_ok accepted) i.executionReceiptLinks
      i.executionReceiptAdoptions i.updatedAt
  | applyExecutionReceiptResult command =>
    cases decideApplyExecutionReceiptResult_eq_ok accepted with
    | repeated => exact ⟨i, rfl⟩
    | linked record results admitted filed =>
      obtain ⟨links, adoptions, hlinks⟩ := applyExecutionReceiptLinked_eq i
        ⟨command.stepId, command.receiptLink, command.now⟩
      obtain ⟨t, ht⟩ := filedResult_isOk filed links adoptions command.now
      refine ⟨t, applyAll_cons_eq_ok.mpr ⟨_, rfl, ?_⟩⟩
      rw [hlinks]
      exact ht
  | _ =>
    refine applyAll_isOk fun e hmem hwritten => ?_
    have htype := (heach e hmem).1
    rw [hwritten] at htype
    simp [emits] at htype

end CeremonyInstance

open CeremonyInstance

/-- A decision panics exactly on a success of the current claim whose declared context writes bring
the context over its key limit; and whatever is accepted folds without a panic. -/
theorem decide_panics_iff (d : CeremonyDefinition) (i : CeremonyInstance)
    (command : CeremonyCommand) :
    ((∃ message, i.decide d command = .error (.panicked message)) ↔ OverflowsContext d i command) ∧
    ∀ events, i.decide d command = .ok events → ∃ t, i.applyAll events = .ok t := by
  refine ⟨?_, fun events accepted => applyAll_isOk_of_decide accepted⟩
  have h := noPanic_decide_iff (d := d) (i := i) command
  rw [NoPanic, ← not_exists] at h
  exact not_iff_not.mp (by simpa using h)

/-! ## A context that is full -/

/-- The key of a number: that many letters and one more. -/
def crowdKey (n : Nat) : String := String.ofList (List.replicate (n + 1) 'k')

def crowd : Nat → Map String Value
  | 0 => ∅
  | n + 1 => (crowd n).insert (crowdKey n) .null

theorem mem_crowd {n : Nat} {key : String} : key ∈ crowd n ↔ ∃ m < n, crowdKey m = key := by
  induction n with
  | zero => simp [crowd]
  | succ n ih =>
    rw [crowd, mem_insert, Std.LawfulEqCmp.compare_eq_iff_eq, ih]
    constructor
    · rintro (hkey | ⟨m, hm, hkey⟩)
      · exact ⟨n, by omega, hkey⟩
      · exact ⟨m, by omega, hkey⟩
    · rintro ⟨m, hm, hkey⟩
      rcases Nat.lt_succ_iff_lt_or_eq.mp hm with hm | rfl
      · exact .inr ⟨m, hm, hkey⟩
      · exact .inl hkey

theorem crowd_size (n : Nat) : (crowd n).size = n := by
  induction n with
  | zero => rfl
  | succ n ih =>
    have hfresh : crowdKey n ∉ crowd n := by
      rw [mem_crowd]
      rintro ⟨m, hm, hkey⟩
      have hlen := congrArg (fun key => key.toList.length) hkey
      simp only [crowdKey, String.toList_ofList, List.length_replicate] at hlen
      omega
    rw [crowd, Map.size_insert_of_notMem hfresh, ih]

theorem crowdKey_trim (n : Nat) : trim (crowdKey n) ≠ "" := by
  have htrimmed : isTrimmed (crowdKey n) = true := by
    simp only [isTrimmed, crowdKey, String.toList_ofList, List.head?_replicate,
      List.getLast?_replicate, Nat.add_one_ne_zero, if_false, Option.all_some]
    decide
  rw [trim_of_isTrimmed _ htrimmed]
  intro h
  have hlen := congrArg (fun key => key.toList.length) h
  simp [crowdKey] at hlen

/-- A context that holds as many keys as a context may. -/
def crowdedContext : CeremonyContext where
  attributes := ⟨crowd maxAttributesKeys, by
    simp only [attributesOk, crowd_size, le_refl, decide_true, Bool.true_and, List.all_eq_true,
      Std.ExtTreeMap.mem_keys, decide_eq_true_eq, mem_crowd]
    rintro key ⟨m, -, rfl⟩
    exact crowdKey_trim m⟩

def answerDefinition : CeremonyDefinition :=
  (CeremonyDefinition.new ⟨"answer", .refl true⟩ firstVersion none [] []
    [.initial openState, .terminal doneState]
    [finishing []]
    [{ CeremonyStep.new ⟨"ask", .refl true⟩ openState agentHandler .empty
          .singleAttempt none with
        contextWrites := (∅ : ContextWrites).insert ⟨"answer", .refl true⟩ ⟨"text", .refl true⟩ }]
    [] [.of author (.step ⟨"ask", .refl true⟩) []]).get (by decide +kernel)

def askId : StepId := ⟨"ask", .refl true⟩

def answerResult : StepResult :=
  completedWith ⟨(∅ : Map String Value).insert "text" (.bool true), by decide +kernel⟩

def answerOpening : CeremonyOpening :=
  .start ⟨"ceremony-1", .refl true⟩ answerDefinition crowdedContext none (.afterEpoch 0)

def askStart : CeremonyCommand :=
  startAt askId ⟨"ask-1", .refl true⟩ (.afterEpoch 1) (.afterEpoch 100) (.refl true)

def answerPatch : ContextPatch where
  entries := (∅ : Map ContextKey Value).insert ⟨"answer", .refl true⟩ (.bool true)
  nonempty := by decide +kernel

theorem crowdedContext_keysWith : maxAttributesKeys < crowdedContext.keysWith answerPatch := by
  have hentries : patchEntries (crowd maxAttributesKeys) answerPatch =
      (crowd maxAttributesKeys).insert "answer" (.bool true) := by
    rw [patchEntries, foldl_eq_foldl_toList]
    rfl
  have hfresh : "answer" ∉ crowd maxAttributesKeys := by
    rw [mem_crowd]
    rintro ⟨m, -, hkey⟩
    have hhead := congrArg (fun key => key.toList.head?) hkey
    simp [crowdKey, List.replicate_succ] at hhead
  have hsize : crowdedContext.keysWith answerPatch = maxAttributesKeys + 1 := by
    rw [keysWith, crowdedContext, hentries, Map.size_insert_of_notMem hfresh, crowd_size]
  omega

/-- Whether the step is claimed, with nothing late or retired about it. -/
def isAsked (t : CeremonyInstance) : Bool :=
  t.matchesDefinition answerDefinition && !t.isEnded &&
    Decidable.decide (t.currentState = openState) &&
    t.stepRecords[askId]?.any (fun record => Decidable.decide (record.status = .inProgress)) &&
    Decidable.decide ((t.stepClaimFence askId).toOption = some (claimFenceOf t askId)) &&
    t.lateStepResults[claimFenceOf t askId]?.isNone &&
    (t.retiredClaim askId (claimFenceOf t askId)).isNone

/-- A claim of the step and an answer that does not fit the context. -/
theorem overflows_of_asked {t : CeremonyInstance} (hasked : isAsked t = true)
    (hctx : t.context = crowdedContext) :
    OverflowsContext answerDefinition t (resultAt askId answerResult ⟨2, by decide⟩ t) := by
  simp only [isAsked, Bool.and_eq_true, Bool.not_eq_true', decide_eq_true_eq,
    Option.isNone_iff_eq_none, Option.any_eq_true] at hasked
  obtain ⟨⟨⟨⟨⟨⟨hm, hend⟩, hstate⟩, record, hrec, hprog⟩, hfence⟩, hlate⟩, hret⟩ := hasked
  have hfence' := eq_ok_of_toOption hfence
  obtain ⟨step, hstep, hinState, howner, hpatch⟩ : ∃ step, answerDefinition.step askId = some step ∧
      step.stateId = ⟨"OPEN", by decide⟩ ∧
      (∃ finishedBy, answerDefinition.roleIdForStep askId = .ok finishedBy) ∧
      step.contextWrites.resolve answerResult.output = .ok (some answerPatch) := by
    have hchk : (answerDefinition.step askId).any (fun step =>
        Decidable.decide (step.stateId = ⟨"OPEN", by decide⟩) &&
          (answerDefinition.roleIdForStep askId).isOk &&
          Decidable.decide ((step.contextWrites.resolve answerResult.output).toOption =
            some (some answerPatch))) = true := by decide +kernel
    rw [Option.any_eq_true] at hchk
    obtain ⟨step, hstep, hchk⟩ := hchk
    simp only [Bool.and_eq_true, decide_eq_true_eq] at hchk
    obtain ⟨⟨hopen, howner⟩, hresolves⟩ := hchk
    refine ⟨step, hstep, hopen, ?_, eq_ok_of_toOption hresolves⟩
    exact exists_eq_ok_of_isOk howner
  refine ⟨_, answerPatch, .result _, ⟨rfl, step, record, ⟨hm, hend, hstep,
    hinState.trans hstate.symm, hrec, hprog, hfence', hlate, hret⟩, ?_, hpatch⟩, ?_⟩
  · cases hrole : record.claimedRole with
    | some role => exact ⟨role, rfl⟩
    | none => exact howner
  · rw [hctx]
    exact crowdedContext_keysWith

/-- A session that was opened with a full context and whose only step is claimed: the answer of
that step takes the decision down. -/
theorem answer_panics :
    ∃ (events : List CeremonyEvent) (i : CeremonyInstance)
      (trace : List (CeremonyCommand × List CeremonyEvent)) (t : CeremonyInstance),
      Opened answerDefinition answerOpening events i ∧
      (machine answerDefinition).Run (fun _ _ => True) i trace t ∧
      ∃ message, t.decide answerDefinition (resultAt askId answerResult ⟨2, by decide⟩ t) =
        .error (.panicked message) := by
  obtain ⟨events, i, trace, t, hopened, hrun, hasked, hcommands⟩ := exists_run_of_script
    answerOpening [fun _ => askStart]
    (fun _ trace t => isAsked t = true ∧ trace.map (·.1) = [askStart]) (by decide +kernel)
  refine ⟨events, i, trace, t, hopened, hrun, ?_⟩
  have hctx : t.context = crowdedContext := by
    obtain ⟨⟨command, batch⟩, rfl, hcmd⟩ := List.map_eq_singleton_iff.mp hcommands
    subst hcmd
    obtain ⟨-, hacc, u, hfolded, hnil⟩ := hrun.head
    obtain ⟨e, _, _, rfl, -⟩ := decideStartStep_eq_ok hacc
    cases hnil.eq_of_nil
    cases hfolded
    exact hopened.fresh.context
  have hpanics := (noPanic_decide_iff (d := answerDefinition) (i := t) _).not.mpr
    (not_not.mpr (overflows_of_asked hasked hctx))
  simpa [NoPanic] using hpanics

/-- The start of the step is accepted with the full context, and its event folds. -/
theorem ask_start_folds :
    ∃ (events : List CeremonyEvent) (i : CeremonyInstance) (batch : List CeremonyEvent)
      (t : CeremonyInstance), Opened answerDefinition answerOpening events i ∧
      i.decide answerDefinition askStart = .ok batch ∧ i.applyAll batch = .ok t := by
  obtain ⟨events, i, trace, t, hopened, hrun, hcommands⟩ := exists_run_of_script answerOpening
    [fun _ => askStart] (fun _ trace _ => trace.map (·.1) = [askStart]) (by decide +kernel)
  obtain ⟨⟨command, batch⟩, rfl, hcmd⟩ := List.map_eq_singleton_iff.mp hcommands
  subst hcmd
  obtain ⟨-, hacc, -⟩ := hrun.head
  obtain ⟨u, hu⟩ := (decide_panics_iff answerDefinition i askStart).2 batch hacc
  exact ⟨events, i, batch, u, hopened, hacc, hu⟩

end Made
