import Made.Runs.Machine

/-!
# What accepted starts, results and receipts say

The decisions about steps are the ones with several outcomes.  For each of them: what the accepted
decision returned, what it has checked, and that the batch is a path of admitted events.
-/

namespace Made

open EventSourcing Outcome

namespace CeremonyInstance

variable {d : CeremonyDefinition} {i t : CeremonyInstance} {events : List CeremonyEvent}
  {step : CeremonyStep} {command : ApplyStepResult} {record : StepExecutionRecord}
  {fence : StepClaimFence} {startedBy : RoleId}

/-! ## Shared requirements -/

@[simp] theorem requireDefinition_eq_ok (u : Unit) :
    i.requireDefinition d = .ok u ↔ i.matchesDefinition d = true := by
  simp [requireDefinition]

@[simp] theorem requireActive_eq_ok (terminalReason : String) (u : Unit) :
    i.requireActive d terminalReason = .ok u ↔ i.Active d := by
  simp only [requireActive, bind_eq_ok, requireDefinition_eq_ok, require_eq_ok,
    Bool.or_eq_false_iff, exists_const]
  constructor
  · rintro ⟨hm, hterm, hend⟩
    exact ⟨hm, hterm, hend⟩
  · rintro ⟨hm, hterm, hend⟩
    exact ⟨hm, hterm, hend⟩

@[simp] theorem requireAdmitsNewWork_eq_ok (operation : String) (u : Unit) :
    i.requireAdmitsNewWork operation = .ok u ↔ i.admitsNewWork = true := by
  simp [requireAdmitsNewWork]

@[simp] theorem requireRole_eq_ok (roleId : RoleId) (action : RoleAction) (u : Unit) :
    i.requireRole d roleId action = .ok u ↔
      i.matchesDefinition d = true ∧ d.roleAllows roleId action = true := by
  simp [requireRole, bind_eq_ok]

@[simp] theorem requireDeclaredRole_eq_ok (roleId : RoleId) (u : Unit) :
    i.requireDeclaredRole d roleId = .ok u ↔
      i.matchesDefinition d = true ∧ (d.role roleId).isSome = true := by
  simp [requireDeclaredRole, bind_eq_ok]

@[simp] theorem requireStepClaimFence_eq_ok (stepId : StepId) (fence : StepClaimFence) (u : Unit) :
    i.requireStepClaimFence stepId fence = .ok u ↔ i.stepClaimFence stepId = .ok fence := by
  simp [requireStepClaimFence, bind_eq_ok]

@[simp] theorem requireHumanGuard_eq_ok (guardName : GuardName) (refusal : String) (u : Unit) :
    requireHumanGuard d guardName refusal = .ok u ↔
      ∃ guard, d.guards[guardName]? = some guard ∧ guard.condition = .humanApproval := by
  simp [requireHumanGuard, bind_eq_ok]

@[simp] theorem requireOpenIntervention_eq_ok (interventionId : CeremonyInterventionId)
    (item : CeremonyIntervention) :
    i.requireOpenIntervention interventionId = .ok item ↔
      i.intervention interventionId = some item := by
  simp [requireOpenIntervention]

/-! ## Starts -/

theorem stepDeadline_eq_ok {command : StartStep} {attempt : StepAttempt} {timeout : Option Timeout}
    {deadline : StepDeadline}
    (h : i.stepDeadline command record attempt fence startedBy timeout = .ok (some deadline)) :
    deadline.stepId = command.stepId ∧ deadline.stateVisit = i.currentStateVisit ∧
      deadline.stateIteration = i.currentStateIteration ∧
      deadline.stepIteration = record.iteration ∧ deadline.attempt = attempt ∧
      deadline.claimFence = fence := by
  simp only [stepDeadline, bind_eq_ok, pure_eq_ok, Option.map_eq_some_iff] at h
  obtain ⟨_, _, _, _, rfl⟩ := h
  exact ⟨rfl, rfl, rfl, rfl, rfl, rfl⟩

/-- A seal is the role of the start, and is left out where the role came from the context. -/
theorem sealedRoleOf_eq_ok {dynamic : Bool} {stepId : StepId} {sealedRole : Option RoleId}
    (h : i.sealedRoleOf d dynamic stepId startedBy = .ok sealedRole) :
    sealedRole = none ∨ (dynamic = false ∧ sealedRole = some startedBy) := by
  simp only [sealedRoleOf, bind_eq_ok, pure_eq_ok] at h
  obtain ⟨alternate, _, rfl⟩ := h
  split
  case isTrue hseal => exact .inr ⟨hseal.1, rfl⟩
  case isFalse => exact .inl rfl

theorem roleFromOf_static {roleFrom : Option ContextKey}
    (h : roleFromOf false step = .ok roleFrom) : roleFrom = none := by
  cases h
  rfl

theorem requireBudgetReservation_eq_ok {command : StartStep} {done : Unit}
    (h : i.requireBudgetReservation record command = .ok done) :
    command.budgetReservationId = i.budgetAccountId.map fun account => .forOperation account
      (.forStep i.id command.stepId i.currentStateVisit i.currentStateIteration
        record.iteration) := by
  unfold requireBudgetReservation at h
  split at h <;> simp_all

theorem decideStartStep_eq_ok {command : StartStep} (h : i.decideStartStep d command = .ok events) :
    ∃ e step record, events = [.stepStarted e] ∧ StartAdmitted d i e step record ∧
      e.stepId = command.stepId ∧ e.lease = command.lease ∧ e.startedAt = command.now ∧
      e.budgetReservationId = command.budgetReservationId ∧
      e.budgetReservationId = i.budgetAccountId.map fun account => .forOperation account
        (.forStep i.id e.stepId i.currentStateVisit i.currentStateIteration record.iteration) := by
  simp only [decideStartStep, requireNewStepIdempotencyKey, bind_eq_ok,
    requireDefinition_eq_ok, requireAdmitsNewWork_eq_ok, require_eq_ok,
    okOr_eq_ok, exists_const, Bool.or_eq_false_iff] at h
  obtain ⟨hm, hadms, ⟨hterm, hend⟩, step, hstep, hstate, record, hrec, hstartable,
    attempt, hatt, hallowed, ⟨startedBy, dynamic⟩, hrole, sealedRole, hseal, claimable,
    hclaimable, rfl, hkey, _, hbudget, fence, hfence, deadline, hdue, roleFrom, hfrom,
    hevs⟩ := h
  rw [pure_eq_ok] at hevs
  subst hevs
  refine ⟨_, step, record, rfl, ?_, rfl, rfl, rfl, rfl, requireBudgetReservation_eq_ok hbudget⟩
  exact {
    active := ⟨hm, hterm, hend⟩
    admits := hadms
    step_eq := hstep
    inState := hstate
    record_eq := hrec
    startable := hstartable
    attempt_eq := hatt
    allowed := hallowed
    claimable := ⟨_, hclaimable⟩
    freshKey := hkey
    visit_eq := rfl
    stateIteration_eq := rfl
    iteration_eq := rfl
    oneSeal := by
      rcases sealedRoleOf_eq_ok hseal with rfl | ⟨hstatic, -⟩
      · exact .inr rfl
      · dsimp only at hstatic
        subst hstatic
        exact .inl (roleFromOf_static hfrom)
    sealed_eq := by
      rcases sealedRoleOf_eq_ok hseal with rfl | ⟨-, rfl⟩
      · simp
      · simp
    deadline_eq := by
      rintro sealed_ rfl
      obtain ⟨hid, hvisit, hiter, hstep, hatt, rfl⟩ := stepDeadline_eq_ok hdue
      -- The fence digests the lease and the coordinates, and not the role of the claim.
      exact ⟨hid, hvisit, hiter, hstep, hatt, hfence⟩ }

/-! ## Results -/

theorem decideLateStepResult_eq_ok {late : Option (List CeremonyEvent)}
    (hm : i.matchesDefinition d = true) (h : i.decideLateStepResult d command = .ok late) :
    late = some [] ∨
      (∃ e record, late = some [.lateStepResultObserved e] ∧ LateAdmitted d i e.result record ∧
        e.result.stepId = command.stepId ∧ e.result.claimFence = command.claimFence) ∨
      (late = none ∧ i.isEnded = false ∧ i.lateStepResults[command.claimFence]? = none ∧
        i.retiredClaim command.stepId command.claimFence = none) := by
  unfold decideLateStepResult at h
  cases hseen : i.lateStepResults[command.claimFence]? with
  | some existing =>
    rw [hseen] at h
    dsimp only at h
    split at h
    · cases h
      exact .inl rfl
    · simp at h
  | none =>
    rw [hseen] at h
    dsimp only at h
    split at h
    case isTrue hopen =>
      cases h
      exact .inr (.inr ⟨rfl, hopen.1, rfl, hopen.2⟩)
    case isFalse hgone =>
      simp only [bind_eq_ok, okOr_eq_ok, require_eq_ok,
        pure_eq_ok, exists_const, Bool.or_eq_true] at h
      obtain ⟨record, hrec, hclaimed, finishedBy, _, rfl⟩ := h
      refine .inr (.inl ⟨_, record, rfl, ?_, rfl, rfl⟩)
      refine ⟨hm, hseen, ?_, hrec, hclaimed⟩
      by_cases hend : i.isEnded = true
      · exact .inl hend
      · refine .inr ?_
        rw [Option.isSome_iff_ne_none]
        exact fun hnone => hgone ⟨by simpa using hend, hnone⟩

theorem decideStateIteration_eq_ok {now : OffsetDateTime} (hm : i.matchesDefinition d = true)
    (hend : i.isEnded = false) (h : i.decideStateIteration d now = .ok events) :
    events = [] ∨ ∃ e, events = [.stateIterationStarted e] ∧ IterationAdmitted d i e := by
  unfold decideStateIteration at h
  split at h
  · cases h
    exact .inl rfl
  · split at h
    · cases h
      exact .inl rfl
    case isFalse hagain =>
      simp only [bind_eq_ok, pure_eq_ok] at h
      obtain ⟨next, hnext, rfl⟩ := h
      have hcomplete : i.stateWorkIsComplete d = true := by
        by_contra hwork
        exact hagain (.inl (by simpa using hwork))
      exact .inr ⟨_, rfl, hm, hend, rfl, rfl, hnext, rfl, hcomplete⟩

/-- What an accepted result of the current claim was decided into. -/
inductive CurrentResult (d : CeremonyDefinition) (i : CeremonyInstance) (command : ApplyStepResult)
    (step : CeremonyStep) (record : StepExecutionRecord) : List CeremonyEvent → Prop where
  | failed (finishedBy : RoleId) (failure : command.result.isSuccess = false) :
      CurrentResult d i command step record [.stepFailed (i.stepFailedOf command record finishedBy)]
  | completed (nextIteration : Option StepIteration) (finishedBy : RoleId)
      (patch : Option ContextPatch) (projected : CeremonyInstance) (more : List CeremonyEvent)
      (success : command.result.isSuccess = true)
      (next_eq : nextIterationAfter step command.result record.iteration = .ok nextIteration)
      (patch_eq : step.contextWrites.resolve command.result.output = .ok patch)
      (folded : i.applyAll (i.completionEvents command record nextIteration finishedBy patch) =
        .ok projected)
      (more_eq : projected.decideStateIteration d command.now = .ok more) :
      CurrentResult d i command step record
        (i.completionEvents command record nextIteration finishedBy patch ++ more)

theorem decideCurrentStepResult_eq_ok (hm : i.matchesDefinition d = true)
    (hstep : d.step command.stepId = some step) (hend : i.isEnded = false)
    (hlate : i.lateStepResults[command.claimFence]? = none)
    (hret : i.retiredClaim command.stepId command.claimFence = none)
    (h : i.decideCurrentStepResult d command step = .ok events) :
    ∃ record, CurrentClaim d i command.stepId step record command.claimFence ∧
      CurrentResult d i command step record events := by
  simp only [decideCurrentStepResult, bind_eq_ok, require_eq_ok,
    okOr_eq_ok, requireStepClaimFence_eq_ok, exists_const] at h
  obtain ⟨hstate, record, hrec, hprog, hfence, h⟩ := h
  refine ⟨record, ⟨hm, hend, hstep, hstate, hrec, hprog, hfence, hlate, hret⟩, ?_⟩
  split at h
  case isTrue hsucc =>
    simp only [bind_eq_ok, pure_eq_ok] at h
    obtain ⟨next, hnext, finishedBy, _, patch, hpatch, projected, hproj, more, hmore, rfl⟩ := h
    exact .completed next finishedBy patch projected more hsucc hnext hpatch hproj hmore
  case isFalse hfailure =>
    simp only [bind_eq_ok, pure_eq_ok] at h
    obtain ⟨finishedBy, _, rfl⟩ := h
    exact .failed finishedBy (by simpa using hfailure)

/-- What an accepted result was decided into: nothing, a late observation, or the result of the
current claim. -/
inductive FiledResult (d : CeremonyDefinition) (i : CeremonyInstance)
    (command : ApplyStepResult) : List CeremonyEvent → Prop where
  | repeated : FiledResult d i command []
  | late (e : LateStepResultObserved) (record : StepExecutionRecord)
      (admitted : LateAdmitted d i e.result record) (stepId_eq : e.result.stepId = command.stepId)
      (fence_eq : e.result.claimFence = command.claimFence) :
      FiledResult d i command [.lateStepResultObserved e]
  | current (step : CeremonyStep) (record : StepExecutionRecord) (events : List CeremonyEvent)
      (claim : CurrentClaim d i command.stepId step record command.claimFence)
      (result : CurrentResult d i command step record events) : FiledResult d i command events

theorem decideApplyStepResult_eq_ok (h : i.decideApplyStepResult d command = .ok events) :
    FiledResult d i command events := by
  simp only [decideApplyStepResult, bind_eq_ok, requireDefinition_eq_ok,
    require_eq_ok, okOr_eq_ok, exists_const] at h
  obtain ⟨hm, _, step, hstep, late, hlate, h⟩ := h
  rcases decideLateStepResult_eq_ok hm hlate with rfl | ⟨e, record, rfl, hadm, hid, hfence⟩
    | ⟨rfl, hend, hunseen, hret⟩
  · cases h
    exact .repeated
  · cases h
    exact .late e record hadm hid hfence
  · obtain ⟨record, hclaim, hres⟩ :=
      decideCurrentStepResult_eq_ok hm hstep hend hunseen hret h
    exact .current step record events hclaim hres

/-! ## Paths of results

A receipt is linked before its result is folded, so the paths start in a session whose links may
already differ from the ones the result was decided on. -/

section withLinks

variable {links : Map ExecutionOperationId ExecutionReceiptLink}
  {adoptions : Map ExecutionOperationId (Map StepClaimFence ExecutionReceiptLink)}
  {updatedAt : OffsetDateTime}

theorem withLinks_applyStepCompleted (e : StepCompleted) :
    (i.withLinks links adoptions updatedAt).applyStepCompleted e =
      (i.applyStepCompleted e).withLinks links adoptions e.finishedAt := by
  unfold applyStepCompleted
  cases e.nextIteration <;> rfl

theorem withLinks_applyContextWritten (e : ContextWritten) (h : i.applyContextWritten e = .ok t) :
    (i.withLinks links adoptions updatedAt).applyContextWritten e =
      .ok (t.withLinks links adoptions e.writtenAt) := by
  have hctx : (i.withLinks links adoptions updatedAt).context = i.context := rfl
  unfold applyContextWritten at h ⊢
  rw [hctx]
  cases hpatch : i.context.withPatch e.patch with
  | error fault =>
    rw [hpatch] at h
    cases h
  | ok context =>
    rw [hpatch] at h
    cases h
    rfl

end withLinks

variable {nextIteration : Option StepIteration}

theorem completion_path {finishedBy : RoleId}
    {patch : Option ContextPatch} (claim : CurrentClaim d i command.stepId step record fence)
    (success : command.result.isSuccess = true)
    (hnext : nextIterationAfter step command.result record.iteration = .ok nextIteration)
    (hpatch : step.contextWrites.resolve command.result.output = .ok patch)
    (h : i.applyAll (i.completionEvents command record nextIteration finishedBy patch) = .ok t) :
    (machine d).Path (Admitted d) i
        (i.completionEvents command record nextIteration finishedBy patch) t ∧
      t.matchesDefinition d = true ∧ t.isEnded = false := by
  have hfirst : Admitted d i
      (.stepCompleted (i.stepCompletedOf command record nextIteration finishedBy)) :=
    ⟨step, record, fence, claim, rfl, rfl, rfl, rfl, success, hnext⟩
  have hm := claim.matched
  have hend := claim.notEnded
  obtain ⟨j, hj, hrest⟩ := applyAll_cons_eq_ok.mp h
  have hstep : (machine d).apply i
      (.stepCompleted (i.stepCompletedOf command record nextIteration finishedBy)) = .ok j := hj
  obtain ⟨records, history, hshape⟩ :=
    applyStepCompleted_eq i (i.stepCompletedOf command record nextIteration finishedBy)
  rw [apply, hshape, Except.ok.injEq] at hj
  subst hj
  cases patch with
  | none =>
    cases hrest
    exact ⟨.single hfirst hstep, hm, hend⟩
  | some patch =>
    obtain ⟨k, hk, hnil⟩ := applyAll_cons_eq_ok.mp hrest
    cases hnil
    refine ⟨.cons hfirst hstep (.single ⟨rfl, rfl, step, _, claim.step_eq, hpatch⟩ hk), ?_⟩
    obtain ⟨context, _, rfl⟩ := applyContextWritten_eq_ok hk
    exact ⟨hm, hend⟩

section withLinks

variable (links : Map ExecutionOperationId ExecutionReceiptLink) {command : ApplyStepResult}
  (adoptions : Map ExecutionOperationId (Map StepClaimFence ExecutionReceiptLink))
  (updatedAt : OffsetDateTime) {record : StepExecutionRecord}

theorem withLinks_applyAll_completion {finishedBy : RoleId}
    {patch : Option ContextPatch}
    (h : i.applyAll (i.completionEvents command record nextIteration finishedBy patch) = .ok t) :
    (i.withLinks links adoptions updatedAt).applyAll
        (i.completionEvents command record nextIteration finishedBy patch) =
      .ok (t.withLinks links adoptions command.now) := by
  obtain ⟨j, hj, hrest⟩ := applyAll_cons_eq_ok.mp h
  rw [apply, Except.ok.injEq] at hj
  refine applyAll_cons_eq_ok.mpr ⟨j.withLinks links adoptions command.now, ?_, ?_⟩
  · rw [apply, withLinks_applyStepCompleted, hj]
    rfl
  · cases patch with
    | none =>
      cases hrest
      rfl
    | some patch =>
      obtain ⟨k, hk, hnil⟩ := applyAll_cons_eq_ok.mp hrest
      cases hnil
      exact applyAll_cons_eq_ok.mpr ⟨_, withLinks_applyContextWritten _ hk, rfl⟩

theorem currentResult_path (claim : CurrentClaim d i command.stepId step record command.claimFence)
    (h : CurrentResult d i command step record events)
    (folded : (i.withLinks links adoptions updatedAt).applyAll events = .ok t) :
    (machine d).Path (Admitted d) (i.withLinks links adoptions updatedAt) events t := by
  have hclaim : CurrentClaim d (i.withLinks links adoptions updatedAt) command.stepId step record
      command.claimFence := { claim with }
  cases h with
  | failed finishedBy failure =>
    obtain ⟨j, hj, hnil⟩ := applyAll_cons_eq_ok.mp folded
    cases hnil
    exact .single ⟨step, record, _, hclaim, rfl, rfl, rfl, rfl, failure⟩ hj
  | completed next finishedBy patch projected more success hnext hpatch hproj hmore =>
    obtain ⟨j, hj, hrest⟩ := applyAll_append_eq_ok.mp folded
    have hpath := completion_path hclaim success hnext hpatch hj
    rw [withLinks_applyAll_completion links adoptions updatedAt hproj, Except.ok.injEq] at hj
    subst hj
    have hiterate : (projected.withLinks links adoptions command.now).decideStateIteration d
        command.now = .ok more := hmore
    refine hpath.1.append ?_
    rcases decideStateIteration_eq_ok hpath.2.1 hpath.2.2 hiterate with rfl | ⟨e, rfl, hadm⟩
    · cases hrest
      exact .nil _
    · obtain ⟨k, hk, hnil⟩ := applyAll_cons_eq_ok.mp hrest
      cases hnil
      exact .single hadm hk

theorem filedResult_path (h : FiledResult d i command events)
    (folded : (i.withLinks links adoptions updatedAt).applyAll events = .ok t) :
    (machine d).Path (Admitted d) (i.withLinks links adoptions updatedAt) events t := by
  cases h with
  | repeated =>
    cases folded
    exact .nil _
  | late e record admitted =>
    obtain ⟨j, hj, hnil⟩ := applyAll_cons_eq_ok.mp folded
    cases hnil
    exact .single ⟨record, { admitted with }⟩ hj
  | current step record _ claim result =>
    exact currentResult_path links adoptions updatedAt claim result folded

end withLinks

theorem decideApplyStepResult_path (h : i.decideApplyStepResult d command = .ok events)
    (folded : i.applyAll events = .ok t) : (machine d).Path (Admitted d) i events t :=
  filedResult_path i.executionReceiptLinks i.executionReceiptAdoptions i.updatedAt
    (decideApplyStepResult_eq_ok h) folded

/-! ## Receipts -/

/-- What an accepted receipt was decided into: nothing, or its link and the result. -/
inductive FiledReceipt (d : CeremonyDefinition) (i : CeremonyInstance)
    (command : ApplyExecutionReceiptResult) : List CeremonyEvent → Prop where
  | repeated : FiledReceipt d i command []
  | linked (record : StepExecutionRecord) (events : List CeremonyEvent)
      (admitted : LinkAdmitted d i ⟨command.stepId, command.receiptLink, command.now⟩ record)
      (filed : FiledResult d i
        ⟨command.stepId, command.claimFence, command.result, command.now⟩ events) :
      FiledReceipt d i command
        (.executionReceiptLinked ⟨command.stepId, command.receiptLink, command.now⟩ :: events)

theorem decideLinkedStepResult_eq_ok {command : ApplyExecutionReceiptResult}
    (hval : command.receiptLink.validate = .ok ())
    (hfence : command.receiptLink.appliedClaimFence = command.claimFence)
    (hunlinked : i.executionReceiptLinks[command.receiptLink.operationId]? ≠
      some command.receiptLink)
    (hdirect : command.receiptLink.kind = .direct →
      i.executionReceiptLinks[command.receiptLink.operationId]? = none)
    (hadopted : command.receiptLink.kind = .adopted →
      i.executionReceiptAdoption command.receiptLink.operationId
        command.receiptLink.appliedClaimFence = none)
    (h : i.decideLinkedStepResult d command = .ok events) : FiledReceipt d i command events := by
  simp only [decideLinkedStepResult, bind_eq_ok, okOr_eq_ok,
    require_eq_ok, pure_eq_ok, exists_const] at h
  obtain ⟨record, hrec, hop, results, hresults, rfl⟩ := h
  refine .linked record results ⟨?_, hval, hunlinked, hdirect, hadopted, hrec, ?_⟩
    (decideApplyStepResult_eq_ok hresults)
  · simp only [decideApplyStepResult, bind_eq_ok, requireDefinition_eq_ok, exists_const] at hresults
    exact hresults.1
  · rw [hfence]
    exact hop

theorem decideApplyExecutionReceiptResult_eq_ok {command : ApplyExecutionReceiptResult}
    (h : i.decideApplyExecutionReceiptResult d command = .ok events) :
    FiledReceipt d i command events := by
  simp only [decideApplyExecutionReceiptResult, bind_eq_ok, require_eq_ok, exists_const] at h
  obtain ⟨_, hval, hfence, h⟩ := h
  split at h
  case isTrue =>
    cases h
    exact .repeated
  case isFalse hunlinked =>
    cases hkind : command.receiptLink.kind with
    | direct =>
      simp only [hkind, bind_eq_ok, require_eq_ok, exists_const] at h
      refine decideLinkedStepResult_eq_ok hval hfence hunlinked (fun _ => h.1) ?_ h.2
      intro hadopted
      rw [hkind] at hadopted
      cases hadopted
    | adopted =>
      simp only [hkind] at h
      split at h
      · split at h
        · cases h
          exact .repeated
        · simp at h
      case h_2 hnone =>
        simp only [bind_eq_ok, requireAdmitsNewWork_eq_ok, exists_const] at h
        obtain ⟨_, _, _, h⟩ := h
        refine decideLinkedStepResult_eq_ok hval hfence hunlinked ?_ (fun _ => hnone) h
        intro hdirect
        rw [hkind] at hdirect
        cases hdirect

theorem decideApplyExecutionReceiptResult_path {command : ApplyExecutionReceiptResult}
    (h : i.decideApplyExecutionReceiptResult d command = .ok events)
    (folded : i.applyAll events = .ok t) : (machine d).Path (Admitted d) i events t := by
  cases decideApplyExecutionReceiptResult_eq_ok h with
  | repeated =>
    cases folded
    exact .nil _
  | linked record results admitted filed =>
    obtain ⟨j, hj, hrest⟩ := applyAll_cons_eq_ok.mp folded
    obtain ⟨links, adoptions, hlinks⟩ := applyExecutionReceiptLinked_eq i
      ⟨command.stepId, command.receiptLink, command.now⟩
    rw [apply, Except.ok.injEq] at hj
    have hstep : (machine d).apply i
        (.executionReceiptLinked ⟨command.stepId, command.receiptLink, command.now⟩) = .ok j := by
      rw [machine_apply, apply, hj]
    rw [hlinks] at hj
    subst hj
    exact .cons ⟨record, admitted⟩ hstep (filedResult_path links adoptions _ filed hrest)

end CeremonyInstance

end Made
