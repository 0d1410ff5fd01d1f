import Made.Runs.Effects

/-!
# Human approvals

A human guard is evaluated against a boolean under its name in the ceremony context.  Approving the
guard sets that boolean, and so can anyone else who writes the context: the inputs of the opening
and the context writes of a step.
-/

namespace Made

open EventSourcing Outcome Std CeremonyContext

/-! ## Who sets the boolean -/

namespace CeremonyContext

variable {patch : ContextPatch}

theorem isGuardApproved_iff (c : CeremonyContext) (name : GuardName) :
    c.isGuardApproved name = true ↔ c.attributes.entries[name.val]? = some (.bool true) := by
  unfold isGuardApproved Attributes.get
  cases hget : c.attributes.entries[name.val]? with
  | none => simp
  | some value => cases value <;> simp [Value.asBool]

theorem getElem?_patchEntries {entries : Map String Value} {key : String} {value : Value}
    (h : (patchEntries entries patch)[key]? = some value) :
    entries[key]? = some value ∨
      ∃ contextKey ∈ patch.entries.toList, contextKey.1.val = key ∧ contextKey.2 = value := by
  unfold patchEntries at h
  rw [ExtTreeMap.foldl_eq_foldl_toList] at h
  generalize patch.entries.toList = written at h
  induction written generalizing entries with
  | nil => exact .inl h
  | cons entry rest ih =>
    rw [List.foldl_cons] at h
    rcases ih h with hpre | ⟨contextKey, hmem, hkey, hvalue⟩
    · rw [ExtTreeMap.getElem?_insert] at hpre
      split at hpre
      case isTrue heq =>
        cases hpre
        exact .inr ⟨entry, List.mem_cons_self, Std.LawfulEqOrd.eq_of_compare heq, rfl⟩
      · exact .inl hpre
    · exact .inr ⟨contextKey, List.mem_cons_of_mem _ hmem, hkey, hvalue⟩

theorem withPatch_eq_ok {c c' : CeremonyContext} (h : c.withPatch patch = .ok c') :
    c'.attributes.entries = patchEntries c.attributes.entries patch := by
  simp only [withPatch, bind_eq_ok, pure_eq_ok] at h
  obtain ⟨attributes, hnew, rfl⟩ := h
  exact Attributes.new_eq_ok.mp hnew

theorem withGuardApproval_eq_ok {c c' : CeremonyContext} {name : GuardName}
    (h : c.withGuardApproval name = .ok c') :
    c'.attributes.entries = c.attributes.entries.insert name.val (.bool true) := by
  simp only [withGuardApproval, bind_eq_ok, pure_eq_ok] at h
  obtain ⟨attributes, hnew, rfl⟩ := h
  exact Attributes.new_eq_ok.mp hnew

end CeremonyContext

namespace CeremonyDefinition

variable (d : CeremonyDefinition)

def isHumanGuardKey (key : String) : Bool :=
  d.guards.inOrder.any fun guard =>
    decide (guard.condition = .humanApproval) && decide (guard.name.val = key)

/-- Whether no entry of a context is an approval of a human guard. -/
def contextApprovesNothing (context : CeremonyContext) : Bool :=
  context.attributes.entries.toList.all fun (key, value) =>
    !(d.isHumanGuardKey key && decide (value = .bool true))

def patchApprovesNothing (patch : ContextPatch) : Bool :=
  patch.entries.toList.all fun (key, value) =>
    !(d.isHumanGuardKey key.val && decide (value = .bool true))

variable {d}

theorem isHumanGuardKey_of_getElem? {name : GuardName} {guard : CeremonyGuard}
    (hguard : d.guards[name]? = some guard) (hhuman : guard.condition = .humanApproval) :
    d.isHumanGuardKey name.val = true := by
  unfold isHumanGuardKey
  rw [List.any_eq_true]
  refine ⟨guard, Map.mem_inOrder.mpr ⟨name, hguard⟩, ?_⟩
  simp [hhuman, d.guard_name_of_getElem? hguard]

/-- Whether the result of a step writes no approval into the context. -/
def resultApprovesNothing (d : CeremonyDefinition) (stepId : StepId) (result : StepResult) : Bool :=
  (d.step stepId).all fun step =>
    match step.contextWrites.resolve result.output with
    | .ok (some patch) => d.patchApprovesNothing patch
    | _ => true

end CeremonyDefinition

namespace CeremonyInstance

variable {d : CeremonyDefinition} {i t : CeremonyInstance} {e : CeremonyEvent}
  {events : List CeremonyEvent} {command : ApplyStepResult}

/-- A command whose step result, if it carries one, writes no approval into the context. -/
def writesNoApproval (d : CeremonyDefinition) (_ : CeremonyInstance) : CeremonyCommand → Bool
  | .applyStepResult command | .applyExecutionReceiptResult command =>
    d.resultApprovesNothing command.stepId command.result
  | _ => true

def WritesNoApproval (d : CeremonyDefinition) (e : CeremonyEvent) : Prop :=
  ∀ written, e = .contextWritten written → d.patchApprovesNothing written.patch = true

theorem FiledResult.patch_of_mem (h : FiledResult d i command events) {written : ContextWritten}
    (hmem : .contextWritten written ∈ events) :
    ∃ step, d.step command.stepId = some step ∧
      step.contextWrites.resolve command.result.output = .ok (some written.patch) := by
  cases h with
  | repeated | late => simp at hmem
  | current step record _ claim result =>
    refine ⟨step, claim.step_eq, ?_⟩
    cases result with
    | failed => simp at hmem
    | completed next finishedBy patch projected more success hnext hpatch hproj hmore =>
      obtain ⟨-, hm, hend⟩ := completion_path claim success hnext hpatch hproj
      rcases List.mem_append.mp hmem with hmem | hmem
      · cases patch with
        | none => simp [completionEvents] at hmem
        | some patch =>
          simp only [completionEvents, Option.map_some, Option.toList_some, List.mem_cons,
            reduceCtorEq, CeremonyEvent.contextWritten.injEq, List.not_mem_nil, or_false,
            false_or] at hmem
          subst hmem
          exact hpatch
      · rcases decideStateIteration_eq_ok hm hend hmore with rfl | ⟨_, rfl, -⟩
        · simp at hmem
        · simp at hmem

theorem FiledResult.writesNoApproval (h : FiledResult d i command events)
    (meets : d.resultApprovesNothing command.stepId command.result = true) :
    ∀ e ∈ events, WritesNoApproval d e := by
  rintro e hmem written rfl
  obtain ⟨step, hstep, hpatch⟩ := h.patch_of_mem hmem
  simpa [CeremonyDefinition.resultApprovesNothing, hstep, hpatch] using meets

theorem decide_writesNoApproval {command : CeremonyCommand}
    (meets : i.writesNoApproval d command = true) (h : i.decide d command = .ok events) :
    ∀ e ∈ events, WritesNoApproval d e := by
  cases command with
  | applyStepResult command => exact (decideApplyStepResult_eq_ok h).writesNoApproval meets
  | applyExecutionReceiptResult command =>
    cases decideApplyExecutionReceiptResult_eq_ok h with
    | repeated => simp
    | linked record results admitted filed =>
      rw [List.forall_mem_cons]
      refine ⟨?_, filed.writesNoApproval meets⟩
      rintro written ⟨⟩
  | _ =>
    rintro e hmem written rfl
    have hemits := (decide_each h _ hmem).1
    simp [CeremonyEvent.eventType, emits] at hemits

/-! ## The invariant -/

/-- Every human guard that counts as approved was approved. -/
def ApprovalsRecorded (d : CeremonyDefinition) (i : CeremonyInstance) : Prop :=
  ∀ (name : GuardName), d.isHumanGuardKey name.val = true →
    i.context.isGuardApproved name = true → ∃ approval ∈ i.guardApprovals, approval.guardName = name

theorem ApprovalsRecorded.step (h : ApprovalsRecorded d i) (context : ContextStep d i e t)
    (writes : WritesNoApproval d e) : ApprovalsRecorded d t := by
  intro name hhuman happr
  cases context with
  | other same =>
    rw [same.context] at happr
    rw [same.guardApprovals]
    exact h name hhuman happr
  | written written context_eq approvals_eq =>
    rw [approvals_eq]
    rw [isGuardApproved_iff, withPatch_eq_ok context_eq] at happr
    rcases getElem?_patchEntries happr with
      hpre | ⟨entry, hmem, hkey, hvalue⟩
    · exact h name hhuman ((isGuardApproved_iff _ _).mpr hpre)
    · -- The patch would approve a human guard, which the condition rules out.
      have hwrites := writes written rfl
      rw [CeremonyDefinition.patchApprovesNothing, List.all_eq_true] at hwrites
      have hent := hwrites entry hmem
      dsimp only at hent
      rw [hkey, hvalue, hhuman] at hent
      simp at hent
  | approved approval context admitted =>
    have hctx : (i.applyHumanApprovalRecorded approval).context = context := by
      simp [applyHumanApprovalRecorded, admitted.context_eq]
    rw [isGuardApproved_iff, hctx, withGuardApproval_eq_ok admitted.context_eq,
      ExtTreeMap.getElem?_insert] at happr
    split at happr
    case isTrue heq =>
      have hname : approval.guardName = name := by
        apply Text.val_injective
        exact Std.LawfulEqOrd.eq_of_compare heq
      exact ⟨approval, List.mem_append_right _ (List.mem_singleton.mpr rfl), hname⟩
    · obtain ⟨earlier, hmem, hearlier⟩ :=
        h name hhuman ((isGuardApproved_iff _ _).mpr happr)
      exact ⟨earlier, List.mem_append_left _ hmem, hearlier⟩

end CeremonyInstance

open CeremonyInstance

variable {d : CeremonyDefinition} {opening : CeremonyOpening} {events : List CeremonyEvent}
  {i t : CeremonyInstance} {trace : List (CeremonyCommand × List CeremonyEvent)}

theorem Opened.approvalsRecorded (opened : Opened d opening events i)
    (plain : d.contextApprovesNothing opening.context = true) : ApprovalsRecorded d i := by
  intro name hhuman happr
  rw [opened.fresh.context, isGuardApproved_iff] at happr
  rw [CeremonyDefinition.contextApprovesNothing, List.all_eq_true] at plain
  have hent := plain (name.val, .bool true) (ExtTreeMap.mem_toList_iff_getElem?_eq_some.mpr happr)
  dsimp only at hent
  rw [hhuman] at hent
  simp at hent

theorem Opened.approvalsRecorded_run (opened : Opened d opening events i)
    (plain : d.contextApprovesNothing opening.context = true)
    (run : (machine d).Run (fun i c => i.writesNoApproval d c = true) i trace t) :
    ApprovalsRecorded d t := by
  have hpath := opened.path_and run (P := WritesNoApproval d)
    fun _ _ _ meets accepted => decide_writesNoApproval meets accepted
  refine hpath.invariant (fun s e u hadm happ h => ?_) (opened.approvalsRecorded plain)
  exact h.step (effects_of_admitted hadm.1 happ).context hadm.2

/-! ## Where approvals come from -/

/-- Approvals are only ever added by the event that records them. -/
theorem mem_guardApprovals_of_path {stream : List CeremonyEvent}
    (path : (machine d).Path (Admitted d) i stream t) :
    ∀ approval ∈ t.guardApprovals,
      approval ∈ i.guardApprovals ∨ .humanApprovalRecorded approval ∈ stream := by
  induction path with
  | nil => exact fun approval hmem => .inl hmem
  | @cons s u v e rest allowed step _ ih =>
    intro approval hmem
    rcases ih approval hmem with hpre | hlater
    · cases (effects_of_admitted allowed step).context with
      | other same =>
        rw [same.guardApprovals] at hpre
        exact .inl hpre
      | written _ _ approvals_eq =>
        rw [approvals_eq] at hpre
        exact .inl hpre
      | approved recorded context admitted =>
        rcases List.mem_append.mp hpre with hpre | hnew
        · exact .inl hpre
        · rw [List.mem_singleton] at hnew
          subst hnew
          exact .inr List.mem_cons_self
    · exact .inr (List.mem_cons_of_mem _ hlater)

theorem approveGuard_of_recorded {command : CeremonyCommand} {batch : List CeremonyEvent}
    (accepted : i.decide d command = .ok batch) {approval : CeremonyGuardApproval}
    (hmem : .humanApprovalRecorded approval ∈ batch) :
    ∃ approve, command = .approveGuard approve ∧ approve.guardName = approval.guardName := by
  have hemits := (decide_each accepted _ hmem).1
  cases command with
  | approveGuard approve =>
    refine ⟨approve, rfl, ?_⟩
    have hdecide : i.decideApproveGuard d approve = .ok batch := accepted
    simp only [decideApproveGuard, bind_eq_ok, pure_eq_ok] at hdecide
    obtain ⟨_, -, _, -, _, -, _, -, rfl⟩ := hdecide
    rw [List.mem_singleton, CeremonyEvent.humanApprovalRecorded.injEq] at hmem
    rw [hmem]
  | _ => simp [CeremonyEvent.eventType, emits, resultTypes] at hemits

/-- Every approval a session holds was recorded by a command of its run. -/
theorem Opened.approval_command (opened : Opened d opening events i)
    {ok : CeremonyInstance → CeremonyCommand → Prop} (run : (machine d).Run ok i trace t) :
    ∀ approval ∈ t.guardApprovals, ∃ approve batch,
      (.approveGuard approve, batch) ∈ trace ∧ approve.guardName = approval.guardName := by
  intro approval hmem
  rcases mem_guardApprovals_of_path (opened.path run) approval hmem with hopening | hstr
  · rw [opened.fresh.guardApprovals] at hopening
    simp at hopening
  · obtain ⟨⟨command, batch⟩, htrace, hbatch⟩ := List.mem_flatMap.mp hstr
    obtain ⟨s, -, hacc⟩ := run.decided_of_mem htrace
    obtain ⟨approve, rfl, hname⟩ := approveGuard_of_recorded hacc hbatch
    exact ⟨approve, batch, htrace, hname⟩

/-! ## Moves past a human guard -/

/-- When neither the opening's context nor a step result approves a human guard by itself, an
accepted move that requires a human guard follows a recorded approval of it. -/
theorem human_guards_were_approved (opened : Opened d opening events i)
    (plain : d.contextApprovesNothing opening.context = true)
    (run : (machine d).Run (fun i c => i.writesNoApproval d c = true) i trace t) :
    ∀ before move batch after, trace = before ++ (.applyTransition move, batch) :: after →
      ∀ s, i.applyAll (Machine.stream before) = .ok s →
      ∀ transition, d.transitionForTrigger s.currentState move.trigger = some transition →
      ∀ name ∈ transition.requiredGuards, ∀ guard, d.guards[name]? = some guard →
        guard.condition = .humanApproval →
        (∃ approval ∈ s.guardApprovals, approval.guardName = name) ∧
          ∃ approve earlier, (.approveGuard approve, earlier) ∈ before ∧
            approve.guardName = name := by
  intro before move batch after htrace s hfolded transition htr name hname guard hguard hhuman
  rw [htrace] at run
  obtain ⟨hpre, hafter⟩ := run.split_of_fold (by rwa [machine_fold])
  obtain ⟨-, hacc, -⟩ := hafter.head
  obtain ⟨e, transition', destination, hmove, -, htrigger, -⟩ :=
    decideApplyTransition_eq_ok hacc
  have hsame : transition' = transition := by
    have h' := hmove.transition_eq
    rw [htrigger, htr, Option.some.injEq] at h'
    exact h'.symm
  subst hsame
  have hsatisfied : s.context.isGuardApproved name = true := by
    have hguards := hmove.guards
    rw [guardsAreSatisfied, Bool.and_eq_true, List.all_eq_true] at hguards
    have hone := hguards.2 name hname
    rw [hguard] at hone
    simpa [guardIsSatisfiedForTransition, CeremonyDefinition.guardIsSatisfiedForTransition,
      CeremonyGuard.isSatisfied, hhuman, d.guard_name_of_getElem? hguard] using hone
  obtain ⟨approval, hmem, happroval⟩ := opened.approvalsRecorded_run plain hpre name
    (CeremonyDefinition.isHumanGuardKey_of_getElem? hguard hhuman) hsatisfied
  obtain ⟨approve, earlier, hcmd, happrove⟩ := opened.approval_command hpre approval hmem
  exact ⟨⟨approval, hmem, happroval⟩, approve, earlier, hcmd, happrove.trans happroval⟩

/-! ## A step that approves -/

/-- A draft whose output field `ok` is written under the name of the human guard of the only move. -/
def signOffDefinition : CeremonyDefinition :=
  (CeremonyDefinition.new ⟨"sign_off", .refl true⟩ firstVersion none [] []
    [.initial openState, .terminal doneState]
    [finishing [⟨"signed", .refl true⟩]]
    [{ CeremonyStep.new ⟨"draft", .refl true⟩ openState agentHandler .empty
          .singleAttempt none with
        contextWrites := (∅ : ContextWrites).insert ⟨"signed", .refl true⟩ ⟨"ok", .refl true⟩ }]
    [⟨⟨"signed", .refl true⟩, .humanApproval⟩]
    [.of author (.step ⟨"draft", .refl true⟩) []]).get (by decide +kernel)

def draftStart : CeremonyCommand :=
  startAt ⟨"draft", .refl true⟩ ⟨"draft-1", .refl true⟩ (.afterEpoch 1) (.afterEpoch 100)
    (.refl true)

def draftResult : CeremonyInstance → CeremonyCommand :=
  resultAt ⟨"draft", .refl true⟩
    (completedWith ⟨(∅ : Map String Value).insert "ok" (.bool true), by decide⟩) (.afterEpoch 2)

def signOffMove : CeremonyCommand := moveAt finishTrigger (.afterEpoch 3)

def signOffApproval : CeremonyCommand :=
  .approveGuard ⟨⟨"signed", .refl true⟩, author, .human, .afterEpoch 2⟩

/-- The guard is approved by hand and the move follows its approval. -/
theorem approved_move_was_approved :
    ∃ (events : List CeremonyEvent) (i : CeremonyInstance)
      (trace : List (CeremonyCommand × List CeremonyEvent)) (t : CeremonyInstance),
      Opened signOffDefinition (openingOf signOffDefinition) events i ∧
      (machine signOffDefinition).Run
        (fun i c => i.writesNoApproval signOffDefinition c = true) i trace t ∧
      t.completedAt.isSome = true ∧
      ∀ before move batch after, trace = before ++ (.applyTransition move, batch) :: after →
        ∀ s, i.applyAll (Machine.stream before) = .ok s →
        ∀ transition,
          signOffDefinition.transitionForTrigger s.currentState move.trigger = some transition →
        ∀ name ∈ transition.requiredGuards, ∀ guard,
          signOffDefinition.guards[name]? = some guard → guard.condition = .humanApproval →
          ∃ approval ∈ s.guardApprovals, approval.guardName = name := by
  obtain ⟨events, i, trace, t, hopened, hrun, hdone⟩ := exists_run_of_rehearse
    (openingOf signOffDefinition) [fun _ => signOffApproval, fun _ => signOffMove]
    (fun _ _ t => t.completedAt.isSome = true) (writesNoApproval signOffDefinition)
    (by decide +kernel)
  have hplain : signOffDefinition.contextApprovesNothing
      (openingOf signOffDefinition).context = true := by decide +kernel
  have happr := human_guards_were_approved (d := signOffDefinition) hopened hplain hrun
  refine ⟨events, i, trace, t, hopened, hrun, hdone, ?_⟩
  intro before move batch after htrace s hs transition htr name hname guard hguard hhuman
  exact (happr before move batch after htrace s hs transition htr name hname guard hguard hhuman).1

/-- The output of the draft sets the boolean, and the move is accepted without any approval. -/
theorem step_output_approves :
    ∃ (events : List CeremonyEvent) (i : CeremonyInstance)
      (trace : List (CeremonyCommand × List CeremonyEvent)) (t : CeremonyInstance),
      Opened signOffDefinition (openingOf signOffDefinition) events i ∧
      (machine signOffDefinition).Run (fun _ _ => True) i trace t ∧
      (Machine.stream trace).map CeremonyEvent.eventType = [.stepStarted, .stepCompleted,
        .contextWritten, .transitionApplied, .ceremonyCompleted] ∧
      t.guardApprovals = [] ∧
      signOffDefinition.transitions.map (·.requiredGuards) = [[⟨"signed", by decide⟩]] ∧
      (signOffDefinition.guards.inOrder.map (·.condition)) = [.humanApproval] :=
  exists_run_of_script (openingOf signOffDefinition)
    [fun _ => draftStart, draftResult, fun _ => signOffMove] _ (by decide +kernel)

end Made
