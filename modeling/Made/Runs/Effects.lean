import Made.Runs.Soundness

/-!
# What an admitted event does

The fields of a session fall into groups that few events touch: the execution of its steps, its
lifecycle, its context, its agenda.  For each group an inductive relation lists the events that
touch it, with what was checked for them, and one constructor for all the others.  An invariant of
a group is proved by cases on its relation.
-/

namespace Made

open EventSourcing

namespace CeremonyInstance

variable {d : CeremonyDefinition} {i t : CeremonyInstance} {e : CeremonyEvent}

/-! ## Identity -/

structure SameIdentity (i t : CeremonyInstance) : Prop where
  id : t.id = i.id := by rfl
  definitionName : t.definitionName = i.definitionName := by rfl
  definitionVersion : t.definitionVersion = i.definitionVersion := by rfl
  ceremonyDeadline : t.ceremonyDeadline = i.ceremonyDeadline := by rfl
  budgetAccountId : t.budgetAccountId = i.budgetAccountId := by rfl
  lineage : t.lineage = i.lineage := by rfl

theorem SameIdentity.matchesDefinition (h : SameIdentity i t) :
    t.matchesDefinition d = i.matchesDefinition d := by
  rw [CeremonyInstance.matchesDefinition, h.definitionName, h.definitionVersion,
    CeremonyInstance.matchesDefinition]

/-! ## Execution -/

/-- The fields that the execution of steps reads and writes are the same. -/
structure SameExecution (i t : CeremonyInstance) : Prop where
  currentState : t.currentState = i.currentState := by rfl
  currentStateIteration : t.currentStateIteration = i.currentStateIteration := by rfl
  currentStateVisit : t.currentStateVisit = i.currentStateVisit := by rfl
  stepRecords : t.stepRecords = i.stepRecords := by rfl
  stepRecordHistory : t.stepRecordHistory = i.stepRecordHistory := by rfl
  idempotencyKeys : t.idempotencyKeys = i.idempotencyKeys := by rfl
  stepDeadlines : t.stepDeadlines = i.stepDeadlines := by rfl
  stateDeadline : t.stateDeadline = i.stateDeadline := by rfl
  retiredDeadlineClaims : t.retiredDeadlineClaims = i.retiredDeadlineClaims := by rfl
  lateStepResults : t.lateStepResults = i.lateStepResults := by rfl

end CeremonyInstance

def CeremonyEvent.touchesExecution : CeremonyEvent → Bool
  | .stepStarted _ | .stepLeaseRenewed _ | .stepCompleted _ | .stepFailed _
  | .stateIterationStarted _ | .transitionApplied _ | .stepDeadlineExceeded _
  | .lateStepResultObserved _ => true
  | _ => false

def CeremonyEvent.touchesLife : CeremonyEvent → Bool
  | .ceremonyCompleted _ | .ceremonyPaused _ | .ceremonyResumed _ | .ceremonyCancelled _
  | .ceremonyDeadlineExceeded _ | .stateDeadlineExceeded _ => true
  | _ => false

namespace CeremonyInstance

variable {d : CeremonyDefinition} {i t : CeremonyInstance} {e : CeremonyEvent}

/-- What an admitted event does to the execution of steps. -/
inductive ExecutionStep (d : CeremonyDefinition) (i : CeremonyInstance) :
    CeremonyEvent → CeremonyInstance → Prop where
  | other {e : CeremonyEvent} {t : CeremonyInstance} (quiet : e.touchesExecution = false)
      (same : SameExecution i t) : ExecutionStep d i e t
  | started (e : StepStarted) (step : CeremonyStep) (record : StepExecutionRecord)
      (admitted : StartAdmitted d i e step record) :
      ExecutionStep d i (.stepStarted e) (i.applyStepStarted e)
  | renewed (e : StepLeaseRenewed) (record : StepExecutionRecord) (lease : StepLease)
      (admitted : RenewalAdmitted d i e record lease) :
      ExecutionStep d i (.stepLeaseRenewed e) (i.applyStepLeaseRenewed e)
  | completed (e : StepCompleted) (step : CeremonyStep) (record : StepExecutionRecord)
      (fence : StepClaimFence) (admitted : CompletionAdmitted d i e step record fence) :
      ExecutionStep d i (.stepCompleted e) (i.applyStepCompleted e)
  | failed (e : StepFailed) (step : CeremonyStep) (record : StepExecutionRecord)
      (fence : StepClaimFence) (admitted : FailureAdmitted d i e step record fence) :
      ExecutionStep d i (.stepFailed e) (i.applyStepFailed e)
  | iterated (e : StateIterationStarted) (admitted : IterationAdmitted d i e) :
      ExecutionStep d i (.stateIterationStarted e) (i.applyStateIterationStarted e)
  | moved (e : TransitionApplied) (transition : CeremonyTransition)
      (destination : StateVisitEntry) (admitted : MoveAdmitted d i e transition destination) :
      ExecutionStep d i (.transitionApplied e) (i.applyTransitionApplied e)
  | timedOut (e : StepDeadlineExceeded) (notEnded : i.isEnded = false)
      (deadline_eq : i.stepDeadlines[e.deadline.stepId]? = some e.deadline)
      (result_eq : e.result = StepResult.timedOut) :
      ExecutionStep d i (.stepDeadlineExceeded e) (i.applyStepDeadlineExceeded e)
  | late (e : LateStepResultObserved) (record : StepExecutionRecord)
      (admitted : LateAdmitted d i e.result record) :
      ExecutionStep d i (.lateStepResultObserved e) (i.applyLateStepResultObserved e)

/-! ## Lifecycle -/

structure SameLife (i t : CeremonyInstance) : Prop where
  lifecycle_ : t.lifecycle_ = i.lifecycle_ := by rfl
  completedAt : t.completedAt = i.completedAt := by rfl

theorem SameLife.isEnded (h : SameLife i t) : t.isEnded = i.isEnded := by
  rw [CeremonyInstance.isEnded, CeremonyInstance.lifecycle, h.lifecycle_, h.completedAt]
  rfl

inductive LifeStep (d : CeremonyDefinition) (i : CeremonyInstance) :
    CeremonyEvent → CeremonyInstance → Prop where
  | other {e : CeremonyEvent} {t : CeremonyInstance} (quiet : e.touchesLife = false)
      (same : SameLife i t) : LifeStep d i e t
  | completed (e : CeremonyCompleted) (admitted : CompletedAdmitted d i e) :
      LifeStep d i (.ceremonyCompleted e) (i.applyCeremonyCompleted e)
  | paused (e : CeremonyPaused) (notEnded : i.isEnded = false)
      (running : i.lifecycle_.phase = .running) :
      LifeStep d i (.ceremonyPaused e) (i.applyCeremonyPaused e)
  | resumed (e : CeremonyResumed) (notEnded : i.isEnded = false)
      (paused : i.lifecycle_.phase = .paused) (unplanned : i.successorPlan = none) :
      LifeStep d i (.ceremonyResumed e) (i.applyCeremonyResumed e)
  | cancelled (e : CeremonyCancelled) (notEnded : i.isEnded = false) :
      LifeStep d i (.ceremonyCancelled e) (i.applyCeremonyCancelled e)
  | ceremonyDeadline (e : CeremonyDeadlineExceeded) (notEnded : i.isEnded = false) :
      LifeStep d i (.ceremonyDeadlineExceeded e) (i.applyCeremonyDeadlineExceeded e)
  | stateDeadline (e : StateDeadlineExceeded) (notEnded : i.isEnded = false) :
      LifeStep d i (.stateDeadlineExceeded e) (i.applyStateDeadlineExceeded e)

/-! ## Context -/

structure SameContext (i t : CeremonyInstance) : Prop where
  context : t.context = i.context := by rfl
  guardApprovals : t.guardApprovals = i.guardApprovals := by rfl

/-- What an admitted event does to the context and the approvals. -/
inductive ContextStep (d : CeremonyDefinition) (i : CeremonyInstance) :
    CeremonyEvent → CeremonyInstance → Prop where
  | other {e : CeremonyEvent} {t : CeremonyInstance} (same : SameContext i t) : ContextStep d i e t
  | written {t : CeremonyInstance} (e : ContextWritten)
      (context_eq : i.context.withPatch e.patch = .ok t.context)
      (approvals_eq : t.guardApprovals = i.guardApprovals) :
      ContextStep d i (.contextWritten e) t
  | approved (approval : CeremonyGuardApproval) (context : CeremonyContext)
      (admitted : ApprovalAdmitted d i approval context) :
      ContextStep d i (.humanApprovalRecorded approval) (i.applyHumanApprovalRecorded approval)

/-! ## Agenda -/

inductive AgendaStep (d : CeremonyDefinition) (i : CeremonyInstance) :
    CeremonyEvent → CeremonyInstance → Prop where
  | other {e : CeremonyEvent} {t : CeremonyInstance} (same : t.interventions = i.interventions) :
      AgendaStep d i e t
  | requested {t : CeremonyInstance} (command : RequestIntervention)
      (admitted : RequestAdmitted d i command)
      (appended : t.interventions = i.interventions ++ [requestedIntervention command]) :
      AgendaStep d i (.interventionRequested (requestedIntervention command)) t
  | responded (e : InterventionResponded) (item : CeremonyIntervention)
      (admitted : AnswerAdmitted d i e.interventionId e.response.roleId item) :
      AgendaStep d i (.interventionResponded e) (i.applyInterventionResponded e)
  | closed (e : InterventionClosed) (item : CeremonyIntervention)
      (admitted : CloseAdmitted d i e item) :
      AgendaStep d i (.interventionClosed e) (i.applyInterventionClosed e)
  | acknowledged (e : InterventionDeliveryAcknowledged) (item : CeremonyIntervention)
      (admitted : AckAdmitted d i e item) :
      AgendaStep d i (.interventionDeliveryAcknowledged e)
        (i.applyInterventionDeliveryAcknowledged e)

/-! ## The relations hold of admitted events

Most events are one update of the session, whose untouched fields are equal by definition.  The
events that fold over a list or branch have a shape lemma, which gives the same. -/

structure Effects (d : CeremonyDefinition) (i : CeremonyInstance) (e : CeremonyEvent)
    (t : CeremonyInstance) : Prop where
  identity : SameIdentity i t
  execution : ExecutionStep d i e t
  life : LifeStep d i e t
  context : ContextStep d i e t
  agenda : AgendaStep d i e t

theorem Effects.ofExecution (identity : SameIdentity i t) (execution : ExecutionStep d i e t)
    (quiet : e.touchesLife = false) (life : SameLife i t) (context : SameContext i t)
    (agenda : t.interventions = i.interventions) : Effects d i e t :=
  ⟨identity, execution, .other quiet life, .other context, .other agenda⟩

theorem effects_of_admitted (admitted : Admitted d i e) (h : i.apply e = .ok t) :
    Effects d i e t := by
  cases e
  case participantsBound bindings =>
    obtain ⟨_, _, hshape⟩ := applyParticipantsBound_eq i bindings
    rw [apply, hshape] at h
    cases h
    exact .ofExecution {} (.other rfl {}) rfl {} {} rfl
  case childSpawnPlanAdopted e =>
    obtain ⟨_, _, hshape⟩ := applyChildSpawnPlanAdopted_eq i e
    rw [apply, hshape] at h
    cases h
    exact .ofExecution {} (.other rfl {}) rfl {} {} rfl
  case childCompletionAccepted e =>
    obtain ⟨_, _, hshape⟩ := applyChildCompletionAccepted_eq i e
    rw [apply, hshape] at h
    cases h
    exact .ofExecution {} (.other rfl {}) rfl {} {} rfl
  case executionReceiptLinked e =>
    obtain ⟨_, _, hshape⟩ := applyExecutionReceiptLinked_eq i e
    rw [apply, hshape] at h
    cases h
    exact .ofExecution {} (.other rfl {}) rfl {} {} rfl
  -- The execution of steps.
  case stepStarted e =>
    obtain ⟨step, record, hstart⟩ := admitted
    cases h
    exact .ofExecution {} (.started e step record hstart) rfl {} {} rfl
  case stepLeaseRenewed e =>
    obtain ⟨record, lease, hrenewal⟩ := admitted
    cases h
    exact .ofExecution {} (.renewed e record lease hrenewal) rfl {} {} rfl
  case stepCompleted e =>
    obtain ⟨step, record, fence, hcompletion⟩ := admitted
    have hexec := ExecutionStep.completed e step record fence hcompletion
    obtain ⟨_, _, hshape⟩ := applyStepCompleted_eq i e
    rw [hshape] at hexec
    rw [apply, hshape] at h
    cases h
    exact .ofExecution {} hexec rfl {} {} rfl
  case stepFailed e =>
    obtain ⟨step, record, fence, hfailure⟩ := admitted
    cases h
    exact .ofExecution {} (.failed e step record fence hfailure) rfl {} {} rfl
  case stateIterationStarted e =>
    have hexec := ExecutionStep.iterated e admitted
    obtain ⟨_, _, hshape⟩ := applyStateIterationStarted_eq i e
    rw [hshape] at hexec
    rw [apply, hshape] at h
    cases h
    exact .ofExecution {} hexec rfl {} {} rfl
  case transitionApplied e =>
    obtain ⟨transition, destination, hmove⟩ := admitted
    have hexec := ExecutionStep.moved e transition destination hmove
    obtain ⟨_, _, hshape⟩ := applyTransitionApplied_eq i hmove.destination_eq
    rw [hshape] at hexec
    rw [apply, hshape] at h
    cases h
    exact .ofExecution {} hexec rfl {} {} rfl
  case stepDeadlineExceeded e =>
    obtain ⟨_, hend, hdue, _, hres⟩ := admitted
    cases h
    exact .ofExecution {} (.timedOut e hend hdue hres) rfl {} {} rfl
  case lateStepResultObserved e =>
    obtain ⟨record, hlate⟩ := admitted
    cases h
    exact .ofExecution {} (.late e record hlate) rfl {} {} rfl
  -- The lifecycle.
  case ceremonyCompleted e =>
    cases h
    exact ⟨{}, .other rfl {}, .completed e admitted, .other {}, .other rfl⟩
  case ceremonyPaused e =>
    cases h
    exact ⟨{}, .other rfl {}, .paused e admitted.2.1 admitted.2.2, .other {}, .other rfl⟩
  case ceremonyResumed e =>
    cases h
    exact ⟨{}, .other rfl {}, .resumed e admitted.2.1 admitted.2.2.1 admitted.2.2.2,
      .other {}, .other rfl⟩
  case ceremonyCancelled e =>
    cases h
    exact ⟨{}, .other rfl {}, .cancelled e admitted.2, .other {}, .other rfl⟩
  case ceremonyDeadlineExceeded e =>
    cases h
    exact ⟨{}, .other rfl {}, .ceremonyDeadline e admitted.2.1, .other {}, .other rfl⟩
  case stateDeadlineExceeded e =>
    cases h
    exact ⟨{}, .other rfl {}, .stateDeadline e admitted.2.1, .other {}, .other rfl⟩
  -- The context.
  case contextWritten e =>
    obtain ⟨context, hctx, rfl⟩ := applyContextWritten_eq_ok h
    exact ⟨{}, .other rfl {}, .other rfl {}, .written e hctx rfl, .other rfl⟩
  case humanApprovalRecorded approval =>
    obtain ⟨context, happroval⟩ := admitted
    cases h
    exact ⟨{}, .other rfl {}, .other rfl {}, .approved approval context happroval, .other rfl⟩
  -- The agenda.
  case interventionRequested intervention =>
    obtain ⟨command, rfl, hreq⟩ := admitted
    cases h
    exact ⟨{}, .other rfl {}, .other rfl {}, .other {}, .requested command hreq rfl⟩
  case interventionResponded e =>
    obtain ⟨item, hanswer⟩ := admitted
    have hagenda := AgendaStep.responded e item hanswer
    obtain ⟨_, _, _, hshape⟩ := applyInterventionResponded_eq i e
    rw [hshape] at hagenda
    rw [apply, hshape] at h
    cases h
    exact ⟨{}, .other rfl {}, .other rfl {}, .other {}, hagenda⟩
  case interventionClosed e =>
    obtain ⟨item, hclose⟩ := admitted
    cases h
    exact ⟨{}, .other rfl {}, .other rfl {}, .other {}, .closed e item hclose⟩
  case interventionDeliveryAcknowledged e =>
    obtain ⟨item, hack⟩ := admitted
    cases h
    exact ⟨{}, .other rfl {}, .other rfl {}, .other {}, .acknowledged e item hack⟩
  -- Openings and imports are not admitted; what is left touches none of the groups.
  case instanceImported => exact admitted.elim
  case successionCarried => exact admitted.elim
  all_goals
    cases h
    exact .ofExecution {} (.other rfl {}) rfl {} {} rfl

/-! ## Runs from an opening are paths -/

theorem DeadlinesKeyed.of_eq (h : i.DeadlinesKeyed) (same : t.stepDeadlines = i.stepDeadlines) :
    t.DeadlinesKeyed := by
  intro stepId deadline hget
  rw [same] at hget
  exact h stepId deadline hget

theorem DeadlinesKeyed.of_erase (h : i.DeadlinesKeyed) {erased : StepId}
    (same : t.stepDeadlines = i.stepDeadlines.erase erased) : t.DeadlinesKeyed := by
  intro stepId deadline hget
  rw [same, Std.ExtTreeMap.getElem?_erase] at hget
  split at hget
  · cases hget
  · exact h stepId deadline hget

theorem DeadlinesKeyed.step (h : i.DeadlinesKeyed) (execution : ExecutionStep d i e t) :
    t.DeadlinesKeyed := by
  cases execution with
  | other _ same => exact h.of_eq same.stepDeadlines
  | started e step record admitted =>
    cases hdue : e.deadline with
    | none =>
      have herased : (i.applyStepStarted e).stepDeadlines = i.stepDeadlines.erase e.stepId := by
        simp [applyStepStarted, hdue]
      exact h.of_erase herased
    | some sealed_ =>
      intro stepId deadline hget
      simp only [applyStepStarted, hdue, Std.ExtTreeMap.getElem?_insert] at hget
      split at hget
      case isTrue heq =>
        cases hget
        rw [(admitted.deadline_eq _ hdue).1]
        exact Std.LawfulEqOrd.eq_of_compare heq
      case isFalse => exact h stepId deadline hget
  | renewed => exact h.of_eq rfl
  | completed e =>
    obtain ⟨_, _, hshape⟩ := applyStepCompleted_eq i e
    exact h.of_erase (by rw [hshape])
  | failed => exact h.of_erase rfl
  | iterated e =>
    obtain ⟨_, _, hshape⟩ := applyStateIterationStarted_eq i e
    exact h.of_eq (by rw [hshape]; rfl)
  | moved e _ _ admitted =>
    obtain ⟨_, _, hshape⟩ := applyTransitionApplied_eq i admitted.destination_eq
    exact h.of_eq (by rw [hshape]; rfl)
  | timedOut => exact h.of_erase rfl
  | late => exact h.of_eq rfl

theorem DeadlinesKeyed.decide (h : i.DeadlinesKeyed) {command : CeremonyCommand}
    {events : List CeremonyEvent} (accepted : i.decide d command = .ok events)
    (folded : i.applyAll events = .ok t) : t.DeadlinesKeyed :=
  (decide_path h accepted folded).invariant
    (fun _ _ _ admitted happ keyed => keyed.step (effects_of_admitted admitted happ).execution) h

end CeremonyInstance

/-- The machine is sound on sessions whose deadlines are filed under their step. -/
theorem machine_sound (d : CeremonyDefinition) (ok : CeremonyInstance → CeremonyCommand → Prop) :
    (machine d).Sound (fun i c => ok i c ∧ i.DeadlinesKeyed) (CeremonyInstance.Admitted d) := by
  intro i command events t meets accepted folded
  rw [machine_fold] at folded
  exact CeremonyInstance.decide_path meets.2 accepted folded

section Opened

variable {d : CeremonyDefinition} {opening : CeremonyOpening} {events : List CeremonyEvent}
  {i t : CeremonyInstance} {ok : CeremonyInstance → CeremonyCommand → Prop}
  {trace : List (CeremonyCommand × List CeremonyEvent)}

section

variable (h : Opened d opening events i)
include h

theorem Opened.keyed : i.DeadlinesKeyed := by
  intro stepId deadline hget
  rw [h.fresh.stepDeadlines] at hget
  simp at hget

theorem Opened.keyed_run (run : (machine d).Run ok i trace t) :
    (machine d).Run (fun i c => ok i c ∧ i.DeadlinesKeyed) i trace t := by
  refine run.strengthen (fun i command events t _ accepted folded keyed => ?_) h.keyed
  rw [machine_fold] at folded
  exact keyed.decide accepted folded

theorem Opened.path (run : (machine d).Run ok i trace t) :
    (machine d).Path (CeremonyInstance.Admitted d) i (Machine.stream trace) t :=
  (h.keyed_run run).path (machine_sound d ok)

/-- The same, with a property of events that the condition of the run guarantees. -/
theorem Opened.path_and (run : (machine d).Run ok i trace t) {P : CeremonyEvent → Prop}
    (each : ∀ i c events, ok i c → i.decide d c = .ok events → ∀ e ∈ events, P e) :
    (machine d).Path (fun i e => CeremonyInstance.Admitted d i e ∧ P e) i (Machine.stream trace)
      t :=
  (h.keyed_run run).path
    ((machine_sound d ok).and fun i c events meets accepted => each i c events meets.1 accepted)

end

/-- A session with the run that led to it. -/
structure Session (d : CeremonyDefinition) where
  opening : CeremonyOpening
  events : List CeremonyEvent
  start : CeremonyInstance
  trace : List (CeremonyCommand × List CeremonyEvent)
  current : CeremonyInstance
  opened : Opened d opening events start
  run : (machine d).Run (fun _ _ => True) start trace current

/-- Every event was admitted in the session it was folded into. -/
theorem Session.events_are_admitted (s : Session d) :
    (machine d).Path (CeremonyInstance.Admitted d) s.start (Machine.stream s.trace) s.current :=
  s.opened.path s.run

end Opened

end Made
