import Made.Runs.Records

/-!
# Open interventions

An open intervention keeps a ceremony out of its terminal states until the role that requested it
closes it.  Opening has two routes: a role that may request, or a supervisor under a seat derived
from its principal.  Closing has one: a role that may request.  What a role has opened it can
close, so its request costs the ceremony nothing; what a supervisor has opened under a seat that
the definition does not declare stays open for ever.
-/

namespace Made

open EventSourcing Outcome CeremonyIntervention List

def CeremonyEvent.touchesAgenda : CeremonyEvent → Bool
  | .interventionRequested _ | .interventionResponded _ | .interventionClosed _
  | .interventionDeliveryAcknowledged _ | .evidenceCollected _ | .reasonAsserted _ => true
  | _ => false

def CeremonyCommand.touchesAgenda : CeremonyCommand → Bool
  | .requestIntervention _ | .respondToIntervention _ | .respondToInterventionWithEvidence _
  | .acknowledgeInterventionDelivery _ | .assertReason _ | .closeIntervention _ => true
  | _ => false

def agendaTypes : List AuditEventType :=
  [.interventionRequested, .interventionResponded, .interventionClosed,
    .interventionDeliveryAcknowledged, .evidenceCollected, .reasonAsserted]

theorem CeremonyEvent.touchesAgenda_eq (e : CeremonyEvent) :
    e.touchesAgenda = agendaTypes.contains e.eventType := by
  cases e <;> rfl

namespace CeremonyInstance

variable {d : CeremonyDefinition} {i t : CeremonyInstance} {e : CeremonyEvent}
  {update : CeremonyIntervention → Result CeremonyIntervention}
  {item updated : CeremonyIntervention} {before after : List CeremonyIntervention}
  {events : List CeremonyEvent} {items : List CeremonyIntervention} {reasons : List CeremonyReason}
  {at_ : OffsetDateTime} {command : ApplyStepResult}

/-! ## Sessions that differ in their agenda -/

def withAgenda (i : CeremonyInstance) (interventions : List CeremonyIntervention)
    (reasons : List CeremonyReason) (updatedAt : OffsetDateTime) : CeremonyInstance :=
  { i with interventions, reasons, updatedAt }

theorem applyParticipantsBound_withAgenda (i : CeremonyInstance) (at_ : OffsetDateTime)
    (bindings : List CeremonyParticipantBinding) :
    ∃ later, (i.withAgenda items reasons at_).applyParticipantsBound bindings =
      (i.applyParticipantsBound bindings).withAgenda items reasons later := by
  unfold applyParticipantsBound
  induction bindings generalizing i at_ with
  | nil => exact ⟨at_, rfl⟩
  | cons binding rest ih =>
    exact ih
      { i with
        participantBindings := i.participantBindings.insert binding.roleId binding
        updatedAt := binding.boundAt } binding.boundAt

theorem foldl_withAgenda {α : Type} {update : CeremonyInstance → α → CeremonyInstance}
    (hupdate : ∀ i a, update (i.withAgenda items reasons at_) a =
      (update i a).withAgenda items reasons at_) (l : List α) (i : CeremonyInstance) :
    l.foldl update (i.withAgenda items reasons at_) =
      (l.foldl update i).withAgenda items reasons at_ := by
  induction l generalizing i with
  | nil => rfl
  | cons a rest ih => rw [foldl_cons, foldl_cons, hupdate, ih]

theorem applyStateIterationStarted_withAgenda (e : StateIterationStarted) :
    (i.withAgenda items reasons at_).applyStateIterationStarted e =
      (i.applyStateIterationStarted e).withAgenda items reasons e.startedAt := by
  unfold applyStateIterationStarted
  have hstart : { i.withAgenda items reasons at_ with currentStateIteration := e.stateIteration } =
      { i with currentStateIteration := e.stateIteration }.withAgenda items reasons at_ := rfl
  rw [hstart, foldl_withAgenda fun _ _ => rfl]
  rfl

theorem applyTransitionApplied_withAgenda (e : TransitionApplied) :
    (i.withAgenda items reasons at_).applyTransitionApplied e =
      (i.applyTransitionApplied e).withAgenda items reasons e.transition.appliedAt := by
  unfold applyTransitionApplied
  cases e.destination with
  | none => rfl
  | some destination =>
    dsimp only [enterDestination]
    have hstart : { i.withAgenda items reasons at_ with
          currentStateVisit := destination.stateVisit
          stateDeadline := destination.deadline } =
        { i with
          currentStateVisit := destination.stateVisit
          stateDeadline := destination.deadline }.withAgenda items reasons at_ := rfl
    rw [hstart, foldl_withAgenda fun _ _ => rfl]
    rfl

/-- An event that is not about the agenda leaves it alone and does not read it. -/
theorem apply_withAgenda (quiet : e.touchesAgenda = false)
    (notImported : ∀ f, e ≠ .instanceImported f) (h : i.apply e = .ok t) :
    ∃ later, (i.withAgenda items reasons at_).apply e = .ok (t.withAgenda items reasons later) := by
  cases e with
  | interventionRequested | interventionResponded | interventionClosed
  | interventionDeliveryAcknowledged | evidenceCollected | reasonAsserted => cases quiet
  | instanceImported imported => exact absurd rfl (notImported imported)
  | participantsBound bindings =>
    cases h
    obtain ⟨later, h⟩ := applyParticipantsBound_withAgenda i at_ bindings
    exact ⟨later, congrArg Except.ok h⟩
  | stateIterationStarted e =>
    cases h
    exact ⟨_, congrArg Except.ok (applyStateIterationStarted_withAgenda e)⟩
  | transitionApplied e =>
    cases h
    exact ⟨_, congrArg Except.ok (applyTransitionApplied_withAgenda e)⟩
  | contextWritten e =>
    obtain ⟨context, hctx, rfl⟩ := applyContextWritten_eq_ok h
    refine ⟨e.writtenAt, ?_⟩
    have hsame : (i.withAgenda items reasons at_).context = i.context := rfl
    rw [apply, applyContextWritten, hsame, hctx]
    rfl
  | stepCompleted e =>
    cases h
    refine ⟨e.finishedAt, congrArg Except.ok ?_⟩
    unfold applyStepCompleted
    cases e.nextIteration <;> rfl
  | childSpawnPlanAdopted e =>
    cases h
    have hgroups : (i.withAgenda items reasons at_).childGroups = i.childGroups := rfl
    rw [apply]
    unfold applyChildSpawnPlanAdopted
    rw [hgroups]
    cases i.childGroups[e.groupId]? with
    | none => exact ⟨at_, rfl⟩
    | some group => exact ⟨e.adoptedAt, rfl⟩
  | childCompletionAccepted e =>
    cases h
    have hgroups : (i.withAgenda items reasons at_).childGroups = i.childGroups := rfl
    rw [apply]
    unfold applyChildCompletionAccepted
    rw [hgroups]
    cases i.childGroups[e.completion.groupId]? with
    | none => exact ⟨at_, rfl⟩
    | some group => exact ⟨e.acceptedAt, rfl⟩
  | executionReceiptLinked e =>
    cases h
    have hlinks : (i.withAgenda items reasons at_).executionReceiptLinks =
        i.executionReceiptLinks := rfl
    refine ⟨e.linkedAt, congrArg Except.ok ?_⟩
    unfold applyExecutionReceiptLinked
    rw [hlinks]
    dsimp only
    split
    · rfl
    · rfl
  | successionCarried e =>
    cases h
    have hcarry : ∀ (i : CeremonyInstance) (evidence : CarriedEvidence),
        carryStep (i.withAgenda items reasons at_) evidence =
          (carryStep i evidence).withAgenda items reasons at_ := by
      intro i evidence
      have hrecs : (i.withAgenda items reasons at_).stepRecords = i.stepRecords := rfl
      unfold carryStep
      rw [hrecs]
      split
      · rfl
      · rfl
    refine ⟨e.carriedAt, congrArg Except.ok ?_⟩
    unfold applySuccessionCarried
    rw [foldl_withAgenda hcarry]
    rfl
  | ceremonyInstanceStarted =>
    cases h
    exact ⟨at_, rfl⟩
  | _ =>
    cases h
    exact ⟨_, rfl⟩

theorem apply_agenda (touches : e.touchesAgenda = true) (h : i.apply e = .ok t) :
    ∃ items reasons updatedAt, t = i.withAgenda items reasons updatedAt := by
  cases e with
  | interventionResponded e =>
    cases h
    exact applyInterventionResponded_eq i e
  | interventionRequested | interventionClosed | interventionDeliveryAcknowledged
  | evidenceCollected | reasonAsserted => cases h; exact ⟨_, _, _, rfl⟩
  | _ => cases touches

theorem applyAll_withAgenda (items : List CeremonyIntervention) (reasons : List CeremonyReason)
    (at_ : OffsetDateTime) (quiet : ∀ e ∈ events, e.touchesAgenda = false)
    (notImported : ∀ e ∈ events, ∀ f, e ≠ .instanceImported f) (h : i.applyAll events = .ok t) :
    ∃ later, (i.withAgenda items reasons at_).applyAll events =
      .ok (t.withAgenda items reasons later) := by
  induction events generalizing i at_ with
  | nil =>
    cases h
    exact ⟨at_, rfl⟩
  | cons e rest ih =>
    rw [forall_mem_cons] at quiet notImported
    obtain ⟨j, hj, hrest⟩ := applyAll_cons_eq_ok.mp h
    obtain ⟨later, hlater⟩ := apply_withAgenda quiet.1 notImported.1 hj
    obtain ⟨last, hlast⟩ := ih later quiet.2 notImported.2 hrest
    exact ⟨last, applyAll_cons_eq_ok.mpr ⟨_, hlater, hlast⟩⟩

/-! ### Decisions -/

theorem collectReservedRoles_withAgenda (stepId : StepId)
    (entries : List (StepId × StepExecutionRecord)) :
    (i.withAgenda items reasons at_).collectReservedRoles d stepId entries =
      i.collectReservedRoles d stepId entries := by
  induction entries with
  | nil => rfl
  | cons entry rest ih =>
    have hcur : (i.withAgenda items reasons at_).isCurrentRecordOf d = i.isCurrentRecordOf d := rfl
    rw [collectReservedRoles, collectReservedRoles, hcur, ih]

theorem resolveStepRole_withAgenda (stepId : StepId) (requested : Option RoleId) :
    (i.withAgenda items reasons at_).resolveStepRole d stepId requested =
      i.resolveStepRole d stepId requested := by
  have hassigned : (i.withAgenda items reasons at_).rolesAssignedToOtherSteps d stepId =
      i.rolesAssignedToOtherSteps d stepId := collectReservedRoles_withAgenda stepId _
  have havailable : (i.withAgenda items reasons at_).requireRoleIsAvailable d stepId =
      i.requireRoleIsAvailable d stepId := by
    funext role
    unfold requireRoleIsAvailable
    rw [hassigned]
    rfl
  unfold resolveStepRole
  rw [havailable]
  rfl

theorem decideStartStep_withAgenda (command : StartStep) :
    (i.withAgenda items reasons at_).decideStartStep d command = i.decideStartStep d command := by
  unfold decideStartStep
  rw [resolveStepRole_withAgenda]
  rfl

theorem decideCurrentStepResult_withAgenda {step : CeremonyStep}
    (h : i.decideCurrentStepResult d command step = .ok events) :
    (i.withAgenda items reasons at_).decideCurrentStepResult d command step = .ok events := by
  simp only [decideCurrentStepResult, bind_eq_ok] at h ⊢
  obtain ⟨hstate, h₁, record, h₂, hprog, h₃, hfence, h₄, h⟩ := h
  refine ⟨hstate, h₁, record, h₂, hprog, h₃, hfence, h₄, ?_⟩
  split at h
  case isFalse hfailure =>
    rw [if_neg hfailure]
    exact h
  case isTrue hsucc =>
    rw [if_pos hsucc]
    simp only [bind_eq_ok] at h ⊢
    obtain ⟨next, h₅, finishedBy, h₆, patch, h₇, projected, hproj, h⟩ := h
    have hquiet : ∀ e ∈ i.completionEvents command record next finishedBy patch,
        e.touchesAgenda = false ∧ ∀ f, e ≠ .instanceImported f := by
      cases patch <;> simp [completionEvents, CeremonyEvent.touchesAgenda]
    obtain ⟨later, hlater⟩ := applyAll_withAgenda items reasons at_ (fun e he => (hquiet e he).1)
      (fun e he => (hquiet e he).2) hproj
    exact ⟨next, h₅, finishedBy, h₆, patch, h₇, _, hlater, h⟩

theorem decideApplyStepResult_withAgenda (h : i.decideApplyStepResult d command = .ok events) :
    (i.withAgenda items reasons at_).decideApplyStepResult d command = .ok events := by
  simp only [decideApplyStepResult, bind_eq_ok] at h ⊢
  obtain ⟨hdefinition, h₁, hkind, h₂, step, h₃, late, h₄, h⟩ := h
  refine ⟨hdefinition, h₁, hkind, h₂, step, h₃, late, h₄, ?_⟩
  cases late with
  | some sealed_ => exact h
  | none => exact decideCurrentStepResult_withAgenda h

theorem decideLinkedStepResult_withAgenda {command : ApplyExecutionReceiptResult}
    (h : i.decideLinkedStepResult d command = .ok events) :
    (i.withAgenda items reasons at_).decideLinkedStepResult d command = .ok events := by
  simp only [decideLinkedStepResult, bind_eq_ok] at h ⊢
  obtain ⟨record, h₁, hop, h₂, resultEvents, h₃, h⟩ := h
  exact ⟨record, h₁, hop, h₂, resultEvents, decideApplyStepResult_withAgenda h₃, h⟩

theorem decideApplyExecutionReceiptResult_withAgenda {command : ApplyExecutionReceiptResult}
    (h : i.decideApplyExecutionReceiptResult d command = .ok events) :
    (i.withAgenda items reasons at_).decideApplyExecutionReceiptResult d command = .ok events := by
  have hlinks : (i.withAgenda items reasons at_).executionReceiptLinks =
      i.executionReceiptLinks := rfl
  have hadoption : (i.withAgenda items reasons at_).executionReceiptAdoption =
      i.executionReceiptAdoption := rfl
  simp only [decideApplyExecutionReceiptResult, bind_eq_ok] at h ⊢
  rw [hlinks, hadoption]
  obtain ⟨hval, h₁, htgt, h₂, h⟩ := h
  refine ⟨hval, h₁, htgt, h₂, ?_⟩
  split at h
  case isTrue hsame =>
    rw [if_pos hsame]
    exact h
  case isFalse hnew =>
    rw [if_neg hnew]
    cases hkind : command.receiptLink.kind with
    | direct =>
      simp only [hkind, bind_eq_ok] at h ⊢
      obtain ⟨hfresh, h₃, h⟩ := h
      exact ⟨hfresh, h₃, decideLinkedStepResult_withAgenda h⟩
    | adopted =>
      simp only [hkind] at h ⊢
      split at h
      · exact h
      · simp only [bind_eq_ok] at h ⊢
        obtain ⟨hadms, h₃, hsame, h₄, h⟩ := h
        exact ⟨hadms, h₃, hsame, h₄, decideLinkedStepResult_withAgenda h⟩

/-- A session whose agenda is settled moves wherever one with another agenda moves. -/
theorem decideApplyTransition_withAgenda {command : ApplyTransition}
    (settled : items.any (·.status.isOpen) = false)
    (h : i.decideApplyTransition d command = .ok events) :
    (i.withAgenda items reasons at_).decideApplyTransition d command = .ok events := by
  simp only [decideApplyTransition, bind_eq_ok] at h ⊢
  obtain ⟨_, h₁, _, h₂, _, h₃, _, h₄, transition, h₅, _, h₆, _, h₇, _, h₈, _, h₉, visit, h₁₀,
    deadline, h₁₁, _, -, h⟩ := h
  refine ⟨(), h₁, (), h₂, (), h₃, (), h₄, transition, h₅, (), h₆, (), h₇, (), h₈, (), h₉, visit,
    h₁₀, deadline, h₁₁, (), ?_, h⟩
  rw [requireInterventionsResolvedBeforeEntering, require_eq_ok, withAgenda, settled,
    Bool.and_false]

/-- What a command that is not about the agenda is decided into does not depend on the agenda,
once nothing on it is open. -/
theorem decide_withAgenda {command : CeremonyCommand} (quiet : command.touchesAgenda = false)
    (settled : items.any (·.status.isOpen) = false) (h : i.decide d command = .ok events) :
    (i.withAgenda items reasons at_).decide d command = .ok events := by
  cases command with
  | requestIntervention | respondToIntervention | respondToInterventionWithEvidence
  | acknowledgeInterventionDelivery | assertReason | closeIntervention => cases quiet
  | startStep command =>
    rw [decide, decideStartStep_withAgenda]
    exact h
  | applyStepResult => exact decideApplyStepResult_withAgenda h
  | applyExecutionReceiptResult => exact decideApplyExecutionReceiptResult_withAgenda h
  | applyTransition => exact decideApplyTransition_withAgenda settled h
  | _ => exact h

/-- Commands about the agenda are decided into events about the agenda, the others into others. -/
theorem touchesAgenda_of_decide {command : CeremonyCommand} (h : i.decide d command = .ok events) :
    ∀ e ∈ events, e.touchesAgenda = command.touchesAgenda ∧ ∀ f, e ≠ .instanceImported f := by
  have htypes : ∀ type ∈ emits command,
      agendaTypes.contains type = command.touchesAgenda ∧ type ≠ .instanceImported := by
    cases command <;> simp [emits, resultTypes, agendaTypes, CeremonyCommand.touchesAgenda]
  intro e he
  have hemitted := htypes _ (decide_each h e he).1
  refine ⟨e.touchesAgenda_eq.trans hemitted.1, ?_⟩
  rintro f rfl
  exact hemitted.2 rfl

theorem applyAll_agenda (touches : ∀ e ∈ events, e.touchesAgenda = true)
    (h : i.applyAll events = .ok t) :
    ∃ items reasons updatedAt, t = i.withAgenda items reasons updatedAt := by
  induction events generalizing i with
  | nil =>
    cases h
    exact ⟨t.interventions, t.reasons, t.updatedAt, rfl⟩
  | cons e rest ih =>
    rw [forall_mem_cons] at touches
    obtain ⟨j, hj, hrest⟩ := applyAll_cons_eq_ok.mp h
    obtain ⟨_, _, _, rfl⟩ := apply_agenda touches.1 hj
    obtain ⟨items, reasons, at_, rfl⟩ := ih touches.2 hrest
    exact ⟨items, reasons, at_, rfl⟩

/-- The second session is the first one with a settled agenda. -/
def Settles (i t : CeremonyInstance) : Prop :=
  ∃ items reasons updatedAt, t = i.withAgenda items reasons updatedAt ∧
    items.any (·.status.isOpen) = false

/-- A session with a settled agenda follows every run of the other, leaving out what is said about
the agenda. -/
theorem exists_run_of_settles {ok : CeremonyInstance → CeremonyCommand → Prop}
    {s w : CeremonyInstance} {trace : List (CeremonyCommand × List CeremonyEvent)}
    (run : (machine d).Run ok i trace w) (h : Settles i s) :
    ∃ answer w', (machine d).Run (fun _ _ => True) s answer w' ∧ Settles w w' := by
  refine run.simulate ?_ h
  rintro i command events t s - accepted folded ⟨items, reasons, at_, rfl, settled⟩
  rw [machine_fold] at folded
  have htouches := touchesAgenda_of_decide accepted
  cases hquiet : command.touchesAgenda with
  | true =>
    obtain ⟨_, _, _, rfl⟩ := applyAll_agenda (fun e he => (htouches e he).1.trans hquiet) folded
    exact ⟨[], _, .nil, items, reasons, at_, rfl, settled⟩
  | false =>
    obtain ⟨later, hlater⟩ := applyAll_withAgenda items reasons at_
      (fun e he => (htouches e he).1.trans hquiet) (fun e he => (htouches e he).2) folded
    have hstep : (machine d).Run (fun _ _ => True) (i.withAgenda items reasons at_)
        ([] ++ [(command, events)]) (t.withAgenda items reasons later) :=
      .snoc .nil trivial (decide_withAgenda hquiet settled accepted) (by rwa [machine_fold])
    exact ⟨_, _, hstep, items, reasons, later, rfl, settled⟩

/-! ## Items of the agenda -/

/-- What an admitted event does to an item: nothing that matters here, or its requester, who may,
closes it. -/
structure ItemStep (d : CeremonyDefinition) (before after : CeremonyIntervention) : Prop where
  id_eq : after.id = before.id
  requestedBy_eq : after.requestedBy = before.requestedBy
  status : after.status = before.status ∨
    after.status.isOpen = false ∧ d.roleAllows before.requestedBy .requestIntervention = true

theorem ItemStep.refl (item : CeremonyIntervention) : ItemStep d item item := ⟨rfl, rfl, .inl rfl⟩

theorem updateIntervention_forall₂ {R : CeremonyIntervention → CeremonyIntervention → Prop}
    (hrefl : ∀ item, R item item) {interventionId : CeremonyInterventionId}
    (hupdate : ∀ item updated, update item = .ok updated → R item updated)
    (items : List CeremonyIntervention) :
    List.Forall₂ R items (updateIntervention interventionId update items) := by
  induction items with
  | nil => exact .nil
  | cons item rest ih =>
    unfold updateIntervention
    split
    case isFalse => exact .cons (hrefl item) ih
    case isTrue =>
      have hrest : List.Forall₂ R rest rest := forall₂_same.mpr fun item _ => hrefl item
      split
      case h_1 updated hupdated => exact .cons (hupdate item updated hupdated) hrest
      case h_2 => exact .cons (hrefl item) hrest

theorem itemStep_of_acceptResponse {response : CeremonyInterventionResponse}
    (h : item.acceptResponse response = .ok updated) : ItemStep d item updated := by
  simp only [acceptResponse, bind_eq_ok, pure_eq_ok] at h
  obtain ⟨_, _, rfl⟩ := h
  exact ⟨rfl, rfl, .inl rfl⟩

theorem itemStep_of_acknowledgeDelivery {ack : InterventionDeliveryAck}
    (h : item.acknowledgeDelivery ack = .ok updated) : ItemStep d item updated := by
  unfold acknowledgeDelivery at h
  split at h
  case h_2 =>
    cases h
    exact ⟨rfl, rfl, .inl rfl⟩
  case h_1 =>
    split at h
    case isTrue =>
      cases h
      exact .refl item
    case isFalse => cases h

theorem itemStep_of_close {roleId : RoleId}
    (allowed : d.roleAllows roleId .requestIntervention = true)
    (h : item.close roleId at_ = .ok updated) : ItemStep d item updated := by
  simp only [close, bind_eq_ok, require_eq_ok, pure_eq_ok, exists_const] at h
  obtain ⟨-, rfl, rfl⟩ := h
  exact ⟨rfl, rfl, .inr ⟨rfl, allowed⟩⟩

theorem AgendaStep.itemSteps (h : AgendaStep d i e t) :
    List.Forall₂ (ItemStep d) i.interventions t.interventions ∨
      ∃ command, e = .interventionRequested (requestedIntervention command) ∧
        RequestAdmitted d i command ∧
        t.interventions = i.interventions ++ [requestedIntervention command] := by
  have hsame : List.Forall₂ (ItemStep d) i.interventions i.interventions :=
    forall₂_same.mpr fun item _ => .refl item
  cases h with
  | other same =>
    rw [same]
    exact .inl hsame
  | requested command admitted appended => exact .inr ⟨command, rfl, admitted, appended⟩
  | responded e =>
    left
    unfold applyInterventionResponded
    split
    case h_1 => exact hsame
    case h_2 =>
      dsimp only
      split
      case h_2 => exact hsame
      case h_1 =>
        exact updateIntervention_forall₂ .refl (fun _ _ => itemStep_of_acceptResponse) _
  | closed e item admitted =>
    exact .inl (updateIntervention_forall₂ .refl (fun _ _ => itemStep_of_close admitted.allowed) _)
  | acknowledged e =>
    exact .inl (updateIntervention_forall₂ .refl (fun _ _ => itemStep_of_acknowledgeDelivery) _)

/-! ## Items that can be closed -/

/-- Items have their own ids, and whoever opened one that is still open may close it. -/
structure AgendaKept (d : CeremonyDefinition) (i : CeremonyInstance) : Prop where
  nodup : (i.interventions.map (·.id)).Nodup
  closable : ∀ item ∈ i.interventions, item.status.isOpen = true →
    d.roleAllows item.requestedBy .requestIntervention = true

theorem ids_eq_of_forall₂ (h : List.Forall₂ (ItemStep d) before after) :
    after.map (·.id) = before.map (·.id) := by
  induction h with
  | nil => rfl
  | cons step _ ih => rw [map_cons, map_cons, step.id_eq, ih]

theorem closable_of_forall₂ (h : List.Forall₂ (ItemStep d) before after)
    (closable : ∀ item ∈ before, item.status.isOpen = true →
      d.roleAllows item.requestedBy .requestIntervention = true) :
    ∀ item ∈ after, item.status.isOpen = true →
      d.roleAllows item.requestedBy .requestIntervention = true := by
  induction h with
  | nil => simp
  | @cons old new _ _ step _ ih =>
    rw [forall_mem_cons] at closable ⊢
    refine ⟨fun hopen => ?_, ih closable.2⟩
    rw [step.requestedBy_eq]
    rcases step.status with hs | ⟨hcl, -⟩
    · exact closable.1 (hs ▸ hopen)
    · simp [hcl] at hopen

theorem AgendaKept.step (h : AgendaKept d i) (agenda : AgendaStep d i e t)
    (allowed : ∀ item, e = .interventionRequested item →
      d.roleAllows item.requestedBy .requestIntervention = true) : AgendaKept d t := by
  rcases agenda.itemSteps with hitems | ⟨command, rfl, admitted, happended⟩
  · exact ⟨ids_eq_of_forall₂ hitems ▸ h.nodup, closable_of_forall₂ hitems h.closable⟩
  · constructor
    · -- The id of a new item is none of those on the agenda.
      have hfresh := admitted.fresh
      rw [intervention, find?_eq_none] at hfresh
      rw [happended, map_append, nodup_append]
      refine ⟨h.nodup, nodup_singleton _, ?_⟩
      intro id hid other ho
      obtain ⟨item, hmem, rfl⟩ := mem_map.mp hid
      rw [map_singleton, mem_singleton] at ho
      rw [ho]
      have hne : ¬ item.id = command.interventionId := by simpa using hfresh item hmem
      exact hne
    · rw [happended, forall_mem_append, forall_mem_singleton]
      exact ⟨h.closable, fun _ => allowed _ rfl⟩

theorem find?_id_eq_some (hnd : (items.map (·.id)).Nodup) (hmem : item ∈ items) :
    items.find? (·.id = item.id) = some item := by
  induction items with
  | nil => simp at hmem
  | cons head rest ih =>
    rw [map_cons, nodup_cons] at hnd
    rcases mem_cons.mp hmem with rfl | hmem
    · simp
    · have hne : head.id ≠ item.id := by
        intro heq
        exact hnd.1 (heq ▸ mem_map.mpr ⟨item, hmem, rfl⟩)
      rw [find?_cons_of_neg (by simpa using hne)]
      exact ih hnd.2 hmem

def closing (item : CeremonyIntervention) (now : OffsetDateTime) : InterventionClosed where
  interventionId := item.id
  closedBy := item.requestedBy
  closedAt := now

theorem closeAdmitted_of_kept (kept : AgendaKept d i) (active : i.Active d)
    (hmem : item ∈ i.interventions) (hopen : item.status.isOpen = true) (now : OffsetDateTime) :
    CloseAdmitted d i (closing item now) item where
  active := active
  allowed := kept.closable item hmem hopen
  item_eq := find?_id_eq_some kept.nodup hmem
  opened := hopen
  requester := rfl

def closeByRequester (item : CeremonyIntervention) (now : OffsetDateTime) : CeremonyCommand :=
  .closeIntervention ⟨item.id, item.requestedBy, now⟩

theorem decide_closeByRequester {now : OffsetDateTime}
    (admitted : CloseAdmitted d i (closing item now) item) :
    i.decide d (closeByRequester item now) = .ok [.interventionClosed (closing item now)] := by
  have hrole : i.requireRole d item.requestedBy .requestIntervention = .ok () :=
    (requireRole_eq_ok _ _ _).mpr ⟨admitted.active.matched, admitted.allowed⟩
  have hact := (requireActive_eq_ok (i := i) (d := d)
    "terminal ceremony instances cannot close interventions" ()).mpr admitted.active
  have hitem : i.requireOpenIntervention item.id = .ok item :=
    (requireOpenIntervention_eq_ok _ _).mpr admitted.item_eq
  have hclose : item.close item.requestedBy now =
      .ok { item with status := .closed, updatedAt := now, closedAt := some now } := by
    simp [close, require, admitted.opened]
  rw [closeByRequester, decide, decideCloseIntervention, hact, hrole, hitem]
  simp only [ok_bind, hclose]
  rfl

theorem updateIntervention_append {earlier later : List CeremonyIntervention}
    (hearlier : ∀ other ∈ earlier, other.id ≠ item.id) (hupdate : update item = .ok updated) :
    updateIntervention item.id update (earlier ++ item :: later) = earlier ++ updated :: later := by
  induction earlier with
  | nil => simp [updateIntervention, hupdate]
  | cons other rest ih =>
    rw [forall_mem_cons] at hearlier
    rw [cons_append, updateIntervention, if_neg hearlier.1, ih hearlier.2, cons_append]

theorem countP_closed (kept : AgendaKept d i) (hmem : item ∈ i.interventions)
    (hopen : item.status.isOpen = true) (now : OffsetDateTime) :
    (i.applyInterventionClosed (closing item now)).interventions.countP (·.status.isOpen) + 1 =
      i.interventions.countP (·.status.isOpen) := by
  obtain ⟨earlier, later, hsplit⟩ := append_of_mem hmem
  have hclose : item.close item.requestedBy now =
      .ok { item with status := .closed, updatedAt := now, closedAt := some now } := by
    simp [close, require, hopen]
  have hearlier : ∀ other ∈ earlier, other.id ≠ item.id := by
    intro other ho
    have hnd := kept.nodup
    rw [hsplit, map_append, nodup_append] at hnd
    exact hnd.2.2 _ (mem_map.mpr ⟨other, ho, rfl⟩) _ (by simp)
  have hcl : (i.applyInterventionClosed (closing item now)).interventions =
      updateIntervention item.id (fun item' => item'.close item.requestedBy now)
        i.interventions := rfl
  rw [hcl, hsplit, updateIntervention_append hearlier hclose, countP_append,
    countP_append, countP_cons, countP_cons, if_pos hopen]
  rfl

/-- Requesters who may close what they opened can settle the agenda. -/
theorem exists_run_settling (kept : AgendaKept d i) (active : i.Active d) :
    ∃ trace s, (machine d).Run (fun _ _ => True) i trace s ∧ Settles i s := by
  -- Induction on the number of open items, one of which is closed at a time.
  generalize hcnt : i.interventions.countP (·.status.isOpen) = count
  induction count generalizing i with
  | zero =>
    refine ⟨[], i, .nil, i.interventions, i.reasons, i.updatedAt, rfl, ?_⟩
    rw [countP_eq_zero] at hcnt
    simpa using hcnt
  | succ count ih =>
    have hpos : 0 < i.interventions.countP (·.status.isOpen) := by omega
    obtain ⟨item, hmem, hopen⟩ := countP_pos_iff.mp hpos
    have hadm := closeAdmitted_of_kept kept active hmem hopen i.updatedAt
    have hcl := countP_closed kept hmem hopen i.updatedAt
    obtain ⟨trace, s, hrun, items, reasons, at_, rfl, hset⟩ :=
      ih (i := i.applyInterventionClosed (closing item i.updatedAt))
        (kept.step (.closed _ item hadm) (by rintro _ ⟨⟩))
        ⟨active.matched, active.notTerminal, active.notEnded⟩ (by omega)
    have hstep : (machine d).Run (fun _ _ => True) i ([] ++ [(closeByRequester item i.updatedAt,
          [.interventionClosed (closing item i.updatedAt)])])
        (i.applyInterventionClosed (closing item i.updatedAt)) :=
      .snoc .nil trivial (decide_closeByRequester hadm) rfl
    exact ⟨_, _, hstep.trans hrun, items, reasons, at_, rfl, hset⟩

/-! ## Items that cannot -/

/-- The session is not in a terminal state, and an item is open whose requester may not close. -/
structure Stuck (d : CeremonyDefinition) (i : CeremonyInstance) : Prop where
  opened : ∃ item ∈ i.interventions, item.status.isOpen = true ∧
    d.roleAllows item.requestedBy .requestIntervention = false
  notTerminal : d.isTerminalState i.currentState = false

theorem stuck_forall₂ (h : List.Forall₂ (ItemStep d) before after)
    (opened : ∃ item ∈ before, item.status.isOpen = true ∧
      d.roleAllows item.requestedBy .requestIntervention = false) :
    ∃ item ∈ after, item.status.isOpen = true ∧
      d.roleAllows item.requestedBy .requestIntervention = false := by
  induction h with
  | nil => simp at opened
  | @cons old new _ _ step _ ih =>
    simp only [exists_mem_cons_iff] at opened ⊢
    rcases opened with ⟨hopen, hrefused⟩ | hrest
    · left
      rcases step.status with hs | ⟨-, hallowed⟩
      · exact ⟨hs ▸ hopen, step.requestedBy_eq ▸ hrefused⟩
      · simp [hrefused] at hallowed
    · exact .inr (ih hrest)

theorem Stuck.step (h : Stuck d i) (effects : Effects d i e t) : Stuck d t := by
  constructor
  · rcases effects.agenda.itemSteps with hitems | ⟨command, -, -, happended⟩
    · exact stuck_forall₂ hitems h.opened
    · obtain ⟨item, hmem, hitem⟩ := h.opened
      rw [happended]
      exact ⟨item, mem_append_left _ hmem, hitem⟩
  · cases positionStep_of_execution effects.execution with
    | stayed state_eq | iterated _ _ state_eq => exact state_eq ▸ h.notTerminal
    | moved e transition destination admitted state_eq =>
      rw [state_eq, ← Bool.not_eq_true]
      intro hterm
      obtain ⟨item, hmem, hopen, -⟩ := h.opened
      have hresd := admitted.resolved hterm
      rw [any_eq_false] at hresd
      exact hresd item hmem hopen

theorem decide_closeByRequester_ne_ok
    (refused : d.roleAllows item.requestedBy .requestIntervention = false) (now : OffsetDateTime)
    (closed : List CeremonyEvent) : i.decide d (closeByRequester item now) ≠ .ok closed := by
  intro h
  simp only [closeByRequester, decide, decideCloseIntervention, bind_eq_ok,
    requireRole_eq_ok, refused] at h
  simp at h

end CeremonyInstance

open CeremonyInstance

/-! ## Runs -/

/-- The command is not a request, or one under a role that may request. -/
def CeremonyCommand.requestsUnderRole (d : CeremonyDefinition) : CeremonyCommand → Bool
  | .requestIntervention command => d.roleAllows command.roleId .requestIntervention
  | _ => true

section Runs

variable {d : CeremonyDefinition} {opening : CeremonyOpening} {events : List CeremonyEvent}
  {i t : CeremonyInstance} {ok : CeremonyInstance → CeremonyCommand → Prop}
  {trace : List (CeremonyCommand × List CeremonyEvent)}

theorem requestedBy_of_decide {command : CeremonyCommand}
    (asks : command.requestsUnderRole d = true) (h : i.decide d command = .ok events) :
    ∀ e ∈ events, ∀ item, e = .interventionRequested item →
      d.roleAllows item.requestedBy .requestIntervention = true := by
  rintro e he item rfl
  have hemitted := (decide_each h _ he).1
  cases command with
  | requestIntervention command =>
    rw [CeremonyInstance.decide] at h
    simp only [decideRequestIntervention, bind_eq_ok, pure_eq_ok] at h
    obtain ⟨_, _, _, _, _, _, _, _, _, _, _, _, rfl⟩ := h
    rw [mem_singleton, CeremonyEvent.interventionRequested.injEq] at he
    rw [he]
    exact asks
  | _ => simp [emits, resultTypes, CeremonyEvent.eventType] at hemitted

theorem active_of_request {command : RequestIntervention}
    (h : t.decide d (.requestIntervention command) = .ok events) : t.Active d := by
  rw [CeremonyInstance.decide] at h
  simp only [decideRequestIntervention, bind_eq_ok, requireActive_eq_ok] at h
  obtain ⟨_, _, _, hact, _⟩ := h
  exact hact

section

variable (opened : Opened d opening events i)
include opened

theorem Opened.agendaKept : AgendaKept d i where
  nodup := by simp [opened.fresh.interventions]
  closable := by simp [opened.fresh.interventions]

theorem Opened.agendaKept_run
    (run : (machine d).Run (fun _ c => c.requestsUnderRole d = true) i trace t) :
    AgendaKept d t := by
  have hpath := opened.path_and run fun _ _ _ asks accepted => requestedBy_of_decide asks accepted
  refine hpath.invariant (fun i e t admitted happ kept => ?_) opened.agendaKept
  exact kept.step (effects_of_admitted admitted.1 happ).agenda admitted.2

theorem Opened.matched_run (run : (machine d).Run ok i trace t) : t.matchesDefinition d = true := by
  refine (opened.path run).invariant (I := fun t => t.matchesDefinition d = true)
    (fun i e t admitted happ hmatched => ?_) opened.fresh.matched
  exact (effects_of_admitted admitted happ).identity.matchesDefinition.trans hmatched

theorem Opened.stuck_run (run : (machine d).Run ok i trace t) (stuck : Stuck d t)
    {more : List (CeremonyCommand × List CeremonyEvent)} {w : CeremonyInstance}
    (later : (machine d).Run ok t more w) : Stuck d w := by
  have hpath := opened.path (run.trans later)
  rw [Machine.stream, flatMap_append] at hpath
  refine (hpath.split_of_fold run.fold_eq).2.invariant (fun i e t admitted happ hstuck => ?_) stuck
  exact hstuck.step (effects_of_admitted admitted happ)

theorem Opened.unique {events' : List CeremonyEvent} {i' : CeremonyInstance}
    (again : Opened d opening events' i') : i' = i := by
  have hevs := opened.accepted.symm.trans again.accepted
  rw [Except.ok.injEq] at hevs
  subst hevs
  exact Except.ok.inj (again.folded.symm.trans opened.folded)

end

/-- Whatever a session came to, it could have come to with nothing open on its agenda. -/
theorem Session.agenda_opens_nothing (s : Session d) : ∃ trace t,
    (machine d).Run (fun _ _ => True) s.start trace t ∧ CeremonyInstance.Settles s.current t :=
  exists_run_of_settles s.run ⟨_, _, _, rfl, by simp [s.opened.fresh.interventions]⟩

/-- In a run whose requests are made under roles that may request, whoever opened an item can close
it, and a further such request leaves every terminal state reachable that was reachable. -/
theorem open_interventions_can_be_closed (opened : Opened d opening events i)
    (run : (machine d).Run (fun _ c => c.requestsUnderRole d = true) i trace t) :
    (t.isEnded = false → t.isTerminal d = false → ∀ item ∈ t.interventions,
      item.status.isOpen = true → ∀ now, ∃ closed, t.decide d
        (.closeIntervention ⟨item.id, item.requestedBy, now⟩) = .ok closed) ∧
    ∀ (command : RequestIntervention) (asked : List CeremonyEvent) (u : CeremonyInstance),
      d.roleAllows command.roleId .requestIntervention = true →
      t.decide d (.requestIntervention command) = .ok asked → t.applyAll asked = .ok u →
      ∀ more w, (machine d).Run (fun _ _ => True) t more w → w.isTerminal d = true →
        ∃ more' w', (machine d).Run (fun _ _ => True) u more' w' ∧ w'.isTerminal d = true ∧
          w'.currentState = w.currentState := by
  constructor
  · intro hend hterm item hmem hopen now
    have hact : t.Active d := ⟨opened.matched_run run, hterm, hend⟩
    exact ⟨_, decide_closeByRequester
      (closeAdmitted_of_kept (opened.agendaKept_run run) hact hmem hopen now)⟩
  · intro command asked u allowed accepted folded more w hmore hterm
    -- The request leads to `u`, where everybody closes what they opened.
    have hrun : (machine d).Run (fun _ c => c.requestsUnderRole d = true) i
        (trace ++ [(.requestIntervention command, asked)]) u :=
      .snoc run allowed accepted (by rwa [machine_fold])
    have hact : t.Active d := active_of_request accepted
    obtain ⟨items, reasons, at_, rfl⟩ := applyAll_agenda
      (fun e he => (touchesAgenda_of_decide accepted e he).1) folded
    obtain ⟨closings, s, hclosings, items', reasons', at', rfl, hset⟩ :=
      exists_run_settling (opened.agendaKept_run hrun)
        ⟨hact.matched, hact.notTerminal, hact.notEnded⟩
    -- What is left differs from `t` in a settled agenda only.
    obtain ⟨answer, w', hanswer, _, _, _, rfl, _⟩ := exists_run_of_settles hmore
      ⟨items', reasons', at', rfl, hset⟩
    exact ⟨_, _, hclosings.trans hanswer, hterm, rfl⟩

end Runs

/-- One move, which a chair may talk about. -/
def chairedDefinition : CeremonyDefinition :=
  (CeremonyDefinition.new ⟨"chaired", .refl true⟩ firstVersion none [] []
    [.initial openState, .terminal doneState]
    [finishing []]
    [] [] [.of ⟨"chair", .refl true⟩ .requestIntervention []]).get (by decide +kernel)

def requestAt (interventionId : CeremonyInterventionId) (roleId : RoleId)
    (supervisor : Option SupervisorPrincipal) (now : OffsetDateTime) : RequestIntervention where
  interventionId := interventionId
  roleId := roleId
  kind := .opinion
  target := .table
  content := ⟨⟨"is this still needed?", by decide⟩, .empty⟩
  provenance := none
  intent := some .question
  delivery := none
  supervisor := supervisor
  now := now

/-- The chair asks twice and can close both questions. -/
theorem chair_closes_questions :
    ∃ (events : List CeremonyEvent) (i : CeremonyInstance)
      (trace : List (CeremonyCommand × List CeremonyEvent)) (t : CeremonyInstance),
      Opened chairedDefinition (openingOf chairedDefinition) events i ∧
      (machine chairedDefinition).Run (fun _ c => c.requestsUnderRole chairedDefinition = true) i
        trace t ∧
      t.isEnded = false ∧ t.isTerminal chairedDefinition = false ∧
      t.interventions.countP (·.status.isOpen) = 2 ∧
      ∀ item ∈ t.interventions, item.status.isOpen = true → ∀ now, ∃ closed,
        t.decide chairedDefinition (.closeIntervention ⟨item.id, item.requestedBy, now⟩) =
          .ok closed := by
  obtain ⟨events, i, trace, t, hopened, hrun, hend, hterm, hcnt⟩ := exists_run_of_rehearse
    (openingOf chairedDefinition)
    [fun _ => .requestIntervention (requestAt ⟨"q1", by decide⟩ ⟨"chair", by decide⟩ none
        ⟨1, by decide⟩),
      fun _ => .requestIntervention (requestAt ⟨"q2", by decide⟩ ⟨"chair", by decide⟩ none
        ⟨2, by decide⟩)]
    (fun _ _ t => t.isEnded = false ∧ t.isTerminal chairedDefinition = false ∧
      t.interventions.countP (·.status.isOpen) = 2)
    (fun _ c => c.requestsUnderRole chairedDefinition) (by decide +kernel)
  exact ⟨events, i, trace, t, hopened, hrun, hend, hterm, hcnt,
    (open_interventions_can_be_closed (d := chairedDefinition) hopened hrun).1 hend hterm⟩

/-- A question asked by a supervisor, under the seat derived for it. -/
def supervisorRequest : RequestIntervention :=
  requestAt ⟨"q1", .refl true⟩ ⟨"supervisor:auditor", .refl true⟩
    (some ⟨⟨"auditor"⟩, ⟨"Auditor", .refl true⟩⟩) (.afterEpoch 1)

/-- A session one move away from its end accepts a request from a supervisor.  The seat it was
asked under cannot close it, and no continuation reaches a terminal state. -/
theorem supervisor_request_blocks_every_ending :
    ∃ (events asked : List CeremonyEvent) (i t : CeremonyInstance),
      Opened oneMoveDefinition (openingOf oneMoveDefinition) events i ∧
      (∃ more w, (machine oneMoveDefinition).Run (fun _ _ => True) i more w ∧
        w.isTerminal oneMoveDefinition = true) ∧
      (machine oneMoveDefinition).Run (fun _ _ => True) i
        [(.requestIntervention supervisorRequest, asked)] t ∧
      t.isEnded = false ∧ t.isTerminal oneMoveDefinition = false ∧
      (∃ item ∈ t.interventions, item.status.isOpen = true ∧ ∀ now closed,
        t.decide oneMoveDefinition (.closeIntervention ⟨item.id, item.requestedBy, now⟩) ≠
          .ok closed) ∧
      ∀ more w, (machine oneMoveDefinition).Run (fun _ _ => True) t more w →
        w.isTerminal oneMoveDefinition = false := by
  obtain ⟨events, i, more, w, hopened, hmore, hterm⟩ := exists_run_of_script
    (openingOf oneMoveDefinition) [fun _ => moveAt ⟨"finish", by decide⟩ ⟨1, by decide⟩]
    (fun _ _ w => w.isTerminal oneMoveDefinition = true) (by decide +kernel)
  obtain ⟨_, i', trace, t, hagain, hrun, htrace, hitems, hend, hstate⟩ := exists_run_of_script
    (openingOf oneMoveDefinition) [fun _ => .requestIntervention supervisorRequest]
    (fun _ trace t => trace.map Prod.fst = [.requestIntervention supervisorRequest] ∧
      t.interventions = [requestedIntervention supervisorRequest] ∧ t.isEnded = false ∧
      oneMoveDefinition.isTerminalState t.currentState = false) (by decide +kernel)
  have hsame : i' = i := Opened.unique hopened hagain
  subst hsame
  obtain ⟨⟨command, asked⟩, rfl, rfl⟩ := List.map_eq_singleton_iff.mp htrace
  have hmem : requestedIntervention supervisorRequest ∈ t.interventions := by simp [hitems]
  have hrefused : oneMoveDefinition.roleAllows
      (requestedIntervention supervisorRequest).requestedBy .requestIntervention = false := by
    decide +kernel
  have hstuck : Stuck oneMoveDefinition t := ⟨⟨_, hmem, rfl, hrefused⟩, hstate⟩
  refine ⟨events, asked, i', t, hopened, ⟨more, w, hmore, hterm⟩, hrun, hend, ?_,
    ⟨_, hmem, rfl, ?_⟩, ?_⟩
  · rw [CeremonyInstance.isTerminal, hstate, Bool.and_false]
  · exact decide_closeByRequester_ne_ok hrefused
  · intro more w hmore
    have hlater : Stuck oneMoveDefinition w := Opened.stuck_run hopened hrun hstuck hmore
    rw [CeremonyInstance.isTerminal, hlater.notTerminal, Bool.and_false]

end Made
