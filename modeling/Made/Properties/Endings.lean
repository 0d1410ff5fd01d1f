import Made.Runs.Effects

/-!
# Endings

A ceremony ends by completing, by being cancelled or on a deadline.  The completion is kept in
`completedAt` and the other endings in the stored lifecycle; `CeremonyInstance.lifecycle` reads the
completion only as long as the stored lifecycle was never changed.  A completion of a ceremony that
was paused and resumed before is therefore not an ending.
-/

namespace Made

open EventSourcing CeremonyEvent

def CeremonyEvent.isEnding : CeremonyEvent → Bool
  | .ceremonyCompleted _ | .ceremonyCancelled _ | .ceremonyDeadlineExceeded _
  | .stateDeadlineExceeded _ => true
  | _ => false

/-- The events an ended ceremony has no room for. -/
def CeremonyEvent.needsLife (e : CeremonyEvent) : Bool :=
  e.isEnding ||
    match e with
    | .ceremonyPaused _ | .ceremonyResumed _ | .stepStarted _ | .transitionApplied _ => true
    | _ => false

namespace CeremonyInstance

variable {d : CeremonyDefinition} {i t : CeremonyInstance} {e : CeremonyEvent}

/-! ## One event -/

/-- A completion ends the session unless the stored lifecycle was changed before. -/
theorem isEnded_applyCeremonyCompleted (completed : CeremonyCompleted)
    (h : i.lifecycle_.isEnded = false) :
    (i.applyCeremonyCompleted completed).isEnded = !i.lifecycle_.isExplicit := by
  cases hexplicit : i.lifecycle_.isExplicit with
  | false =>
    simp [isEnded, lifecycle, applyCeremonyCompleted, hexplicit, CeremonyLifecycle.completed,
      CeremonyLifecycle.isEnded]
  | true => simp [isEnded, lifecycle, applyCeremonyCompleted, hexplicit, h]

/-- An explicit ending is an ending whether or not the ceremony completed before. -/
theorem isEnded_of_end {endReason : CeremonyEndReason} {reason : Option LifecycleReason}
    {at_ : OffsetDateTime} (h : t.lifecycle_ = i.lifecycle_.end_ endReason reason at_) :
    t.isEnded = true := by
  have hend : t.lifecycle_.isEnded = true := by
    rw [h]
    rfl
  have hexplicit : t.lifecycle_.isExplicit = true := by
    rw [h]
    rfl
  unfold isEnded lifecycle
  cases t.completedAt with
  | none => exact hend
  | some at_ =>
    dsimp only
    rw [if_pos hexplicit]
    exact hend

/-- A completion is folded only while the stored lifecycle is as it was at the opening. -/
def CompletesUnchanged (i : CeremonyInstance) (e : CeremonyEvent) : Prop :=
  ∀ completed, e = .ceremonyCompleted completed → i.lifecycle_.isExplicit = false

theorem isEnded_of_isEnding (life : LifeStep d i e t) (unchanged : i.CompletesUnchanged e)
    (ending : e.isEnding = true) : t.isEnded = true := by
  cases life with
  | other quiet same =>
    cases e <;> simp [isEnding] at ending <;>
      simp [touchesLife] at quiet
  | completed completed admitted =>
    have hexplicit := unchanged completed rfl
    have hrunning : i.lifecycle_.isEnded = false := by
      have hadms := admitted.admits
      simp only [admitsNewWork, CeremonyLifecycle.admitsNewWork, Bool.and_eq_true,
        beq_iff_eq] at hadms
      simp [CeremonyLifecycle.isEnded, hadms.2]
    rw [isEnded_applyCeremonyCompleted completed hrunning, hexplicit]
    rfl
  | paused | resumed => simp [isEnding] at ending
  | cancelled | ceremonyDeadline | stateDeadline => exact isEnded_of_end (i := i) rfl

theorem isEnded_stays (admitted : Admitted d i e) (effects : Effects d i e t)
    (ended : i.isEnded = true) : t.isEnded = true ∧ e.needsLife = false := by
  have hnot : ∀ {p : Prop}, i.isEnded = false → p := fun h => by simp [ended] at h
  constructor
  · cases effects.life with
    | other quiet same => rwa [same.isEnded]
    | completed _ hadm => exact hnot hadm.notEnded
    | paused _ notEnded | resumed _ notEnded | cancelled _ notEnded
    | ceremonyDeadline _ notEnded | stateDeadline _ notEnded => exact hnot notEnded
  · cases e with
    | stepStarted e =>
      obtain ⟨step, record, hstart⟩ := admitted
      exact hnot hstart.active.notEnded
    | transitionApplied e =>
      obtain ⟨transition, destination, hmove⟩ := admitted
      exact hnot hmove.active.notEnded
    | ceremonyCompleted e => exact hnot admitted.notEnded
    | ceremonyPaused e | ceremonyResumed e => exact hnot admitted.2.1
    | ceremonyCancelled e => exact hnot admitted.2
    | ceremonyDeadlineExceeded e | stateDeadlineExceeded e => exact hnot admitted.2.1
    | _ => rfl

/-! ## Whole runs -/

/-- A command that completes the ceremony finds the stored lifecycle as it was at the opening: the
ceremony was never paused and resumed. -/
def completesUnchangedLifecycle (d : CeremonyDefinition) (i : CeremonyInstance) :
    CeremonyCommand → Bool
  | .applyTransition move =>
    match d.transitionForTrigger i.currentState move.trigger with
    | some transition => !d.isTerminalState transition.to_ || !i.lifecycle_.isExplicit
    | none => true
  | _ => true

end CeremonyInstance

open CeremonyInstance

variable {d : CeremonyDefinition} {opening : CeremonyOpening} {events : List CeremonyEvent}
  {i t : CeremonyInstance} {trace : List (CeremonyCommand × List CeremonyEvent)}

/-- The batch of a command that meets the condition completes on an unchanged lifecycle. -/
theorem completesUnchanged_sound (d : CeremonyDefinition) :
    (machine d).Sound (fun i c => i.completesUnchangedLifecycle d c = true ∧ i.DeadlinesKeyed)
      (fun i e => Admitted d i e ∧ i.CompletesUnchanged e) := by
  intro i command events t meets accepted folded
  have hpath := machine_sound d (fun i c => i.completesUnchangedLifecycle d c = true) i command
    events t meets
    accepted folded
  have heach := decide_each accepted
  by_cases hcompletes : ∃ completed, ceremonyCompleted completed ∈ events
  · obtain ⟨completed, hmem⟩ := hcompletes
    obtain ⟨move, rfl⟩ : ∃ move, command = .applyTransition move := by
      have hemits := (heach _ hmem).1
      cases command with
      | applyTransition move => exact ⟨move, rfl⟩
      | _ => simp [eventType, emits, resultTypes] at hemits
    have hunchanged : i.lifecycle_.isExplicit = false := by
      obtain ⟨e, transition, destination, hmove, -, htrigger, rfl⟩ :=
        decideApplyTransition_eq_ok accepted
      by_cases hterm : d.isTerminalState transition.to_ = true
      · have hmeets := meets.1
        have htr := hmove.transition_eq
        rw [htrigger] at htr
        simpa [completesUnchangedLifecycle, htr, hterm] using hmeets
      · simp [hterm] at hmem
    -- Neither the move nor the completion changes the stored lifecycle.
    have hstep : ∀ s e u, Admitted d s e ∧ e.eventType ∈ emits (.applyTransition move) →
        (machine d).apply s e = .ok u → s.lifecycle_.isExplicit = false →
        u.lifecycle_.isExplicit = false := by
      intro s e u hadm happ hs
      cases (effects_of_admitted hadm.1 happ).life with
      | other quiet same => rwa [same.lifecycle_]
      | completed => exact hs
      | _ => simp [eventType, emits] at hadm
    refine ((hpath.and_mem fun e he => (heach e he).1).strengthen hstep hunchanged).mono ?_
    exact fun s e h => ⟨h.1.1, fun _ _ => h.2⟩
  · refine (hpath.and_mem (P := fun e => ∀ completed, e ≠ .ceremonyCompleted completed) ?_).mono ?_
    · rintro e hmem completed rfl
      exact hcompletes ⟨completed, hmem⟩
    · exact fun s e h => ⟨h.1, fun completed heq => absurd heq (h.2 completed)⟩

/-- Along a path of such events, an ending that was folded leaves the session ended. -/
theorem isEnded_of_ending_mem {first : List CeremonyEvent}
    (path : (machine d).Path (fun i e => Admitted d i e ∧ i.CompletesUnchanged e) i first t)
    (ending : ∃ e ∈ first, e.isEnding = true) : t.isEnded = true := by
  have hstep : ∀ s e u seen, (Admitted d s e ∧ s.CompletesUnchanged e) →
      (machine d).apply s e = .ok u →
      ((∃ e' ∈ seen, isEnding e' = true) → s.isEnded = true) →
      (∃ e' ∈ seen ++ [e], isEnding e' = true) → u.isEnded = true := by
    intro s e u seen hadm happ hseen hending
    have heffects := effects_of_admitted hadm.1 happ
    obtain ⟨e', hmem, he'⟩ := hending
    rcases List.mem_append.mp hmem with hmem | hmem
    · exact (isEnded_stays hadm.1 heffects (hseen ⟨e', hmem, he'⟩)).1
    · rw [List.mem_singleton] at hmem
      subst hmem
      exact isEnded_of_isEnding heffects.life hadm.2 he'
  have hnil : (∃ e ∈ ([] : List CeremonyEvent), isEnding e = true) → i.isEnded = true := by simp
  have hinv := path.log_invariant hstep hnil
  rw [List.nil_append, Machine.log_stream path] at hinv
  exact hinv ending

theorem needsLife_of_isEnded {rest : List CeremonyEvent}
    (path : (machine d).Path (fun i e => Admitted d i e ∧ i.CompletesUnchanged e) i rest t)
    (ended : i.isEnded = true) : ∀ e ∈ rest, e.needsLife = false := by
  induction path with
  | nil => simp
  | cons allowed step _ ih =>
    obtain ⟨hend, hneeds⟩ :=
      isEnded_stays allowed.1 (effects_of_admitted allowed.1 step) ended
    rw [List.forall_mem_cons]
    exact ⟨hneeds, ih hend⟩

theorem length_filter_isEnding_le_one {first : List CeremonyEvent}
    (path : (machine d).Path (fun i e => Admitted d i e ∧ i.CompletesUnchanged e) i first t) :
    (first.filter (·.isEnding)).length ≤ 1 := by
  induction path with
  | nil => simp
  | @cons s u v e rest allowed step path ih =>
    by_cases hending : e.isEnding = true
    · have hend : u.isEnded = true := isEnded_of_isEnding
        (effects_of_admitted allowed.1 step).life allowed.2 hending
      have hnone : rest.filter (·.isEnding) = [] := by
        rw [List.filter_eq_nil_iff]
        intro e' hmem hending'
        have hneeds := needsLife_of_isEnded path hend e' hmem
        simp [needsLife, hending'] at hneeds
      rw [List.filter_cons_of_pos hending, hnone]
      simp
    · rw [List.filter_cons_of_neg hending]
      exact ih

/-- In a run whose completing moves find the stored lifecycle unchanged, a session in which an
ending was folded is ended, no later event needs it to live, and there is at most one ending. -/
theorem endings_are_final (opened : Opened d opening events i)
    (run : (machine d).Run (fun i c => i.completesUnchangedLifecycle d c = true) i trace t) :
    (∀ first rest s, Machine.stream trace = first ++ rest → i.applyAll first = .ok s →
      (∃ e ∈ first, e.isEnding = true) → s.isEnded = true ∧ ∀ e ∈ rest, e.needsLife = false) ∧
    ((Machine.stream trace).filter (·.isEnding)).length ≤ 1 := by
  have hpath := (opened.keyed_run run).path (completesUnchanged_sound d)
  refine ⟨?_, length_filter_isEnding_le_one hpath⟩
  intro first rest s hsplit hfolded hending
  rw [hsplit] at hpath
  obtain ⟨hfirst, hrest⟩ := hpath.split_of_fold (by rwa [machine_fold])
  have hend := isEnded_of_ending_mem hfirst hending
  exact ⟨hend, needsLife_of_isEnded hrest hend⟩

/-! ## A completion after a pause and a resume -/

def pauseAt (now : OffsetDateTime) : CeremonyCommand :=
  .pauseCeremony ⟨⟨"waiting", by decide⟩, now⟩

/-- The smallest ceremony runs to its end under the condition: it is completed and ended. -/
theorem plain_completion_is_final :
    ∃ (events : List CeremonyEvent) (i : CeremonyInstance)
      (trace : List (CeremonyCommand × List CeremonyEvent)) (t : CeremonyInstance),
      Opened oneMoveDefinition (openingOf oneMoveDefinition) events i ∧
      (machine oneMoveDefinition).Run
        (fun i c => i.completesUnchangedLifecycle oneMoveDefinition c = true) i trace t ∧
      t.completedAt.isSome = true ∧ ((Machine.stream trace).filter (·.isEnding)).length ≤ 1 := by
  obtain ⟨events, i, trace, t, hopened, hrun, hdone⟩ := exists_run_of_rehearse
    (openingOf oneMoveDefinition) [fun _ => moveAt ⟨"finish", by decide⟩ ⟨1, by decide⟩]
    (fun _ _ t => t.completedAt.isSome = true) (completesUnchangedLifecycle oneMoveDefinition)
    (by decide +kernel)
  have hfinal := endings_are_final (d := oneMoveDefinition) hopened hrun
  exact ⟨events, i, trace, t, hopened, hrun, hdone, hfinal.2⟩

/-- Paused, resumed and completed: the session is not ended, is paused again and is cancelled. -/
theorem resumed_completion_is_not_final :
    ∃ (events : List CeremonyEvent) (i : CeremonyInstance)
      (trace : List (CeremonyCommand × List CeremonyEvent)) (t : CeremonyInstance),
      Opened oneMoveDefinition (openingOf oneMoveDefinition) events i ∧
      (machine oneMoveDefinition).Run (fun _ _ => True) i trace t ∧
      (Machine.stream trace).map (·.eventType) =
        [.ceremonyPaused, .ceremonyResumed, .transitionApplied, .ceremonyCompleted] ∧
      t.isEnded = false ∧
      ((t.decide oneMoveDefinition (pauseAt ⟨4, by decide⟩)).toOption.map fun events =>
        events.map (·.eventType)) = some [.ceremonyPaused] ∧
      ((t.decide oneMoveDefinition (.cancelCeremony
          ⟨⟨"withdrawn", by decide⟩, ⟨4, by decide⟩⟩)).toOption.map fun events =>
        events.map (·.eventType)) = some [.ceremonyCancelled] :=
  exists_run_of_script (openingOf oneMoveDefinition)
    [fun _ => pauseAt ⟨1, by decide⟩, fun _ => .resumeCeremony ⟨2, by decide⟩,
      fun _ => moveAt ⟨"finish", by decide⟩ ⟨3, by decide⟩] _ (by decide +kernel)

end Made
