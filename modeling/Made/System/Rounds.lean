import Made.System.Advance

/-!
# Links of a run, replaced one after the other

Every change of a run replaces some of its links.  What a sweep over the compositions does to one
link depends on that link alone, so each sweep is described link by link.
-/

namespace Made

open Outcome Std ExtTreeMap CeremonyExecutionLink

namespace AgenticSystemExecution

variable {run run' : AgenticSystemExecution} {id other : SystemCeremonyId}
  {link : CeremonyExecutionLink} {now : OffsetDateTime}

/-! ## One link -/

theorem mem_ceremonies_iff : id ∈ run.ceremonies ↔ ∃ link, run.link id = some link := by
  rw [AgenticSystemExecution.link, ← Option.isSome_iff_exists,
    isSome_getElem?_eq_contains, contains_iff_mem]

theorem link_withLink (h : run.withLink id link now = .ok run') (other : SystemCeremonyId) :
    run'.link other = if other = id then some link else run.link other := by
  simp only [withLink, bind_eq_ok, pure_eq_ok] at h
  obtain ⟨-, -, rfl⟩ := h
  change (run.ceremonies.insert id link)[other]? = _
  split
  · rename_i heq
    rw [heq]
    exact getElem?_insert_self
  · rename_i hne
    exact Map.getElem?_insert_of_ne hne

theorem withLink_of_link {old : CeremonyExecutionLink} (h : run.link id = some old)
    (link : CeremonyExecutionLink) (now : OffsetDateTime) :
    ∃ run', run.withLink id link now = .ok run' ∧
      ∀ other, run'.link other = if other = id then some link else run.link other := by
  have hmem : id ∈ run.ceremonies := mem_ceremonies_iff.mpr ⟨old, h⟩
  obtain ⟨run', hrun'⟩ : ∃ run', run.withLink id link now = .ok run' :=
    ⟨_, by rw [withLink, require, if_pos hmem]; rfl⟩
  exact ⟨run', hrun', link_withLink hrun'⟩

/-! ## Sweeps -/

/-- Replace the links of some compositions, one after the other. -/
def relink (f : SystemCeremonyId → CeremonyExecutionLink → CeremonyExecutionLink)
    (now : AgenticSystemExecution → OffsetDateTime) (run : AgenticSystemExecution)
    (ids : List SystemCeremonyId) : Result AgenticSystemExecution :=
  ids.foldlM (fun run id => do
    let link ← okOr (run.link id) (.notFound "agentic_system_execution.ceremony")
    run.withLink id (f id link) (now run)) run

theorem link_relink (f : SystemCeremonyId → CeremonyExecutionLink → CeremonyExecutionLink)
    (now : AgenticSystemExecution → OffsetDateTime) {ids : List SystemCeremonyId}
    (hnd : ids.Nodup) (hlinked : ∀ id ∈ ids, ∃ link, run.link id = some link) :
    ∃ run', run.relink f now ids = .ok run' ∧
      ∀ other, run'.link other = (run.link other).map fun link =>
        if other ∈ ids then f other link else link := by
  induction ids generalizing run with
  | nil => exact ⟨run, rfl, fun other => by simp⟩
  | cons id rest ih =>
    rw [List.nodup_cons] at hnd
    obtain ⟨link, hlink⟩ := hlinked id List.mem_cons_self
    obtain ⟨next, hnext, hlinks⟩ := withLink_of_link hlink (f id link) (now run)
    have hrest : ∀ other ∈ rest, ∃ link, next.link other = some link := by
      intro other ho
      obtain ⟨old, hold⟩ := hlinked other (List.mem_cons_of_mem _ ho)
      rw [hlinks other]
      split
      · exact ⟨_, rfl⟩
      · exact ⟨old, hold⟩
    obtain ⟨run', hrun', hlinks'⟩ := ih hnd.2 hrest
    refine ⟨run', ?_, fun other => ?_⟩
    · rw [relink, List.foldlM_cons, hlink]
      simp only [okOr, ok_bind, hnext]
      exact hrun'
    · rw [hlinks' other, hlinks other]
      by_cases heq : other = id
      · subst heq
        simp [hlink, hnd.1]
      · simp [heq]

end AgenticSystemExecution

open AgenticSystemExecution

/-! ## Sweeps over what is ready -/

def AgenticSystem.blockers (system : AgenticSystem) (id : SystemCeremonyId) :
    List SystemCeremonyId :=
  (system.blockingDependencies id).getD []

namespace Advance

variable {system : AgenticSystem} {ceremony : SystemCeremonyId} {link : CeremonyExecutionLink}
    {now : OffsetDateTime}

/-- The compositions still to be begun are pending, wait for nothing that is not completed, and are
listed once each. -/
structure Startable (system : AgenticSystem) (run : AgenticSystemExecution)
    (ceremonies : List SystemCeremonyId) : Prop where
  nodup : ceremonies.Nodup
  pending : ∀ id ∈ ceremonies, ∃ link, run.link id = some link ∧ link.status = .pending
  unblocked : ∀ id ∈ ceremonies, ∀ other ∈ system.blockers id, run.isCompleted other = true

theorem isCompleted_of_unblocked {run : AgenticSystemExecution} {id : SystemCeremonyId}
    (h : run.unblocked system id = true) :
    ∀ other ∈ system.blockers id, run.isCompleted other = true := by
  rw [AgenticSystem.blockers]
  rw [AgenticSystemExecution.unblocked] at h
  cases hwaiting : system.blockingDependencies id with
  | none => simp
  | some waiting =>
    rw [hwaiting] at h
    exact List.all_eq_true.mp h

theorem startable_ready (system : AgenticSystem) (run : AgenticSystemExecution) :
    Startable system run (run.ready system) := by
  have hmem : ∀ id ∈ run.ready system, ∃ link, run.link id = some link ∧
      link.status = .pending ∧ run.unblocked system id = true := by
    intro id hid
    obtain ⟨⟨_, link⟩, hent, rfl⟩ := List.mem_map.mp hid
    obtain ⟨hlisted, hready⟩ := List.mem_filter.mp hent
    rw [Bool.and_eq_true, beq_iff_eq] at hready
    exact ⟨link, mem_toList_iff_getElem?_eq_some.mp hlisted, hready⟩
  refine ⟨?_, ?_, ?_⟩
  · refine (nodup_keys (t := run.ceremonies)).sublist ?_
    rw [← map_fst_toList_eq_keys]
    exact List.filter_sublist.map _
  · intro id hid
    obtain ⟨link, hlink, hpend, -⟩ := hmem id hid
    exact ⟨link, hlink, hpend⟩
  · intro id hid
    obtain ⟨-, -, -, hunblocked⟩ := hmem id hid
    exact isCompleted_of_unblocked hunblocked

theorem withLink_eq_ok {run run' : AgenticSystemExecution}
    (h : run.withLink ceremony link now = .ok run') :
    run'.ceremonies = run.ceremonies.insert ceremony link := by
  simp only [AgenticSystemExecution.withLink, bind_eq_ok, pure_eq_ok] at h
  obtain ⟨-, -, rfl⟩ := h
  rfl

/-- Beginning a composition leaves the others startable: it was not completed, so that nobody had
waited for it. -/
theorem Startable.step {run run' : AgenticSystemExecution} {rest : List SystemCeremonyId}
    (h : Startable system run (ceremony :: rest))
    (hlink : run.withLink ceremony link now = .ok run') : Startable system run' rest := by
  have ho {id : SystemCeremonyId} (hne : id ≠ ceremony) : run'.link id = run.link id := by
    rw [AgenticSystemExecution.link, AgenticSystemExecution.link, withLink_eq_ok hlink]
    exact Map.getElem?_insert_of_ne hne
  obtain ⟨hfresh, hnd⟩ := List.nodup_cons.mp h.nodup
  refine ⟨hnd, ?_, ?_⟩
  · intro id hid
    rw [ho (fun heq => hfresh (heq ▸ hid))]
    exact h.pending id (List.mem_cons_of_mem _ hid)
  · intro id hid other hblock
    have hdone := h.unblocked id (List.mem_cons_of_mem _ hid) other hblock
    have hne : other ≠ ceremony := by
      rintro rfl
      obtain ⟨pending, hpend, hs⟩ := h.pending other List.mem_cons_self
      rw [AgenticSystemExecution.isCompleted, hpend, Option.any_some, hs] at hdone
      cases hdone
    rw [AgenticSystemExecution.isCompleted, ho hne]
    exact hdone

/-! ## Links that wait for an instance -/

section Started

variable {run : AgenticSystemExecution}

theorem link_of_mem_startedLinks {entry : SystemCeremonyId × CeremonyId}
    (h : entry ∈ startedLinks run) :
    ∃ link, run.link entry.1 = some link ∧ link.status = .started ∧
      link.instanceId = some entry.2 := by
  obtain ⟨⟨id, link⟩, hmem, hent⟩ := List.mem_filterMap.mp h
  dsimp only at hent
  split at hent
  · rename_i hstarted
    rw [Option.map_eq_some_iff] at hent
    obtain ⟨instanceId, hinst, rfl⟩ := hent
    exact ⟨link, mem_toList_iff_getElem?_eq_some.mp hmem, hstarted, hinst⟩
  · cases hent

theorem mem_startedLinks {id : SystemCeremonyId} (h : run.link id = some link) :
    id ∈ (startedLinks run).map (·.1) ↔ link.status = .started ∧ link.instanceId.isSome = true := by
  constructor
  · intro hid
    obtain ⟨entry, hent, rfl⟩ := List.mem_map.mp hid
    obtain ⟨stored, hst, hstarted, hinst⟩ := link_of_mem_startedLinks hent
    cases Option.some.inj (h.symm.trans hst)
    exact ⟨hstarted, by rw [hinst]; rfl⟩
  · rintro ⟨hstarted, hinst⟩
    obtain ⟨instanceId, hinst⟩ := Option.isSome_iff_exists.mp hinst
    have hlisted : (id, link) ∈ run.ceremonies.toList :=
      mem_toList_iff_getElem?_eq_some.mpr h
    exact List.mem_map.mpr ⟨(id, instanceId),
      List.mem_filterMap.mpr ⟨(id, link), hlisted, by simp [hstarted, hinst]⟩, rfl⟩

theorem nodup_startedLinks (run : AgenticSystemExecution) :
    ((startedLinks run).map (·.1)).Nodup := by
  have hsub : ∀ entries : List (SystemCeremonyId × CeremonyExecutionLink),
      ((entries.filterMap fun entry =>
        if entry.2.status = .started then entry.2.instanceId.map fun i => (entry.1, i) else none).map
          (·.1)).Sublist (entries.map (·.1)) := by
    intro entries
    induction entries with
    | nil => exact .slnil
    | cons entry rest ih =>
      rw [List.filterMap_cons]
      split
      · exact ih.cons _
      · rename_i found hf
        have hid : found.1 = entry.1 := by
          split at hf
          · rw [Option.map_eq_some_iff] at hf
            obtain ⟨_, -, rfl⟩ := hf
            rfl
          · cases hf
        rw [List.map_cons, List.map_cons, hid]
        exact ih.cons_cons _
  refine (nodup_keys (t := run.ceremonies)).sublist ?_
  rw [← map_fst_toList_eq_keys]
  exact hsub run.ceremonies.toList

end Started

end Advance

/-! ## Rounds -/

theorem CeremonyExecutionLink.reopened_reopened (link : CeremonyExecutionLink) :
    link.reopened.reopened = link.reopened := rfl

section Cycles

variable {system : AgenticSystem} {members : List SystemCeremonyId} {id : SystemCeremonyId}

theorem AgenticSystem.mem_grow (h : id ∈ members) : id ∈ system.grow members := by
  unfold grow
  generalize system.ceremonies.toList = compositions
  induction compositions generalizing members with
  | nil => exact h
  | cons entry rest ih =>
    rw [List.foldl_cons]
    refine ih ?_
    rw [join]
    split
    · exact h
    · split
      · exact List.mem_append_left _ h
      · exact h

theorem AgenticSystem.mem_growAll (turns : Nat) (h : id ∈ members) :
    id ∈ system.growAll turns members := by
  induction turns generalizing members with
  | zero => exact h
  | succ turns ih =>
    rw [growAll]
    split
    · exact mem_grow h
    · exact ih (mem_grow h)

theorem mem_cycleOf_self {composition : CeremonyComposition}
    (h : system.ceremonies[id]? = some composition) : id ∈ cycleOf system id := by
  refine List.mem_filter.mpr ⟨?_, ?_⟩
  · rw [mem_keys, ← contains_iff_mem, ← isSome_getElem?_eq_contains, h]
    rfl
  · exact decide_eq_true (AgenticSystem.mem_growAll _ List.mem_cons_self)

end Cycles

section Reopening

variable {system : AgenticSystem} {now : OffsetDateTime} {run run' : AgenticSystemExecution}
  {entry : SystemCeremonyId × CeremonyComposition}

/-- Reopening always succeeds, and resets the links of the members. -/
theorem link_reopenAll (now : OffsetDateTime) (run : AgenticSystemExecution)
    (members : List SystemCeremonyId) :
    ∃ run', reopenAll now run members = .ok run' ∧
      ∀ other, run'.link other = (run.link other).map fun link =>
        if other ∈ members then link.reopened else link := by
  induction members generalizing run with
  | nil => exact ⟨run, rfl, fun other => by simp⟩
  | cons member rest ih =>
    cases hlink : run.link member with
    | none =>
      obtain ⟨run', hrun', hlinks⟩ := ih run
      refine ⟨run', ?_, fun other => ?_⟩
      · rw [reopenAll, List.foldlM_cons, hlink]
        exact hrun'
      · rw [hlinks other]
        by_cases heq : other = member
        · subst heq
          simp [hlink]
        · simp [heq]
    | some link =>
      obtain ⟨next, hnext, hlinks⟩ := withLink_of_link hlink link.reopened now
      obtain ⟨run', hrun', hlinks'⟩ := ih next
      refine ⟨run', ?_, fun other => ?_⟩
      · rw [reopenAll, List.foldlM_cons, hlink]
        simp only [hnext, ok_bind]
        exact hrun'
      · rw [hlinks' other, hlinks other]
        by_cases heq : other = member
        · subst heq
          simp [hlink, reopened_reopened]
        · simp [heq]

/-- The turn of one composition: a completed loop with rounds left takes its cycle along. -/
def turn (system : AgenticSystem) (now : OffsetDateTime) (run : AgenticSystemExecution)
    (entry : SystemCeremonyId × CeremonyComposition) : Result AgenticSystemExecution :=
  if goesRound run entry.1 entry.2 then reopenAll now run (cycleOf system entry.1) else .ok run

theorem reopen_eq_turns (run : AgenticSystemExecution) (system : AgenticSystem)
    (now : OffsetDateTime) :
    reopen run system now = system.ceremonies.toList.foldlM (turn system now) run := rfl

theorem link_turn (system : AgenticSystem) (now : OffsetDateTime) (run : AgenticSystemExecution)
    (entry : SystemCeremonyId × CeremonyComposition) :
    ∃ run', turn system now run entry = .ok run' ∧
      ∀ other, run'.link other = (run.link other).map fun link =>
        if goesRound run entry.1 entry.2 = true ∧ other ∈ cycleOf system entry.1 then link.reopened
        else link := by
  rw [turn]
  by_cases hgoes : goesRound run entry.1 entry.2 = true
  · obtain ⟨run', hrun', hlinks⟩ := link_reopenAll now run (cycleOf system entry.1)
    exact ⟨run', by rw [if_pos hgoes, hrun'], fun other => by simp [hlinks, hgoes]⟩
  · exact ⟨run, by rw [if_neg hgoes], fun other => by simp [hgoes]⟩

/-- Every link is as it was, or reset. -/
def SomeReopened (run run' : AgenticSystemExecution) : Prop :=
  ∀ other, run'.link other = run.link other ∨
    run'.link other = (run.link other).map CeremonyExecutionLink.reopened

theorem SomeReopened.refl (run : AgenticSystemExecution) : SomeReopened run run :=
  fun _ => .inl rfl

theorem SomeReopened.trans {mid : AgenticSystemExecution} (h : SomeReopened run mid)
    (h' : SomeReopened mid run') : SomeReopened run run' := by
  intro other
  rcases h' other with hsame | hreset
  · rw [hsame]
    exact h other
  · refine .inr ?_
    rcases h other with hsame' | hreset'
    · rw [hreset, hsame']
    · rw [hreset, hreset', Option.map_map]
      rfl

theorem someReopened_of_turn (h : turn system now run entry = .ok run') :
    SomeReopened run run' := by
  obtain ⟨next, hnext, hlinks⟩ := link_turn system now run entry
  rw [h] at hnext
  cases hnext
  intro other
  rw [hlinks other]
  split
  · exact .inr rfl
  · exact .inl Option.map_id'

/-- The turns of some compositions always succeed; when they reset anything, they reset a loop that
goes round to begin with. -/
theorem links_of_turns (run : AgenticSystemExecution)
    (entries : List (SystemCeremonyId × CeremonyComposition))
    (hentries : ∀ entry ∈ entries, system.ceremonies[entry.1]? = some entry.2) :
    ∃ run', entries.foldlM (turn system now) run = .ok run' ∧ SomeReopened run run' ∧
      ((∀ other, run'.link other = run.link other) ∨
        ∃ id composition, system.ceremonies[id]? = some composition ∧
          goesRound run id composition = true ∧
          run'.link id = (run.link id).map reopened) := by
  induction entries generalizing run with
  | nil => exact ⟨run, rfl, .refl run, .inl fun _ => rfl⟩
  | cons entry rest ih =>
    obtain ⟨id, composition⟩ := entry
    obtain ⟨hent, hrest⟩ := List.forall_mem_cons.mp hentries
    obtain ⟨next, hnext, hlinks⟩ := link_turn system now run (id, composition)
    obtain ⟨run', hrun', hreopened, hcases⟩ := ih next hrest
    refine ⟨run', ?_, (someReopened_of_turn hnext).trans hreopened, ?_⟩
    · rw [List.foldlM_cons, hnext]
      exact hrun'
    · by_cases hgoes : goesRound run id composition = true
      · -- The loop takes itself along, and stays reset whatever the later turns do.
        refine .inr ⟨id, composition, hent, hgoes, ?_⟩
        have hid : next.link id = (run.link id).map reopened := by
          rw [hlinks id]
          simp [hgoes, mem_cycleOf_self hent]
        rcases hreopened id with hsame | hreset
        · rw [hsame, hid]
        · rw [hreset, hid, Option.map_map]
          rfl
      · have hsame : ∀ other, next.link other = run.link other := fun other => by
          simp [hlinks other, hgoes]
        refine hcases.imp (fun h other => (h other).trans (hsame other)) ?_
        rintro ⟨loop, looping, hloop, hround, hreset⟩
        refine ⟨loop, looping, hloop, ?_, by rw [hreset, hsame]⟩
        rw [goesRound, ← hsame loop]
        exact hround

theorem reopen_links (run : AgenticSystemExecution) (system : AgenticSystem)
    (now : OffsetDateTime) :
    ∃ run', reopen run system now = .ok run' ∧ SomeReopened run run' ∧
      ((∀ other, run'.link other = run.link other) ∨
        ∃ id composition, system.ceremonies[id]? = some composition ∧
          goesRound run id composition = true ∧
          run'.link id = (run.link id).map reopened) := by
  rw [reopen_eq_turns]
  exact links_of_turns run _ fun entry hent =>
    mem_toList_iff_getElem?_eq_some.mp hent

end Reopening

end Made
