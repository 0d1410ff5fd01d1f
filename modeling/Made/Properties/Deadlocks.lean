import Made.Library.Waiting
import Made.Properties.SystemRuns
import Mathlib.Algebra.Order.BigOperators.Group.Finset

/-!
# Compositions that wait for each other

The analysis of a design admits a cycle of dependencies when one of its members is a bounded loop.
In a run only the dependency of the anchor of a loop on the loop itself is cut, so a cycle that does
not pass such a dependency stays closed, whatever other loops it meets.
-/

namespace Made

open Interleaving Outcome CeremonyExecutionLink Std.ExtTreeMap Option

/-! ## What waits for what -/

namespace AgenticSystem

variable (system : AgenticSystem) {other : SystemCeremonyId}

def DependsOn (id other : SystemCeremonyId) : Prop :=
  ∃ composition, system.ceremonies[id]? = some composition ∧ other ∈ composition.dependsOn

/-- The dependency of the anchor of a loop on the loop. -/
def WayBack (id other : SystemCeremonyId) : Prop := (id, other) ∈ system.backEdges

def Blocks (id other : SystemCeremonyId) : Prop := other ∈ system.blockers id

/-- Every closed walk of dependencies passes the way back of a loop. -/
def LoopsCutCycles : Prop :=
  ∀ id walk, Waiting.Walk system.DependsOn id id walk →
    ∃ e ∈ Waiting.edges walk, system.WayBack e.1 e.2

variable {system} {id : SystemCeremonyId}

theorem blocks_iff :
    system.Blocks id other ↔ system.DependsOn id other ∧ ¬ system.WayBack id other := by
  rw [Blocks, blockers, blockingDependencies, DependsOn, WayBack]
  cases system.ceremonies[id]? with
  | none | some composition => simp

theorem acyclic_iff_loopsCutCycles : Waiting.Acyclic system.Blocks ↔ system.LoopsCutCycles := by
  have hblock : system.Blocks = fun id other =>
      system.DependsOn id other ∧ ¬ system.WayBack id other := by
    funext id other
    exact propext blocks_iff
  rw [hblock]
  exact Waiting.acyclic_cut_iff

theorem composed_of_blocks (h : system.Blocks id other) :
    ∃ composition, system.ceremonies[id]? = some composition := by
  obtain ⟨⟨composition, hcompn, -⟩, -⟩ := blocks_iff.mp h
  exact ⟨composition, hcompn⟩

theorem refuseUnless_eq_nil {passes : Bool} {locus : AgenticSystemValidationLocus}
    {reason : String} : refuseUnless passes locus reason = [] ↔ passes = true := by
  cases passes <;> simp [refuseUnless]

/-- An accepted design composes everything that it waits for. -/
theorem blocked_is_composed (h : system.dependencies = []) (hblock : system.Blocks id other) :
    ∃ composition, system.ceremonies[other]? = some composition := by
  obtain ⟨⟨composition, hcompn, hmem⟩, -⟩ := blocks_iff.mp hblock
  simp only [dependencies, List.append_eq_nil_iff] at h
  have hnamed := h.1.1.1.1
  simp only [namedPredecessorsExist, List.flatMap_eq_nil_iff, refuseUnless_eq_nil] at hnamed
  have hcontains := hnamed (id, composition)
    (mem_toList_iff_getElem?_eq_some.mpr hcompn) other (by
      rw [CeremonyComposition.predecessors, OrderedSets.mem_listed]
      exact List.mem_append_left _ hmem)
  rw [← isSome_getElem?_eq_contains] at hcontains
  exact isSome_iff_exists.mp hcontains

end AgenticSystem

/-! ## Rounds -/

namespace Rounds

variable {g : SystemCeremonyId → CeremonyExecutionLink → CeremonyExecutionLink}
    {link : CeremonyExecutionLink}

section

variable (instance_ : SystemCeremonyId → LoopRound → CeremonyId) (now : OffsetDateTime)
  (system : AgenticSystem)

def completeStarted (run : AgenticSystemExecution) : Result AgenticSystemExecution :=
  run.relink (fun _ link => link.settled .completed) (·.updatedAt)
    ((Advance.startedLinks run).map (·.1))

def startReady (run : AgenticSystemExecution) : Result AgenticSystemExecution :=
  run.relink (fun id link => link.started (instance_ id link.round.next) link.round.next)
    (fun _ => now) (run.ready system)

/-- What was started completes and what is ready starts; where loops are sent round again, what is
ready then starts as well. -/
def round (again : Bool) (run : AgenticSystemExecution) : Result AgenticSystemExecution := do
  let run ← completeStarted run
  let run ← startReady instance_ now system run
  if again then do
    let run ← reopen run system now
    startReady instance_ now system run
  else
    pure run

/-- Round after round; it may be said of each round whether loops are sent back in it. -/
def run : Nat → (Nat → Bool) → AgenticSystemExecution → Result AgenticSystemExecution
  | 0, _, start => .ok start
  | n + 1, again, start => do
    let next ← round instance_ now system (again 0) start
    run n (fun k => again (k + 1)) next

end

def EverythingStarted (system : AgenticSystem) (run : AgenticSystemExecution) : Prop :=
  ∀ (id : SystemCeremonyId) (composition : CeremonyComposition),
    system.ceremonies[id]? = some composition → ∃ link, run.link id = some link ∧ 1 ≤ link.round.val

/-! ## Links in a run where everything completes -/

/-- A link is pending, or was started at least once and is started or completed. -/
def Moving (link : CeremonyExecutionLink) : Prop :=
  link.status = .pending ∨ 1 ≤ link.round.val ∧
      (link.status = .started ∧ link.instanceId.isSome = true ∨ link.status = .completed)

/-- A run of a design in which nothing failed and nothing was skipped. -/
structure Live (system : AgenticSystem) (run : AgenticSystemExecution) : Prop where
  domain : ∀ id, (run.link id).isSome = (system.ceremonies[id]?).isSome
  moving : ∀ id link, run.link id = some link → Moving link

theorem one_le_next (round : LoopRound) : 1 ≤ round.next.val := by
  simp only [LoopRound.next, u32Max]
  omega

variable {instance_ : SystemCeremonyId → LoopRound → CeremonyId} {now : OffsetDateTime}
  {system : AgenticSystem} {start next : AgenticSystemExecution} {id : SystemCeremonyId}

theorem Live.of_links (h : Live system start)
    (hlinks : ∀ id, next.link id = (start.link id).map (g id))
    (hmoving : ∀ id link, start.link id = some link → Moving link → Moving (g id link)) :
    Live system next := by
  refine ⟨fun id => ?_, fun id link hlink => ?_⟩
  · rw [hlinks id, isSome_map, h.domain id]
  · rw [hlinks id, map_eq_some_iff] at hlink
    obtain ⟨old, hold, rfl⟩ := hlink
    exact hmoving id old hold (h.moving id old hold)

/-! ### Completing -/

def completed (link : CeremonyExecutionLink) : CeremonyExecutionLink :=
  if link.status = .started ∧ link.instanceId.isSome = true then link.settled .completed else link

theorem links_completeStarted (start : AgenticSystemExecution) :
    ∃ next, completeStarted start = .ok next ∧
      ∀ id, next.link id = (start.link id).map completed := by
  obtain ⟨next, hnext, hlinks⟩ := AgenticSystemExecution.link_relink
    (fun _ link => link.settled .completed) (·.updatedAt)
    (Advance.nodup_startedLinks start) fun id hid => by
      obtain ⟨entry, hent, rfl⟩ := List.mem_map.mp hid
      obtain ⟨link, hlink, -⟩ := Advance.link_of_mem_startedLinks hent
      exact ⟨link, hlink⟩
  refine ⟨next, hnext, fun id => ?_⟩
  rw [hlinks id]
  cases hlink : start.link id with
  | none => rfl
  | some link =>
    rw [map_some, map_some, completed]
    simp only [Advance.mem_startedLinks hlink]

theorem moving_completed (h : Moving link) :
    Moving (completed link) ∧ (completed link).status ≠ .started := by
  rw [completed]
  rcases h with hpend | ⟨hround, ⟨hstarted, hinst⟩ | hdone⟩
  · simp [Moving, hpend]
  · simp [Moving, hstarted, hinst, settled, hround]
  · simp [Moving, hdone, hround]

theorem Live.completeStarted (h : Live system start)
    (hlinks : ∀ id, next.link id = (start.link id).map completed) :
    Live system next ∧ ∀ id link, next.link id = some link → link.status ≠ .started := by
  refine ⟨h.of_links hlinks fun id link _ hmoving => (moving_completed hmoving).1, ?_⟩
  intro id link hlink
  rw [hlinks id, map_eq_some_iff] at hlink
  obtain ⟨old, hold, rfl⟩ := hlink
  exact (moving_completed (h.moving id old hold)).2

/-! ### Starting -/

theorem mem_ready (h : start.link id = some link) :
    id ∈ start.ready system ↔ link.status = .pending ∧
      ∀ other, system.Blocks id other → start.isCompleted other = true := by
  have hunblocked : start.unblocked system id = true ↔
      ∀ other, system.Blocks id other → start.isCompleted other = true := by
    simp only [AgenticSystem.Blocks, AgenticSystem.blockers, AgenticSystemExecution.unblocked]
    cases system.blockingDependencies id with
    | none => simp
    | some waiting => simp [List.all_eq_true]
  simp only [AgenticSystemExecution.ready, List.mem_map, List.mem_filter, Bool.and_eq_true,
    beq_iff_eq, ← hunblocked]
  constructor
  · rintro ⟨⟨_, stored⟩, ⟨hmem, hready⟩, rfl⟩
    have hst := mem_toList_iff_getElem?_eq_some.mp hmem
    rw [AgenticSystemExecution.link, hst] at h
    cases h
    exact hready
  · intro hready
    exact ⟨(id, link), ⟨mem_toList_iff_getElem?_eq_some.mpr h, hready⟩, rfl⟩

def startedIn (instance_ : SystemCeremonyId → LoopRound → CeremonyId) (system : AgenticSystem)
    (start : AgenticSystemExecution) (id : SystemCeremonyId) (link : CeremonyExecutionLink) :
    CeremonyExecutionLink :=
  if id ∈ start.ready system then link.started (instance_ id link.round.next) link.round.next
  else link

theorem links_startReady (instance_ : SystemCeremonyId → LoopRound → CeremonyId)
    (now : OffsetDateTime) (system : AgenticSystem) (start : AgenticSystemExecution) :
    ∃ next, startReady instance_ now system start = .ok next ∧
      ∀ id, next.link id = (start.link id).map (startedIn instance_ system start id) := by
  have hstartable := Advance.startable_ready system start
  have hlinked : ∀ id ∈ start.ready system, ∃ link, start.link id = some link := by
    intro id hid
    obtain ⟨link, hlink, -⟩ := hstartable.pending id hid
    exact ⟨link, hlink⟩
  exact AgenticSystemExecution.link_relink _ _ hstartable.nodup hlinked

theorem Live.startReady (h : Live system start)
    (hlinks : ∀ id, next.link id = (start.link id).map (startedIn instance_ system start id)) :
    Live system next := by
  refine h.of_links hlinks fun id link _ hmoving => ?_
  rw [startedIn]
  split
  · exact .inr ⟨one_le_next _, .inl ⟨rfl, rfl⟩⟩
  · exact hmoving

theorem Live.reopen (h : Live system start) (hreopened : SomeReopened start next) :
    Live system next := by
  refine ⟨fun id => ?_, fun id link hlink => ?_⟩
  · rcases hreopened id with hsame | hreset
    · rw [hsame, h.domain id]
    · rw [hreset, isSome_map, h.domain id]
  · rcases hreopened id with hsame | hreset
    · rw [hsame] at hlink
      exact h.moving id link hlink
    · rw [hreset, map_eq_some_iff] at hlink
      obtain ⟨old, -, rfl⟩ := hlink
      exact .inl rfl

/-! ## What is left to do -/

/-- A weight of the links, summed over the compositions of the design. -/
def total (system : AgenticSystem) (w : SystemCeremonyId → CeremonyExecutionLink → Nat)
    (run : AgenticSystemExecution) : Nat :=
  ∑ id ∈ system.ceremonies.keys.toFinset, ((run.link id).map (w id)).getD 0

section Total

variable {w : SystemCeremonyId → CeremonyExecutionLink → Nat}
  {g : SystemCeremonyId → CeremonyExecutionLink → CeremonyExecutionLink}

section

variable (hlinks : ∀ id, next.link id = (start.link id).map (g id))
  (hle : ∀ id link, start.link id = some link → w id (g id link) ≤ w id link)
include hlinks hle

theorem weight_le (id : SystemCeremonyId) :
    ((next.link id).map (w id)).getD 0 ≤ ((start.link id).map (w id)).getD 0 := by
  rw [hlinks id]
  cases hlink : start.link id with
  | none => exact Nat.le_refl _
  | some link => exact hle id link hlink

theorem total_le : total system w next ≤ total system w start :=
  Finset.sum_le_sum fun id _ => weight_le hlinks hle id

theorem total_lt {composition : CeremonyComposition}
    (hcomp : system.ceremonies[id]? = some composition) (hlink : start.link id = some link)
    (hlt : w id (g id link) < w id link) : total system w next < total system w start := by
  refine Finset.sum_lt_sum (fun id _ => weight_le hlinks hle id) ⟨id, ?_, ?_⟩
  · rw [List.mem_toFinset, mem_keys, ← contains_iff_mem, ← isSome_getElem?_eq_contains, hcomp]
    rfl
  · rw [hlinks id, hlink]
    exact hlt

end

end Total

/-- How far a link is from being completed. -/
def stage (_ : SystemCeremonyId) (link : CeremonyExecutionLink) : Nat :=
  match link.status with
  | .pending => 2
  | .started => 1
  | _ => 0

/-- How often a loop can still be started or sent round, counted twice for each round. -/
def roundsLeft (system : AgenticSystem) (id : SystemCeremonyId) (link : CeremonyExecutionLink) :
    Nat :=
  match system.ceremonies[id]?.bind (·.activation.maxRounds) with
  | none => 0
  | some bound =>
    if link.round.val < bound.val then
      2 * (bound.val - link.round.val) + if link.status = .pending then 0 else 1
    else 0

theorem stage_completed (id : SystemCeremonyId) (link : CeremonyExecutionLink) :
    stage id (completed link) ≤ stage id link := by
  rw [completed]
  split
  · simp [stage, settled]
  · exact Nat.le_refl _

theorem roundsLeft_completed (id : SystemCeremonyId) (link : CeremonyExecutionLink) :
    roundsLeft system id (completed link) ≤ roundsLeft system id link := by
  rw [completed]
  split
  · rename_i hstarted
    simp [roundsLeft, settled, hstarted.1]
  · exact Nat.le_refl _

theorem stage_startedIn (h : start.link id = some link) :
    stage id (startedIn instance_ system start id link) ≤ stage id link := by
  rw [startedIn]
  split
  · rename_i hready
    simp [stage, started, ((mem_ready h).mp hready).1]
  · exact Nat.le_refl _

theorem roundsLeft_started (hpend : link.status = .pending) (instanceId : CeremonyId) :
    roundsLeft system id (link.started instanceId link.round.next) ≤ roundsLeft system id link := by
  simp only [roundsLeft, started, hpend]
  cases system.ceremonies[id]?.bind (·.activation.maxRounds) with
  | none => exact Nat.le_refl _
  | some bound =>
    have hbound : bound.val ≤ 100 := bound.le_max
    have hnext : link.round.next.val = min (link.round.val + 1) u32Max := rfl
    simp only [hnext, u32Max, reduceIte, reduceCtorEq]
    split <;> split <;> omega

theorem roundsLeft_startedIn (h : start.link id = some link) :
    roundsLeft system id (startedIn instance_ system start id link) ≤
      roundsLeft system id link := by
  rw [startedIn]
  split
  · rename_i hready
    exact roundsLeft_started ((mem_ready h).mp hready).1 _
  · exact Nat.le_refl _

theorem roundsLeft_reopened (id : SystemCeremonyId) (link : CeremonyExecutionLink) :
    roundsLeft system id link.reopened ≤ roundsLeft system id link := by
  simp only [roundsLeft, reopened]
  split
  · exact Nat.le_refl _
  · split
    · simp
    · exact Nat.le_refl _

/-- Sending a completed loop round again is counted as well. -/
theorem roundsLeft_of_goesRound {composition : CeremonyComposition}
    (hcomp : system.ceremonies[id]? = some composition) (hlink : start.link id = some link)
    (hgoes : goesRound start id composition = true) :
    roundsLeft system id link.reopened < roundsLeft system id link := by
  simp only [goesRound, hlink] at hgoes
  simp only [roundsLeft, hcomp, bind_some, reopened]
  cases hbound : composition.activation.maxRounds with
  | none =>
    rw [hbound] at hgoes
    cases hgoes
  | some bound =>
    simp only [hbound, Bool.and_eq_true, beq_iff_eq, Bool.not_eq_true', LoopRound.isExhausted,
      decide_eq_false_iff_not, Nat.not_le] at hgoes
    simp [hgoes.1, hgoes.2]

/-- Sending loops round never gives a loop more rounds; when a loop goes round, one has fewer. -/
theorem total_reopened (hreopened : SomeReopened start next) :
    total system (roundsLeft system) next ≤ total system (roundsLeft system) start ∧
      ∀ id composition, system.ceremonies[id]? = some composition →
        goesRound start id composition = true →
        next.link id = (start.link id).map reopened →
        total system (roundsLeft system) next < total system (roundsLeft system) start := by
  let g : SystemCeremonyId → CeremonyExecutionLink → CeremonyExecutionLink := fun id link =>
    if next.link id = (start.link id).map reopened then link.reopened else link
  have hlinks : ∀ id, next.link id = (start.link id).map (g id) := by
    intro id
    by_cases hreset : next.link id = (start.link id).map reopened
    · simp only [g, hreset, if_true]
    · rcases hreopened id with hsame | hreset'
      · simp only [g, hreset, if_false, map_id']
        exact hsame
      · exact absurd hreset' hreset
  have hle : ∀ id link, start.link id = some link →
      roundsLeft system id (g id link) ≤ roundsLeft system id link := by
    intro id link _
    simp only [g]
    split
    · exact roundsLeft_reopened id link
    · exact Nat.le_refl _
  refine ⟨total_le hlinks hle, fun id composition hcomp hgoes hreset => ?_⟩
  cases hlink : start.link id with
  | none =>
    rw [goesRound, hlink] at hgoes
    split at hgoes <;> simp_all
  | some link =>
    refine total_lt hlinks hle hcomp hlink ?_
    simp only [g, hreset, if_true]
    exact roundsLeft_of_goesRound hcomp hlink hgoes

/-! ## One round -/

/-- Of the compositions of an accepted design that are still pending one is ready, when nothing is
running and nobody waits for itself. -/
theorem exists_ready (hacyc : Waiting.Acyclic system.Blocks)
    (hcl : ∀ id other, system.Blocks id other →
      ∃ composition, system.ceremonies[other]? = some composition) (h : Live system start)
    (hidle : ∀ id link, start.link id = some link → link.status ≠ .started)
    (hlink : start.link id = some link) (hpend : link.status = .pending) :
    ∃ free composition waiting, system.ceremonies[free]? = some composition ∧
      start.link free = some waiting ∧ waiting.status = .pending ∧ free ∈ start.ready system := by
  let pending := system.ceremonies.keys.toFinset.filter fun id =>
    (start.link id).any fun link => link.status = .pending
  have hmem : ∀ id link, start.link id = some link → link.status = .pending → id ∈ pending := by
    intro id link hlink hpend
    have hdomain := h.domain id
    rw [hlink] at hdomain
    refine Finset.mem_filter.mpr ⟨?_, by simp [hlink, hpend]⟩
    rw [List.mem_toFinset, mem_keys, ← contains_iff_mem, ← isSome_getElem?_eq_contains, ← hdomain]
    rfl
  obtain ⟨free, hfree, hnone⟩ := hacyc.exists_free ⟨id, hmem id link hlink hpend⟩
  obtain ⟨hkey, hany⟩ := Finset.mem_filter.mp hfree
  obtain ⟨waiting, hwaiting, hs⟩ := (any_eq_true _ _).mp hany
  have hs := of_decide_eq_true hs
  have hdomain := h.domain free
  rw [hwaiting, isSome_some] at hdomain
  obtain ⟨composition, hcompn⟩ := isSome_iff_exists.mp hdomain.symm
  refine ⟨free, composition, waiting, hcompn, hwaiting, hs,
    (mem_ready hwaiting).mpr ⟨hs, fun other hblock => ?_⟩⟩
  -- What it waits for is composed, not pending and not running, so it is completed.
  obtain ⟨_, ho⟩ := hcl free other hblock
  have hdomain := h.domain other
  rw [ho, isSome_some] at hdomain
  obtain ⟨blocker, hblocker⟩ := isSome_iff_exists.mp hdomain
  rcases h.moving other blocker hblocker with hpend | ⟨-, ⟨hstarted, -⟩ | hdone⟩
  · exact absurd hblock (hnone other (hmem other blocker hblocker hpend))
  · exact absurd hstarted (hidle other blocker hblocker)
  · rw [AgenticSystemExecution.isCompleted, hblocker, any_some, hdone]
    rfl

/-- What one round does: it goes on, and less is left to do unless everything was started. -/
structure Progress (system : AgenticSystem) (start next : AgenticSystemExecution) : Prop where
  live : Live system next
  rounds : total system (roundsLeft system) next ≤ total system (roundsLeft system) start
  less : Waiting.Acyclic system.Blocks → (∀ id other, system.Blocks id other →
      ∃ composition, system.ceremonies[other]? = some composition) →
    (∃ id link, start.link id = some link ∧ link.round.val = 0) →
    total system (roundsLeft system) next < total system (roundsLeft system) start ∨
      total system stage next < total system stage start

theorem round_progress (instance_ : SystemCeremonyId → LoopRound → CeremonyId)
    (now : OffsetDateTime) (h : Live system start) (again : Bool) :
    ∃ next, round instance_ now system again start = .ok next ∧ Progress system start next := by
  obtain ⟨done, hdone, hdoneLinks⟩ := links_completeStarted start
  obtain ⟨hlive, hidle⟩ := h.completeStarted hdoneLinks
  obtain ⟨begun, hbegun, hbegunLinks⟩ := links_startReady instance_ now system done
  have hlive' := hlive.startReady hbegunLinks
  have hrounds : total system (roundsLeft system) begun ≤ total system (roundsLeft system) start :=
    (total_le hbegunLinks fun id link hlink => roundsLeft_startedIn hlink).trans
      (total_le hdoneLinks fun id link _ => roundsLeft_completed id link)
  -- The first sweep starts something as long as a composition was never started.
  have hless : Waiting.Acyclic system.Blocks → (∀ id other, system.Blocks id other →
      ∃ composition, system.ceremonies[other]? = some composition) →
      (∃ id link, start.link id = some link ∧ link.round.val = 0) →
      total system stage begun < total system stage start := by
    rintro hacyc hcl ⟨id, link, hlink, hround⟩
    have hpend : link.status = .pending := by
      rcases h.moving id link hlink with hpend | ⟨hstarted, -⟩
      · exact hpend
      · omega
    have hdoneLink : done.link id = some link := by
      rw [hdoneLinks id, hlink, map_some, completed]
      simp [hpend]
    obtain ⟨free, composition, waiting, hcomp, hwaiting, hs, hready⟩ :=
      exists_ready hacyc hcl hlive hidle hdoneLink hpend
    refine lt_of_lt_of_le (total_lt hbegunLinks (fun id link hlink => stage_startedIn hlink)
      hcomp hwaiting ?_) (total_le hdoneLinks fun id link _ => stage_completed id link)
    rw [startedIn, if_pos hready]
    simp [stage, started, hs]
  cases again with
  | false =>
    refine ⟨begun, ?_, hlive', hrounds, fun hacyc hcl hopen =>
      .inr (hless hacyc hcl hopen)⟩
    simp only [round, hdone, hbegun, ok_bind, Bool.false_eq_true, if_false]
    rfl
  | true =>
    obtain ⟨back, hback, hreopened, hcases⟩ := reopen_links begun system now
    obtain ⟨next, hnext, hnextLinks⟩ := links_startReady instance_ now system back
    have hlast : total system (roundsLeft system) next ≤ total system (roundsLeft system) back :=
      total_le hnextLinks fun id link hlink => roundsLeft_startedIn hlink
    refine ⟨next, ?_, (hlive'.reopen hreopened).startReady hnextLinks, ?_, ?_⟩
    · simp only [round, hdone, hbegun, hback, ok_bind, if_true]
      exact hnext
    · exact hlast.trans ((total_reopened hreopened).1.trans hrounds)
    · intro hacyc hcl hopen
      rcases hcases with hsame | ⟨id, composition, hcomp, hgoes, hreset⟩
      · refine .inr (lt_of_le_of_lt (b := total system stage begun) ?_ (hless hacyc hcl hopen))
        have hback' : total system stage back = total system stage begun := by
          simp only [total, hsame]
        rw [← hback']
        exact total_le hnextLinks fun id link hlink => stage_startedIn hlink
      · exact .inl (lt_of_le_of_lt hlast (lt_of_lt_of_le
          ((total_reopened hreopened).2 id composition hcomp hgoes hreset) hrounds))

/-! ## All rounds -/

/-- Where nobody waits for itself, everything is started in the end. -/
theorem everything_starts (hacyc : Waiting.Acyclic system.Blocks)
    (hcl : ∀ id other, system.Blocks id other →
      ∃ composition, system.ceremonies[other]? = some composition)
    (h : Live system start) (again : Nat → Bool) :
    ∃ n last, run instance_ now system n again start = .ok last ∧
      EverythingStarted system last := by
  -- The rounds that loops have left decide first, the stages of the links second.
  induction hr : total system (roundsLeft system) start using Nat.strong_induction_on
    generalizing start again with
  | h rounds ihr =>
    induction hs : total system stage start using Nat.strong_induction_on
      generalizing start again with
    | h stages ihs =>
      by_cases hopen : ∃ id link, start.link id = some link ∧ link.round.val = 0
      · obtain ⟨next, hnext, hprog⟩ := round_progress instance_ now h (again 0)
        have hgoal : ∃ n last, run instance_ now system n (fun k => again (k + 1)) next =
            .ok last ∧ EverythingStarted system last := by
          rcases Nat.lt_or_eq_of_le (hr ▸ hprog.rounds) with hlt | heq
          · exact ihr _ hlt hprog.live _ rfl
          · rcases hprog.less hacyc hcl hopen with hlt | hlt
            · omega
            · exact ihs _ (hs ▸ hlt) hprog.live _ heq rfl
        obtain ⟨n, last, hlast, hall⟩ := hgoal
        refine ⟨n + 1, last, ?_, hall⟩
        rw [run, hnext]
        exact hlast
      · refine ⟨0, start, rfl, fun id composition hcomp => ?_⟩
        have hdomain := h.domain id
        rw [hcomp, isSome_some] at hdomain
        obtain ⟨link, hlink⟩ := isSome_iff_exists.mp hdomain
        refine ⟨link, hlink, ?_⟩
        by_contra hzero
        exact hopen ⟨id, link, hlink, by omega⟩

/-- Whoever waits for itself has not been started. -/
def Stuck (system : AgenticSystem) (run : AgenticSystemExecution) : Prop :=
  ∀ id, Relation.TransGen system.Blocks id id → ∀ link, run.link id = some link →
    link.status = .pending ∧ link.round.val = 0

section

variable (h : Stuck system start)
include h

theorem Stuck.of_links (hlinks : ∀ id, next.link id = (start.link id).map (g id))
    (hkeeps : ∀ id link, Relation.TransGen system.Blocks id id → start.link id = some link →
      link.status = .pending → (g id link).status = .pending ∧ (g id link).round = link.round) :
    Stuck system next := by
  intro id hcycle link hlink
  rw [hlinks id, map_eq_some_iff] at hlink
  obtain ⟨old, hold, rfl⟩ := hlink
  obtain ⟨hpend, hround⟩ := h id hcycle old hold
  obtain ⟨hpending', hround'⟩ := hkeeps id old hcycle hold hpend
  exact ⟨hpending', by rw [hround', hround]⟩

theorem Stuck.startReady (hlive : Live system start)
    (hlinks : ∀ id, next.link id = (start.link id).map (startedIn instance_ system start id)) :
    Stuck system next := by
  refine h.of_links hlinks fun id link hcycle hlink hpend => ?_
  have hblocked : id ∉ start.ready system := by
    intro hready
    -- The next one of its cycle is pending, so it is not completed.
    obtain ⟨other, hblock, hrest⟩ := Relation.TransGen.head'_iff.mp hcycle
    have ho : Relation.TransGen system.Blocks other other :=
      Relation.TransGen.tail' hrest hblock
    obtain ⟨_, hcomp⟩ : ∃ composition, system.ceremonies[other]? = some composition := by
      obtain ⟨_, hnext, -⟩ := Relation.TransGen.head'_iff.mp ho
      exact AgenticSystem.composed_of_blocks hnext
    have hdomain := hlive.domain other
    rw [hcomp, isSome_some] at hdomain
    obtain ⟨waiting, hwaiting⟩ := isSome_iff_exists.mp hdomain
    have hdone := ((mem_ready hlink).mp hready).2 other hblock
    rw [AgenticSystemExecution.isCompleted, hwaiting, any_some,
      (h other ho waiting hwaiting).1] at hdone
    cases hdone
  rw [startedIn, if_neg hblocked]
  exact ⟨hpend, rfl⟩

theorem Stuck.reopen (hreopened : SomeReopened start next) : Stuck system next := by
  intro id hcycle link hlink
  rcases hreopened id with hsame | hreset
  · rw [hsame] at hlink
    exact h id hcycle link hlink
  · rw [hreset, map_eq_some_iff] at hlink
    obtain ⟨old, hold, rfl⟩ := hlink
    exact ⟨rfl, (h id hcycle old hold).2⟩

theorem Stuck.round (hlive : Live system start) {again : Bool}
    (hround : round instance_ now system again start = .ok next) : Stuck system next := by
  obtain ⟨done, hdone, hdoneLinks⟩ := links_completeStarted start
  have hstuck : Stuck system done := h.of_links hdoneLinks fun id link _ _ hpend => by
    rw [completed]
    simp [hpend]
  have hlive' := (hlive.completeStarted hdoneLinks).1
  obtain ⟨begun, hbegun, hbegunLinks⟩ := links_startReady instance_ now system done
  have hstuck' := hstuck.startReady hlive' hbegunLinks
  have hlive'' := hlive'.startReady hbegunLinks
  simp only [Rounds.round, hdone, hbegun, ok_bind] at hround
  cases again with
  | false =>
    cases hround
    exact hstuck'
  | true =>
    obtain ⟨back, hback, hreopened, -⟩ := reopen_links begun system now
    obtain ⟨last, hlast, hlastLinks⟩ := links_startReady instance_ now system back
    simp only [hback, ok_bind, if_true, hlast] at hround
    cases hround
    exact (hstuck'.reopen hreopened).startReady (hlive''.reopen hreopened) hlastLinks

theorem Stuck.run (hlive : Live system start) {n : Nat} {again : Nat → Bool}
    (hrun : run instance_ now system n again start = .ok next) :
    Stuck system next ∧ Live system next := by
  induction n generalizing start again with
  | zero =>
    cases hrun
    exact ⟨h, hlive⟩
  | succ n ih =>
    obtain ⟨mid, hmid, hprog⟩ := round_progress instance_ now hlive (again 0)
    rw [Rounds.run, hmid] at hrun
    exact ih (h.round hlive hmid) hprog.live hrun

end

theorem planned_links (hplanned : start.ceremonies =
      system.ceremonies.map fun _ composition => .pending composition.pin)
    (id : SystemCeremonyId) :
    start.link id = (system.ceremonies[id]?).map fun composition => .pending composition.pin := by
  rw [AgenticSystemExecution.link, hplanned]
  exact getElem?_map

theorem live_of_planned (hplanned : start.ceremonies =
      system.ceremonies.map fun _ composition => .pending composition.pin) :
    Live system start ∧ Stuck system start := by
  refine ⟨⟨fun id => ?_, fun id link hlink => ?_⟩, fun id _ link hlink => ?_⟩
  · rw [planned_links hplanned, isSome_map]
  · rw [planned_links hplanned, map_eq_some_iff] at hlink
    obtain ⟨_, -, rfl⟩ := hlink
    exact .inl rfl
  · rw [planned_links hplanned, map_eq_some_iff] at hlink
    obtain ⟨_, -, rfl⟩ := hlink
    exact ⟨rfl, rfl⟩

end Rounds

/-! ## Accepted designs -/

/-- In a run of an accepted design in which everything that starts completes, whether loops are sent
round or not, every composition is started after finitely many rounds exactly when the loops cut
every cycle of dependencies; and that is when what a run waits for is not circular. -/
theorem everything_starts_iff_loops_cut_cycles (system : AgenticSystem)
    (haccepted : system.dependencies = []) :
    (Waiting.Acyclic system.Blocks ↔ system.LoopsCutCycles) ∧
    ∀ (planned : AgenticSystemExecution) (instance_ : SystemCeremonyId → LoopRound → CeremonyId)
      (now : OffsetDateTime) (again : Nat → Bool),
      planned.ceremonies = (system.ceremonies.map fun _ composition => .pending composition.pin) →
      ((∃ n last, Rounds.run instance_ now system n again planned = .ok last ∧
        Rounds.EverythingStarted system last) ↔ system.LoopsCutCycles) := by
  refine ⟨AgenticSystem.acyclic_iff_loopsCutCycles, ?_⟩
  intro planned instance_ now again hplanned
  obtain ⟨hlive, hstuck⟩ := Rounds.live_of_planned hplanned
  rw [← AgenticSystem.acyclic_iff_loopsCutCycles]
  constructor
  · rintro ⟨n, last, hrun, hall⟩ id hcycle
    obtain ⟨_, hblock, -⟩ := Relation.TransGen.head'_iff.mp hcycle
    obtain ⟨composition, hcomp⟩ := AgenticSystem.composed_of_blocks hblock
    obtain ⟨link, hlink, hstarted⟩ := hall id composition hcomp
    have hzero := ((hstuck.run hlive hrun).1 id hcycle link hlink).2
    omega
  · intro hacyc
    exact Rounds.everything_starts hacyc
      (fun _ _ hblock => AgenticSystem.blocked_is_composed haccepted hblock) hlive again

def ReviewedWork.plannedRun : AgenticSystemExecution :=
  ⟨runId, ⟨⟨"reviewed-work", .refl true⟩, 1⟩,
    system.ceremonies.map fun _ composition => .pending composition.pin, ∅, .planned,
    .afterEpoch 0⟩

open ReviewedWork in
/-- The reviewed work is accepted and all of it is started, so that its loop cuts its cycle. -/
theorem reviewed_work_starts :
    system.dependencies = [] ∧
      (∃ n last, Rounds.run (fun _ _ => planned) ⟨0, by decide⟩ system n (fun _ => true)
        plannedRun = .ok last ∧ Rounds.EverythingStarted system last) ∧
      system.LoopsCutCycles ∧ Waiting.Acyclic system.Blocks := by
  have hacc : system.dependencies = [] := by decide +kernel
  have hexec : (Rounds.run (fun _ _ => planned) ⟨0, by decide⟩ system 3 (fun _ => true)
      plannedRun).toOption.any (fun last => system.ceremonies.toList.all fun entry =>
        (last.link entry.1).any fun link => 1 ≤ link.round.val) = true := by
    decide +kernel
  obtain ⟨last, hlast, hall⟩ := (Option.any_eq_true _ _).mp hexec
  have hstarts : ∃ n last, Rounds.run (fun _ _ => planned) ⟨0, by decide⟩ system n
      (fun _ => true) plannedRun = .ok last ∧ Rounds.EverythingStarted system last := by
    refine ⟨3, last, eq_ok_of_toOption hlast, fun id composition hcomp => ?_⟩
    have hid := List.all_eq_true.mp hall (id, composition)
      (Std.ExtTreeMap.mem_toList_iff_getElem?_eq_some.mpr hcomp)
    obtain ⟨link, hlink, hround⟩ := (Option.any_eq_true _ _).mp hid
    exact ⟨link, hlink, of_decide_eq_true hround⟩
  obtain ⟨hacyc, hruns⟩ := everything_starts_iff_loops_cut_cycles system hacc
  have hcut := (hruns plannedRun (fun _ _ => planned) ⟨0, by decide⟩ (fun _ => true) rfl).mp hstarts
  exact ⟨hacc, hstarts, hcut, hacyc.mpr hcut⟩

/-! ## Work that is never started -/

namespace CircularWork

open ReviewedWork (composition lead)

def draft : SystemCeremonyId := ⟨"draft", by decide⟩
def check : SystemCeremonyId := ⟨"check", by decide⟩
def polish : SystemCeremonyId := ⟨"polish", by decide⟩

/-- The draft waits for the check and for a polish that goes round with it; the check waits for the
draft. -/
def system : AgenticSystem :=
  (AgenticSystem.draft lead [⟨lead, .integrator⟩] [⟨⟨"ana", .refl true⟩, lead, ⟨[], none⟩⟩] [] ∅
    [composition draft [check, polish] .afterDependencies,
      composition check [draft] .afterDependencies,
      composition polish [] (.loop draft (.of 2 (.refl true)))]
    ⟨[], [], ∅⟩).toOption.get (by decide +kernel)

end CircularWork

open CircularWork in
/-- The dependencies are accepted because of the loop, and the draft and the check wait for each
other in every round. -/
theorem accepted_design_waits_for_ever :
    system.dependencies = [] ∧ ¬ Waiting.Acyclic system.Blocks ∧
      ∀ planned instance_ now again n last, planned.ceremonies =
          (system.ceremonies.map fun _ composition => .pending composition.pin) →
        Rounds.run instance_ now system n again planned = .ok last →
        ∀ id ∈ [draft, check], (last.link id).map (·.status) = some .pending := by
  have hblock : system.Blocks draft check ∧ system.Blocks check draft := by
    constructor
    · exact of_decide_eq_true (p := check ∈ system.blockers draft) (by decide +kernel)
    · exact of_decide_eq_true (p := draft ∈ system.blockers check) (by decide +kernel)
  have hcycle : ∀ id ∈ [draft, check], Relation.TransGen system.Blocks id id := by
    intro id hid
    simp only [List.mem_cons, List.not_mem_nil, or_false] at hid
    rcases hid with rfl | rfl
    · exact .tail (.single hblock.1) hblock.2
    · exact .tail (.single hblock.2) hblock.1
  refine ⟨by decide +kernel, fun hacyc => hacyc draft (hcycle draft (by simp)), ?_⟩
  intro planned instance_ now again n last hplanned hrun id hid
  obtain ⟨hlive, hstuck⟩ := Rounds.live_of_planned hplanned
  obtain ⟨hstuck', hlive'⟩ := hstuck.run hlive hrun
  obtain ⟨_, hnext, -⟩ := Relation.TransGen.head'_iff.mp (hcycle id hid)
  obtain ⟨_, hcomp⟩ := AgenticSystem.composed_of_blocks hnext
  have hdomain := hlive'.domain id
  rw [hcomp, Option.isSome_some] at hdomain
  obtain ⟨link, hlink⟩ := Option.isSome_iff_exists.mp hdomain
  rw [hlink, Option.map_some, (hstuck' id (hcycle id hid) link hlink).1]

end Made
