import Made.Properties.HostDeliveries

/-!
# Work that follows a replaced destination

Every open delivery to a replaced destination is closed, and its item is offered to the replacement
under the identity derived from item and replacement.  A delivery that exists under that identity is
left as it is, whatever has become of it.
-/

namespace Made

open Mealy

/-! ## Identities -/

namespace StoredHostDelivery

theorem reAddressed_eq_ok {stored candidate : StoredHostDelivery} {replacement : HostDeliveryTarget}
    {now : OffsetDateTime} (h : stored.reAddressed replacement now = .ok candidate) :
    candidate.record.item = stored.record.item ∧ candidate.record.target = replacement ∧
      candidate.record.state = .queued := by
  obtain ⟨record, hrec, h⟩ := (Outcome.bind_eq_ok _ _ _).mp h
  cases h
  unfold HostDeliveryRecord.reAddressed HostDeliveryRecord.queued at hrec
  split at hrec
  · cases hrec
  · cases hrec
    exact ⟨rfl, rfl, rfl⟩

end StoredHostDelivery

/-! ## Turns -/

/-- A delivery that is closed, and the one meant to take its place. -/
abbrev Turn := StoredHostDelivery × StoredHostDelivery

/-- The loop ends where a delivery cannot be re-addressed. -/
def turns (replacement : HostDeliveryTarget) (now : OffsetDateTime) :
    List StoredHostDelivery → List Turn
  | [] => []
  | stored :: affected =>
    match stored.reAddressed replacement now with
    | .error _ => []
    | .ok candidate => (stored, candidate) :: turns replacement now affected

/-- One turn: nothing takes the place of a delivery that exists. -/
def moved (now : OffsetDateTime) (ledger : InMemoryHostDeliveryLedger) (turn : Turn) :
    InMemoryHostDeliveryLedger :=
  (if ledger.inner[turn.2.id]?.isNone then ledger.insert turn.2.id turn.2 else ledger).insert
    turn.1.id (turn.1.superseded (some turn.2.id) now)

section Turns

variable {replacement : HostDeliveryTarget} {now : OffsetDateTime}
  {affected : List StoredHostDelivery}

theorem mem_turns {turn : Turn} (h : turn ∈ turns replacement now affected) :
    turn.1 ∈ affected ∧ turn.1.reAddressed replacement now = .ok turn.2 := by
  induction affected with
  | nil => cases h
  | cons stored affected ih =>
    unfold turns at h
    split at h
    · cases h
    · next candidate hcand =>
        rcases List.mem_cons.mp h with rfl | h
        · exact ⟨List.mem_cons_self, hcand⟩
        · exact ⟨List.mem_cons_of_mem _ (ih h).1, (ih h).2⟩

variable (ledger : InMemoryHostDeliveryLedger)

theorem supersedeEach_follow (outcome : SupersessionOutcome) :
    (InMemoryHostDeliveryLedger.store.supersedeEach replacement .follow now ledger affected
      outcome).2 = (turns replacement now affected).foldl (moved now) ledger := by
  induction affected generalizing ledger outcome with
  | nil => rfl
  | cons stored affected ih =>
    have hfollow : FollowReplacement.follow.follows = true := rfl
    rw [DeliveryStore.supersedeEach, DeliveryStore.reopen, if_pos hfollow, turns]
    cases stored.reAddressed replacement now with
    | error fault => rfl
    | ok candidate =>
      dsimp only
      rw [List.foldl_cons, moved]
      cases hread : InMemoryHostDeliveryLedger.store.read ledger candidate.id with
      | some held | none =>
        rw [show ledger.inner[candidate.id]? = _ from hread]
        exact ih _ _

theorem getElem?_moved (turn : Turn) (id : HostDeliveryId) :
    (moved now ledger turn).inner[id]? =
      if turn.1.id = id then some (turn.1.superseded (some turn.2.id) now)
      else if turn.2.id = id then some (ledger.inner[id]?.getD turn.2)
      else ledger.inner[id]? := by
  unfold moved InMemoryHostDeliveryLedger.insert
  by_cases hcl : turn.1.id = id
  · rw [if_pos hcl, hcl]
    exact Std.ExtTreeMap.getElem?_insert_self
  · rw [if_neg hcl, Map.getElem?_insert_of_ne (Ne.symm hcl)]
    by_cases hopened : turn.2.id = id
    · rw [if_pos hopened, hopened]
      cases hheld : ledger.inner[id]? with
      | none => exact Std.ExtTreeMap.getElem?_insert_self
      | some held => exact hheld
    · rw [if_neg hopened]
      split
      · exact Map.getElem?_insert_of_ne (Ne.symm hopened)
      · rfl

/-- What stands under an identity after all turns: a delivery that was closed, what was there, or
one that took a free place. -/
inductive Standing (now : OffsetDateTime) (taken : List Turn) (id : HostDeliveryId)
    (before after : Option StoredHostDelivery) : Prop
  | closed (turn : Turn) (mem : turn ∈ taken) (id_eq : turn.1.id = id)
      (after_eq : after = some (turn.1.superseded (some turn.2.id) now))
  | same (others : ∀ turn ∈ taken, turn.1.id ≠ id) (after_eq : after = before)
      (free : before = none → ∀ turn ∈ taken, turn.2.id ≠ id)
  | opened (turn : Turn) (mem : turn ∈ taken) (id_eq : turn.2.id = id) (free : before = none)
      (after_eq : after = some turn.2)

theorem read_moved (taken : List Turn) (id : HostDeliveryId) :
    Standing now taken id ledger.inner[id]? (taken.foldl (moved now) ledger).inner[id]? := by
  induction taken generalizing ledger with
  | nil => exact .same (by simp) rfl (by simp)
  | cons first taken ih =>
    have hfirst : (moved now ledger first).inner[id]? = _ := getElem?_moved ledger first id
    rw [List.foldl_cons]
    rcases ih (moved now ledger first) with ⟨turn, mem, id_eq, after_eq⟩ |
      ⟨others, after_eq, free⟩ | ⟨turn, mem, id_eq, free, after_eq⟩
    · exact .closed turn (List.mem_cons_of_mem _ mem) id_eq after_eq
    · rw [hfirst] at after_eq free
      by_cases hcl : first.1.id = id
      · rw [if_pos hcl] at after_eq
        exact .closed first List.mem_cons_self hcl after_eq
      · rw [if_neg hcl] at after_eq free
        have hothers : ∀ turn ∈ first :: taken, turn.1.id ≠ id :=
          List.forall_mem_cons.mpr ⟨hcl, others⟩
        by_cases hopened : first.2.id = id
        · rw [if_pos hopened] at after_eq
          cases hpre : ledger.inner[id]? with
          | none =>
            rw [hpre] at after_eq
            exact .opened first List.mem_cons_self hopened rfl after_eq
          | some held =>
            rw [hpre] at after_eq
            exact .same hothers after_eq fun hnone => nomatch hnone
        · rw [if_neg hopened] at after_eq free
          exact .same hothers after_eq fun hnone =>
            List.forall_mem_cons.mpr ⟨hopened, free hnone⟩
    · rw [hfirst] at free
      by_cases hcl : first.1.id = id
      · rw [if_pos hcl] at free
        cases free
      · rw [if_neg hcl] at free
        by_cases hopened : first.2.id = id
        · rw [if_pos hopened] at free
          cases free
        · rw [if_neg hopened] at free
          exact .opened turn (List.mem_cons_of_mem _ mem) id_eq free after_eq

end Turns

/-! ## Items that are lost -/

/-- The replacement of a destination that the work follows. -/
structure Replacement where
  previous : HostDeliveryTarget
  replacement : HostDeliveryTarget
  now : OffsetDateTime

def OpenFor (item : HostDeliveryItem) (stored : StoredHostDelivery) : Prop :=
  stored.record.item = item ∧ stored.record.state.isTerminal = false

/-- What is closed has a delivery at the replacement that the same call has not closed, and an item
with an open delivery keeps one unless the replacement has processed it. -/
structure LosesNothing (before after : InMemoryHostDeliveryLedger)
    (replacement : HostDeliveryTarget) : Prop where
  replaced : ∀ stored ∈ before.values, stored.record.state.isTerminal = false →
    ∀ closed, after.inner[stored.id]? = some closed → closed.record.state.kind = .superseded →
      ∃ other ∈ after.values, other.record.item = stored.record.item ∧
        other.record.target = replacement ∧
        (other.record.state.kind = .superseded → other ∈ before.values)
  kept : ∀ item, (∃ stored ∈ before.values, OpenFor item stored) →
    (∀ held ∈ before.values, held.record.item = item → held.record.target = replacement →
      held.record.state.kind ≠ .processed) →
    ∃ stored ∈ after.values, OpenFor item stored

namespace InMemoryHostDeliveryLedger

def follow (ledger : InMemoryHostDeliveryLedger) (r : Replacement) :
    Result SupersessionOutcome × InMemoryHostDeliveryLedger :=
  ledger.supersede r.previous r.replacement .follow r.now

def turnsOf (ledger : InMemoryHostDeliveryLedger) (r : Replacement) : List Turn :=
  turns r.replacement r.now (ledger.values.filter (·.affectedBy r.previous))

/-- Every delivery that is closed finds its place free, and no other one takes it; or another
destination has the delivery of its item in that place, and has processed it or else the item is
open at a third one. -/
def Carries (ledger : InMemoryHostDeliveryLedger) (r : Replacement) : Prop :=
  ∀ turn ∈ ledger.turnsOf r, (ledger.inner[turn.2.id]? = none ∧
      ∀ other ∈ ledger.turnsOf r, other.2.id = turn.2.id → other = turn) ∨
    r.replacement ≠ r.previous ∧ ∃ held, ledger.inner[turn.2.id]? = some held ∧
      held.record.item = turn.1.record.item ∧ held.record.target = r.replacement ∧
      (held.record.state.kind = .processed ∨ ∃ other ∈ ledger.values,
        OpenFor turn.1.record.item other ∧ other.record.target ≠ r.previous)

variable {ledger : InMemoryHostDeliveryLedger} {sqlite : SqliteHostDeliveryLedger}
  {r : Replacement} {turn : Turn} {stored : StoredHostDelivery}

theorem read_follow (ledger : InMemoryHostDeliveryLedger) (r : Replacement) (id : HostDeliveryId) :
    Standing r.now (ledger.turnsOf r) id ledger.inner[id]? (ledger.follow r).2.inner[id]? := by
  rw [follow, supersede, supersedeEach_follow]
  exact read_moved ledger _ id

structure IsTurn (ledger : InMemoryHostDeliveryLedger) (r : Replacement) (turn : Turn) : Prop where
  held : ledger.inner[turn.1.id]? = some turn.1
  target : turn.1.record.target = r.previous
  isOpen : turn.1.record.state.isTerminal = false
  item : turn.2.record.item = turn.1.record.item
  replaced : turn.2.record.target = r.replacement
  queued : turn.2.record.state = .queued

section

variable (h : Keyed ledger)
include h

theorem isTurn_of_mem (hturn : turn ∈ ledger.turnsOf r) : IsTurn ledger r turn := by
  obtain ⟨hmem, hcand⟩ := mem_turns hturn
  rw [List.mem_filter, h.mem_values, StoredHostDelivery.affectedBy, Bool.and_eq_true,
    decide_eq_true_eq, Bool.not_eq_true'] at hmem
  obtain ⟨hitem, htgt, hstate⟩ := StoredHostDelivery.reAddressed_eq_ok hcand
  exact ⟨hmem.1, hmem.2.1, hmem.2.2, hitem, htgt, hstate⟩

theorem keyed_follow (r : Replacement) : Keyed (ledger.follow r).2 := by
  intro id stored hst
  rcases ledger.read_follow r id with ⟨turn, -, id_eq, after_eq⟩ | ⟨-, after_eq, -⟩ |
    ⟨turn, -, id_eq, -, after_eq⟩
  · rw [after_eq] at hst
    cases hst
    exact id_eq
  · exact h id stored (after_eq.symm.trans hst)
  · rw [after_eq] at hst
    cases hst
    exact id_eq

theorem mem_follow_of_not_closed (hst : stored ∈ ledger.values)
    (hopen : ∀ turn ∈ ledger.turnsOf r, turn.1 ≠ stored) : stored ∈ (ledger.follow r).2.values := by
  rw [h.mem_values] at hst
  rw [(keyed_follow h r).mem_values]
  rcases ledger.read_follow r stored.id with ⟨turn, mem, id_eq, -⟩ | ⟨-, after_eq, -⟩ |
    ⟨-, -, -, free, -⟩
  · have hheld := (isTurn_of_mem h mem).held
    rw [id_eq, hst, Option.some.injEq] at hheld
    exact absurd hheld.symm (hopen turn mem)
  · exact after_eq.trans hst
  · rw [hst] at free
    cases free

/-- A free place is taken by the only one that is meant for it. -/
theorem mem_follow_of_free (hturn : turn ∈ ledger.turnsOf r)
    (hfree : ledger.inner[turn.2.id]? = none)
    (hunique : ∀ other ∈ ledger.turnsOf r, other.2.id = turn.2.id → other = turn) :
    turn.2 ∈ (ledger.follow r).2.values := by
  rw [(keyed_follow h r).mem_values]
  rcases ledger.read_follow r turn.2.id with ⟨other, mem, id_eq, -⟩ | ⟨-, -, free⟩ |
    ⟨other, mem, id_eq, -, after_eq⟩
  · have hheld := (isTurn_of_mem h mem).held
    rw [id_eq, hfree] at hheld
    cases hheld
  · exact absurd rfl (free hfree turn hturn)
  · rw [after_eq, hunique other mem id_eq]

theorem losesNothing_of_carries (hcarries : ledger.Carries r) :
    LosesNothing ledger (ledger.follow r).2 r.replacement := by
  have hmem : ∀ {id : HostDeliveryId} {held : StoredHostDelivery},
      ledger.inner[id]? = some held → held ∈ ledger.values := by
    intro id held hheld
    rw [h.mem_values, h id held hheld]
    exact hheld
  constructor
  · intro stored hst hopen closed hcl hkind
    by_cases hturns : ∃ turn ∈ ledger.turnsOf r, turn.1 = stored
    · obtain ⟨turn, hturn, rfl⟩ := hturns
      have hknown := isTurn_of_mem h hturn
      rcases hcarries turn hturn with ⟨hfree, hunique⟩ | ⟨hreplaced, held, hheld, hitem, htgt, -⟩
      · refine ⟨turn.2, mem_follow_of_free h hturn hfree hunique, hknown.item, hknown.replaced, ?_⟩
        rw [hknown.queued]
        intro hqueued
        cases hqueued
      · refine ⟨held, mem_follow_of_not_closed h (hmem hheld) fun other ho hsame => ?_, hitem,
          htgt, fun _ => hmem hheld⟩
        rw [← hsame, (isTurn_of_mem h ho).target] at htgt
        exact hreplaced htgt.symm
    · have hstays := mem_follow_of_not_closed h hst fun turn hturn hsame =>
        hturns ⟨turn, hturn, hsame⟩
      rw [(keyed_follow h r).mem_values, hcl, Option.some.injEq] at hstays
      rw [hstays] at hkind
      rw [HostDeliveryState.isTerminal, hkind] at hopen
      cases hopen
  · rintro item ⟨stored, hst, rfl, hopen⟩ hunprocessed
    by_cases hturns : ∃ turn ∈ ledger.turnsOf r, turn.1 = stored
    · obtain ⟨turn, hturn, rfl⟩ := hturns
      have hknown := isTurn_of_mem h hturn
      rcases hcarries turn hturn with ⟨hfree, hunique⟩ |
        ⟨-, held, hheld, hitem, htgt, hprocessed | ⟨other, ho, hopen', htarget'⟩⟩
      · refine ⟨turn.2, mem_follow_of_free h hturn hfree hunique, hknown.item, ?_⟩
        rw [hknown.queued]
        rfl
      · exact absurd hprocessed (hunprocessed held (hmem hheld) hitem htgt)
      · refine ⟨other, mem_follow_of_not_closed h ho fun turn' hturn' hsame => ?_, hopen'⟩
        rw [← hsame] at htarget'
        exact htarget' (isTurn_of_mem h hturn').target
    · exact ⟨stored, mem_follow_of_not_closed h hst fun turn hturn hsame =>
        hturns ⟨turn, hturn, hsame⟩, rfl, hopen⟩

theorem losesNothing_refl (replacement : HostDeliveryTarget) :
    LosesNothing ledger ledger replacement := by
  refine ⟨fun stored hst hopen closed hcl hkind => ?_, fun item hitem _ => hitem⟩
  rw [h.mem_values, hcl, Option.some.injEq] at hst
  rw [← hst, HostDeliveryState.isTerminal, hkind] at hopen
  cases hopen

end

/-- The tables follow as the ledger in memory does, or not at all. -/
theorem sqlite_follow (writable : StoredHostDelivery → Bool) (h : Mirrors ledger sqlite)
    (hcarries : ledger.Carries r) :
    ∃ after, Mirrors after
        (sqlite.answer writable (.supersede r.previous r.replacement .follow r.now)).2 ∧
      LosesNothing ledger after r.replacement := by
  rw [SqliteHostDeliveryLedger.answer, SqliteHostDeliveryLedger.supersede, h.affected_eq]
  obtain ⟨hheld, hsort⟩ := Mirrors.affected_held h.keyed r.previous
  rcases h.supersedeEach writable hheld hsort ⟨[], []⟩ with
    ⟨_, after, _, hmem, hsql, hmirrors⟩ | ⟨⟨fault, _, hsql⟩, -⟩
  · have hafter : (ledger.follow r).2 = after := congrArg Prod.snd hmem
    refine ⟨after, ?_, hafter ▸ losesNothing_of_carries h.keyed hcarries⟩
    dsimp only
    rw [hsql]
    exact hmirrors
  · refine ⟨ledger, ?_, losesNothing_refl h.keyed _⟩
    dsimp only
    rw [hsql]
    cases fault with
    | refused error | panicked message => exact h

end InMemoryHostDeliveryLedger

open InMemoryHostDeliveryLedger

/-- Replacements made one after the other on any ledger lose no item when each carries over what it
closes; and so do the tables of SQLite that mirror such a ledger. -/
theorem following_loses_nothing (ledger : InMemoryHostDeliveryLedger) (h : Keyed ledger)
    (replacements : List Replacement) (hcarries : Along follow Carries ledger replacements) :
    Along follow (fun ledger r => LosesNothing ledger (ledger.follow r).2 r.replacement ∧
      ∀ writable sqlite, Mirrors ledger sqlite → ∃ after, Mirrors after
          (sqlite.answer writable (.supersede r.previous r.replacement .follow r.now)).2 ∧
        LosesNothing ledger after r.replacement) ledger replacements := by
  refine along_mono (J := Keyed) (fun ledger r hkeyed hstep => ⟨⟨?_, ?_⟩, ?_⟩) h hcarries
  · exact keyed_follow hkeyed r
  · exact losesNothing_of_carries hkeyed hstep
  · exact fun writable sqlite hmirrors => sqlite_follow writable hmirrors hstep

/-! ## A destination that comes back -/

namespace Desk

def thereAndBack : List Replacement :=
  [⟨.role ⟨"writer", .refl true⟩, .role ⟨"editor", .refl true⟩, .afterEpoch 1⟩,
    ⟨.role ⟨"editor", .refl true⟩, .role ⟨"writer", .refl true⟩, .afterEpoch 2⟩]

def desk : InMemoryHostDeliveryLedger := (InMemoryHostDeliveryLedger.store.enqueue .empty own).2

end Desk

/-- The item is open for the writer, then for the editor, and then for nobody. -/
theorem returning_destination_loses_item :
    (replies follow Desk.desk (Desk.thereAndBack.take 1)).2.values.map
        (fun stored => (stored.record.item, stored.record.state.kind)) =
      [(Desk.own.item, .queued), (Desk.own.item, .superseded)] ∧
    (replies follow Desk.desk Desk.thereAndBack).2.values.map
        (fun stored => (stored.record.item, stored.record.state.kind)) =
      [(Desk.own.item, .superseded), (Desk.own.item, .superseded)] := by
  decide +kernel

/-- The first of the two replacements carries the item over. -/
theorem first_replacement_carries :
    LosesNothing Desk.desk (Desk.desk.follow ⟨.role ⟨"writer", by decide⟩,
      .role ⟨"editor", by decide⟩, ⟨1, by decide⟩⟩).2 (.role ⟨"editor", by decide⟩) := by
  have hkeyed : Keyed Desk.desk := mirrors_empty.keyed.insert (.new Desk.own)
  have hcarries : Along follow Carries Desk.desk (Desk.thereAndBack.take 1) := by
    refine ⟨?_, trivial⟩
    have hfree : ∀ turn ∈ Desk.desk.turnsOf (Desk.thereAndBack.head (by decide)),
        Desk.desk.inner[turn.2.id]? = none ∧
          ∀ other ∈ Desk.desk.turnsOf (Desk.thereAndBack.head (by decide)), other = turn := by
      decide +kernel
    exact fun turn hturn =>
      .inl ⟨(hfree turn hturn).1, fun other ho _ => (hfree turn hturn).2 other ho⟩
  exact (following_loses_nothing _ hkeyed _ hcarries).1.1

end Made
