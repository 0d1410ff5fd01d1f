import Made.Delivery.Record
import Made.Journal.Record
import Made.Library.Mealy

/-!
# The cursor of an event consumer

Whoever works for a consumer leases its cursor, handles the record after it and commits that
position under the lease.  The model is of the cursor of one consumer.  A lease that ran out stays
stored until another one replaces it.
-/

namespace Made

open Outcome Mealy

abbrev CeremonyEventCursorLeaseId := Text ⟨"ceremony_event_cursor_lease_id", 128, fun _ => true⟩
abbrev CeremonyEventQuarantineReason :=
  Text ⟨"ceremony_event_quarantine_reason", 512, fun _ => true⟩

def GlobalPosition.next (position : GlobalPosition) : GlobalPosition := min (position + 1) u64Max

structure CeremonyEventCursorLease where
  leaseId : CeremonyEventCursorLeaseId
  acknowledgedThrough : Option GlobalPosition
  attempt : Nat
  leasedUntil : OffsetDateTime
deriving DecidableEq

def CeremonyEventCursorLease.nextPosition (lease : CeremonyEventCursorLease) : GlobalPosition :=
  match lease.acknowledgedThrough with
  | some position => GlobalPosition.next position
  | none => 1

structure QuarantinedCeremonyEvent where
  position : GlobalPosition
  attempts : Nat
  reason : CeremonyEventQuarantineReason
  quarantinedAt : OffsetDateTime

structure CursorState where
  acknowledgedThrough : Option GlobalPosition
  attempt : Nat
  lease : Option CeremonyEventCursorLease
  quarantined : List QuarantinedCeremonyEvent

inductive CursorCall where
  | lease (id : CeremonyEventCursorLeaseId) (now : OffsetDateTime) (duration : DurationMs)
  | acknowledge (through : GlobalPosition)
  | acknowledgeLease (lease : CeremonyEventCursorLease) (through : GlobalPosition)
  | markFailed (lease : CeremonyEventCursorLease) (position : GlobalPosition)
  | quarantine (lease : CeremonyEventCursorLease) (position : GlobalPosition)
      (reason : CeremonyEventQuarantineReason) (now : OffsetDateTime)
  | release (lease : CeremonyEventCursorLease)

namespace CursorCall

def asked : CursorCall → Option CeremonyEventCursorLeaseId
  | lease id .. => some id
  | _ => none

def carried : CursorCall → Option CeremonyEventCursorLease
  | lease .. | acknowledge _ => none
  | acknowledgeLease held _ | markFailed held _ | quarantine held .. | release held => some held

def commits : CursorCall → Option GlobalPosition
  | acknowledgeLease _ position | quarantine _ position .. => some position
  | _ => none

end CursorCall

namespace CursorState

section

variable (state : CursorState) (lease : CeremonyEventCursorLease) (position : GlobalPosition)

def conflict : DomainError := .conflict "ceremony_event_cursor"

def matchesLease : Bool := state.lease.any (·.leaseId = lease.leaseId)

def requireLease : Result Unit :=
  require (state.matchesLease lease ∧ position = lease.nextPosition) conflict

def leaseCursor (id : CeremonyEventCursorLeaseId) (now : OffsetDateTime) (duration : DurationMs) :
    Result (Option CeremonyEventCursorLease × CursorState) :=
  if state.lease.any (now < ·.leasedUntil) then pure (none, state)
  else do
    let until_ ← now.plus duration
    let lease := ⟨id, state.acknowledgedThrough, state.attempt, until_⟩
    pure (some lease, { state with lease := some lease })

def acknowledge (through : GlobalPosition) : Result CursorState :=
  if state.acknowledgedThrough.any (through ≤ ·) then pure state
  else do
    require (state.lease = none) conflict
    pure { state with acknowledgedThrough := some through, attempt := 0 }

def acknowledgeLease : Result CursorState := do
  state.requireLease lease position
  pure { state with acknowledgedThrough := some position, attempt := 0, lease := none }

def markFailed : Result CursorState := do
  state.requireLease lease position
  pure { state with attempt := saturatingSucc state.attempt, lease := none }

def quarantine (reason : CeremonyEventQuarantineReason) (now : OffsetDateTime) :
    Result CursorState := do
  state.requireLease lease position
  pure {
    acknowledgedThrough := some position, attempt := 0, lease := none
    quarantined := state.quarantined ++ [⟨position, state.attempt, reason, now⟩] }

def release : Result CursorState := do
  require (state.matchesLease lease) conflict
  pure { state with lease := none }

/-- What a call answers; one that fails leaves the cursor as it is. -/
def perform : CursorCall → Result (Option CeremonyEventCursorLease × CursorState)
  | .lease id now duration => state.leaseCursor id now duration
  | .acknowledge through => (none, ·) <$> state.acknowledge through
  | .acknowledgeLease lease through => (none, ·) <$> state.acknowledgeLease lease through
  | .markFailed lease position => (none, ·) <$> state.markFailed lease position
  | .quarantine lease position reason now =>
    (none, ·) <$> state.quarantine lease position reason now
  | .release lease => (none, ·) <$> state.release lease

/-- How far the cursor is; positions start at one. -/
def through : Nat := state.acknowledgedThrough.getD 0

end

variable {state next : CursorState} {call : CursorCall} {lease : CeremonyEventCursorLease}
  {reply : Option CeremonyEventCursorLease}

theorem map_eq_ok {x : Result CursorState} :
    (none, ·) <$> x = .ok (reply, next) ↔ reply = none ∧ x = .ok next := by
  cases x <;> simp [eq_comm]

theorem perform_lease {id : CeremonyEventCursorLeaseId} (hid : call.asked = some id)
    (h : state.perform call = .ok (reply, next)) :
    call.carried = none ∧ call.commits = none ∧ (reply = none ∧ next = state ∨
      ∃ given, reply = some given ∧ given.leaseId = id ∧
        given.acknowledgedThrough = state.acknowledgedThrough ∧
        next = { state with lease := some given }) := by
  cases call with
  | lease =>
    cases hid
    simp only [perform, leaseCursor, ite_eq_ok, bind_eq_ok, pure_eq_ok, Prod.mk.injEq] at h
    obtain ⟨-, rfl, rfl⟩ | ⟨-, until_, -, rfl, rfl⟩ := h
    · exact ⟨rfl, rfl, .inl ⟨rfl, rfl⟩⟩
    · exact ⟨rfl, rfl, .inr ⟨_, rfl, rfl, rfl, rfl⟩⟩
  | acknowledge | acknowledgeLease | markFailed | quarantine | release => cases hid

/-- A call that asks for no lease does nothing or leaves none; only one that commits moves the
cursor of a stored lease, to the position after the one it carries. -/
theorem perform_other (hid : call.asked = none) (h : state.perform call = .ok (reply, next)) :
    reply = none ∧ (call.carried = none ∧ call.commits = none ∧
        (next = state ∨ next.lease = none ∧ state.through ≤ next.through) ∨
      ∃ lease, call.carried = some lease ∧ state.matchesLease lease ∧ next.lease = none ∧
        (call.commits = none ∧ next.through = state.through ∨
          call.commits = some lease.nextPosition ∧ next.through = lease.nextPosition)) := by
  cases call with
  | lease => cases hid
  | acknowledge through =>
    simp only [perform, map_eq_ok, acknowledge, ite_eq_ok, bind_eq_ok, pure_eq_ok, require_eq_ok,
      exists_unit] at h
    obtain ⟨rfl, ⟨-, rfl⟩ | ⟨hlt, hnone, rfl⟩⟩ := h
    · exact ⟨rfl, .inl ⟨rfl, rfl, .inl rfl⟩⟩
    · refine ⟨rfl, .inl ⟨rfl, rfl, .inr ⟨hnone, ?_⟩⟩⟩
      cases hack : state.acknowledgedThrough with
      | none => simp [CursorState.through, hack]
      | some current =>
        simp only [hack, Option.any_some, decide_eq_true_eq] at hlt
        simpa [CursorState.through, hack] using Nat.le_of_not_le hlt
  | acknowledgeLease | markFailed | quarantine =>
    simp only [perform, map_eq_ok, acknowledgeLease, markFailed, quarantine, requireLease,
      bind_eq_ok, require_eq_ok, exists_unit, pure_eq_ok] at h
    obtain ⟨rfl, ⟨hmatch, rfl⟩, rfl⟩ := h
    exact ⟨rfl, .inr ⟨_, rfl, hmatch, rfl, by simp [CursorCall.commits, CursorState.through]⟩⟩
  | release =>
    simp only [perform, map_eq_ok, release, bind_eq_ok, require_eq_ok, exists_unit, pure_eq_ok] at h
    obtain ⟨rfl, hmatch, rfl⟩ := h
    exact ⟨rfl, .inr ⟨_, rfl, hmatch, rfl, .inl ⟨rfl, rfl⟩⟩⟩

end CursorState

/-- A cursor with the leases handed out so far and the positions committed under one. -/
structure CursorRun where
  state : CursorState
  issued : List CeremonyEventCursorLease
  committed : List GlobalPosition

namespace CursorRun

variable {run : CursorRun} {call : CursorCall} {lease : CeremonyEventCursorLease}
  {next : CursorState} {new : List GlobalPosition}

def initial : CursorRun := ⟨⟨none, 0, none, []⟩, [], []⟩

def answer (run : CursorRun) (call : CursorCall) :
    Result (Option CeremonyEventCursorLease) × CursorRun :=
  match run.state.perform call with
  | .error fault => (.error fault, run)
  | .ok (reply, next) =>
    (.ok reply, ⟨next, reply.toList ++ run.issued, call.commits.toList ++ run.committed⟩)

/-- Lease ids are fresh, and nobody carries a lease that was not handed out. -/
abbrev Fair (run : CursorRun) (call : CursorCall) : Prop :=
  (∀ id ∈ call.asked, ∀ issued ∈ run.issued, issued.leaseId ≠ id) ∧
    ∀ lease ∈ call.carried, lease ∈ run.issued

/-- A lease is asked for only while the cursor is below the last position. -/
abbrev Room (run : CursorRun) (call : CursorCall) : Prop :=
  ∀ _ ∈ call.asked, run.state.through < u64Max

/-- The cursor does not go back; what is committed under a lease is the next position and was not
committed before; other calls under a lease leave the cursor where it is, and calls under one that
is not stored any more are refused and change nothing. -/
structure Advances (run : CursorRun) (call : CursorCall)
    (after : Result (Option CeremonyEventCursorLease) × CursorRun) : Prop where
  rises : run.state.through ≤ after.2.state.through
  commits : after.1.isOk → ∀ position ∈ call.commits, position = run.state.through + 1 ∧
    after.2.state.through = position ∧ position ∉ run.committed
  stays : call.carried ≠ none → call.commits = none → after.2.state.through = run.state.through
  stale : ∀ lease ∈ call.carried, run.state.lease ≠ some lease →
    after.1.isOk = false ∧ after.2 = run

structure Sound (run : CursorRun) : Prop where
  held : ∀ lease ∈ run.state.lease, lease ∈ run.issued ∧
    lease.acknowledgedThrough = run.state.acknowledgedThrough ∧ run.state.through < u64Max
  distinct : ∀ a ∈ run.issued, ∀ b ∈ run.issued, a.leaseId = b.leaseId → a = b
  behind : ∀ position ∈ run.committed, position ≤ run.state.through

theorem Sound.eq_of_matches (h : run.Sound) (hissued : lease ∈ run.issued)
    (hmatch : run.state.matchesLease lease) : run.state.lease = some lease := by
  obtain ⟨stored, hstored, hid⟩ := (Option.any_eq_true _ _).mp hmatch
  rw [hstored, h.distinct stored (h.held stored hstored).1 lease hissued (of_decide_eq_true hid)]

theorem Sound.nextPosition (h : run.Sound) (hheld : run.state.lease = some lease) :
    lease.nextPosition = run.state.through + 1 := by
  obtain ⟨-, hack, hlt⟩ := h.held lease hheld
  rw [CeremonyEventCursorLease.nextPosition, hack]
  cases hthrough : run.state.acknowledgedThrough with
  | none => simp [CursorState.through, hthrough]
  | some position =>
    simp only [CursorState.through, hthrough, Option.getD_some] at hlt ⊢
    exact Nat.min_eq_left hlt

/-- Without a stored lease only the positions count. -/
theorem Sound.move (h : run.Sound) (hnone : next.lease = none)
    (hle : run.state.through ≤ next.through) (hnew : ∀ position ∈ new, position ≤ next.through) :
    Sound ⟨next, run.issued, new ++ run.committed⟩ where
  held _ hlease := nomatch hnone.symm.trans hlease
  distinct := h.distinct
  behind position hmem := (List.mem_append.mp hmem).elim (hnew position) fun hold =>
    (h.behind position hold).trans hle

theorem Sound.step (h : run.Sound) (hfair : run.Fair call) (hroom : run.Room call) :
    run.Advances call (run.answer call) ∧ (run.answer call).2.Sound := by
  rw [answer]
  cases hperf : run.state.perform call with
  | error fault => exact ⟨⟨le_rfl, nofun, fun _ _ => rfl, fun _ _ _ => ⟨rfl, rfl⟩⟩, h⟩
  | ok result =>
    obtain ⟨reply, next⟩ := result
    have hfree : call.carried = none → call.commits = none → ∀ after,
        run.state.through ≤ after.2.state.through → run.Advances call after :=
      fun hc hnone after hle => ⟨hle, by simp [hnone], (absurd hc ·), by simp [hc]⟩
    cases hid : call.asked with
    | some id =>
      obtain ⟨hc, hnone, ⟨rfl, rfl⟩ | ⟨given, rfl, rfl, hack, rfl⟩⟩ :=
        CursorState.perform_lease hid hperf
      · exact ⟨hfree hc hnone _ le_rfl, by simpa [hnone] using h⟩
      · refine ⟨hfree hc hnone _ le_rfl, ?_, ?_, by rw [hnone]; exact h.behind⟩
        · rintro _ ⟨⟩
          exact ⟨List.mem_cons_self, hack, hroom _ hid⟩
        · -- No lease handed out before has the id of this one.
          have hnew := hfair.1 _ hid
          rintro a (_ | ⟨_, ha⟩) b (_ | ⟨_, hb⟩) hab
          · rfl
          · exact absurd hab.symm (hnew b hb)
          · exact absurd hab (hnew a ha)
          · exact h.distinct a ha b hb hab
    | none =>
      obtain ⟨rfl, ⟨hc, hnone, rfl | ⟨hlease, hle⟩⟩ | ⟨lease, hc, hmatch, hlease, hcase⟩⟩ :=
        CursorState.perform_other hid hperf
      · exact ⟨hfree hc hnone _ le_rfl, by simpa [hnone] using h⟩
      · exact ⟨hfree hc hnone _ hle, h.move hlease hle (by simp [hnone])⟩
      have hheld := h.eq_of_matches (hfair.2 lease hc) hmatch
      rw [h.nextPosition hheld] at hcase
      obtain ⟨hnone, hpos⟩ | ⟨hsome, hpos⟩ := hcase
      · exact ⟨⟨hpos.ge, by simp [hnone], fun _ _ => hpos, by simp [hc, hheld]⟩,
          h.move hlease hpos.ge (by simp [hnone])⟩
      · refine ⟨⟨by simp [hpos], fun _ position hp => ?_, by simp [hsome], by simp [hc, hheld]⟩,
          h.move hlease (by simp [hpos]) (by simp [hsome, hpos])⟩
        cases hsome.symm.trans hp
        exact ⟨rfl, hpos, fun hmem => Nat.not_succ_le_self _ (h.behind _ hmem)⟩

end CursorRun

open CursorRun

/-- Whatever is called in whatever order, the cursor advances one position at a time under leases
that are handed out while there is a next position. -/
theorem event_cursor_advances (calls : List CursorCall)
    (hcalls : Along answer (fun run call => run.Fair call ∧ run.Room call) initial calls) :
    Along answer (fun run call => run.Advances call (run.answer call)) initial calls := by
  have hinitial : initial.Sound := by
    constructor <;> simp [initial]
  exact along_mono (fun _ _ h hok => Sound.step h hok.1 hok.2) hinitial hcalls

namespace CursorRun

/-- A cursor is acknowledged through a position, leased, and the position after it committed. -/
def leased (through : GlobalPosition) : List CursorCall :=
  let lease := ⟨⟨"first", .refl true⟩, some through, 0, .afterEpoch 1000000⟩
  [.acknowledge through, .lease ⟨"first", .refl true⟩ (.afterEpoch 0) (.fromMillis 1),
    .acknowledgeLease lease lease.nextPosition]

end CursorRun

theorem event_cursor_advances_from_seven :
    Along answer (fun run call => run.Fair call ∧ run.Room call) initial (leased 7) ∧
      Along answer (fun run call => run.Advances call (run.answer call)) initial (leased 7) := by
  have hcalls : Along answer (fun run call => run.Fair call ∧ run.Room call) initial
      (leased 7) := by
    decide +kernel
  exact ⟨hcalls, event_cursor_advances _ hcalls⟩

/-- At the last position a leased commit is taken and the cursor stays. -/
theorem event_cursor_stays_at_last :
    Along answer Fair initial (leased u64Max) ∧
      ¬ Along answer (fun run call => run.Advances call (run.answer call)) initial
        (leased u64Max) := by
  refine ⟨by decide +kernel, fun h => ?_⟩
  obtain ⟨hpos, -, -⟩ := h.2.2.1.commits (by decide +kernel) u64Max (by decide +kernel)
  exact absurd hpos (by decide +kernel)

end Made
