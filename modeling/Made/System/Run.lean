import Made.System.Design

/-!
# Runs of an agentic system

A run links every composition of a design to the ceremony it became, and decides what can start
from what those ceremonies say.
-/

namespace Made

abbrev UnavailabilityReason := Text (plainRule "unavailability_reason" 512)

/-! ## Rounds counted -/

namespace LoopRound

def zero : LoopRound := ⟨0, by decide⟩

def next (round : LoopRound) : LoopRound := ⟨min (round.val + 1) u32Max, Nat.min_le_right _ _⟩

def isExhausted (round : LoopRound) (bound : LoopRounds) : Bool := bound.val ≤ round.val

end LoopRound

/-! ## Links -/

inductive LinkStatus where
  | pending
  | started
  | completed
  | failed
  | skipped
deriving DecidableEq, Repr

namespace LinkStatus

def isSettled : LinkStatus → Bool
  | completed | failed | skipped => true
  | _ => false

def releasesDependants (status : LinkStatus) : Bool := status == completed

end LinkStatus

structure CeremonyExecutionLink where
  instanceId : Option CeremonyId
  pin : DefinitionPin
  status : LinkStatus
  round : LoopRound
  skippedBecause : Option UnavailabilityReason
deriving DecidableEq

namespace CeremonyExecutionLink

variable (link : CeremonyExecutionLink)

def started (instanceId : CeremonyId) (round : LoopRound) : CeremonyExecutionLink :=
  ⟨some instanceId, link.pin, .started, round, none⟩

def settled (status : LinkStatus) : CeremonyExecutionLink :=
  { link with status }

def reopened : CeremonyExecutionLink :=
  ⟨none, link.pin, .pending, link.round, none⟩

def skipped (reason : UnavailabilityReason) : CeremonyExecutionLink :=
  ⟨none, link.pin, .skipped, link.round, some reason⟩

end CeremonyExecutionLink

inductive ExecutionState where
  | planned
  | running
  | completed
  | failed
deriving DecidableEq, Repr

def ExecutionState.of (links : List LinkStatus) : ExecutionState :=
  if links.any (· == .failed) then .failed
  else if links.all (· == .pending) then .planned
  else if links.all (·.isSettled) then .completed
  else .running

inductive ParticipantMaterialization where
  | bound (specialty : Specialty)
  | unavailable (reason : UnavailabilityReason)
deriving DecidableEq

namespace ParticipantMaterialization

def specialty? : ParticipantMaterialization → Option Specialty
  | bound specialty => some specialty
  | unavailable _ => none

end ParticipantMaterialization

/-! ## Runs -/

structure SystemPin where
  id : AgenticSystemId
  revision : Nat
deriving DecidableEq

structure AgenticSystemExecution where
  id : AgenticSystemExecutionId
  system : SystemPin
  ceremonies : Map SystemCeremonyId CeremonyExecutionLink
  participants : Map ParticipantId ParticipantMaterialization
  state : ExecutionState
  updatedAt : OffsetDateTime
deriving DecidableEq

variable (run : AgenticSystemExecution)
variable (ceremony : SystemCeremonyId)

namespace AgenticSystemExecution

def link : Option CeremonyExecutionLink :=
  run.ceremonies[ceremony]?

def observedState (ceremonies : Map SystemCeremonyId CeremonyExecutionLink) : ExecutionState :=
  .of (ceremonies.inOrder.map (·.status))

def withLink
    (link : CeremonyExecutionLink) (now : OffsetDateTime) : Result AgenticSystemExecution := do
  Outcome.require (ceremony ∈ run.ceremonies) (.notFound "agentic_system_execution.ceremony")
  let ceremonies := run.ceremonies.insert ceremony link
  pure { run with ceremonies, updatedAt := now, state := observedState ceremonies }

def isCompleted : Bool :=
  (run.link ceremony).any (·.status.releasesDependants)

/-- Whether a composition waits for nothing that is not completed. -/
def unblocked (system : AgenticSystem) (ceremony : SystemCeremonyId) : Bool :=
  (system.blockingDependencies ceremony).all fun waiting => waiting.all run.isCompleted

def ready (system : AgenticSystem) : List SystemCeremonyId :=
  (run.ceremonies.toList.filter fun (id, link) =>
    link.status == .pending && run.unblocked system id).map (·.1)

end AgenticSystemExecution

/-! ## Rounds -/

/-- Whether a composition waits for one of the members and one of them waits for it. -/
def AgenticSystem.joins (system : AgenticSystem) (members : List SystemCeremonyId)
    (id : SystemCeremonyId) (composition : CeremonyComposition) : Bool :=
  let touches := composition.dependsOn.any (· ∈ members) ||
    composition.activation.loopsAfter.any (· ∈ members)
  let reached := members.any fun member => (system.ceremonies[member]?).any fun other =>
    id ∈ other.dependsOn || other.activation.loopsAfter == some id
  touches && reached

def AgenticSystem.join (system : AgenticSystem) (members : List SystemCeremonyId)
    (entry : SystemCeremonyId × CeremonyComposition) : List SystemCeremonyId :=
  if entry.1 ∈ members then members
  else if system.joins members entry.1 entry.2 then members ++ [entry.1] else members

/-- One pass over the compositions; a new member counts for the ones after it. -/
def AgenticSystem.grow (system : AgenticSystem) (members : List SystemCeremonyId) :
    List SystemCeremonyId :=
  system.ceremonies.toList.foldl system.join members

def AgenticSystem.growAll (system : AgenticSystem) :
    Nat → List SystemCeremonyId → List SystemCeremonyId
  | 0, members => members
  | turns + 1, members =>
    let grown := system.grow members
    if grown.length = members.length then grown else system.growAll turns grown

/-- Everything that waits for a composition and that it waits for, in order; every pass but the last
has a new member, so that there are turns enough. -/
def cycleOf (system : AgenticSystem) (ceremony : SystemCeremonyId) : List SystemCeremonyId :=
  let members := system.growAll (system.ceremonies.size + 1) [ceremony]
  system.ceremonies.keys.filter (· ∈ members)

/-- Whether a loop has completed and may go round again. -/
def goesRound (composition : CeremonyComposition) : Bool :=
  match composition.activation.maxRounds, run.link ceremony with
  | some bound, some link => link.status == .completed && !link.round.isExhausted bound
  | _, _ => false

def reopenAll (now : OffsetDateTime) (run : AgenticSystemExecution)
    (members : List SystemCeremonyId) : Result AgenticSystemExecution :=
  members.foldlM (fun run member =>
    match run.link member with
    | some link => run.withLink member link.reopened now
    | none => .ok run) run

/-- Send every completed loop round again, with everything in its cycle. -/
def reopen (system : AgenticSystem) (now : OffsetDateTime) : Result AgenticSystemExecution :=
  system.ceremonies.toList.foldlM (fun run (ceremony, composition) =>
    if goesRound run ceremony composition then
      reopenAll now run (cycleOf system ceremony)
    else .ok run) run

/-! ## Participants -/

def blocking (system : AgenticSystem) (materialized : Map ParticipantId ParticipantMaterialization)
    (ceremony : SystemCeremonyId) : Result (Option UnavailabilityReason) :=
  match system.ceremonies[ceremony]? with
  | none => .ok none
  | some composition =>
    firstReason composition.roleBindings.inOrder
where
  /-- The first participant in the order of the seats who is not there decides. -/
  firstReason : List ParticipantId → Result (Option UnavailabilityReason)
    | [] => .ok none
    | participant :: rest =>
      match materialized[participant]? with
      | some (.bound _) => firstReason rest
      | some (.unavailable reason) => do
        let reason ← Text.new _ ("ceremony `" ++ ceremony.val ++ "` needs participant `" ++
          participant.val ++ "`: " ++ reason.val)
        pure (some reason)
      | none => do
        let reason ← Text.new _ ("ceremony `" ++ ceremony.val ++
          "` is bound to participant `" ++ participant.val ++
          "`, which the design does not declare")
        pure (some reason)

def seating (composition : CeremonyComposition)
    (materialized : Map ParticipantId ParticipantMaterialization) : List (RoleId × Specialty) :=
  composition.roleBindings.toList.filterMap fun (seat, participant) =>
    (materialized[participant]?.bind (·.specialty?)).map fun specialty => (seat, specialty)

end Made
