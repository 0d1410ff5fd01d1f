import Made.System.Advance

/-!
# Opening a run

Opening a run records who of the participants the host supplied, stores the run with nothing started
and then starts every composition that nothing blocks.  Asking twice hands back the run that exists,
once it is shown to run the same design.
-/

namespace Made

open Interleaving Outcome

/-! ## Who the host supplied -/

structure ParticipantOffer where
  specialty : Specialty
  capabilities : List Capability

def ParticipantOffer.missing (offer : ParticipantOffer) (needed : List Capability) :
    Option Capability :=
  needed.find? fun capability => !offer.capabilities.contains capability

variable (system : AgenticSystem)

/-- What whoever plays a participant has to be able to do: what the participant declares and what
the profile of its role asks for. -/
def neededCapabilities (participant : LogicalParticipant) : List Capability :=
  OrderedSets.listed (participant.binding.capabilities ++
    (system.profiles[participant.role]?.map (·.requiredCapabilities)).getD [])

/-- Nothing stands in for a missing party. -/
def materializeOne (offers : Map ParticipantId ParticipantOffer)
    (id : ParticipantId) (participant : LogicalParticipant) : Result ParticipantMaterialization :=
  match offers[id]? with
  | none => do
    let reason ← Text.new _ ("the host offered nobody for participant `" ++ id.val ++ "`")
    pure (.unavailable reason)
  | some offer =>
    match offer.missing (neededCapabilities system participant) with
    | some capability => do
      let reason ← Text.new _ ("`" ++ offer.specialty.val ++
        "` was offered for participant `" ++ id.val ++ "` but does not supply capability `" ++
        capability.val ++ "`")
      pure (.unavailable reason)
    | none => pure (.bound offer.specialty)

def materialize (offers : Map ParticipantId ParticipantOffer) :
    Result (Map ParticipantId ParticipantMaterialization) :=
  system.participants.toList.foldlM (fun materialized (id, participant) => do
    let one ← materializeOne system offers id participant
    pure (materialized.insert id one)) ∅

/-! ## Planning -/

def CeremonyExecutionLink.pending (pin : DefinitionPin) : CeremonyExecutionLink :=
  ⟨none, pin, .pending, .zero, none⟩

def AgenticSystemExecution.plan (id : AgenticSystemExecutionId) (pin : SystemPin)
    (ceremonies : Map SystemCeremonyId CeremonyExecutionLink)
    (participants : Map ParticipantId ParticipantMaterialization) (now : OffsetDateTime) :
    Result AgenticSystemExecution := do
  require (ceremonies.isEmpty = false) (.emptyCollection "agentic_system_execution.ceremonies")
  pure ⟨id, pin, ceremonies, participants, observedState ceremonies, now⟩

structure InstantiateInput where
  systemId : AgenticSystemId
  revision : Nat
  executionId : AgenticSystemExecutionId
  inputs : Map SystemCeremonyId CeremonyContext
  offers : Map ParticipantId ParticipantOffer

namespace Instantiate

/-- Start one composition in its first round, or record why it was skipped. -/
def begin_ (caller : Advance.Caller) (input : InstantiateInput) (system : AgenticSystem)
    (run : AgenticSystemExecution) (materialized : Map ParticipantId ParticipantMaterialization)
    (ceremony : SystemCeremonyId) : SystemProg CeremonyExecutionLink := do
  let link ← .check (okOr (run.link ceremony) (.notFound "agentic_system_execution.ceremony"))
  match ← .check (blocking system materialized ceremony) with
  | some reason => pure (link.skipped reason)
  | none => do
    let composition ← .check (expect system.ceremonies[ceremony]? "no entry found for key")
    let context := (input.inputs[ceremony]?).getD .empty
    let id ← Advance.launch caller input.executionId composition LoopRound.zero.next context
      materialized
    pure (link.started id LoopRound.zero.next)

def beginAll (caller : Advance.Caller) (input : InstantiateInput) (system : AgenticSystem)
    (materialized : Map ParticipantId ParticipantMaterialization) : List SystemCeremonyId →
    AgenticSystemExecution → SystemProg AgenticSystemExecution
  | [], run => pure run
  | ceremony :: rest, run => do
    let link ← begin_ caller input system run materialized ceremony
    let now ← .ask .now
    let run ← .check (run.withLink ceremony link now)
    beginAll caller input system materialized rest run

def roots : List SystemCeremonyId :=
  system.ceremonies.keys.filter fun id => (system.blockingDependencies id).any (·.isEmpty)

/-- The run that an identity already names, once it is shown to run the same design. -/
def existing (input : InstantiateInput) : SystemProg AgenticSystemExecution := do
  let stored ← .ask (.getRun input.executionId)
  let stored ← .check (okOr stored (.notFound "agentic_system_execution"))
  .check (require (stored.system = ⟨input.systemId, input.revision⟩)
    (.conflict "agentic_system_execution.system"))
  pure stored

def execute (caller : Advance.Caller) (input : InstantiateInput) :
    SystemProg AgenticSystemExecution := do
  let system ← .ask (.publishedSystem input.systemId input.revision)
  let system ← .check (okOr system (.notFound "published_agentic_system"))
  let materialized ← .check (materialize system input.offers)
  let now ← .ask .now
  let planned ← .check (AgenticSystemExecution.plan input.executionId
    ⟨input.systemId, input.revision⟩
    (system.ceremonies.map fun _ composition => .pending composition.pin) materialized now)
  match ← .ask (.createRun planned) with
  | .alreadyExists _ => existing input
  | .created run => do
    let run ← beginAll caller input system materialized (roots system) run
    Advance.store run

end Instantiate

end Made
