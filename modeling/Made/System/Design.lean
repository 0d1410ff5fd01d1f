import Made.Library.OrderedSets
import Made.System.Identity
import Made.Values.Lineage

/-!
# Designs of agentic systems

An agentic system composes published ceremonies: some wait for others, some go round a bounded
number of times.  A design also declares the roles of the system, who plays them, who talks to whom
and what is supervised; these parts matter to its analysis and not to its runs.
-/

namespace Made

/-! ## Compositions -/

abbrev AgenticSystemId := Text (plainRule "agentic_system_id" 256)
abbrev ParticipantId := Text (slugRule "participant_id" 128)

instance : Std.TransOrd ParticipantId := inferInstance
instance : Std.LawfulEqOrd ParticipantId := inferInstance

abbrev LoopRounds := Ordinal ⟨"loop_rounds", 100⟩

inductive CeremonyActivation where
  | manual
  | afterDependencies
  | loop (after : SystemCeremonyId) (maxRounds : LoopRounds)
deriving DecidableEq

namespace CeremonyActivation

def loopsAfter : CeremonyActivation → Option SystemCeremonyId
  | loop after _ => some after
  | _ => none

def maxRounds : CeremonyActivation → Option LoopRounds
  | loop _ maxRounds => some maxRounds
  | _ => none

end CeremonyActivation

structure CeremonyOutputRef where
  ceremony : SystemCeremonyId
  output : OutputName
deriving DecidableEq

structure CeremonyComposition where
  id : SystemCeremonyId
  pin : DefinitionPin
  dependsOn : List SystemCeremonyId
  activation : CeremonyActivation
  roleBindings : Map RoleId ParticipantId
  inputsFrom : Map InputName CeremonyOutputRef
deriving DecidableEq

/-- Every composition this one waits for: its declared dependencies and the one its loop runs back
to. -/
def CeremonyComposition.predecessors (composition : CeremonyComposition) : List SystemCeremonyId :=
  OrderedSets.listed (composition.dependsOn ++ composition.activation.loopsAfter.toList)

/-! ## Roles and participants -/

abbrev SystemRoleId := Text (slugRule "system_role_id" 128)
abbrev Capability := Text (slugRule "capability" 128)
abbrev IndependenceGroup := Text (slugRule "independence_group" 128)

instance : Std.TransOrd SystemRoleId := inferInstance

inductive SystemRoleKind where
  | integrator
  | contributor
  | reviewer
  | approver
  | observer
deriving DecidableEq, Repr

namespace SystemRoleKind

def asStr : SystemRoleKind → String
  | integrator => "integrator"
  | contributor => "contributor"
  | reviewer => "reviewer"
  | approver => "approver"
  | observer => "observer"

def drivesTheSystem (kind : SystemRoleKind) : Bool := kind == integrator

end SystemRoleKind

structure SystemRole where
  id : SystemRoleId
  kind : SystemRoleKind
deriving DecidableEq

structure ParticipantBindingPolicy where
  capabilities : List Capability
  independenceGroup : Option IndependenceGroup
deriving DecidableEq

def ParticipantBindingPolicy.supplies (policy : ParticipantBindingPolicy)
    (capability : Capability) : Bool :=
  policy.capabilities.contains capability

structure LogicalParticipant where
  id : ParticipantId
  role : SystemRoleId
  binding : ParticipantBindingPolicy
deriving DecidableEq

/-- Nobody is linked to themselves. -/
structure CollaborationLink where
  from_ : ParticipantId
  to_ : ParticipantId
  distinct : from_ ≠ to_
deriving DecidableEq

structure RequestedExecutionProfile where
  requiredCapabilities : List Capability
deriving DecidableEq

/-! ## Supervision -/

structure GuardRef where
  ceremony : SystemCeremonyId
  guardName : GuardName
deriving DecidableEq

/-- No role is independent of itself. -/
structure IndependenceRule where
  reviewer : SystemRoleId
  reviewed : SystemRoleId
  distinct : reviewer ≠ reviewed
deriving DecidableEq

structure SupervisionPolicy where
  humanApprovals : List GuardRef
  independence : List IndependenceRule
  roleActions : Map SystemRoleId (List RoleAction)
deriving DecidableEq

/-! ## Designs -/

structure AgenticSystem where
  integrator : SystemRoleId
  roles : Map SystemRoleId SystemRole
  participants : Map ParticipantId LogicalParticipant
  topology : List CollaborationLink
  profiles : Map SystemRoleId RequestedExecutionProfile
  ceremonies : Map SystemCeremonyId CeremonyComposition
  supervision : SupervisionPolicy
deriving DecidableEq

namespace AgenticSystem

/-- Start a design; what no revision of it could repair is refused. -/
def draft (integrator : SystemRoleId) (roles : List SystemRole)
    (participants : List LogicalParticipant) (topology : List CollaborationLink)
    (profiles : Map SystemRoleId RequestedExecutionProfile) (ceremonies : List CeremonyComposition)
    (supervision : SupervisionPolicy) : Result AgenticSystem := do
  let roles ← collect (·.id) "agentic_system.roles" roles ∅
  let participants ← collect (·.id) "agentic_system.participants" participants ∅
  let ceremonies ← collect (·.id) "agentic_system.ceremonies" ceremonies ∅
  Outcome.require (roles.isEmpty = false) (.emptyCollection "agentic_system.roles")
  Outcome.require (ceremonies.isEmpty = false) (.emptyCollection "agentic_system.ceremonies")
  pure { integrator, roles, participants, topology, profiles, ceremonies, supervision }

/-- The edges a round travels back along: of the anchor of a loop to the loop. -/
def backEdges (system : AgenticSystem) : List (SystemCeremonyId × SystemCeremonyId) :=
  system.ceremonies.toList.filterMap fun (id, composition) =>
    composition.activation.loopsAfter.map fun anchor => (anchor, id)

/-- What a composition must wait for before it can run. -/
def blockingDependencies (system : AgenticSystem) (id : SystemCeremonyId) :
    Option (List SystemCeremonyId) :=
  system.ceremonies[id]?.map fun composition =>
    composition.dependsOn.filter fun dependency => (id, dependency) ∉ system.backEdges

end AgenticSystem

end Made
