import Made.System.Design
import Mathlib.Data.Finset.Union

/-!
# The analysis of a design

A design may be published when its analysis, against the definitions its pins resolved to, finds
nothing.  The checks come in the order of the engine: names that refer to nothing, compositions that
could never start or never finish, compositions that do not match the definition they pin,
capabilities nobody has, and reviews that are not independent.
-/

namespace Made

/-! ## Findings -/

inductive AgenticSystemValidationLocus where
  | system
  | role (role : SystemRoleId)
  | participant (participant : ParticipantId)
  | ceremony (ceremony : SystemCeremonyId)
  | ceremonyRole (ceremony : SystemCeremonyId) (role : RoleId)
  | ceremonyInput (ceremony : SystemCeremonyId) (input : InputName)
  | topology (from_ to_ : ParticipantId)
  | profile (role : SystemRoleId)
  | independence (reviewer reviewed : SystemRoleId)
  | guard (ceremony : SystemCeremonyId) (guard : GuardName)
deriving DecidableEq

/-- A finding of the analysis; every one of them refuses the design. -/
structure AgenticSystemValidationFinding where
  locus : AgenticSystemValidationLocus
  defect : DomainError
deriving DecidableEq

def AgenticSystemValidationFinding.refusal (locus : AgenticSystemValidationLocus)
    (reason : String) : AgenticSystemValidationFinding :=
  ⟨locus, .invalidDocument reason⟩

abbrev Findings := List AgenticSystemValidationFinding

def refuseUnless (passes : Bool) (locus : AgenticSystemValidationLocus) (reason : String) :
    Findings :=
  if passes then [] else [.refusal locus reason]

def quoted (name : String) : String := "`" ++ name ++ "`"

def RawDigest.toHex {kind : String} (digest : RawDigest kind) : String :=
  String.ofList (digest.bytes.flatMap fun byte => Sha256.hexOf 2 byte.toNat)

def DefinitionPin.display (pin : DefinitionPin) : String := pin.name.val ++ "@" ++ pin.version.val

namespace AgenticSystem

variable (system : AgenticSystem)

def participantsOfRole (role : SystemRoleId) : List LogicalParticipant :=
  system.participants.inOrder.filter (·.role = role)

/-! ## References -/

def roleIsNotDeclared (role : SystemRoleId) : String :=
  "role " ++ quoted role.val ++ " is not declared by this system"

def participantsNameDeclaredRoles : Findings :=
  system.participants.inOrder.flatMap fun participant =>
    refuseUnless (system.roles.contains participant.role) (.participant participant.id)
      (roleIsNotDeclared participant.role)

def profilesNameDeclaredRoles : Findings :=
  system.profiles.keys.flatMap fun role =>
    refuseUnless (system.roles.contains role) (.profile role) (roleIsNotDeclared role)

def topologyNamesDeclaredParticipants : Findings :=
  system.topology.flatMap fun link => [link.from_, link.to_].flatMap fun endpoint =>
    refuseUnless (system.participants.contains endpoint) (.topology link.from_ link.to_)
      ("participant " ++ quoted endpoint.val ++ " is not declared by this system")

def integratorIsAnIntegratorWithSomebodyInIt : Findings :=
  match system.roles[system.integrator]? with
  | none => [.refusal (.role system.integrator)
      ("the integrator role " ++ quoted system.integrator.val ++ " is not declared by this system")]
  | some role =>
    refuseUnless role.kind.drivesTheSystem (.role system.integrator)
      ("the integrator role " ++ quoted system.integrator.val ++ " is declared as " ++
        quoted role.kind.asStr ++ ", not " ++ quoted SystemRoleKind.integrator.asStr) ++
    refuseUnless (system.participantsOfRole system.integrator ≠ []) (.role system.integrator)
      ("no participant plays the integrator role " ++ quoted system.integrator.val)

def supervisedRolesAreDeclared : Findings :=
  (system.supervision.roleActions.keys.flatMap fun role =>
    refuseUnless (system.roles.contains role) (.role role) (roleIsNotDeclared role)) ++
  system.supervision.independence.flatMap fun rule =>
    [rule.reviewer, rule.reviewed].flatMap fun role =>
      refuseUnless (system.roles.contains role) (.independence rule.reviewer rule.reviewed)
        (roleIsNotDeclared role)

def references : Findings :=
  system.participantsNameDeclaredRoles ++ system.profilesNameDeclaredRoles ++
    system.topologyNamesDeclaredParticipants ++
    system.integratorIsAnIntegratorWithSomebodyInIt ++ system.supervisedRolesAreDeclared

/-! ## Dependencies -/

def isNotComposed (ceremony : SystemCeremonyId) : String :=
  "ceremony " ++ quoted ceremony.val ++ " is not composed by this system"

def namedPredecessorsExist : Findings :=
  system.ceremonies.toList.flatMap fun (id, composition) =>
    composition.predecessors.flatMap fun predecessor =>
      refuseUnless (system.ceremonies.contains predecessor) (.ceremony id)
        (isNotComposed predecessor)

def nothingWaitsForItself : Findings :=
  system.ceremonies.toList.flatMap fun (id, composition) =>
    refuseUnless (id ∉ composition.dependsOn) (.ceremony id)
      ("ceremony " ++ quoted id.val ++ " depends on itself")

/-- Which compositions each composition can reach by waiting. -/
abbrev Reaches := Map SystemCeremonyId (Finset SystemCeremonyId)

variable (reaches : Reaches)

/-- What is reached from a composition, nothing where it is unknown. -/
def Reaches.from_ (id : SystemCeremonyId) : Finset SystemCeremonyId :=
  reaches[id]?.getD ∅

def directlyReaches : Reaches :=
  system.ceremonies.map fun _ composition =>
    (composition.predecessors.filter system.ceremonies.contains).toFinset

/-- What is reached from a composition is extended by what its steps reach by now. -/
def extendAt (id : SystemCeremonyId) : Reaches :=
  reaches.insert id (reaches.from_ id ∪ (reaches.from_ id).biUnion reaches.from_)

def extendReaches : Reaches := system.ceremonies.keys.foldl extendAt reaches

def closeReaches : Nat → Reaches → Reaches
  | 0, reaches => reaches
  | turns + 1, reaches =>
    let grown := system.extendReaches reaches
    if grown = reaches then grown else closeReaches turns grown

def reachability : Reaches :=
  system.closeReaches system.ceremonies.size system.directlyReaches

/-- Everything that waits for a composition and that it waits for. -/
def Reaches.cycleOf (id : SystemCeremonyId) : List SystemCeremonyId :=
  match reaches[id]? with
  | none => []
  | some fromId => (reaches.toList.filter fun (other, fromOther) =>
    other ∈ fromId && id ∈ fromOther).map (·.1)

def bounded (cycle : List SystemCeremonyId) : Bool :=
  cycle.any fun member => system.ceremonies[member]?.any (·.activation.maxRounds.isSome)

/-- Every cycle that is not bounded, reported once, at its first member. -/
def everyCycleIsBounded : Findings :=
  (system.ceremonies.keys.foldl (fun (acc : List SystemCeremonyId × Findings) id =>
    if id ∈ acc.1 ∨ id ∉ reaches.from_ id then acc
    else
      let cycle := reaches.cycleOf id
      (acc.1 ++ cycle, acc.2 ++ refuseUnless (system.bounded cycle) (.ceremony id)
        ("ceremonies " ++ String.intercalate ", " (cycle.map fun member => quoted member.val) ++
          " wait for each other and no member declares a bounded loop"))) ([], [])).2

def everyLoopClosesItsOwnCycle : Findings :=
  system.ceremonies.toList.flatMap fun (id, composition) =>
    match composition.activation.loopsAfter with
    | none => []
    | some after =>
      refuseUnless (!system.ceremonies.contains after || (reaches.cycleOf id).contains after)
        (.ceremony id)
        ("ceremony " ++ quoted id.val ++ " loops after " ++ quoted after.val ++
          ", which is not in a cycle with it, so no round could ever be sent back")

/-- Asked of what blocks in a run: the way back of a loop is not waited for in the first round. -/
def somethingCanStart : Findings :=
  refuseUnless (system.ceremonies.isEmpty ||
      system.ceremonies.keys.any fun id => (system.blockingDependencies id).any (·.isEmpty))
    .system "every composed ceremony waits for another, so a run has nothing to begin with"

def dependencies : Findings :=
  let reaches := system.reachability
  system.namedPredecessorsExist ++ system.nothingWaitsForItself ++
    system.everyCycleIsBounded reaches ++ system.everyLoopClosesItsOwnCycle reaches ++
    system.somethingCanStart

/-! ## Compositions -/

/-- The published definition behind each composition, where there is one. -/
abbrev Resolved := Map SystemCeremonyId PublishedCeremonyDefinition

/-- Every seat of the definition is filled, and no seat it does not have is. -/
def seats (id : SystemCeremonyId) (composition : CeremonyComposition)
    (published : PublishedCeremonyDefinition) : Findings :=
  (published.definition.roles.keys.flatMap fun seat =>
    refuseUnless (composition.roleBindings.contains seat) (.ceremonyRole id seat)
      ("no participant is bound to seat " ++ quoted seat.val)) ++
  composition.roleBindings.toList.flatMap fun (seat, participant) =>
    refuseUnless (published.definition.roles.contains seat) (.ceremonyRole id seat)
      ("the pinned definition " ++ quoted composition.pin.display ++ " declares no seat " ++
        quoted seat.val) ++
    refuseUnless (system.participants.contains participant) (.ceremonyRole id seat)
      ("participant " ++ quoted participant.val ++ " is not declared by this system")

variable (resolved : Resolved)

/-- Every input taken from another ceremony is one this definition declares, taken from an output
that one promises. -/
def wiring (id : SystemCeremonyId) (composition : CeremonyComposition)
    (own : PublishedCeremonyDefinition) : Findings :=
  composition.inputsFrom.toList.flatMap fun (input, source) =>
    refuseUnless (own.definition.inputs.contains input) (.ceremonyInput id input)
      ("the pinned definition " ++ quoted composition.pin.display ++ " declares no input " ++
        quoted input.val) ++
    if system.ceremonies.contains source.ceremony then
      match resolved[source.ceremony]? with
      | none => []
      | some producer =>
        refuseUnless (producer.definition.outputs.contains source.output) (.ceremonyInput id input)
          ("ceremony " ++ quoted source.ceremony.val ++ " declares no output " ++
            quoted source.output.val)
    else [.refusal (.ceremonyInput id input) (isNotComposed source.ceremony)]

/-- A supervised approval is of a guard that a human answers. -/
def approvals : Findings :=
  system.supervision.humanApprovals.flatMap fun approval =>
    let locus := .guard approval.ceremony approval.guardName
    if system.ceremonies.contains approval.ceremony then
      match resolved[approval.ceremony]? with
      | none => []
      | some published =>
        match published.definition.guards[approval.guardName]? with
        | none => [.refusal locus ("the pinned definition of " ++ quoted approval.ceremony.val ++
            " declares no such guard")]
        | some guard => refuseUnless (guard.condition = .humanApproval) locus
            ("this guard is not answered by a human, so requiring a human approval of it " ++
              "would record a decision nobody made")
    else [.refusal locus (isNotComposed approval.ceremony)]

def compositions : Findings :=
  (system.ceremonies.toList.flatMap fun (id, composition) =>
    match resolved[id]? with
    | none => [.refusal (.ceremony id)
        ("no published definition matches the pin " ++ quoted composition.pin.display)]
    | some published =>
      if published.digest ≠ composition.pin.digest then
        [.refusal (.ceremony id)
          ("the published " ++ quoted composition.pin.display ++ " has digest " ++
            published.digest.toHex ++ " and the pin names " ++ composition.pin.digest.toHex)]
      else
        system.seats id composition published ++ system.wiring resolved id composition published) ++
  system.approvals resolved

/-! ## Capabilities and independence -/

def capabilities : Findings :=
  system.profiles.toList.flatMap fun (role, profile) =>
    if system.roles.contains role then
      profile.requiredCapabilities.flatMap fun capability =>
        refuseUnless
          ((system.participantsOfRole role).any fun participant =>
            participant.binding.supplies capability)
          (.profile role)
          ("role " ++ quoted role.val ++ " requires capability " ++ quoted capability.val ++
            ", which no participant playing it declares")
    else []

/-- Why a participant cannot review another, if it cannot. -/
def whyNotIndependent (reviewer subject : ParticipantId) : Option String :=
  if reviewer = subject then
    some ("participant " ++ quoted reviewer.val ++ " would review its own work")
  else do
    let group ← (← system.participants[reviewer]?).binding.independenceGroup
    let other ← (← system.participants[subject]?).binding.independenceGroup
    if group = other then
      some ("participants " ++ quoted reviewer.val ++ " and " ++ quoted subject.val ++
        " are both in independence group " ++ quoted group.val)
    else none

def seatedOfRole (role : SystemRoleId) (composition : CeremonyComposition) : List ParticipantId :=
  ((system.participantsOfRole role).map (·.id)).filter composition.roleBindings.inOrder.contains

def independence : Findings :=
  system.supervision.independence.flatMap fun rule =>
    system.ceremonies.toList.flatMap fun (id, composition) =>
      (system.seatedOfRole rule.reviewer composition).flatMap fun reviewer =>
        (system.seatedOfRole rule.reviewed composition).flatMap fun subject =>
          ((system.whyNotIndependent reviewer subject).map fun reason =>
            .refusal (.independence rule.reviewer rule.reviewed)
              ("in ceremony " ++ quoted id.val ++ ", " ++ reason)).toList

/-! ## The report -/

def analyze : Findings :=
  system.references ++ system.dependencies ++ system.compositions resolved ++
    system.capabilities ++ system.independence

def isPublishable : Bool := (system.analyze resolved).isEmpty

end AgenticSystem

end Made
