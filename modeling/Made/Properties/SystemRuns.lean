import Made.Library.Marks
import Made.Runs.Machine
import Made.System.Analysis
import Made.System.Instantiate
import Made.System.Rounds

/-!
# What a composition waits for

Advancing a run starts the compositions that are ready.  A start is marked in the program, with the
run as it stands at that moment: every dependency that is not the way back of a loop is completed
then.  The composition a loop runs after is declared next to the dependencies and is not one of
them, so it is waited for where the design names it a second time.
-/

namespace Made

open Interleaving Outcome

/-! ## What a design says -/

namespace AgenticSystem

/-- What a composition waits for: its declared dependencies, those that a loop cuts aside, and the
composition its own loop runs after. -/
def waitsFor (system : AgenticSystem) (id : SystemCeremonyId) : List SystemCeremonyId :=
  match system.ceremonies[id]? with
  | none => []
  | some composition =>
    composition.predecessors.filter fun other =>
      composition.activation.loopsAfter = some other || (id, other) ∉ system.backEdges

/-- The composition that a composition of the design loops after. -/
def anchorOf (system : AgenticSystem) (id : SystemCeremonyId) : Option SystemCeremonyId :=
  system.ceremonies[id]?.bind (·.activation.loopsAfter)

theorem mem_waitsFor {system : AgenticSystem} {id other : SystemCeremonyId} :
    other ∈ system.waitsFor id ↔ other ∈ system.blockers id ∨ system.anchorOf id = some other := by
  rw [waitsFor, blockers, blockingDependencies, anchorOf]
  cases hid : system.ceremonies[id]? with
  | none => simp
  | some composition =>
    simp only [CeremonyComposition.predecessors, List.mem_filter, OrderedSets.mem_listed,
      List.mem_append, Option.mem_toList, Bool.or_eq_true, decide_eq_true_eq,
      Option.map_some, Option.getD_some, Option.bind_some]
    constructor
    · rintro ⟨hmem | hanchor, hkept | hkept⟩
      · exact .inr hkept
      · exact .inl ⟨hmem, hkept⟩
      · exact .inr hkept
      · exact .inr hanchor
    · rintro (⟨hmem, hkept⟩ | hanchor)
      · exact ⟨.inl hmem, .inr hkept⟩
      · exact ⟨.inr hanchor, .inl hanchor⟩

/-- Every loop runs after one of the dependencies that block it. -/
def AnchorsBlock (system : AgenticSystem) : Prop :=
  ∀ id ∈ system.ceremonies.keys, ∀ anchor ∈ system.anchorOf id, anchor ∈ system.blockers id

theorem AnchorsBlock.mem_blockers {system : AgenticSystem} (h : system.AnchorsBlock)
    {id anchor : SystemCeremonyId} (hanchor : system.anchorOf id = some anchor) :
    anchor ∈ system.blockers id := by
  obtain ⟨composition, hid, -⟩ := Option.bind_eq_some_iff.mp hanchor
  refine h id ?_ anchor hanchor
  rw [Std.ExtTreeMap.mem_keys, Std.ExtTreeMap.mem_iff_isSome_getElem?, hid]
  rfl

end AgenticSystem

/-! ## Starts -/

structure Start where
  system : AgenticSystem
  run : AgenticSystemExecution
  ceremony : SystemCeremonyId

/-- Everything the design says it waits for is completed. -/
def Start.Waited (start : Start) : Prop :=
  ∀ other ∈ start.system.waitsFor start.ceremony, start.run.isCompleted other = true

instance (start : Start) : Decidable start.Waited :=
  inferInstanceAs (Decidable (∀ other ∈ start.system.waitsFor start.ceremony, _))

def Start.Unblocked (start : Start) : Prop :=
  ∀ other ∈ start.system.blockers start.ceremony, start.run.isCompleted other = true

theorem Start.Unblocked.waited {start : Start} (h : start.Unblocked)
    (hanchors : start.system.AnchorsBlock) : start.Waited := by
  intro other ho
  obtain hblock | hanchor := AgenticSystem.mem_waitsFor.mp ho
  · exact h other hblock
  · exact h other (hanchors.mem_blockers hanchor)

abbrev MarkedProg (α : Type) := ExceptT (Fault DomainError) (Prog (systemPorts.marked Start)) α

def MarkedProg.lift {α : Type} (p : SystemProg α) : MarkedProg α := Prog.liftE Start p

@[simp] theorem MarkedProg.erase_lift {α : Type} (p : SystemProg α) :
    Prog.eraseE (MarkedProg.lift p) = p := Prog.eraseE_liftE p

variable {ok : Start → Prop}

/-- After a program that starts nothing, only what follows can start anything. -/
theorem MarkedProg.lift_bind {α β : Type} {p : SystemProg α}
    {f : α → MarkedProg β} {post : β → Prop} (h : ∀ a, Prog.MarksE ok post (f a)) :
    Prog.MarksE ok post (MarkedProg.lift p >>= f) :=
  (Prog.MarksE.lift p).bind fun a _ => h a

theorem MarkedProg.check_bind {α β : Type} {result : Result α}
    {f : α → MarkedProg β} {post : β → Prop} (h : ∀ a, result = .ok a → Prog.MarksE ok post (f a)) :
    Prog.MarksE ok post (MarkedProg.lift (.check result) >>= f) :=
  Prog.MarksE.bind (Prog.MarksE.liftCheck fun _ ha => ha) h

namespace Advance

variable {run : AgenticSystemExecution}

/-! ## The program with its starts marked -/

namespace Marked

variable (caller : Caller)

def begin_ (system : AgenticSystem) (run : AgenticSystemExecution)
    (ceremony : SystemCeremonyId) : MarkedProg CeremonyExecutionLink := do
  let link ← .lift (.check (okOr (run.link ceremony)
    (.notFound "agentic_system_execution.ceremony")))
  match ← .lift (.check (blocking system run.participants ceremony)) with
  | some reason => pure (link.skipped reason)
  | none => do
    let composition ← .lift (.check (expect system.ceremonies[ceremony]? "no entry found for key"))
    let context ← .lift (projectedInputs run composition)
    Prog.markE ⟨system, run, ceremony⟩
    let id ← .lift (launch caller run.id composition link.round.next context run.participants)
    pure (link.started id link.round.next)

def beginAll (system : AgenticSystem) : List SystemCeremonyId → AgenticSystemExecution →
    MarkedProg AgenticSystemExecution
  | [], run => pure run
  | ceremony :: rest, run => do
    let link ← begin_ caller system run ceremony
    let now ← .lift (.ask .now)
    let run ← .lift (.check (run.withLink ceremony link now))
    beginAll system rest run

def startReady (system : AgenticSystem) (run : AgenticSystemExecution) :
    MarkedProg AgenticSystemExecution :=
  beginAll caller system (run.ready system) run

def advanced (id : AgenticSystemExecutionId) : MarkedProg AgenticSystemExecution := do
  let before ← .lift (.ask (.getRun id))
  let before ← .lift (.check (okOr before (.notFound "agentic_system_execution")))
  let system ← .lift (.ask (.publishedSystem before.system.id before.system.revision))
  let system ← .lift (.check (okOr system (.notFound "published_agentic_system")))
  let run ← .lift (settle before)
  let run ← startReady caller system run
  let now ← .lift (.ask .now)
  let run ← .lift (.check (reopen run system now))
  startReady caller system run

def execute (id : AgenticSystemExecutionId) : MarkedProg AgenticSystemExecution := do
  let run ← advanced caller id
  .lift (store run)

end Marked

variable {caller : Caller}
variable (system : AgenticSystem)

theorem erase_begin (run : AgenticSystemExecution) (ceremony : SystemCeremonyId) :
    Prog.eraseE (Marked.begin_ caller system run ceremony) = begin_ caller system run ceremony := by
  simp only [Marked.begin_, begin_, Prog.eraseE_bind, MarkedProg.erase_lift]
  refine congrArg _ (funext fun link => congrArg _ (funext fun reason => ?_))
  cases reason with
  | some reason => rfl
  | none =>
    simp only [Prog.eraseE_markE_bind, Prog.eraseE_bind, MarkedProg.erase_lift, Prog.eraseE_pure]

theorem erase_beginAll (ceremonies : List SystemCeremonyId) (run : AgenticSystemExecution) :
    Prog.eraseE (Marked.beginAll caller system ceremonies run) =
      beginAll caller system ceremonies run := by
  induction ceremonies generalizing run with
  | nil => rfl
  | cons ceremony rest ih =>
    simp only [Marked.beginAll, beginAll, Prog.eraseE_bind, MarkedProg.erase_lift, erase_begin, ih]

/-- Without its marks, the program is the one that is run. -/
theorem erase_execute (id : AgenticSystemExecutionId) :
    Prog.eraseE (Marked.execute caller id) = execute caller id := by
  simp only [Marked.execute, Marked.advanced, Marked.startReady, execute, advanced, startReady,
    Prog.eraseE_bind, MarkedProg.erase_lift, erase_beginAll]

/-! ## What is completed when a composition starts -/

theorem begin_marks {system : AgenticSystem} {ceremony : SystemCeremonyId}
    (h : Start.Unblocked ⟨system, run, ceremony⟩) :
    Prog.MarksE Start.Unblocked (fun _ => True) (Marked.begin_ caller system run ceremony) := by
  unfold Marked.begin_
  apply MarkedProg.lift_bind
  intro link
  apply MarkedProg.lift_bind
  intro reason
  cases reason with
  | some reason => exact Prog.MarksE.pure trivial
  | none =>
    apply MarkedProg.lift_bind
    intro composition
    apply MarkedProg.lift_bind
    intro context
    refine (Prog.MarksE.mark h).bind fun _ _ => ?_
    apply MarkedProg.lift_bind
    intro id
    exact Prog.MarksE.pure trivial

theorem beginAll_marks {system : AgenticSystem} {ceremonies : List SystemCeremonyId}
    (h : Startable system run ceremonies) :
    Prog.MarksE Start.Unblocked (fun _ => True) (Marked.beginAll caller system ceremonies run) := by
  induction ceremonies generalizing run with
  | nil => exact Prog.MarksE.pure trivial
  | cons ceremony rest ih =>
    have hunblocked : Start.Unblocked ⟨system, run, ceremony⟩ :=
      h.unblocked ceremony List.mem_cons_self
    unfold Marked.beginAll
    apply Prog.MarksE.bind (begin_marks hunblocked)
    intro link _
    apply MarkedProg.lift_bind
    intro now
    apply MarkedProg.check_bind
    intro run' hrun'
    exact ih (h.step hrun')

theorem startReady_marks (run : AgenticSystemExecution) :
    Prog.MarksE Start.Unblocked (fun _ => True) (Marked.startReady caller system run) :=
  beginAll_marks (startable_ready system run)

/-- Whatever the ports reply, nothing that blocks a composition is open when it starts. -/
theorem execute_marks (id : AgenticSystemExecutionId) :
    Prog.MarksE Start.Unblocked (fun _ => True) (Marked.execute caller id) := by
  have hadvanced : Prog.MarksE Start.Unblocked (fun _ => True) (Marked.advanced caller id) := by
    unfold Marked.advanced
    apply MarkedProg.lift_bind
    intro found
    apply MarkedProg.lift_bind
    intro before
    apply MarkedProg.lift_bind
    intro published
    apply MarkedProg.lift_bind
    intro system
    apply MarkedProg.lift_bind
    intro settled
    -- The sweep is made twice, and the loops that reopened between them are pending again.
    apply Prog.MarksE.bind (startReady_marks system settled)
    intro started _
    apply MarkedProg.lift_bind
    intro now
    apply MarkedProg.lift_bind
    intro reopened
    exact startReady_marks system reopened
  unfold Marked.execute
  apply Prog.MarksE.bind hadvanced
  intro run _
  exact Prog.MarksE.lift _

/-! ## Ports that reply one way -/

/-- Nothing is to be authorized, nothing is remembered, every snapshot is written, and the clock
shows one instant. -/
def answer (enc : RecordEncoding) (published : Publications) (instant : OffsetDateTime) :
    Prog.Answer systemPorts SystemState
  | s, .stream (.latest id) => (s.events.latest id, s)
  | s, .stream (.save version i) => (.ok (), { s with events := s.events.save version i })
  | s, .stream (.head id) => (s.events.head id, s)
  | s, .stream (.read id after limit) => (s.events.read id after limit.val, s)
  | s, .stream (.authorize _ _ _) => (.ok none, s)
  | s, .stream (.append id expected facts authorization) =>
    let appended := s.events.append enc id expected facts authorization
    (appended.1, { s with events := appended.2 })
  | s, .stream (.observe _ _ _) => ((), s)
  | s, .createRun run => s.createRun run
  | s, .getRun id => (s.runs[id]?, s)
  | s, .updateRun run expectedUpdatedAt => s.updateRun run expectedUpdatedAt
  | s, .publishedSystem id revision => (published.systems id revision, s)
  | s, .publishedDefinition name version => (published.definitions name version, s)
  | s, .definition name version => (published.repository name version, s)
  | s, .recall _ => (none, s)
  | s, .now => (instant, s)

theorem answer_performs (enc : RecordEncoding) (published : Publications)
    (instant : OffsetDateTime) (s : SystemState) (c : SystemCall) :
    Performs enc published s c (answer enc published instant s c).1
      (answer enc published instant s c).2 := by
  cases c with
  | stream c =>
    cases c with
    | latest id => exact .latest s id
    | save version i => exact .saved s version i
    | head id => exact .head s id
    | read id after limit => exact .read s id after limit
    | authorize id version facts => exact .authorize s id version facts _
    | append id expected facts authorization => exact .append s id expected facts authorization
    | observe version records firstPosition => exact .observe s version records firstPosition
  | createRun run => exact .createRun s run
  | getRun id => exact .getRun s id
  | updateRun run expectedUpdatedAt => exact .updateRun s run expectedUpdatedAt
  | publishedSystem id revision => exact .publishedSystem s id revision
  | publishedDefinition name version => exact .publishedDefinition s name version
  | definition name version => exact .definition s name version
  | «recall» scope => exact .recall s scope none
  | now => exact .now s instant

end Advance

/-! ## Work that is reviewed -/

namespace ReviewedWork

def plan : SystemCeremonyId := ⟨"plan", by decide⟩
def work : SystemCeremonyId := ⟨"work", by decide⟩
def review : SystemCeremonyId := ⟨"review", by decide⟩

def lead : SystemRoleId := ⟨"lead", by decide⟩

def digest : CeremonyDefinitionDigest := ⟨List.replicate 32 0, by decide⟩

def pin : DefinitionPin := ⟨oneMoveDefinition.name, oneMoveDefinition.version, digest⟩

def composition (id : SystemCeremonyId) (dependsOn : List SystemCeremonyId)
    (activation : CeremonyActivation) : CeremonyComposition :=
  ⟨id, pin, dependsOn, activation, ∅, ∅⟩

/-- Work follows a plan and is reviewed; what the review says goes back into the work, twice at
most. -/
def draft (reviewed : List SystemCeremonyId) : Result AgenticSystem :=
  AgenticSystem.draft lead [⟨lead, .integrator⟩] [⟨⟨"ana", .refl true⟩, lead, ⟨[], none⟩⟩] [] ∅
    [composition plan [] .afterDependencies, composition work [plan, review] .afterDependencies,
      composition review reviewed (.loop work (.of 2 (.refl true)))]
    ⟨[], [], ∅⟩

def system : AgenticSystem := (draft [plan]).toOption.get (by decide +kernel)

/-- The same, with the work among the dependencies of its review. -/
def anchored : AgenticSystem := (draft [plan, work]).toOption.get (by decide +kernel)

def resolved (system : AgenticSystem) : AgenticSystem.Resolved :=
  system.ceremonies.map fun _ _ => ⟨oneMoveDefinition, digest⟩

def encoding : RecordEncoding where
  timestamp := fun t => some (toString t.nanos)
  event := fun _ => some [0]
  evidence := fun _ => some [1]

def published : Publications where
  systems := fun _ _ => some system
  definitions := fun _ _ => some ⟨oneMoveDefinition, digest⟩
  repository := fun _ _ => .ok oneMoveDefinition

def caller : Advance.Caller := ⟨⟨"ana"⟩, .human, "trace"⟩

def runId : AgenticSystemExecutionId := ⟨"run-1", by decide⟩

def input : InstantiateInput where
  systemId := ⟨"reviewed-work", by decide⟩
  revision := 1
  executionId := runId
  inputs := ∅
  offers := ∅

def finish (id : CeremonyId) : SystemProg LoadedSession := do
  let actor ← .check (Advance.party caller)
  let session ← .stream (SessionStream.load id)
  let now ← .ask .now
  .stream (SessionStream.execute (fun session => do
    let events ← session.instance_.decide oneMoveDefinition (moveAt finishTrigger now)
    SessionFacts.facts session.instance_ events actor now) caller.trace id 3 session)

def planned : CeremonyId := ⟨"run-1-plan-1", by decide⟩

def ports : Prog.Answer systemPorts SystemState := Advance.answer encoding published (.afterEpoch 0)

def instantiated : Result AgenticSystemExecution × SystemState :=
  (Instantiate.execute caller input).run.perform ports ⟨.empty, ∅⟩

def finished : Result LoadedSession × SystemState :=
  (finish planned).run.perform ports instantiated.2

end ReviewedWork

/-- In every execution of advance over a design whose loops run after one of the dependencies that
block them, whatever starts has everything it waits for completed. -/
theorem anchored_starts_wait {system : AgenticSystem} (h : system.AnchorsBlock)
    (caller : Advance.Caller) (id : AgenticSystemExecutionId) :
    Prog.eraseE (Advance.Marked.execute caller id) = Advance.execute caller id ∧
      Prog.MarksE (fun start => start.system = system → start.Waited) (fun _ => True)
        (Advance.Marked.execute caller id) := by
  refine ⟨Advance.erase_execute id, (Advance.execute_marks id).imp fun start hstart hsystem => ?_⟩
  subst hsystem
  exact hstart.waited h

open ReviewedWork in
theorem anchored_review_waits : anchored.isPublishable (resolved anchored) = true ∧
    anchored.anchorOf review = some work ∧
      Prog.MarksE (fun start => start.system = anchored → start.Waited) (fun _ => True)
        (Advance.Marked.execute caller runId) :=
  ⟨by decide +kernel, by decide +kernel,
    (@anchored_starts_wait anchored (by unfold AgenticSystem.AnchorsBlock; decide +kernel)
      caller runId).2⟩

open ReviewedWork in
/-- The plan is done, the work is pending, and advance starts the review of it. -/
theorem review_starts_before_work :
    system.isPublishable (resolved system) = true ∧ ∃ run s session s' start t,
        (Instantiate.execute caller input).run.Finishes (Advance.Performs encoding published)
          ⟨.empty, ∅⟩ (.ok run) s ∧
        (finish planned).run.Finishes (Advance.Performs encoding published) s (.ok session) s' ∧
        Prog.Comes (Advance.Performs encoding published)
          (Advance.Marked.execute caller runId).run s' start t ∧
        start.Unblocked ∧
        start.system = system ∧ start.ceremony = review ∧ work ∈ system.waitsFor review ∧
        (start.run.link work).map (·.status) = some .pending ∧ ¬ start.Waited := by
  have sound := Advance.answer_performs encoding published ⟨0, by decide⟩
  have hrun : (instantiated.1.toOption.any fun _ => finished.1.toOption.any fun _ =>
      ((Advance.Marked.execute caller runId).run.marksOf
          ReviewedWork.ports finished.2).any fun (start, _) =>
        decide (start.system = system ∧ start.ceremony = review ∧ work ∈ system.waitsFor review ∧
          (start.run.link work).map (·.status) = some .pending ∧ ¬ start.Waited)) = true := by
    decide +kernel
  obtain ⟨run, hinstantiated, hrun⟩ := (Option.any_eq_true _ _).mp hrun
  obtain ⟨session, hfin, hrun⟩ := (Option.any_eq_true _ _).mp hrun
  obtain ⟨⟨start, t⟩, hmark, hstart⟩ := List.any_eq_true.mp hrun
  have hcomes := Prog.comes_of_mem_marksOf sound hmark
  refine ⟨by decide +kernel, run, instantiated.2, session, finished.2, start, t, ?_, ?_, hcomes,
    (Advance.execute_marks runId).run.comes hcomes, of_decide_eq_true hstart⟩
  · rw [← eq_ok_of_toOption hinstantiated]
    exact Prog.finishes_perform sound _ _
  · rw [← eq_ok_of_toOption hfin]
    exact Prog.finishes_perform sound _ _

end Made
