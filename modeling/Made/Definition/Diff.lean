import Made.Values.Lineage

/-!
# The changes between two definitions

Two definitions are compared part by part, and every change found is classified.  Nothing compares
the order of the steps, what they spawn, or how long a ceremony and its states may take.
-/

namespace Made

open Std List

namespace CeremonyDefinitionDiff

/-! ## Comparing maps -/

def impactIf (strands : Bool) : CeremonyChangeImpact := if strands then .strands else .carries

def record (changed : Bool) (locus : CeremonyValidationLocus) (impact : CeremonyChangeImpact) :
    List CeremonyDefinitionChange :=
  if changed then [⟨locus, impact⟩] else []

theorem forall_record {changed : Bool} {locus : CeremonyValidationLocus}
    {impact : CeremonyChangeImpact} {P : CeremonyDefinitionChange → Prop} :
    (∀ c ∈ record changed locus impact, P c) ↔ (changed = true → P ⟨locus, impact⟩) := by
  cases changed <;> simp [record]

section

variable {κ α β : Type} [Ord κ] [TransOrd κ] (locus : κ → CeremonyValidationLocus)
  (removed : α → CeremonyChangeImpact) (added : CeremonyChangeImpact)
  (altered : CeremonyValidationLocus → α → α → List CeremonyDefinitionChange)
  (before after : Map κ α)

def goneOrAltered : List CeremonyDefinitionChange :=
  before.toList.flatMap fun entry =>
    match after[entry.1]? with
    | none => [⟨locus entry.1, removed entry.2⟩]
    | some now => altered (locus entry.1) entry.2 now

def newEntries : List CeremonyDefinitionChange :=
  after.toList.flatMap fun entry => record (!before.contains entry.1) (locus entry.1) added

def diffEntries (removed : CeremonyChangeImpact) : List CeremonyDefinitionChange :=
  goneOrAltered locus (fun _ => removed) altered before after ++ newEntries locus added before after

variable {locus removed added altered before after} [LawfulEqOrd κ]
  {P : CeremonyDefinitionChange → Prop} {key : κ}

theorem forall_altered (h : ∀ c ∈ goneOrAltered locus removed altered before after, P c)
    {old now : α} (hold : before[key]? = some old) (hnow : after[key]? = some now) :
    ∀ c ∈ altered (locus key) old now, P c := by
  intro c hc
  refine h c (mem_flatMap.mpr ⟨(key, old), ExtTreeMap.mem_toList_iff_getElem?_eq_some.mpr hold, ?_⟩)
  simpa only [hnow] using hc

/-- Where nothing may be removed or added, the maps have the same keys, and under each what may not
be altered. -/
theorem view_eq (view : α → β) (hgone : ∀ c ∈ goneOrAltered locus removed altered before after, P c)
    (hnew : ∀ c ∈ newEntries locus added before after, P c)
    (hremoved : ∀ locus old, ¬ P ⟨locus, removed old⟩) (hadded : ∀ locus, ¬ P ⟨locus, added⟩)
    (hview : ∀ locus old now, (∀ c ∈ altered locus old now, P c) → view old = view now) (key : κ) :
    before[key]?.map view = after[key]?.map view := by
  cases hold : before[key]? with
  | none =>
    cases hnow : after[key]? with
    | none => rfl
    | some now =>
      refine absurd (forall_record.mp (fun c hc => hnew c (mem_flatMap.mpr ⟨(key, now),
        ExtTreeMap.mem_toList_iff_getElem?_eq_some.mpr hnow, hc⟩)) ?_) (hadded _)
      rw [ExtTreeMap.contains_eq_isSome_getElem?, hold]
      rfl
  | some old =>
    cases hnow : after[key]? with
    | none =>
      refine absurd (hgone ⟨locus key, removed old⟩ (mem_flatMap.mpr ⟨(key, old),
        ExtTreeMap.mem_toList_iff_getElem?_eq_some.mpr hold, ?_⟩)) (hremoved _ _)
      simp [hnow]
    | some now => simp [hview _ _ _ (forall_altered hgone hold hnow)]

end

/-! ## Comparing definitions -/

variable (before after : CeremonyDefinition)

def diffStates : List CeremonyDefinitionChange :=
  diffEntries .state .carries (fun locus old now =>
    record (now.kind ≠ old.kind) locus .strands ++
      record (now.execution ≠ old.execution) locus .strands ++
      record (now.repeat_ ≠ old.repeat_) locus .strands) before.states after.states .strands

def diffTransitions : List CeremonyDefinitionChange :=
  (before.transitions.flatMap fun old =>
    let locus := .transition old.from_ old.trigger
    match after.transitionForTrigger old.from_ old.trigger with
    | none => [⟨locus, .strands⟩]
    | some now =>
      if now.to_ ≠ old.to_ then [⟨locus, .strands⟩]
      else record (now.requiredGuards ≠ old.requiredGuards) locus
        (impactIf (old.requiredGuards.all now.requiredGuards.contains))) ++
  after.transitions.flatMap fun now =>
    record (before.transitionForTrigger now.from_ now.trigger).isNone
      (.transition now.from_ now.trigger) .carries

def dynamicRoleBindingImpact : Option DynamicRoleBinding → Option DynamicRoleBinding →
    CeremonyChangeImpact
  | _, none => .carries
  | none, some _ => .strands
  | some before, some after => impactIf !(before.contextKey = after.contextKey &&
      before.allowedRoles.all after.allowedRoles.contains)

def diffSteps : List CeremonyDefinitionChange :=
  diffEntries .step .strands (fun locus old now =>
    record (now.stateId ≠ old.stateId) locus .strands ++
      record (now.handlerKind ≠ old.handlerKind) locus .carries ++
      record (now.handlerConfig ≠ old.handlerConfig) locus .carries ++
      record (now.dynamicRoleBinding ≠ old.dynamicRoleBinding) locus
        (dynamicRoleBindingImpact old.dynamicRoleBinding now.dynamicRoleBinding) ++
      record (now.contextWrites ≠ old.contextWrites) locus .strands ++
      record (now.aggregation ≠ old.aggregation) locus .carries ++
      record (now.retryPolicy ≠ old.retryPolicy || now.timeout ≠ old.timeout ||
        now.repeatPolicy ≠ old.repeatPolicy) locus .carries) before.steps after.steps .strands

def diffGuards : List CeremonyDefinitionChange :=
  diffEntries .guard .carries (fun locus old now =>
    record (now.condition ≠ old.condition) locus .strands) before.guards after.guards .carries

def diffRoles : List CeremonyDefinitionChange :=
  diffEntries .role .carries (fun locus old now =>
    record (now.allowedActions ≠ old.allowedActions) locus
      (impactIf !(old.allowedActions.all now.allowedActions.contains))) before.roles after.roles
    .strands

def diffMaxParallel : List CeremonyDefinitionChange :=
  record (before.maxParallel ≠ after.maxParallel) .definition
    (impactIf (after.maxParallel.val < before.maxParallel.val))

def diffTransitionBudget (before after : Option Nat) : List CeremonyDefinitionChange :=
  record (before ≠ after) .definition
    (match before, after with
    | none, some _ => .strands
    | some old, some new => impactIf (new < old)
    | _, none => .carries)

def diffTransitionBudgets : List CeremonyDefinitionChange :=
  diffTransitionBudget (before.maxTransitions.map (·.val)) (after.maxTransitions.map (·.val)) ++
    diffTransitionBudget (before.maxBounces.map (·.val)) (after.maxBounces.map (·.val))

/-- The inputs that are gone, then those that are new or altered. -/
def diffInputs : List CeremonyDefinitionChange :=
  newEntries .input .carries after.inputs before.inputs ++
    goneOrAltered .input (fun now => impactIf now.required) (fun locus now was =>
      record (was.required ≠ now.required) locus (impactIf now.required)) after.inputs before.inputs

def diffShape : List CeremonyDefinitionChange :=
  diffInputs before after ++
    diffEntries .output .carries (fun _ _ _ => []) before.outputs after.outputs .carries ++
    record (before.description ≠ after.description) .definition .carries

def between : CeremonyDefinitionDiff :=
  ⟨diffStates before after ++ diffTransitions before after ++ diffSteps before after ++
    diffGuards before after ++ diffRoles before after ++ diffMaxParallel before after ++
    diffTransitionBudgets before after ++ diffShape before after⟩

def isIdentical (diff : CeremonyDefinitionDiff) : Bool := diff.changes.isEmpty

def strandsRunningSessions (diff : CeremonyDefinitionDiff) : Bool :=
  diff.changes.any (·.impact = .strands)

end CeremonyDefinitionDiff

end Made
