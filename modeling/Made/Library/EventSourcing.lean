import Made.Library.Outcome
import Mathlib.Data.List.Basic

/-!
# Event-sourced machines

A machine decides commands into events and folds events into its state.  A run is a sequence of
accepted commands; seen event by event it is a path.  Invariants are proved on paths, where a step
is one event, and reach runs through `Sound`: every event of an accepted batch is admitted in the
state it is folded into.

* `Machine.Run`: runs of accepted commands under a condition on each step;
* `Machine.Path`: folded events, each admitted where it is folded;
* `Machine.Run.path`: a run of a sound machine is a path of its stream;
* `Machine.Path.invariant`, `Machine.Path.log_invariant`: invariants of states, and of states
  together with what was observed on the way;
* `Machine.Run.simulate`: runs of a machine that another one follows;
* `Machine.exec_run`: an executed list of commands is a run.
-/

namespace EventSourcing

/-- Commands are decided into events, and events are folded into the state. -/
structure Machine (σ κ ε E : Type) where
  decide : σ → κ → Outcome E (List ε)
  apply : σ → ε → Outcome E σ

namespace Machine

variable {σ κ ε E β : Type} (m : Machine σ κ ε E)

/-! ## Folding -/

def fold (s : σ) : List ε → Outcome E σ
  | [] => .ok s
  | e :: rest => m.apply s e >>= fun t => fold t rest

@[simp] theorem fold_nil (s : σ) : m.fold s [] = .ok s := rfl

theorem fold_cons_eq_ok (s u : σ) (e : ε) (rest : List ε) :
    m.fold s (e :: rest) = .ok u ↔ ∃ t, m.apply s e = .ok t ∧ m.fold t rest = .ok u :=
  Outcome.bind_eq_ok _ _ _

theorem fold_append_eq_ok (s u : σ) (first rest : List ε) :
    m.fold s (first ++ rest) = .ok u ↔ ∃ t, m.fold s first = .ok t ∧ m.fold t rest = .ok u := by
  induction first generalizing s with
  | nil => simp
  | cons e first ih =>
    simp only [List.cons_append, fold_cons_eq_ok, ih]
    constructor
    · rintro ⟨t, ht, v, hv, hu⟩
      exact ⟨v, ⟨t, ht, hv⟩, hu⟩
    · rintro ⟨v, ⟨t, ht, hv⟩, hu⟩
      exact ⟨t, ht, v, hv, hu⟩

/-! ## Paths -/

/-- Events folded one after the other, each of them admitted in the state it is folded into. -/
inductive Path (admitted : σ → ε → Prop) : σ → List ε → σ → Prop where
  | nil (s : σ) : Path admitted s [] s
  | cons {s t u : σ} {e : ε} {rest : List ε} (allowed : admitted s e) (step : m.apply s e = .ok t)
      (path : Path admitted t rest u) : Path admitted s (e :: rest) u

variable {m} {admitted admitted' : σ → ε → Prop} {s t u : σ} {e : ε} {first rest : List ε}

theorem Path.single (allowed : admitted s e) (step : m.apply s e = .ok t) :
    m.Path admitted s [e] t :=
  .cons allowed step (.nil t)

theorem Path.append (hst : m.Path admitted s first t) (htu : m.Path admitted t rest u) :
    m.Path admitted s (first ++ rest) u := by
  induction hst with
  | nil => exact htu
  | cons allowed step _ ih => exact .cons allowed step (ih htu)

theorem Path.split (h : m.Path admitted s (first ++ rest) u) :
    ∃ t, m.Path admitted s first t ∧ m.Path admitted t rest u := by
  induction first generalizing s with
  | nil => exact ⟨s, .nil s, h⟩
  | cons e first ih =>
    cases h with
    | cons allowed step path =>
      obtain ⟨t, hfirst, hrest⟩ := ih path
      exact ⟨t, .cons allowed step hfirst, hrest⟩

theorem Path.mono (h : m.Path admitted s first t) (imp : ∀ s e, admitted s e → admitted' s e) :
    m.Path admitted' s first t := by
  induction h with
  | nil => exact .nil _
  | cons allowed step _ ih => exact .cons (imp _ _ allowed) step ih

theorem Path.forall_mem (h : m.Path admitted s first t) : ∀ e ∈ first, ∃ s', admitted s' e := by
  induction h with
  | nil => simp
  | cons allowed _ _ ih =>
    rw [List.forall_mem_cons]
    exact ⟨⟨_, allowed⟩, ih⟩

theorem Path.fold_eq (h : m.Path admitted s first t) : m.fold s first = .ok t := by
  induction h with
  | nil => rfl
  | cons _ step _ ih => exact (m.fold_cons_eq_ok _ _ _ _).mpr ⟨_, step, ih⟩

/-- The state that a part of a path folds into is the one the path passes through. -/
theorem Path.split_of_fold (h : m.Path admitted s (first ++ rest) u)
    (folded : m.fold s first = .ok t) : m.Path admitted s first t ∧ m.Path admitted t rest u := by
  obtain ⟨v, hfirst, hrest⟩ := h.split
  have hv := hfirst.fold_eq
  rw [folded, Except.ok.injEq] at hv
  subst hv
  exact ⟨hfirst, hrest⟩

/-- A property of all events of a path is admitted with them. -/
theorem Path.and_mem {P : ε → Prop} (h : m.Path admitted s first t) (each : ∀ e ∈ first, P e) :
    m.Path (fun s e => admitted s e ∧ P e) s first t := by
  induction h with
  | nil => exact .nil _
  | cons allowed step _ ih =>
    rw [List.forall_mem_cons] at each
    exact .cons ⟨allowed, each.1⟩ step (ih each.2)

variable {I : σ → Prop}

/-- What one admitted event preserves holds at the end of every path. -/
theorem Path.invariant (step : ∀ s e t, admitted s e → m.apply s e = .ok t → I s → I t)
    (h : m.Path admitted s first t) (inv : I s) : I t := by
  induction h with
  | nil => exact inv
  | cons allowed happ _ ih => exact ih (step _ _ _ allowed happ inv)

/-- An invariant strengthens what is admitted along a path that starts in it. -/
theorem Path.strengthen (step : ∀ s e t, admitted s e → m.apply s e = .ok t → I s → I t)
    (h : m.Path admitted s first t) (inv : I s) :
    m.Path (fun s e => admitted s e ∧ I s) s first t := by
  induction h with
  | nil => exact .nil _
  | cons allowed happ _ ih => exact .cons ⟨allowed, inv⟩ happ (ih (step _ _ _ allowed happ inv))

/-! ## Observations along a path -/

variable (m) in
/-- Fold events as long as each of them passes a check where it is folded. -/
def follow (ok : σ → ε → Bool) (s : σ) : List ε → Option σ
  | [] => some s
  | e :: rest => if ok s e then (m.apply s e).toOption.bind fun t => follow ok t rest else none

theorem Path.of_follow {ok : σ → ε → Bool} (h : m.follow ok s first = some t) :
    m.Path (fun s e => ok s e = true) s first t := by
  induction first generalizing s with
  | nil =>
    cases h
    exact .nil _
  | cons e rest ih =>
    rw [follow] at h
    split at h
    · rename_i hok
      obtain ⟨u, hu, hrest⟩ := Option.bind_eq_some_iff.mp h
      exact .cons hok (Outcome.eq_ok_of_toOption hu) (ih hrest)
    · cases h

variable (m) in
/-- What `observe` sees of every event, in the state the event is folded into. -/
def log (observe : σ → ε → List β) (s : σ) : List ε → List β
  | [] => []
  | e :: rest => observe s e ++
      match m.apply s e with
      | .ok t => log observe t rest
      | .error _ => []

theorem log_cons {observe : σ → ε → List β} (step : m.apply s e = .ok t) (rest : List ε) :
    m.log observe s (e :: rest) = observe s e ++ m.log observe t rest := by
  simp [log, step]

theorem log_stream (h : m.Path admitted s first t) :
    m.log (fun _ e => [e]) s first = first := by
  induction h with
  | nil => rfl
  | cons _ step _ ih => rw [log_cons step, ih, List.singleton_append]

/-- An invariant over the state and everything observed so far. -/
theorem Path.log_invariant {observe : σ → ε → List β} {I : σ → List β → Prop}
    (step : ∀ s e t seen, admitted s e → m.apply s e = .ok t → I s seen → I t (seen ++ observe s e))
    (h : m.Path admitted s first t) {seen : List β} (inv : I s seen) :
    I t (seen ++ m.log observe s first) := by
  induction h generalizing seen with
  | nil => simpa [log] using inv
  | cons allowed happ _ ih =>
    rw [log_cons happ, ← List.append_assoc]
    exact ih (step _ _ _ _ allowed happ inv)

/-! ## Runs -/

variable (m) in
/-- Accepted commands from `s`, each of them meeting the condition in the state before it.  The
trace keeps every command with the events it was decided into. -/
inductive Run (ok : σ → κ → Prop) (s : σ) : List (κ × List ε) → σ → Prop where
  | nil : Run ok s [] s
  | snoc {trace : List (κ × List ε)} {t u : σ} {c : κ} {events : List ε} (run : Run ok s trace t)
      (meets : ok t c) (accepted : m.decide t c = .ok events) (folded : m.fold t events = .ok u) :
      Run ok s (trace ++ [(c, events)]) u

def stream (trace : List (κ × List ε)) : List ε := trace.flatMap Prod.snd

@[simp] theorem stream_nil : stream ([] : List (κ × List ε)) = [] := rfl

theorem stream_snoc (trace : List (κ × List ε)) (c : κ) (events : List ε) :
    stream (trace ++ [(c, events)]) = stream trace ++ events := by
  simp [stream]

variable {ok ok' : σ → κ → Prop} {trace more : List (κ × List ε)}

theorem Run.mono (h : m.Run ok s trace t) (imp : ∀ s c, ok s c → ok' s c) :
    m.Run ok' s trace t := by
  induction h with
  | nil => exact .nil
  | snoc _ meets accepted folded ih => exact .snoc ih (imp _ _ meets) accepted folded

theorem Run.trans (hst : m.Run ok s trace t) (htu : m.Run ok t more u) :
    m.Run ok s (trace ++ more) u := by
  induction htu with
  | nil => simpa using hst
  | snoc _ meets accepted folded ih =>
    rw [← List.append_assoc]
    exact .snoc ih meets accepted folded

/-- Every batch of a run was accepted in a state the run reaches. -/
theorem Run.decided_of_mem (h : m.Run ok s trace t) {c : κ} {events : List ε}
    (hmem : (c, events) ∈ trace) : ∃ u, ok u c ∧ m.decide u c = .ok events := by
  induction h with
  | nil => simp at hmem
  | snoc _ meets accepted _ ih =>
    rcases List.mem_append.mp hmem with hmem | hmem
    · exact ih hmem
    · rw [List.mem_singleton, Prod.mk.injEq] at hmem
      obtain ⟨rfl, rfl⟩ := hmem
      exact ⟨_, meets, accepted⟩

theorem Run.eq_of_nil (h : m.Run ok s [] t) : t = s := by
  generalize hall : ([] : List (κ × List ε)) = all at h
  cases h with
  | nil => rfl
  | snoc => simp at hall

theorem Run.head {c : κ} {events : List ε} (h : m.Run ok s ((c, events) :: more) u) :
    ok s c ∧ m.decide s c = .ok events ∧ ∃ t, m.fold s events = .ok t ∧ m.Run ok t more u := by
  generalize hall : (c, events) :: more = all at h
  induction h generalizing more with
  | nil => simp at hall
  | @snoc trace v w c' events' run meets accepted folded ih =>
    cases trace with
    | nil =>
      -- The run has one batch only.
      rw [List.nil_append, List.cons.injEq, Prod.mk.injEq] at hall
      obtain ⟨⟨rfl, rfl⟩, rfl⟩ := hall
      have hv := run.eq_of_nil
      subst hv
      exact ⟨meets, accepted, w, folded, .nil⟩
    | cons first trace =>
      rw [List.cons_append, List.cons.injEq] at hall
      obtain ⟨rfl, rfl⟩ := hall
      obtain ⟨hmeets, hacc, t, hfolded, hrest⟩ := ih rfl
      exact ⟨hmeets, hacc, t, hfolded, .snoc hrest meets accepted folded⟩

theorem Run.split (h : m.Run ok s (trace ++ more) u) :
    ∃ t, m.Run ok s trace t ∧ m.Run ok t more u := by
  induction trace generalizing s with
  | nil => exact ⟨s, .nil, h⟩
  | cons batch trace ih =>
    obtain ⟨hmeets, hacc, v, hfolded, hrest⟩ := Run.head h
    obtain ⟨t, hfirst, hmore⟩ := ih hrest
    have hone : m.Run ok s ([] ++ [batch]) v := .snoc .nil hmeets hacc hfolded
    exact ⟨t, hone.trans hfirst, hmore⟩

theorem Run.fold_eq (h : m.Run ok s trace t) : m.fold s (stream trace) = .ok t := by
  induction h with
  | nil => rfl
  | snoc _ _ _ folded ih =>
    rw [stream_snoc]
    exact (m.fold_append_eq_ok _ _ _ _).mpr ⟨_, ih, folded⟩

theorem Run.split_of_fold (h : m.Run ok s (trace ++ more) u)
    (folded : m.fold s (stream trace) = .ok t) : m.Run ok s trace t ∧ m.Run ok t more u := by
  obtain ⟨v, hfirst, hmore⟩ := h.split
  have hv := hfirst.fold_eq
  rw [folded, Except.ok.injEq] at hv
  subst hv
  exact ⟨hfirst, hmore⟩

variable (m) in
/-- Under the condition, every event of an accepted batch is admitted where it is folded. -/
def Sound (ok : σ → κ → Prop) (admitted : σ → ε → Prop) : Prop :=
  ∀ s c events t, ok s c → m.decide s c = .ok events → m.fold s events = .ok t →
    m.Path admitted s events t

theorem Run.path (sound : m.Sound ok admitted) (h : m.Run ok s trace t) :
    m.Path admitted s (stream trace) t := by
  induction h with
  | nil => exact .nil _
  | snoc _ meets accepted folded ih =>
    rw [stream_snoc]
    exact ih.append (sound _ _ _ _ meets accepted folded)

/-- What every accepted command preserves holds at the end of every run. -/
theorem Run.invariant
    (step : ∀ s c events t, ok s c → m.decide s c = .ok events → m.fold s events = .ok t →
      I s → I t)
    (h : m.Run ok s trace t) (inv : I s) : I t := by
  induction h with
  | nil => exact inv
  | snoc _ meets accepted folded ih => exact step _ _ _ _ meets accepted folded ih

/-- An invariant of accepted commands strengthens the condition of a run that starts in it. -/
theorem Run.strengthen
    (step : ∀ s c events t, ok s c → m.decide s c = .ok events → m.fold s events = .ok t →
      I s → I t)
    (h : m.Run ok s trace t) (inv : I s) :
    m.Run (fun s c => ok s c ∧ I s) s trace t := by
  induction h with
  | nil => exact .nil
  | snoc run meets accepted folded ih =>
    exact .snoc ih ⟨meets, run.invariant step inv⟩ accepted folded

/-- A property of all events that the condition lets through is admitted with them. -/
theorem Sound.and {P : ε → Prop} (sound : m.Sound ok admitted)
    (each : ∀ s c events, ok s c → m.decide s c = .ok events → ∀ e ∈ events, P e) :
    m.Sound ok fun s e => admitted s e ∧ P e := by
  intro s c events t meets accepted folded
  exact (sound s c events t meets accepted folded).and_mem (each s c events meets accepted)

/-! ## Simulation -/

/-- A run is followed by a run of another machine when every accepted command of the first is
answered by commands of the second, none of them included, that keep the states related. -/
theorem Run.simulate {σ' κ' ε' E' : Type} {n : Machine σ' κ' ε' E'} {within : σ' → κ' → Prop}
    {R : σ → σ' → Prop} {s' : σ'}
    (step : ∀ s c events t s', ok s c → m.decide s c = .ok events → m.fold s events = .ok t →
      R s s' → ∃ answer t', n.Run within s' answer t' ∧ R t t')
    (h : m.Run ok s trace t) (related : R s s') :
    ∃ answer t', n.Run within s' answer t' ∧ R t t' := by
  induction h with
  | nil => exact ⟨[], s', .nil, related⟩
  | snoc _ meets accepted folded ih =>
    obtain ⟨first, v', hfirst, hv⟩ := ih
    obtain ⟨answer, t', hanswer, ht⟩ := step _ _ _ _ _ meets accepted folded hv
    exact ⟨first ++ answer, t', hfirst.trans hanswer, ht⟩

/-! ## Execution -/

variable (m) in
/-- Decide and fold a script of commands one after the other, as long as each of them meets the
condition and is accepted.  A command may be made up from the state it is sent to. -/
def exec (ok : σ → κ → Bool) (s : σ) : List (σ → κ) → Option (List (κ × List ε) × σ)
  | [] => some ([], s)
  | next :: rest =>
    if ok s (next s) then
      match m.decide s (next s) with
      | .ok events =>
        match m.fold s events with
        | .ok t => (exec ok t rest).map fun (trace, u) => ((next s, events) :: trace, u)
        | .error _ => none
      | .error _ => none
    else none

theorem exec_run {ok : σ → κ → Bool} {script : List (σ → κ)}
    (h : m.exec ok s script = some (trace, t)) :
    m.Run (fun s c => ok s c = true) s trace t := by
  induction script generalizing s trace with
  | nil =>
    cases h
    exact .nil
  | cons next rest ih =>
    unfold exec at h
    split at h
    case isFalse => simp at h
    case isTrue hmeets =>
      split at h
      case h_2 => simp at h
      case h_1 events hdecide =>
        split at h
        case h_2 => simp at h
        case h_1 v hfold =>
          simp only [Option.map_eq_some_iff] at h
          obtain ⟨⟨trace', u⟩, hexec, heq⟩ := h
          cases heq
          have hstep : m.Run (fun s c => ok s c = true) s ([] ++ [(next s, events)]) v :=
            .snoc .nil hmeets hdecide hfold
          exact hstep.trans (ih hexec)

end Machine

end EventSourcing
