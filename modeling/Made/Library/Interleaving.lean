import Mathlib.Data.List.Basic
import Mathlib.Logic.Relation

/-!
# Programs that share a state through ports

A program calls a port, goes on with the reply, and returns in the end.  A pool of such programs
works on one state: any thread takes the next step, a thread may stop for good before any of its
calls, and new threads start at any time.  A call is one atomic step; what it may reply and what it
does to the state is a relation, so that a port may also fail.

* `Prog`: programs over an interface of calls and replies, a monad;
* `Pool.Step`, `Pool.Steps`: interleaved runs, with the log of everything that happened;
* `Discipline.Triple`: what a program establishes whatever the other threads do between its calls,
  with the rules `Triple.pure`, `Triple.ask`, `Triple.bind`, `Frame.triple`, and the same for
  programs that may fail, `ExceptTriple`;
* `Pool.Steps.sound`, `Pool.Sound.post`: when the program of every thread is safe, the invariant
  holds in every configuration, and a thread that returned has established its postcondition;
* `Pool.exec_steps`, `Pool.exists_steps_of_exec`: an executed schedule is an interleaved run.
-/

namespace Interleaving

/-- The calls a program can make, and the replies to each of them. -/
structure Interface where
  Call : Type
  Reply : Call → Type

variable {I : Interface} {σ ι ρ α β : Type}

/-! ## Programs -/

/-- A program: it has returned, or it makes a call and goes on with the reply. -/
inductive Prog (I : Interface) (ρ : Type) where
  | done (result : ρ)
  | call (c : I.Call) (next : I.Reply c → Prog I ρ)

variable {f : α → Prog I β}

namespace Prog

variable {A : I.Call → Prop}

protected def bind : Prog I α → (α → Prog I β) → Prog I β
  | done a, f => f a
  | call c next, f => call c fun reply => (next reply).bind f

instance : Monad (Prog I) where
  pure := done
  bind := Prog.bind

protected theorem bind_assoc {γ : Type} (p : Prog I α) (f : α → Prog I β) (g : β → Prog I γ) :
    p >>= f >>= g = p >>= fun a => f a >>= g := by
  induction p with
  | done a => rfl
  | call c next ih => exact congrArg (call c) (funext fun reply => ih reply)

protected theorem bind_done (p : Prog I α) : p >>= done = p := by
  induction p with
  | done a => rfl
  | call c next ih => exact congrArg (call c) (funext fun reply => ih reply)

instance : LawfulMonad (Prog I) :=
  .mk' (Prog I) Prog.bind_done (fun _ _ => rfl) Prog.bind_assoc

def ask (c : I.Call) : Prog I (I.Reply c) := call c done

/-- A program whose calls are made as calls of another interface. -/
def translate {J : Interface} (embed : I.Call → J.Call)
    (back : (c : I.Call) → J.Reply (embed c) → I.Reply c) : Prog I α → Prog J α
  | done a => done a
  | call c next => call (embed c) fun reply => (next (back c reply)).translate embed back

/-- Every call the program can come to make is of the given kind. -/
def Only (A : I.Call → Prop) : Prog I α → Prop
  | done _ => True
  | call c next => A c ∧ ∀ reply, (next reply).Only A

theorem Only.bind {p : Prog I α} (h : p.Only A) (hf : ∀ a, (f a).Only A) : (p >>= f).Only A := by
  induction p with
  | done a => exact hf a
  | call c next ih => exact ⟨h.1, fun reply => ih reply (h.2 reply)⟩

theorem Only.ask {c : I.Call} (h : A c) : (ask c).Only A :=
  ⟨h, fun _ => trivial⟩

theorem Only.pure (a : α) : (Pure.pure a : Prog I α).Only A := trivial

theorem Only.bindExcept {ε : Type} {p : ExceptT ε (Prog I) α} {f : α → ExceptT ε (Prog I) β}
    (h : p.run.Only A) (hf : ∀ a, (f a).run.Only A) : (p >>= f).run.Only A := by
  refine Only.bind h fun result => ?_
  cases result with
  | ok a => exact hf a
  | error e => exact Only.pure _

end Prog

/-! ## Interleaved runs -/

/-- What happened: a thread started on an input, or a call of a thread was replied to. -/
inductive Event (I : Interface) (ι : Type) where
  | started (thread : Nat) (input : ι)
  | called (thread : Nat) (call : I.Call) (reply : I.Reply call)

def Event.thread : Event I ι → Nat
  | started thread _ => thread
  | called thread _ _ => thread

/-- The shared state, and everything that happened so far. -/
structure World (I : Interface) (σ ι : Type) where
  state : σ
  log : List (Event I ι)

def World.start (w : World I σ ι) (n : Nat) (input : ι) : World I σ ι :=
  ⟨w.state, w.log ++ [.started n input]⟩

def World.call (w : World I σ ι) (n : Nat) (c : I.Call) (reply : I.Reply c) (state : σ) :
    World I σ ι :=
  ⟨state, w.log ++ [.called n c reply]⟩

/-- One thread: its input, the world it started in, and what is left of its program; a thread that
stopped for good has nothing left. -/
structure Thread (I : Interface) (σ ι ρ : Type) where
  input : ι
  before : World I σ ι
  rest : Option (Prog I ρ)

/-- A pool runs the same code on every input; its ports reply as the relation says. -/
structure Pool (I : Interface) (σ ι ρ : Type) where
  code : ι → Prog I ρ
  performs : σ → (c : I.Call) → I.Reply c → σ → Prop

structure Config (I : Interface) (σ ι ρ : Type) where
  world : World I σ ι
  threads : List (Thread I σ ι ρ)

def Config.initial (s : σ) : Config I σ ι ρ := ⟨⟨s, []⟩, []⟩

namespace Pool

variable (m : Pool I σ ι ρ) (ok : World I σ ι → ι → Prop)

/-- One step of a pool whose new threads meet a condition on the world they start in. -/
inductive Step : Config I σ ι ρ → Config I σ ι ρ → Prop where
  | start (cfg : Config I σ ι ρ) (input : ι) (meets : ok cfg.world input) :
      Step cfg ⟨cfg.world.start cfg.threads.length input,
        cfg.threads ++ [⟨input, cfg.world, some (m.code input)⟩]⟩
  | call (cfg : Config I σ ι ρ) (n : Nat) (thread : Thread I σ ι ρ) (c : I.Call)
      (next : I.Reply c → Prog I ρ) (reply : I.Reply c) (state : σ)
      (thread_eq : cfg.threads[n]? = some thread) (rest_eq : thread.rest = some (.call c next))
      (performs : m.performs cfg.world.state c reply state) :
      Step cfg ⟨cfg.world.call n c reply state,
        cfg.threads.set n { thread with rest := some (next reply) }⟩
  | crash (cfg : Config I σ ι ρ) (n : Nat) (thread : Thread I σ ι ρ) (c : I.Call)
      (next : I.Reply c → Prog I ρ) (thread_eq : cfg.threads[n]? = some thread)
      (rest_eq : thread.rest = some (.call c next)) :
      Step cfg ⟨cfg.world, cfg.threads.set n { thread with rest := none }⟩

def Steps : Config I σ ι ρ → Config I σ ι ρ → Prop := Relation.ReflTransGen (m.Step ok)

variable {m ok} {cfg cfg' : Config I σ ι ρ}

theorem Steps.mono {ok' : World I σ ι → ι → Prop} (h : m.Steps ok cfg cfg')
    (imp : ∀ w input, ok w input → ok' w input) : m.Steps ok' cfg cfg' := by
  induction h with
  | refl => exact .refl
  | tail _ step ih =>
    refine ih.tail ?_
    cases step with
    | start input meets => exact .start _ input (imp _ _ meets)
    | call n thread c next reply state thread_eq rest_eq performs =>
      exact .call _ n thread c next reply state thread_eq rest_eq performs
    | crash n thread c next thread_eq rest_eq =>
      exact .crash _ n thread c next thread_eq rest_eq

/-- What every reply of a port preserves of the state holds along every run. -/
theorem Steps.state_invariant {P : σ → Prop} (h : m.Steps ok cfg cfg')
    (step : ∀ s c reply t, m.performs s c reply t → P s → P t) (inv : P cfg.world.state) :
    P cfg'.world.state := by
  induction h with
  | refl => exact inv
  | tail _ hstep ih =>
    cases hstep with
    | start => exact ih
    | call _ _ _ _ _ _ _ _ performs => exact step _ _ _ _ performs ih
    | crash => exact ih

end Pool

/-! ## Reasoning about one thread -/

/-- What is assumed of new threads, and what holds of the world at all times. -/
structure Discipline (I : Interface) (σ ι : Type) where
  performs : σ → (c : I.Call) → I.Reply c → σ → Prop
  ok : World I σ ι → ι → Prop
  inv : World I σ ι → Prop

namespace Discipline

variable (D : Discipline I σ ι) (n : Nat) {A : I.Call → Prop}

/-- A step that another thread takes, between two worlds in which the invariant holds. -/
inductive EnvStep : World I σ ι → World I σ ι → Prop where
  | start {w : World I σ ι} {k : Nat} {input : ι} (other : k ≠ n) (meets : D.ok w input)
      (inv : D.inv w) (inv' : D.inv (w.start k input)) : EnvStep w (w.start k input)
  | call {w : World I σ ι} {k : Nat} {c : I.Call} {reply : I.Reply c} {state : σ} (other : k ≠ n)
      (performs : D.performs w.state c reply state) (inv : D.inv w)
      (inv' : D.inv (w.call k c reply state)) : EnvStep w (w.call k c reply state)

/-- What the other threads may do between two calls of thread `n`. -/
def Rely : World I σ ι → World I σ ι → Prop := Relation.ReflTransGen (D.EnvStep n)

/-- An assertion that no step of another thread can make false. -/
def Stable (P : World I σ ι → Prop) : Prop := ∀ w w', D.EnvStep n w w' → P w → P w'

/-- From this world on the program keeps the invariant, and when it returns it has established the
postcondition, for good. -/
def Safe (Post : α → World I σ ι → Prop) : Prog I α → World I σ ι → Prop
  | .done result, w => ∀ w', D.Rely n w w' → D.inv w' → Post result w'
  | .call c next, w => ∀ w', D.Rely n w w' → D.inv w' →
      ∀ reply state, D.performs w'.state c reply state →
        D.inv (w'.call n c reply state) ∧ Safe Post (next reply) (w'.call n c reply state)

/-- From every world with the precondition the program is safe. -/
def Triple (P : World I σ ι → Prop) (p : Prog I α) (Q : α → World I σ ι → Prop) : Prop :=
  ∀ w, D.inv w → P w → D.Safe n Q p w

variable {D n} {P P' : World I σ ι → Prop} {Q Q' : α → World I σ ι → Prop}
  {R : β → World I σ ι → Prop} {w w' : World I σ ι} {p : Prog I α}

/-! ### Stability -/

theorem Stable.rely (h : D.Stable n P) (rely : D.Rely n w w') (hw : P w) : P w' := by
  induction rely with
  | refl => exact hw
  | tail _ step ih => exact h _ _ step ih

theorem Stable.and (h : D.Stable n P) (h' : D.Stable n P') : D.Stable n fun w => P w ∧ P' w :=
  fun w w' step hw => ⟨h w w' step hw.1, h' w w' step hw.2⟩

theorem Stable.const (p : Prop) : D.Stable n fun _ => p := fun _ _ _ h => h

/-! ### Rules -/

theorem Safe.rely (h : D.Safe n Q p w) (rely : D.Rely n w w') : D.Safe n Q p w' := by
  cases p with
  | done result | call c next => exact fun w'' hrely hinv => h w'' (rely.trans hrely) hinv

theorem Safe.mono (h : D.Safe n Q p w) (imp : ∀ a w, D.inv w → Q a w → Q' a w) :
    D.Safe n Q' p w := by
  induction p generalizing w with
  | done result => exact fun w' hrely hinv => imp _ _ hinv (h w' hrely hinv)
  | call c next ih =>
    intro w' hrely hinv reply state performs
    obtain ⟨hinv', hnext⟩ := h w' hrely hinv reply state performs
    exact ⟨hinv', ih reply hnext⟩

/-- The continuation starts wherever the first program returned, and after what others did since. -/
theorem Safe.bind (h : D.Safe n Q p w) (hinv : D.inv w)
    (hf : ∀ a w, D.inv w → Q a w → D.Safe n R (f a) w) : D.Safe n R (p >>= f) w := by
  induction p generalizing w with
  | done result => exact hf result w hinv (h w .refl hinv)
  | call c next ih =>
    intro w' hrely hinv' reply state performs
    obtain ⟨hinv'', hnext⟩ := h w' hrely hinv' reply state performs
    exact ⟨hinv'', ih reply hnext hinv''⟩

theorem Triple.pure {a : α} (stable : D.Stable n P) (h : ∀ w, D.inv w → P w → Q a w) :
    D.Triple n P (Pure.pure a) Q :=
  fun _ _ hw w' hrely hinv => h w' hinv (stable.rely hrely hw)

theorem Triple.ask {c : I.Call} {Q : I.Reply c → World I σ ι → Prop} (stable : D.Stable n P)
    (step : ∀ w, D.inv w → P w → ∀ reply state, D.performs w.state c reply state →
      D.inv (w.call n c reply state) ∧ Q reply (w.call n c reply state))
    (stable' : ∀ reply, D.Stable n (Q reply)) : D.Triple n P (Prog.ask c) Q := by
  intro w _ hw w' hrely hinv reply state performs
  obtain ⟨hinv', hQ⟩ := step w' hinv (stable.rely hrely hw) reply state performs
  exact ⟨hinv', fun w'' hrely' _ => (stable' reply).rely hrely' hQ⟩

theorem Triple.bind (h : D.Triple n P p Q)
    (hf : ∀ a, D.Triple n (Q a) (f a) R) : D.Triple n P (p >>= f) R :=
  fun w hinv hw => (h w hinv hw).bind hinv fun a w' hinv' hQ => hf a w' hinv' hQ

theorem Triple.conseq (h : D.Triple n P p Q) (pre : ∀ w, D.inv w → P' w → P w)
    (post : ∀ a w, D.inv w → Q a w → Q' a w) : D.Triple n P' p Q' :=
  fun w hinv hw => (h w hinv (pre w hinv hw)).mono post

/-! ### Frames -/

/-- An assertion that neither the other threads nor the thread's own calls of a kind make false. -/
structure Frame (D : Discipline I σ ι) (n : Nat) (A : I.Call → Prop) (P : World I σ ι → Prop) :
    Prop where
  stable : D.Stable n P
  own : ∀ w c reply state, A c → D.performs w.state c reply state → P w → P (w.call n c reply state)

theorem Frame.and (h : D.Frame n A P) (h' : D.Frame n A P') : D.Frame n A fun w => P w ∧ P' w :=
  ⟨h.stable.and h'.stable, fun w c reply state hA performs hw =>
    ⟨h.own w c reply state hA performs hw.1, h'.own w c reply state hA performs hw.2⟩⟩

theorem Frame.or (h : D.Frame n A P) (h' : D.Frame n A P') : D.Frame n A fun w => P w ∨ P' w :=
  ⟨fun w w' step hw => hw.imp (h.stable w w' step) (h'.stable w w' step),
    fun w c reply state hA performs hw =>
      hw.imp (h.own w c reply state hA performs) (h'.own w c reply state hA performs)⟩

theorem Frame.weaken {B : I.Call → Prop} (h : D.Frame n A P) (imp : ∀ c, B c → A c) :
    D.Frame n B P :=
  ⟨h.stable, fun w c reply state hB performs hw =>
    h.own w c reply state (imp c hB) performs hw⟩

theorem Frame.imp {p : Prop} (h : D.Frame n A P) : D.Frame n A fun w => p → P w :=
  ⟨fun w w' step hw hp => h.stable w w' step (hw hp), fun w c reply state hA performs hw hp =>
    h.own w c reply state hA performs (hw hp)⟩

theorem Frame.const (p : Prop) : D.Frame n A fun _ => p :=
  ⟨fun _ _ _ h => h, fun _ _ _ _ _ _ h => h⟩

/-- An assertion about the state that every reply preserves. -/
theorem Frame.of_state {P : σ → Prop} (step : ∀ s c reply t, D.performs s c reply t → P s → P t) :
    D.Frame n A fun w => P w.state := by
  refine ⟨?_, fun w c reply state _ performs hw => step _ _ _ _ performs hw⟩
  intro w w' env hw
  cases env with
  | start => exact hw
  | call _ performs => exact step _ _ _ _ performs hw

/-- An assertion about the log that no further entry takes back. -/
theorem Frame.of_log {P : List (Event I ι) → Prop} (grows : ∀ log e, P log → P (log ++ [e])) :
    D.Frame n A fun w => P w.log := by
  refine ⟨?_, fun w c reply state _ _ hw => grows _ _ hw⟩
  intro w w' env hw
  cases env with
  | start | call => exact grows _ _ hw

theorem Frame.mem_log {γ : Type} (f : Event I ι → Option γ) (x : γ) :
    D.Frame n A fun w => x ∈ w.log.filterMap f := by
  refine .of_log (P := fun log => x ∈ log.filterMap f) fun log e hx => ?_
  rw [List.filterMap_append]
  exact List.mem_append_left _ hx

/-- A program that only makes calls which keep the invariant is safe, and carries every frame. -/
theorem Frame.triple (h : D.Frame n A P) (only : p.Only A)
    (step : ∀ w c reply state, A c → D.inv w → D.performs w.state c reply state →
      D.inv (w.call n c reply state)) : D.Triple n P p fun _ => P := by
  intro w _ hw
  induction p generalizing w with
  | done result => exact fun w' hrely _ => h.stable.rely hrely hw
  | call c next ih =>
    intro w' hrely hinv reply state performs
    have hinv' := step w' c reply state only.1 hinv performs
    exact ⟨hinv', ih reply (only.2 reply) _ hinv'
      (h.own w' c reply state only.1 performs (h.stable.rely hrely hw))⟩

/-- What no call makes false is carried along by every program. -/
theorem Safe.frame (frame : D.Frame n (fun _ => True) P) (h : D.Safe n Q p w) (hw : P w) :
    D.Safe n (fun a w => Q a w ∧ P w) p w := by
  induction p generalizing w with
  | done result => exact fun w' hrely hinv => ⟨h w' hrely hinv, frame.stable.rely hrely hw⟩
  | call c next ih =>
    intro w' hrely hinv reply state performs
    obtain ⟨hinv', hnext⟩ := h w' hrely hinv reply state performs
    exact ⟨hinv', ih reply hnext
      (frame.own w' c reply state trivial performs (frame.stable.rely hrely hw))⟩

theorem Triple.frame (frame : D.Frame n (fun _ => True) P') (h : D.Triple n P p Q) :
    D.Triple n (fun w => P w ∧ P' w) p fun a w => Q a w ∧ P' w :=
  fun w hinv hw => (h w hinv hw.1).frame frame hw.2

/-! ### Programs that may fail -/

section Except

variable {ε : Type} {q : ExceptT ε (Prog I) α} {E : World I σ ι → Prop}

/-- What a fallible program establishes, and what holds when it failed. -/
def ExceptTriple (D : Discipline I σ ι) (n : Nat) (P : World I σ ι → Prop)
    (q : ExceptT ε (Prog I) α) (Q : α → World I σ ι → Prop) (E : World I σ ι → Prop) : Prop :=
  D.Triple n P q.run fun result w =>
    match result with
    | .ok a => Q a w
    | .error _ => E w

/-- A fault ends the whole program. -/
theorem ExceptTriple.bind {f : α → ExceptT ε (Prog I) β} (stable : D.Stable n E)
    (h : D.ExceptTriple n P q Q E) (hf : ∀ a, D.ExceptTriple n (Q a) (f a) R E) :
    D.ExceptTriple n P (q >>= f) R E := by
  refine Triple.bind h fun result => ?_
  cases result with
  | ok a => exact hf a
  | error e => exact Triple.pure stable fun _ _ hw => hw

theorem ExceptTriple.pure {a : α} (stable : D.Stable n P) (h : ∀ w, D.inv w → P w → Q a w) :
    D.ExceptTriple n P (Pure.pure a : ExceptT ε (Prog I) α) Q E :=
  Triple.pure stable h

theorem ExceptTriple.bind_known {S : World I σ ι → Prop} {a : α} {f : α → ExceptT ε (Prog I) β}
    (stable : D.Stable n E) (h : D.ExceptTriple n P q (fun b w => S w ∧ b = a) E)
    (hf : D.ExceptTriple n S (f a) R E) : D.ExceptTriple n P (q >>= f) R E := by
  refine .bind stable h fun b w hinv hw => ?_
  obtain ⟨hw, rfl⟩ := hw
  exact hf w hinv hw

/-- A first part whose answer tells whether something holds. -/
theorem ExceptTriple.bind_known_if {S T : World I σ ι → Prop} {p : α → Prop}
    {f : α → ExceptT ε (Prog I) β} (stable : D.Stable n E)
    (h : D.ExceptTriple n P q (fun a w => S w ∧ (p a → T w)) E)
    (yes : ∀ a, p a → D.ExceptTriple n (fun w => S w ∧ T w) (f a) R E)
    (no : ∀ a, ¬ p a → D.ExceptTriple n S (f a) R E) : D.ExceptTriple n P (q >>= f) R E := by
  refine .bind stable h fun a w hinv hw => ?_
  by_cases ha : p a
  · exact yes a ha w hinv ⟨hw.1, hw.2 ha⟩
  · exact no a ha w hinv hw.1

theorem ExceptTriple.mk {result : Except ε α} (stable : D.Stable n P)
    (ok : ∀ a, result = .ok a → ∀ w, D.inv w → P w → Q a w)
    (fault : ∀ e, result = .error e → ∀ w, D.inv w → P w → E w) :
    D.ExceptTriple n P (ExceptT.mk (Pure.pure result)) Q E := by
  cases result with
  | ok a => exact Triple.pure stable (ok a rfl)
  | error e => exact Triple.pure stable (fault e rfl)

theorem ExceptTriple.conseq (h : D.ExceptTriple n P q Q E) (pre : ∀ w, D.inv w → P' w → P w)
    (post : ∀ a w, D.inv w → Q a w → Q' a w) : D.ExceptTriple n P' q Q' E := by
  refine Triple.conseq h pre fun result w hinv hw => ?_
  cases result with
  | ok a => exact post a w hinv hw
  | error e => exact hw

/-- An assertion that holds at the end either way holds whatever is made of the answer. -/
theorem ExceptTriple.map {f : α → β} (stable : D.Stable n E)
    (h : D.ExceptTriple n P q (fun _ => E) E) : D.Triple n P (f <$> q).run fun _ => E := by
  have hbind : D.ExceptTriple n P (q >>= fun a => Pure.pure (f a)) (fun _ => E) E :=
    .bind stable h fun a => .pure stable fun _ _ hw => hw
  refine Triple.conseq hbind (fun _ _ hw => hw) fun result w _ hw => ?_
  cases result with
  | ok | error => exact hw

/-- The rule of frames for fallible programs. -/
theorem Frame.exceptTriple (h : D.Frame n A P) (only : q.run.Only A)
    (step : ∀ w c reply state, A c → D.inv w → D.performs w.state c reply state →
      D.inv (w.call n c reply state)) (fault : ∀ w, D.inv w → P w → E w) :
    D.ExceptTriple n P q (fun _ => P) E := by
  refine (h.triple only step).conseq (fun _ _ hw => hw) fun result w hinv hw => ?_
  cases result with
  | ok a => exact hw
  | error e => exact fault w hinv hw

end Except

end Discipline

/-! ## Pools of safe threads -/

/-- What has to be shown of the code of a pool: a start keeps the invariant, and the program of a
new thread is safe in the world it starts in. -/
structure Pool.Verified (m : Pool I σ ι ρ) (D : Discipline I σ ι)
    (Post : Nat → ι → World I σ ι → ρ → World I σ ι → Prop) : Prop where
  performs_eq : D.performs = m.performs
  start_inv : ∀ w n input, (∀ e ∈ w.log, e.thread < n) → D.inv w → D.ok w input →
    D.inv (w.start n input)
  code_safe : ∀ w n input, (∀ e ∈ w.log, e.thread < n) → D.inv w → D.ok w input →
    D.inv (w.start n input) → D.Safe n (Post n input w) (m.code input) (w.start n input)

namespace Pool

variable {m : Pool I σ ι ρ} {D : Discipline I σ ι} {cfg : Config I σ ι ρ}
  {Post : Nat → ι → World I σ ι → ρ → World I σ ι → Prop} {n : Nat}

/-- What holds of a configuration of a verified pool. -/
structure Sound (D : Discipline I σ ι) (Post : Nat → ι → World I σ ι → ρ → World I σ ι → Prop)
    (cfg : Config I σ ι ρ) : Prop where
  threads : ∀ e ∈ cfg.world.log, e.thread < cfg.threads.length
  inv : D.inv cfg.world
  safe : ∀ (n : Nat) (thread : Thread I σ ι ρ) (p : Prog I ρ), cfg.threads[n]? = some thread →
    thread.rest = some p → D.Safe n (Post n thread.input thread.before) p cfg.world

theorem Sound.start (verified : m.Verified D Post) (h : Sound D Post cfg) {input : ι}
    (meets : D.ok cfg.world input) :
    Sound D Post ⟨cfg.world.start cfg.threads.length input,
      cfg.threads ++ [⟨input, cfg.world, some (m.code input)⟩]⟩ := by
  have hinv := verified.start_inv _ _ _ h.threads h.inv meets
  refine ⟨?_, hinv, ?_⟩
  · intro e hmem
    rw [List.length_append]
    rcases List.mem_append.mp hmem with hmem | hmem
    · exact Nat.lt_add_right _ (h.threads e hmem)
    · rw [List.mem_singleton.mp hmem]
      exact Nat.lt_succ_self _
  · intro n thread p hthr hrest
    rw [List.getElem?_append] at hthr
    split at hthr
    case isTrue hlt =>
      -- An older thread sees the start as a step of its environment.
      refine (h.safe n thread p hthr hrest).rely (.single (.start ?_ meets h.inv hinv))
      exact Nat.ne_of_gt hlt
    case isFalse hge =>
      rw [List.getElem?_singleton] at hthr
      split at hthr
      case isTrue hzero =>
        cases hthr
        cases hrest
        have hn : n = cfg.threads.length := by omega
        subst hn
        exact verified.code_safe _ _ _ h.threads h.inv meets hinv
      case isFalse => cases hthr

theorem Sound.call (verified : m.Verified D Post) (h : Sound D Post cfg) {thread : Thread I σ ι ρ}
    {c : I.Call} {next : I.Reply c → Prog I ρ} {reply : I.Reply c} {state : σ}
    (thread_eq : cfg.threads[n]? = some thread) (rest_eq : thread.rest = some (.call c next))
    (performs : m.performs cfg.world.state c reply state) :
    Sound D Post ⟨cfg.world.call n c reply state,
      cfg.threads.set n { thread with rest := some (next reply) }⟩ := by
  rw [← verified.performs_eq] at performs
  obtain ⟨hinv, hnext⟩ :=
    h.safe n thread _ thread_eq rest_eq cfg.world .refl h.inv reply state performs
  refine ⟨?_, hinv, ?_⟩
  · intro e hmem
    rw [List.length_set]
    rcases List.mem_append.mp hmem with hmem | hmem
    · exact h.threads e hmem
    · rw [List.mem_singleton.mp hmem]
      exact (List.getElem?_eq_some_iff.mp thread_eq).1
  · intro k other p ho hrest
    rw [List.getElem?_set] at ho
    split at ho
    case isTrue heq =>
      subst heq
      split at ho
      · cases ho
        cases hrest
        exact hnext
      · cases ho
    case isFalse hne =>
      exact (h.safe k other p ho hrest).rely (.single (.call hne performs h.inv hinv))

theorem Sound.crash (h : Sound D Post cfg) {thread : Thread I σ ι ρ} :
    Sound D Post ⟨cfg.world, cfg.threads.set n { thread with rest := none }⟩ := by
  refine ⟨?_, h.inv, ?_⟩
  · intro e hmem
    rw [List.length_set]
    exact h.threads e hmem
  · intro k other p ho hrest
    rw [List.getElem?_set] at ho
    split at ho
    · split at ho
      · cases ho
        cases hrest
      · cases ho
    · exact h.safe k other p ho hrest

theorem Steps.sound (verified : m.Verified D Post) {s : σ} (inv : D.inv ⟨s, []⟩)
    (h : m.Steps D.ok (.initial s) cfg) : Sound D Post cfg := by
  induction h with
  | refl => exact ⟨by simp [Config.initial], inv, by simp [Config.initial]⟩
  | tail _ step ih =>
    cases step with
    | start input meets => exact ih.start verified meets
    | call n thread c next reply state thread_eq rest_eq performs =>
      exact ih.call verified thread_eq rest_eq performs
    | crash => exact ih.crash

/-- A thread that returned has established its postcondition. -/
theorem Sound.post (h : Sound D Post cfg) {thread : Thread I σ ι ρ} {result : ρ}
    (thread_eq : cfg.threads[n]? = some thread) (rest_eq : thread.rest = some (.done result)) :
    Post n thread.input thread.before result cfg.world :=
  h.safe n thread _ thread_eq rest_eq cfg.world .refl h.inv

end Pool

/-! ## One thread alone -/

/-- A program that makes all its calls without a step of another thread between them. -/
inductive Prog.Finishes (performs : σ → (c : I.Call) → I.Reply c → σ → Prop) :
    Prog I α → σ → α → σ → Prop where
  | done (a : α) (s : σ) : Finishes performs (.done a) s a s
  | call {c : I.Call} {next : I.Reply c → Prog I α} {reply : I.Reply c} {s t u : σ} {a : α}
      (performed : performs s c reply t) (rest : Finishes performs (next reply) t a u) :
      Finishes performs (.call c next) s a u

variable {performs : σ → (c : I.Call) → I.Reply c → σ → Prop}

theorem Prog.Finishes.bind {p : Prog I α} {s t u : σ} {a : α} {b : β}
    (h : Finishes performs p s a t)
    (hf : Finishes performs (f a) t b u) : Finishes performs (p >>= f) s b u := by
  induction h with
  | done => exact hf
  | call performed _ ih => exact .call performed (ih hf)

theorem Prog.Finishes.ask {c : I.Call} {reply : I.Reply c} {s t : σ}
    (performed : performs s c reply t) : Finishes performs (Prog.ask c) s reply t :=
  .call performed (.done reply t)

theorem Prog.Finishes.bindExcept {ε : Type}
    {p : ExceptT ε (Prog I) α} {f : α → ExceptT ε (Prog I) β} {s t u : σ} {a : α} {b : Except ε β}
    (h : Finishes performs p.run s (.ok a) t) (hf : Finishes performs (f a).run t b u) :
    Finishes performs (p >>= f).run s b u :=
  Finishes.bind h hf

/-- A thread may be run to its end alone. -/
theorem Pool.Steps.of_finishes {m : Pool I σ ι ρ} (ok : World I σ ι → ι → Prop)
    {cfg : Config I σ ι ρ} {n : Nat} {input : ι} {before : World I σ ι} {p : Prog I ρ} {t : σ}
    {result : ρ} (thread_eq : cfg.threads[n]? = some ⟨input, before, some p⟩)
    (h : p.Finishes m.performs cfg.world.state result t) :
    ∃ cfg', m.Steps ok cfg cfg' ∧ cfg'.world.state = t ∧
      cfg'.threads[n]? = some ⟨input, before, some (.done result)⟩ := by
  generalize hs : cfg.world.state = s at h
  induction h generalizing cfg with
  | done a s => exact ⟨cfg, .refl, hs, thread_eq⟩
  | call performed _ ih =>
    rename_i c next reply s t u a _
    subst hs
    have hlt := (List.getElem?_eq_some_iff.mp thread_eq).1
    let mid : Config I σ ι ρ := ⟨cfg.world.call n c reply t,
      cfg.threads.set n ⟨input, before, some (next reply)⟩⟩
    have hstep : m.Step ok cfg mid := .call cfg n _ c next reply t thread_eq rfl performed
    have hmid : mid.threads[n]? = some ⟨input, before, some (next reply)⟩ := by
      simp [mid, hlt]
    obtain ⟨cfg', hsteps, hstate, hthr⟩ := ih hmid rfl
    exact ⟨cfg', .head hstep hsteps, hstate, hthr⟩

/-! ## Schedules -/

/-- One entry of a schedule; a call takes along what the ports are to reply. -/
inductive Action (ι ω : Type) where
  | start (input : ι)
  | call (n : Nat) (choice : ω)
  | crash (n : Nat)

namespace Pool

variable {ω : Type} (m : Pool I σ ι ρ)
  (answer : ω → σ → (c : I.Call) → Option (I.Reply c × σ)) (ok : World I σ ι → ι → Bool)

/-- Take the steps of a schedule; a call of a thread that has returned does nothing. -/
def exec (cfg : Config I σ ι ρ) : List (Action ι ω) → Option (Config I σ ι ρ)
  | [] => some cfg
  | .start input :: rest =>
    if ok cfg.world input then
      exec ⟨cfg.world.start cfg.threads.length input,
        cfg.threads ++ [⟨input, cfg.world, some (m.code input)⟩]⟩ rest
    else none
  | .call n choice :: rest =>
    match cfg.threads[n]? with
    | some ⟨input, before, some (.call c next)⟩ =>
      match answer choice cfg.world.state c with
      | some (reply, state) =>
        exec ⟨cfg.world.call n c reply state,
          cfg.threads.set n ⟨input, before, some (next reply)⟩⟩ rest
      | none => none
    | _ => exec cfg rest
  | .crash n :: rest =>
    match cfg.threads[n]? with
    | some ⟨input, before, some (.call _ _)⟩ =>
      exec ⟨cfg.world, cfg.threads.set n ⟨input, before, none⟩⟩ rest
    | _ => exec cfg rest

variable {m answer ok}

theorem exec_steps
    (sound : ∀ choice s c reply t, answer choice s c = some (reply, t) → m.performs s c reply t)
    {cfg cfg' : Config I σ ι ρ} {schedule : List (Action ι ω)}
    (h : m.exec answer ok cfg schedule = some cfg') :
    m.Steps (fun w input => ok w input = true) cfg cfg' := by
  induction schedule generalizing cfg with
  | nil =>
    cases h
    exact .refl
  | cons action rest ih =>
    cases action with
    | start input =>
      unfold exec at h
      split at h
      case isTrue hmeets => exact .head (.start cfg input hmeets) (ih h)
      case isFalse => cases h
    | call n choice =>
      unfold exec at h
      split at h
      case h_1 input before c next hthr =>
        split at h
        case h_1 reply state hanswer =>
          exact .head (.call cfg n _ c next reply state hthr rfl (sound _ _ _ _ _ hanswer)) (ih h)
        case h_2 => cases h
      case h_2 => exact ih h
    | crash n =>
      unfold exec at h
      split at h
      case h_1 input before c next hthr =>
        exact .head (.crash cfg n _ c next hthr rfl) (ih h)
      case h_2 => exact ih h

theorem exists_steps_of_exec
    (sound : ∀ choice s c reply t, answer choice s c = some (reply, t) → m.performs s c reply t)
    {cfg : Config I σ ι ρ} {schedule : List (Action ι ω)} {check : Config I σ ι ρ → Bool}
    (h : (m.exec answer ok cfg schedule).any check = true) :
    ∃ cfg', m.Steps (fun w input => ok w input = true) cfg cfg' ∧ check cfg' = true := by
  cases hexec : m.exec answer ok cfg schedule with
  | none =>
    rw [hexec] at h
    cases h
  | some cfg' =>
    rw [hexec] at h
    exact ⟨cfg', exec_steps sound hexec, h⟩

end Pool

-- From here on a program is reasoned about by the rules; unfolding `Safe` would run it.
attribute [irreducible] Discipline.Safe

end Interleaving
