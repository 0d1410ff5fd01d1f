import Made.Library.Logs

/-!
# Marks in programs

Some facts about a program are about what it holds at a point in its code, and no call shows it.  A
mark makes such a point visible: it is a call that no port sees, and erasing the marks gives the
program back.
-/

namespace Interleaving

abbrev Interface.marked (I : Interface) (μ : Type) : Interface :=
  ⟨I.Call ⊕ μ, fun
    | .inl c => I.Reply c
    | .inr _ => Unit⟩

variable {I : Interface} {μ σ α β ε : Type}

namespace Prog

/-! ## Erasing -/

def erase : Prog (I.marked μ) α → Prog I α
  | .done a => .done a
  | .call (.inl c) next => .call c fun reply => (next reply).erase
  | .call (.inr _) next => (next ()).erase

def lift (μ : Type) (p : Prog I α) : Prog (I.marked μ) α :=
  p.translate (J := I.marked μ) Sum.inl fun _ reply => reply

@[simp] theorem erase_lift (p : Prog I α) : (p.lift μ).erase = p := by
  induction p with
  | done a => rfl
  | call c next ih => exact congrArg (Prog.call c) (funext ih)

@[simp] theorem erase_bind (p : Prog (I.marked μ) α) (f : α → Prog (I.marked μ) β) :
    (p >>= f).erase = p.erase >>= fun a => (f a).erase := by
  induction p with
  | done a => rfl
  | call c next ih =>
    cases c with
    | inl c => exact congrArg (Prog.call c) (funext ih)
    | inr m => exact ih ()

/-! ## What holds at every mark -/

/-- Whatever is replied, every mark satisfies the condition and the answer the postcondition. -/
def Marks (ok : μ → Prop) (post : α → Prop) : Prog (I.marked μ) α → Prop
  | .done a => post a
  | .call (.inl _) next => ∀ reply, (next reply).Marks ok post
  | .call (.inr m) next => ok m ∧ (next ()).Marks ok post

variable {ok : μ → Prop} {post : α → Prop} {p : Prog (I.marked μ) α}

theorem Marks.bind {f : α → Prog (I.marked μ) β} {post' : β → Prop}
    (h : p.Marks ok post) (hf : ∀ a, post a → (f a).Marks ok post') : (p >>= f).Marks ok post' := by
  induction p with
  | done a => exact hf a h
  | call c next ih =>
    cases c with
    | inl c => exact fun reply => ih reply (h reply)
    | inr m => exact ⟨h.1, ih () h.2⟩

theorem Marks.lift (p : Prog I α) (h : ∀ a, post a) : (p.lift μ).Marks ok post := by
  induction p with
  | done a => exact h a
  | call c next ih => exact ih

theorem Marks.imp {ok' : μ → Prop} (h : p.Marks ok post)
    (himp : ∀ m, ok m → ok' m) : p.Marks ok' post := by
  induction p with
  | done a => exact h
  | call c next ih =>
    cases c with
    | inl c => exact fun reply => ih reply (h reply)
    | inr m => exact ⟨himp m h.1, ih () h.2⟩

/-! ## Programs that may fail -/

/-- Whatever is replied, every mark satisfies the condition, and an answer the postcondition. -/
structure MarksE (ok : μ → Prop) (post : α → Prop) (p : ExceptT ε (Prog (I.marked μ)) α) :
    Prop where
  run : Marks ok (fun result => ∀ a, result = .ok a → post a) p.run

def eraseE (p : ExceptT ε (Prog (I.marked μ)) α) : ExceptT ε (Prog I) α := ExceptT.mk p.run.erase

def liftE (μ : Type) (p : ExceptT ε (Prog I) α) : ExceptT ε (Prog (I.marked μ)) α :=
  ExceptT.mk (p.run.lift μ)

def markE (m : μ) : ExceptT ε (Prog (I.marked μ)) Unit :=
  ExceptT.mk (.call (I := I.marked μ) (.inr m) fun _ => .done (.ok ()))

@[simp] theorem eraseE_liftE (p : ExceptT ε (Prog I) α) : eraseE (liftE μ p) = p :=
  erase_lift p.run

@[simp] theorem eraseE_markE_bind (m : μ) (f : Unit → ExceptT ε (Prog I) α) :
    eraseE (markE m) >>= f = f () := rfl

@[simp] theorem eraseE_pure (a : α) :
    eraseE (pure a : ExceptT ε (Prog (I.marked μ)) α) = pure a := rfl

@[simp] theorem eraseE_bind (p : ExceptT ε (Prog (I.marked μ)) α)
    (f : α → ExceptT ε (Prog (I.marked μ)) β) :
    eraseE (p >>= f) = eraseE p >>= fun a => eraseE (f a) := by
  refine (erase_bind p.run _).trans ?_
  refine congrArg (p.run.erase >>= ·) (funext fun result => ?_)
  cases result with
  | ok a | error e => rfl

theorem MarksE.imp {ok' : μ → Prop} {p : ExceptT ε (Prog (I.marked μ)) α} (h : MarksE ok post p)
    (himp : ∀ m, ok m → ok' m) : MarksE ok' post p :=
  ⟨h.run.imp himp⟩

theorem MarksE.bind {p : ExceptT ε (Prog (I.marked μ)) α}
    {f : α → ExceptT ε (Prog (I.marked μ)) β} {post' : β → Prop} (h : MarksE ok post p)
    (hf : ∀ a, post a → MarksE ok post' (f a)) : MarksE ok post' (p >>= f) := by
  refine ⟨Marks.bind h.run fun result hres => ?_⟩
  cases result with
  | ok a => exact (hf a (hres a rfl)).run
  | error e => exact fun a ha => nomatch ha

theorem MarksE.lift (p : ExceptT ε (Prog I) α) : MarksE ok (fun _ => True) (liftE μ p) :=
  ⟨Marks.lift p.run fun _ _ _ => trivial⟩

theorem MarksE.liftCheck {result : Except ε α} (h : ∀ a, result = .ok a → post a) :
    MarksE ok post (liftE μ (ExceptT.mk (Pure.pure result) : ExceptT ε (Prog I) α)) := ⟨h⟩

theorem MarksE.mark {m : μ} (h : ok m) :
    MarksE ok (fun _ => True) (markE m : ExceptT ε (Prog (I.marked μ)) Unit) :=
  ⟨h, fun _ _ => trivial⟩

theorem MarksE.pure {a : α} (h : post a) :
    MarksE ok post (Pure.pure a : ExceptT ε (Prog (I.marked μ)) α) := by
  refine ⟨?_⟩
  rintro b ⟨⟩
  exact h

/-! ## Coming to a mark -/

/-- An execution that comes to a mark, and the state it finds there. -/
inductive Comes (performs : σ → (c : I.Call) → I.Reply c → σ → Prop) :
    Prog (I.marked μ) α → σ → μ → σ → Prop where
  | here (m : μ) (next : Unit → Prog (I.marked μ) α) (s : σ) :
      Comes performs (.call (.inr m) next) s m s
  | mark {m' m : μ} {next : Unit → Prog (I.marked μ) α} {s t : σ}
      (rest : Comes performs (next ()) s m t) : Comes performs (.call (.inr m') next) s m t
  | call {c : I.Call} {next : I.Reply c → Prog (I.marked μ) α} {reply : I.Reply c} {s t u : σ}
      {m : μ} (performed : performs s c reply t) (rest : Comes performs (next reply) t m u) :
      Comes performs (.call (.inl c) next) s m u

variable {performs : σ → (c : I.Call) → I.Reply c → σ → Prop}

/-- What holds at every mark holds at a mark an execution comes to. -/
theorem Marks.comes
    {s t : σ} {m : μ} (h : p.Marks ok post) (hcomes : Comes performs p s m t) : ok m := by
  induction hcomes with
  | here => exact h.1
  | mark _ ih => exact ih h.2
  | call _ _ ih => exact ih (h _)

/-- The state, and what the ports reply in it. -/
abbrev Answer (I : Interface) (σ : Type) := σ → (c : I.Call) → I.Reply c × σ

def marksOf (answer : Answer I σ) : Prog (I.marked μ) α → σ → List (μ × σ)
  | .done _, _ => []
  | .call (.inl c) next, s => (next (answer s c).1).marksOf answer (answer s c).2
  | .call (.inr m) next, s => (m, s) :: (next ()).marksOf answer s

theorem comes_of_mem_marksOf {answer : Answer I σ}
    (sound : ∀ s c, performs s c (answer s c).1 (answer s c).2) {s t : σ}
    {m : μ} (h : (m, t) ∈ p.marksOf answer s) : Comes performs p s m t := by
  induction p generalizing s with
  | done a => cases h
  | call c next ih =>
    cases c with
    | inl c => exact .call (sound s c) (ih _ h)
    | inr m' =>
      obtain heq | hrest := List.mem_cons.mp h
      · cases heq
        exact .here _ _ _
      · exact .mark (ih _ hrest)

def perform (answer : Answer I σ) : Prog I α → σ → α × σ
  | .done a, s => (a, s)
  | .call c next, s => (next (answer s c).1).perform answer (answer s c).2

theorem finishes_perform {answer : Answer I σ}
    (sound : ∀ s c, performs s c (answer s c).1 (answer s c).2) (p : Prog I α) (s : σ) :
    p.Finishes performs s (p.perform answer s).1 (p.perform answer s).2 := by
  induction p generalizing s with
  | done a => exact .done a s
  | call c next ih => exact .call (sound s c) (ih _ _)

end Prog

end Interleaving
