import Mathlib.Data.List.Forall2
import Mathlib.Logic.Basic
import Mathlib.Logic.Unique
import Mathlib.Tactic.Common

/-!
# Computations that answer, refuse or panic

A fallible routine ends in one of three ways: it answers, it refuses with a typed error that the
caller can handle, or it panics and takes its caller down.  `Outcome` keeps the last two apart, so
that "never panics" is a property of the value a routine returns.

* `Outcome.bind_eq_ok`: an accepted sequence is an accepted first part and an accepted rest;
* `Outcome.require_eq_ok`, `Outcome.okOr_eq_ok`, `Outcome.expect_eq_ok`: what acceptance of each
  primitive check says;
* `Outcome.NoPanic.bind`: absence of panics composes along the same sequence.
-/

/-- Why a computation gave no answer: a typed refusal, or a panic with its message. -/
inductive Fault (ε : Type) where
  | refused (error : ε)
  | panicked (message : String)
deriving DecidableEq, Repr

/-- The result of a routine that may refuse with an `ε` or panic. -/
abbrev Outcome (ε α : Type) := Except (Fault ε) α

namespace Outcome

variable {ε α β : Type}

def refuse (e : ε) : Outcome ε α := .error (.refused e)

def require (p : Prop) [Decidable p] (e : ε) : Outcome ε Unit :=
  if p then .ok () else refuse e

def okOr (o : Option α) (e : ε) : Outcome ε α :=
  match o with
  | some a => .ok a
  | none => refuse e

/-- The value of an option, panicking when there is none. -/
def expect (o : Option α) (message : String) : Outcome ε α :=
  match o with
  | some a => .ok a
  | none => .error (.panicked message)

/-- Run a check on every element, in order, and stop at the first one that fails. -/
def forEach (l : List α) (check : α → Outcome ε Unit) : Outcome ε Unit :=
  match l with
  | [] => .ok ()
  | a :: rest => check a >>= fun _ => forEach rest check

def isOk : Outcome ε α → Bool
  | .ok _ => true
  | .error _ => false

def get (x : Outcome ε α) (h : x.isOk = true) : α :=
  match x, h with
  | .ok a, _ => a

/-! ## What an accepted computation says -/

theorem eq_ok_of_isOk {x : Outcome ε Unit} (h : x.isOk = true) : x = .ok () := by
  cases x with
  | ok => rfl
  | error => cases h

variable {x : Outcome ε α}

theorem exists_eq_ok_of_isOk (h : x.isOk = true) : ∃ a, x = .ok a := by
  cases x with
  | ok a => exact ⟨a, rfl⟩
  | error => cases h

theorem eq_ok_of_toOption {a : α} (h : x.toOption = some a) : x = .ok a := by
  cases x with
  | ok b => exact congrArg Except.ok (Option.some.inj h)
  | error => cases h

theorem exists_eq_ok_of_any {P : α → Prop} [DecidablePred P]
    (h : x.toOption.any (fun a => P a) = true) : ∃ a, x = .ok a ∧ P a := by
  obtain ⟨a, ha, hP⟩ := (Option.any_eq_true _ _).mp h
  exact ⟨a, eq_ok_of_toOption ha, of_decide_eq_true hP⟩

theorem bind_eq_ok (x : Outcome ε α) (f : α → Outcome ε β) (b : β) :
    (x >>= f) = .ok b ↔ ∃ a, x = .ok a ∧ f a = .ok b := by
  cases x with
  | error e | ok a => simp [bind, Except.bind]

theorem exists_unit {P : Unit → Prop} : (∃ u, P u) ↔ P () := Unique.exists_iff

@[simp] theorem pure_eq_ok (a b : α) : (pure a : Outcome ε α) = .ok b ↔ a = b := by
  simp [pure, Except.pure]

@[simp] theorem ok_bind (a : α) (f : α → Outcome ε β) : ((.ok a : Outcome ε α) >>= f) = f a := rfl

@[simp] theorem refuse_ne_ok (e : ε) (a : α) : (refuse e : Outcome ε α) ≠ .ok a := by
  simp [refuse]

@[simp] theorem require_eq_ok (p : Prop) [Decidable p] (e : ε) (u : Unit) :
    require p e = .ok u ↔ p := by
  unfold require
  split <;> simp_all

@[simp] theorem okOr_eq_ok (o : Option α) (e : ε) (a : α) : okOr o e = .ok a ↔ o = some a := by
  cases o <;> simp [okOr]

theorem ite_eq_ok (p : Prop) [Decidable p] (x y : Outcome ε α) (a : α) :
    (if p then x else y) = .ok a ↔ (p ∧ x = .ok a) ∨ (¬ p ∧ y = .ok a) := by
  by_cases h : p <;> simp [h]

/-! ## What a refused computation says -/

theorem bind_eq_refuse (x : Outcome ε α) (f : α → Outcome ε β) (e : ε) :
    (x >>= f) = refuse e ↔ x = refuse e ∨ ∃ a, x = .ok a ∧ f a = refuse e := by
  cases x with
  | error fault | ok a => simp [bind, Except.bind, refuse]

theorem ok_ne_refuse (a : α) (e : ε) : (.ok a : Outcome ε α) ≠ refuse e := by
  simp [refuse]

theorem pure_ne_refuse (a : α) (e : ε) : (pure a : Outcome ε α) ≠ refuse e := by
  simp [refuse, pure, Except.pure]

theorem refuse_eq_refuse (e e' : ε) : (refuse e : Outcome ε α) = refuse e' ↔ e = e' := by
  simp [refuse]

theorem okOr_eq_refuse (o : Option α) (e e' : ε) : okOr o e = refuse e' ↔ o = none ∧ e = e' := by
  cases o <;> simp [okOr, refuse]

/-! ## Lists -/

theorem mapM_eq_ok (f : α → Outcome ε β) (l : List α) (bs : List β) :
    l.mapM f = .ok bs ↔ List.Forall₂ (fun a b => f a = .ok b) l bs := by
  induction l generalizing bs with
  | nil =>
    rw [List.mapM_nil, pure_eq_ok, List.forall₂_nil_left_iff]
    exact eq_comm
  | cons a l ih =>
    simp only [List.mapM_cons, bind_eq_ok, pure_eq_ok, ih, List.forall₂_cons_left_iff]
    constructor
    · rintro ⟨b, hb, bs', hbs', rfl⟩
      exact ⟨b, bs', hb, hbs', rfl⟩
    · rintro ⟨b, bs', hb, hbs', rfl⟩
      exact ⟨b, hb, bs', hbs', rfl⟩

variable {f : α → Outcome ε β}

theorem mapM_eq_ok_map {g : α → β} {l : List α}
    (h : ∀ a ∈ l, f a = .ok (g a)) : l.mapM f = .ok (l.map g) := by
  rw [mapM_eq_ok, List.forall₂_map_right_iff, List.forall₂_same]
  exact h

theorem exists_mapM_eq_ok {l : List α} (h : ∀ a ∈ l, ∃ b, f a = .ok b) :
    ∃ bs, l.mapM f = .ok bs := by
  induction l with
  | nil => exact ⟨[], rfl⟩
  | cons a l ih =>
    rw [List.forall_mem_cons] at h
    obtain ⟨b, hb⟩ := h.1
    obtain ⟨bs, hbs⟩ := ih h.2
    exact ⟨b :: bs, (mapM_eq_ok f (a :: l) (b :: bs)).mpr (.cons hb ((mapM_eq_ok f l bs).mp hbs))⟩

theorem mem_of_mapM_eq_ok {l : List α} {bs : List β}
    (h : l.mapM f = .ok bs) (b : β) : b ∈ bs ↔ ∃ a ∈ l, f a = .ok b := by
  rw [mapM_eq_ok] at h
  induction h with
  | nil => simp
  | cons hab _ ih => simp [ih, hab, eq_comm]

/-! ## Absence of panics -/

/-- The computation answers or refuses. -/
def NoPanic (x : Outcome ε α) : Prop := ∀ m, x ≠ .error (.panicked m)

@[simp] theorem noPanic_ok (a : α) : NoPanic (.ok a : Outcome ε α) := by
  intro m h
  cases h

@[simp] theorem noPanic_pure (a : α) : NoPanic (pure a : Outcome ε α) := noPanic_ok a

@[simp] theorem noPanic_refuse (e : ε) : NoPanic (refuse e : Outcome ε α) := by
  intro m h
  simp [refuse] at h

@[simp] theorem noPanic_require (p : Prop) [Decidable p] (e : ε) : NoPanic (require p e) := by
  unfold require
  split <;> simp

@[simp] theorem noPanic_okOr (o : Option α) (e : ε) : NoPanic (okOr o e) := by
  cases o <;> simp [okOr]

theorem noPanic_expect_iff (o : Option α) (m : String) :
    NoPanic (expect o m : Outcome ε α) ↔ o.isSome := by
  cases o with
  | none => simp [expect, NoPanic]
  | some a => simp [expect]

/-- A sequence does not panic when its first part does not and the rest does not on any answer of
the first part. -/
theorem NoPanic.bind (hx : NoPanic x)
    (hf : ∀ a, x = .ok a → NoPanic (f a)) : NoPanic (x >>= f) := by
  cases x with
  | error e => exact fun m h => hx m (by simpa [Bind.bind, Except.bind] using h)
  | ok a => exact hf a rfl

/-- A sequence panics in its first part, or in the rest on the answer of the first part. -/
@[simp] theorem noPanic_bind (x : Outcome ε α) (f : α → Outcome ε β) :
    NoPanic (x >>= f) ↔ NoPanic x ∧ ∀ a, x = .ok a → NoPanic (f a) := by
  refine ⟨fun h => ⟨fun m hx => ?_, fun a ha => ?_⟩, fun h => h.1.bind h.2⟩
  · rw [hx] at h
    exact h m rfl
  · rw [ha] at h
    exact h

@[simp] theorem noPanic_map (g : α → β) (x : Outcome ε α) : NoPanic (g <$> x) ↔ NoPanic x := by
  have h : g <$> x = x >>= fun a => pure (g a) := by cases x <;> rfl
  rw [h, noPanic_bind]
  simp

theorem noPanic_forEach (l : List α) (check : α → Outcome ε Unit)
    (h : ∀ a ∈ l, NoPanic (check a)) : NoPanic (forEach l check) := by
  induction l with
  | nil => simp [forEach]
  | cons a rest ih =>
    rw [List.forall_mem_cons] at h
    exact h.1.bind fun _ _ => ih h.2

theorem noPanic_foldlM (step : β → α → Outcome ε β) (h : ∀ b a, NoPanic (step b a)) (l : List α)
    (init : β) : NoPanic (l.foldlM step init) := by
  induction l generalizing init with
  | nil => exact noPanic_pure init
  | cons a rest ih =>
    rw [List.foldlM_cons]
    exact (h init a).bind fun b _ => ih b

end Outcome
