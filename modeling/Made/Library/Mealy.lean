import Mathlib.Logic.Basic

/-!
# Machines that answer

A machine answers every request and goes to a next state.  Two machines answer a sequence of
requests alike when a relation between their states is kept by every request they are sent.
-/

namespace Mealy

variable {σ τ ι ο : Type}

/-- The answers to requests made one after the other, and the state they leave. -/
def replies (answer : σ → ι → ο × σ) : σ → List ι → List ο × σ
  | s, [] => ([], s)
  | s, request :: requests =>
    let rest := replies answer (answer s request).2 requests
    ((answer s request).1 :: rest.1, rest.2)

/-- A condition on every request and the state it is made in. -/
def Along (answer : σ → ι → ο × σ) (ok : σ → ι → Prop) : σ → List ι → Prop
  | _, [] => True
  | s, request :: requests => ok s request ∧ Along answer ok (answer s request).2 requests

instance decidableAlong (answer : σ → ι → ο × σ) (ok : σ → ι → Prop)
    [∀ s request, Decidable (ok s request)] : ∀ s requests, Decidable (Along answer ok s requests)
  | _, [] => inferInstanceAs (Decidable True)
  | s, request :: requests =>
    haveI := decidableAlong answer ok (answer s request).2 requests
    inferInstanceAs (Decidable (ok s request ∧ Along answer ok (answer s request).2 requests))

/-- What a condition gives in every state of an invariant, it gives along whole runs. -/
theorem along_mono {answer : σ → ι → ο × σ} {J : σ → Prop} {ok ok' : σ → ι → Prop}
    (hstep : ∀ s request, J s → ok s request → ok' s request ∧ J (answer s request).2)
    {s : σ} (h : J s) {requests : List ι} (hok : Along answer ok s requests) :
    Along answer ok' s requests := by
  induction requests generalizing s with
  | nil => trivial
  | cons request requests ih =>
    obtain ⟨hnow, hnext⟩ := hstep s request h hok.1
    exact ⟨hnow, ih hnext hok.2⟩

theorem replies_simulate {answer : σ → ι → ο × σ} {answer' : τ → ι → ο × τ}
    {related : σ → τ → Prop} {ok : σ → ι → Prop}
    (hstep : ∀ s t request, related s t → ok s request →
      (answer' t request).1 = (answer s request).1 ∧
        related (answer s request).2 (answer' t request).2)
    {s : σ} {t : τ} (h : related s t) {requests : List ι} (hok : Along answer ok s requests) :
    (replies answer' t requests).1 = (replies answer s requests).1 ∧
      related (replies answer s requests).2 (replies answer' t requests).2 := by
  induction requests generalizing s t with
  | nil => exact ⟨rfl, h⟩
  | cons request requests ih =>
    obtain ⟨hrep, hnext⟩ := hstep s t request h hok.1
    obtain ⟨hreplies, hend⟩ := ih hnext hok.2
    exact ⟨by rw [replies, replies, hrep, hreplies], hend⟩

end Mealy
