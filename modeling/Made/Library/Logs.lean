import Made.Library.Interleaving

/-!
# Programs and the log of their calls

Much of what threads that share a state know about each other is in the log of their calls.

* `EveryEntry`: a condition on each entry, given the log before it;
* `Growing`, `Lasting`: what no thread, or no other thread, can take back;
* `Discipline.Establishes`: what a fallible program leaves in the log with each of its results,
  with the rules `Establishes.pure`, `Establishes.bind`, `Establishes.check`, `Establishes.call`.
-/

namespace Interleaving

variable {I : Interface} {σ ι ε α β γ : Type}

abbrev Log (I : Interface) (ι : Type) := List (Event I ι)

/-! ## Every entry -/

section EveryEntry

variable {P : Log I ι → Event I ι → Prop} {log : Log I ι}

/-- Every entry meets the condition, given what was logged before it. -/
def EveryEntry (P : Log I ι → Event I ι → Prop) (log : Log I ι) : Prop :=
  ∀ before e after, log = before ++ e :: after → P before e

theorem everyEntry_nil : EveryEntry P [] := by
  intro before e after h
  simp at h

theorem everyEntry_concat {e : Event I ι} :
    EveryEntry P (log ++ [e]) ↔ EveryEntry P log ∧ P log e := by
  constructor
  · intro h
    refine ⟨?_, h log e [] rfl⟩
    intro before e' after hlog
    exact h before e' (after ++ [e]) (by rw [hlog, List.append_assoc, List.cons_append])
  · rintro ⟨hlog, he⟩ before e' after hsplit
    -- The entry is the last one, or stands in front of it.
    rcases List.eq_nil_or_concat after with rfl | ⟨after, last, rfl⟩
    · obtain ⟨rfl, heq⟩ := List.append_inj' hsplit rfl
      cases heq
      exact he
    · rw [List.concat_eq_append, ← List.cons_append, ← List.append_assoc] at hsplit
      exact hlog before e' after (List.append_inj' hsplit rfl).1

theorem everyEntry_iff_forall_fin :
    EveryEntry P log ↔ ∀ i : Fin log.length, P (log.take i) log[i] := by
  constructor
  · intro h i
    refine h (log.take i) log[i] (log.drop (i + 1)) ?_
    rw [Fin.getElem_fin, List.getElem_cons_drop, List.take_append_drop]
  · rintro h before e after rfl
    simpa using h ⟨before.length, by simp⟩

instance [∀ before e, Decidable (P before e)] : Decidable (EveryEntry P log) :=
  decidable_of_iff _ everyEntry_iff_forall_fin.symm

end EveryEntry

/-! ## What lasts -/

/-- No further entry takes it back. -/
def Growing (P : Log I ι → Prop) : Prop := ∀ log e, P log → P (log ++ [e])

/-- No entry of another thread takes it back. -/
def Lasting (n : Nat) (P : Log I ι → Prop) : Prop :=
  ∀ log e, e.thread ≠ n → P log → P (log ++ [e])

namespace Growing

variable {P Q : Log I ι → Prop}

theorem const (p : Prop) : Growing (I := I) (ι := ι) fun _ => p := fun _ _ h => h

theorem mem (entry : Event I ι) : Growing fun log => entry ∈ log :=
  fun _ _ h => List.mem_append_left _ h

theorem and (h : Growing P) (h' : Growing Q) : Growing fun log => P log ∧ Q log :=
  fun log e hlog => ⟨h log e hlog.1, h' log e hlog.2⟩

theorem or (h : Growing P) (h' : Growing Q) : Growing fun log => P log ∨ Q log :=
  fun log e hlog => hlog.imp (h log e) (h' log e)

theorem exists_ {P : γ → Log I ι → Prop} (h : ∀ x, Growing (P x)) :
    Growing fun log => ∃ x, P x log :=
  fun log e ⟨x, hx⟩ => ⟨x, h x log e hx⟩

/-- Under an assumption that a longer log only makes stronger. -/
theorem imp {A : Log I ι → Prop} (hA : ∀ log e, A (log ++ [e]) → A log) (h : Growing P) :
    Growing fun log => A log → P log :=
  fun log e hlog ha => h log e (hlog (hA log e ha))

theorem lasting (h : Growing P) (n : Nat) : Lasting n P := fun log e _ hlog => h log e hlog

end Growing

namespace Lasting

variable {n : Nat} {P Q : Log I ι → Prop}

theorem and (h : Lasting n P) (h' : Lasting n Q) : Lasting n fun log => P log ∧ Q log :=
  fun log e he hlog => ⟨h log e he hlog.1, h' log e he hlog.2⟩

theorem exists_ {P : γ → Log I ι → Prop} (h : ∀ x, Lasting n (P x)) :
    Lasting n fun log => ∃ x, P x log :=
  fun log e he ⟨x, hx⟩ => ⟨x, h x log e he hx⟩

theorem stable {D : Discipline I σ ι} (h : Lasting n P) : D.Stable n fun w => P w.log := by
  intro w w' step hw
  cases step with
  | start other | call other => exact h _ _ other hw

end Lasting

/-! ## Fallible programs -/

namespace Discipline

variable {D : Discipline I σ ι} {n : Nat} {P P' : Log I ι → Prop}
  {q : ExceptT ε (Prog I) α} {Q Q' : Except ε α → Log I ι → Prop}
  {R : Except ε β → Log I ι → Prop}

/-- Whatever the other threads do, the program ends with what is said of its result and the log. -/
def Establishes (D : Discipline I σ ι) (n : Nat) (P : Log I ι → Prop) (q : ExceptT ε (Prog I) α)
    (Q : Except ε α → Log I ι → Prop) : Prop :=
  D.Triple n (fun w => P w.log) q.run fun result w => Q result w.log

theorem Establishes.pure {a : α} (lasting : Lasting n P)
    (h : ∀ w : World I σ ι, D.inv w → P w.log → Q (.ok a) w.log) :
    D.Establishes n P (Pure.pure a) Q :=
  Triple.pure lasting.stable h

variable {f : α → ExceptT ε (Prog I) β}

theorem Establishes.bind (h : D.Establishes n P q Q)
    (lasting : ∀ e, Lasting n (Q (.error e))) (ok : ∀ a, D.Establishes n (Q (.ok a)) (f a) R)
    (fault : ∀ e log, Q (.error e) log → R (.error e) log) : D.Establishes n P (q >>= f) R := by
  refine Triple.bind h fun result => ?_
  cases result with
  | ok a => exact ok a
  | error e => exact Triple.pure (lasting e).stable fun w _ hw => fault e w.log hw

/-- A program that always answers. -/
theorem Establishes.bindOk {Q : α → Log I ι → Prop}
    (h : D.Establishes n P q fun result log => ∃ a, result = .ok a ∧ Q a log)
    (ok : ∀ a, D.Establishes n (Q a) (f a) R) : D.Establishes n P (q >>= f) R := by
  refine Establishes.bind h ?_ ?_ ?_
  · rintro e log entry - ⟨a, ha, -⟩
    cases ha
  · intro a w hinv ⟨b, hb, hw⟩
    cases hb
    exact ok a w hinv hw
  · rintro e log ⟨a, ha, -⟩
    cases ha

/-- A computation without calls, and what is done with its answer. -/
theorem Establishes.check {result : Except ε α}
    (lasting : Lasting n P) (ok : ∀ a, result = .ok a → D.Establishes n P (f a) R)
    (fault : ∀ e, result = .error e → ∀ w : World I σ ι, D.inv w → P w.log → R (.error e) w.log) :
    D.Establishes n P (ExceptT.mk (Pure.pure result) >>= f) R := by
  cases result with
  | ok a => exact ok a rfl
  | error e => exact Triple.pure lasting.stable (fault e rfl)

theorem Establishes.conseq (h : D.Establishes n P q Q) (pre : ∀ log, P' log → P log)
    (post : ∀ result log, Q result log → Q' result log) : D.Establishes n P' q Q' :=
  Triple.conseq h (fun w _ hw => pre w.log hw) fun result w _ hw => post result w.log hw

theorem Establishes.strengthen (h : D.Establishes n P q Q)
    (pre : ∀ log, P' log → P log) : D.Establishes n P' q Q :=
  h.conseq pre fun _ _ hlog => hlog

/-- What no entry takes back is carried along. -/
theorem Establishes.frame (hM : Growing P') (h : D.Establishes n P q Q) :
    D.Establishes n (fun log => P log ∧ P' log) q fun result log => Q result log ∧ P' log :=
  Triple.frame (.of_log hM) h

theorem Establishes.exists {P : γ → Log I ι → Prop} (h : ∀ x, D.Establishes n (P x) q Q) :
    D.Establishes n (fun log => ∃ x, P x log) q Q :=
  fun w hinv ⟨x, hx⟩ => h x w hinv hx

theorem Establishes.assuming {fact : Prop} (h : fact → D.Establishes n P q Q) :
    D.Establishes n (fun log => fact ∧ P log) q Q :=
  fun w hinv hw => h hw.1 w hinv hw.2

/-- A consequence of the precondition that is not about the log. -/
theorem Establishes.given {fact : Prop} (hfact : ∀ log, P log → fact)
    (h : fact → D.Establishes n P q Q) : D.Establishes n P q Q :=
  fun w hinv hw => h (hfact w.log hw) w hinv hw

theorem Establishes.map {f : α → β} (h : D.Establishes n P q Q)
    (lasting : ∀ result, Lasting n (Q result)) (ok : ∀ a log, Q (.ok a) log → R (.ok (f a)) log)
    (fault : ∀ e log, Q (.error e) log → R (.error e) log) : D.Establishes n P (f <$> q) R :=
  Establishes.bind h (fun e => lasting (.error e))
    (fun a => .pure (lasting (.ok a)) fun w _ hw => ok a w.log hw) fault

theorem Establishes.call {c : I.Call} (answer : I.Reply c → Except ε α) (lasting : Lasting n P)
    (step : ∀ w : World I σ ι, D.inv w → P w.log → ∀ reply state,
      D.performs w.state c reply state → D.inv (w.call n c reply state) ∧
        Q (answer reply) (w.log ++ [.called n c reply]))
    (lasting' : ∀ result, Lasting n (Q result)) :
    D.Establishes n P (ExceptT.mk (.call c fun reply => .done (answer reply))) Q :=
  Triple.bind (Triple.ask lasting.stable step fun reply => (lasting' (answer reply)).stable)
    fun reply => Triple.pure (lasting' (answer reply)).stable fun _ _ hw => hw

end Discipline

end Interleaving
