import Made.Delivery.Bindings
import Made.Library.Mealy

/-!
# Fences of one scope

Only the last binding of a scope can be live.  A replacement gets a higher fence than what it
replaces; a binding that follows a revocation starts at the opening fence again.
-/

namespace Made

open Mealy List

namespace StoredIntegratorBinding

variable {stored front : StoredIntegratorBinding} {last offered : IntegratorBinding}

/-- The bindings before the last one have ended. -/
def Settled (stored : StoredIntegratorBinding) : Prop :=
  ∀ binding ∈ stored.dropLast, binding.isLive = false

def Rising (stored : StoredIntegratorBinding) : Prop :=
  stored.Pairwise fun earlier later => earlier.fence < later.fence

instance (stored : StoredIntegratorBinding) : Decidable stored.Rising :=
  inferInstanceAs (Decidable (List.Pairwise _ _))

theorem settled_concat : Settled (front ++ [last]) ↔ ∀ binding ∈ front, binding.isLive = false := by
  rw [Settled, dropLast_concat]

theorem Settled.live_le_one (h : stored.Settled) : stored.countP (·.isLive) ≤ 1 := by
  rcases eq_nil_or_concat stored with rfl | ⟨front, last, rfl⟩
  · exact Nat.zero_le 1
  · rw [concat_eq_append, settled_concat] at h
    have hnone : front.countP (·.isLive) = 0 :=
      countP_eq_zero.mpr fun binding hbinding => by simp [h binding hbinding]
    rw [concat_eq_append, countP_append, hnone, Nat.zero_add]
    exact countP_le_length

theorem Settled.current_eq (h : Settled (front ++ [last])) :
    current (front ++ [last]) = if last.isLive then some last else none := by
  rw [settled_concat] at h
  rw [current, reverse_append, reverse_singleton, singleton_append, find?_cons]
  cases last.isLive with
  | true => rfl
  | false =>
    refine find?_eq_none.mpr fun binding hbinding => ?_
    simp [h binding (mem_reverse.mp hbinding)]

theorem Settled.amend_eq (h : Settled (front ++ [last])) (id : IntegratorBindingId)
    (f : IntegratorBinding → IntegratorBinding) :
    (amend id f (front ++ [last])).2 = front ++ [if isLiveAs id last then f last else last] := by
  rw [settled_concat] at h
  induction front with
  | nil =>
    simp only [nil_append, amend]
    split <;> rfl
  | cons binding front ih =>
    obtain ⟨hbinding, hfront⟩ := forall_mem_cons.mp h
    simp only [cons_append, amend, isLiveAs, hbinding, Bool.and_false, Bool.false_eq_true, if_false]
    exact congrArg (binding :: ·) (ih hfront)

theorem Settled.retire_eq (h : Settled (front ++ [last])) (hlive : last.isLive = true)
    (at_ : OffsetDateTime) : retire (front ++ [last]) last.id at_ =
      front ++ [last.revoked at_] := by
  rw [settled_concat] at h
  have hfront : front.map (fun binding =>
      if isLiveAs last.id binding then binding.revoked at_ else binding) = front :=
    (map_congr_left fun binding hbinding => by simp [isLiveAs, h binding hbinding]).trans
      (map_id front)
  rw [retire, map_append, map_singleton, hfront]
  simp [isLiveAs, hlive]

theorem rising_concat {binding : IntegratorBinding} (h : Rising (front ++ [last])) :
    Rising (front ++ [last] ++ [binding]) ↔ last.fence < binding.fence := by
  rw [Rising, pairwise_append] at h
  rw [Rising, pairwise_append, pairwise_append]
  simp only [mem_append, mem_singleton] at h ⊢
  constructor
  · rintro ⟨-, -, hbinding⟩
    exact hbinding last (.inr rfl) binding rfl
  · intro hlt
    refine ⟨h, pairwise_singleton _ _, ?_⟩
    rintro earlier (hearlier | rfl) _ rfl
    · exact (h.2.2 earlier hearlier last rfl).trans hlt
    · exact hlt

theorem rising_congr {binding : IntegratorBinding} (h : binding.fence = last.fence) :
    Rising (front ++ [binding]) ↔ Rising (front ++ [last]) := by
  simp [Rising, pairwise_append, h]

/-- When a call lets the fences rise: an offer is not made to a scope whose bindings have all been
revoked, and the fence of a binding that it replaces has not come to the end of its numbers. -/
def KeepsRising (stored : StoredIntegratorBinding) : BindingCall → Prop
  | .bind id incarnation _ replacement =>
    match stored.current with
    | none => stored = []
    | some incumbent => (incumbent.id = id ∧ incumbent.incarnation = incarnation) ∨
        replacement = .keep ∨ incumbent.fence < u64Max
  | _ => True

theorem Settled.bind (h : stored.Settled) (id : IntegratorBindingId)
    (incarnation : HostAgentIncarnation) (boundAt : OffsetDateTime)
    (replacement : BindReplacement) :
    Settled (stored.bind (.new id incarnation boundAt) replacement).2 ∧ (stored.Rising →
      (Rising (stored.bind (.new id incarnation boundAt) replacement).2 ↔
        stored.KeepsRising (.bind id incarnation boundAt replacement))) := by
  rw [KeepsRising]
  rcases eq_nil_or_concat stored with rfl | ⟨front, last, rfl⟩
  · exact ⟨by simp [StoredIntegratorBinding.bind, current, Settled], fun _ => by
      simp [StoredIntegratorBinding.bind, current, Rising]⟩
  rw [concat_eq_append] at h ⊢
  rw [StoredIntegratorBinding.bind, h.current_eq]
  cases hlive : last.isLive with
  | false =>
    refine ⟨settled_concat.mpr fun binding hbinding => ?_, fun hrising => iff_of_false ?_ ?_⟩
    · rcases mem_append.mp hbinding with hfront | hlast
      · exact settled_concat.mp h binding hfront
      · rw [mem_singleton.mp hlast, hlive]
    · -- The fence of the offer is the opening one, which is above none.
      exact fun hrises => Nat.not_lt_zero _ ((rising_concat hrising).mp hrises)
    · exact append_ne_nil_of_right_ne_nil _ (cons_ne_nil _ _)
  | true =>
    simp only [if_true]
    split
    · next hsame => exact ⟨h, fun hrising => iff_of_true hrising (.inl hsame)⟩
    · next hother =>
      split
      · next hkeep => exact ⟨h, fun hrising => iff_of_true hrising (.inr (.inl hkeep))⟩
      · next hreplaces =>
        dsimp only
        rw [h.retire_eq hlive, settled_concat]
        refine ⟨fun binding hbinding => ?_, fun hrising => ?_⟩
        · rcases mem_append.mp hbinding with hfront | hlast
          · exact settled_concat.mp h binding hfront
          · rw [mem_singleton.mp hlast]
            rfl
        · have hfence : (last.revoked boundAt).fence = last.fence := rfl
          have hrevoked := (rising_congr hfence).mpr hrising
          refine (rising_concat hrevoked).trans ?_
          refine Iff.trans ?_ ((or_iff_right hother).trans (or_iff_right hreplaces)).symm
          simp [IntegratorBinding.replacing, IntegratorFence.next, IntegratorBinding.revoked]

theorem Settled.step (h : stored.Settled) (call : BindingCall) :
    Settled (stored.answer call).2 ∧
      (stored.Rising → (Rising (stored.answer call).2 ↔ stored.KeepsRising call)) := by
  have hamend : ∀ (id : IntegratorBindingId) (f : IntegratorBinding → IntegratorBinding),
      (∀ binding, (f binding).fence = binding.fence) →
      Settled (amend id f stored).2 ∧ (stored.Rising → (Rising (amend id f stored).2 ↔ True)) := by
    intro id f hf
    rcases eq_nil_or_concat stored with rfl | ⟨front, last, rfl⟩
    · exact ⟨h, fun hrising => iff_true_intro hrising⟩
    rw [concat_eq_append] at h ⊢
    rw [h.amend_eq, settled_concat]
    refine ⟨settled_concat.mp h, fun hrising => iff_true_intro ((rising_congr ?_).mpr hrising)⟩
    split
    · exact hf last
    · rfl
  cases call with
  | bind id incarnation boundAt replacement => exact h.bind id incarnation boundAt replacement
  | revoke id now => exact hamend id (·.revoked now) fun _ => rfl
  | observing id progress => exact hamend id (·.observing progress) fun _ => rfl

theorem Settled.run (h : stored.Settled) (calls : List BindingCall) :
    Settled (replies answer stored calls).2 ∧ (stored.Rising →
      (Along answer (fun stored call => Rising (stored.answer call).2) stored calls ↔
        Along answer KeepsRising stored calls) ∧
      (Along answer KeepsRising stored calls → Rising (replies answer stored calls).2)) := by
  induction calls generalizing stored with
  | nil => exact ⟨h, fun hrising => ⟨Iff.rfl, fun _ => hrising⟩⟩
  | cons call calls ih =>
    obtain ⟨hset, hrises⟩ := h.step call
    obtain ⟨hrest, hcalls⟩ := ih hset
    refine ⟨hrest, fun hrising => ⟨?_, fun halong => ?_⟩⟩
    · rw [Along, Along]
      constructor
      · rintro ⟨hnext, halong⟩
        exact ⟨(hrises hrising).mp hnext, (hcalls hnext).1.mp halong⟩
      · rintro ⟨hkeeps, halong⟩
        have hnext := (hrises hrising).mpr hkeeps
        exact ⟨hnext, (hcalls hnext).1.mpr halong⟩
    · exact (hcalls ((hrises hrising).mpr halong.1)).2 halong.2

end StoredIntegratorBinding

open StoredIntegratorBinding

/-- At most one binding of a scope is live, whatever is called.  The fences of a scope rise with
every call exactly where no offer is taken after all earlier bindings were revoked and no fence has come
to the end of its numbers; then a generation that was bound before is admitted by no later
binding. -/
theorem fences_rise_iff_never_rebound (calls : List BindingCall) :
    (replies answer [] calls).2.countP (·.isLive) ≤ 1 ∧
      (Along answer (fun stored call => Rising (stored.answer call).2) [] calls ↔
        Along answer KeepsRising [] calls) ∧
      (Along answer KeepsRising [] calls →
        (replies answer [] calls).2.Pairwise fun earlier later => earlier.fence < later.fence ∧
          ∀ incarnation, later.admits incarnation earlier.fence = false) := by
  have hnil : Settled [] := fun binding hbinding => nomatch hbinding
  obtain ⟨hset, hrises⟩ := Settled.run hnil calls
  obtain ⟨hiff, hrising⟩ := hrises .nil
  refine ⟨hset.live_le_one, hiff, fun halong => (hrising halong).imp fun hlt => ⟨hlt, ?_⟩⟩
  intro incarnation
  simp [IntegratorBinding.admits, Nat.ne_of_gt hlt]

namespace StoredIntegratorBinding

/-- A host binds, is revoked and another one binds. -/
def rebound : List BindingCall :=
  [.bind ⟨"desk", by decide⟩ ⟨"first", by decide⟩ ⟨0, by decide⟩ .keep,
    .revoke ⟨"desk", by decide⟩ ⟨1, by decide⟩,
    .bind ⟨"desk", by decide⟩ ⟨"first", by decide⟩ ⟨2, by decide⟩ .keep]

end StoredIntegratorBinding

/-- After a revocation the scope is at its opening fence again, and admits what was revoked. -/
theorem revoked_generation_is_admitted :
    ((replies answer [] (rebound.take 1)).2.map (·.fence)) = [0] ∧
      ((replies answer [] rebound).2.map fun binding => (binding.fence, binding.isLive)) =
        [(0, false), (0, true)] ∧
      (replies answer [] rebound).2.current.map (·.admits ⟨"first", by decide⟩ 0) = some true ∧
      ¬ Rising (replies answer [] rebound).2 := by
  decide +kernel

end Made
