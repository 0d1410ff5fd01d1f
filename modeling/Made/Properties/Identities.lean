import Made.Delivery.Identity
import Made.Library.Separated
import Made.System.Identity

/-!
# Which derived identities can be mistaken

The ceremony of a composition, the key of a destination and the identity of a delivery are texts
joined with separators that their parts may hold themselves.  A text of this kind is read in
another way exactly when a part can be moved across one of its separators.

* `instanceId_confused_iff`, `targetKey_confused_iff`, `deliveryId_confused_iff`: two different
  origins have one identity exactly when they are confusable.
-/

namespace Made

open Separated HostDeliveryTarget

variable {item : HostDeliveryItem}

/-! ## Joined texts that are validated -/

/-- A joined text keeps its ends, so that validating it trims nothing. -/
theorem new_join_eq_ok_iff {rule : TextRule} {t : Text rule} {a b : String} (m : String)
    (ha : isTrimmed a = true) (hane : a ≠ "") (hb : isTrimmed b = true) (hbne : b ≠ "") :
    Text.new rule (a ++ m ++ b) = .ok t ↔ t.val = a ++ m ++ b := by
  rw [Text.new_eq_ok_iff, trim_of_isTrimmed _ (isTrimmed_append m ha hane hb hbne)]

theorem isTrimmed_nat (n : Nat) : isTrimmed (toString n) = true := by
  have hdigit : ∀ c : Char, c.isDigit = true → isWhitespace c = false := by
    intro c h
    simp only [Char.isDigit, Bool.and_eq_true, decide_eq_true_eq] at h
    have hlow : 48 ≤ c.toNat := h.1
    have hhigh : c.toNat ≤ 57 := h.2
    simp only [isWhitespace, Bool.or_eq_false_iff, Bool.and_eq_false_iff,
      decide_eq_false_iff_not, beq_eq_false_iff_ne]
    omega
  have hends : ∀ o : Option Char, (∀ c, o = some c → c ∈ (toString n).toList) →
      o.all (fun c => !isWhitespace c) = true := by
    intro o ho
    cases o with
    | none => rfl
    | some c => simp [hdigit c (isDigit_of_mem_repr (ho c rfl))]
  rw [isTrimmed, Bool.and_eq_true]
  exact ⟨hends _ fun c hc => List.mem_of_head? hc, hends _ fun c hc => List.mem_of_getLast? hc⟩

/-! ## Launched ceremonies -/

variable (execution : AgenticSystemExecutionId)
variable (ceremony : SystemCeremonyId)

/-- A part of the composition's name can be read as the end of the run's, or the other way. -/
def LaunchConfusable
    (round : LoopRound) (execution' : AgenticSystemExecutionId) (ceremony' : SystemCeremonyId)
    (round' : LoopRound) : Prop :=
  round = round' ∧ (Shifted '-' execution.val ceremony.val execution'.val ceremony'.val ∨
      Shifted '-' execution'.val ceremony'.val execution.val ceremony.val)

theorem instanceId_eq_ok_iff {execution : AgenticSystemExecutionId} {ceremony : SystemCeremonyId}
    {round : LoopRound} {id : CeremonyId} :
    instanceId execution ceremony round = .ok id ↔
      id.val = execution.val ++ "-" ++ ceremony.val ++ "-" ++ toString round.val := by
  have h := new_join_eq_ok_iff (t := id) ("-" ++ ceremony.val ++ "-") execution.isTrimmed_val
    execution.val_ne_empty (isTrimmed_nat round.val) Nat.repr_ne_empty
  simp only [← String.append_assoc] at h
  exact h

theorem instanceId_confused_iff (round : LoopRound) (execution' : AgenticSystemExecutionId)
    (ceremony' : SystemCeremonyId) (round' : LoopRound) :
    (∀ id, instanceId execution ceremony round = .ok id →
        instanceId execution' ceremony' round' = .ok id →
        execution = execution' ∧ ceremony = ceremony' ∧ round = round') ↔
      ¬ (LaunchConfusable execution ceremony round execution' ceremony' round' ∧
        ∃ id, instanceId execution ceremony round = .ok id) := by
  have htext : "-" = String.singleton '-' := rfl
  constructor
  · rintro hinj ⟨⟨rfl, hshift⟩, id, hid⟩
    have hval := instanceId_eq_ok_iff.mp hid
    have hjoin : execution.val ++ "-" ++ ceremony.val = execution'.val ++ "-" ++ ceremony'.val :=
      htext ▸ join_eq_iff.mpr (.inr hshift)
    rw [hjoin] at hval
    have hsame := hinj id hid (instanceId_eq_ok_iff.mpr hval)
    rcases hshift with h | h
    · exact h.ne (congrArg Text.val hsame.1)
    · exact h.ne (congrArg Text.val hsame.1.symm)
  · intro hclear id hid hid'
    have hval := (instanceId_eq_ok_iff.mp hid).symm.trans (instanceId_eq_ok_iff.mp hid')
    -- A round holds no hyphen, so the last hyphen is the one in front of it.
    obtain ⟨hjoin, hround⟩ :=
      splitEnd (c := '-') rfl (hyphen_notMem_nat _) (hyphen_notMem_nat _) hval
    have hround : round = round' := LoopRound.ext (Nat.repr_inj.mp hround)
    rcases join_eq_iff.mp (htext ▸ hjoin) with ⟨hexec, hcer⟩ | hshift
    · exact ⟨Text.ext hexec, Text.ext hcer, hround⟩
    · exact absurd ⟨⟨hround, hshift⟩, id, hid⟩ hclear

/-! ## Destinations -/

/-- A part of the incarnation can be read as the end of the agent's name, or the other way. -/
def HostDeliveryTarget.Confusable : HostDeliveryTarget → HostDeliveryTarget → Prop
  | agentExecution id incarnation, agentExecution id' incarnation' =>
    Shifted ':' id.val incarnation.val id'.val incarnation'.val ∨
      Shifted ':' id'.val incarnation'.val id.val incarnation.val
  | _, _ => False

theorem HostDeliveryTarget.Confusable.ne {s t : HostDeliveryTarget} (h : s.Confusable t) :
    s ≠ t := by
  rintro rfl
  cases s with
  | agentExecution id incarnation =>
    rcases h with h | h
    · exact h.ne rfl
    · exact h.ne rfl
  | role roleId | integratorBinding bindingId => exact h

/-- The character a key starts with tells the three shapes apart. -/
def HostDeliveryTarget.tag : HostDeliveryTarget → Char
  | agentExecution _ _ => 'a'
  | role _ => 'r'
  | integratorBinding _ => 'b'

theorem head?_targetKey (t : HostDeliveryTarget) : t.targetKey.val.toList.head? = some t.tag := by
  cases t <;> simp [targetKey, tag]

theorem HostDeliveryTarget.Confusable.tag_eq {s t : HostDeliveryTarget} (h : s.Confusable t) :
    s.tag = t.tag := by
  cases s <;> cases t <;> first | rfl | exact h.elim

theorem targetKey_eq_iff_of_tag_ne {s t : HostDeliveryTarget} (h : s.tag ≠ t.tag) :
    s.targetKey = t.targetKey ↔ s = t ∨ s.Confusable t := by
  constructor
  · intro hkey
    refine absurd (Option.some.inj ?_) h
    rw [← head?_targetKey, ← head?_targetKey, hkey]
  · rintro (rfl | hconfusable)
    · rfl
    · exact absurd hconfusable.tag_eq h

theorem targetKey_eq_iff (s t : HostDeliveryTarget) :
    s.targetKey = t.targetKey ↔ s = t ∨ s.Confusable t := by
  by_cases htag : s.tag = t.tag
  · cases s with
    | agentExecution id incarnation =>
      cases t with
      | agentExecution id' incarnation' =>
        have htext : ":" = String.singleton ':' := rfl
        simp only [targetKey, HostDeliveryTargetKey.mk.injEq,
          String.append_assoc, String.append_right_inj]
        simp only [← String.append_assoc]
        rw [htext, join_eq_iff, agentExecution.injEq, Text.ext_iff, Text.ext_iff]
        rfl
      | role roleId | integratorBinding bindingId => simp [tag] at htag
    | role roleId =>
      cases t with
      | role roleId' =>
        simp [targetKey, HostDeliveryTarget.Confusable, Text.ext_iff, String.append_right_inj]
      | agentExecution id incarnation | integratorBinding bindingId =>
        simp [tag] at htag
    | integratorBinding bindingId =>
      cases t with
      | integratorBinding bindingId' =>
        simp [targetKey, HostDeliveryTarget.Confusable, Text.ext_iff, String.append_right_inj]
      | agentExecution id incarnation | role roleId => simp [tag] at htag
  · exact targetKey_eq_iff_of_tag_ne htag

/-- A key starts with its tag and ends as the identifier it names last. -/
theorem isTrimmed_targetKey (t : HostDeliveryTarget) :
    isTrimmed t.targetKey.val = true ∧ t.targetKey.val ≠ "" := by
  have hne : t.targetKey.val ≠ "" := by
    intro hempty
    have hhead := head?_targetKey t
    rw [hempty] at hhead
    cases hhead
  refine ⟨?_, hne⟩
  cases t with
  | agentExecution id incarnation =>
    have h := isTrimmed_append (a := "agent:") (id.val ++ ":") (by decide) (by decide)
      incarnation.isTrimmed_val incarnation.val_ne_empty
    rw [← String.append_assoc] at h
    exact h
  | role roleId =>
    have h := isTrimmed_append (a := "role:") "" (by decide) (by decide)
      roleId.isTrimmed_val roleId.val_ne_empty
    rwa [String.append_empty] at h
  | integratorBinding bindingId =>
    have h := isTrimmed_append (a := "binding:") "" (by decide) (by decide)
      bindingId.isTrimmed_val bindingId.val_ne_empty
    rwa [String.append_empty] at h

/-! ## Deliveries -/

/-- What the identity of a delivery says after the ceremony. -/
def deliveryTail (item : HostDeliveryItem) (target : HostDeliveryTarget) : String :=
  item.kind.asStr ++ ":" ++ (item.itemId ++ ":" ++ target.targetKey.val)

/-- The ceremony, the item or the agent of a delivery can be read longer or shorter. -/
def DeliveryConfusable (item : HostDeliveryItem) (target : HostDeliveryTarget)
    (item' : HostDeliveryItem) (target' : HostDeliveryTarget) : Prop :=
  Shifted ':' item.ceremonyId.val (deliveryTail item target) item'.ceremonyId.val
      (deliveryTail item' target') ∨
    Shifted ':' item'.ceremonyId.val (deliveryTail item' target') item.ceremonyId.val
      (deliveryTail item target) ∨
    (item.ceremonyId = item'.ceremonyId ∧ item.kind = item'.kind ∧
      (Shifted ':' item.itemId target.targetKey.val item'.itemId target'.targetKey.val ∨
        Shifted ':' item'.itemId target'.targetKey.val item.itemId target.targetKey.val ∨
        (item.itemId = item'.itemId ∧ target.Confusable target')))

variable {target : HostDeliveryTarget}

theorem deliveryId_eq_ok_iff {id : HostDeliveryId} :
    item.deliveryId target = .ok id ↔
      id.val = item.ceremonyId.val ++ ":" ++ deliveryTail item target := by
  have h := new_join_eq_ok_iff (t := id) (":" ++ item.kind.asStr ++ ":" ++ item.itemId ++ ":")
    item.ceremonyId.isTrimmed_val item.ceremonyId.val_ne_empty (isTrimmed_targetKey target).1
    (isTrimmed_targetKey target).2
  simp only [deliveryTail, ← String.append_assoc] at h ⊢
  exact h

theorem colon_notMem_kind (kind : HostDeliveryItemKind) : ':' ∉ kind.asStr.toList := by
  cases kind <;> decide

theorem asStr_kind_inj {kind kind' : HostDeliveryItemKind} (h : kind.asStr = kind'.asStr) :
    kind = kind' := by
  cases kind <;> cases kind' <;> first | rfl | exact absurd h (by decide)

theorem deliveryTail_eq_iff {item' : HostDeliveryItem} {target' : HostDeliveryTarget} :
    deliveryTail item target = deliveryTail item' target' ↔
      item.kind = item'.kind ∧ ((item.itemId = item'.itemId ∧ target.targetKey = target'.targetKey)
        ∨ Shifted ':' item.itemId target.targetKey.val item'.itemId target'.targetKey.val
        ∨ Shifted ':' item'.itemId target'.targetKey.val item.itemId target.targetKey.val) := by
  have hkey : target.targetKey = target'.targetKey ↔
      target.targetKey.val = target'.targetKey.val := by
    rw [← HostDeliveryTargetKey.mk.injEq]
  rw [hkey, ← join_eq_iff]
  constructor
  · intro h
    obtain ⟨hkind, hrest⟩ := split (c := ':') rfl (colon_notMem_kind _) (colon_notMem_kind _) h
    exact ⟨asStr_kind_inj hkind, hrest⟩
  · rintro ⟨hkind, hrest⟩
    rw [deliveryTail, deliveryTail, hkind]
    exact congrArg _ hrest

theorem deliveryText_eq_iff (item item' : HostDeliveryItem) (target target' : HostDeliveryTarget) :
    item.ceremonyId.val ++ ":" ++ deliveryTail item target =
        item'.ceremonyId.val ++ ":" ++ deliveryTail item' target' ↔
      (item = item' ∧ target = target') ∨ DeliveryConfusable item target item' target' := by
  have htext : ":" = String.singleton ':' := rfl
  rw [htext, join_eq_iff, deliveryTail_eq_iff, targetKey_eq_iff]
  constructor
  · rintro (⟨hcer, hkind, ⟨hitem, rfl | hconfusable⟩ | hshift | hshift⟩ | hshift | hshift)
    · exact .inl ⟨HostDeliveryItem.ext (Text.ext hcer) hkind hitem, rfl⟩
    · exact .inr (.inr (.inr ⟨Text.ext hcer, hkind, .inr (.inr ⟨hitem, hconfusable⟩)⟩))
    · exact .inr (.inr (.inr ⟨Text.ext hcer, hkind, .inl hshift⟩))
    · exact .inr (.inr (.inr ⟨Text.ext hcer, hkind, .inr (.inl hshift)⟩))
    · exact .inr (.inl hshift)
    · exact .inr (.inr (.inl hshift))
  · rintro (⟨rfl, rfl⟩ | hshift | hshift | ⟨hcer, hkind, hshift | hshift | ⟨hitem, h⟩⟩)
    · exact .inl ⟨rfl, rfl, .inl ⟨rfl, .inl rfl⟩⟩
    · exact .inr (.inl hshift)
    · exact .inr (.inr hshift)
    · exact .inl ⟨congrArg _ hcer, hkind, .inr (.inl hshift)⟩
    · exact .inl ⟨congrArg _ hcer, hkind, .inr (.inr hshift)⟩
    · exact .inl ⟨congrArg _ hcer, hkind, .inl ⟨hitem, .inr h⟩⟩

theorem DeliveryConfusable.ne {item' : HostDeliveryItem} {target' : HostDeliveryTarget}
    (h : DeliveryConfusable item target item' target') : ¬ (item = item' ∧ target = target') := by
  rintro ⟨rfl, rfl⟩
  rcases h with h | h | ⟨-, -, h | h | ⟨-, h⟩⟩
  · exact h.ne rfl
  · exact h.ne rfl
  · exact h.ne rfl
  · exact h.ne rfl
  · exact h.ne rfl

theorem deliveryId_confused_iff (item : HostDeliveryItem) (target : HostDeliveryTarget)
    (item' : HostDeliveryItem) (target' : HostDeliveryTarget) :
    (∀ id, item.deliveryId target = .ok id → item'.deliveryId target' = .ok id →
        item = item' ∧ target = target') ↔
      ¬ (DeliveryConfusable item target item' target' ∧ ∃ id, item.deliveryId target = .ok id) := by
  constructor
  · rintro hinj ⟨hconfusable, id, hid⟩
    have htext := (deliveryText_eq_iff item item' target target').mpr (.inr hconfusable)
    refine hconfusable.ne (hinj id hid (deliveryId_eq_ok_iff.mpr ?_))
    rw [← htext]
    exact deliveryId_eq_ok_iff.mp hid
  · intro hclear id hid hid'
    have htext := (deliveryId_eq_ok_iff.mp hid).symm.trans (deliveryId_eq_ok_iff.mp hid')
    rcases (deliveryText_eq_iff item item' target target').mp htext with hsame | hconfusable
    · exact hsame
    · exact absurd ⟨hconfusable, id, hid⟩ hclear

/-! ## All three -/

/-- An identity has one origin exactly when no part of it can be moved across a separator. -/
theorem derived_identities_injective_iff (execution : AgenticSystemExecutionId)
    (ceremony : SystemCeremonyId) (round : LoopRound) (execution' : AgenticSystemExecutionId)
    (ceremony' : SystemCeremonyId) (round' : LoopRound) (item : HostDeliveryItem)
    (target : HostDeliveryTarget) (item' : HostDeliveryItem) (target' : HostDeliveryTarget) :
    ((∀ id, instanceId execution ceremony round = .ok id →
          instanceId execution' ceremony' round' = .ok id →
          execution = execution' ∧ ceremony = ceremony' ∧ round = round') ↔
        ¬ (LaunchConfusable execution ceremony round execution' ceremony' round' ∧
          ∃ id, instanceId execution ceremony round = .ok id)) ∧
    ((target.targetKey = target'.targetKey → target = target') ↔ ¬ target.Confusable target') ∧
    ((∀ id, item.deliveryId target = .ok id → item'.deliveryId target' = .ok id →
          item = item' ∧ target = target') ↔
        ¬ (DeliveryConfusable item target item' target' ∧
          ∃ id, item.deliveryId target = .ok id)) := by
  refine ⟨instanceId_confused_iff execution ceremony round execution' ceremony' round', ?_,
    deliveryId_confused_iff item target item' target'⟩
  rw [targetKey_eq_iff]
  constructor
  · intro h hconfusable
    exact hconfusable.ne (h (.inr hconfusable))
  · rintro h (hsame | hconfusable)
    · exact hsame
    · exact absurd hconfusable h

/-- Run `a-b` with composition `c` and run `a` with composition `b-c` launch one ceremony; agent
`x:y` in generation `z` and agent `x` in generation `y:z` are one destination, and so one delivery;
so are question `i` for role `p:role:q` and question `i:role:p` for role `q`. -/
theorem separators_confuse_identities :
    (∃ execution ceremony execution' ceremony' round id, execution ≠ execution' ∧
      instanceId execution ceremony round = .ok id ∧
      instanceId execution' ceremony' round = .ok id) ∧
    (∃ s t : HostDeliveryTarget, s ≠ t ∧ s.targetKey = t.targetKey) ∧
    ∃ item target item' target' id, item ≠ item' ∧
      HostDeliveryItem.deliveryId item target = .ok id ∧
      HostDeliveryItem.deliveryId item' target' = .ok id := by
  refine ⟨⟨⟨"a-b", by decide⟩, ⟨"c", by decide⟩, ⟨"a", by decide⟩, ⟨"b-c", by decide⟩,
      ⟨0, by decide⟩, ⟨"a-b-c-0", by decide⟩, by decide, by decide, by decide⟩, ?_, ?_⟩
  · exact ⟨.agentExecution ⟨"x:y", by decide⟩ ⟨"z", by decide⟩,
      .agentExecution ⟨"x", by decide⟩ ⟨"y:z", by decide⟩, by decide, by decide⟩
  · exact ⟨.intervention ⟨"s", by decide⟩ ⟨"i", by decide⟩, .role ⟨"p:role:q", by decide⟩,
      .intervention ⟨"s", by decide⟩ ⟨"i:role:p", by decide⟩, .role ⟨"q", by decide⟩,
      ⟨"s:intervention:i:role:p:role:q", by decide⟩, by decide, by decide, by decide⟩

end Made
