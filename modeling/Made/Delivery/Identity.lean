import Made.Values.Text

/-!
# What is delivered where

A delivery brings one item of a ceremony to one destination.  Both are spelled out in the identity
the ledger deduplicates on, so the same item offered twice to the same destination is one delivery.
-/

namespace Made

/-- Control characters other than line breaks and tabs are refused. -/
abbrev IntegratorBindingId := Text
  ⟨"integrator_binding_id", 256, fun c => !isControl c || c == '\n' || c == '\t'⟩
abbrev AttentionEventId := Text (plainRule "attention_event_id" 512)

structure HostDeliveryTargetKey where
  val : String
deriving DecidableEq

inductive HostDeliveryTarget where
  | agentExecution (agentExecutionId : CeremonyAgentExecutionId)
      (incarnation : HostAgentIncarnation)
  | role (roleId : RoleId)
  | integratorBinding (bindingId : IntegratorBindingId)
deriving DecidableEq

namespace HostDeliveryTarget

def targetKey : HostDeliveryTarget → HostDeliveryTargetKey
  | agentExecution agentExecutionId incarnation =>
    ⟨"agent:" ++ agentExecutionId.val ++ ":" ++ incarnation.val⟩
  | role roleId => ⟨"role:" ++ roleId.val⟩
  | integratorBinding bindingId => ⟨"binding:" ++ bindingId.val⟩

end HostDeliveryTarget

inductive HostDeliveryItemKind where
  | intervention
  | attention
deriving DecidableEq

def HostDeliveryItemKind.asStr : HostDeliveryItemKind → String
  | intervention => "intervention"
  | attention => "attention"

inductive HostDeliveryItem where
  | intervention (ceremonyId : CeremonyId) (interventionId : CeremonyInterventionId)
  | attention (ceremonyId : CeremonyId) (attentionId : AttentionEventId)
deriving DecidableEq

namespace HostDeliveryItem

def ceremonyId : HostDeliveryItem → CeremonyId
  | intervention ceremonyId _ | attention ceremonyId _ => ceremonyId

def kind : HostDeliveryItem → HostDeliveryItemKind
  | intervention _ _ => .intervention
  | attention _ _ => .attention

def itemId : HostDeliveryItem → String
  | intervention _ interventionId => interventionId.val
  | attention _ attentionId => attentionId.val

theorem ext {a b : HostDeliveryItem} (hcer : a.ceremonyId = b.ceremonyId)
    (hkind : a.kind = b.kind) (hitem : a.itemId = b.itemId) : a = b := by
  cases a <;> cases b <;> simp_all [ceremonyId, kind, itemId, Text.ext_iff]

end HostDeliveryItem

def HostDeliveryId.derive (ceremonyId : CeremonyId) (itemKind : HostDeliveryItemKind)
    (itemId : String) (targetKey : HostDeliveryTargetKey) : Result HostDeliveryId :=
  Text.new _ (ceremonyId.val ++ ":" ++ itemKind.asStr ++ ":" ++ itemId ++ ":" ++ targetKey.val)

def HostDeliveryItem.deliveryId (item : HostDeliveryItem) (target : HostDeliveryTarget) :
    Result HostDeliveryId :=
  HostDeliveryId.derive item.ceremonyId item.kind item.itemId target.targetKey

end Made
