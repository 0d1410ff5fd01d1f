import Made.Library.Framing
import Made.Values.Text

/-!
# Digests as identities

Several identities of the domain are SHA-256 digests of framed messages: claim fences, child
groups, execution operations.  They are 64 lowercase hexadecimal digits by construction, whether
they were computed here or read from a caller.
-/

namespace Made

def isHexDigest (s : String) : Bool :=
  s.toList.length == 64 && s.toList.all Sha256.isHexDigit

/-- A rendered digest; `field` tells the digests of different things apart. -/
structure HexDigest (field : String) where
  val : String
  valid : isHexDigest val = true
deriving DecidableEq

namespace HexDigest

variable {field : String}

@[ext] theorem ext {a b : HexDigest field} (h : a.val = b.val) : a = b := by
  cases a
  cases b
  simp_all

instance : Ord (HexDigest field) := ⟨compareOn fun d => d.val⟩

instance : Std.TransOrd (HexDigest field) :=
  inferInstanceAs (Std.TransCmp (compareOn fun d : HexDigest field => d.val))

instance : Std.LawfulEqOrd (HexDigest field) where
  eq_of_compare {_ _} h := ext (Std.LawfulEqOrd.eq_of_compare h)

def new (field : String) (value : String) : Result (HexDigest field) :=
  if h : isHexDigest value = true then
    .ok ⟨value, h⟩
  else
    Outcome.refuse (.invalidCharacters field)

def ofMessage (field : String) (message : List UInt8) : HexDigest field :=
  ⟨Sha256.hexDigest message, by
    simp only [isHexDigest, Sha256.hexDigest, String.toList_ofList, Sha256.hexChars_length,
      BEq.rfl, Bool.true_and, List.all_eq_true]
    exact Sha256.hexChars_isHexDigit message⟩

/-- The digest of a tag and framed texts, as every derived identity computes it. -/
def ofTexts (field tag : String) (parts : List String) : HexDigest field :=
  ofMessage field (Framing.taggedTexts tag parts)

end HexDigest

abbrev StepClaimFence := HexDigest "claim_fence"
abbrev ChildGroupId := HexDigest "child_group_id"
abbrev ExecutionOperationId := HexDigest "execution_operation_id"
abbrev ExecutionReceiptId := HexDigest "execution_receipt_id"
abbrev ExecutionRequestDigest := HexDigest "execution_request_digest"

structure RawDigest (kind : String) where
  bytes : List UInt8
  length_eq : bytes.length = 32
deriving DecidableEq

def RawDigest.ofMessage (kind : String) (message : List UInt8) : RawDigest kind :=
  ⟨Sha256.digestBytes message, Sha256.digestBytes_length message⟩

abbrev AuditRecordHash := RawDigest "audit_record_hash"
abbrev CeremonyDefinitionDigest := RawDigest "ceremony_definition_digest"

end Made
