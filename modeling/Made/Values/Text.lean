import Made.Values.Error
import Mathlib.Data.String.Basic
import Std.Data.ExtTreeMap

/-!
# Validated texts and identifiers

Every identifier of the domain is a text that was trimmed, checked against a rule and then wrapped
in a type of its own.  The rules differ in the field they name, the length they allow and the
characters they admit, and in nothing else, so `TextRule` states the rule and `Text rule` is the
type of the texts that pass it.
-/

namespace Made

/-! ## Characters -/

/-- The characters Rust's `str::trim` removes: the Unicode property `White_Space`. -/
def isWhitespace (c : Char) : Bool :=
  let n := c.toNat
  (9 ≤ n && n ≤ 13) || n == 0x20 || n == 0x85 || n == 0xA0 || n == 0x1680 ||
    (0x2000 ≤ n && n ≤ 0x200A) || n == 0x2028 || n == 0x2029 || n == 0x202F || n == 0x205F ||
    n == 0x3000

/-- Rust's `char::is_control`: the general category `Cc`. -/
def isControl (c : Char) : Bool :=
  let n := c.toNat
  n ≤ 0x1F || (0x7F ≤ n && n ≤ 0x9F)

def isAsciiLowercase (c : Char) : Bool := 'a' ≤ c && c ≤ 'z'

def isAsciiDigit (c : Char) : Bool := '0' ≤ c && c ≤ '9'

def isAsciiAlphanumeric (c : Char) : Bool :=
  isAsciiLowercase c || isAsciiDigit c || ('A' ≤ c && c ≤ 'Z')

/-! ## Trimming -/

variable (l : List Char)

def trimStart : List Char := l.dropWhile isWhitespace

def trimEnd : List Char := (trimStart l.reverse).reverse

def trim (s : String) : String := String.ofList (trimEnd (trimStart s.toList))

def isTrimmed (s : String) : Bool :=
  s.toList.head?.all (fun c => !isWhitespace c) && s.toList.getLast?.all (fun c => !isWhitespace c)

theorem trimStart_head? :
    (trimStart l).head?.all (fun c => !isWhitespace c) = true := by
  induction l with
  | nil => rfl
  | cons c l ih =>
    by_cases h : isWhitespace c = true
    · simpa [trimStart, List.dropWhile_cons, h] using ih
    · simp [trimStart, h]

theorem trimStart_of_head?
    (h : l.head?.all (fun c => !isWhitespace c) = true) : trimStart l = l := by
  cases l with
  | nil => rfl
  | cons c l => simp_all [trimStart]

theorem trimEnd_getLast? :
    (trimEnd l).getLast?.all (fun c => !isWhitespace c) = true := by
  rw [trimEnd, List.getLast?_reverse]
  exact trimStart_head? l.reverse

theorem trimEnd_head? (h : l.head?.all (fun c => !isWhitespace c) = true) :
    (trimEnd l).head?.all (fun c => !isWhitespace c) = true := by
  -- The trimmed end is a prefix of `l`, so it is empty or starts as `l` does.
  have hsuffix : (trimStart l.reverse) <:+ l.reverse := List.dropWhile_suffix _
  have hpre : trimEnd l <+: l := by
    simpa [trimEnd] using List.reverse_prefix.mpr hsuffix
  obtain ⟨rest, hrest⟩ := hpre
  cases hl : trimEnd l with
  | nil => rfl
  | cons c t =>
    rw [hl] at hrest
    rw [← hrest] at h
    simpa using h

theorem trim_isTrimmed (s : String) : isTrimmed (trim s) = true := by
  simp only [isTrimmed, trim, String.toList_ofList, Bool.and_eq_true]
  exact ⟨trimEnd_head? _ (trimStart_head? _), trimEnd_getLast? _⟩

theorem trim_of_isTrimmed (s : String) (h : isTrimmed s = true) : trim s = s := by
  simp only [isTrimmed, Bool.and_eq_true] at h
  rw [trim, trimStart_of_head? _ h.1, trimEnd, trimStart_of_head?, List.reverse_reverse,
    String.ofList_toList]
  simpa using h.2

theorem isTrimmed_append {a b : String} (m : String) (ha : isTrimmed a = true) (hane : a ≠ "")
    (hb : isTrimmed b = true) (hbne : b ≠ "") : isTrimmed (a ++ m ++ b) = true := by
  simp only [isTrimmed, Bool.and_eq_true] at ha hb ⊢
  obtain ⟨first, as, has⟩ := List.exists_cons_of_ne_nil (mt String.toList_eq_nil_iff.mp hane)
  obtain ⟨bs, last, hbs⟩ := (List.eq_nil_or_concat b.toList).resolve_left
    (mt String.toList_eq_nil_iff.mp hbne)
  have hfirst : (a ++ m ++ b).toList.head? = a.toList.head? := by simp [has]
  have hlast : (a ++ m ++ b).toList.getLast? = b.toList.getLast? := by simp [hbs]
  rw [hfirst, hlast]
  exact ⟨ha.1, hb.2⟩

/-! ## Rules and texts -/

/-- The largest byte length a Rust string can have (`isize::MAX`). -/
def maxStringLen : Nat := 2 ^ 63 - 1

/-- One textual rule: the field its refusals name, the byte length it allows and the characters
it admits.  A rule without a limit of its own carries the one every string has. -/
structure TextRule where
  field : String
  maxLen : Nat
  admits : Char → Bool

def TextRule.accepts (rule : TextRule) (s : String) : Bool :=
  isTrimmed s && s ≠ "" && s.utf8ByteSize ≤ rule.maxLen && s.utf8ByteSize ≤ maxStringLen &&
    s.toList.all rule.admits

structure Text (rule : TextRule) where
  val : String
  valid : rule.accepts val = true
deriving DecidableEq

namespace Text

variable {rule : TextRule}

@[ext] theorem ext {a b : Text rule} (h : a.val = b.val) : a = b := by
  cases a
  cases b
  simp_all

theorem val_injective : Function.Injective (Text.val : Text rule → String) := fun _ _ h => ext h

instance : Ord (Text rule) := ⟨compareOn fun t => t.val⟩

instance : Std.TransOrd (Text rule) :=
  inferInstanceAs (Std.TransCmp (compareOn fun t : Text rule => t.val))

instance : Std.LawfulEqOrd (Text rule) where
  eq_of_compare {_ _} h := ext (Std.LawfulEqOrd.eq_of_compare h)

theorem isTrimmed_val (t : Text rule) : isTrimmed t.val = true := by
  have h := t.valid
  simp only [TextRule.accepts, Bool.and_eq_true] at h
  exact h.1.1.1.1

theorem val_ne_empty (t : Text rule) : t.val ≠ "" := by
  have h := t.valid
  simp only [TextRule.accepts, Bool.and_eq_true, decide_eq_true_eq] at h
  exact h.1.1.1.2

theorem utf8ByteSize_le (t : Text rule) : t.val.utf8ByteSize ≤ maxStringLen := by
  have h := t.valid
  simp only [TextRule.accepts, Bool.and_eq_true, decide_eq_true_eq] at h
  exact h.1.2

theorem admits_of_mem (t : Text rule) (c : Char) (hc : c ∈ t.val.toList) :
    rule.admits c = true := by
  have h := t.valid
  simp only [TextRule.accepts, Bool.and_eq_true, List.all_eq_true] at h
  exact h.2 c hc

/-- Trim the raw text and check it, in the order of the source: emptiness, length, characters.
The last bound refuses texts no Rust string can hold. -/
def new (rule : TextRule) (raw : String) : Result (Text rule) :=
  let trimmed := trim raw
  if hempty : trimmed = "" then
    Outcome.refuse (.emptyField rule.field)
  else if hlen : rule.maxLen < trimmed.utf8ByteSize ∨ maxStringLen < trimmed.utf8ByteSize then
    Outcome.refuse (.fieldTooLong rule.field trimmed.utf8ByteSize rule.maxLen)
  else if hchars : trimmed.toList.all rule.admits = false then
    Outcome.refuse (.invalidCharacters rule.field)
  else
    .ok ⟨trimmed, by
      simp only [not_or, not_lt] at hlen
      simp only [TextRule.accepts, trim_isTrimmed raw, trimmed, Bool.and_eq_true, decide_eq_true_eq]
      exact ⟨⟨⟨⟨trivial, hempty⟩, hlen.1⟩, hlen.2⟩, by simpa using hchars⟩⟩

theorem new_val {raw : String} {t : Text rule} (h : new rule raw = .ok t) : t.val = trim raw := by
  unfold new at h
  dsimp only at h
  split at h
  · simp at h
  · split at h
    · simp at h
    · split at h
      · simp at h
      · cases h
        rfl

theorem noPanic_new (raw : String) : Outcome.NoPanic (new rule raw) := by
  unfold new
  dsimp only
  split
  · simp
  · split
    · simp
    · split <;> simp

/-- Validating a text that already passed its rule returns it unchanged. -/
theorem new_of_text (t : Text rule) : new rule t.val = .ok t := by
  have hv := t.valid
  simp only [TextRule.accepts, Bool.and_eq_true, decide_eq_true_eq] at hv
  have htrim : trim t.val = t.val := trim_of_isTrimmed _ t.isTrimmed_val
  have hlen : ¬ (rule.maxLen < t.val.utf8ByteSize ∨ maxStringLen < t.val.utf8ByteSize) := by
    omega
  simp [new, htrim, t.val_ne_empty, hlen, hv.2]

theorem new_eq_ok_iff {raw : String} {t : Text rule} : new rule raw = .ok t ↔ t.val = trim raw := by
  constructor
  · exact new_val
  · intro h
    -- The constructor looks at its argument only through `trim`.
    have hsame : ∀ s s', trim s = trim s' → new rule s = new rule s' := by
      intro s s' hs
      simp only [new, hs]
    rw [← new_of_text t]
    exact hsame _ _ (by rw [trim_of_isTrimmed _ t.isTrimmed_val, h])

end Text

/-! ## The identifiers of the domain -/

/-- A rule that only asks for a nonempty text without control characters. -/
def plainRule (field : String) (maxLen : Nat) : TextRule := ⟨field, maxLen, fun c => !isControl c⟩

def snakeRule (field : String) (maxLen : Nat) : TextRule :=
  ⟨field, maxLen, fun c => isAsciiLowercase c || isAsciiDigit c || c == '_'⟩

abbrev CeremonyId := Text (plainRule "ceremony_id" 256)
abbrev CeremonyName := Text (snakeRule "ceremony_name" 128)
abbrev CeremonyVersion := Text
  ⟨"ceremony_version", 64, fun c => isAsciiAlphanumeric c || c == '.' || c == '-' || c == '_'⟩
abbrev CeremonyDescription := Text (plainRule "ceremony_description" 4096)
abbrev StepHandlerKind := Text ⟨"step_handler_kind", 128, fun c =>
  isAsciiLowercase c || isAsciiDigit c || c == '_' || c == '-' || c == '.'⟩
abbrev StepId := Text (snakeRule "step_id" maxStringLen)
abbrev StateId := Text (plainRule "state_id" maxStringLen)
abbrev RoleId := Text (plainRule "role_id" maxStringLen)
abbrev GuardName := Text (snakeRule "guard_name" maxStringLen)
abbrev TransitionTrigger := Text (plainRule "transition_trigger" maxStringLen)
abbrev IdempotencyKey := Text (plainRule "idempotency_key" maxStringLen)
abbrev LeaseOwnerId := Text (plainRule "lease_owner_id" maxStringLen)
abbrev InputName := Text (plainRule "input_name" maxStringLen)
abbrev OutputName := Text (plainRule "output_name" maxStringLen)
abbrev ContextKey := Text (plainRule "context_key" maxStringLen)
abbrev StepOutputField := Text (plainRule "step_output_field" maxStringLen)
abbrev StepErrorMessage := Text (plainRule "step_error_message" 2048)
abbrev Specialty := Text (plainRule "specialty" 128)
abbrev CeremonyInterventionId := Text (plainRule "ceremony_intervention_id" 256)
abbrev CeremonyEvidenceSourceId := Text (plainRule "ceremony_evidence_source_id" 128)
abbrev CeremonyAgentExecutionId := Text (plainRule "ceremony_agent_execution_id" 256)
abbrev HostAgentIncarnation := Text (plainRule "host_agent_incarnation" 256)
abbrev HostDeliveryId := Text (plainRule "host_delivery_id" 512)
abbrev SupervisorDisplayName := Text (plainRule "supervisor_display_name" 128)
abbrev EventId := Text (plainRule "event_id" 256)
abbrev LifecycleReason := Text ⟨"lifecycle_reason", 1000, fun _ => true⟩
abbrev EvidenceReference := Text ⟨"evidence_support.reference", maxStringLen, fun _ => true⟩

-- The keys of the maps, each under an instance of its own.
instance : Std.TransOrd CeremonyId := inferInstance
instance : Std.TransOrd StepId := inferInstance
instance : Std.TransOrd StateId := inferInstance
instance : Std.TransOrd RoleId := inferInstance
instance : Std.TransOrd GuardName := inferInstance
instance : Std.TransOrd IdempotencyKey := inferInstance
instance : Std.TransOrd InputName := inferInstance
instance : Std.TransOrd OutputName := inferInstance
instance : Std.TransOrd ContextKey := inferInstance
instance : Std.TransOrd HostDeliveryId := inferInstance
instance : Std.LawfulEqOrd StepId := inferInstance
instance : Std.LawfulEqOrd RoleId := inferInstance
instance : Std.LawfulEqOrd InputName := inferInstance
instance : Std.LawfulEqOrd ContextKey := inferInstance
instance : LawfulBEq StepOutputField := inferInstance

/-- An actor outside the table; any text will do. -/
structure AuditActorId where
  val : String
deriving DecidableEq

end Made
