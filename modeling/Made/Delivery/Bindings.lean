import Made.Delivery.Record

/-!
# Who drives a scope

A scope keeps every integrator that was ever bound to it, the oldest first.  A binding that is
replaced hands on its fence, one higher; a scope without a live binding takes the next one as it
comes.
-/

namespace Made

/-- How far the loop of a binding had got when it last asked. -/
structure LoopProgressMark where
  head : Option Nat
  closed : Nat
  rounds : Nat
  stuck : Nat
deriving DecidableEq

def LoopProgressMark.fresh : LoopProgressMark := ⟨none, 0, 0, 0⟩

def IntegratorFence.first : IntegratorFence := 0

def IntegratorFence.next (fence : IntegratorFence) : IntegratorFence := min (fence + 1) u64Max

structure IntegratorBinding where
  id : IntegratorBindingId
  incarnation : HostAgentIncarnation
  fence : IntegratorFence
  boundAt : OffsetDateTime
  revokedAt : Option OffsetDateTime
  progress : LoopProgressMark
deriving DecidableEq

namespace IntegratorBinding

def new (id : IntegratorBindingId) (incarnation : HostAgentIncarnation)
    (boundAt : OffsetDateTime) : IntegratorBinding :=
  ⟨id, incarnation, .first, boundAt, none, .fresh⟩

variable (binding : IntegratorBinding)

def observing (progress : LoopProgressMark) : IntegratorBinding :=
  { binding with progress }

def isLive : Bool := binding.revokedAt.isNone

def admits (incarnation : HostAgentIncarnation) (fence : IntegratorFence) : Bool :=
  binding.isLive && binding.incarnation = incarnation && binding.fence = fence

def replacing (binding replacement : IntegratorBinding) : IntegratorBinding :=
  { replacement with
    fence := binding.fence.next
    revokedAt := none
    progress := .fresh }

def revoked (at_ : OffsetDateTime) : IntegratorBinding :=
  { binding with revokedAt := some at_ }

end IntegratorBinding

inductive BindReplacement where
  | keep
  | replace
deriving DecidableEq

inductive BindOutcome where
  | bound (binding : IntegratorBinding)
  | alreadyBound (binding : IntegratorBinding)
  | replaced (previous current : IntegratorBinding)
  | alreadyExists (existing : IntegratorBinding)
deriving DecidableEq

/-- Every binding of one scope, the oldest first. -/
abbrev StoredIntegratorBinding := List IntegratorBinding

variable (stored : StoredIntegratorBinding)

namespace StoredIntegratorBinding

def current : Option IntegratorBinding :=
  stored.reverse.find? (·.isLive)

def isLiveAs (id : IntegratorBindingId) (binding : IntegratorBinding) : Bool :=
  binding.id = id && binding.isLive

def retire (id : IntegratorBindingId) (at_ : OffsetDateTime) : StoredIntegratorBinding :=
  stored.map fun binding => if isLiveAs id binding then binding.revoked at_ else binding

def bind (offered : IntegratorBinding)
    (replacement : BindReplacement) : BindOutcome × StoredIntegratorBinding :=
  match stored.current with
  | none => (.bound offered, stored ++ [offered])
  | some incumbent =>
    if incumbent.id = offered.id ∧ incumbent.incarnation = offered.incarnation then
      (.alreadyBound incumbent, stored)
    else if replacement = .keep then (.alreadyExists incumbent, stored)
    else
      let current := incumbent.replacing offered
      (.replaced incumbent current, stored.retire incumbent.id current.boundAt ++ [current])

/-- Change the first binding that is live under an identity. -/
def amend (id : IntegratorBindingId) (f : IntegratorBinding → IntegratorBinding) :
    StoredIntegratorBinding → Option IntegratorBinding × StoredIntegratorBinding
  | [] => (none, [])
  | binding :: rest =>
    if isLiveAs id binding then (some (f binding), f binding :: rest)
    else ((amend id f rest).1, binding :: (amend id f rest).2)

/-- End a binding; one that has ended is handed back as it is. -/
def revoke (id : IntegratorBindingId) (now : OffsetDateTime) :
    Option IntegratorBinding × StoredIntegratorBinding :=
  let revoked := amend id (·.revoked now) stored
  (revoked.1.or (stored.find? (·.id = id)), revoked.2)

def observing (id : IntegratorBindingId)
    (progress : LoopProgressMark) : Option IntegratorBinding × StoredIntegratorBinding :=
  amend id (·.observing progress) stored

end StoredIntegratorBinding

inductive BindingCall where
  | bind (id : IntegratorBindingId) (incarnation : HostAgentIncarnation)
      (boundAt : OffsetDateTime) (replacement : BindReplacement)
  | revoke (id : IntegratorBindingId) (now : OffsetDateTime)
  | observing (id : IntegratorBindingId) (progress : LoopProgressMark)
deriving DecidableEq

def StoredIntegratorBinding.answer :
    BindingCall → (BindOutcome ⊕ Option IntegratorBinding) × StoredIntegratorBinding
  | .bind bindingId incarnation boundAt replacement =>
    (stored.bind (.new bindingId incarnation boundAt) replacement).map .inl id
  | .revoke bindingId now => (stored.revoke bindingId now).map .inr id
  | .observing bindingId progress => (stored.observing bindingId progress).map .inr id

end Made
