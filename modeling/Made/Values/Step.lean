import Made.Values.Digest
import Made.Values.Json
import Made.Values.Time

/-!
# Step records, leases and claim fences

A step of a ceremony has one current execution record.  Starting the step puts a lease on the
record; the lease, together with the coordinates of the record, determines the claim fence that a
later result has to present.  Renewing a lease moves the record's expiry and nothing else, so the
fence of a claim never changes while the claim lasts.
-/

namespace Made

open Outcome

/-! ## Results -/

inductive StepStatus where
  | pending
  | inProgress
  | completed
  | failed
  | waitingForHuman
  | cancelled
deriving DecidableEq, Repr

def StepStatus.isExecutable : StepStatus → Bool
  | pending | failed | waitingForHuman => true
  | _ => false

def StepStatus.isSuccess (s : StepStatus) : Bool := s == completed

inductive StepFailureKind where
  | noValidProposal
  | timeout
deriving DecidableEq, Repr

structure StepOutput where
  attributes : Attributes
deriving DecidableEq

def StepOutput.empty : StepOutput := ⟨Attributes.empty⟩

/-- What a result must satisfy: its status is observable, exactly the failures carry a message,
and only a failure is classified. -/
def stepResultOk (status : StepStatus) (errorMessage : Option StepErrorMessage)
    (failureKind : Option StepFailureKind) : Bool :=
  status != .pending && status != .inProgress && (status == .failed) == errorMessage.isSome &&
    (failureKind.isNone || status == .failed)

structure StepResult where
  status : StepStatus
  output : StepOutput
  errorMessage : Option StepErrorMessage
  failureKind : Option StepFailureKind
  valid : stepResultOk status errorMessage failureKind = true
deriving DecidableEq

namespace StepResult

def new (status : StepStatus) (output : StepOutput) (errorMessage : Option StepErrorMessage) :
    Result StepResult :=
  if status = .pending ∨ status = .inProgress then
    refuse (.invariantViolated "step result status must be observable")
  else if status = .failed ∧ errorMessage.isNone then
    refuse (.emptyField "step_result.error_message")
  else if status ≠ .failed ∧ errorMessage.isSome then
    refuse (.invariantViolated "only failed step results may carry an error message")
  else if h : stepResultOk status errorMessage none = true then
    .ok ⟨status, output, errorMessage, none, h⟩
  else
    -- The three checks above leave no case for this branch.
    refuse (.invariantViolated "step result status must be observable")

def timedOut : StepResult where
  status := .failed
  output := StepOutput.empty
  errorMessage := some ⟨"step deadline exceeded", by decide⟩
  failureKind := some .timeout
  valid := by decide

def isSuccess (r : StepResult) : Bool := r.status.isSuccess

theorem status_ne_inProgress (r : StepResult) : r.status ≠ .inProgress := by
  intro h
  have hv := r.valid
  rw [h] at hv
  simp [stepResultOk] at hv

theorem failureKind_eq_none (r : StepResult) (h : r.status ≠ .failed) : r.failureKind = none := by
  have hv := r.valid
  simp only [stepResultOk, Bool.and_eq_true, Bool.or_eq_true, beq_iff_eq,
    Option.isNone_iff_eq_none] at hv
  rcases hv.2 with hk | hk
  · exact hk
  · exact absurd hk h

end StepResult

/-! ## Leases -/

/-- The model and host an executor declared, as sealed; the aggregate stores it and never reads
it. -/
structure ExecutionProfile where
  declared : Value
deriving DecidableEq

/-- The ownership of one attempt, for a time that ends after it begins. -/
structure StepLease where
  ownerId : LeaseOwnerId
  idempotencyKey : IdempotencyKey
  acquiredAt : OffsetDateTime
  expiresAt : OffsetDateTime
  executionProfile : Option ExecutionProfile
  expires_after : acquiredAt < expiresAt
deriving DecidableEq

namespace StepLease

def new (ownerId : LeaseOwnerId) (idempotencyKey : IdempotencyKey)
    (acquiredAt expiresAt : OffsetDateTime) : Result StepLease :=
  if h : acquiredAt < expiresAt then
    .ok ⟨ownerId, idempotencyKey, acquiredAt, expiresAt, none, h⟩
  else
    refuse (.invariantViolated "step lease must expire after it is acquired")

end StepLease

/-! ## Execution records -/

/-- One sealed record of another ceremony, addressed exactly. -/
structure SourceRecordRef where
  ceremonyId : CeremonyId
  stepId : StepId
  eventId : EventId
  recordHash : AuditRecordHash
  stateVisit : StateVisit
  attempt : StepAttempt
deriving DecidableEq

structure BudgetReservationId where
  val : String
deriving DecidableEq

structure StepExecutionRecord where
  status : StepStatus
  stateIteration : StateIteration
  stateVisit : StateVisit
  iteration : StepIteration
  attempt : StepAttempt
  lease : Option StepLease
  renewedExpiresAt : Option OffsetDateTime
  output : StepOutput
  errorMessage : Option StepErrorMessage
  claimedRole : Option RoleId
  budgetReservationId : Option BudgetReservationId
  carriedFrom : Option SourceRecordRef
deriving DecidableEq

namespace StepExecutionRecord

def pending : StepExecutionRecord where
  status := .pending
  stateIteration := StateIteration.first
  stateVisit := StateVisit.first
  iteration := StepIteration.first
  attempt := StepAttempt.first
  lease := none
  renewedExpiresAt := none
  output := StepOutput.empty
  errorMessage := none
  claimedRole := none
  budgetReservationId := none
  carriedFrom := none

def pendingStateIteration (stateIteration : StateIteration) : StepExecutionRecord :=
  { pending with stateIteration }

def pendingCoordinates (stateIteration : StateIteration) (iteration : StepIteration) :
    StepExecutionRecord :=
  { pending with stateIteration, iteration }

variable (r : StepExecutionRecord)

def withStateVisit (stateVisit : StateVisit) : StepExecutionRecord :=
  { r with stateVisit }

/-- The attempt the next start gets: a failed or abandoned attempt counts, a pending or waiting
record keeps its number. -/
def nextStartAttempt : Result StepAttempt :=
  match r.status with
  | .failed | .inProgress => r.attempt.next
  | _ => .ok r.attempt

def effectiveLeaseExpiresAt : Option OffsetDateTime :=
  r.renewedExpiresAt.or (r.lease.map (·.expiresAt))

def renewLeaseUntil (expiresAt : OffsetDateTime) : StepExecutionRecord :=
  { r with renewedExpiresAt := some expiresAt }

def canBeStartedAt (now : OffsetDateTime) : Bool :=
  if r.status.isExecutable then true
  else r.status == .inProgress && r.effectiveLeaseExpiresAt.any fun expiry => expiry ≤ now

def hasLiveLeaseAt (now : OffsetDateTime) : Bool :=
  r.status == .inProgress && r.effectiveLeaseExpiresAt.any fun expiry => now < expiry

def withStarted (lease : StepLease) (attempt : StepAttempt)
    (claimedRole : Option RoleId) : StepExecutionRecord :=
  { r with
    status := .inProgress
    attempt
    lease := some lease
    renewedExpiresAt := none
    errorMessage := none
    claimedRole }

def withBudgetReservation
    (budgetReservationId : Option BudgetReservationId) : StepExecutionRecord :=
  { r with budgetReservationId }

def withResult (result : StepResult) : StepExecutionRecord :=
  { r with
    status := result.status
    lease := none
    renewedExpiresAt := none
    output := result.output
    errorMessage := result.errorMessage }

def carried (output : StepOutput) (source : SourceRecordRef) (stateIteration : StateIteration)
    (stateVisit : StateVisit) : StepExecutionRecord :=
  { pending with
    status := .completed
    stateIteration
    stateVisit
    output
    carriedFrom := some source }

end StepExecutionRecord

/-! ## Claim fences -/

/-- The texts a claim fence digests: every coordinate of the claim and its lease. -/
def claimFenceParts (instanceId : CeremonyId) (stepId : StepId) (record : StepExecutionRecord)
    (lease : StepLease) : List String :=
  [instanceId.val, stepId.val, toString record.stateVisit.val, toString record.stateIteration.val,
    toString record.iteration.val, toString record.attempt.val, lease.ownerId.val,
    lease.idempotencyKey.val, toString lease.acquiredAt.nanos, toString lease.expiresAt.nanos]

def claimFencePreimage (instanceId : CeremonyId) (stepId : StepId) (record : StepExecutionRecord)
    (lease : StepLease) : List UInt8 :=
  Framing.taggedTexts "made.step-claim-fence.v1" (claimFenceParts instanceId stepId record lease)

/-- `StepClaimFence::for_record`. -/
def StepClaimFence.forRecord (instanceId : CeremonyId) (stepId : StepId)
    (record : StepExecutionRecord) : Result StepClaimFence := do
  let lease ← okOr record.lease (.invariantViolated "claim fence requires a step lease")
  pure (HexDigest.ofMessage _ (claimFencePreimage instanceId stepId record lease))

theorem StepClaimFence.forRecord_eq_ok {instanceId : CeremonyId} {stepId : StepId}
    {record : StepExecutionRecord} {fence : StepClaimFence} :
    forRecord instanceId stepId record = .ok fence ↔ ∃ lease, record.lease = some lease ∧
      HexDigest.ofMessage _ (claimFencePreimage instanceId stepId record lease) = fence := by
  simp only [forRecord, bind_eq_ok, okOr_eq_ok, pure_eq_ok]

theorem Text.utf8_length_lt {rule : TextRule} (t : Text rule) :
    (Framing.utf8 t.val).length < 256 ^ 8 := by
  have hsize := t.utf8ByteSize_le
  rw [Framing.utf8_length]
  unfold maxStringLen at hsize
  omega

theorem Ordinal.utf8_length_lt {rule : OrdinalRule} (o : Ordinal rule)
    (hrule : rule.max ≤ u32Max) : (Framing.utf8 (toString o.val)).length < 256 ^ 8 := by
  have hmax := o.le_max
  have hsmall : o.val < 10 ^ 10 := by
    unfold u32Max at hrule
    omega
  have hlen := Framing.utf8_length_natRepr_le (by decide) hsmall
  have hrepr : toString o.val = o.val.repr := rfl
  rw [hrepr]
  omega

theorem OffsetDateTime.utf8_length_lt (at_ : OffsetDateTime) :
    (Framing.utf8 (toString at_.nanos)).length < 256 ^ 8 := by
  have hrange := at_.inRange
  have hsmall : at_.nanos.natAbs < 10 ^ 21 := by
    unfold minInstant maxInstant at hrange
    omega
  have hlen := Framing.utf8_length_intRepr_le (by decide) hsmall
  have hrepr : toString at_.nanos = at_.nanos.repr := rfl
  rw [hrepr]
  omega

theorem claimFenceParts_bounded (instanceId : CeremonyId) (stepId : StepId)
    (record : StepExecutionRecord) (lease : StepLease) :
    ∀ part ∈ claimFenceParts instanceId stepId record lease,
      (Framing.utf8 part).length < 256 ^ 8 := by
  simp only [claimFenceParts, List.forall_mem_cons, List.not_mem_nil, false_implies, implies_true,
    and_true]
  exact ⟨instanceId.utf8_length_lt, stepId.utf8_length_lt,
    record.stateVisit.utf8_length_lt le_rfl, record.stateIteration.utf8_length_lt (by decide),
    record.iteration.utf8_length_lt (by decide), record.attempt.utf8_length_lt le_rfl,
    lease.ownerId.utf8_length_lt, lease.idempotencyKey.utf8_length_lt,
    lease.acquiredAt.utf8_length_lt, lease.expiresAt.utf8_length_lt⟩

/-- The message names the step and the idempotency key of its claim. -/
theorem claimFencePreimage_injective {instanceId : CeremonyId} {stepId stepId' : StepId}
    {record record' : StepExecutionRecord} {lease lease' : StepLease}
    (h : claimFencePreimage instanceId stepId record lease =
      claimFencePreimage instanceId stepId' record' lease') :
    stepId = stepId' ∧ lease.idempotencyKey = lease'.idempotencyKey := by
  have hcnt : (claimFenceParts instanceId stepId record lease).length =
      (claimFenceParts instanceId stepId' record' lease').length := rfl
  have hparts := Framing.taggedTexts_injective hcnt (claimFenceParts_bounded _ _ _ _)
    (claimFenceParts_bounded _ _ _ _) h
  simp only [claimFenceParts, List.cons.injEq] at hparts
  obtain ⟨-, hstep, -, -, -, -, -, hkey, -⟩ := hparts
  exact ⟨Text.ext hstep, Text.ext hkey⟩

/-! ## Deadlines and late results -/

/-- The deadline of one claim, sealed with the claim it belongs to. -/
structure StepDeadline where
  stepId : StepId
  stateVisit : StateVisit
  stateIteration : StateIteration
  stepIteration : StepIteration
  attempt : StepAttempt
  claimFence : StepClaimFence
  finishedBy : RoleId
  at_ : OffsetDateTime
deriving DecidableEq

structure StateDeadline where
  stateId : StateId
  stateVisit : StateVisit
  at_ : OffsetDateTime
deriving DecidableEq

structure CeremonyDeadline where
  at_ : OffsetDateTime
deriving DecidableEq

structure LateStepResult where
  stepId : StepId
  stateVisit : StateVisit
  stateIteration : StateIteration
  stepIteration : StepIteration
  attempt : StepAttempt
  claimFence : StepClaimFence
  result : StepResult
  finishedBy : RoleId
deriving DecidableEq

/-! ## Lifecycle -/

inductive CeremonyEndReason where
  | completed
  | cancelled
  | ceremonyDeadline
  | stateDeadline
deriving DecidableEq, Repr

/-- The explicit lifecycle of a ceremony: its phase, and what changed it last. -/
structure CeremonyLifecycle where
  phase : CeremonyLifecyclePhase
  endReason : Option CeremonyEndReason
  reason : Option LifecycleReason
  changedAt : Option OffsetDateTime
deriving DecidableEq

namespace CeremonyLifecycle

def default : CeremonyLifecycle := ⟨.running, none, none, none⟩

def completed (at_ : OffsetDateTime) : CeremonyLifecycle :=
  ⟨.ended, some .completed, none, some at_⟩

variable (l : CeremonyLifecycle)

def admitsNewWork : Bool := l.phase == .running

def isEnded : Bool := l.phase == .ended

/-- Whether a pause, a resume or an ending was ever folded. -/
def isExplicit : Bool := l.changedAt.isSome

def pause (reason : LifecycleReason) (at_ : OffsetDateTime) : CeremonyLifecycle :=
  { l with phase := .paused, reason := some reason, changedAt := some at_ }

def resume (at_ : OffsetDateTime) : CeremonyLifecycle :=
  { l with phase := .running, reason := none, changedAt := some at_ }

def end_ (l : CeremonyLifecycle) (endReason : CeremonyEndReason) (reason : Option LifecycleReason)
    (at_ : OffsetDateTime) : CeremonyLifecycle :=
  { l with phase := .ended, endReason := some endReason, reason, changedAt := some at_ }

end CeremonyLifecycle

end Made
