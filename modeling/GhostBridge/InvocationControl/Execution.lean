import GhostBridge.Ecma.Regex
import GhostBridge.InvocationControl.Documents

/-!
# Execution

What the gateway, the worker and durable work write while an invocation is created, executed and
repeated.
-/

namespace GhostBridge.InvocationControl

open Ecma DurableWork

/-- What `reserveInvocation` is given. -/
structure Reservation where
  id : Text
  receivingWorkspaceId : Text
  connectionId : Text
  capability : Text
  input : Value
  inputSummary : Value
  idempotencyKey : Option Text
  recoveryParentInvocationId : Option Text := none
  traceId : Option Text := none
  now : Int

namespace Reservation

variable (reservation : Reservation)

def request : IdempotencyRequest :=
  ⟨reservation.idempotencyKey, reservation.connectionId, reservation.capability, reservation.input⟩

def ClientGaveKey : Prop := ∃ key, reservation.idempotencyKey = some key ∧ key ≠ []

end Reservation

/-- `Invocation.create(...)`. -/
def createInvocation (reservation : Reservation) (idempotency : Idempotency) : Invocation where
  id := reservation.id
  receivingWorkspaceId := reservation.receivingWorkspaceId
  connectionId := reservation.connectionId
  lifecycleState := .accepted
  stateHistory :=
    [⟨none, .accepted, reservation.now, some (ascii "INVOCATION_CREATED"), none,
      reservation.traceId⟩]
  protectedReplayAvailable := true
  traceId := reservation.traceId
  recoveryParentInvocationId := reservation.recoveryParentInvocationId
  lastProgressStage := some .accepted
  createdAt := reservation.now
  status := .queued
  capability := reservation.capability
  inputSummary :=
    if reservation.recoveryParentInvocationId.isSome then
      .object [(ascii "recoveryReplay", .bool true)]
    else reservation.inputSummary
  clientIdempotencyProvided := idempotency.clientProvided
  idempotencyKeyHash := some idempotency.keyHash
  requestFingerprint := some idempotency.requestFingerprint
  lastProgressAt := some reservation.now
  updatedAt := reservation.now

/-- The invocation that `reserveInvocation` creates. -/
def reserveInvocation (secret uuid : Text) (reservation : Reservation) :
    Except IdempotencyError Invocation := do
  let idempotency ← createInvocationIdempotency secret uuid reservation.request
  pure (createInvocation reservation idempotency)

/-- What `transitionInvocation` writes. -/
def transitionInvocation (options : LifecycleOptions) (outcome : Outcome)
    (fromState toState : InvocationState) (now : Int) : Checked Write := do
  let update ← transitionUpdate fromState toState (options.entry now) outcome
  pure
    { filter := fun candidate =>
        options.names candidate.toInvocation && candidate.lifecycleState == fromState &&
          (toState != .succeeded ||
            !([.requested, .aborting].contains candidate.cancellationState)) &&
          options.owns now candidate.toInvocation
      update := update }

def markRecovery (options : LifecycleOptions) (reasonCode : Text) (fromState : InvocationState)
    (guard : DurableWork.Invocation → Bool) (now : Int) : Checked Write := do
  let update ← transitionUpdate fromState .recoveryRequired
    { options.entry now with reasonCode := some reasonCode }
  pure
    { filter := fun candidate =>
        options.names candidate.toInvocation && candidate.lifecycleState == fromState &&
          guard candidate.toInvocation
      update := update }

/-- `markExpiredInvocationLeaseRecovery`, as `claimInvocationExecution` calls it. -/
def markExpiredInvocationLeaseRecovery (options : LifecycleOptions) (fromState : InvocationState)
    (now : Int) : Checked Write :=
  markRecovery options (ascii "EXECUTION_LEASE_EXPIRED") fromState (executionLeaseExpired now) now

/-- `markActiveInvocationRecovery`, as the worker and the server call it. -/
def markActiveInvocationRecovery (options : LifecycleOptions) (fromState : InvocationState)
    (now : Int) : Checked Write :=
  markRecovery options (ascii "SHUTDOWN_DURING_EXTERNAL_INVOCATION") fromState (options.owns now)
    now

def renewInvocationExecutionLease (options : LifecycleOptions) (leaseDurationMs : ℕ) (now : Int) :
    Write where
  filter candidate :=
    options.names candidate.toInvocation &&
      [.running, .waitingForRuntime].contains candidate.lifecycleState &&
      options.owns now candidate.toInvocation
  update invocation := { invocation with executionLeaseExpiresAt := some (now + leaseDurationMs) }

/-- The claim that `claimInvocationExecution` writes. -/
def claimInvocationExecution (options : LifecycleOptions) (owner leaseId : Text)
    (leaseDurationMs : ℕ) (now : Int) : Checked Write := do
  let update ← transitionUpdate .authorized .running
    { options.entry now with
      reasonCode := some (options.reasonCode.getD (ascii "EXECUTION_CLAIMED")) }
  pure
    { filter := fun candidate =>
        options.names candidate.toInvocation && candidate.lifecycleState == .authorized &&
          (candidate.executionLeaseId.isNone || candidate.executionLeaseExpiresAt.isNone ||
            executionLeaseExpired now candidate.toInvocation)
      update := fun invocation =>
        { update invocation with
          executionLeaseId := some leaseId
          executionLeaseExpiresAt := some (now + leaseDurationMs)
          executionOwner := some owner
          lastProgressAt := some now
          lastProgressStage := some .executionClaimed } }

/-- What `persistInvocationProgress` writes. -/
def persistInvocationProgress (options : LifecycleOptions) (stage : ProgressStage)
    (runtimeTimeoutMs : ℕ) (now : Int) : Write where
  filter candidate :=
    options.names candidate.toInvocation && activeStates.contains candidate.lifecycleState &&
      options.owns now candidate.toInvocation
  update invocation :=
    { invocation with
      lastProgressAt := some now
      lastProgressStage := some stage
      runtimeDeadlineAt :=
        if stage = .outboundRequestStarted then some (now + runtimeTimeoutMs)
        else invocation.runtimeDeadlineAt }

/-- What `startInvocationAttempt` writes. -/
def startInvocationAttempt (options : LifecycleOptions) (owner leaseId : Text) : Write where
  filter candidate :=
    options.names candidate.toInvocation && candidate.lifecycleState == .running &&
      candidate.executionLeaseId == some leaseId && candidate.executionOwner == some owner
  update invocation := { invocation with attemptCount := invocation.attemptCount + 1 }

/-- The link of `initializeDurableWork`. -/
def linkDurableWork (options : LifecycleOptions) (workItemId : Text) : Write where
  filter candidate :=
    options.names candidate.toInvocation &&
      [.accepted, .validating, .authorized].contains candidate.lifecycleState
  update invocation := { invocation with currentWorkItemId := some workItemId }

/-- A transition that the gateway makes on the way to the outcome, with its reason. -/
inductive GatewayTransition where
  | requestValidationStarted
  | invocationAuthorized
  | runtimeRequestTransmissionStarted
  | runtimeResponseValidated

namespace GatewayTransition

def fromState : GatewayTransition → InvocationState
  | .requestValidationStarted => .accepted
  | .invocationAuthorized => .validating
  | .runtimeRequestTransmissionStarted => .running
  | .runtimeResponseValidated => .waitingForRuntime

def toState : GatewayTransition → InvocationState
  | .requestValidationStarted => .validating
  | .invocationAuthorized => .authorized
  | .runtimeRequestTransmissionStarted => .waitingForRuntime
  | .runtimeResponseValidated => .succeeded

def reasonCode : GatewayTransition → Text
  | .requestValidationStarted => ascii "REQUEST_VALIDATION_STARTED"
  | .invocationAuthorized => ascii "INVOCATION_AUTHORIZED"
  | .runtimeRequestTransmissionStarted => ascii "RUNTIME_REQUEST_TRANSMISSION_STARTED"
  | .runtimeResponseValidated => ascii "RUNTIME_RESPONSE_VALIDATED"

end GatewayTransition

def gatewayTransition (options : LifecycleOptions) (transition : GatewayTransition) (now : Int) :
    Checked Write :=
  transitionInvocation { options with reasonCode := some transition.reasonCode } {}
    transition.fromState transition.toState now

/-- The texts of `recoveryReason` that an error carries: those of the service, and those that the
adapter takes from a remote answer. -/
inductive RecoveryHint where
  | remoteOutcomeUnknown
  | shutdownDuringExternalInvocation
  | workerLostDuringRemoteExecution
  | formattingFailedAfterGroundedResearch
  | ambiguousRemoteOutcome
deriving DecidableEq

def RecoveryHint.text : RecoveryHint → Text
  | .remoteOutcomeUnknown => ascii "REMOTE_OUTCOME_UNKNOWN"
  | .shutdownDuringExternalInvocation => ascii "SHUTDOWN_DURING_EXTERNAL_INVOCATION"
  | .workerLostDuringRemoteExecution => ascii "WORKER_LOST_DURING_REMOTE_EXECUTION"
  | .formattingFailedAfterGroundedResearch => ascii "FORMATTING_FAILED_AFTER_GROUNDED_RESEARCH"
  | .ambiguousRemoteOutcome => ascii "AMBIGUOUS_REMOTE_OUTCOME"

structure RuntimeError where
  code : Text
  providerHttpStatus : Option ℕ := none
  recoveryRequired : Bool := false
  recoveryReason : Option RecoveryHint := none

structure RuntimeFailure where
  error : RuntimeError
  externalCallStarted : Bool
  responsePersistenceUncertain : Bool
  /-- `finishInvocationAttempt` has thrown. -/
  attemptPersistenceFailed : Bool := false
  /-- `durableFinalizationOwnershipLost`. -/
  finalizationOwnershipLost : Bool := false
  /-- What the retry policy says of a failure that is not ambiguous. -/
  retryAllowed : Bool := false
  durableAttempt : Option (ℕ × ℕ) := none

def ambiguousCodes : List Text :=
  [ascii "SAFE_FETCH_TIMEOUT", ascii "SAFE_FETCH_FAILED", ascii "SAFE_FETCH_RESPONSE_TOO_LARGE",
    ascii "SHUTDOWN_INTERRUPTED_INVOCATION", ascii "DURABLE_WORK_LEASE_LOST",
    ascii "DURABLE_WORK_FINALIZATION_CONFLICT"]

/-- `/(?:TIMEOUT|TIMED_OUT)/`. -/
def timeoutPattern : Regex :=
  .anyOf [.literal (ascii "TIMEOUT"), .literal (ascii "TIMED_OUT")]

namespace RuntimeFailure

variable (failure : RuntimeFailure)

def ambiguousRuntimeOutcome : Bool :=
  failure.error.recoveryRequired || failure.responsePersistenceUncertain ||
    (failure.externalCallStarted && failure.error.providerHttpStatus.isNone &&
      ambiguousCodes.contains failure.error.code)

/-- `ambiguous`, when the attempt has been finished. -/
def ambiguous : Bool :=
  if failure.attemptPersistenceFailed then failure.externalCallStarted
  else failure.ambiguousRuntimeOutcome

/-- `retryDecision.allowed`. -/
def retries : Bool :=
  !failure.attemptPersistenceFailed && !failure.ambiguousRuntimeOutcome && failure.retryAllowed

def deadLetterDisposition : Bool :=
  !failure.finalizationOwnershipLost && !failure.ambiguous && !failure.retries &&
    !failure.externalCallStarted &&
    failure.durableAttempt.any fun (attempt, maximum) => decide (maximum ≤ attempt)

def recoveryReasonFor : Text :=
  match failure.error.recoveryReason with
  | some hint => hint.text
  | none =>
    if failure.responsePersistenceUncertain then ascii "RESPONSE_PERSISTENCE_UNCERTAIN"
    else if failure.error.code = ascii "SAFE_FETCH_TIMEOUT" then
      ascii "REMOTE_TIMEOUT_OUTCOME_AMBIGUOUS"
    else ascii "REMOTE_OUTCOME_AMBIGUOUS"

def terminalStateForError : InvocationState :=
  if failure.ambiguous then .recoveryRequired
  else if failure.error.providerHttpStatus = some 504 ∨
      timeoutPattern.test (Text.toUpperCase failure.error.code) then .timedOut
  else .failed

def targetState : InvocationState :=
  if failure.retries then .retryScheduled
  else if failure.finalizationOwnershipLost || failure.deadLetterDisposition then
    .recoveryRequired
  else failure.terminalStateForError

def reasonCode : Text :=
  match failure.targetState with
  | .retryScheduled => ascii "INVOCATION_RETRY_SCHEDULED"
  | .recoveryRequired =>
    if failure.deadLetterDisposition then ascii "SAFE_RETRY_ATTEMPTS_EXHAUSTED"
    else failure.recoveryReasonFor
  | .timedOut => ascii "INVOCATION_TIMED_OUT"
  | _ => ascii "INVOCATION_FAILED"

end RuntimeFailure

def failInvocation (options : LifecycleOptions) (currentState : InvocationState)
    (failure : RuntimeFailure) (now : Int) : Checked (Option Write) :=
  if activeStates.contains currentState then do
    let write ← transitionInvocation { options with reasonCode := some failure.reasonCode }
      { errorCode := some failure.error.code } currentState failure.targetState now
    pure (some write)
  else pure none

/-- What `markInvocationPolicyDenied` writes. -/
def markInvocationPolicyDenied (work : WorkItem) : Write where
  filter candidate :=
    isInvocationOf work candidate.toInvocation &&
      [.accepted, .validating, .authorized].contains candidate.lifecycleState
  update invocation :=
    { invocation with
      lifecycleState := .failed
      status := .failed
      errorCode := some (ascii "AUTHORIZATION_DENIED") }

def releaseApprovedInvocation (invocationId : Text) : Write where
  filter candidate :=
    candidate.id == invocationId && candidate.lifecycleState == .waitingForApproval
  update invocation := { invocation with lifecycleState := .authorized, status := .queued }

/-- What `prepareInvocationForSafeReplay` writes. -/
def prepareInvocationForSafeReplay (work : WorkItem) (input : ReplayInput)
    (current : Invocation) (now : Int) : Checked (Option Write) :=
  match replayDenial work input now current.toInvocation with
  | some _ => pure none
  | none => do
    let entries ← pathEntries
      ⟨now, some input.reasonCode, some (current.attemptCount + 1), work.traceId.or current.traceId⟩
      current.lifecycleState (replayPath current.lifecycleState)
    pure (some
      { filter := fun candidate =>
          replayFilter work input now current.toInvocation candidate.toInvocation
        update := fun invocation =>
          { invocation with
            toInvocation :=
              replayUpdate work current.lifecycleState entries invocation.toInvocation
            status := .queued
            errorCode := none
            recoveryReasonCode := none
            recoveryDecision := .notEvaluated
            recoveryDecisionReason := none
            stuckClassification := .notStuck
            lastProgressAt := some now
            version := invocation.version + 1 } })

/-- What `markInvocationRecoveryForWork` writes. -/
def markInvocationRecoveryForWork (work : WorkItem) (reason : RecoveryReason)
    (current : Invocation) (now : Int) : Checked Write := do
  let update ← transitionUpdate current.lifecycleState .recoveryRequired
    ⟨now, some (ascii reason.name), some work.attemptNumber, work.traceId⟩
  pure
    { filter := fun candidate =>
        isInvocationOf work candidate.toInvocation &&
          candidate.lifecycleState == current.lifecycleState
      update := fun invocation =>
        { update invocation with
          recoveryDecisionReason := some (ascii reason.name)
          stuckClassification := .outcomeAmbiguous } }

/-- `{ lifecycleState, executionGeneration, $or: [...] }` of work and its invocation. -/
def isUnchangedFor (work : WorkItem) (current candidate : Invocation) : Bool :=
  candidate.id == current.id &&
    candidate.receivingWorkspaceId == work.identity.receivingWorkspaceId &&
    candidate.connectionId == work.identity.connectionId &&
    unchangedFor work current.lifecycleState candidate.toInvocation

/-- What `terminalizeInvocationForDeadLetter` writes. -/
def terminalizeInvocationForDeadLetter (work : WorkItem) (current : Invocation) (now : Int) :
    Checked Write :=
  if [.failed, .timedOut].contains current.lifecycleState then
    pure
      { filter := isUnchangedFor work current
        update := fun invocation =>
          { invocation with retryState := .exhausted, version := invocation.version + 1 } }
  else do
    let update ← transitionUpdate current.lifecycleState .recoveryRequired
      ⟨now, some (ascii "SAFE_RETRY_ATTEMPTS_EXHAUSTED"), some (max 1 work.attemptNumber),
        work.traceId.or current.traceId⟩
    pure
      { filter := isUnchangedFor work current
        update := fun invocation =>
          { update invocation with
            recoveryDecisionReason := some (ascii "SAFE_RETRY_ATTEMPTS_EXHAUSTED")
            lastProgressAt := some now
            lastProgressStage := some .finalizationStarted } }

/-- What `reconcileTerminalWorkInvocation` writes. -/
def reconcileTerminalWorkInvocation (work : WorkItem) (current : Invocation) (now : Int) :
    Checked Write := do
  let toState := stateOfTerminalWork work.status
  let reason := reconciliationReason work toState
  let entries ← checkedPathEntries
    ⟨now, some reason, some (max 1 work.attemptNumber), work.traceId.or current.traceId⟩
    current.lifecycleState (reconciliationPath current.lifecycleState toState)
  pure
    { filter := isUnchangedFor work current
      update := fun invocation =>
        { invocation with
          toInvocation := reconciliationUpdate work toState entries invocation.toInvocation
          status := legacyStatusForState toState
          cancellationOutcome :=
            if toState = .cancelled then .localConfirmed else invocation.cancellationOutcome
          recoveryDecision :=
            if toState = .recoveryRequired then .operatorReviewRequired
            else invocation.recoveryDecision
          recoveryDecisionReason :=
            if toState = .recoveryRequired then some (ascii "REQUIRES_OPERATOR_REVIEW")
            else invocation.recoveryDecisionReason
          recoveryReasonCode :=
            if toState = .recoveryRequired then some reason else invocation.recoveryReasonCode
          lastProgressAt := some now
          version := invocation.version + 1 } }

/-- What `linkReconciledInvocationWork` writes. -/
def linkReconciledInvocationWork (work : WorkItem) (current : Invocation) : Write where
  filter candidate :=
    isReading current candidate && candidate.connectionId == current.connectionId &&
      [.accepted, .validating, .authorized].contains candidate.lifecycleState &&
      !cancellationStarted.contains candidate.cancellationState &&
      candidate.recoveryState != .required && candidate.protectedReplayAvailable &&
      candidate.executionGeneration == orOne work.executionGeneration &&
      linkedOrFree work candidate.toInvocation
  update invocation := { invocation with currentWorkItemId := some work.id }

end GhostBridge.InvocationControl
