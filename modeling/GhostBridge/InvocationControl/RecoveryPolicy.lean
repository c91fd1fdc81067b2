import GhostBridge.Ecma.Regex
import GhostBridge.InvocationControl.Documents

/-!
# The policy of manual retries

Whether an operator may repeat an invocation whose outcome is open, from what its document and its
connection say.
-/

namespace GhostBridge.InvocationControl

open Ecma DurableWork

def nonRetryableCodes : List Text :=
  [ascii "AUTHENTICATION_REQUIRED", ascii "RUNTIME_AUTHENTICATION_FAILED",
    ascii "GEMINI_AUTHENTICATION_FAILED", ascii "FORBIDDEN", ascii "POLICY_DENIED",
    ascii "CAPABILITY_DISABLED", ascii "CAPABILITY_INPUT_INVALID",
    ascii "CAPABILITY_SCHEMA_INVALID", ascii "VALIDATION_ERROR", ascii "CREDENTIAL_REQUIRED",
    ascii "CREDENTIAL_EXPIRED", ascii "CREDENTIAL_VALIDATION_FAILED",
    ascii "ENCRYPTION_CONFIGURATION_INVALID", ascii "UNSAFE_URL"]

def preTransmissionReasons : List Text :=
  [ascii "STALE_BEFORE_REMOTE_TRANSMISSION", ascii "NO_REMOTE_TRANSMISSION"]

inductive TransmissionEvidence where
  | transmitted
  | notTransmitted
deriving DecidableEq

/-- What `recoveryPolicyDecision` is given. -/
structure PolicyInput where
  invocation : Invocation
  transmissionEvidence : TransmissionEvidence
  connectionStatus : Option Text := none
  connectionHealthState : Option Text := none
  circuitState : Option Text := none
  errorCode : Option Text := none
  remoteIdempotencySupported : Bool
  remoteIdempotencyAcknowledged : Bool
  replayInputAvailable : Bool
  idempotencyIdentityAvailable : Bool

inductive DecisionReason where
  | recoveryNotRequired
  | recoveryAlreadyClaimed
  | recoveryAlreadyResolved
  | invocationAlreadySucceeded
  | circuitNotAcceptingWork
  | connectionNotConnected
  | connectionNotHealthy
  | failureClassNotRetryable
  | remoteIdempotencyConfirmed
  | idempotencyIdentityNotAvailable
  | replayInputNotAvailable
  | remoteOutcomeUnknown
  | noRemoteTransmission
  | retrySafetyNotProven
deriving DecidableEq

def DecisionReason.name : DecisionReason → String
  | .recoveryNotRequired => "RECOVERY_NOT_REQUIRED"
  | .recoveryAlreadyClaimed => "RECOVERY_ALREADY_CLAIMED"
  | .recoveryAlreadyResolved => "RECOVERY_ALREADY_RESOLVED"
  | .invocationAlreadySucceeded => "INVOCATION_ALREADY_SUCCEEDED"
  | .circuitNotAcceptingWork => "CIRCUIT_NOT_ACCEPTING_WORK"
  | .connectionNotConnected => "CONNECTION_NOT_CONNECTED"
  | .connectionNotHealthy => "CONNECTION_NOT_HEALTHY"
  | .failureClassNotRetryable => "FAILURE_CLASS_NOT_RETRYABLE"
  | .remoteIdempotencyConfirmed => "REMOTE_IDEMPOTENCY_CONFIRMED"
  | .idempotencyIdentityNotAvailable => "IDEMPOTENCY_IDENTITY_NOT_AVAILABLE"
  | .replayInputNotAvailable => "REPLAY_INPUT_NOT_AVAILABLE"
  | .remoteOutcomeUnknown => "REMOTE_OUTCOME_UNKNOWN"
  | .noRemoteTransmission => "NO_REMOTE_TRANSMISSION"
  | .retrySafetyNotProven => "RETRY_SAFETY_NOT_PROVEN"

/-- What `recoveryPolicyDecision` returns: the action, and the reason for it. -/
inductive PolicyDecision where
  | retryAllowed (reason : DecisionReason)
  | retryDenied (reason : DecisionReason)
  | operatorReviewRequired (reason : DecisionReason)
deriving DecidableEq

namespace PolicyDecision

def action : PolicyDecision → RecoveryDecision
  | .retryAllowed _ => .retryAllowed
  | .retryDenied _ => .retryDenied
  | .operatorReviewRequired _ => .operatorReviewRequired

def reason : PolicyDecision → DecisionReason
  | .retryAllowed reason | .retryDenied reason | .operatorReviewRequired reason => reason

end PolicyDecision

def isPreTransmissionReason : Option Text → Bool
  | none => false
  | some reason => preTransmissionReasons.contains reason

def isOtherReason : Option Text → Bool
  | none => false
  | some reason => !reason.isEmpty && !preTransmissionReasons.contains reason

def outcomeUnknown (input : PolicyInput) : Bool :=
  input.invocation.cancellationState == .outcomeUnknown ||
    input.invocation.cancellationOutcome == .remoteUnconfirmed ||
    input.invocation.recoveryReasonCode == some (ascii "REMOTE_OUTCOME_UNKNOWN") ||
    input.invocation.recoveryReasonCode == some (ascii "REMOTE_OUTCOME_AMBIGUOUS") ||
    input.invocation.recoveryReasonCode == some (ascii "REMOTE_TIMEOUT_OUTCOME_AMBIGUOUS") ||
    isOtherReason input.invocation.recoveryReasonCode ||
    input.transmissionEvidence == .transmitted

def noRemoteTransmission (input : PolicyInput) : Bool :=
  input.transmissionEvidence == .notTransmitted ||
    isPreTransmissionReason input.invocation.recoveryReasonCode ||
    input.invocation.stuckClassification == .staleBeforeRuntime

def remoteIdempotencyConfirmed (input : PolicyInput) : Bool :=
  input.remoteIdempotencySupported && input.invocation.clientIdempotencyProvided &&
    input.remoteIdempotencyAcknowledged && input.replayInputAvailable &&
    input.idempotencyIdentityAvailable

/-- `input.errorCode || invocation.error?.code || ''`. -/
def errorCodeOf (input : PolicyInput) : Text :=
  match input.errorCode with
  | none | some [] => input.invocation.errorCode.getD []
  | some code => code

def retryDenial (input : PolicyInput) : Option DecisionReason :=
  if input.invocation.lifecycleState ≠ .recoveryRequired then some .recoveryNotRequired
  else if input.invocation.recoveryState = .retrying then some .recoveryAlreadyClaimed
  else if input.invocation.recoveryState = .resolved then some .recoveryAlreadyResolved
  else if input.invocation.lifecycleState = .succeeded ∨ input.invocation.status = .completed then
    some .invocationAlreadySucceeded
  else if input.circuitState = some (ascii "open") ∨
      input.circuitState = some (ascii "half_open") then
    some .circuitNotAcceptingWork
  else if input.connectionStatus.getD [] ≠ [] ∧
      input.connectionStatus ≠ some (ascii "connected") then
    some .connectionNotConnected
  else if input.connectionHealthState = some (ascii "unhealthy") ∨
      input.connectionHealthState = some (ascii "disabled") then
    some .connectionNotHealthy
  else if input.invocation.recoveryDecision = .retryDenied ∧
      nonRetryableCodes.contains
        (Text.toUpperCase (input.invocation.recoveryDecisionReason.getD [])) then
    some .failureClassNotRetryable
  else if nonRetryableCodes.contains (Text.toUpperCase (errorCodeOf input)) then
    some .failureClassNotRetryable
  else none

def resendDenial (input : PolicyInput) : Option DecisionReason :=
  if !input.idempotencyIdentityAvailable then some .idempotencyIdentityNotAvailable
  else if !input.replayInputAvailable then some .replayInputNotAvailable
  else none

def recoveryPolicyDecision (input : PolicyInput) : PolicyDecision :=
  match retryDenial input with
  | some reason => .retryDenied reason
  | none =>
    if outcomeUnknown input then
      if remoteIdempotencyConfirmed input then .retryAllowed .remoteIdempotencyConfirmed
      else .retryDenied ((resendDenial input).getD .remoteOutcomeUnknown)
    else if noRemoteTransmission input then
      match resendDenial input with
      | some reason => .retryDenied reason
      | none => .retryAllowed .noRemoteTransmission
    else .operatorReviewRequired .retrySafetyNotProven

theorem lifecycleState_of_retryDenial {input : PolicyInput} (h : retryDenial input = none) :
    input.invocation.lifecycleState = .recoveryRequired := by
  by_contra hstate
  rw [retryDenial, if_pos hstate] at h
  cases h

theorem recoveryPolicyDecision_retryAllowed {input : PolicyInput} {reason : DecisionReason}
    (h : recoveryPolicyDecision input = .retryAllowed reason) :
    input.invocation.lifecycleState = .recoveryRequired ∧
      (outcomeUnknown input = true ∧ remoteIdempotencyConfirmed input = true ∧
          reason = .remoteIdempotencyConfirmed ∨
        outcomeUnknown input = false ∧ reason = .noRemoteTransmission) := by
  unfold recoveryPolicyDecision at h
  split at h
  · cases h
  next hdenial =>
    refine ⟨lifecycleState_of_retryDenial hdenial, ?_⟩
    split at h
    next hunknown =>
      split at h
      next hconfirmed =>
        cases h
        exact .inl ⟨hunknown, hconfirmed, rfl⟩
      · cases h
    next hknown =>
      split at h
      · split at h
        · cases h
        · cases h
          exact .inr ⟨by simpa using hknown, rfl⟩
      · cases h

/-- The fields of a `PassportConnection` that control reads. -/
structure Connection where
  status : Option Text
  healthStatus : Option Text
  /-- `runtimeControl.remoteIdempotencySupported === true`. -/
  remoteIdempotencySupported : Bool

def hasEnteredRuntime (invocation : Invocation) : Bool :=
  invocation.stateHistory.any fun entry => entry.toState == .waitingForRuntime

def transmissionStages : List ProgressStage :=
  [.outboundRequestStarted, .remoteResponseReceived, .responseValidationStarted,
    .finalizationStarted]

def transmissionEvidence (invocation : Invocation) : TransmissionEvidence :=
  if hasEnteredRuntime invocation ||
      invocation.lastProgressStage.any transmissionStages.contains then .transmitted
  else .notTransmitted

def replayInputAvailable (secret : Text) (invocation : Invocation) : Bool :=
  invocation.protectedReplayAvailable ||
    match invocation.requestFingerprint with
    | none => false
    | some fingerprint =>
      !fingerprint.isEmpty && !invocation.inputSummary.isUndefined &&
        match createInvocationIdempotency secret []
          { clientKey := some (ascii "recovery-fingerprint-verification")
            connectionId := invocation.connectionId
            capability := invocation.capability
            input := invocation.inputSummary } with
        | .ok idempotency => fingerprint == idempotency.requestFingerprint
        | .error _ => false

private def lowerHexDigit : Regex := .oneOf (ascii "0123456789abcdef")

/-- `/^(?:sha256|hmac-sha256):[a-f0-9]{64}$/`. -/
def keyHashPattern : Regex :=
  .sequence [.option (.literal (ascii "hmac-")), .literal (ascii "sha256:"),
    .sequence (List.replicate 64 lowerHexDigit)]

def controlContext (secret : Text) (invocation : Invocation) (connection : Option Connection) :
    PolicyInput where
  invocation := invocation
  transmissionEvidence := transmissionEvidence invocation
  connectionStatus := connection.bind Connection.status
  connectionHealthState := connection.bind Connection.healthStatus
  remoteIdempotencySupported := connection.any Connection.remoteIdempotencySupported
  remoteIdempotencyAcknowledged := connection.any Connection.remoteIdempotencySupported
  replayInputAvailable := replayInputAvailable secret invocation
  idempotencyIdentityAvailable := keyHashPattern.accepts (invocation.idempotencyKeyHash.getD [])

end GhostBridge.InvocationControl
