import GhostBridge.InvocationControl.Documents
import GhostBridge.InvocationControl.RecoveryPolicy

/-!
# Cancellation

What a request to cancel an invocation writes, and what the scan for stuck invocations and the
shutdown of the service write.
-/

namespace GhostBridge.InvocationControl

open Ecma DurableWork

/-- `PRE_TRANSMISSION_STAGES`, besides the absence of a stage. -/
def preTransmissionStages : List ProgressStage :=
  [.accepted, .validationStarted, .authorized, .executionClaimed, .requestMapped]

/-- `PRE_TRANSMISSION_STAGES.has(invocation.lastProgressStage)`. -/
def beforeTransmission (invocation : Invocation) : Bool :=
  invocation.lastProgressStage.all preTransmissionStages.contains

def cancelRecovery (current : Invocation) : Write where
  filter candidate :=
    isReading current candidate && candidate.lifecycleState == .recoveryRequired &&
      !([.confirmed, .outcomeUnknown].contains candidate.cancellationState) &&
      [.required, .notRequired].contains candidate.recoveryState
  update invocation :=
    { invocation with
      cancellationState := .outcomeUnknown
      cancellationOutcome := .remoteUnconfirmed
      recoveryState := .required
      recoveryDecision := .retryDenied
      recoveryDecisionReason := some (ascii "REMOTE_OUTCOME_UNKNOWN")
      version := invocation.version + 1 }

def cancelTransmitted (current : Invocation) (now : Int) (traceId : Option Text) :
    Checked Write := do
  let update ← transitionUpdate current.lifecycleState .recoveryRequired
    ⟨now, some (ascii "REMOTE_OUTCOME_UNKNOWN"), none, traceId⟩
  pure
    { filter := fun candidate =>
        isReading current candidate && candidate.lifecycleState == current.lifecycleState
      update := fun invocation =>
        { update invocation with
          cancellationState := .outcomeUnknown
          cancellationOutcome := .remoteUnconfirmed
          recoveryState := .required
          recoveryDecision := .retryDenied
          recoveryDecisionReason := some (ascii "REMOTE_OUTCOME_UNKNOWN")
          stuckClassification := .outcomeAmbiguous } }

def cancelLocally (current : Invocation) (reasonCode : Text) (now : Int) (traceId : Option Text) :
    Checked Write := do
  let update ← transitionUpdate current.lifecycleState .cancelled
    ⟨now, some reasonCode, none, traceId⟩
  pure
    { filter := fun candidate =>
        isReading current candidate && candidate.lifecycleState == current.lifecycleState
      update := fun invocation =>
        { update invocation with
          cancellationState := .confirmed
          cancellationOutcome := .localConfirmed
          recoveryState := .notRequired
          recoveryDecision := .notEvaluated } }

/-- What `requestCancellation` writes after its reading; none when it is rejected, or when the
invocation has been cancelled before. -/
def requestCancellation (current : Invocation) (now : Int) (traceId : Option Text) :
    Checked (Option Write) :=
  if terminalInvocationStates.contains current.lifecycleState then pure none
  else if [.confirmed, .outcomeUnknown].contains current.cancellationState then pure none
  else if current.lifecycleState = .recoveryRequired then
    if current.recoveryState = .retrying ∨ current.recoveryState = .resolved then pure none
    else pure (some (cancelRecovery current))
  else if current.lifecycleState = .waitingForRuntime ∨ beforeTransmission current = false then do
    let write ← cancelTransmitted current now traceId
    pure (some write)
  else do
    let write ← cancelLocally current (ascii "USER_REQUESTED") now traceId
    pure (some write)

structure ScanSettings where
  /-- `INVOCATION_STUCK_GRACE_MS`. -/
  stuckGraceMs : ℕ
  /-- `INVOCATION_FINALIZATION_GRACE_MS`. -/
  finalizationGraceMs : ℕ

def truthyTime (time : Option Int) : Option Int := time.filter (· ≠ 0)

def progressAt (invocation : Invocation) : Option Int :=
  (truthyTime invocation.lastProgressAt).or
    ((truthyTime (some invocation.updatedAt)).or (some invocation.createdAt))

def isOver (now : Int) (graceMs : ℕ) (time : Option Int) : Bool :=
  (truthyTime time).any fun time => decide (time + graceMs ≤ now)

def finalizationStages : List ProgressStage :=
  [.remoteResponseReceived, .responseValidationStarted, .finalizationStarted]

/-- The classification that `classifyStuckInvocation` returns. -/
def classifyStuckInvocation (settings : ScanSettings) (now : Int) (invocation : Invocation) :
    StuckClassification :=
  if terminalInvocationStates.contains invocation.lifecycleState ∨
      invocation.lifecycleState = .recoveryRequired then .notStuck
  else if invocation.recoveryReasonCode = some (ascii "SHUTDOWN_DURING_EXTERNAL_INVOCATION") then
    .shutdownInterrupted
  else if invocation.lastProgressStage.any finalizationStages.contains ∧
      (progressAt invocation).any (fun time =>
        decide (time + settings.finalizationGraceMs ≤ now)) then
    .finalizationStalled
  else if isOver now 0 invocation.executionLeaseExpiresAt then .leaseExpired
  else if invocation.lifecycleState = .waitingForRuntime ∧
      isOver now settings.stuckGraceMs invocation.runtimeDeadlineAt then .externalRuntimeOverdue
  else if invocation.lifecycleState ≠ .waitingForRuntime ∧ beforeTransmission invocation ∧
      isOver now settings.stuckGraceMs (progressAt invocation) then .staleBeforeRuntime
  else .notStuck

/-- What `scanClassificationOutcome` returns: the state, and the reason; none without a reason. -/
def scanClassificationOutcome (classification : StuckClassification)
    (lifecycleState : InvocationState) : Option (InvocationState × Text) :=
  match classification with
  | .staleBeforeRuntime =>
    some (if lifecycleState = .accepted then .cancelled else .failed,
      ascii "STALE_BEFORE_REMOTE_TRANSMISSION")
  | .externalRuntimeOverdue => some (.recoveryRequired, ascii "RUNTIME_DEADLINE_EXCEEDED")
  | .leaseExpired => some (.recoveryRequired, ascii "EXECUTION_LEASE_EXPIRED")
  | .finalizationStalled => some (.recoveryRequired, ascii "FINALIZATION_STALLED")
  | .shutdownInterrupted => some (.recoveryRequired, ascii "SHUTDOWN_DURING_EXTERNAL_INVOCATION")
  | .outcomeAmbiguous => some (.recoveryRequired, ascii "REMOTE_OUTCOME_UNKNOWN")
  | .notStuck => none

def stuckOutcome (targetState : InvocationState) : Outcome :=
  if targetState = .failed then
    { errorCode := some (ascii "INVOCATION_STUCK"), retryState := some .notAllowed }
  else {}

/-- `racePredicate`. -/
def unchangedSince (candidate invocation : Invocation) : Bool :=
  invocation.version == candidate.version &&
    invocation.lastProgressAt == candidate.lastProgressAt &&
    (candidate.lastProgressAt.isSome || invocation.updatedAt == candidate.updatedAt)

def markStuck (classification : StuckClassification) (targetState : InvocationState)
    (invocation : Invocation) : Invocation :=
  { invocation with
    stuckClassification := classification
    recoveryState :=
      if targetState = .recoveryRequired then .required else invocation.recoveryState
    recoveryDecision :=
      if targetState = .recoveryRequired then .operatorReviewRequired
      else invocation.recoveryDecision
    recoveryDecisionReason :=
      if targetState = .recoveryRequired then some (ascii "REQUIRES_OPERATOR_REVIEW")
      else invocation.recoveryDecisionReason
    cancellationState :=
      if targetState = .cancelled then .confirmed else invocation.cancellationState
    cancellationOutcome :=
      if targetState = .cancelled then .localConfirmed else invocation.cancellationOutcome }

/-- What `scanStuckInvocations` writes for one candidate. -/
def scanStuckInvocation (settings : ScanSettings) (candidate : Invocation) (now : Int)
    (traceId : Option Text) : Checked (Option Write) :=
  let classification := classifyStuckInvocation settings now candidate
  match scanClassificationOutcome classification candidate.lifecycleState with
  | none => pure none
  | some (targetState, reasonCode) => do
    let update ← transitionUpdate candidate.lifecycleState targetState
      ⟨now, some reasonCode, none, traceId⟩ (stuckOutcome targetState)
    pure (some
      { filter := fun invocation =>
          isReading candidate invocation &&
            invocation.lifecycleState == candidate.lifecycleState &&
            unchangedSince candidate invocation
        update := fun invocation => markStuck classification targetState (update invocation) })

def interruptByShutdown (current : Invocation) (now : Int) (traceId : Option Text) :
    Checked (Option Write) :=
  if activeStates.contains current.lifecycleState then do
    let update ← transitionUpdate current.lifecycleState .cancelled
      ⟨now, some (ascii "SERVICE_SHUTDOWN"), none, traceId⟩
    pure (some
      { filter := fun candidate =>
          isReading current candidate && candidate.lifecycleState == current.lifecycleState
        update := fun invocation =>
          { update invocation with
            cancellationState := .confirmed
            cancellationOutcome := .localConfirmed
            recoveryState := .notRequired } })
  else pure none

end GhostBridge.InvocationControl

/-!
## Recovery claims

An operator claims an invocation that waits for its recovery, and repeats it as a child invocation;
the claim ends with the outcome of the child, or it expires and the scan ends it. An operator may
also resolve the invocation by hand.
-/

namespace GhostBridge.InvocationControl

open Ecma DurableWork

def denyRetry (current : Invocation) (version : ℕ) (decision : PolicyDecision) : Write where
  filter candidate :=
    isReading current candidate && candidate.lifecycleState == .recoveryRequired &&
      !([.retrying, .resolved].contains candidate.recoveryState) && candidate.version == version
  update invocation :=
    { invocation with
      recoveryDecision := .retryDenied
      recoveryDecisionReason := some (ascii decision.reason.name)
      version := invocation.version + 1 }

def claimRetry (current : Invocation) (version : ℕ) (decision : PolicyDecision)
    (recoveryClaimId : Text) (expiresAt : Int) : Write where
  filter candidate :=
    isReading current candidate && candidate.lifecycleState == .recoveryRequired &&
      [.required, .notRequired].contains candidate.recoveryState && candidate.version == version
  update invocation :=
    { invocation with
      recoveryState := .retrying
      recoveryDecision := .retryAllowed
      recoveryDecisionReason := some (ascii decision.reason.name)
      recoveryClaimId := some recoveryClaimId
      recoveryClaimExpiresAt := some expiresAt
      recoveryChildInvocationId := none
      recoveryRetrySequence := invocation.recoveryRetrySequence + 1
      version := invocation.version + 1 }

/-- `recoveryClaimExpiresAt: { $gt: now }`. -/
def claimUnexpired (now : Int) (invocation : Invocation) : Bool :=
  invocation.recoveryClaimExpiresAt.any fun expiresAt => decide (now < expiresAt)

/-- `onInvocationCreated(childInvocationId)`. -/
def linkChild (claimed : Invocation) (recoveryClaimId childInvocationId : Text) (now : Int) :
    Write where
  filter candidate :=
    isReading claimed candidate && candidate.recoveryState == .retrying &&
      candidate.recoveryClaimId == some recoveryClaimId && claimUnexpired now candidate
  update invocation :=
    { invocation with
      recoveryChildInvocationId := some childInvocationId
      version := invocation.version + 1 }

def completeRetry (claimed : Invocation) (recoveryClaimId childInvocationId : Text) : Write where
  filter candidate :=
    candidate.id == claimed.id && candidate.recoveryState == .retrying &&
      candidate.recoveryClaimId == some recoveryClaimId &&
      candidate.recoveryChildInvocationId == some childInvocationId
  update invocation :=
    { invocation with
      recoveryState := .resolved
      recoveryChildInvocationId := some childInvocationId
      recoveryClaimId := none
      recoveryClaimExpiresAt := none
      version := invocation.version + 1 }

/-- How a retry has failed: the child that is known, whether its outcome is open, and the code of
the error. -/
structure RetryFailure where
  childInvocationId : Option Text
  /-- `error.recoveryRequired` or `error.lifecycleState` tell that the outcome is open. -/
  recoveryRequired : Bool
  childTransmitted : Bool
  reasonCode : Text

def RetryFailure.childRecoveryReason (failure : RetryFailure) : Text :=
  if failure.recoveryRequired then ascii "CHILD_REMOTE_OUTCOME_UNKNOWN"
  else ascii "CHILD_REMOTE_EXECUTION_OCCURRED"

def reopenRetry (claimed : Invocation) (recoveryClaimId : Text) (failure : RetryFailure) :
    Write where
  filter candidate :=
    candidate.id == claimed.id && candidate.recoveryState == .retrying &&
      candidate.recoveryClaimId == some recoveryClaimId
  update invocation :=
    let ambiguousChild := failure.recoveryRequired || failure.childTransmitted
    { invocation with
      recoveryState := .required
      recoveryDecision := if ambiguousChild then .operatorReviewRequired else .retryDenied
      recoveryDecisionReason :=
        some (if ambiguousChild then failure.childRecoveryReason else failure.reasonCode)
      recoveryChildInvocationId :=
        failure.childInvocationId.or invocation.recoveryChildInvocationId
      recoveryReasonCode :=
        if ambiguousChild then some failure.childRecoveryReason else invocation.recoveryReasonCode
      stuckClassification :=
        if ambiguousChild then .outcomeAmbiguous else invocation.stuckClassification
      recoveryClaimId := none
      recoveryClaimExpiresAt := none
      version := invocation.version + 1 }

/-- The claim is the one that was read, and nothing has been written since. The link to the child
is compared with the child that was found. -/
def isReadingOfClaim (parent : Invocation) (child : Option Text) (candidate : Invocation) : Bool :=
  isReading parent candidate && candidate.lifecycleState == .recoveryRequired &&
    candidate.recoveryState == .retrying &&
    candidate.recoveryClaimId == parent.recoveryClaimId &&
    candidate.recoveryClaimExpiresAt == parent.recoveryClaimExpiresAt &&
    candidate.recoveryChildInvocationId ==
      (if parent.recoveryChildInvocationId.isSome then child else none) &&
    candidate.version == parent.version

def isActive (invocation : Invocation) : Bool :=
  !terminalInvocationStates.contains invocation.lifecycleState &&
    invocation.lifecycleState != .recoveryRequired

def resolveExpiredClaim (parent : Invocation) (childId : Text) : Write where
  filter := isReadingOfClaim parent (some childId)
  update invocation :=
    { invocation with
      recoveryState := .resolved
      recoveryDecision := .retryAllowed
      recoveryDecisionReason := some (ascii "SAFE_RETRY_CHILD_SUCCEEDED")
      recoveryChildInvocationId := some childId
      recoveryClaimId := none
      recoveryClaimExpiresAt := none
      version := invocation.version + 1 }

def releaseClaim (decision : RecoveryDecision) (reason : Text) (childId : Option Text)
    (invocation : Invocation) : Invocation :=
  { invocation with
    recoveryState := .required
    recoveryDecision := decision
    recoveryDecisionReason := some reason
    recoveryChildInvocationId := childId.or invocation.recoveryChildInvocationId
    recoveryClaimId := none
    recoveryClaimExpiresAt := none
    version := invocation.version + 1 }

/-- `safeCode(child.error?.code, 'RECOVERY_CHILD_TERMINATED')`, for a code that is stored. -/
def childReason (child : Invocation) : Text :=
  child.errorCode.getD (ascii "RECOVERY_CHILD_TERMINATED")

def interruptedReason (child : Invocation) : Text :=
  if child.lifecycleState = .recoveryRequired ∨ transmissionEvidence child = .transmitted then
    ascii "CHILD_REMOTE_OUTCOME_UNKNOWN"
  else ascii "RECOVERY_CHILD_TERMINATED"

/-- What `scanStuckInvocations` writes for an expired claim, with the child that it has found; none
while the child is active. -/
def scanExpiredClaim (secret : Text) (connection : Option Connection) (parent : Invocation)
    (child : Option Invocation) : Option Write :=
  match child with
  | none =>
    let restored := recoveryPolicyDecision
      (controlContext secret { parent with recoveryState := .required } connection)
    some
      { filter := isReadingOfClaim parent none
        update := releaseClaim restored.action (ascii restored.reason.name) none }
  | some child =>
    if isActive child then none
    else if child.lifecycleState = .succeeded then some (resolveExpiredClaim parent child.id)
    else if child.lifecycleState ≠ .recoveryRequired ∧
        transmissionEvidence child = .notTransmitted then
      some
        { filter := isReadingOfClaim parent (some child.id)
          update := releaseClaim .retryDenied (childReason child) (some child.id) }
    else
      some
        { filter := isReadingOfClaim parent (some child.id)
          update := fun invocation =>
            { releaseClaim .operatorReviewRequired (interruptedReason child) (some child.id)
                invocation with
              recoveryReasonCode := some (interruptedReason child)
              stuckClassification := .outcomeAmbiguous } }

inductive Resolution where
  | failed
  | cancelled
deriving DecidableEq

namespace Resolution

def state : Resolution → InvocationState
  | .failed => .failed
  | .cancelled => .cancelled

/-- `expectedReason`. -/
def reason : Resolution → Text
  | .failed => ascii "OPERATOR_CONFIRMED_REMOTE_FAILURE"
  | .cancelled => ascii "OPERATOR_CONFIRMED_CANCELLED"

def decision : Resolution → RecoveryDecision
  | .failed => .resolveAsFailedAllowed
  | .cancelled => .resolveAsCancelledAllowed

end Resolution

/-- What `manualResolve` writes. -/
def manualResolve (current : Invocation) (resolution : Resolution) (version : ℕ) (now : Int)
    (traceId : Option Text) : Checked Write := do
  let update ← transitionUpdate .recoveryRequired resolution.state
    ⟨now, some resolution.reason, none, traceId⟩ { retryState := some .notAllowed }
  pure
    { filter := fun candidate =>
        isReading current candidate && candidate.lifecycleState == .recoveryRequired &&
          !([.retrying, .resolved].contains candidate.recoveryState) &&
          candidate.version == version
      update := fun invocation =>
        { update invocation with
          recoveryState := .resolved
          recoveryDecision := resolution.decision
          recoveryDecisionReason := some resolution.reason
          cancellationState :=
            if resolution = .cancelled then .confirmed else invocation.cancellationState
          cancellationOutcome :=
            if resolution = .cancelled then .remoteConfirmed else invocation.cancellationOutcome
          recoveryClaimExpiresAt := none } }

end GhostBridge.InvocationControl
