import GhostBridge.DurableWork.Leases

/-!
# Recovery of work items

An attempt is repeated under a lease of its own: the item is set to `retry_preparing`, its
invocation is prepared, and the item is made claimable by the owner of that lease.
-/

namespace GhostBridge.DurableWork

open Ecma Machine

def replayPreparationOwnership : Flow Ownership := do
  let uuid ← randomUUID
  let leaseToken ← rawLeaseToken
  pure { leaseOwner := ascii "preparer:" ++ uuid, leaseToken := leaseToken }

def replayPreparationLeaseSet (env : Env) (ownership : Ownership) (now : Int) : LeaseFields :=
  newLease ownership.leaseOwner ownership.leaseToken now env.leaseMs

def replayPreparationFilter (work : WorkItem) (ownership : Ownership) (now : Int)
    (item : WorkItem) : Bool :=
  item.id == work.id && item.status == .retryPreparing && item.version == work.version &&
    item.lease.leaseOwner == some ownership.leaseOwner &&
    item.lease.leaseTokenHash == some (leaseTokenHash ownership.leaseToken) &&
    leaseLive now item.lease

def replayDenialStatus (reasonCode : Text) : WorkStatus :=
  if reasonCode = ascii "INVOCATION_CANCELLED" then .cancelled
  else if [ascii "INVOCATION_SAFE_REPLAY_NOT_PROVEN", ascii "INVOCATION_RETRY_NOT_SCHEDULED",
      ascii "INVOCATION_ATTEMPT_LIMIT_REACHED"].contains reasonCode then .failed
  else .recoveryRequired

def replayDenialUpdate (status : WorkStatus) (reasonCode : Text) (now : Int) (work : WorkItem) :
    WorkItem :=
  { work.versioned.unleased with
    status := status
    lastErrorCode := some reasonCode
    retryDecisionReason := some reasonCode
    recoveryReasonCode :=
      if status = .recoveryRequired then some .resultPersistenceUncertain
      else work.recoveryReasonCode
    times :=
      if status = .recoveryRequired then work.times else finalizeTimestamp status now work.times }

def replayDenialMetadata (status : WorkStatus) (reasonCode : Text) : SafeMetadata → SafeMetadata :=
  if status = .recoveryRequired then withRecoveryReason .resultPersistenceUncertain
  else withReason reasonCode

def terminalizeDenial (filter : WorkItem → Bool) (reasonCode : Text) (now : Int)
    (options : Options) : Flow (Option WorkItem) := do
  let status := replayDenialStatus reasonCode
  let item ← findOneAndUpdateWork filter (replayDenialUpdate status reasonCode now)
  match item with
  | none => pure none
  | some item =>
    outboxForWork item (terminalEvent status) (replayDenialMetadata status reasonCode) options
    pure (some item)

def terminalizeReplayPreparation (work : WorkItem) (ownership : Ownership) (reasonCode : Text)
    (now : Int) (options : Options) : Flow (Option WorkItem) :=
  terminalizeDenial (replayPreparationFilter work ownership now) reasonCode now options

/-- `inspected?.reasonCode || fallback`, for a preparation that was not allowed as asked. -/
def denialReason (preparation : ReplayPreparation) (fallback : Text) : Text :=
  match preparation with
  | .denied reasonCode => reasonCode
  | .allowed _ => fallback

def replayPreparationConflict : Text := ascii "INVOCATION_REPLAY_PREPARATION_CONFLICT"

def releaseUpdate (status : WorkStatus) (work : WorkItem) : WorkItem :=
  { work.versioned.unleased with status := status }

inductive Replayed where
  | released (item : WorkItem)
  /-- The invocation was not prepared, and the item was ended unless somebody else has it. -/
  | denied (reasonCode : Text) (item : Option WorkItem)
  | fenceLost

/-- What follows the update that took an item for its next attempt: the invocation is prepared,
and the item is released or ended. -/
def replayPrepared (preparing : WorkItem) (ownership : Ownership) (input : ReplayInput)
    (nextAttemptNumber : ℕ) (status : WorkStatus) (now : Int) (options : Options) :
    Flow Replayed := do
  let prepared ← prepareInvocationForSafeReplay preparing { input with dryRun := false } options
  if prepared = .allowed nextAttemptNumber then
    match ← findOneAndUpdateWork (replayPreparationFilter preparing ownership now)
        (releaseUpdate status) with
    | none => pure .fenceLost
    | some item => pure (.released item)
  else
    let reasonCode := denialReason prepared replayPreparationConflict
    let item ← terminalizeReplayPreparation preparing ownership reasonCode now options
    pure (.denied reasonCode item)

def retryDenied (reasonCode : Text) : Failure := .app .durableWorkRetryDenied (some reasonCode)

def retryUpdate (env : Env) (ownership : Ownership) (now availableAt : Int) (reason : Text)
    (lastErrorCode : Option Text) (nextAttemptNumber : ℕ) (work : WorkItem) : WorkItem :=
  { work.versioned with
    status := .retryPreparing
    availableAt := availableAt
    attemptNumber := nextAttemptNumber
    retryDecisionReason := some reason
    lease := replayPreparationLeaseSet env ownership now
    lastErrorCode := lastErrorCode.or work.lastErrorCode
    retryCount := work.retryCount + 1 }

def scheduleRetry (env : Env) (workItemId : Text) (ownership : Ownership)
    (errorCode : Option Text) (options : Options) : Flow WorkItem := do
  let now ← dateValue options.now
  match ← findOneWork (ownershipFilter workItemId ownership now [.claimed, .running]) with
  | none => throw leaseLost
  | some current =>
    let decision ← evaluateRetry current
    throwWhen (!decision.allowed) (retryDenied (decision.reason.getD (ascii "RETRY_DENIED")))
    throwWhen (decide (current.maximumAttempts ≤ current.attemptNumber))
      (retryDenied (ascii "MAX_ATTEMPTS_REACHED"))
    let reason ← orThrow (Failure.invalid "retryDecision.reason") decision.reason
    let delayMs := max 1 decision.delayMs
    throwWhen (decide (3600000 < delayMs)) (Failure.invalid "retryDecision.delayMs")
    let availableAt := now + delayMs
    let input : ReplayInput :=
      { now := some now, availableAt := some availableAt, reasonCode := reason }
    match ← prepareInvocationForSafeReplay current { input with dryRun := true } options with
    | .denied reasonCode => throw (retryDenied reasonCode)
    | .allowed nextAttemptNumber =>
      throwWhen (decide (nextAttemptNumber ≤ current.attemptNumber) ||
          decide (current.maximumAttempts < nextAttemptNumber))
        (retryDenied (ascii "DURABLE_ATTEMPT_MISMATCH"))
      let preparation ← replayPreparationOwnership
      let preparing ← findOneAndUpdateWork
        (fun work => ownershipFilter workItemId ownership now [.claimed, .running] work &&
          work.attemptNumber == current.attemptNumber &&
          decide (current.attemptNumber < work.maximumAttempts))
        (retryUpdate env preparation now availableAt reason errorCode nextAttemptNumber)
      match preparing with
      | none => throw leaseLost
      | some preparing =>
        match ← replayPrepared preparing preparation input nextAttemptNumber .retryScheduled now
            options with
        | .released item =>
          outboxForWork item .workRetryScheduled (withReason reason) options
          pure item
        | .denied reasonCode _ => throw (retryDenied reasonCode)
        | .fenceLost =>
          throw (.app .durableWorkFinalizationConflict
            (some (ascii "RETRY_PREPARATION_FENCE_LOST")))

def abandonedCasFilter (work : WorkItem) (cutoff : Int) (item : WorkItem) : Bool :=
  item.id == work.id && item.status == work.status && item.version == work.version &&
    leaseExpiredBy cutoff item.lease

structure AbandonedDecision where
  allowed : Bool := false
  cancelled : Bool := false
  deadLetter : Bool := false
  reason : Text

def safeRetryAttemptsExhausted : Text := ascii "SAFE_RETRY_ATTEMPTS_EXHAUSTED"

def abandonedRetryDecision (env : Env) (work : WorkItem) (classification : Classification) :
    AbandonedDecision :=
  if !classification.replayAllowed then
    { reason := ascii classification.recoveryReasonCode.name }
  else if work.status = .cancellationRequested ∨ work.cancellationRequestedAt.isSome then
    { cancelled := true, reason := ascii "INVOCATION_CANCELLED" }
  else if work.status = .retryPreparing then
    if work.retryDecisionReason = some safeRetryAttemptsExhausted then
      { deadLetter := true, reason := safeRetryAttemptsExhausted }
    else
      { allowed := true
        reason := work.retryDecisionReason.getD (ascii "LEASE_EXPIRED_BEFORE_TRANSMISSION") }
  else if min work.maximumAttempts env.deadLetterAfterAttempts ≤ work.retryCount then
    { deadLetter := true, reason := safeRetryAttemptsExhausted }
  else if work.maximumAttempts ≤ work.attemptNumber then
    { deadLetter := true, reason := safeRetryAttemptsExhausted }
  else { allowed := true, reason := ascii "LEASE_EXPIRED_BEFORE_TRANSMISSION" }

def terminalizeAbandonedReplayDenial (work : WorkItem) (cutoff : Int) (reasonCode : Text)
    (now : Int) (options : Options) : Flow (Option WorkItem) :=
  terminalizeDenial (abandonedCasFilter work cutoff) reasonCode now options

structure ScanResult where
  scanned : ℕ := 0
  safelyRecovered : ℕ := 0
  recoveryRequired : ℕ := 0
  deadLettered : ℕ := 0
  cancelled : ℕ := 0
  terminalReconciled : ℕ := 0
  conflicts : ℕ := 0
deriving DecidableEq

namespace ScanResult

def conflict (result : ScanResult) : ScanResult := { result with conflicts := result.conflicts + 1 }

def ended (result : ScanResult) : Option WorkItem → ScanResult
  | none => result.conflict
  | some item =>
    if item.status = .recoveryRequired then
      { result with recoveryRequired := result.recoveryRequired + 1 }
    else if item.status = .cancelled then { result with cancelled := result.cancelled + 1 }
    else { result with terminalReconciled := result.terminalReconciled + 1 }

end ScanResult

def endAbandoned (filter : WorkItem → Bool) (update : WorkItem → WorkItem)
    (eventType : OutboxEventType) (metadata : SafeMetadata → SafeMetadata)
    (count : ScanResult → ScanResult) (options : Options) (result : ScanResult) :
    Flow ScanResult := do
  match ← findOneAndUpdateWork filter update with
  | none => pure result.conflict
  | some item =>
    outboxForWork item eventType metadata options
    pure (count result)

def terminalAbandonedUpdate (status : WorkStatus) (now : Int) (work : WorkItem) : WorkItem :=
  { work.versioned.unleased with
    status := status, times := finalizeTimestamp status now work.times }

def reconcileAbandoned (work : WorkItem) (cutoff now : Int) (state : InvocationState)
    (options : Options) (result : ScanResult) : Flow ScanResult :=
  let status := statusOfTerminal state
  endAbandoned (abandonedCasFilter work cutoff) (terminalAbandonedUpdate status now)
    (terminalEvent status) (withReason resultPersistenceReconciled)
    (fun result => { result with terminalReconciled := result.terminalReconciled + 1 })
    options result

def abandonedRetryUpdate (env : Env) (ownership : Ownership) (now availableAt : Int)
    (reasonCode : Text) (recoveryReasonCode : RecoveryReason) (nextAttemptNumber : ℕ)
    (fromStatus : WorkStatus) (work : WorkItem) : WorkItem :=
  { work.versioned with
    status := .retryPreparing
    availableAt := availableAt
    attemptNumber := nextAttemptNumber
    retryDecisionReason := some reasonCode
    recoveryReasonCode := some recoveryReasonCode
    lease := replayPreparationLeaseSet env ownership now
    retryCount := work.retryCount + if fromStatus = .retryPreparing then 0 else 1 }

def replayAbandoned (env : Env) (work : WorkItem) (cutoff now : Int)
    (classification : Classification) (reasonCode : Text) (options : Options)
    (result : ScanResult) : Flow ScanResult := do
  let availableAt := if work.status = .retryPreparing then work.availableAt else now + 1
  let input : ReplayInput :=
    { now := some now
      availableAt := some availableAt
      reasonCode := reasonCode
      allowTerminalOverride := reasonCode == operatorRequeuePretransmission }
  let inspected ← prepareInvocationForSafeReplay work { input with dryRun := true } options
  match inspected with
  | .denied denial =>
    let terminal ← terminalizeAbandonedReplayDenial work cutoff denial now options
    pure (result.ended terminal)
  | .allowed nextAttemptNumber =>
    if work.maximumAttempts < nextAttemptNumber then
      let terminal ← terminalizeAbandonedReplayDenial work cutoff replayPreparationConflict now
        options
      pure (result.ended terminal)
    else
      let preparation ← replayPreparationOwnership
      let preparing ← findOneAndUpdateWork (abandonedCasFilter work cutoff)
        (abandonedRetryUpdate env preparation now availableAt reasonCode
          classification.recoveryReasonCode nextAttemptNumber work.status)
      match preparing with
      | none => pure result.conflict
      | some preparing =>
        match ← replayPrepared preparing preparation input nextAttemptNumber .pending now options with
        | .released item =>
          outboxForWork item .workAbandonedRecovered
            (withRecoveryReason classification.recoveryReasonCode) options
          pure { result with safelyRecovered := result.safelyRecovered + 1 }
        | .denied _ terminal => pure (result.ended terminal)
        | .fenceLost => pure result.conflict

def cancelAbandonedUpdate (reasonCode : Text) (now : Int) (work : WorkItem) : WorkItem :=
  { work.versioned.unleased with
    status := .cancelled
    times := { work.times with cancelledAt := some now }
    cancellationReasonCode := some reasonCode }

def cancelAbandoned (work : WorkItem) (cutoff now : Int) (options : Options) (result : ScanResult) :
    Flow ScanResult :=
  let reasonCode := work.cancellationReasonCode.getD (ascii "INVOCATION_CANCELLED")
  endAbandoned (abandonedCasFilter work cutoff) (cancelAbandonedUpdate reasonCode now)
    .workCancelled (withCancellationReason reasonCode)
    (fun result => { result with cancelled := result.cancelled + 1 }) options result

def deadLetterPreparingUpdate (env : Env) (ownership : Ownership) (now : Int) (work : WorkItem) :
    WorkItem :=
  { work.versioned with
    status := .retryPreparing
    lastErrorCode := some (ascii "DURABLE_WORK_LEASE_EXPIRED")
    retryDecisionReason := some safeRetryAttemptsExhausted
    recoveryReasonCode := some .safeRetryAttemptsExhausted
    lease := replayPreparationLeaseSet env ownership now }

def unresolvedDeadLetterUpdate (work : WorkItem) : WorkItem :=
  { work.versioned.unleased with
    status := .recoveryRequired
    recoveryReasonCode := some .resultPersistenceUncertain
    retryDecisionReason := some replayPreparationConflict }

def deadLetterUpdateOfWork (now : Int) (work : WorkItem) : WorkItem :=
  { work.versioned.unleased with
    status := .deadLettered
    times := { work.times with failedAt := some now, deadLetteredAt := some now } }

def deadLetterAbandoned (env : Env) (work : WorkItem) (cutoff now : Int) (options : Options)
    (result : ScanResult) : Flow ScanResult := do
  let preparation ← replayPreparationOwnership
  let preparing ← findOneAndUpdateWork (abandonedCasFilter work cutoff)
    (deadLetterPreparingUpdate env preparation now)
  match preparing with
  | none => pure result.conflict
  | some preparing =>
    let terminalized ← terminalizeInvocationForDeadLetter preparing now options
    if !terminalized then
      endAbandoned (replayPreparationFilter preparing preparation now) unresolvedDeadLetterUpdate
        .workRecoveryRequired (withRecoveryReason .resultPersistenceUncertain)
        (fun result => { result with recoveryRequired := result.recoveryRequired + 1 })
        options result
    else
      endAbandoned (replayPreparationFilter preparing preparation now) (deadLetterUpdateOfWork now)
        .workDeadLettered (withReason safeRetryAttemptsExhausted)
        (fun result => { result with deadLettered := result.deadLettered + 1 })
        options result

def recoveryAbandonedUpdate (recoveryReasonCode : RecoveryReason) (now : Int) (work : WorkItem) :
    WorkItem :=
  { work.versioned.unleased with
    status := .recoveryRequired
    times := { work.times with failedAt := some now }
    lastErrorCode := some (ascii "DURABLE_WORK_LEASE_EXPIRED")
    retryDecisionReason := some (ascii "REMOTE_OUTCOME_UNKNOWN")
    recoveryReasonCode := some recoveryReasonCode }

def recoverAbandoned (work : WorkItem) (cutoff now : Int) (recoveryReasonCode : RecoveryReason)
    (options : Options) (result : ScanResult) : Flow ScanResult := do
  match ← findOneAndUpdateWork (abandonedCasFilter work cutoff)
      (recoveryAbandonedUpdate recoveryReasonCode now) with
  | none => pure result.conflict
  | some recovery =>
    markInvocationRecoveryForWork recovery (ascii recoveryReasonCode.name) now options
    outboxForWork recovery .workRecoveryRequired (withRecoveryReason recoveryReasonCode) options
    pure { result with recoveryRequired := result.recoveryRequired + 1 }

def endedInvocation (classification : Classification) (state : Option InvocationState) :
    Option InvocationState :=
  state.filter fun state => terminalInvocationStates.contains state &&
    (classification.classification != .preTransmission || [.succeeded, .cancelled].contains state)

/-- One candidate of `scanAbandonedWork`. -/
def scanCandidate (env : Env) (cutoff now : Int) (options : Options) (result : ScanResult)
    (work : WorkItem) : Flow ScanResult := do
  let classification := classifyAbandonedWork work
  let terminalState ← invocationTerminalState work
  match endedInvocation classification terminalState with
  | some state => reconcileAbandoned work cutoff now state options result
  | none =>
    let decision := abandonedRetryDecision env work classification
    if decision.allowed && classification.replayAllowed then
      replayAbandoned env work cutoff now classification decision.reason options result
    else if decision.cancelled && classification.replayAllowed then
      cancelAbandoned work cutoff now options result
    else if decision.deadLetter && classification.replayAllowed then
      deadLetterAbandoned env work cutoff now options result
    else recoverAbandoned work cutoff now classification.recoveryReasonCode options result

/-- `{ leaseExpiresAt: 1, createdAt: 1, _id: 1 }`. -/
def byLeaseExpiry : DocumentOrder WorkItem := fun a b =>
  ((compareOption a.lease.leaseExpiresAt b.lease.leaseExpiresAt).then
    ((compare a.createdAt b.createdAt).then (compareText a.id b.id))) == .lt

def scanAbandonedWork (env : Env) (input : ScanInput) (graceMs : Option ℕ) (options : Options) :
    Flow ScanResult := do
  let now ← dateValue (input.now.or options.now)
  let graceMs := graceMs.getD env.abandonedGraceMs
  throwWhen (graceMs == 0 || decide (3600000 < graceMs)) (Failure.invalid "graceMs")
  let limit ← scanLimit env input.limit
  let cutoff := now - graceMs
  let candidates ← findWork
    (fun work => inTenant input.tenant work && ownedDurableWorkStatuses.contains work.status &&
      leaseExpiredBy cutoff work.lease)
    byLeaseExpiry limit
  candidates.foldlM (scanCandidate env cutoff now options) { scanned := candidates.length }

structure RequeueInput where
  identity : TenantIdentity
  workItemId : Text
  version : ℕ

def requeueDenied (reasonCode : Text) : Failure := .app .durableWorkRequeueDenied (some reasonCode)

def requeueUpdate (env : Env) (ownership : Ownership) (now : Int) (current : WorkItem)
    (nextAttemptNumber : ℕ) (work : WorkItem) : WorkItem :=
  { work.versioned with
    status := .retryPreparing
    availableAt := now
    attemptNumber := nextAttemptNumber
    times := { work.times with requeuedAt := some now, cancelledAt := none }
    retryCount := 0
    maximumAttempts := max current.maximumAttempts nextAttemptNumber
    retryDecisionReason := some operatorRequeuePretransmission
    recoveryReasonCode := some .workerTerminatedBeforeTransmission
    lease := replayPreparationLeaseSet env ownership now
    cancellationRequestedAt := none
    cancellationReasonCode := none
    requeueCount := work.requeueCount + 1 }

def requeueDeadLetter (env : Env) (input : RequeueInput) (options : Options) : Flow WorkItem := do
  let now ← dateValue options.now
  let found ← findOneWork fun work =>
    byId input.workItemId work && work.identity == input.identity && work.status == .deadLettered
  match found with
  | none => throw (.app .durableWorkNotFound)
  | some current =>
    throwWhen
      (!(classifyAbandonedWork current).replayAllowed || decide (1 ≤ current.requeueCount) ||
        decide (env.deadLetterAfterAttempts ≤ current.attemptNumber))
      (requeueDenied (ascii "SAFE_PRETRANSMISSION_REQUEUE_NOT_PROVEN"))
    let replay : ReplayInput :=
      { now := some now
        availableAt := some now
        maximumAttempts := some env.deadLetterAfterAttempts
        reasonCode := operatorRequeuePretransmission
        allowTerminalOverride := true }
    match ← prepareInvocationForSafeReplay current { replay with dryRun := true } options with
    | .denied reasonCode => throw (requeueDenied reasonCode)
    | .allowed nextAttemptNumber =>
      throwWhen (decide (env.deadLetterAfterAttempts < nextAttemptNumber))
        (requeueDenied (ascii "DURABLE_ATTEMPT_MISMATCH"))
      let preparation ← replayPreparationOwnership
      let preparing ← findOneAndUpdateWork
        (fun work => byId current.id work && work.identity == input.identity &&
          work.status == .deadLettered && work.version == input.version &&
          decide (work.requeueCount < 1))
        (requeueUpdate env preparation now current nextAttemptNumber)
      match preparing with
      | none => throw (requeueDenied (ascii "DEAD_LETTER_VERSION_CONFLICT"))
      | some preparing =>
        match ← replayPrepared preparing preparation replay nextAttemptNumber .pending now
            options with
        | .released item =>
          outboxForWork item .workRequeued (withReason operatorRequeuePretransmission) options
          pure item
        | .denied reasonCode _ => throw (requeueDenied reasonCode)
        | .fenceLost =>
          throw (.app .durableWorkFinalizationConflict
            (some (ascii "REQUEUE_PREPARATION_FENCE_LOST")))

end GhostBridge.DurableWork
