import GhostBridge.DurableWork.Invocations

/-!
# Leases of work items

Work is enqueued once, claimed under a lease, and worked on by the owner of the lease: each
operation of the owner presents the token of the lease, and passes only while the lease has not
expired.
-/

namespace GhostBridge.DurableWork

open Ecma Machine

/-- What `claimNextWork` returns to the owner of a lease. -/
structure Ownership where
  leaseOwner : Text
  leaseToken : Text
  leaseEpoch : Option ℕ := none
deriving DecidableEq

/-- `leaseExpiresAt: { $gt: now }`. -/
def leaseLive (now : Int) (lease : LeaseFields) : Bool :=
  match lease.leaseExpiresAt with
  | none => false
  | some expiresAt => decide (now < expiresAt)

/-- `leaseExpiresAt: { $lte: cutoff }`. -/
def leaseExpiredBy (cutoff : Int) (lease : LeaseFields) : Bool :=
  match lease.leaseExpiresAt with
  | none => false
  | some expiresAt => decide (expiresAt ≤ cutoff)

/-- `$or: [{ $exists: false }, null, { $lte: now }]` of `leaseExpiresAt`. -/
def leaseFree (now : Int) (lease : LeaseFields) : Bool :=
  match lease.leaseExpiresAt with
  | none => true
  | some expiresAt => decide (expiresAt ≤ now)

def newLease (owner token : Text) (now : Int) (leaseMs : ℕ) : LeaseFields where
  leaseOwner := some owner
  leaseTokenHash := some (leaseTokenHash token)
  leaseAcquiredAt := some now
  leaseExpiresAt := some (now + leaseMs)
  lastHeartbeatAt := some now

def ownershipFilter (workItemId : Text) (ownership : Ownership) (now : Int)
    (statuses : List WorkStatus := ownedDurableWorkStatuses) (work : WorkItem) : Bool :=
  work.id == workItemId && statuses.contains work.status &&
    work.lease.leaseOwner == some ownership.leaseOwner &&
    work.lease.leaseTokenHash == some (leaseTokenHash ownership.leaseToken) &&
    leaseLive now work.lease &&
    (match ownership.leaseEpoch with
      | none => true
      | some epoch => work.leaseEpoch == epoch)

def leaseLost : Failure := .app .durableWorkLeaseLost (some (ascii "LEASE_OWNERSHIP_MISMATCH"))

/-- `integer(leaseMs, 'leaseMs', { minimum: heartbeatMs * 3, maximum: 3_600_000 })`. -/
def checkLeaseMs (env : Env) (leaseMs : Option ℕ) : Checked ℕ :=
  let leaseMs := leaseMs.getD env.leaseMs
  if env.heartbeatMs * 3 ≤ leaseMs && leaseMs ≤ 3600000 then pure leaseMs
  else throw (.invalid "leaseMs")

def WorkItem.unleased (work : WorkItem) : WorkItem := { work with lease := {} }

/-- `$inc: { version: 1 }`. -/
def WorkItem.versioned (work : WorkItem) : WorkItem := { work with version := work.version + 1 }

structure EnqueueInput where
  identity : TenantIdentity
  invocationId : Text
  workType : WorkType := .runtimeInvocation
  executionGeneration : ℕ := 1
  traceId : Option Text := none
  status : WorkStatus := .pending
  attemptNumber : ℕ := 1
  priority : Int := 0
  availableAt : Option Int := none
  retryCount : ℕ := 0
  maximumAttempts : Option ℕ := none
  retryDecisionReason : Option Text := none
  recoveryReasonCode : Option RecoveryReason := none

/-- `deterministicDedupeKey` of the input. -/
def EnqueueInput.dedupeKey (input : EnqueueInput) : Text :=
  deterministicDedupeKey input.identity input.invocationId input.executionGeneration input.workType

/-- `enqueueDocument(input, now)`; the database gives it its identifier. -/
def enqueueDocument (env : Env) (input : EnqueueInput) (now : Int) : Checked WorkItem := do
  let maximumAttempts := input.maximumAttempts.getD env.maxAttempts
  throwWhen
    (!((.waitingForApproval :: claimableDurableWorkStatuses).contains input.status))
    (.invalid "status")
  throwWhen (input.executionGeneration == 0) (.invalid "executionGeneration")
  throwWhen (maximumAttempts == 0 || decide (env.deadLetterAfterAttempts < maximumAttempts))
    (.invalid "maximumAttempts")
  throwWhen (input.attemptNumber == 0) (.invalid "attemptNumber")
  throwWhen (decide (input.priority < -100) || decide (100 < input.priority)) (.invalid "priority")
  throwWhen (decide (maximumAttempts < input.attemptNumber)) (.invalid "attemptNumber")
  pure
    { id := []
      identity := input.identity
      invocationId := input.invocationId
      workType := input.workType
      executionGeneration := input.executionGeneration
      dedupeKey := input.dedupeKey
      traceId := input.traceId
      status := input.status
      attemptNumber := input.attemptNumber
      maximumAttempts := maximumAttempts
      retryCount := input.retryCount
      priority := input.priority
      availableAt := input.availableAt.getD now
      createdAt := now
      retryDecisionReason := input.retryDecisionReason
      recoveryReasonCode := input.recoveryReasonCode
      updatedAt := now }

structure InitialClaim where
  leaseOwner : Text
  leaseMs : Option ℕ := none

def claimedDocument (document : WorkItem) (owner token : Text) (now : Int) (leaseMs : ℕ) :
    WorkItem :=
  { document with
    status := .claimed
    lease := newLease owner token now leaseMs
    leaseEpoch := 1
    times := { document.times with claimedAt := some now }
    safeStage := some .workClaimed
    milestones := [⟨.workClaimed, now, document.attemptNumber, .completed⟩]
    version := 1 }

structure Enqueued where
  created : Bool
  workItem : WorkItem
  ownership : Option Ownership := none

def initialDocument (env : Env) (document : WorkItem) (now : Int) :
    Option InitialClaim → Flow (WorkItem × Option Ownership)
  | none => pure (document, none)
  | some claim => do
    let leaseMs ← checkLeaseMs env claim.leaseMs
    let leaseToken ← rawLeaseToken
    pure (claimedDocument document claim.leaseOwner leaseToken now leaseMs,
      some ⟨claim.leaseOwner, leaseToken, some 1⟩)

def enqueueWork (env : Env) (input : EnqueueInput) (options : Options)
    (initialClaim : Option InitialClaim) : Flow Enqueued := do
  let now ← dateValue options.now
  let document ← enqueueDocument env input now
  assertOperationalAccess
  let (document, initialOwnership) ← initialDocument env document now initialClaim
  let created ← tryCatch (insertWork document) fun error =>
    if error = .duplicateKey then pure false else throw error
  match ← findOneWork fun work => work.dedupeKey == document.dedupeKey with
  | none => throw (.app .durableWorkReconciliationFailed)
  | some item =>
    outboxForWork item .workEnqueued id options
    if created && initialOwnership.isSome then outboxForWork item .workClaimed id options
    pure ⟨created, item, if created then initialOwnership else none⟩

def claimFilter (now : Int) (work : WorkItem) : Bool :=
  claimableDurableWorkStatuses.contains work.status && decide (work.availableAt ≤ now) &&
    work.cancellationRequestedAt.isNone && leaseFree now work.lease &&
    decide (work.attemptNumber ≤ work.maximumAttempts)

def claimUpdate (owner token : Text) (now : Int) (leaseMs : ℕ) (work : WorkItem) : WorkItem :=
  { work.versioned with
    status := .claimed
    lease := newLease owner token now leaseMs
    leaseEpoch := work.leaseEpoch + 1
    times := { work.times with claimedAt := some now }
    safeStage := some .workClaimed }

/-- `{ priority: -1, availableAt: 1, createdAt: 1, _id: 1 }`. -/
def claimOrder : DocumentOrder WorkItem := fun a b =>
  ((compare b.priority a.priority).then ((compare a.availableAt b.availableAt).then
    ((compare a.createdAt b.createdAt).then (compareText a.id b.id)))) == .lt

def finalizeTimestamp (status : WorkStatus) (now : Int) (times : WorkTimes) : WorkTimes :=
  match status with
  | .completed => { times with completedAt := some now }
  | .cancelled => { times with cancelledAt := some now }
  | .deadLettered => { times with deadLetteredAt := some now, failedAt := some now }
  | _ => { times with failedAt := some now }

def terminalEvent : WorkStatus → OutboxEventType
  | .completed => .workCompleted
  | .cancelled => .workCancelled
  | .recoveryRequired => .workRecoveryRequired
  | .deadLettered => .workDeadLettered
  | _ => .workFailed

def resultPersistenceReconciled : Text := ascii "RESULT_PERSISTENCE_RECONCILED"

def denialUpdate (status : WorkStatus) (reasonCode : Text) (now : Int) (work : WorkItem) :
    WorkItem :=
  { work.versioned.unleased with
    status := status
    times := finalizeTimestamp status now work.times
    lastErrorCode := if status = .completed then none else some reasonCode }

def rejectInvalidClaim (work : WorkItem) (ownership : Ownership) (decision : ClaimDenial)
    (now : Int) (options : Options) : Flow Unit := do
  let status := decision.workStatus.getD (if decision.cancelled then .cancelled else .failed)
  let updated ← findOneAndUpdateWork (ownershipFilter work.id ownership now [.claimed])
    (denialUpdate status decision.reasonCode now)
  match updated with
  | none => pure ()
  | some updated =>
    outboxForWork updated (terminalEvent status)
      (withReason
        (if status = .completed then resultPersistenceReconciled else decision.reasonCode))
      options

def addMilestone (milestone : Milestone) (work : WorkItem) : WorkItem :=
  { work.versioned with milestones := work.milestones ++ [milestone] }

def ensureClaimMilestone (work : WorkItem) (ownership : Ownership) (now : Int) :
    Flow WorkItem := do
  let attemptNumber := work.attemptNumber
  let updated ← findOneAndUpdateWork
    (fun item => ownershipFilter work.id ownership now [.claimed] item &&
      !item.hasMilestone .workClaimed attemptNumber)
    (addMilestone ⟨.workClaimed, now, attemptNumber, .completed⟩)
  match updated with
  | some item => pure item
  | none =>
    let item ← findOneWork fun item => ownershipFilter work.id ownership now [.claimed] item &&
      item.hasMilestone .workClaimed attemptNumber
    match item with
    | some item => pure item
    | none => throw leaseLost

structure Claimed where
  workItem : WorkItem
  ownership : Ownership

def claimDecision (work : WorkItem) (options : Options) : Flow (Option ClaimDenial) :=
  if options.verifyInvocation then invocationPermitsClaim work else pure none

def settleClaim (item : WorkItem) (ownership : Ownership) (now : Int) (options : Options) :
    Flow (Option Claimed) := do
  let item ← ensureClaimMilestone item ownership now
  match ← claimDecision item options with
  | some decision =>
    rejectInvalidClaim item ownership decision now options
    pure none
  | none =>
    outboxForWork item .workClaimed id options
    pure (some ⟨item, ownership⟩)

/-- The loop of `claimNextWork` over its candidates. -/
def claimCandidates (leaseOwner : Text) (now : Int) (leaseMs : ℕ) (options : Options) :
    ℕ → Flow (Option Claimed)
  | 0 => pure none
  | candidates + 1 => do
    let leaseToken ← rawLeaseToken
    let item ← findOneAndUpdateWork (claimFilter now) (claimUpdate leaseOwner leaseToken now leaseMs)
      claimOrder
    match item with
    | none => pure none
    | some item =>
      match ← settleClaim item ⟨leaseOwner, leaseToken, some item.leaseEpoch⟩ now options with
      | some claimed => pure (some claimed)
      | none => claimCandidates leaseOwner now leaseMs options candidates

structure ClaimInput where
  leaseOwner : Text
  leaseMs : Option ℕ := none
  now : Option Int := none

def claimNextWork (env : Env) (input : ClaimInput) (options : Options)
    (maximumCandidates : Option ℕ) : Flow (Option Claimed) := do
  let now ← dateValue (input.now.or options.now)
  let leaseMs ← checkLeaseMs env input.leaseMs
  let candidates := maximumCandidates.getD env.workerBatchSize
  throwWhen (candidates == 0 || decide (100 < candidates)) (Failure.invalid "maximumCandidates")
  claimCandidates input.leaseOwner now leaseMs options candidates

def claimWorkById (env : Env) (workItemId : Text) (input : ClaimInput) (options : Options) :
    Flow (Option Claimed) := do
  let now ← dateValue (input.now.or options.now)
  let leaseMs ← checkLeaseMs env input.leaseMs
  let leaseToken ← rawLeaseToken
  let item ← findOneAndUpdateWork (fun work => byId workItemId work && claimFilter now work)
    (claimUpdate input.leaseOwner leaseToken now leaseMs)
  match item with
  | none => pure none
  | some item => settleClaim item ⟨input.leaseOwner, leaseToken, some item.leaseEpoch⟩ now options

def startUpdate (now : Int) (work : WorkItem) : WorkItem :=
  { work.versioned with
    status := .running
    times := { work.times with startedAt := some now }
    lease := { work.lease with lastHeartbeatAt := some now } }

def startWork (workItemId : Text) (ownership : Ownership) (options : Options) : Flow WorkItem := do
  let now ← dateValue options.now
  let item ← findOneAndUpdateWork
    (fun work => ownershipFilter workItemId ownership now [.claimed] work &&
      work.cancellationRequestedAt.isNone)
    (startUpdate now)
  match item with
  | none => throw leaseLost
  | some item =>
    outboxForWork item .workStarted id options
    pure item

def heartbeatUpdate (now : Int) (leaseMs : ℕ) (work : WorkItem) : WorkItem :=
  { work.versioned with
    lease := { work.lease with
      lastHeartbeatAt := some now
      leaseExpiresAt := some (now + leaseMs) } }

def heartbeatWork (env : Env) (workItemId : Text) (ownership : Ownership) (leaseMs : Option ℕ)
    (options : Options) : Flow WorkItem := do
  let now ← dateValue options.now
  let leaseMs ← checkLeaseMs env leaseMs
  let item ← findOneAndUpdateWork (ownershipFilter workItemId ownership now)
    (heartbeatUpdate now leaseMs)
  match item with
  | none => throw leaseLost
  | some item => pure item

structure MilestoneInput where
  name : WorkMilestone
  attemptNumber : ℕ
  safeStatus : MilestoneStatus := .completed
  /-- `input.at`. -/
  recordedAt : Option Int := none

/-- `safeStage: { $in: nonRegressingStages }`. -/
def stageUpTo (name : WorkMilestone) (work : WorkItem) : Bool :=
  match work.safeStage with
  | none => false
  | some stage => decide (stage.index ≤ name.index)

def milestoneUpdate (milestone : Milestone) (work : WorkItem) : WorkItem :=
  { addMilestone milestone work with safeStage := some milestone.name }

def recordMilestone (workItemId : Text) (ownership : Ownership) (input : MilestoneInput)
    (options : Options) : Flow WorkItem := do
  let now ← dateValue (input.recordedAt.or options.now)
  throwWhen (input.attemptNumber == 0) (Failure.invalid "milestone.attemptNumber")
  let item ← findOneAndUpdateWork
    (fun work => ownershipFilter workItemId ownership now ownedDurableWorkStatuses work &&
      work.attemptNumber == input.attemptNumber && stageUpTo input.name work &&
      !work.hasMilestone input.name input.attemptNumber)
    (milestoneUpdate ⟨input.name, now, input.attemptNumber, input.safeStatus⟩)
  match item with
  | some item => pure item
  | none =>
    let existing ← findOneWork fun work =>
      ownershipFilter workItemId ownership now ownedDurableWorkStatuses work &&
        work.attemptNumber == input.attemptNumber &&
        work.hasMilestone input.name input.attemptNumber
    match existing with
    | none => throw leaseLost
    | some item => pure item

structure FinalizeInput where
  status : WorkStatus
  lastErrorCode : Option Text := none
  retryDecisionReason : Option Text := none
  recoveryReasonCode : Option RecoveryReason := none

def finalizeFilter (workItemId : Text) (ownership : Ownership) (now : Int) (status : WorkStatus)
    (work : WorkItem) : Bool :=
  if status = .completed then
    ownershipFilter workItemId ownership now [.claimed, .running] work &&
      work.hasMilestone .invocationPersisted work.attemptNumber
  else ownershipFilter workItemId ownership now ownedDurableWorkStatuses work

def finalizeUpdate (input : FinalizeInput) (now : Int) (work : WorkItem) : WorkItem :=
  { work.versioned.unleased with
    status := input.status
    times := finalizeTimestamp input.status now work.times
    lastErrorCode := input.lastErrorCode.or work.lastErrorCode
    retryDecisionReason := input.retryDecisionReason.or work.retryDecisionReason
    recoveryReasonCode := input.recoveryReasonCode.or work.recoveryReasonCode }

/-- The metadata of the event of `finalizeWork`. -/
def finalizeMetadata (input : FinalizeInput) (metadata : SafeMetadata) : SafeMetadata :=
  { metadata with
    reasonCode := input.lastErrorCode
    recoveryReasonCode := input.recoveryReasonCode }

def finalizeWork (workItemId : Text) (ownership : Ownership) (input : FinalizeInput)
    (options : Options) : Flow WorkItem := do
  throwWhen (!terminalDurableWorkStatuses.contains input.status)
    (Failure.invalid "finalization.status")
  let now ← dateValue options.now
  throwWhen (input.status == .recoveryRequired && input.recoveryReasonCode.isNone)
    (Failure.invalid "recoveryReasonCode")
  let item ← findOneAndUpdateWork (finalizeFilter workItemId ownership now input.status)
    (finalizeUpdate input now)
  match item with
  | none =>
    throw (.app .durableWorkFinalizationConflict (some (ascii "FINALIZATION_OWNERSHIP_MISMATCH")))
  | some item =>
    outboxForWork item (terminalEvent input.status) (finalizeMetadata input) options
    pure item

def deadLetterWork (workItemId : Text) (ownership : Ownership) (reasonCode : Option Text)
    (options : Options) : Flow WorkItem := do
  let now ← dateValue options.now
  match ← findOneWork (ownershipFilter workItemId ownership now) with
  | none => throw leaseLost
  | some current =>
    let classification := classifyAbandonedWork current
    let lastErrorCode := some (reasonCode.getD (ascii "DURABLE_WORK_EXECUTION_FAILED"))
    if !classification.replayAllowed then
      finalizeWork workItemId ownership
        { status := .recoveryRequired
          lastErrorCode := lastErrorCode
          retryDecisionReason := some (ascii "REMOTE_OUTCOME_UNKNOWN")
          recoveryReasonCode := some classification.recoveryReasonCode }
        options
    else
      finalizeWork workItemId ownership
        { status := .deadLettered
          lastErrorCode := lastErrorCode
          retryDecisionReason := some (ascii "SAFE_RETRY_ATTEMPTS_EXHAUSTED")
          recoveryReasonCode := some .safeRetryAttemptsExhausted }
        options

structure CancellationInput where
  identity : TenantIdentity
  workItemId : Option Text := none
  invocationId : Option Text := none
  reasonCode : Text

def cancellationTenantFilter (input : CancellationInput) (work : WorkItem) : Bool :=
  work.identity == input.identity &&
    (match input.workItemId with
      | none => true
      | some id => work.id == id) &&
    (match input.invocationId with
      | none => true
      | some id => work.invocationId == id)

/-- `{ createdAt: -1 }`. -/
def newestFirst : DocumentOrder WorkItem := fun a b => decide (b.createdAt < a.createdAt)

def cancelUpdate (reasonCode : Text) (now : Int) (work : WorkItem) : WorkItem :=
  { work.versioned with
    status := .cancelled
    cancellationRequestedAt := some now
    cancellationReasonCode := some reasonCode
    times := { work.times with cancelledAt := some now } }

def requestCancellationUpdate (reasonCode : Text) (now : Int) (work : WorkItem) : WorkItem :=
  { work.versioned with
    status := .cancellationRequested
    cancellationRequestedAt := some now
    cancellationReasonCode := some reasonCode }

/-- What `requestWorkCancellation` does about work that it cannot cancel any more. -/
def settledCancellation (input : CancellationInput) (options : Options) : Flow WorkItem := do
  let item ← findOneWork
    (fun work => cancellationTenantFilter input work &&
      (.cancellationRequested :: terminalDurableWorkStatuses).contains work.status)
    newestFirst
  match item with
  | none => throw (.app .durableWorkNotFound)
  | some item =>
    if [.cancellationRequested, .cancelled].contains item.status then
      outboxForWork item
        (if item.status = .cancelled then .workCancelled else .workCancellationRequested)
        (withCancellationReason (item.cancellationReasonCode.getD input.reasonCode)) options
    pure item

def requestWorkCancellation (input : CancellationInput) (options : Options) : Flow WorkItem := do
  throwWhen (input.workItemId.isNone && input.invocationId.isNone) (Failure.invalid "workItemId")
  let now ← dateValue options.now
  let cancelled ← findOneAndUpdateWork
    (fun work => cancellationTenantFilter input work &&
      claimableDurableWorkStatuses.contains work.status)
    (cancelUpdate input.reasonCode now) newestFirst
  match cancelled with
  | some item =>
    outboxForWork item .workCancelled (withCancellationReason input.reasonCode) options
    pure item
  | none =>
    let requested ← findOneAndUpdateWork
      (fun work => cancellationTenantFilter input work &&
        [.claimed, .running, .retryPreparing].contains work.status)
      (requestCancellationUpdate input.reasonCode now) newestFirst
    match requested with
    | some item =>
      outboxForWork item .workCancellationRequested (withCancellationReason input.reasonCode)
        options
      pure item
    | none => settledCancellation input options

end GhostBridge.DurableWork
