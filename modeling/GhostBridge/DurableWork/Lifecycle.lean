import GhostBridge.DurableWork.Store

/-!
# Events of the outbox

An event is inserted under a key that is computed from the work item as it was.
-/

namespace GhostBridge.DurableWork

open Ecma Machine

structure Env where
  leaseMs : ℕ
  heartbeatMs : ℕ
  maxAttempts : ℕ
  deadLetterAfterAttempts : ℕ
  abandonedGraceMs : ℕ
  workerBatchSize : ℕ
  maxAttempts_le : maxAttempts ≤ deadLetterAfterAttempts
  heartbeat_le : heartbeatMs * 3 ≤ leaseMs
  grace_pos : 1 ≤ abandonedGraceMs

structure Options where
  /-- `options.now`. -/
  now : Option Int := none
  /-- `options.outbox !== false`. -/
  outbox : Bool := true
  /-- `options.verifyInvocation !== false`. -/
  verifyInvocation : Bool := true
  /-- `options.updateInvocation !== false`. -/
  updateInvocation : Bool := true

def compareText (a b : Text) : Ordering := if a = b then .eq else if Text.le a b then .lt else .gt

def compareOption : Option Int → Option Int → Ordering
  | none, none => .eq
  | none, some _ => .lt
  | some _, none => .gt
  | some a, some b => compare a b

structure TenantScope where
  partnerId : Text
  organizationId : Option Text := none
  receivingWorkspaceId : Text
  connectionId : Option Text := none

/-- `optionalTenantScope(input)`, as a filter. -/
def inTenant (tenant : Option TenantScope) (work : WorkItem) : Bool :=
  match tenant with
  | none => true
  | some scope =>
    work.identity.partnerId == scope.partnerId &&
      (match scope.organizationId with
        | none => true
        | some id => work.identity.organizationId == id) &&
      work.identity.receivingWorkspaceId == scope.receivingWorkspaceId &&
      (match scope.connectionId with
        | none => true
        | some id => work.identity.connectionId == id)

/-- The metadata of `workOutboxInput(work, eventType, metadata)`, where `metadata` writes over what
the item says. -/
def workMetadata (work : WorkItem) (metadata : SafeMetadata → SafeMetadata) : SafeMetadata :=
  metadata
    { workStatus := some work.status
      attemptNumber := some work.attemptNumber
      executionGeneration := some work.executionGeneration
      retryCount := some work.retryCount
      safeStage := work.safeStage }

/-- The document of `appendOutboxEvent`, whose input names no organization. -/
def outboxEvent (work : WorkItem) (eventType : OutboxEventType) (safeMetadata : SafeMetadata) :
    OutboxEvent where
  eventKey :=
    deterministicOutboxKey eventType work.identity work.invocationId work.id safeMetadata
  eventType := eventType
  identity := { work.identity with organizationId := work.identity.partnerId }
  invocationId := work.invocationId
  workItemId := work.id
  traceId := work.traceId
  safeMetadata := safeMetadata

def appendOutboxEvent (event : OutboxEvent) : Flow Bool := insertEvent event

def durableOutboxWriteFailed : Text := ascii "DURABLE_OUTBOX_WRITE_FAILED"

def addToSet (records : List RepairRecord) (record : RepairRecord) : List RepairRecord :=
  if records.contains record then records else records ++ [record]

def byId (id : Text) (work : WorkItem) : Bool := work.id == id

/-- `deferOutboxRepair(work, outboxInput, error)`; errors of the database have no code. -/
def deferOutboxRepair (work : WorkItem) (event : OutboxEvent) : Flow Unit :=
  tryCatch
    (do
      let now ← dateValue none
      let _ ← findOneAndUpdateWork (byId work.id) fun item =>
        { item with
          outboxRepair :=
            { outboxRepairRequiredAt := some now
              outboxRepairReasonCode := some durableOutboxWriteFailed
              outboxRepairEvents := addToSet item.outboxRepair.outboxRepairEvents
                ⟨event.eventKey, event.eventType, event.safeMetadata⟩
              outboxRepairAttempts := item.outboxRepair.outboxRepairAttempts + 1 } })
    fun _ => pure ()

/-- `outboxForWork(work, eventType, metadata, options)`: two attempts, then a deferral. -/
def outboxForWork (work : WorkItem) (eventType : OutboxEventType)
    (metadata : SafeMetadata → SafeMetadata := id) (options : Options := {}) : Flow Unit :=
  if options.outbox = false then pure ()
  else
    let event := outboxEvent work eventType (workMetadata work metadata)
    tryCatch (do let _ ← appendOutboxEvent event) fun _ =>
      tryCatch (do let _ ← appendOutboxEvent event) fun _ => deferOutboxRepair work event

def repairRecord (work : WorkItem) (eventType : OutboxEventType)
    (metadata : SafeMetadata → SafeMetadata := id) : RepairRecord :=
  let safeMetadata := workMetadata work metadata
  ⟨deterministicOutboxKey eventType work.identity work.invocationId work.id safeMetadata, eventType,
    safeMetadata⟩

def claimMilestone (work : WorkItem) (attemptNumber : ℕ) : Option Milestone :=
  work.milestones.find? fun milestone =>
    milestone.name == .workClaimed && milestone.attemptNumber == attemptNumber

def initialAttemptNumber (work : WorkItem) : ℕ :=
  if 0 < work.requeueCount then 1 else max 1 (work.attemptNumber - work.retryCount)

def initialMetadata (work : WorkItem) (metadata : SafeMetadata) : SafeMetadata :=
  let claimed := (claimMilestone work (initialAttemptNumber work)).isSome
  { metadata with
    workStatus := some (if claimed then .claimed else .pending)
    attemptNumber := some (initialAttemptNumber work)
    safeStage := if claimed then some .workClaimed else none
    retryCount := some 0 }

def withReason (reasonCode : Text) (metadata : SafeMetadata) : SafeMetadata :=
  { metadata with reasonCode := some reasonCode }

def withRecoveryReason (reasonCode : RecoveryReason) (metadata : SafeMetadata) : SafeMetadata :=
  { metadata with recoveryReasonCode := some reasonCode }

def withCancellationReason (reasonCode : Text) (metadata : SafeMetadata) : SafeMetadata :=
  { metadata with cancellationReasonCode := some reasonCode }

def atClaim (metadata : SafeMetadata) : SafeMetadata :=
  { metadata with safeStage := some .workClaimed }

def operatorRequeuePretransmission : Text := ascii "OPERATOR_REQUEUE_PRETRANSMISSION"

def statusRepairRecords (work : WorkItem) : List RepairRecord :=
  match work.status with
  | .pending =>
    match work.recoveryReasonCode with
    | some reason =>
      if 0 < work.retryCount then
        [repairRecord work .workAbandonedRecovered (withRecoveryReason reason)]
      else []
    | none => []
  | .retryScheduled =>
    [repairRecord work .workRetryScheduled
      (withReason (work.retryDecisionReason.getD (ascii "TRANSIENT_IDEMPOTENT_FAILURE")))]
  | .cancellationRequested =>
    [repairRecord work .workCancellationRequested
      (withCancellationReason (work.cancellationReasonCode.getD (ascii "INVOCATION_CANCELLED")))]
  | .cancelled =>
    [repairRecord work .workCancelled
      (withCancellationReason (work.cancellationReasonCode.getD (ascii "INVOCATION_CANCELLED")))]
  | .completed => [repairRecord work .workCompleted]
  | .failed =>
    [repairRecord work .workFailed (withReason
      ((work.lastErrorCode.orElse fun _ => work.retryDecisionReason).getD
        (ascii "DURABLE_WORK_EXECUTION_FAILED")))]
  | .recoveryRequired =>
    [repairRecord work .workRecoveryRequired
      (withRecoveryReason (work.recoveryReasonCode.getD .resultPersistenceUncertain))]
  | .deadLettered =>
    [repairRecord work .workDeadLettered
      (withReason (work.lastErrorCode.getD (ascii "SAFE_RETRY_ATTEMPTS_EXHAUSTED")))]
  | .claimed | .running | .retryPreparing | .waitingForApproval | .blocked => []

def startedSinceClaim (work : WorkItem) (claim : Milestone) : Bool :=
  match work.times.startedAt with
  | none => false
  | some startedAt => decide (claim.recordedAt ≤ startedAt)

def inferredOutboxRepairRecords (work : WorkItem) : List RepairRecord :=
  [repairRecord work .workEnqueued (initialMetadata work),
    repairRecord work .invocationAccepted (initialMetadata work)] ++
  (match claimMilestone work work.attemptNumber with
    | none => []
    | some claim =>
      repairRecord work .workClaimed atClaim ::
        if startedSinceClaim work claim then [repairRecord work .workStarted atClaim] else []) ++
  (if 0 < work.requeueCount then
    [repairRecord work .workRequeued (withReason operatorRequeuePretransmission)]
  else []) ++
  statusRepairRecords work

/-- `byKey.values()`: the last record of each key, where its key came first. -/
def repairRecordsByKey (work : WorkItem) : List RepairRecord :=
  (OrderedMap.ofEntries
    ((work.outboxRepair.outboxRepairEvents ++ inferredOutboxRepairRecords work).map fun record =>
      (record.eventKey, record))).entries.map Prod.snd

def repairEvent (work : WorkItem) (record : RepairRecord) : Flow Bool :=
  tryCatch
    (do
      let _ ← appendOutboxEvent (outboxEvent work record.eventType record.safeMetadata)
      pure true)
    fun _ => pure false

def repairWork (work : WorkItem) (now : Int) : Flow Unit := do
  let outcomes ← (repairRecordsByKey work).mapM' fun record => do
    let succeeded ← repairEvent work record
    pure (record, succeeded)
  let succeededKeys := (outcomes.filter Prod.snd).map fun outcome => outcome.1.eventKey
  let failedRecords := (outcomes.filter fun outcome => !outcome.2).map Prod.fst
  if !succeededKeys.isEmpty then
    let _ ← findOneAndUpdateWork (byId work.id) fun item =>
      { item with
        outboxRepair :=
          { item.outboxRepair with
            outboxRepairEvents := item.outboxRepair.outboxRepairEvents.filter fun record =>
              !succeededKeys.contains record.eventKey } }
  if !failedRecords.isEmpty then
    let _ ← findOneAndUpdateWork (byId work.id) fun item =>
      { item with
        outboxRepair :=
          { outboxRepairRequiredAt := some now
            outboxRepairReasonCode := some durableOutboxWriteFailed
            outboxRepairEvents := failedRecords.foldl addToSet item.outboxRepair.outboxRepairEvents
            outboxRepairAttempts := item.outboxRepair.outboxRepairAttempts + 1 } }
  else
    let _ ← findOneAndUpdateWork
      (fun item => byId work.id item && item.outboxRepair.outboxRepairEvents.isEmpty) fun item =>
        { item with
          outboxRepair := { outboxRepairAttempts := item.outboxRepair.outboxRepairAttempts } }

def runtimeWorkerHeartbeatRetentionMs : Int := 24 * 60 * 60 * 1000

def byRepairTime : DocumentOrder WorkItem := fun a b =>
  (compareOption a.outboxRepair.outboxRepairRequiredAt b.outboxRepair.outboxRepairRequiredAt).then
    (compareText a.id b.id) == .lt

def byUpdate : DocumentOrder WorkItem := fun a b =>
  (compare a.updatedAt b.updatedAt).then (compareText a.id b.id) == .lt

structure ScanInput where
  now : Option Int := none
  limit : Option ℕ := none
  tenant : Option TenantScope := none

/-- `integer(input.limit ?? env.DURABLE_WORKER_BATCH_SIZE, 'limit', { minimum: 1, maximum: 100 })`. -/
def scanLimit (env : Env) (limit : Option ℕ) : Checked ℕ :=
  let limit := limit.getD env.workerBatchSize
  if 1 ≤ limit && limit ≤ 100 then pure limit else throw (.invalid "limit")

def repairDurableOutbox (env : Env) (input : ScanInput) (options : Options) : Flow Unit := do
  let now ← dateValue (input.now.or options.now)
  let limit ← scanLimit env input.limit
  let recentCutoff := now - runtimeWorkerHeartbeatRetentionMs
  let marked ← findWork
    (fun work => inTenant input.tenant work && !work.outboxRepair.outboxRepairEvents.isEmpty)
    byRepairTime limit
  let remainingCapacity := limit - marked.length
  let recent ←
    if remainingCapacity = 0 then pure []
    else
      findWork
        (fun work => inTenant input.tenant work && work.outboxRepair.outboxRepairEvents.isEmpty &&
          decide (recentCutoff ≤ work.updatedAt) && !(marked.map WorkItem.id).contains work.id)
        byUpdate remainingCapacity
  (marked ++ recent).forM fun work => repairWork work now

end GhostBridge.DurableWork

/-!
## The lifecycle of an invocation

Every change of the state of an invocation adds to its history; an update names the state that it
starts from.
-/

namespace GhostBridge.DurableWork

open Ecma Machine

/-- `{ $each: entries, $slice: -MAX_INVOCATION_STATE_HISTORY }`. -/
def pushHistory (history entries : List HistoryEntry) : List HistoryEntry :=
  let all := history ++ entries
  all.drop (all.length - maxInvocationStateHistory)

structure EntryOptions where
  now : Int
  reasonCode : Option Text := none
  attemptNumber : Option ℕ := none
  traceId : Option Text := none

def transitionHistoryEntry (fromState : Option InvocationState) (toState : InvocationState)
    (options : EntryOptions) : Checked HistoryEntry := do
  throwWhen (options.attemptNumber == some 0) (.invalid "attemptNumber")
  pure ⟨fromState, toState, options.now, options.reasonCode, options.attemptNumber, options.traceId⟩

/-- The fields of `options.outcome` that an invocation is asked for. -/
structure Outcome where
  attemptCount : Option ℕ := none
  retryState : Option RetryState := none

def assertTransition (fromState toState : InvocationState) : Checked Unit :=
  throwWhen (!canTransition fromState toState) (.app .invocationStateTransitionInvalid)

def isTerminalState (state : InvocationState) : Bool := terminalInvocationStates.contains state

/-- `retryState` after a transition. -/
def retryStateAfter (toState : InvocationState) (outcome : Outcome) (before : RetryState) :
    RetryState :=
  match toState with
  | .succeeded => .completed
  | .retryScheduled => .scheduled
  | .recoveryRequired => .recoveryRequired
  | _ => outcome.retryState.getD before

/-- `$unset: { executionLeaseId: 1, executionLeaseExpiresAt: 1, executionOwner: 1 }`. -/
def withoutExecutionLease (invocation : Invocation) : Invocation :=
  { invocation with
    executionLeaseId := none, executionLeaseExpiresAt := none, executionOwner := none }

/-- The changes that `transitionUpdate` describes. -/
def applyTransition (toState : InvocationState) (entry : HistoryEntry) (outcome : Outcome)
    (invocation : Invocation) : Invocation :=
  let updated :=
    { invocation with
      lifecycleState := toState
      stateHistory := pushHistory invocation.stateHistory [entry]
      attemptCount := outcome.attemptCount.getD invocation.attemptCount
      retryState := retryStateAfter toState outcome invocation.retryState
      recoveryState :=
        if toState = .recoveryRequired then .required else invocation.recoveryState
      lastProgressStage :=
        if isTerminalState toState then some .terminalized else invocation.lastProgressStage }
  if isTerminalState toState || toState == .recoveryRequired then withoutExecutionLease updated
  else updated

def transitionUpdate (fromState toState : InvocationState) (options : EntryOptions)
    (outcome : Outcome := {}) : Checked (Invocation → Invocation) := do
  assertTransition fromState toState
  let entry ← transitionHistoryEntry (some fromState) toState options
  throwWhen (toState == .recoveryRequired && options.reasonCode.isNone) (.invalid "reasonCode")
  pure (applyTransition toState entry outcome)

structure LifecycleOptions where
  invocationId : Text
  receivingWorkspaceId : Text
  /-- `executionOwner` and `executionLeaseId`. -/
  ownership : Option (Text × Text) := none
  now : Option Int := none
  reasonCode : Option Text := none
  attemptNumber : Option ℕ := none
  traceId : Option Text := none
  outcome : Outcome := {}

namespace LifecycleOptions

variable (options : LifecycleOptions)

def entry (now : Int) : EntryOptions :=
  ⟨now, options.reasonCode, options.attemptNumber, options.traceId⟩

/-- `{ _id: invocationId, receivingWorkspaceId }`. -/
def names (invocation : Invocation) : Bool :=
  invocation.id == options.invocationId &&
    invocation.receivingWorkspaceId == options.receivingWorkspaceId

/-- `executionOwnershipPredicate(options)`. -/
def owns (now : Int) (invocation : Invocation) : Bool :=
  match options.ownership with
  | none => true
  | some (owner, leaseId) =>
    invocation.executionOwner == some owner && invocation.executionLeaseId == some leaseId &&
      (match invocation.executionLeaseExpiresAt with
        | none => false
        | some expiresAt => decide (now < expiresAt))

end LifecycleOptions

/-- `executionLeaseExpiresAt: { $lte: now }`. -/
def executionLeaseExpired (now : Int) (invocation : Invocation) : Bool :=
  match invocation.executionLeaseExpiresAt with
  | none => false
  | some expiresAt => decide (expiresAt ≤ now)

def transitionInvocation (options : LifecycleOptions) (fromState toState : InvocationState) :
    Flow Invocation := do
  let now ← dateValue options.now
  let update ← transitionUpdate fromState toState (options.entry now) options.outcome
  let invocation ← findOneAndUpdateInvocation
    (fun invocation => options.names invocation && invocation.lifecycleState == fromState &&
      (toState != .succeeded ||
        !([.requested, .aborting].contains invocation.cancellationState)) &&
      options.owns now invocation)
    update
  match invocation with
  | some invocation => pure invocation
  | none =>
    match ← findOneInvocation options.names with
    | none => throw (.app .invocationNotFound)
    | some _ => throw (.app .invocationStateTransitionInvalid)

def markRecovery (options : LifecycleOptions) (now : Int) (guard : Invocation → Bool) :
    List InvocationState → Flow (Option Invocation)
  | [] => pure none
  | fromState :: rest => do
    let update ← transitionUpdate fromState .recoveryRequired (options.entry now) options.outcome
    let invocation ← findOneAndUpdateInvocation
      (fun invocation => options.names invocation && invocation.lifecycleState == fromState &&
        guard invocation)
      update
    match invocation with
    | some invocation => pure (some invocation)
    | none => markRecovery options now guard rest

def markExpiredInvocationLeaseRecovery (options : LifecycleOptions) : Flow (Option Invocation) := do
  let now ← dateValue options.now
  markRecovery
    { options with
      reasonCode := some (options.reasonCode.getD (ascii "EXECUTION_LEASE_EXPIRED")) }
    now (executionLeaseExpired now) [.running, .waitingForRuntime]

def markActiveInvocationRecovery (options : LifecycleOptions) : Flow (Option Invocation) := do
  let now ← dateValue options.now
  markRecovery
    { options with
      reasonCode := some (options.reasonCode.getD (ascii "SHUTDOWN_DURING_EXTERNAL_INVOCATION")) }
    now (options.owns now) [.running, .waitingForRuntime]

def renewInvocationExecutionLease (options : LifecycleOptions) (owner leaseId : Text)
    (leaseDurationMs : ℕ) : Flow (Option Invocation) := do
  let now ← dateValue options.now
  throwWhen (decide (leaseDurationMs < 1000)) (Failure.invalid "leaseDurationMs")
  findOneAndUpdateInvocation
    (fun invocation => options.names invocation &&
      [.running, .waitingForRuntime].contains invocation.lifecycleState &&
      { options with ownership := some (owner, leaseId) }.owns now invocation)
    fun invocation =>
      { invocation with executionLeaseExpiresAt := some (now + leaseDurationMs) }

def claimInvocationExecution (options : LifecycleOptions) (owner : Text) (leaseId : Option Text)
    (leaseDurationMs : ℕ) : Flow Invocation := do
  let leaseId ← match leaseId with
    | some id => pure id
    | none => randomUUID
  let now ← dateValue options.now
  throwWhen (decide (leaseDurationMs < 1000)) (Failure.invalid "leaseDurationMs")
  let claim := { options with
    reasonCode := some (options.reasonCode.getD (ascii "EXECUTION_CLAIMED")) }
  let update ← transitionUpdate .authorized .running (claim.entry now) options.outcome
  let invocation ← findOneAndUpdateInvocation
    (fun invocation => options.names invocation && invocation.lifecycleState == .authorized &&
      (invocation.executionLeaseId.isNone || invocation.executionLeaseExpiresAt.isNone ||
        executionLeaseExpired now invocation))
    fun invocation =>
      { update invocation with
        executionLeaseId := some leaseId
        executionLeaseExpiresAt := some (now + leaseDurationMs)
        executionOwner := some owner
        lastProgressStage := some .executionClaimed }
  match invocation with
  | some invocation => pure invocation
  | none =>
    let recovered ← markExpiredInvocationLeaseRecovery
      { options with now := some now, reasonCode := some (ascii "EXECUTION_LEASE_EXPIRED") }
    if recovered.isSome then throw (.app .invocationRecoveryRequired)
    else
      match ← findOneInvocation options.names with
      | none => throw (.app .invocationNotFound)
      | some _ => throw (.app .invocationConcurrentClaimRejected)

end GhostBridge.DurableWork
