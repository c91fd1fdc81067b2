import GhostBridge.DurableWork.Constants
import GhostBridge.Ecma.Decimal
import GhostBridge.Ecma.Sha256
import GhostBridge.Ecma.Outcome
import GhostBridge.Machine.Documents
import GhostBridge.Machine.Threads

/-!
# Documents of durable work

A work item, the invocation that it executes, and the events of the outbox.
-/

namespace GhostBridge.DurableWork

open Ecma

structure TenantIdentity where
  partnerId : Text
  organizationId : Text
  receivingWorkspaceId : Text
  connectionId : Text
deriving DecidableEq

structure Milestone where
  name : WorkMilestone
  recordedAt : Int
  attemptNumber : ℕ
  safeStatus : MilestoneStatus
deriving DecidableEq

/-- The fields that `leaseUnset()` names. -/
structure LeaseFields where
  leaseOwner : Option Text := none
  leaseTokenHash : Option Text := none
  leaseAcquiredAt : Option Int := none
  leaseExpiresAt : Option Int := none
  lastHeartbeatAt : Option Int := none
deriving DecidableEq

structure WorkTimes where
  claimedAt : Option Int := none
  startedAt : Option Int := none
  completedAt : Option Int := none
  failedAt : Option Int := none
  cancelledAt : Option Int := none
  deadLetteredAt : Option Int := none
  requeuedAt : Option Int := none
deriving DecidableEq

/-- The fields of `safeOutboxMetadata`. Codes are those that `safeCode` returns. -/
structure SafeMetadata where
  reasonCode : Option Text := none
  recoveryReasonCode : Option RecoveryReason := none
  cancellationReasonCode : Option Text := none
  workStatus : Option WorkStatus := none
  safeStage : Option WorkMilestone := none
  attemptNumber : Option ℕ := none
  executionGeneration : Option ℕ := none
  retryCount : Option ℕ := none
deriving DecidableEq

/-- What `repairRecord` returns. -/
structure RepairRecord where
  eventKey : Text
  eventType : OutboxEventType
  safeMetadata : SafeMetadata
deriving DecidableEq

structure OutboxRepair where
  outboxRepairRequiredAt : Option Int := none
  outboxRepairReasonCode : Option Text := none
  outboxRepairEvents : List RepairRecord := []
  outboxRepairAttempts : ℕ := 0
deriving DecidableEq

structure WorkItem where
  id : Text
  identity : TenantIdentity
  invocationId : Text
  workType : WorkType
  executionGeneration : ℕ
  dedupeKey : Text
  traceId : Option Text
  status : WorkStatus
  attemptNumber : ℕ
  maximumAttempts : ℕ
  retryCount : ℕ
  requeueCount : ℕ := 0
  priority : Int
  availableAt : Int
  createdAt : Int
  lease : LeaseFields := {}
  leaseEpoch : ℕ := 0
  times : WorkTimes := {}
  safeStage : Option WorkMilestone := none
  milestones : List Milestone := []
  lastErrorCode : Option Text := none
  retryDecisionReason : Option Text := none
  recoveryReasonCode : Option RecoveryReason := none
  cancellationRequestedAt : Option Int := none
  cancellationReasonCode : Option Text := none
  outboxRepair : OutboxRepair := {}
  version : ℕ := 0
  updatedAt : Int
deriving DecidableEq

namespace WorkItem

def hasMilestone (work : WorkItem) (name : WorkMilestone) (attemptNumber : ℕ) : Bool :=
  work.milestones.any fun milestone =>
    milestone.name == name && milestone.attemptNumber == attemptNumber

def core (work : WorkItem) : WorkItem := { work with outboxRepair := {}, updatedAt := 0 }

end WorkItem

/-- What `transitionHistoryEntry` returns. -/
structure HistoryEntry where
  fromState : Option InvocationState
  toState : InvocationState
  recordedAt : Int
  reasonCode : Option Text := none
  attemptNumber : Option ℕ := none
  traceId : Option Text := none
deriving DecidableEq

structure Invocation where
  id : Text
  receivingWorkspaceId : Text
  connectionId : Text
  lifecycleState : InvocationState
  stateHistory : List HistoryEntry
  cancellationState : CancellationState := .notRequested
  recoveryState : RecoveryState := .notRequired
  retryState : RetryState := .notEvaluated
  protectedReplayAvailable : Bool := false
  executionGeneration : ℕ := 1
  currentWorkItemId : Option Text := none
  attemptCount : ℕ := 0
  traceId : Option Text := none
  recoveryParentInvocationId : Option Text := none
  executionLeaseId : Option Text := none
  executionLeaseExpiresAt : Option Int := none
  executionOwner : Option Text := none
  lastProgressStage : Option ProgressStage := none
  createdAt : Int
deriving DecidableEq

structure OutboxEvent where
  eventKey : Text
  eventType : OutboxEventType
  identity : TenantIdentity
  invocationId : Text
  workItemId : Text
  traceId : Option Text
  safeMetadata : SafeMetadata
deriving DecidableEq

def sha256 (value : Text) : Text := ascii "sha256:" ++ sha256Hex value

def leaseTokenHash (rawToken : Text) : Text := sha256 rawToken

/-- `parts.join('\u0000')`. -/
def joinParts (parts : List Text) : Text := List.intercalate [0] parts

def deterministicDedupeKey (identity : TenantIdentity) (invocationId : Text)
    (executionGeneration : ℕ) (workType : WorkType) : Text :=
  sha256 (joinParts [ascii "durable-work-v1", identity.partnerId, identity.receivingWorkspaceId,
    identity.connectionId, invocationId, decimalDigits executionGeneration, ascii workType.name])

/-- `number || 0`, as text. -/
def numberText (number : Option ℕ) : Text := decimalDigits (number.getD 0)

/-- `deterministicOutboxKey(input, safeMetadata)`. No operation gives a `dedupeQualifier`. -/
def deterministicOutboxKey (eventType : OutboxEventType) (identity : TenantIdentity)
    (invocationId workItemId : Text) (safeMetadata : SafeMetadata) : Text :=
  sha256 (joinParts [ascii "durable-outbox-v1", ascii eventType.name, identity.partnerId,
    identity.receivingWorkspaceId, invocationId, workItemId,
    numberText safeMetadata.attemptNumber, numberText safeMetadata.executionGeneration,
    safeMetadata.reasonCode.getD [],
    (safeMetadata.safeStage.map fun stage => ascii stage.name).getD [], []])

end GhostBridge.DurableWork

/-!
## The database of durable work

What a service does between two awaits: it reads the clock, draws identifiers and tokens, asks a
function outside the service, or performs one operation of the database. An operation on one
document is atomic. Time passes with every operation.
-/

namespace GhostBridge.DurableWork

open Ecma Machine

/-- The codes of the errors that the operations throw themselves. -/
inductive ErrorCode where
  | validationError
  | durableWorkReconciliationFailed
  | durableWorkLeaseLost
  | durableWorkFinalizationConflict
  | durableWorkRetryDenied
  | durableWorkNotFound
  | durableWorkRequeueDenied
  | invocationNotFound
  | invocationStateTransitionInvalid
  | invocationRecoveryRequired
  | invocationConcurrentClaimRejected
deriving DecidableEq

inductive Failure where
  /-- An `AppError` with the `reasonCode` of its metadata. -/
  | app (code : ErrorCode) (reasonCode : Option Text := none)
  | invalid (path : String)
  | duplicateKey
  /-- The database or a function outside the service fails. -/
  | unavailable
deriving DecidableEq

abbrev Checked (α : Type) := Except Failure α

structure RetryDecision where
  allowed : Bool := false
  reason : Option Text := none
  delayMs : ℕ := 0
deriving DecidableEq

inductive Op where
  | clock
  | randomUUID
  /-- `rawLeaseToken()`. -/
  | randomToken
  | findWork (filter : WorkItem → Bool) (sort : DocumentOrder WorkItem) (limit : ℕ)
  | findOneWork (filter : WorkItem → Bool) (sort : DocumentOrder WorkItem)
  | updateWork (filter : WorkItem → Bool) (sort : DocumentOrder WorkItem)
      (update : WorkItem → WorkItem)
  /-- `updateOne({ dedupeKey }, { $setOnInsert: document }, { upsert: true })`. -/
  | upsertWork (document : WorkItem)
  | findInvocations (filter : Invocation → Bool) (sort : DocumentOrder Invocation) (limit : ℕ)
  | findOneInvocation (filter : Invocation → Bool)
  | updateInvocation (filter : Invocation → Bool) (update : Invocation → Invocation)
  /-- `updateOne({ eventKey }, { $setOnInsert: event }, { upsert: true })`. -/
  | upsertEvent (event : OutboxEvent)
  /-- The partner of the connected `PassportConnection`. -/
  | findConnection (invocation : Invocation)
  /-- `assertOperationalAccess(input)`. -/
  | operationalAccess
  /-- `options.retryDecisionEvaluator` or the retry policy. -/
  | evaluateRetry (work : WorkItem)

abbrev Reply : Op → Type
  | .clock => Int
  | .randomUUID => Text
  | .randomToken => Text
  | .findWork _ _ _ => Checked (List WorkItem)
  | .findOneWork _ _ => Checked (Option WorkItem)
  | .updateWork _ _ _ => Checked (Option WorkItem)
  | .upsertWork _ => Checked Bool
  | .findInvocations _ _ _ => Checked (List Invocation)
  | .findOneInvocation _ => Checked (Option Invocation)
  | .updateInvocation _ _ => Checked (Option Invocation)
  | .upsertEvent _ => Checked Bool
  | .findConnection _ => Checked (Option Text)
  | .operationalAccess => Checked Unit
  | .evaluateRetry _ => Checked RetryDecision

abbrev Flow := Async Op Reply Failure

structure Database where
  clock : Int
  workItems : OrderedMap Text WorkItem := .empty
  invocations : OrderedMap Text Invocation := .empty
  outbox : OrderedMap Text OutboxEvent := .empty

structure Answer where
  /-- How long the clock has gone on before the operation. -/
  elapsed : ℕ := 0
  text : Text := []
  unavailable : Bool := false
  retryDecision : RetryDecision := {}
  connection : Option Text := none

/-- `{ unique: true, name: 'unique_durable_execution_generation' }`. -/
def sameExecution (a b : WorkItem) : Bool :=
  a.identity.partnerId == b.identity.partnerId &&
    a.identity.receivingWorkspaceId == b.identity.receivingWorkspaceId &&
    a.invocationId == b.invocationId && a.executionGeneration == b.executionGeneration &&
    a.workType == b.workType

def upsertWork (db : Database) (id : Text) (document : WorkItem) : Checked Bool × Database :=
  let stored := db.workItems.entries.map Prod.snd
  if stored.any fun work => work.dedupeKey == document.dedupeKey then (.ok false, db)
  else if db.workItems.has id || stored.any (sameExecution document) then
    (.error .duplicateKey, db)
  else
    (.ok true, { db with
      workItems :=
        db.workItems.set id { document with id := id, createdAt := db.clock, updatedAt := db.clock } })

def upsertEvent (db : Database) (event : OutboxEvent) : Checked Bool × Database :=
  if db.outbox.has event.eventKey then (.ok false, db)
  else (.ok true, { db with outbox := db.outbox.set event.eventKey event })

def touched (now : Int) (update : WorkItem → WorkItem) (work : WorkItem) : WorkItem :=
  { update work with updatedAt := now }

def updateWork (db : Database) (filter : WorkItem → Bool) (sort : DocumentOrder WorkItem)
    (update : WorkItem → WorkItem) : Checked (Option WorkItem) × Database :=
  let (found, workItems) :=
    Collection.findOneAndUpdate db.workItems filter sort (touched db.clock update)
  (.ok found, { db with workItems := workItems })

def updateInvocation (db : Database) (filter : Invocation → Bool)
    (update : Invocation → Invocation) : Checked (Option Invocation) × Database :=
  let (found, invocations) :=
    Collection.findOneAndUpdate db.invocations filter unordered update
  (.ok found, { db with invocations := invocations })

def Answer.available {α : Type} (answer : Answer) (db : Database) (result : Checked α × Database) :
    Checked α × Database :=
  if answer.unavailable then (.error .unavailable, db) else result

def performAt (db : Database) : (op : Op) → Answer → Reply op × Database
  | .clock, _ => (db.clock, db)
  | .randomUUID, answer => (answer.text, db)
  | .randomToken, answer => (answer.text, db)
  | .findWork filter sort limit, answer =>
    answer.available db (.ok (Collection.find db.workItems filter sort limit), db)
  | .findOneWork filter sort, answer =>
    answer.available db (.ok (Collection.findOne db.workItems filter sort), db)
  | .updateWork filter sort update, answer =>
    answer.available db (updateWork db filter sort update)
  | .upsertWork document, answer => answer.available db (upsertWork db answer.text document)
  | .findInvocations filter sort limit, answer =>
    answer.available db (.ok (Collection.find db.invocations filter sort limit), db)
  | .findOneInvocation filter, answer =>
    answer.available db (.ok (Collection.findOne db.invocations filter unordered), db)
  | .updateInvocation filter update, answer =>
    answer.available db (updateInvocation db filter update)
  | .upsertEvent event, answer => answer.available db (upsertEvent db event)
  | .findConnection _, answer => answer.available db (.ok answer.connection, db)
  | .operationalAccess, answer => answer.available db (.ok (), db)
  | .evaluateRetry _, answer => answer.available db (.ok answer.retryDecision, db)

def perform : Perform Database Op Answer Reply := fun db op answer =>
  performAt { db with clock := db.clock + answer.elapsed } op answer

def findWork (filter : WorkItem → Bool) (sort : DocumentOrder WorkItem) (limit : ℕ) :
    Flow (List WorkItem) := do
  let reply ← Async.ask (.findWork filter sort limit)
  reply

def findOneWork (filter : WorkItem → Bool) (sort : DocumentOrder WorkItem := unordered) :
    Flow (Option WorkItem) := do
  let reply ← Async.ask (.findOneWork filter sort)
  reply

/-- `RuntimeWorkItem.findOneAndUpdate(filter, update, { new: true, sort })`. -/
def findOneAndUpdateWork (filter : WorkItem → Bool) (update : WorkItem → WorkItem)
    (sort : DocumentOrder WorkItem := unordered) : Flow (Option WorkItem) := do
  let reply ← Async.ask (.updateWork filter sort update)
  reply

def insertWork (document : WorkItem) : Flow Bool := do
  let reply ← Async.ask (.upsertWork document)
  reply

def findInvocations (filter : Invocation → Bool) (sort : DocumentOrder Invocation) (limit : ℕ) :
    Flow (List Invocation) := do
  let reply ← Async.ask (.findInvocations filter sort limit)
  reply

def findOneInvocation (filter : Invocation → Bool) : Flow (Option Invocation) := do
  let reply ← Async.ask (.findOneInvocation filter)
  reply

/-- `Invocation.findOneAndUpdate(filter, update, { new: true })`. -/
def findOneAndUpdateInvocation (filter : Invocation → Bool) (update : Invocation → Invocation) :
    Flow (Option Invocation) := do
  let reply ← Async.ask (.updateInvocation filter update)
  reply

def insertEvent (event : OutboxEvent) : Flow Bool := do
  let reply ← Async.ask (.upsertEvent event)
  reply

def findConnection (invocation : Invocation) : Flow (Option Text) := do
  let reply ← Async.ask (.findConnection invocation)
  reply

def assertOperationalAccess : Flow Unit := do
  let reply ← Async.ask .operationalAccess
  reply

def evaluateRetry (work : WorkItem) : Flow RetryDecision := do
  let reply ← Async.ask (.evaluateRetry work)
  reply

def randomUUID : Flow Text := Async.ask Op.randomUUID

def rawLeaseToken : Flow Text := Async.ask Op.randomToken

def dateValue : Option Int → Flow Int
  | some date => pure date
  | none => Async.ask Op.clock

end GhostBridge.DurableWork
