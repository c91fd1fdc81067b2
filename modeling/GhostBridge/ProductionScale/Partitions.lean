import GhostBridge.Machine.Threads
import GhostBridge.ProductionScale.Routing

/-!
# Ownership of queue partitions

A worker claims a partition for a lease, shows with a fence that it still owns it, and may extend
the lease.
-/

namespace GhostBridge.ProductionScale

open Ecma Machine

inductive PartitionStatus where
  | active
  | draining
  | paused
  | recovering
  | disabled
deriving DecidableEq

/-- `QueuePartition`. -/
structure Partition where
  partitionKey : Text
  workloadCategory : WorkloadCategory
  routingVersion : ℕ
  partitionNumber : ℕ
  status : PartitionStatus
  ownershipEpoch : ℕ
  ownerWorkerId : Option Text := none
  ownerInstanceId : Option Text := none
  leaseExpiresAt : Option Int := none
  heartbeatAt : Option Int := none
  lastClaimAt : Option Int := none
deriving DecidableEq

inductive WorkerStatus where
  | starting
  | active
  | idle
  | draining
  | unhealthy
  | stopped
deriving DecidableEq

/-- `WorkerRegistration`. -/
structure Worker where
  workerId : Text
  instanceId : Text
  status : WorkerStatus
  supportedWorkloadCategories : List WorkloadCategory
  supportedRoutingVersions : List ℕ
  heartbeatAt : Int
  activeClaimCount : ℕ := 0

inductive PartitionFailure where
  | scale (failure : ScaleFailure)
  /-- The validators of the schema, or a cast of a filter, refuse a path. -/
  | invalid (path : String)
  | referenceError (name : String)
  | unavailable
deriving DecidableEq

structure FenceClaim where
  partitionKey : Text
  leaseOwner : Text := []
  workerId : Text := []
  partitionOwnershipEpoch : Numeral

/-- `claim.leaseOwner || claim.workerId`, as the setters of the schema trim it. -/
def FenceClaim.owner (claim : FenceClaim) : Text :=
  (if claim.leaseOwner = [] then claim.workerId else claim.leaseOwner).trimmed

/-- The filter of `assertPartitionFence`. -/
def FenceClaim.passes (claim : FenceClaim) (now : Int) (stored : Partition) : Bool :=
  stored.ownerWorkerId = some claim.owner ∧
    claim.partitionOwnershipEpoch = some (stored.ownershipEpoch : Int) ∧
    (∃ lease ∈ stored.leaseExpiresAt, now < lease) ∧
    (stored.status = .active ∨ stored.status = .draining)

/-- An update of a partition, with what it was computed from. -/
inductive PartitionChange where
  | renew (workerId instanceId : Text) (ownershipEpoch : ℕ) (now leaseMs : Int)
  | claim (workerId instanceId : Text) (ownershipEpoch : ℕ) (status : PartitionStatus)
      (now leaseMs : Int)
  | extend (fence : FenceClaim) (now extendLeaseMs : Int)

namespace PartitionChange

def filter : PartitionChange → Partition → Bool
  | renew workerId instanceId ownershipEpoch now _, stored =>
    stored.ownershipEpoch = ownershipEpoch ∧ stored.ownerWorkerId = some workerId.trimmed ∧
      stored.ownerInstanceId = some instanceId.trimmed ∧ ∃ lease ∈ stored.leaseExpiresAt, now < lease
  | claim workerId instanceId ownershipEpoch _ now _, stored =>
    stored.ownershipEpoch = ownershipEpoch ∧
      (stored.status = .active ∨ stored.status = .draining ∨ stored.status = .recovering) ∧
      (stored.ownerWorkerId = none ∨ (∃ lease ∈ stored.leaseExpiresAt, lease ≤ now) ∨
        stored.ownerWorkerId = some workerId.trimmed ∧
          stored.ownerInstanceId = some instanceId.trimmed)
  | extend fence now _, stored => fence.passes now stored

def update : PartitionChange → Partition → Partition
  | renew _ _ _ now leaseMs, stored =>
    { stored with
      heartbeatAt := some now
      leaseExpiresAt := some (now + leaseMs)
      lastClaimAt := some now }
  | claim workerId instanceId _ status now leaseMs, stored =>
    { stored with
      ownerWorkerId := some workerId.trimmed
      ownerInstanceId := some instanceId.trimmed
      leaseExpiresAt := some (now + leaseMs)
      heartbeatAt := some now
      lastClaimAt := some now
      status := if status = .draining then .draining else .active
      ownershipEpoch := stored.ownershipEpoch + 1 }
  | extend _ now extendLeaseMs, stored =>
    { stored with heartbeatAt := some now, leaseExpiresAt := some (now + extendLeaseMs) }

/-- `runValidators` for the values that an update sets. -/
def validate : PartitionChange → Except PartitionFailure Unit
  | claim workerId instanceId _ _ _ _ => do
    throwWhen (!isSafeIdentifier workerId.trimmed) (.invalid "ownerWorkerId")
    throwWhen (!isSafeIdentifier instanceId.trimmed) (.invalid "ownerInstanceId")
  | _ => .ok ()

end PartitionChange

inductive PartitionOp where
  /-- `new Date()`. -/
  | clock
  /-- `WorkerRegistration.findOne` for a claim. -/
  | findWorker (workerId instanceId workloadCategory : Text) (routingVersion : ℕ)
      (heartbeatAfter : Int)
  /-- `WorkerRegistration.updateMany`: workers without a heartbeat become unhealthy. -/
  | markUnhealthy (healthyAfter : Int)
  /-- `WorkerRegistration.find` for a rebalance. -/
  | findWorkers (healthyAfter : Int)
  /-- `QueuePartition.findOne({ partitionKey })`. -/
  | findPartition (key : Text)
  /-- `QueuePartition.find` for a rebalance. -/
  | findPartitions
  /-- `QueuePartition.findOne` with the filter of a fence. -/
  | findFenced (claim : FenceClaim) (now : Int)
  /-- `QueuePartition.findOneAndUpdate({ partitionKey, ...filter }, update, { new: true })`. -/
  | change (key : Text) (change : PartitionChange)

abbrev PartitionReply : PartitionOp → Type
  | .clock => Int
  | .findWorker _ _ _ _ _ => Except PartitionFailure (Option Worker)
  | .markUnhealthy _ => Except PartitionFailure Unit
  | .findWorkers _ => Except PartitionFailure (List Worker)
  | .findPartition _ => Except PartitionFailure (Option Partition)
  | .findPartitions => Except PartitionFailure (List Partition)
  | .findFenced _ _ => Except PartitionFailure (Option Partition)
  | .change _ _ => Except PartitionFailure (Option Partition)

abbrev PartitionFlow := Async PartitionOp PartitionReply PartitionFailure

/-- The clock, the registrations, and the partitions by their keys, which are unique. -/
structure PartitionStore where
  clock : Int
  workers : List Worker
  partitionKeys : List Text
  partitions : Text → Option Partition

structure PartitionAnswer where
  /-- How long the clock has gone on before the operation. -/
  elapsed : ℕ := 0
  unavailable : Bool := false
  /-- What `registerWorker` and `heartbeatWorker` made of the registrations. -/
  registrations : List Worker → List Worker := id

/-- `sort({ workloadCategory: 1, routingVersion: 1, partitionNumber: 1 })`. -/
def partitionLe (a b : Partition) : Bool :=
  if a.workloadCategory = b.workloadCategory then
    a.routingVersion < b.routingVersion ∨
      a.routingVersion = b.routingVersion ∧ a.partitionNumber ≤ b.partitionNumber
  else Text.le (ascii a.workloadCategory.name) (ascii b.workloadCategory.name)

namespace PartitionStore

def findWorker (store : PartitionStore) (workerId instanceId workloadCategory : Text)
    (routingVersion : ℕ) (heartbeatAfter : Int) : Option Worker :=
  store.workers.find? fun worker =>
    worker.workerId = workerId.trimmed ∧ worker.instanceId = instanceId.trimmed ∧
      (worker.status = .active ∨ worker.status = .idle) ∧
      (worker.supportedWorkloadCategories.any fun category =>
        ascii category.name = workloadCategory) ∧
      routingVersion ∈ worker.supportedRoutingVersions ∧ heartbeatAfter < worker.heartbeatAt

def markUnhealthy (store : PartitionStore) (healthyAfter : Int) : PartitionStore :=
  { store with workers := store.workers.map fun worker =>
      if (worker.status = .active ∨ worker.status = .idle) ∧ worker.heartbeatAt ≤ healthyAfter then
        { worker with status := .unhealthy }
      else worker }

def findWorkers (store : PartitionStore) (healthyAfter : Int) : List Worker :=
  (store.workers.filter fun worker =>
    (worker.status = .active ∨ worker.status = .idle ∨ worker.status = .draining) ∧
      healthyAfter < worker.heartbeatAt).insertionSort
        fun a b => Text.le a.workerId b.workerId = true

def findPartitions (store : PartitionStore) : List Partition :=
  ((store.partitionKeys.filterMap store.partitions).filter fun partition =>
    partition.status = .active ∨ partition.status = .recovering ∨
      partition.status = .draining).insertionSort fun a b => partitionLe a b = true

def findFenced (store : PartitionStore) (claim : FenceClaim) (now : Int) : Option Partition :=
  (store.partitions claim.partitionKey.trimmed).filter (claim.passes now)

def applyChange (store : PartitionStore) (key : Text) (change : PartitionChange) :
    Option Partition × PartitionStore :=
  match (store.partitions key).filter change.filter with
  | none => (none, store)
  | some stored => (some (change.update stored),
      { store with partitions := Function.update store.partitions key (some (change.update stored)) })

end PartitionStore

def PartitionAnswer.available {α : Type} (answer : PartitionAnswer) (store : PartitionStore)
    (result : α × PartitionStore) : Except PartitionFailure α × PartitionStore :=
  if answer.unavailable then (.error .unavailable, store) else (.ok result.1, result.2)

def performPartitionAt (store : PartitionStore) :
    (op : PartitionOp) → PartitionAnswer → PartitionReply op × PartitionStore
  | .clock, _ => (store.clock, store)
  | .findWorker workerId instanceId workloadCategory routingVersion heartbeatAfter, answer =>
    answer.available store
      (store.findWorker workerId instanceId workloadCategory routingVersion heartbeatAfter, store)
  | .markUnhealthy healthyAfter, answer =>
    answer.available store ((), store.markUnhealthy healthyAfter)
  | .findWorkers healthyAfter, answer =>
    answer.available store (store.findWorkers healthyAfter, store)
  | .findPartition key, answer => answer.available store (store.partitions key, store)
  | .findPartitions, answer => answer.available store (store.findPartitions, store)
  | .findFenced claim now, answer => answer.available store (store.findFenced claim now, store)
  | .change key change, answer => answer.available store (store.applyChange key change)

def performPartition : Perform PartitionStore PartitionOp PartitionAnswer PartitionReply :=
  fun store op answer => performPartitionAt
    { store with
      clock := store.clock + answer.elapsed
      workers := answer.registrations store.workers } op answer

structure PartitionOptions where
  now : Option Int := none

def partitionTime (options : PartitionOptions) : PartitionFlow Int :=
  match options.now with
  | some now => pure now
  | none => Async.ask PartitionOp.clock

/-- `boundedInteger` for a duration. -/
def duration (value : Option Numeral) (path : String) (minimum maximum fallback : ℕ) :
    Except PartitionFailure Int :=
  ((boundedInteger value path minimum maximum (some fallback)).mapError .scale).map
    fun milliseconds => (milliseconds.val : Int)

structure ClaimInput where
  workerId : Text
  instanceId : Text
  workloadCategory : Text
  routingVersion : ℕ
  partitionNumber : ℕ := 0
  partitionKey : Text := []
  leaseMs : Option Numeral := none
  workerHeartbeatTimeoutMs : Option Numeral := none

/-- `input.partitionKey || partitionKey(...)`, as the setters of the schema trim it. -/
def ClaimInput.key (input : ClaimInput) : Text :=
  (if input.partitionKey = [] then
    input.workloadCategory ++ ascii ":v" ++ decimalDigits input.routingVersion ++ ascii ":p" ++
      decimalDigits input.partitionNumber
  else input.partitionKey).trimmed

def findOnePartition (key : Text) : PartitionFlow (Option Partition) := do
  let reply ← Async.ask (.findPartition key)
  reply

def updatePartition (key : Text) (change : PartitionChange) : PartitionFlow (Option Partition) := do
  change.validate
  let reply ← Async.ask (.change key change)
  reply

def claimChange (input : ClaimInput) (partition : Partition) (now leaseMs : Int) :
    PartitionChange :=
  if partition.ownerWorkerId = some input.workerId ∧
      partition.ownerInstanceId = some input.instanceId ∧
      now < partition.leaseExpiresAt.getD 0 then
    .renew input.workerId input.instanceId partition.ownershipEpoch now leaseMs
  else
    .claim input.workerId input.instanceId partition.ownershipEpoch partition.status now leaseMs

def claimPartition (input : ClaimInput) (options : PartitionOptions) :
    PartitionFlow (Option Partition) := do
  let now ← partitionTime options
  let leaseMs ← duration input.leaseMs "leaseMs" 5000 3600000 60000
  let timeout ← duration input.workerHeartbeatTimeoutMs "workerHeartbeatTimeoutMs" 5000 3600000
    120000
  let reply ← Async.ask (.findWorker input.workerId input.instanceId input.workloadCategory
    input.routingVersion (now - timeout))
  match ← reply with
  | none => throw (.scale (.app 409 "WORKER_FENCED" "Worker is not registered for this partition."))
  | some _ =>
    match ← findOnePartition input.key with
    | none => return none
    | some partition =>
      if partition.status = .paused ∨ partition.status = .disabled then return none
      else updatePartition input.key (claimChange input partition now leaseMs)

structure FenceOptions where
  now : Option Int := none
  /-- `none` for what is not truthy. -/
  extendLeaseMs : Option Int := none

def askFence (claim : FenceClaim) (options : FenceOptions) (now : Int) :
    PartitionFlow (Option Partition) := do
  throwWhen claim.partitionOwnershipEpoch.isNone (PartitionFailure.invalid "ownershipEpoch")
  match options.extendLeaseMs with
  | some extendLeaseMs =>
    updatePartition claim.partitionKey.trimmed (.extend claim now extendLeaseMs)
  | none =>
    let reply ← Async.ask (.findFenced claim now)
    reply

def assertPartitionFence (claim : FenceClaim) (options : FenceOptions) : PartitionFlow Unit := do
  if claim.partitionKey = [] then return ()
  else
    let now ← partitionTime { now := options.now }
    match ← askFence claim options now with
    | some _ => return ()
    | none =>
      throw (.scale (.app 409 "PARTITION_OWNERSHIP_LOST" "Partition ownership was lost."))

def Worker.owns (worker : Worker) (partition : Partition) : Bool :=
  partition.ownerWorkerId = some worker.workerId ∧
    partition.ownerInstanceId = some worker.instanceId

def chosenOwner (registrations : List Worker) (partition : Partition) : Option Worker :=
  let eligible := registrations.filter fun worker =>
    (worker.status = .active ∨ worker.status = .idle) ∧
      partition.workloadCategory ∈ worker.supportedWorkloadCategories ∧
      partition.routingVersion ∈ worker.supportedRoutingVersions
  eligible[stableHashInteger partition.partitionKey % eligible.length]?

/-- A rebalance passes a partition over while its owner drains within its lease, and when no worker
is eligible or the chosen one owns it. It moves it otherwise. -/
def moves (now : Int) (registrations : List Worker) (partition : Partition) : Bool :=
  let drainingOwner := registrations.any fun worker =>
    worker.status = .draining ∧ 0 < worker.activeClaimCount ∧ worker.owns partition
  if drainingOwner && decide (now < partition.leaseExpiresAt.getD 0) then false
  else
    match chosenOwner registrations partition with
    | none => false
    | some owner => !owner.owns partition

/-- The loop over the partitions. The update that moves one reads a `leaseMs` that the function does
not define. -/
def placePartitions (now : Int) (registrations : List Worker) :
    List Partition → PartitionFlow Unit
  | [] => return ()
  | partition :: partitions =>
    if moves now registrations partition then throw (.referenceError "leaseMs")
    else placePartitions now registrations partitions

structure RebalanceInput where
  workerHeartbeatTimeoutMs : Option Numeral := none

structure RebalanceResult where
  changedPartitionCount : ℕ
  workerCount : ℕ
  partitionCount : ℕ
deriving DecidableEq

def rebalancePartitions (input : RebalanceInput) (options : PartitionOptions) :
    PartitionFlow RebalanceResult := do
  let now ← partitionTime options
  let timeout ← duration input.workerHeartbeatTimeoutMs "workerHeartbeatTimeoutMs" 5000 3600000
    120000
  let marked ← Async.ask (.markUnhealthy (now - timeout))
  marked
  let found ← Async.ask (.findWorkers (now - timeout))
  let registrations ← found
  let read ← Async.ask .findPartitions
  let partitions ← read
  placePartitions now registrations partitions
  return {
    changedPartitionCount := 0
    workerCount := (registrations.filter fun worker =>
      worker.status = .active ∨ worker.status = .idle).length
    partitionCount := partitions.length }

end GhostBridge.ProductionScale
