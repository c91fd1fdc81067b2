import GhostBridge.DurableWork.Recovery

/-!
# Reconciliation of accepted invocations

An accepted invocation that no work item executes is linked to one: to the item that is there,
which is reserved under a lease while it is linked, or to a new one that is claimed as it is
inserted.
-/

namespace GhostBridge.DurableWork

open Ecma Machine

structure Reservation where
  item : WorkItem
  ownership : Ownership
  releaseStatus : WorkStatus

/-- `reconciler:${crypto.randomUUID()}`. -/
def reconcilerName : Flow Text := do
  let uuid ← randomUUID
  pure (ascii "reconciler:" ++ uuid)

def reserveUpdate (env : Env) (ownership : Ownership) (now : Int) (work : WorkItem) : WorkItem :=
  { work.versioned with
    status := .claimed
    times := { work.times with claimedAt := some now }
    safeStage := some .workClaimed
    lease := replayPreparationLeaseSet env ownership now }

def reserveWorkForReconciliation (env : Env) (workItem : WorkItem) (now : Int) :
    Flow (Option Reservation) :=
  if !claimableDurableWorkStatuses.contains workItem.status then pure none
  else do
    let leaseOwner ← reconcilerName
    let leaseToken ← rawLeaseToken
    let ownership : Ownership := { leaseOwner := leaseOwner, leaseToken := leaseToken }
    let item ← findOneAndUpdateWork
      (fun work => byId workItem.id work && work.status == workItem.status &&
        work.version == workItem.version && work.cancellationRequestedAt.isNone &&
        leaseFree now work.lease)
      (reserveUpdate env ownership now)
    pure (item.map fun item => ⟨item, ownership, workItem.status⟩)

def releaseReconciledWork (workItem : WorkItem) (ownership : Ownership) (releaseStatus : WorkStatus)
    (now : Int) : Flow (Option WorkItem) :=
  findOneAndUpdateWork
    (fun work => ownershipFilter workItem.id ownership now [.claimed] work &&
      work.version == workItem.version)
    (releaseUpdate releaseStatus)

structure ReconcileResult where
  scanned : ℕ := 0
  created : ℕ := 0
  existing : ℕ := 0
  linked : ℕ := 0
  terminalReconciled : ℕ := 0
  skipped : ℕ := 0
deriving DecidableEq

namespace ReconcileResult

variable (result : ReconcileResult)

def skip : ReconcileResult := { result with skipped := result.skipped + 1 }

def found : ReconcileResult := { result with existing := result.existing + 1 }

def link : ReconcileResult := { result with linked := result.linked + 1 }

end ReconcileResult

def linkReserved (invocation : Invocation) (item : WorkItem) (ownership : Ownership)
    (releaseStatus : WorkStatus) (now : Int) (options : Options)
    (linked : ReconcileResult → ReconcileResult) (result : ReconcileResult) :
    Flow ReconcileResult := do
  if !(← linkReconciledInvocationWork invocation item) then
    let _ ← finalizeWork item.id ownership
      { status := .failed
        lastErrorCode := some (ascii "WORK_LINK_CONFLICT")
        retryDecisionReason := some (ascii "WORK_LINK_CONFLICT") }
      { options with now := some now }
    pure result.skip
  else
    match ← releaseReconciledWork item ownership releaseStatus now with
    | none => pure result.skip
    | some released =>
      outboxForWork released .workReconciled
        (withReason (ascii "EXECUTABLE_INVOCATION_MISSING_WORK")) options
      pure (linked result)

def reconcileExisting (env : Env) (invocation : Invocation) (work : WorkItem) (now : Int)
    (options : Options) (result : ReconcileResult) : Flow ReconcileResult := do
  if terminalDurableWorkStatuses.contains work.status then
    let reconciled ← reconcileTerminalWorkInvocation invocation work now options
    if reconciled then
      pure { result.found.link with terminalReconciled := result.terminalReconciled + 1 }
    else pure result.skip
  else if invocation.currentWorkItemId = some work.id then pure result.found.link
  else
    match ← reserveWorkForReconciliation env work now with
    | none => pure result.skip
    | some reservation =>
      linkReserved invocation reservation.item reservation.ownership reservation.releaseStatus now
        options (fun result => result.found.link) result

def reconcileMissing (env : Env) (invocation : Invocation) (partnerId : Text) (now : Int)
    (options : Options) (result : ReconcileResult) : Flow ReconcileResult := do
  let attemptNumber := invocation.attemptCount + 1
  let maximumAttempts := max attemptNumber env.maxAttempts
  if env.deadLetterAfterAttempts < maximumAttempts then pure result.skip
  else
    let leaseOwner ← reconcilerName
    let enqueued ← enqueueWork env
      { identity := ⟨partnerId, partnerId, invocation.receivingWorkspaceId, invocation.connectionId⟩
        invocationId := invocation.id
        attemptNumber := attemptNumber
        executionGeneration := max 1 invocation.executionGeneration
        workType :=
          if invocation.recoveryParentInvocationId.isSome then .recoveryRetry
          else .runtimeInvocation
        traceId := invocation.traceId
        availableAt := some now
        maximumAttempts := some maximumAttempts }
      { options with now := some now } (some ⟨leaseOwner, some env.leaseMs⟩)
    match enqueued.ownership with
    | none => pure result.found
    | some ownership =>
      linkReserved invocation enqueued.workItem ownership .pending now options
        (fun result => { result.link with created := result.created + 1 }) result

/-- The invocations that `reconcileAcceptedInvocations` looks for. -/
def reconcilable (tenant : Option TenantScope) (now cutoff : Int) (invocation : Invocation) :
    Bool :=
  (match tenant with
    | none => true
    | some scope =>
      invocation.receivingWorkspaceId == scope.receivingWorkspaceId &&
        (match scope.connectionId with
          | none => true
          | some id => invocation.connectionId == id)) &&
    [.accepted, .validating, .authorized].contains invocation.lifecycleState &&
    !cancellationStarted.contains invocation.cancellationState &&
    invocation.recoveryState != .required && invocation.protectedReplayAvailable &&
    decide (invocation.createdAt ≤ cutoff) && executionLeaseFree now invocation &&
    !([some .outboundRequestStarted, some .remoteResponseReceived, some .responseValidationStarted,
      some .finalizationStarted, some .terminalized].contains invocation.lastProgressStage)

/-- `{ createdAt: 1, _id: 1 }`. -/
def oldestInvocation : DocumentOrder Invocation := fun a b =>
  (compare a.createdAt b.createdAt).then (compareText a.id b.id) == .lt

/-- `{ executionGeneration: -1, createdAt: -1, _id: -1 }`. -/
def newestGeneration : DocumentOrder WorkItem := fun a b =>
  ((compare b.executionGeneration a.executionGeneration).then
    ((compare b.createdAt a.createdAt).then (compareText b.id a.id))) == .lt

/-- One invocation of `reconcileAcceptedInvocations`. -/
def reconcileInvocation (env : Env) (tenant : Option TenantScope) (now : Int) (options : Options)
    (result : ReconcileResult) (invocation : Invocation) : Flow ReconcileResult := do
  match ← findConnection invocation with
  | none => pure result.skip
  | some partnerId =>
    if (tenant.map TenantScope.partnerId).getD partnerId ≠ partnerId then pure result.skip
    else
      let existing ← findOneWork
        (fun work => work.identity.partnerId == partnerId &&
          work.identity.receivingWorkspaceId == invocation.receivingWorkspaceId &&
          work.identity.connectionId == invocation.connectionId &&
          work.invocationId == invocation.id)
        newestGeneration
      match existing with
      | some work => reconcileExisting env invocation work now options result
      | none => reconcileMissing env invocation partnerId now options result

def reconcileAcceptedInvocations (env : Env) (input : ScanInput) (options : Options) :
    Flow ReconcileResult := do
  let now ← dateValue (input.now.or options.now)
  let limit ← scanLimit env input.limit
  let cutoff := now - env.abandonedGraceMs
  let invocations ← findInvocations (reconcilable input.tenant now cutoff) oldestInvocation limit
  invocations.foldlM (reconcileInvocation env input.tenant now options)
    { scanned := invocations.length }

inductive Entry where
  | enqueueWork (input : EnqueueInput) (initialClaim : Option InitialClaim)
  | claimNextWork (input : ClaimInput) (maximumCandidates : Option ℕ)
  | claimWorkById (workItemId : Text) (input : ClaimInput)
  | startWork (workItemId : Text) (ownership : Ownership)
  | heartbeatWork (workItemId : Text) (ownership : Ownership) (leaseMs : Option ℕ)
  | recordMilestone (workItemId : Text) (ownership : Ownership) (input : MilestoneInput)
  | finalizeWork (workItemId : Text) (ownership : Ownership) (input : FinalizeInput)
  | deadLetterWork (workItemId : Text) (ownership : Ownership) (reasonCode : Option Text)
  | scheduleRetry (workItemId : Text) (ownership : Ownership) (errorCode : Option Text)
  | requestWorkCancellation (input : CancellationInput)
  | scanAbandonedWork (input : ScanInput) (graceMs : Option ℕ)
  | requeueDeadLetter (input : RequeueInput)
  | reconcileAcceptedInvocations (input : ScanInput)
  | persistWorkOutboxEvent (work : WorkItem) (eventType : OutboxEventType)
      (metadata : SafeMetadata → SafeMetadata)
  | repairDurableOutbox (input : ScanInput)
  | prepareInvocationForSafeReplay (work : WorkItem) (input : ReplayInput)
  | transitionInvocation (options : LifecycleOptions) (fromState toState : InvocationState)
  | markExpiredInvocationLeaseRecovery (options : LifecycleOptions)
  | markActiveInvocationRecovery (options : LifecycleOptions)
  | renewInvocationExecutionLease (options : LifecycleOptions) (owner leaseId : Text)
      (leaseDurationMs : ℕ)
  | claimInvocationExecution (options : LifecycleOptions) (owner : Text) (leaseId : Option Text)
      (leaseDurationMs : ℕ)

abbrev Result := Option WorkItem

def discarding {α : Type} (flow : Flow α) : Flow Result := do
  let _ ← flow
  pure none

def Entry.program (env : Env) (options : Options) : Entry → Flow Result
  | .enqueueWork input initialClaim => do
    let enqueued ← DurableWork.enqueueWork env input options initialClaim
    pure (some enqueued.workItem)
  | .claimNextWork input maximumCandidates => do
    let claimed ← DurableWork.claimNextWork env input options maximumCandidates
    pure (claimed.map Claimed.workItem)
  | .claimWorkById workItemId input => do
    let claimed ← DurableWork.claimWorkById env workItemId input options
    pure (claimed.map Claimed.workItem)
  | .startWork workItemId ownership => do
    let work ← DurableWork.startWork workItemId ownership options
    pure (some work)
  | .heartbeatWork workItemId ownership leaseMs => do
    let work ← DurableWork.heartbeatWork env workItemId ownership leaseMs options
    pure (some work)
  | .recordMilestone workItemId ownership input => do
    let work ← DurableWork.recordMilestone workItemId ownership input options
    pure (some work)
  | .finalizeWork workItemId ownership input => do
    let work ← DurableWork.finalizeWork workItemId ownership input options
    pure (some work)
  | .deadLetterWork workItemId ownership reasonCode => do
    let work ← DurableWork.deadLetterWork workItemId ownership reasonCode options
    pure (some work)
  | .scheduleRetry workItemId ownership errorCode => do
    let work ← DurableWork.scheduleRetry env workItemId ownership errorCode options
    pure (some work)
  | .requestWorkCancellation input => do
    let work ← DurableWork.requestWorkCancellation input options
    pure (some work)
  | .scanAbandonedWork input graceMs =>
    discarding (DurableWork.scanAbandonedWork env input graceMs options)
  | .requeueDeadLetter input => do
    let work ← DurableWork.requeueDeadLetter env input options
    pure (some work)
  | .reconcileAcceptedInvocations input =>
    discarding (DurableWork.reconcileAcceptedInvocations env input options)
  | .persistWorkOutboxEvent work eventType metadata =>
    discarding (outboxForWork work eventType metadata options)
  | .repairDurableOutbox input => discarding (DurableWork.repairDurableOutbox env input options)
  | .prepareInvocationForSafeReplay work input =>
    discarding (DurableWork.prepareInvocationForSafeReplay work input options)
  | .transitionInvocation lifecycle fromState toState =>
    discarding (DurableWork.transitionInvocation lifecycle fromState toState)
  | .markExpiredInvocationLeaseRecovery lifecycle =>
    discarding (DurableWork.markExpiredInvocationLeaseRecovery lifecycle)
  | .markActiveInvocationRecovery lifecycle =>
    discarding (DurableWork.markActiveInvocationRecovery lifecycle)
  | .renewInvocationExecutionLease lifecycle owner leaseId leaseDurationMs =>
    discarding (DurableWork.renewInvocationExecutionLease lifecycle owner leaseId leaseDurationMs)
  | .claimInvocationExecution lifecycle owner leaseId leaseDurationMs =>
    discarding (DurableWork.claimInvocationExecution lifecycle owner leaseId leaseDurationMs)

abbrev WorkWorld := World Database Op Reply (Checked Result)

abbrev turn : WorkWorld → ℕ × Answer → WorkWorld := World.turn perform

def callThreads (env : Env) (options : ℕ → Options) (entries : ℕ → Entry) :
    ℕ → Program Op Reply (Checked Result) :=
  fun i => (entries i).program env (options i)

end GhostBridge.DurableWork

/-!
## Sound work items

What every update keeps of a work item: the bounds of its counters, that it carries a lease exactly
while it is owned, and that no milestone is recorded twice in an attempt. A later state of an item
has a higher version, unless only the repair of its events has changed.
-/

namespace GhostBridge.DurableWork

open Ecma Machine

/-- The owner, the token hash and the expiry of the lease are there. -/
structure LeaseFields.Held (lease : LeaseFields) : Prop where
  owner : lease.leaseOwner.isSome = true
  tokenHash : lease.leaseTokenHash.isSome = true
  expiry : lease.leaseExpiresAt.isSome = true

/-- No milestone is recorded twice in an attempt. -/
def MilestonesOnce (milestones : List Milestone) : Prop :=
  milestones.Pairwise fun a b => ¬(a.name = b.name ∧ a.attemptNumber = b.attemptNumber)

namespace WorkItem

structure Sound (work : WorkItem) : Prop where
  attempt_pos : 1 ≤ work.attemptNumber
  attempt_le : work.attemptNumber ≤ work.maximumAttempts
  requeueCount_le : work.requeueCount ≤ 1
  unleased : work.status ∉ ownedDurableWorkStatuses → work.lease = {}
  held : work.status ∈ ownedDurableWorkStatuses → work.lease.Held
  milestones : MilestonesOnce work.milestones

def fixed (work : WorkItem) : Text × TenantIdentity × Text × WorkType × ℕ × Text × Option Text :=
  (work.id, work.identity, work.invocationId, work.workType, work.executionGeneration,
    work.dedupeKey, work.traceId)

/-- The item `later` is the item `work` after some updates. -/
structure Later (work later : WorkItem) : Prop where
  fixed : later.fixed = work.fixed
  version_le : work.version ≤ later.version
  core : work.version = later.version → later.core = work.core
  requeueCount_le : work.requeueCount ≤ later.requeueCount
  maximumAttempts_le : work.maximumAttempts ≤ later.maximumAttempts
  maximumAttempts : work.requeueCount = later.requeueCount →
    later.maximumAttempts = work.maximumAttempts
  /-- Dead letters stay as they are until they are requeued. -/
  dead : work.status = .deadLettered → work.requeueCount = later.requeueCount →
    later.core = work.core
  milestones : work.milestones <+: later.milestones

variable {work later latest : WorkItem}

theorem Later.refl (work : WorkItem) : Later work work :=
  ⟨rfl, le_rfl, fun _ => rfl, le_rfl, le_rfl, fun _ => rfl, fun _ _ => rfl, List.prefix_rfl⟩

theorem core_eq {a b : WorkItem} (h : a.core = b.core) :
    a.status = b.status ∧ a.attemptNumber = b.attemptNumber ∧
      a.maximumAttempts = b.maximumAttempts ∧ a.requeueCount = b.requeueCount ∧
      a.lease = b.lease ∧ a.milestones = b.milestones ∧ a.version = b.version := by
  have hcore (w : WorkItem) : w.core.status = w.status ∧ w.core.attemptNumber = w.attemptNumber ∧
      w.core.maximumAttempts = w.maximumAttempts ∧ w.core.requeueCount = w.requeueCount ∧
      w.core.lease = w.lease ∧ w.core.milestones = w.milestones ∧ w.core.version = w.version :=
    ⟨rfl, rfl, rfl, rfl, rfl, rfl, rfl⟩
  obtain ⟨hs, ha, hm, hr, hl, hn, hv⟩ := hcore a
  obtain ⟨hs', ha', hm', hr', hl', hn', hv'⟩ := hcore b
  rw [← hs, ← ha, ← hm, ← hr, ← hl, ← hn, ← hv, h]
  exact ⟨hs', ha', hm', hr', hl', hn', hv'⟩

theorem Later.trans (h : Later work later) (h' : Later later latest) : Later work latest where
  fixed := h'.fixed.trans h.fixed
  version_le := h.version_le.trans h'.version_le
  core heq := by
    have hversion : work.version = later.version :=
      le_antisymm h.version_le (h'.version_le.trans_eq heq.symm)
    exact (h'.core (hversion.symm.trans heq)).trans (h.core hversion)
  requeueCount_le := h.requeueCount_le.trans h'.requeueCount_le
  maximumAttempts_le := h.maximumAttempts_le.trans h'.maximumAttempts_le
  maximumAttempts heq := by
    have hcount : work.requeueCount = later.requeueCount :=
      le_antisymm h.requeueCount_le (h'.requeueCount_le.trans_eq heq.symm)
    exact (h'.maximumAttempts (hcount.symm.trans heq)).trans (h.maximumAttempts hcount)
  dead hdead heq := by
    have hcount : work.requeueCount = later.requeueCount :=
      le_antisymm h.requeueCount_le (h'.requeueCount_le.trans_eq heq.symm)
    have hcore := h.dead hdead hcount
    exact (h'.dead ((core_eq hcore).1.trans hdead) (hcount.symm.trans heq)).trans hcore
  milestones := h.milestones.trans h'.milestones

theorem Later.id_eq (h : Later work later) : later.id = work.id := congrArg Prod.fst h.fixed

theorem Later.of_versioned (hfixed : later.fixed = work.fixed)
    (hversion : later.version = work.version + 1) (hcount : later.requeueCount = work.requeueCount)
    (hmaximum : later.maximumAttempts = work.maximumAttempts)
    (hmilestones : work.milestones <+: later.milestones) (halive : work.status ≠ .deadLettered) :
    Later work later where
  fixed := hfixed
  version_le := by omega
  core h := by omega
  requeueCount_le := hcount.ge
  maximumAttempts_le := hmaximum.ge
  maximumAttempts _ := hmaximum
  dead h _ := absurd h halive
  milestones := hmilestones

theorem Later.of_core (hfixed : later.fixed = work.fixed) (hcore : later.core = work.core) :
    Later work later := by
  obtain ⟨-, -, hmaximum, hcount, -, hmilestones, hversion⟩ := core_eq hcore
  exact ⟨hfixed, hversion.ge, fun _ => hcore, hcount.ge, hmaximum.ge, fun _ => hmaximum,
    fun _ _ => hcore, by rw [hmilestones]⟩

theorem Sound.of_core (h : work.Sound) (hcore : later.core = work.core) : later.Sound := by
  obtain ⟨hstatus, hattempt, hmaximum, hcount, hlease, hmilestones, -⟩ := core_eq hcore
  exact ⟨hattempt ▸ h.attempt_pos, hattempt ▸ hmaximum ▸ h.attempt_le, hcount ▸ h.requeueCount_le,
    by rw [hstatus, hlease]; exact h.unleased, by rw [hstatus, hlease]; exact h.held,
    hmilestones ▸ h.milestones⟩

theorem Sound.released (h : work.Sound) (hstatus : later.status ∉ ownedDurableWorkStatuses)
    (hlease : later.lease = {}) (hattempt : later.attemptNumber = work.attemptNumber)
    (hmaximum : later.maximumAttempts = work.maximumAttempts)
    (hcount : later.requeueCount = work.requeueCount)
    (hmilestones : later.milestones = work.milestones) : later.Sound :=
  ⟨hattempt ▸ h.attempt_pos, hattempt ▸ hmaximum ▸ h.attempt_le, hcount ▸ h.requeueCount_le,
    fun _ => hlease, fun howned => absurd howned hstatus, hmilestones ▸ h.milestones⟩

theorem Sound.leased (h : work.Sound) (hstatus : later.status ∈ ownedDurableWorkStatuses)
    (hlease : later.lease.Held) (hattempt : later.attemptNumber = work.attemptNumber)
    (hmaximum : later.maximumAttempts = work.maximumAttempts)
    (hcount : later.requeueCount = work.requeueCount)
    (hmilestones : MilestonesOnce later.milestones) : later.Sound :=
  ⟨hattempt ▸ h.attempt_pos, hattempt ▸ hmaximum ▸ h.attempt_le, hcount ▸ h.requeueCount_le,
    fun hnot => absurd hstatus hnot, fun _ => hlease, hmilestones⟩

end WorkItem

theorem newLease_held (owner token : Text) (now : Int) (leaseMs : ℕ) :
    (newLease owner token now leaseMs).Held := ⟨rfl, rfl, rfl⟩

theorem MilestonesOnce.concat {milestones : List Milestone} (h : MilestonesOnce milestones)
    {milestone : Milestone}
    (hnew : ∀ m ∈ milestones, ¬(m.name = milestone.name ∧
      m.attemptNumber = milestone.attemptNumber)) :
    MilestonesOnce (milestones ++ [milestone]) := by
  rw [MilestonesOnce, List.pairwise_append]
  refine ⟨h, List.pairwise_singleton _ _, fun m hm m' hm' => ?_⟩
  obtain rfl := List.mem_singleton.mp hm'
  exact hnew m hm

theorem hasMilestone_eq_false {work : WorkItem} {name : WorkMilestone} {attemptNumber : ℕ}
    (h : work.hasMilestone name attemptNumber = false) :
    ∀ m ∈ work.milestones, ¬(m.name = name ∧ m.attemptNumber = attemptNumber) := by
  simp only [WorkItem.hasMilestone, List.any_eq_false, Bool.and_eq_true, beq_iff_eq] at h
  exact h

end GhostBridge.DurableWork
