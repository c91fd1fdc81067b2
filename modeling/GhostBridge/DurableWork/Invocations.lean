import GhostBridge.DurableWork.Lifecycle

/-!
# Invocations of work items

What durable work asks of the invocation that an item executes, and how it updates it: before an
attempt is repeated, and when the item has come to its end.
-/

namespace GhostBridge.DurableWork

open Ecma Machine

/-- `{ _id: work.invocationId, receivingWorkspaceId, connectionId }`. -/
def isInvocationOf (work : WorkItem) (invocation : Invocation) : Bool :=
  invocation.id == work.invocationId &&
    invocation.receivingWorkspaceId == work.identity.receivingWorkspaceId &&
    invocation.connectionId == work.identity.connectionId

/-- `Number(generation || 1)`. -/
def orOne (n : ℕ) : ℕ := if n = 0 then 1 else n

def cancellationStarted : List CancellationState := [.requested, .aborting, .confirmed]

/-- `$or: [{ currentWorkItemId }, { $exists: false }, null]`. -/
def linkedOrFree (work : WorkItem) (invocation : Invocation) : Bool :=
  match invocation.currentWorkItemId with
  | none => true
  | some id => id == work.id

/-- `$or: [{ $exists: false }, null, { $lte: now }]` of `executionLeaseExpiresAt`. -/
def executionLeaseFree (now : Int) (invocation : Invocation) : Bool :=
  match invocation.executionLeaseExpiresAt with
  | none => true
  | some expiresAt => decide (expiresAt ≤ now)

inductive AbandonedClass where
  | persistedResult
  | postTransmission
  | preTransmission
deriving DecidableEq

structure Classification where
  classification : AbandonedClass
  replayAllowed : Bool
  recoveryReasonCode : RecoveryReason
deriving DecidableEq

/-- The names of `currentAttemptMilestones(work)`. -/
def currentAttemptMilestones (work : WorkItem) : List WorkMilestone :=
  (work.milestones.filter fun milestone => milestone.attemptNumber == work.attemptNumber).map
    Milestone.name

def classifyAbandonedWork (work : WorkItem) : Classification :=
  let names := currentAttemptMilestones work
  if names.contains .invocationPersisted then
    ⟨.persistedResult, false, .resultPersistenceUncertain⟩
  else if names.contains .finalizationStarted then
    ⟨.postTransmission, false, .workerLostDuringFinalization⟩
  else if names.contains .outboundResponseReceived || names.contains .responseValidated then
    ⟨.postTransmission, false, .resultPersistenceUncertain⟩
  else if names.contains .outboundTransmissionStarted then
    ⟨.postTransmission, false, .workerLostDuringRemoteExecution⟩
  else ⟨.preTransmission, true, .leaseExpiredBeforeTransmission⟩

/-- A milestone of an attempt that has started its transmission. -/
def Milestone.afterTransmission (milestone : Milestone) : Prop :=
  WorkMilestone.outboundTransmissionStarted.index ≤ milestone.name.index

theorem replayAllowed_iff (work : WorkItem) :
    (classifyAbandonedWork work).replayAllowed = true ↔
      ∀ milestone ∈ work.milestones, milestone.attemptNumber = work.attemptNumber →
        ¬milestone.afterTransmission := by
  have hname (name : WorkMilestone) : (currentAttemptMilestones work).contains name = true ↔
      ∃ milestone ∈ work.milestones, milestone.attemptNumber = work.attemptNumber ∧
        milestone.name = name := by
    simp only [currentAttemptMilestones, List.contains_iff_mem, List.mem_map, List.mem_filter,
      beq_iff_eq, and_assoc]
  have hlate (m : WorkMilestone) : WorkMilestone.outboundTransmissionStarted.index ≤ m.index ↔
      m = .invocationPersisted ∨ m = .finalizationStarted ∨ m = .outboundResponseReceived ∨
        m = .responseValidated ∨ m = .outboundTransmissionStarted := by
    cases m <;> decide
  have hallowed : (classifyAbandonedWork work).replayAllowed = true ↔
      ∀ name, WorkMilestone.outboundTransmissionStarted.index ≤ name.index →
        (currentAttemptMilestones work).contains name = false := by
    simp only [hlate, forall_eq_or_imp, forall_eq]
    simp only [classifyAbandonedWork]
    split
    · next h => simp [-List.contains_eq_mem, h]
    split
    · next h => simp [-List.contains_eq_mem, h]
    split
    · next h =>
      rcases Bool.or_eq_true_iff.mp h with h | h <;> simp [-List.contains_eq_mem, h]
    split
    · next h => simp [-List.contains_eq_mem, h]
    · next hpersisted hfinal hresponse htransmission =>
      simp only [Bool.or_eq_true, not_or, Bool.not_eq_true] at *
      simp only [hpersisted, hfinal, hresponse.1, hresponse.2, htransmission, and_self]
  rw [hallowed]
  constructor
  · intro h milestone hmem hattempt hlate
    have := h milestone.name hlate
    rw [Bool.eq_false_iff, Ne, hname] at this
    exact this ⟨milestone, hmem, hattempt, rfl⟩
  · intro h name hlate
    rw [Bool.eq_false_iff, Ne, hname]
    rintro ⟨milestone, hmem, hattempt, rfl⟩
    exact h milestone hmem hattempt hlate

structure ReplayInput where
  now : Option Int := none
  availableAt : Option Int := none
  reasonCode : Text
  maximumAttempts : Option ℕ := none
  allowTerminalOverride : Bool := false
  dryRun : Bool := false

inductive ReplayPreparation where
  | denied (reasonCode : Text)
  | allowed (nextAttemptNumber : ℕ)
deriving DecidableEq

def safeReplayInvocationStates : List InvocationState :=
  [.accepted, .validating, .authorized, .retryScheduled, .running, .waitingForRuntime,
    .recoveryRequired, .failed]

def fencedRecoveryRequeue (input : ReplayInput) (invocation : Invocation) : Bool :=
  invocation.lifecycleState == .recoveryRequired && input.allowTerminalOverride

/-- The checks of `prepareInvocationForSafeReplay`: why an invocation is denied. -/
def replayDenial (work : WorkItem) (input : ReplayInput) (now : Int) (invocation : Invocation) :
    Option Text :=
  if cancellationStarted.contains invocation.cancellationState then
    some (ascii "INVOCATION_CANCELLED")
  else if invocation.lifecycleState = .failed ∧ invocation.retryState ≠ .scheduled then
    some (ascii "INVOCATION_RETRY_NOT_SCHEDULED")
  else if [.timedOut, .succeeded, .cancelled].contains invocation.lifecycleState then
    some (ascii "INVOCATION_ALREADY_TERMINAL")
  else if !invocation.protectedReplayAvailable ||
      (invocation.recoveryState == .required && !fencedRecoveryRequeue input invocation) ||
      !safeReplayInvocationStates.contains invocation.lifecycleState then
    some (ascii "INVOCATION_SAFE_REPLAY_NOT_PROVEN")
  else if orOne invocation.executionGeneration ≠ orOne work.executionGeneration then
    some (ascii "INVOCATION_EXECUTION_GENERATION_MISMATCH")
  else if !linkedOrFree work invocation then some (ascii "INVOCATION_WORK_LINK_MISMATCH")
  else if [.running, .waitingForRuntime].contains invocation.lifecycleState &&
      !executionLeaseFree now invocation then
    some (ascii "INVOCATION_EXECUTION_LEASE_ACTIVE")
  else if invocation.lifecycleState = .waitingForRuntime ∧
      (classifyAbandonedWork work).replayAllowed = false then
    some (ascii "INVOCATION_SAFE_REPLAY_NOT_PROVEN")
  else if input.maximumAttempts.getD work.maximumAttempts < invocation.attemptCount + 1 then
    some (ascii "INVOCATION_ATTEMPT_LIMIT_REACHED")
  else none

def replayPath (fromState : InvocationState) : List InvocationState :=
  if fromState = .retryScheduled ∨ fromState = .recoveryRequired then [.authorized]
  else [.retryScheduled, .authorized]

def pathEntries (options : EntryOptions) :
    InvocationState → List InvocationState → Checked (List HistoryEntry)
  | _, [] => pure []
  | fromState, toState :: rest => do
    let entry ← transitionHistoryEntry (some fromState) toState options
    let entries ← pathEntries options toState rest
    pure (entry :: entries)

/-- The document that `prepareInvocationForSafeReplay` updates. -/
def replayFilter (work : WorkItem) (input : ReplayInput) (now : Int)
    (invocation candidate : Invocation) : Bool :=
  candidate.id == invocation.id &&
    candidate.receivingWorkspaceId == work.identity.receivingWorkspaceId &&
    candidate.connectionId == work.identity.connectionId &&
    candidate.lifecycleState == invocation.lifecycleState &&
    candidate.attemptCount == invocation.attemptCount &&
    candidate.executionGeneration == orOne work.executionGeneration &&
    candidate.protectedReplayAvailable &&
    !cancellationStarted.contains candidate.cancellationState &&
    (if fencedRecoveryRequeue input invocation then candidate.recoveryState == .required
      else candidate.recoveryState != .required) &&
    linkedOrFree work candidate &&
    (!([.running, .waitingForRuntime].contains invocation.lifecycleState) ||
      executionLeaseFree now candidate)

def progressOnReplay (fromState : InvocationState) : ProgressStage :=
  match fromState with
  | .accepted => .accepted
  | .validating => .validationStarted
  | _ => .authorized

/-- The update of `prepareInvocationForSafeReplay`. -/
def replayUpdate (work : WorkItem) (fromState : InvocationState) (entries : List HistoryEntry)
    (invocation : Invocation) : Invocation :=
  withoutExecutionLease
    { invocation with
      lifecycleState := .authorized
      stateHistory := pushHistory invocation.stateHistory entries
      currentWorkItemId := some work.id
      retryState := .scheduled
      recoveryState := .notRequired
      lastProgressStage := some (progressOnReplay fromState) }

def prepareInvocationForSafeReplay (work : WorkItem) (input : ReplayInput) (options : Options) :
    Flow ReplayPreparation := do
  let now ← dateValue (input.now.or options.now)
  match ← findOneInvocation (isInvocationOf work) with
  | none => pure (.denied (ascii "INVOCATION_NOT_FOUND"))
  | some invocation =>
    match replayDenial work input now invocation with
    | some reasonCode => pure (.denied reasonCode)
    | none =>
      let nextAttemptNumber := invocation.attemptCount + 1
      if input.dryRun then pure (.allowed nextAttemptNumber)
      else
        let entries ← pathEntries
          ⟨now, some input.reasonCode, some nextAttemptNumber, work.traceId.or invocation.traceId⟩
          invocation.lifecycleState (replayPath invocation.lifecycleState)
        let prepared ← findOneAndUpdateInvocation (replayFilter work input now invocation)
          (replayUpdate work invocation.lifecycleState entries)
        match prepared with
        | none => pure (.denied (ascii "INVOCATION_REPLAY_PREPARATION_CONFLICT"))
        | some _ => pure (.allowed nextAttemptNumber)

/-- What `invocationPermitsClaim` returns when it denies a claim. -/
structure ClaimDenial where
  reasonCode : Text
  cancelled : Bool := false
  workStatus : Option WorkStatus := none

def statusOfTerminal (state : InvocationState) : WorkStatus :=
  match state with
  | .succeeded => .completed
  | .cancelled => .cancelled
  | _ => .failed

def claimDenial (work : WorkItem) (invocation : Invocation) : Option ClaimDenial :=
  if cancellationStarted.contains invocation.cancellationState then
    some { reasonCode := ascii "INVOCATION_CANCELLED", cancelled := true }
  else if terminalInvocationStates.contains invocation.lifecycleState then
    some
      { reasonCode := ascii "INVOCATION_ALREADY_TERMINAL"
        cancelled := invocation.lifecycleState == .cancelled
        workStatus := some (statusOfTerminal invocation.lifecycleState) }
  else if work.workType = .recoveryRetry ∧ invocation.recoveryParentInvocationId.isNone then
    some { reasonCode := ascii "RECOVERY_PARENT_NOT_FOUND" }
  else if !([.accepted, .validating, .authorized].contains invocation.lifecycleState) then
    some { reasonCode := ascii "INVOCATION_STATE_NOT_EXECUTABLE" }
  else if !invocation.protectedReplayAvailable then
    some { reasonCode := ascii "INVOCATION_PROTECTED_REPLAY_UNAVAILABLE" }
  else if orOne invocation.executionGeneration ≠ orOne work.executionGeneration then
    some { reasonCode := ascii "INVOCATION_EXECUTION_GENERATION_MISMATCH" }
  else if invocation.currentWorkItemId ≠ some work.id then
    some { reasonCode := ascii "INVOCATION_WORK_LINK_MISMATCH" }
  else if work.attemptNumber ≠ invocation.attemptCount + 1 then
    some { reasonCode := ascii "DURABLE_ATTEMPT_MISMATCH" }
  else if 0 < invocation.attemptCount ∧ invocation.retryState ≠ .scheduled then
    some { reasonCode := ascii "INVOCATION_RETRY_NOT_SCHEDULED" }
  else none

/-- `invocationPermitsClaim(work)`: why a claim is denied. -/
def invocationPermitsClaim (work : WorkItem) : Flow (Option ClaimDenial) := do
  match ← findOneInvocation (isInvocationOf work) with
  | none => pure (some { reasonCode := ascii "INVOCATION_NOT_FOUND" })
  | some invocation => pure (claimDenial work invocation)

def invocationTerminalState (work : WorkItem) : Flow (Option InvocationState) := do
  let invocation ← findOneInvocation (isInvocationOf work)
  pure (invocation.map Invocation.lifecycleState)

def markInvocationRecoveryForWork (work : WorkItem) (reasonCode : Text) (now : Int)
    (options : Options) : Flow Unit :=
  if options.updateInvocation = false then pure ()
  else do
    let current ← findOneInvocation fun invocation =>
      isInvocationOf work invocation &&
        [.running, .waitingForRuntime].contains invocation.lifecycleState
    match current with
    | none => pure ()
    | some current =>
      let update ← transitionUpdate current.lifecycleState .recoveryRequired
        ⟨now, some reasonCode, some work.attemptNumber, work.traceId⟩
        { retryState := some .recoveryRequired }
      let _ ← findOneAndUpdateInvocation
        (fun invocation =>
          isInvocationOf work invocation && invocation.lifecycleState == current.lifecycleState)
        update

/-- `{ lifecycleState, executionGeneration, $or: [...] }`, besides the names of the invocation. -/
def unchangedFor (work : WorkItem) (state : InvocationState) (invocation : Invocation) : Bool :=
  invocation.lifecycleState == state &&
    invocation.executionGeneration == orOne work.executionGeneration && linkedOrFree work invocation

/-- The update of `terminalizeInvocationForDeadLetter`; none when there is no transition. -/
def deadLetterUpdate (work : WorkItem) (now : Int) (invocation : Invocation) :
    Option (Invocation → Invocation) :=
  if [.failed, .timedOut].contains invocation.lifecycleState then
    some fun candidate => { candidate with retryState := .exhausted }
  else
    (transitionUpdate invocation.lifecycleState .recoveryRequired
      ⟨now, some (ascii "SAFE_RETRY_ATTEMPTS_EXHAUSTED"), some (max 1 work.attemptNumber),
        work.traceId.or invocation.traceId⟩
      { retryState := some .recoveryRequired }).toOption.map fun update candidate =>
        { update candidate with lastProgressStage := some .finalizationStarted }

def terminalizeInvocationForDeadLetter (work : WorkItem) (now : Int) (options : Options) :
    Flow Bool :=
  if options.updateInvocation = false then pure true
  else do
    match ← findOneInvocation (isInvocationOf work) with
    | none => pure false
    | some invocation =>
      if (CancellationState.outcomeUnknown :: cancellationStarted).contains
          invocation.cancellationState then pure false
      else if [.succeeded, .cancelled].contains invocation.lifecycleState then pure false
      else if invocation.lifecycleState = .recoveryRequired ∨
          invocation.recoveryState = .required then pure true
      else
        match deadLetterUpdate work now invocation with
        | none => pure false
        | some update =>
          let terminalized ← findOneAndUpdateInvocation
            (fun candidate => candidate.id == invocation.id &&
              candidate.receivingWorkspaceId == work.identity.receivingWorkspaceId &&
              candidate.connectionId == work.identity.connectionId &&
              unchangedFor work invocation.lifecycleState candidate)
            update
          pure terminalized.isSome

def stateOfTerminalWork (status : WorkStatus) : InvocationState :=
  match status with
  | .cancelled => .cancelled
  | .failed => .failed
  | _ => .recoveryRequired

/-- `terminalReconciliationPath[state] || []`. -/
def terminalReconciliationPath : InvocationState → List InvocationState
  | .accepted => [.validating, .authorized, .running, .waitingForRuntime]
  | .validating => [.authorized, .running, .waitingForRuntime]
  | .authorized => [.running, .waitingForRuntime]
  | .running => [.waitingForRuntime]
  | _ => []

/-- `path`. -/
def reconciliationPath (fromState toState : InvocationState) : List InvocationState :=
  if toState = .recoveryRequired then terminalReconciliationPath fromState ++ [toState]
  else if fromState = .accepted ∧ toState = .failed then [.validating, .failed]
  else [toState]

def checkedPathEntries (options : EntryOptions) :
    InvocationState → List InvocationState → Checked (List HistoryEntry)
  | _, [] => pure []
  | fromState, toState :: rest => do
    throwWhen (!canTransition fromState toState) (.app .invocationStateTransitionInvalid)
    let entry ← transitionHistoryEntry (some fromState) toState options
    let entries ← checkedPathEntries options toState rest
    pure (entry :: entries)

/-- `reasonCode` of `reconcileTerminalWorkInvocation`. -/
def reconciliationReason (work : WorkItem) (toState : InvocationState) : Text :=
  match toState with
  | .cancelled => work.cancellationReasonCode.getD (ascii "INVOCATION_CANCELLED")
  | .failed => work.lastErrorCode.getD (ascii "DURABLE_WORK_EXECUTION_FAILED")
  | _ => ascii (work.recoveryReasonCode.getD .resultPersistenceUncertain).name

def reconciliationUpdate (work : WorkItem) (toState : InvocationState)
    (entries : List HistoryEntry) (invocation : Invocation) : Invocation :=
  withoutExecutionLease
    { invocation with
      lifecycleState := toState
      stateHistory := pushHistory invocation.stateHistory entries
      currentWorkItemId := some work.id
      cancellationState :=
        if toState = .cancelled then .confirmed else invocation.cancellationState
      recoveryState :=
        if toState = .recoveryRequired then .required else invocation.recoveryState
      retryState := if toState = .recoveryRequired then .recoveryRequired else .notAllowed
      lastProgressStage :=
        some (if toState = .recoveryRequired then .finalizationStarted else .terminalized) }

def reconcileTerminalWorkInvocation (invocation : Invocation) (work : WorkItem) (now : Int)
    (options : Options) : Flow Bool :=
  if work.status = .deadLettered then terminalizeInvocationForDeadLetter work now options
  else do
    let toState := stateOfTerminalWork work.status
    let entries ← checkedPathEntries
      ⟨now, some (reconciliationReason work toState), some (max 1 work.attemptNumber),
        work.traceId.or invocation.traceId⟩
      invocation.lifecycleState (reconciliationPath invocation.lifecycleState toState)
    let reconciled ← findOneAndUpdateInvocation
      (fun candidate => candidate.id == invocation.id &&
        candidate.receivingWorkspaceId == invocation.receivingWorkspaceId &&
        candidate.connectionId == invocation.connectionId &&
        unchangedFor work invocation.lifecycleState candidate)
      (reconciliationUpdate work toState entries)
    pure reconciled.isSome

def linkReconciledInvocationWork (invocation : Invocation) (work : WorkItem) : Flow Bool := do
  let linked ← findOneAndUpdateInvocation
    (fun candidate => candidate.id == invocation.id &&
      candidate.receivingWorkspaceId == invocation.receivingWorkspaceId &&
      candidate.connectionId == invocation.connectionId &&
      [.accepted, .validating, .authorized].contains candidate.lifecycleState &&
      !cancellationStarted.contains candidate.cancellationState &&
      candidate.recoveryState != .required && candidate.protectedReplayAvailable &&
      candidate.executionGeneration == orOne work.executionGeneration &&
      linkedOrFree work candidate)
    fun candidate => { candidate with currentWorkItemId := some work.id }
  pure linked.isSome

end GhostBridge.DurableWork
