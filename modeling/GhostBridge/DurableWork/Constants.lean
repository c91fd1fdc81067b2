import GhostBridge.Ecma.Text

/-!
# Constants of durable work

The statuses of a work item, its milestones, the events that are recorded about it, and the states
of the invocation that it executes.
-/

namespace GhostBridge.DurableWork

open Ecma

/-- `DURABLE_WORK_TYPES`. -/
inductive WorkType where
  | runtimeInvocation
  | recoveryRetry
deriving DecidableEq

def WorkType.name : WorkType → String
  | .runtimeInvocation => "runtime_invocation"
  | .recoveryRetry => "recovery_retry"

/-- `DURABLE_WORK_STATUSES`. -/
inductive WorkStatus where
  | pending
  | waitingForApproval
  | blocked
  | claimed
  | running
  | retryPreparing
  | retryScheduled
  | cancellationRequested
  | cancelled
  | completed
  | failed
  | recoveryRequired
  | deadLettered
deriving DecidableEq

def claimableDurableWorkStatuses : List WorkStatus := [.pending, .retryScheduled]

def ownedDurableWorkStatuses : List WorkStatus :=
  [.claimed, .running, .retryPreparing, .cancellationRequested]

def terminalDurableWorkStatuses : List WorkStatus :=
  [.cancelled, .completed, .failed, .recoveryRequired, .deadLettered]

/-- `DURABLE_WORK_MILESTONES`. -/
inductive WorkMilestone where
  | workClaimed
  | validationCompleted
  | credentialsLoaded
  | outboundTransmissionStarted
  | outboundResponseReceived
  | responseValidated
  | finalizationStarted
  | invocationPersisted
deriving DecidableEq

namespace WorkMilestone

def name : WorkMilestone → String
  | .workClaimed => "work_claimed"
  | .validationCompleted => "validation_completed"
  | .credentialsLoaded => "credentials_loaded"
  | .outboundTransmissionStarted => "outbound_transmission_started"
  | .outboundResponseReceived => "outbound_response_received"
  | .responseValidated => "response_validated"
  | .finalizationStarted => "finalization_started"
  | .invocationPersisted => "invocation_persisted"

/-- `DURABLE_WORK_MILESTONES.indexOf(name)`. -/
def index : WorkMilestone → Nat
  | .workClaimed => 0
  | .validationCompleted => 1
  | .credentialsLoaded => 2
  | .outboundTransmissionStarted => 3
  | .outboundResponseReceived => 4
  | .responseValidated => 5
  | .finalizationStarted => 6
  | .invocationPersisted => 7

end WorkMilestone

/-- `DURABLE_MILESTONE_STATUSES`. -/
inductive MilestoneStatus where
  | completed
  | failed
deriving DecidableEq

/-- `DURABLE_RECOVERY_REASONS`. -/
inductive RecoveryReason where
  | workerTerminatedBeforeTransmission
  | leaseExpiredBeforeTransmission
  | leaseExpiredAfterTransmission
  | workerLostDuringRemoteExecution
  | workerLostDuringFinalization
  | resultPersistenceUncertain
  | safeRetryAttemptsExhausted
deriving DecidableEq

def RecoveryReason.name : RecoveryReason → String
  | .workerTerminatedBeforeTransmission => "WORKER_TERMINATED_BEFORE_TRANSMISSION"
  | .leaseExpiredBeforeTransmission => "LEASE_EXPIRED_BEFORE_TRANSMISSION"
  | .leaseExpiredAfterTransmission => "LEASE_EXPIRED_AFTER_TRANSMISSION"
  | .workerLostDuringRemoteExecution => "WORKER_LOST_DURING_REMOTE_EXECUTION"
  | .workerLostDuringFinalization => "WORKER_LOST_DURING_FINALIZATION"
  | .resultPersistenceUncertain => "RESULT_PERSISTENCE_UNCERTAIN"
  | .safeRetryAttemptsExhausted => "SAFE_RETRY_ATTEMPTS_EXHAUSTED"

/-- `DURABLE_OUTBOX_EVENT_TYPES`. -/
inductive OutboxEventType where
  | invocationAccepted
  | workEnqueued
  | workReconciled
  | workClaimed
  | workStarted
  | workCancellationRequested
  | workCancelled
  | workRetryScheduled
  | workAbandonedRecovered
  | workRecoveryRequired
  | workDeadLettered
  | workRequeued
  | workCompleted
  | workFailed
  | invocationTerminalized
deriving DecidableEq

def OutboxEventType.name : OutboxEventType → String
  | .invocationAccepted => "invocation.accepted"
  | .workEnqueued => "work.enqueued"
  | .workReconciled => "work.reconciled"
  | .workClaimed => "work.claimed"
  | .workStarted => "work.started"
  | .workCancellationRequested => "work.cancellation_requested"
  | .workCancelled => "work.cancelled"
  | .workRetryScheduled => "work.retry_scheduled"
  | .workAbandonedRecovered => "work.abandoned_recovered"
  | .workRecoveryRequired => "work.recovery_required"
  | .workDeadLettered => "work.dead_lettered"
  | .workRequeued => "work.requeued"
  | .workCompleted => "work.completed"
  | .workFailed => "work.failed"
  | .invocationTerminalized => "invocation.terminalized"

/-- `INVOCATION_STATES`. -/
inductive InvocationState where
  | accepted
  | validating
  | authorized
  | waitingForApproval
  | retryScheduled
  | running
  | waitingForRuntime
  | succeeded
  | failed
  | cancelled
  | timedOut
  | recoveryRequired
deriving DecidableEq

def terminalInvocationStates : List InvocationState := [.succeeded, .failed, .cancelled, .timedOut]

def allowedInvocationTransitions : InvocationState → List InvocationState
  | .accepted => [.validating, .waitingForApproval, .retryScheduled, .recoveryRequired, .cancelled]
  | .validating => [.authorized, .retryScheduled, .failed, .recoveryRequired, .cancelled]
  | .authorized => [.running, .retryScheduled, .failed, .recoveryRequired, .cancelled]
  | .waitingForApproval => [.authorized, .failed, .cancelled]
  | .retryScheduled => [.authorized, .failed, .recoveryRequired, .cancelled]
  | .running =>
    [.waitingForRuntime, .retryScheduled, .failed, .timedOut, .recoveryRequired, .cancelled]
  | .waitingForRuntime =>
    [.succeeded, .retryScheduled, .failed, .timedOut, .recoveryRequired, .cancelled]
  | .succeeded => []
  | .failed => []
  | .cancelled => []
  | .timedOut => []
  | .recoveryRequired => [.authorized, .running, .failed, .cancelled]

def canTransition (fromState toState : InvocationState) : Bool :=
  (allowedInvocationTransitions fromState).contains toState

theorem canTransition_of_terminal {fromState : InvocationState}
    (h : fromState ∈ terminalInvocationStates) (toState : InvocationState) :
    canTransition fromState toState = false := by
  simp only [terminalInvocationStates, List.mem_cons, List.not_mem_nil, or_false] at h
  rcases h with rfl | rfl | rfl | rfl <;> rfl

/-- `INVOCATION_CANCELLATION_STATES`. -/
inductive CancellationState where
  | notRequested
  | requested
  | aborting
  | confirmed
  | rejected
  | outcomeUnknown
deriving DecidableEq

/-- `INVOCATION_RECOVERY_STATES`. -/
inductive RecoveryState where
  | notRequired
  | required
  | retrying
  | resolved
deriving DecidableEq

/-- `INVOCATION_RETRY_STATES`. -/
inductive RetryState where
  | notEvaluated
  | notAllowed
  | scheduled
  | exhausted
  | recoveryRequired
  | completed
deriving DecidableEq

/-- `INVOCATION_PROGRESS_STAGES`. -/
inductive ProgressStage where
  | accepted
  | validationStarted
  | authorized
  | executionClaimed
  | requestMapped
  | outboundRequestStarted
  | remoteResponseReceived
  | responseValidationStarted
  | finalizationStarted
  | terminalized
deriving DecidableEq

def maxInvocationStateHistory : Nat := 32

end GhostBridge.DurableWork
