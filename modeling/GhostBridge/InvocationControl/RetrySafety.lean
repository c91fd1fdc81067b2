import GhostBridge.DurableWork.Histories
import GhostBridge.InvocationControl.Execution
import GhostBridge.InvocationControl.RecoveryClaims
import GhostBridge.Machine.Runs

/-!
# Safety of manual retries

Every writer that leaves an invocation in want of recovery records a reason, and none of these
reasons tells that nothing was transmitted.
-/

namespace GhostBridge.InvocationControl

open Ecma DurableWork Machine

/-- A call that may write an invocation, with the readings and the arguments that it uses. -/
inductive Call where
  | requestCancellation (current : Invocation) (now : Int) (traceId : Option Text)
  | scanStuckInvocation (settings : ScanSettings) (candidate : Invocation) (now : Int)
      (traceId : Option Text)
  | interruptByShutdown (current : Invocation) (now : Int) (traceId : Option Text)
  | denyRetry (current : Invocation) (version : ℕ) (decision : PolicyDecision)
  | claimRetry (current : Invocation) (version : ℕ) (decision : PolicyDecision)
      (recoveryClaimId : Text) (expiresAt : Int)
  | linkChild (claimed : Invocation) (recoveryClaimId childInvocationId : Text) (now : Int)
  | completeRetry (claimed : Invocation) (recoveryClaimId childInvocationId : Text)
  | reopenRetry (claimed : Invocation) (recoveryClaimId : Text) (failure : RetryFailure)
  | scanExpiredClaim (secret : Text) (connection : Option Connection) (parent : Invocation)
      (child : Option Invocation)
  | manualResolve (current : Invocation) (resolution : Resolution) (version : ℕ) (now : Int)
      (traceId : Option Text)
  | gatewayTransition (options : LifecycleOptions) (transition : GatewayTransition) (now : Int)
  | markExpiredInvocationLeaseRecovery (options : LifecycleOptions) (fromState : InvocationState)
      (now : Int)
  | markActiveInvocationRecovery (options : LifecycleOptions) (fromState : InvocationState)
      (now : Int)
  | renewInvocationExecutionLease (options : LifecycleOptions) (leaseDurationMs : ℕ) (now : Int)
  | claimInvocationExecution (options : LifecycleOptions) (owner leaseId : Text)
      (leaseDurationMs : ℕ) (now : Int)
  | persistInvocationProgress (options : LifecycleOptions) (stage : ProgressStage)
      (runtimeTimeoutMs : ℕ) (now : Int)
  | startInvocationAttempt (options : LifecycleOptions) (owner leaseId : Text)
  | linkDurableWork (options : LifecycleOptions) (workItemId : Text)
  | failInvocation (options : LifecycleOptions) (currentState : InvocationState)
      (failure : RuntimeFailure) (now : Int)
  | markInvocationPolicyDenied (work : WorkItem)
  | releaseApprovedInvocation (invocationId : Text)
  | prepareInvocationForSafeReplay (work : WorkItem) (input : ReplayInput) (current : Invocation)
      (now : Int)
  | markInvocationRecoveryForWork (work : WorkItem) (reason : RecoveryReason)
      (current : Invocation) (now : Int)
  | terminalizeInvocationForDeadLetter (work : WorkItem) (current : Invocation) (now : Int)
  | reconcileTerminalWorkInvocation (work : WorkItem) (current : Invocation) (now : Int)
  | linkReconciledInvocationWork (work : WorkItem) (current : Invocation)

def Call.write : Call → Checked (Option Write)
  | .requestCancellation current now traceId =>
    InvocationControl.requestCancellation current now traceId
  | .scanStuckInvocation settings candidate now traceId =>
    InvocationControl.scanStuckInvocation settings candidate now traceId
  | .interruptByShutdown current now traceId =>
    InvocationControl.interruptByShutdown current now traceId
  | .denyRetry current version decision =>
    pure (some (InvocationControl.denyRetry current version decision))
  | .claimRetry current version decision recoveryClaimId expiresAt =>
    pure (some (InvocationControl.claimRetry current version decision recoveryClaimId expiresAt))
  | .linkChild claimed recoveryClaimId childInvocationId now =>
    pure (some (InvocationControl.linkChild claimed recoveryClaimId childInvocationId now))
  | .completeRetry claimed recoveryClaimId childInvocationId =>
    pure (some (InvocationControl.completeRetry claimed recoveryClaimId childInvocationId))
  | .reopenRetry claimed recoveryClaimId failure =>
    pure (some (InvocationControl.reopenRetry claimed recoveryClaimId failure))
  | .scanExpiredClaim secret connection parent child =>
    pure (InvocationControl.scanExpiredClaim secret connection parent child)
  | .manualResolve current resolution version now traceId =>
    some <$> InvocationControl.manualResolve current resolution version now traceId
  | .gatewayTransition options transition now =>
    some <$> InvocationControl.gatewayTransition options transition now
  | .markExpiredInvocationLeaseRecovery options fromState now =>
    some <$> InvocationControl.markExpiredInvocationLeaseRecovery options fromState now
  | .markActiveInvocationRecovery options fromState now =>
    some <$> InvocationControl.markActiveInvocationRecovery options fromState now
  | .renewInvocationExecutionLease options leaseDurationMs now =>
    pure (some (InvocationControl.renewInvocationExecutionLease options leaseDurationMs now))
  | .claimInvocationExecution options owner leaseId leaseDurationMs now =>
    some <$> InvocationControl.claimInvocationExecution options owner leaseId leaseDurationMs now
  | .persistInvocationProgress options stage runtimeTimeoutMs now =>
    pure (some (InvocationControl.persistInvocationProgress options stage runtimeTimeoutMs now))
  | .startInvocationAttempt options owner leaseId =>
    pure (some (InvocationControl.startInvocationAttempt options owner leaseId))
  | .linkDurableWork options workItemId =>
    pure (some (InvocationControl.linkDurableWork options workItemId))
  | .failInvocation options currentState failure now =>
    InvocationControl.failInvocation options currentState failure now
  | .markInvocationPolicyDenied work =>
    pure (some (InvocationControl.markInvocationPolicyDenied work))
  | .releaseApprovedInvocation invocationId =>
    pure (some (InvocationControl.releaseApprovedInvocation invocationId))
  | .prepareInvocationForSafeReplay work input current now =>
    InvocationControl.prepareInvocationForSafeReplay work input current now
  | .markInvocationRecoveryForWork work reason current now =>
    some <$> InvocationControl.markInvocationRecoveryForWork work reason current now
  | .terminalizeInvocationForDeadLetter work current now =>
    some <$> InvocationControl.terminalizeInvocationForDeadLetter work current now
  | .reconcileTerminalWorkInvocation work current now =>
    some <$> InvocationControl.reconcileTerminalWorkInvocation work current now
  | .linkReconciledInvocationWork work current =>
    pure (some (InvocationControl.linkReconciledInvocationWork work current))

def step (invocation : Invocation) (call : Call) : Invocation :=
  match call.write with
  | .ok (some write) => write.apply invocation
  | _ => invocation

/-- An invocation that waits for its recovery tells why, and not that nothing was transmitted. -/
def Invocation.Recorded (invocation : Invocation) : Prop :=
  invocation.lifecycleState = .recoveryRequired →
    isOtherReason invocation.recoveryReasonCode = true

def SameKey (invocation next : Invocation) : Prop :=
  next.clientIdempotencyProvided = invocation.clientIdempotencyProvided ∧
    next.idempotencyKeyHash = invocation.idempotencyKeyHash

structure Write.Keeps (write : Write) : Prop where
  recorded : ∀ invocation : Invocation, invocation.Recorded → (write.update invocation).Recorded
  sameKey : ∀ invocation : Invocation, SameKey invocation (write.update invocation)

section Writes

variable {current : Invocation} {now : Int} {traceId : Option Text} {write : Write}

theorem some_map_ok {result : Checked Write} (h : some <$> result = .ok (some write)) :
    result = .ok write := by
  cases result with
  | error failure => cases h
  | ok written =>
    cases h
    rfl

theorem transitionUpdate_recorded {fromState toState : InvocationState} {options : EntryOptions}
    {outcome : Outcome} {update : Invocation → Invocation}
    (h : transitionUpdate fromState toState options outcome = .ok update)
    (hreason : toState = .recoveryRequired → isOtherReason options.reasonCode = true)
    (invocation : Invocation) :
    (update invocation).Recorded ∧ SameKey invocation (update invocation) := by
  simp only [transitionUpdate, bind_ok, pure_ok] at h
  obtain ⟨base, hbase, rfl⟩ := h
  simp only [DurableWork.transitionUpdate, bind_ok, pure_ok] at hbase
  obtain ⟨-, -, entry, -, -, -, rfl⟩ := hbase
  refine ⟨fun hstate => ?_, rfl, rfl⟩
  have hto := (applyTransition_lifecycleState toState entry outcome.toOutcome
    invocation.toInvocation).1
  obtain rfl : toState = .recoveryRequired := hto.symm.trans hstate
  exact hreason rfl

theorem requestCancellation_keeps
    (h : requestCancellation current now traceId = .ok (some write)) : write.Keeps := by
  unfold requestCancellation at h
  split at h
  · cases h
  split at h
  · cases h
  split at h
  · split at h
    · cases h
    · cases h
      exact ⟨fun _ hrecorded => hrecorded, fun _ => ⟨rfl, rfl⟩⟩
  split at h
  · simp only [cancelTransmitted, bind_ok, pure_ok, Option.some.injEq] at h
    obtain ⟨_, ⟨update, hupdate, rfl⟩, rfl⟩ := h
    have hkeeps := transitionUpdate_recorded hupdate fun _ => by dsimp only; decide
    exact ⟨fun invocation _ => (hkeeps invocation).1, fun invocation => (hkeeps invocation).2⟩
  · simp only [cancelLocally, bind_ok, pure_ok, Option.some.injEq] at h
    obtain ⟨_, ⟨update, hupdate, rfl⟩, rfl⟩ := h
    have hkeeps := transitionUpdate_recorded hupdate fun hstate => by cases hstate
    exact ⟨fun invocation _ => (hkeeps invocation).1, fun invocation => (hkeeps invocation).2⟩

theorem scanClassificationOutcome_reason {classification : StuckClassification}
    {lifecycleState targetState : InvocationState} {reasonCode : Text}
    (h : scanClassificationOutcome classification lifecycleState = some (targetState, reasonCode))
    (hstate : targetState = .recoveryRequired) : isOtherReason (some reasonCode) = true := by
  cases classification with
  | notStuck => cases h
  | staleBeforeRuntime =>
    obtain ⟨htarget, -⟩ := Prod.mk.inj (Option.some.inj h)
    rw [hstate] at htarget
    split at htarget <;> cases htarget
  | _ =>
    obtain ⟨-, rfl⟩ := Prod.mk.inj (Option.some.inj h)
    decide

theorem scanStuckInvocation_keeps {settings : ScanSettings}
    (h : scanStuckInvocation settings current now traceId = .ok (some write)) : write.Keeps := by
  simp only [scanStuckInvocation] at h
  split at h
  · cases h
  next targetState reasonCode houtcome =>
    simp only [bind_ok, pure_ok, Option.some.injEq] at h
    obtain ⟨update, hupdate, rfl⟩ := h
    have hkeeps := transitionUpdate_recorded hupdate (scanClassificationOutcome_reason houtcome)
    exact ⟨fun invocation _ => (hkeeps invocation).1, fun invocation => (hkeeps invocation).2⟩

theorem interruptByShutdown_keeps
    (h : interruptByShutdown current now traceId = .ok (some write)) : write.Keeps := by
  unfold interruptByShutdown at h
  split at h
  · simp only [bind_ok, pure_ok, Option.some.injEq] at h
    obtain ⟨update, hupdate, rfl⟩ := h
    have hkeeps := transitionUpdate_recorded hupdate fun hstate => by cases hstate
    exact ⟨fun invocation _ => (hkeeps invocation).1, fun invocation => (hkeeps invocation).2⟩
  · cases h

theorem reopenRetry_keeps (claimed : Invocation) (recoveryClaimId : Text) (failure : RetryFailure) :
    (reopenRetry claimed recoveryClaimId failure).Keeps where
  recorded invocation hrecorded hstate := by
    have hkept := hrecorded hstate
    have hchild : isOtherReason (some failure.childRecoveryReason) = true := by
      unfold RetryFailure.childRecoveryReason
      split <;> decide
    simp only [reopenRetry]
    split
    · exact hchild
    · exact hkept
  sameKey _ := ⟨rfl, rfl⟩

theorem interruptedReason_other (child : Invocation) :
    isOtherReason (some (interruptedReason child)) = true := by
  unfold interruptedReason
  split <;> decide

theorem scanExpiredClaim_keeps {secret : Text} {connection : Option Connection}
    {child : Option Invocation} (h : scanExpiredClaim secret connection current child = some write) :
    write.Keeps := by
  cases child with
  | none =>
    cases h
    exact ⟨fun _ hrecorded => hrecorded, fun _ => ⟨rfl, rfl⟩⟩
  | some child =>
    simp only [scanExpiredClaim] at h
    split at h
    · cases h
    split at h
    · cases h
      exact ⟨fun _ hrecorded => hrecorded, fun _ => ⟨rfl, rfl⟩⟩
    split at h
    · cases h
      exact ⟨fun _ hrecorded => hrecorded, fun _ => ⟨rfl, rfl⟩⟩
    · cases h
      exact ⟨fun _ _ _ => interruptedReason_other child, fun _ => ⟨rfl, rfl⟩⟩

theorem manualResolve_keeps {resolution : Resolution} {version : ℕ}
    (h : manualResolve current resolution version now traceId = .ok write) : write.Keeps := by
  simp only [manualResolve, bind_ok, pure_ok] at h
  obtain ⟨update, hupdate, rfl⟩ := h
  have hresolved : resolution.state ≠ .recoveryRequired := by cases resolution <;> decide
  have hkeeps := transitionUpdate_recorded hupdate fun hstate => absurd hstate hresolved
  exact ⟨fun invocation _ => (hkeeps invocation).1, fun invocation => (hkeeps invocation).2⟩

theorem transitionInvocation_keeps {options : LifecycleOptions} {outcome : Outcome}
    {fromState toState : InvocationState}
    (h : transitionInvocation options outcome fromState toState now = .ok write)
    (hreason : toState = .recoveryRequired → isOtherReason options.reasonCode = true) :
    write.Keeps := by
  simp only [transitionInvocation, bind_ok, pure_ok] at h
  obtain ⟨update, hupdate, rfl⟩ := h
  have hkeeps := transitionUpdate_recorded hupdate hreason
  exact ⟨fun invocation _ => (hkeeps invocation).1, fun invocation => (hkeeps invocation).2⟩

theorem gatewayTransition_keeps {options : LifecycleOptions} {transition : GatewayTransition}
    (h : gatewayTransition options transition now = .ok write) : write.Keeps := by
  have hstate : transition.toState ≠ .recoveryRequired := by cases transition <;> decide
  exact transitionInvocation_keeps h fun heq => absurd heq hstate

theorem markRecovery_keeps {options : LifecycleOptions} {reasonCode : Text}
    {fromState : InvocationState} {guard : DurableWork.Invocation → Bool}
    (h : markRecovery options reasonCode fromState guard now = .ok write)
    (hreason : isOtherReason (some reasonCode) = true) : write.Keeps := by
  simp only [markRecovery, bind_ok, pure_ok] at h
  obtain ⟨update, hupdate, rfl⟩ := h
  have hkeeps := transitionUpdate_recorded hupdate fun _ => hreason
  exact ⟨fun invocation _ => (hkeeps invocation).1, fun invocation => (hkeeps invocation).2⟩

theorem claimInvocationExecution_keeps {options : LifecycleOptions} {owner leaseId : Text}
    {leaseDurationMs : ℕ}
    (h : claimInvocationExecution options owner leaseId leaseDurationMs now = .ok write) :
    write.Keeps := by
  simp only [claimInvocationExecution, bind_ok, pure_ok] at h
  obtain ⟨update, hupdate, rfl⟩ := h
  have hkeeps := transitionUpdate_recorded hupdate fun hstate => by cases hstate
  exact ⟨fun invocation _ => (hkeeps invocation).1, fun invocation => (hkeeps invocation).2⟩

theorem RuntimeFailure.reasonCode_other {failure : RuntimeFailure}
    (h : failure.targetState = .recoveryRequired) :
    isOtherReason (some failure.reasonCode) = true := by
  have hreason : isOtherReason (some failure.recoveryReasonFor) = true := by
    unfold RuntimeFailure.recoveryReasonFor
    split
    next hint _ => cases hint <;> decide
    · split
      · decide
      · split <;> decide
  simp only [RuntimeFailure.reasonCode, h]
  split
  · decide
  · exact hreason

theorem failInvocation_keeps {options : LifecycleOptions} {currentState : InvocationState}
    {failure : RuntimeFailure}
    (h : failInvocation options currentState failure now = .ok (some write)) : write.Keeps := by
  unfold failInvocation at h
  split at h
  · simp only [bind_ok, pure_ok, Option.some.injEq] at h
    obtain ⟨_, hwrite, rfl⟩ := h
    exact transitionInvocation_keeps hwrite RuntimeFailure.reasonCode_other
  · cases h

theorem prepareInvocationForSafeReplay_keeps {work : WorkItem} {input : ReplayInput}
    (h : prepareInvocationForSafeReplay work input current now = .ok (some write)) :
    write.Keeps := by
  unfold prepareInvocationForSafeReplay at h
  split at h
  · cases h
  · simp only [bind_ok, pure_ok, Option.some.injEq] at h
    obtain ⟨entries, -, rfl⟩ := h
    refine ⟨fun _ _ hstate => ?_, fun _ => ⟨rfl, rfl⟩⟩
    cases hstate

theorem recoveryReason_other (reason : RecoveryReason) :
    isOtherReason (some (ascii reason.name)) = true := by
  cases reason <;> decide

theorem markInvocationRecoveryForWork_keeps {work : WorkItem} {reason : RecoveryReason}
    (h : markInvocationRecoveryForWork work reason current now = .ok write) : write.Keeps := by
  simp only [markInvocationRecoveryForWork, bind_ok, pure_ok] at h
  obtain ⟨update, hupdate, rfl⟩ := h
  have hkeeps := transitionUpdate_recorded hupdate fun _ => recoveryReason_other reason
  exact ⟨fun invocation _ => (hkeeps invocation).1, fun invocation => (hkeeps invocation).2⟩

theorem terminalizeInvocationForDeadLetter_keeps {work : WorkItem}
    (h : terminalizeInvocationForDeadLetter work current now = .ok write) : write.Keeps := by
  unfold terminalizeInvocationForDeadLetter at h
  split at h
  · cases h
    exact ⟨fun _ hrecorded => hrecorded, fun _ => ⟨rfl, rfl⟩⟩
  · simp only [bind_ok, pure_ok] at h
    obtain ⟨update, hupdate, rfl⟩ := h
    have hkeeps := transitionUpdate_recorded hupdate fun _ => by dsimp only; decide
    exact ⟨fun invocation _ => (hkeeps invocation).1, fun invocation => (hkeeps invocation).2⟩

theorem reconcileTerminalWorkInvocation_keeps {work : WorkItem}
    (h : reconcileTerminalWorkInvocation work current now = .ok write) : write.Keeps := by
  simp only [reconcileTerminalWorkInvocation, bind_ok, pure_ok] at h
  obtain ⟨entries, -, rfl⟩ := h
  refine ⟨fun invocation _ hstate => ?_, fun _ => ⟨rfl, rfl⟩⟩
  have hto : stateOfTerminalWork work.status = .recoveryRequired := hstate
  simp only [hto, if_true]
  exact recoveryReason_other _

end Writes

theorem Call.write_keeps {call : Call} {write : Write} (h : call.write = .ok (some write)) :
    write.Keeps := by
  cases call with
  | requestCancellation current now traceId => exact requestCancellation_keeps h
  | scanStuckInvocation settings candidate now traceId => exact scanStuckInvocation_keeps h
  | interruptByShutdown current now traceId => exact interruptByShutdown_keeps h
  | reopenRetry claimed recoveryClaimId failure =>
    cases h
    exact reopenRetry_keeps claimed recoveryClaimId failure
  | scanExpiredClaim secret connection parent child =>
    exact scanExpiredClaim_keeps (Except.ok.inj h)
  | manualResolve current resolution version now traceId =>
    exact manualResolve_keeps (some_map_ok h)
  | gatewayTransition options transition now => exact gatewayTransition_keeps (some_map_ok h)
  | markExpiredInvocationLeaseRecovery options fromState now =>
    exact markRecovery_keeps (some_map_ok h) (by decide)
  | markActiveInvocationRecovery options fromState now =>
    exact markRecovery_keeps (some_map_ok h) (by decide)
  | claimInvocationExecution options owner leaseId leaseDurationMs now =>
    exact claimInvocationExecution_keeps (some_map_ok h)
  | failInvocation options currentState failure now => exact failInvocation_keeps h
  | prepareInvocationForSafeReplay work input current now =>
    exact prepareInvocationForSafeReplay_keeps h
  | markInvocationRecoveryForWork work reason current now =>
    exact markInvocationRecoveryForWork_keeps (some_map_ok h)
  | terminalizeInvocationForDeadLetter work current now =>
    exact terminalizeInvocationForDeadLetter_keeps (some_map_ok h)
  | reconcileTerminalWorkInvocation work current now =>
    exact reconcileTerminalWorkInvocation_keeps (some_map_ok h)
  | markInvocationPolicyDenied work =>
    cases h
    refine ⟨fun _ _ hstate => ?_, fun _ => ⟨rfl, rfl⟩⟩
    cases hstate
  | releaseApprovedInvocation invocationId =>
    cases h
    refine ⟨fun _ _ hstate => ?_, fun _ => ⟨rfl, rfl⟩⟩
    cases hstate
  | _ =>
    cases h
    exact ⟨fun _ hrecorded => hrecorded, fun _ => ⟨rfl, rfl⟩⟩

theorem step_keeps {invocation : Invocation} (call : Call) (h : invocation.Recorded) :
    (step invocation call).Recorded ∧ SameKey invocation (step invocation call) := by
  unfold step
  split
  next write hwrite =>
    unfold Write.apply
    split
    · have hkeeps := Call.write_keeps hwrite
      exact ⟨hkeeps.recorded invocation h, hkeeps.sameKey invocation⟩
    · exact ⟨h, rfl, rfl⟩
  · exact ⟨h, rfl, rfl⟩

theorem reserveInvocation_ok {secret uuid : Text} {reservation : Reservation}
    {created : Invocation} (h : reserveInvocation secret uuid reservation = .ok created) :
    created.lifecycleState = .accepted ∧
      (created.clientIdempotencyProvided = true ↔ reservation.ClientGaveKey) := by
  simp only [reserveInvocation, bind_ok, pure_ok] at h
  obtain ⟨idempotency, hidempotency, rfl⟩ := h
  exact ⟨rfl, createInvocationIdempotency_clientProvided hidempotency⟩

theorem recorded_after {secret uuid : Text} {reservation : Reservation} {created : Invocation}
    (hcreated : reserveInvocation secret uuid reservation = .ok created) (calls : List Call) :
    (after step created calls).Recorded ∧
      ((after step created calls).clientIdempotencyProvided = true ↔
        reservation.ClientGaveKey) := by
  obtain ⟨hstate, hclient⟩ := reserveInvocation_ok hcreated
  refine after_induction (I := fun invocation : Invocation => invocation.Recorded ∧
    (invocation.clientIdempotencyProvided = true ↔ reservation.ClientGaveKey)) ?_ ?_
  · refine ⟨fun hrequired => ?_, hclient⟩
    rw [hstate] at hrequired
    cases hrequired
  · intro invocation call ⟨hrecorded, hprovided⟩ _
    obtain ⟨hstep, hsame⟩ := step_keeps call hrecorded
    exact ⟨hstep, by rw [hsame.1]; exact hprovided⟩

theorem retryAllowed_of_recorded {secret : Text} {invocation : Invocation}
    {connection : Option Connection} {reason : DecisionReason} (h : invocation.Recorded)
    (hdecision : recoveryPolicyDecision (controlContext secret invocation connection) =
      .retryAllowed reason) :
    reason = .remoteIdempotencyConfirmed ∧
      connection.any Connection.remoteIdempotencySupported = true ∧
      invocation.clientIdempotencyProvided = true := by
  obtain ⟨hstate, hunknown | hknown⟩ := recoveryPolicyDecision_retryAllowed hdecision
  · obtain ⟨-, hconfirmed, hreason⟩ := hunknown
    simp only [remoteIdempotencyConfirmed, Bool.and_eq_true] at hconfirmed
    exact ⟨hreason, hconfirmed.1.1.1.1, hconfirmed.1.1.1.2⟩
  · obtain ⟨hknown, -⟩ := hknown
    have hother := h hstate
    simp only [outcomeUnknown, Bool.or_eq_false_iff] at hknown
    have hnone : isOtherReason invocation.recoveryReasonCode = false := hknown.1.2
    rw [hnone] at hother
    cases hother

/-- Over every history of an invocation, a retry that is allowed since nothing was transmitted is
one of an invocation that no attempt has brought to its runtime; every other retry that is allowed
is one over a connection that supports remote idempotency, of a request with a key of the client. -/
theorem manual_retry_safe (secret uuid : Text) (reservation : Reservation) (created : Invocation)
    (hcreated : reserveInvocation secret uuid reservation = .ok created) (calls : List Call)
    (connection : Option Connection) (reason : DecisionReason)
    (hdecision : recoveryPolicyDecision
      (controlContext secret (after step created calls) connection) = .retryAllowed reason) :
    (reason = .noRemoteTransmission → ∀ before, before <+: calls →
      (after step created before).lifecycleState ≠ .waitingForRuntime ∧
        hasEnteredRuntime (after step created before) = false) ∧
    (reason ≠ .noRemoteTransmission →
      connection.any Connection.remoteIdempotencySupported = true ∧ reservation.ClientGaveKey) := by
  obtain ⟨hrecorded, hclient⟩ := recorded_after hcreated calls
  obtain ⟨hreason, hsupported, hprovided⟩ := retryAllowed_of_recorded hrecorded hdecision
  constructor
  · intro hnone
    rw [hreason] at hnone
    cases hnone
  · intro _
    exact ⟨hsupported, hclient.mp hprovided⟩

private def exampleReservation : Reservation where
  id := ascii "i"
  receivingWorkspaceId := ascii "w"
  connectionId := ascii "c"
  capability := ascii "p"
  input := .null
  inputSummary := .null
  idempotencyKey := some (ascii "k")
  now := 1

private def exampleIdempotency : Idempotency :=
  (createInvocationIdempotency (ascii "s") [] exampleReservation.request).toOption.getD
    ⟨[], [], [], false⟩

private theorem exampleIdempotency_created :
    createInvocationIdempotency (ascii "s") [] exampleReservation.request =
      .ok exampleIdempotency := by
  decide +kernel

private def exampleOptions : LifecycleOptions :=
  { invocationId := ascii "i", receivingWorkspaceId := ascii "w" }

private def exampleCalls : List Call :=
  [.gatewayTransition exampleOptions .requestValidationStarted 2,
    .gatewayTransition exampleOptions .invocationAuthorized 3,
    .claimInvocationExecution exampleOptions (ascii "o") (ascii "l") 1000 4,
    .gatewayTransition exampleOptions .runtimeRequestTransmissionStarted 5,
    .failInvocation exampleOptions .waitingForRuntime
      { error := { code := ascii "SAFE_FETCH_TIMEOUT" }
        externalCallStarted := true
        responsePersistenceUncertain := false } 6]

private def exampleConnection : Connection where
  status := some (ascii "connected")
  healthStatus := some (ascii "healthy")
  remoteIdempotencySupported := true

theorem manual_retry_safe_timeout : exampleReservation.ClientGaveKey :=
  have hcreated : reserveInvocation (ascii "s") [] exampleReservation =
      .ok (createInvocation exampleReservation exampleIdempotency) := by
    rw [reserveInvocation, exampleIdempotency_created]
    rfl
  ((manual_retry_safe (ascii "s") [] exampleReservation _ hcreated exampleCalls
    (some exampleConnection) .remoteIdempotencyConfirmed (by decide +kernel)).2 nofun).2

end GhostBridge.InvocationControl
