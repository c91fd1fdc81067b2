import GhostBridge.DurableWork.LeaseCalls

/-!
# The calls of scans, operators and reconciliations

The scan of abandoned work, the requeueing of dead letters, and the reconciliation of accepted
invocations.
-/

namespace GhostBridge.DurableWork

open Ecma Machine

variable {s : Progress} {env : Env} {options : Options}

theorem conducts_replayPreparationOwnership :
    Conducts s (fun t ownership => ownership.leaseToken ∈ t.tokens) replayPreparationOwnership := by
  refine conducts_randomUUID.bind fun t uuid _ _ => ?_
  exact conducts_rawLeaseToken.bind fun u token _ htoken => Async.rising_pure htoken

section Replay

variable {preparing : WorkItem} {ownership : Ownership} {now : Int}

theorem conducts_terminalizeDenial (hs : s.Free) {filter : WorkItem → Bool} {reasonCode : Text}
    (hended : ∀ work, work.Sound → s.Knows work → filter work = true →
      ItemStep s work (replayDenialUpdate (replayDenialStatus reasonCode) reasonCode now work)) :
    Conducts s (fun _ _ => True) (terminalizeDenial filter reasonCode now options) := by
  refine (conducts_updateWork (by exact fun _ => rfl) fun time item hsound hknows hfilter =>
    .touched (hended item hsound hknows hfilter) _).bind fun t item hst _ => ?_
  cases item with
  | none => exact Async.rising_pure trivial
  | some item =>
    exact (conducts_outboxForWork (hs.mono hst)).bind fun _ _ _ _ => Async.rising_pure trivial

theorem conducts_terminalizeReplayPreparation (hs : s.Free)
    (htoken : ownership.leaseToken ∈ s.tokens) {reasonCode : Text} :
    Conducts s (fun _ _ => True)
      (terminalizeReplayPreparation preparing ownership reasonCode now options) :=
  conducts_terminalizeDenial hs fun _ hsound _ hfilter =>
    (replayPreparationFilter_prepared hfilter).ended hs htoken hsound
      (WorkItem.closed_set ..) (replayDenialStatus_terminal reasonCode)

theorem conducts_replayPrepared (hs : s.Free) (htoken : ownership.leaseToken ∈ s.tokens)
    (htaken : preparing ∈ s.taken) {input : ReplayInput} {nextAttemptNumber : ℕ}
    {status : WorkStatus} (hstatus : status ∈ claimableDurableWorkStatuses)
    (hnow : ∀ now, input.now.or options.now = some now → now ∈ s.readings) :
    Conducts s (fun _ _ => True)
      (replayPrepared preparing ownership input nextAttemptNumber status now options) := by
  refine (conducts_prepareInvocationForSafeReplay (by exact hnow)).bind fun t prepared hst _ => ?_
  have ht := hs.mono hst
  have htoken' := Progress.tokens_mono hst htoken
  split
  · refine (conducts_updateWork (by exact fun _ => rfl) fun time item hsound _ hfilter =>
      .touched ?_ _).bind fun u item _ _ => ?_
    · exact (replayPreparationFilter_prepared hfilter).released ht htoken'
        (Progress.taken_mono hst htaken) hsound hstatus
    cases item with
    | none => exact Async.rising_pure trivial
    | some item => exact Async.rising_pure trivial
  · exact (conducts_terminalizeReplayPreparation ht htoken').bind fun _ _ _ _ =>
      Async.rising_pure trivial

end Replay

private theorem conducts_released (hs : s.Free)
    {replayed : Replayed} {denied : Text → Failure} {lost : Failure} {event : OutboxEventType}
    {metadata : SafeMetadata → SafeMetadata} :
    Conducts s (fun _ _ => True) (match replayed with
      | .released item => do
        outboxForWork item event metadata options
        pure item
      | .denied reasonCode _ => throw (denied reasonCode)
      | .fenceLost => throw lost) := by
  cases replayed with
  | released item =>
    exact (conducts_outboxForWork hs).bind fun _ _ _ _ => Async.rising_pure trivial
  | denied reasonCode item => exact Async.rising_throw
  | fenceLost => exact Async.rising_throw

theorem conducts_scheduleRetry {workItemId : Text} {ownership : Ownership}
    (hs : s.Presenter workItemId ownership) (hcareful : s.careful = false)
    {errorCode : Option Text} (hnow : ∀ now, options.now = some now → now ∈ s.readings) :
    Conducts s (fun _ _ => True) (scheduleRetry env workItemId ownership errorCode options) := by
  refine (conducts_dateValue hnow).bind fun t now hst hreading => ?_
  refine conducts_findOneWork.bind fun u current htu hcurrent => ?_
  cases current with
  | none => exact Async.rising_throw
  | some current =>
    have hseen := (hcurrent current rfl).seen
    refine conducts_evaluateRetry.bind fun v decision huv _ => ?_
    refine Async.Rising.check fun _ _ => Async.Rising.check fun _ _ => ?_
    refine Async.Rising.check fun reason _ => Async.Rising.check fun _ _ => ?_
    have htv := htu.trans huv
    have hreadings (w : Progress) (hvw : v ≤ w) : now ∈ w.readings :=
      Progress.readings_mono (htv.trans hvw) hreading
    refine (conducts_prepareInvocationForSafeReplay fun time h => ?_).bind
      fun w preparation hvw hpreparation => ?_
    · exact Option.some.inj h ▸ hreadings v le_rfl
    cases preparation with
    | denied reasonCode => exact Async.rising_throw
    | allowed nextAttemptNumber =>
      have hpos := hpreparation nextAttemptNumber rfl
      refine Async.Rising.check fun _ hbounds => ?_
      simp only [throwWhen_ok, Bool.or_eq_false_iff, decide_eq_false_iff_not, not_le, not_lt]
        at hbounds
      refine conducts_replayPreparationOwnership.bind fun x preparation hwx htoken => ?_
      have hux : u ≤ x := huv.trans (hvw.trans hwx)
      have hsx : s ≤ x := hst.trans (htu.trans hux)
      refine (conducts_updateWork (by exact fun _ => rfl) fun time item hsound hknows hfilter =>
        .touched ?_ _).bind fun y preparing hxy hpreparing => ?_
      · simp only [Bool.and_eq_true] at hfilter
        have howned := ownershipFilter_ownedBy hfilter.1.1
        have hcurrentId : current.id = item.id := by
          have hfound := ownershipFilter_ownedBy (hcurrent current rfl).filter
          exact hfound.id_eq.trans howned.id_eq.symm
        have hlater := hknows current (Progress.seen_mono hux hseen) hcurrentId
        exact retryUpdate_step howned ((hs.mono hsx).owner (hreadings x (hvw.trans hwx))) hsound
          ((Progress.careful_eq hsx).symm.trans hcareful) hpos
          (hbounds.2.trans hlater.maximumAttempts_le)
      cases preparing with
      | none => exact Async.rising_throw
      | some preparing =>
        have hupdated := hpreparing preparing rfl
        have hy := Progress.free_of_updated hupdated.updated
        obtain ⟨time, item, -, -, -, hitem⟩ := hupdated.before
        have htaken : preparing ∈ y.taken := hupdated.taken (by rw [hitem]; rfl)
        refine (conducts_replayPrepared hy (Progress.tokens_mono hxy htoken) htaken
          (by decide) fun time h => ?_).bind fun z replayed hyz _ => ?_
        · exact Option.some.inj h ▸ hreadings y (hvw.trans (hwx.trans hxy))
        exact conducts_released (hy.mono hyz)

section Scan

variable {candidate : WorkItem} {cutoff now : Int}

theorem conducts_terminalizeAbandonedReplayDenial (hs : s.Scanner cutoff now)
    (hcandidate : s.Candidate candidate) {reasonCode : Text} :
    Conducts s (fun _ _ => True)
      (terminalizeAbandonedReplayDenial candidate cutoff reasonCode now options) :=
  conducts_terminalizeDenial hs.free fun _ hsound _ hfilter =>
    (abandonedCasFilter_abandoned hfilter).ended hs hcandidate hsound
      (WorkItem.closed_set ..) (replayDenialStatus_terminal reasonCode)

theorem conducts_endAbandoned (hs : s.Free) {filter : WorkItem → Bool}
    {update : WorkItem → WorkItem} {eventType : OutboxEventType}
    {metadata : SafeMetadata → SafeMetadata} {count : ScanResult → ScanResult}
    {result : ScanResult}
    (hversion : ∀ work, (update work).version = work.version + 1)
    (hended : ∀ work, work.Sound → filter work = true → ItemStep s work (update work)) :
    Conducts s (fun _ _ => True)
      (endAbandoned filter update eventType metadata count options result) := by
  refine (conducts_updateWork hversion fun time item hsound _ hfilter =>
    .touched (hended item hsound hfilter) _).bind fun t item hst _ => ?_
  cases item with
  | none => exact Async.rising_pure trivial
  | some item =>
    exact (conducts_outboxForWork (hs.mono hst)).bind fun _ _ _ _ => Async.rising_pure trivial

theorem conducts_reconcileAbandoned (hs : s.Scanner cutoff now) (hcandidate : s.Candidate candidate)
    {state : InvocationState} {result : ScanResult} :
    Conducts s (fun _ _ => True)
      (reconcileAbandoned candidate cutoff now state options result) := by
  have hstatus : statusOfTerminal state ∈ terminalDurableWorkStatuses := by
    unfold statusOfTerminal
    split <;> decide
  unfold reconcileAbandoned
  refine conducts_endAbandoned hs.free (by exact fun _ => rfl) fun work hsound hfilter => ?_
  exact (abandonedCasFilter_abandoned hfilter).ended hs hcandidate hsound
    (work.closed_set ..) hstatus

theorem conducts_cancelAbandoned (hs : s.Scanner cutoff now) (hcandidate : s.Candidate candidate)
    {result : ScanResult} :
    Conducts s (fun _ _ => True) (cancelAbandoned candidate cutoff now options result) := by
  unfold cancelAbandoned
  refine conducts_endAbandoned hs.free (by exact fun _ => rfl) fun work hsound hfilter => ?_
  exact (abandonedCasFilter_abandoned hfilter).ended hs hcandidate hsound
    (WorkItem.closed_set ..) (by simp [cancelAbandonedUpdate, terminalDurableWorkStatuses])

theorem conducts_recoverAbandoned (hs : s.Scanner cutoff now) (hcandidate : s.Candidate candidate)
    {recoveryReasonCode : RecoveryReason} {result : ScanResult} :
    Conducts s (fun _ _ => True)
      (recoverAbandoned candidate cutoff now recoveryReasonCode options result) := by
  refine (conducts_updateWork (by exact fun _ => rfl) fun time item hsound _ hfilter =>
    .touched ?_ _).bind fun t item hst _ => ?_
  · exact (abandonedCasFilter_abandoned hfilter).ended hs hcandidate hsound
      (WorkItem.closed_set ..) (by simp [recoveryAbandonedUpdate, terminalDurableWorkStatuses])
  cases item with
  | none => exact Async.rising_pure trivial
  | some item =>
    refine conducts_markInvocationRecoveryForWork.bind fun u _ htu _ => ?_
    exact (conducts_outboxForWork (hs.free.mono (hst.trans htu))).bind fun _ _ _ _ =>
      Async.rising_pure trivial

theorem conducts_replayAbandoned (hs : s.Scanner cutoff now) (hcandidate : s.Candidate candidate)
    (hallowed : (classifyAbandonedWork candidate).replayAllowed = true)
    {classification : Classification} {reasonCode : Text} {result : ScanResult} :
    Conducts s (fun _ _ => True)
      (replayAbandoned env candidate cutoff now classification reasonCode options result) := by
  refine (conducts_prepareInvocationForSafeReplay fun time h => ?_).bind
    fun t inspected hst hinspected => ?_
  · exact Option.some.inj h ▸ hs.reading
  have ht := hs.mono hst
  have hcandidate' := hcandidate.mono hst
  cases inspected with
  | denied denial =>
    exact (conducts_terminalizeAbandonedReplayDenial ht hcandidate').bind fun _ _ _ _ =>
      Async.rising_pure trivial
  | allowed nextAttemptNumber =>
    have hpos := hinspected nextAttemptNumber rfl
    dsimp only
    split
    · exact (conducts_terminalizeAbandonedReplayDenial ht hcandidate').bind fun _ _ _ _ =>
        Async.rising_pure trivial
    · next hle =>
      refine conducts_replayPreparationOwnership.bind fun u preparation htu htoken => ?_
      refine (conducts_updateWork (by exact fun _ => rfl) fun time item hsound hknows hfilter =>
        .touched ?_ _).bind fun v preparing huv hpreparing => ?_
      · exact abandonedRetryUpdate_step (abandonedCasFilter_abandoned hfilter) (ht.mono htu)
          (hcandidate'.mono htu) hknows hsound hallowed hpos (not_lt.mp hle)
      cases preparing with
      | none => exact Async.rising_pure trivial
      | some preparing =>
        have hupdated := hpreparing preparing rfl
        have hv := (ht.mono htu).mono huv
        obtain ⟨time, item, -, -, -, hitem⟩ := hupdated.before
        have htaken : preparing ∈ v.taken := hupdated.taken (by rw [hitem]; rfl)
        refine (conducts_replayPrepared hv.free (Progress.tokens_mono huv htoken) htaken
          (by decide) fun time h => ?_).bind fun w replayed hvw _ => ?_
        · exact Option.some.inj h ▸ hv.reading
        cases replayed with
        | released item =>
          exact (conducts_outboxForWork (hv.mono hvw).free).bind fun _ _ _ _ =>
            Async.rising_pure trivial
        | denied reasonCode item => exact Async.rising_pure trivial
        | fenceLost => exact Async.rising_pure trivial

theorem conducts_deadLetterAbandoned (hs : s.Scanner cutoff now)
    (hcandidate : s.Candidate candidate)
    (hallowed : (classifyAbandonedWork candidate).replayAllowed = true) {result : ScanResult} :
    Conducts s (fun _ _ => True) (deadLetterAbandoned env candidate cutoff now options result) := by
  refine conducts_replayPreparationOwnership.bind fun t preparation hst htoken => ?_
  refine (conducts_updateWork (by exact fun _ => rfl) fun time item hsound hknows hfilter =>
    .touched ?_ _).bind fun u preparing htu _ => ?_
  · exact deadLetterPreparingUpdate_step (abandonedCasFilter_abandoned hfilter) (hs.mono hst)
      (hcandidate.mono hst) hknows hsound hallowed env preparation
  cases preparing with
  | none => exact Async.rising_pure trivial
  | some preparing =>
    refine conducts_terminalizeInvocationForDeadLetter.bind fun v terminalized huv _ => ?_
    have hv := (hs.mono (hst.trans (htu.trans huv))).free
    have htoken' := Progress.tokens_mono (htu.trans huv) htoken
    split
    · exact conducts_endAbandoned hv (by exact fun _ => rfl) fun _ hsound hfilter =>
        (replayPreparationFilter_prepared hfilter).ended hv htoken' hsound
          (WorkItem.closed_set ..) (by simp [unresolvedDeadLetterUpdate, terminalDurableWorkStatuses])
    · exact conducts_endAbandoned hv (by exact fun _ => rfl) fun _ hsound hfilter =>
        (replayPreparationFilter_prepared hfilter).ended hv htoken' hsound
          (WorkItem.closed_set ..) (by simp [deadLetterUpdateOfWork, terminalDurableWorkStatuses])

theorem conducts_scanCandidate (hs : s.Scanner cutoff now) (hcandidate : s.Candidate candidate)
    {result : ScanResult} :
    Conducts s (fun _ _ => True) (scanCandidate env cutoff now options result candidate) := by
  have hstate : Conducts s (fun _ _ => True) (invocationTerminalState candidate) :=
    conducts_findOneInvocation.bind fun _ _ _ _ => Async.rising_pure trivial
  refine hstate.bind fun t terminalState hst _ => ?_
  have ht := hs.mono hst
  have hcandidate' := hcandidate.mono hst
  split
  · exact conducts_reconcileAbandoned ht hcandidate'
  · dsimp only
    split
    · next h =>
      rw [Bool.and_eq_true] at h
      exact conducts_replayAbandoned ht hcandidate' h.2
    split
    · exact conducts_cancelAbandoned ht hcandidate'
    split
    · next h =>
      rw [Bool.and_eq_true] at h
      exact conducts_deadLetterAbandoned ht hcandidate' h.2
    · exact conducts_recoverAbandoned ht hcandidate'

end Scan

theorem conducts_scanAbandonedWork (hs : s.Free) {input : ScanInput} {graceMs : Option ℕ}
    (hnow : ∀ now, input.now.or options.now = some now → now ∈ s.readings) :
    Conducts s (fun _ _ => True) (scanAbandonedWork env input graceMs options) := by
  refine (conducts_dateValue hnow).bind fun t now hst hreading => ?_
  refine Async.Rising.check fun _ _ => Async.Rising.check fun limit _ => ?_
  refine conducts_findWork.bind fun u candidates htu hcandidates => ?_
  have hscanner : u.Scanner (now - (graceMs.getD env.abandonedGraceMs : ℕ)) now :=
    ⟨hs.mono (hst.trans htu), Progress.readings_mono htu hreading, by omega⟩
  refine (Async.rising_foldlM (I := fun _ _ => True) trivial fun v result candidate huv hmem _ => ?_)
  have hread := hcandidates candidate hmem
  have hfilter := hread.filter
  simp only [Bool.and_eq_true, List.contains_iff_mem] at hfilter
  have hcandidate : u.Candidate candidate := ⟨hread.seen, hread.sound, hfilter.1.2⟩
  exact conducts_scanCandidate (hscanner.mono huv) (hcandidate.mono huv)

theorem conducts_requeueDeadLetter (hs : s.Free) {input : RequeueInput}
    (hnow : ∀ now, options.now = some now → now ∈ s.readings) :
    Conducts s (fun _ _ => True) (requeueDeadLetter env input options) := by
  refine (conducts_dateValue hnow).bind fun t now hst hreading => ?_
  refine conducts_findOneWork.bind fun u found htu hfound => ?_
  cases found with
  | none => exact Async.rising_throw
  | some current =>
    have hread := hfound current rfl
    have hdead : current.status = .deadLettered := by
      have hfilter := hread.filter
      simp only [Bool.and_eq_true, beq_iff_eq] at hfilter
      exact hfilter.2
    refine Async.Rising.check fun _ hproven => ?_
    simp only [throwWhen_ok, Bool.or_eq_false_iff, Bool.not_eq_false', decide_eq_false_iff_not,
      not_le] at hproven
    obtain ⟨⟨hallowed, hcount⟩, -⟩ := hproven
    have hreadings (v : Progress) (huv : u ≤ v) : now ∈ v.readings :=
      Progress.readings_mono (htu.trans huv) hreading
    refine (conducts_prepareInvocationForSafeReplay fun time h => ?_).bind
      fun v preparation huv hpreparation => ?_
    · exact Option.some.inj h ▸ hreadings u le_rfl
    cases preparation with
    | denied reasonCode => exact Async.rising_throw
    | allowed nextAttemptNumber =>
      have hpos := hpreparation nextAttemptNumber rfl
      refine Async.Rising.check fun _ _ => ?_
      refine conducts_replayPreparationOwnership.bind fun w preparation hvw htoken => ?_
      have huw := huv.trans hvw
      have hw : w.Free := hs.mono (hst.trans (htu.trans huw))
      refine (conducts_updateWork (by exact fun _ => rfl) fun time item hsound hknows hfilter =>
        .touched ?_ _).bind fun x preparing hwx hpreparing => ?_
      · simp only [Bool.and_eq_true, beq_iff_eq, decide_eq_true_eq, byId] at hfilter
        obtain ⟨⟨⟨⟨hid, -⟩, hstatus⟩, -⟩, hrequeued⟩ := hfilter
        exact requeueUpdate_step hw (hreadings w huw) (Progress.seen_mono huw hread.seen) hdead
          hallowed hcount hpos hknows hsound hid hstatus hrequeued
      cases preparing with
      | none => exact Async.rising_throw
      | some preparing =>
        have hupdated := hpreparing preparing rfl
        have hx := hw.mono hwx
        obtain ⟨time, item, -, -, -, hitem⟩ := hupdated.before
        have htaken : preparing ∈ x.taken := hupdated.taken (by rw [hitem]; rfl)
        refine (conducts_replayPrepared hx (Progress.tokens_mono hwx htoken) htaken (by decide)
          fun time h => ?_).bind fun y replayed hxy _ => ?_
        · exact Option.some.inj h ▸ hreadings x (huw.trans hwx)
        exact conducts_released (hx.mono hxy)

section Reconcile

variable {now : Int}

theorem conducts_reserveWorkForReconciliation (hs : s.Claimer now) {workItem : WorkItem} :
    Conducts s (fun t reservation => ∀ found, reservation = some found →
        found.ownership.leaseToken ∈ t.tokens ∧
          found.releaseStatus ∈ claimableDurableWorkStatuses)
      (reserveWorkForReconciliation env workItem now) := by
  unfold reserveWorkForReconciliation
  split
  · exact Async.rising_pure fun _ h => nomatch h
  · next hclaimable =>
    have hstatus : workItem.status ∈ claimableDurableWorkStatuses := by simpa using hclaimable
    have hname : Conducts s (fun _ _ => True) reconcilerName :=
      conducts_randomUUID.bind fun _ _ _ _ => Async.rising_pure trivial
    refine hname.bind fun t leaseOwner hst _ => ?_
    refine conducts_rawLeaseToken.bind fun u token htu htoken => ?_
    have hu := hs.mono (hst.trans htu)
    refine (conducts_updateWork (by exact fun _ => rfl) fun time item hsound _ hfilter =>
      .touched ?_ _).bind fun v item huv _ => ?_
    · simp only [Bool.and_eq_true, beq_iff_eq] at hfilter
      exact reserveUpdate_step (hfilter.1.1.1.2 ▸ hstatus) hfilter.2 hu.free hu.reading hu.careful
        hsound
    · refine Async.rising_pure fun found h => ?_
      obtain ⟨item, -, rfl⟩ := Option.map_eq_some_iff.mp h
      exact ⟨Progress.tokens_mono huv htoken, hstatus⟩

theorem conducts_releaseReconciledWork (hs : s.Claimer now) {ownership : Ownership}
    (htoken : ownership.leaseToken ∈ s.tokens) {workItem : WorkItem} {releaseStatus : WorkStatus}
    (hstatus : releaseStatus ∈ claimableDurableWorkStatuses) :
    Conducts s (fun _ _ => True)
      (releaseReconciledWork workItem ownership releaseStatus now) := by
  refine (conducts_updateWork (by exact fun _ => rfl) fun time item hsound _ hfilter =>
    .touched ?_ _).mono fun _ _ _ _ => trivial
  rw [Bool.and_eq_true] at hfilter
  have howned := ownershipFilter_ownedBy hfilter.1
  have howner : s.Owner workItem.id ownership now := hs.owner htoken
  refine .of_counted ?_ (releaseUpdate_counted releaseStatus item)
    (ne_deadLettered howned.status (by decide))
    List.prefix_rfl (fun h => absurd (hs.careful.symm.trans h) Bool.false_ne_true)
    (.inr (howned.mayTake howner)) (howned.mayUpdate howner)
  exact hsound.released (notMem_owned_of_claimable hstatus) rfl rfl rfl rfl rfl

theorem conducts_linkReserved (hs : s.Claimer now) {ownership : Ownership}
    (htoken : ownership.leaseToken ∈ s.tokens) {invocation : Invocation} {item : WorkItem}
    {releaseStatus : WorkStatus} (hstatus : releaseStatus ∈ claimableDurableWorkStatuses)
    {linked : ReconcileResult → ReconcileResult} {result : ReconcileResult} :
    Conducts s (fun _ _ => True)
      (linkReserved invocation item ownership releaseStatus now options linked result) := by
  refine conducts_linkReconciledInvocationWork.bind fun t isLinked hst _ => ?_
  have ht := hs.mono hst
  have htoken' := Progress.tokens_mono hst htoken
  split
  · have hpresenter : t.Presenter item.id ownership := ⟨htoken', fun p hp => .inl (ht.free p hp)⟩
    refine (conducts_finalizeWork hpresenter fun time h => ?_).bind fun _ _ _ _ =>
      Async.rising_pure trivial
    exact Option.some.inj h ▸ ht.reading
  · refine (conducts_releaseReconciledWork ht htoken' hstatus).bind fun u released htu _ => ?_
    cases released with
    | none => exact Async.rising_pure trivial
    | some released =>
      exact (conducts_outboxForWork (ht.mono htu).free).bind fun _ _ _ _ =>
        Async.rising_pure trivial

theorem conducts_reconcileExisting (hs : s.Claimer now) {invocation : Invocation} {work : WorkItem}
    {result : ReconcileResult} :
    Conducts s (fun _ _ => True)
      (reconcileExisting env invocation work now options result) := by
  unfold reconcileExisting
  split
  · refine conducts_reconcileTerminalWorkInvocation.bind fun t reconciled _ _ => ?_
    split <;> exact Async.rising_pure trivial
  split
  · exact Async.rising_pure trivial
  refine (conducts_reserveWorkForReconciliation hs).bind fun t reservation hst hreservation => ?_
  cases reservation with
  | none => exact Async.rising_pure trivial
  | some reservation =>
    obtain ⟨htoken, hstatus⟩ := hreservation reservation rfl
    exact conducts_linkReserved (hs.mono hst) htoken hstatus

theorem conducts_reconcileMissing (hs : s.Claimer now) {invocation : Invocation} {partnerId : Text}
    {result : ReconcileResult} :
    Conducts s (fun _ _ => True)
      (reconcileMissing env invocation partnerId now options result) := by
  unfold reconcileMissing
  dsimp only
  split
  · exact Async.rising_pure trivial
  have hname : Conducts s (fun _ _ => True) reconcilerName :=
    conducts_randomUUID.bind fun _ _ _ _ => Async.rising_pure trivial
  refine hname.bind fun t leaseOwner hst _ => ?_
  have ht := hs.mono hst
  refine (conducts_enqueueWork ht.free fun time h => ?_).bind fun u enqueued htu henqueued => ?_
  · exact Option.some.inj h ▸ ht.reading
  cases hownership : enqueued.ownership with
  | none => exact Async.rising_pure trivial
  | some ownership =>
    exact conducts_linkReserved (ht.mono htu) (henqueued ownership hownership) (by decide)

theorem conducts_reconcileInvocation (hs : s.Claimer now) {tenant : Option TenantScope}
    {invocation : Invocation} {result : ReconcileResult} :
    Conducts s (fun _ _ => True)
      (reconcileInvocation env tenant now options result invocation) := by
  refine conducts_findConnection.bind fun t partnerId hst _ => ?_
  cases partnerId with
  | none => exact Async.rising_pure trivial
  | some partnerId =>
    dsimp only
    split
    · exact Async.rising_pure trivial
    refine conducts_findOneWork.bind fun u existing htu _ => ?_
    have hu := hs.mono (hst.trans htu)
    cases existing with
    | none => exact conducts_reconcileMissing hu
    | some work => exact conducts_reconcileExisting hu

theorem conducts_reconcileAcceptedInvocations (hs : s.Free) (hcareful : s.careful = false)
    {input : ScanInput} (hnow : ∀ now, input.now.or options.now = some now → now ∈ s.readings) :
    Conducts s (fun _ _ => True) (reconcileAcceptedInvocations env input options) := by
  refine (conducts_dateValue hnow).bind fun t now hst hreading => ?_
  refine Async.Rising.check fun limit _ => ?_
  refine conducts_findInvocations.bind fun u invocations htu _ => ?_
  have hu : u.Claimer now := (hs.claimer hcareful hst hreading).mono htu
  exact Async.rising_foldlM (I := fun _ _ => True) trivial fun v result invocation huv _ _ =>
    conducts_reconcileInvocation (hu.mono huv)

end Reconcile

end GhostBridge.DurableWork
