import GhostBridge.DurableWork.Calls

/-!
# The calls of workers

Enqueueing, claiming and working on an item, and the requests to cancel it.
-/

namespace GhostBridge.DurableWork

open Ecma Machine

variable {s : Progress} {env : Env} {options : Options}

theorem enqueueDocument_sound {input : EnqueueInput} {now : Int} {document : WorkItem}
    (h : enqueueDocument env input now = .ok document) (id : Text) (time : Int) :
    (inserted document id time).Sound := by
  simp only [enqueueDocument, bind_ok, throwWhen_ok, exists_unit, pure_ok] at h
  obtain ⟨hstatus, -, -, hattempt, -, hmaximum, rfl⟩ := h
  have howned : input.status ∉ ownedDurableWorkStatuses := by
    revert hstatus
    cases input.status <;> decide
  refine ⟨?_, ?_, Nat.zero_le _, fun _ => rfl, fun h => absurd h howned, List.Pairwise.nil⟩
  · exact Nat.one_le_iff_ne_zero.mpr (beq_eq_false_iff_ne.mp hattempt)
  · exact not_lt.mp (of_decide_eq_false hmaximum)

theorem claimedDocument_sound {document : WorkItem} (h : ∀ id time, (inserted document id time).Sound)
    {owner token : Text} {now : Int} {leaseMs : ℕ} (id : Text) (time : Int) :
    (inserted (claimedDocument document owner token now leaseMs) id time).Sound where
  attempt_pos := (h id time).attempt_pos
  attempt_le := (h id time).attempt_le
  requeueCount_le := (h id time).requeueCount_le
  unleased hstatus := absurd (by simp [inserted, claimedDocument, ownedDurableWorkStatuses]) hstatus
  held _ := newLease_held _ _ _ _
  milestones := List.pairwise_singleton _ _

theorem conducts_initialDocument {document : WorkItem}
    (h : ∀ id time, (inserted document id time).Sound) {now : Int} {claim : Option InitialClaim} :
    Conducts s (fun t r => (∀ id time, (inserted r.1 id time).Sound) ∧
        ∀ ownership, r.2 = some ownership → ownership.leaseToken ∈ t.tokens)
      (initialDocument env document now claim) := by
  cases claim with
  | none => exact Async.rising_pure ⟨h, fun _ hownership => nomatch hownership⟩
  | some claim =>
    refine Async.Rising.check fun leaseMs _ => ?_
    refine conducts_rawLeaseToken.bind fun t token _ htoken => Async.rising_pure ⟨?_, ?_⟩
    · exact claimedDocument_sound h
    · intro ownership hownership
      cases hownership
      exact htoken

theorem conducts_enqueueWork (hs : s.Free) {input : EnqueueInput}
    {initialClaim : Option InitialClaim} (hnow : ∀ now, options.now = some now → now ∈ s.readings) :
    Conducts s (fun t enqueued => ∀ ownership, enqueued.ownership = some ownership →
        ownership.leaseToken ∈ t.tokens)
      (enqueueWork env input options initialClaim) := by
  refine (conducts_dateValue hnow).bind fun t now hst _ => ?_
  refine Async.Rising.check fun document hdocument => ?_
  refine conducts_assertOperationalAccess.bind fun u _ htu _ => ?_
  refine (conducts_initialDocument (enqueueDocument_sound hdocument)).bind fun v r huv hr => ?_
  obtain ⟨document, initialOwnership⟩ := r
  obtain ⟨hsound, hownership⟩ := hr
  have hinsert : Conducts v (fun _ _ => True) (tryCatch (insertWork document) fun error =>
      if error = .duplicateKey then pure false else throw error) := by
    refine (conducts_insertWork hsound).tryCatch fun w error _ => ?_
    split
    · exact Async.rising_pure trivial
    · exact Async.rising_throw
  refine hinsert.bind fun w created hvw _ => ?_
  refine conducts_findOneWork.bind fun x item hwx _ => ?_
  have hx : x.Free := hs.mono (hst.trans (htu.trans (huv.trans (hvw.trans hwx))))
  have hresult (y : Progress) (hy : v ≤ y) (ownership : Ownership)
      (h : (if created then initialOwnership else none) = some ownership) :
      ownership.leaseToken ∈ y.tokens := by
    split at h
    · exact Progress.tokens_mono hy (hownership ownership h)
    · cases h
  cases item with
  | none => exact Async.rising_throw
  | some item =>
    refine (conducts_outboxForWork hx).bind fun y _ hxy _ => ?_
    have hvy : v ≤ y := hvw.trans (hwx.trans hxy)
    extract_lets finish
    split
    · refine (conducts_outboxForWork (hx.mono hxy)).bind fun z _ hyz _ => Async.rising_pure ?_
      exact hresult z (hvy.trans hyz)
    · exact Async.rising_pure (hresult y hvy)

/-- A call that takes over a lease, and need not be careful. -/
structure Progress.Claimer (s : Progress) (now : Int) : Prop where
  free : s.Free
  reading : now ∈ s.readings
  careful : s.careful = false

section Claim

variable {now : Int} {ownership : Ownership}

theorem Progress.Claimer.mono {t : Progress} (h : s ≤ t) (hs : s.Claimer now) : t.Claimer now :=
  ⟨hs.free.mono h, readings_mono h hs.reading, (careful_eq h).symm.trans hs.careful⟩

theorem Progress.Claimer.owner (hs : s.Claimer now) (htoken : ownership.leaseToken ∈ s.tokens)
    {workItemId : Text} : s.Owner workItemId ownership now :=
  hs.free.owner hs.reading htoken

theorem conducts_ensureClaimMilestone (hs : s.Claimer now)
    (htoken : ownership.leaseToken ∈ s.tokens) {work : WorkItem} :
    Conducts s (fun _ _ => True) (ensureClaimMilestone work ownership now) := by
  refine (conducts_updateWork (by exact fun _ => rfl) fun time item hsound _ hfilter =>
    .touched ?_ _).bind fun t updated _ _ => ?_
  · simp only [Bool.and_eq_true, Bool.not_eq_true'] at hfilter
    exact addMilestone_step (ownershipFilter_ownedBy hfilter.1) (hs.owner htoken) (by decide) hsound
      hs.careful hfilter.2
  cases updated with
  | some item => exact Async.rising_pure trivial
  | none =>
    refine conducts_findOneWork.bind fun u item _ _ => ?_
    cases item with
    | some item => exact Async.rising_pure trivial
    | none => exact Async.rising_throw

theorem conducts_rejectInvalidClaim (hs : s.Claimer now) (htoken : ownership.leaseToken ∈ s.tokens)
    {work : WorkItem} {decision : ClaimDenial} (hdecision : decision.Ends) :
    Conducts s (fun _ _ => True) (rejectInvalidClaim work ownership decision now options) := by
  have hstatus : decision.workStatus.getD (if decision.cancelled then .cancelled else .failed) ∈
      terminalDurableWorkStatuses := by
    cases h : decision.workStatus with
    | some status => exact hdecision status h
    | none => cases decision.cancelled <;> decide
  refine (conducts_updateWork (by exact fun _ => rfl) fun time item hsound _ hfilter =>
    .touched ?_ _).bind fun t updated hst _ => ?_
  · exact denialUpdate_step (ownershipFilter_ownedBy hfilter) (hs.owner htoken) hsound hstatus _
  cases updated with
  | none => exact Async.rising_pure trivial
  | some updated => exact conducts_outboxForWork (hs.free.mono hst)

theorem conducts_settleClaim (hs : s.Claimer now) (htoken : ownership.leaseToken ∈ s.tokens)
    {item : WorkItem} : Conducts s (fun _ _ => True) (settleClaim item ownership now options) := by
  refine (conducts_ensureClaimMilestone hs htoken).bind fun t item hst _ => ?_
  refine conducts_claimDecision.bind fun u decision htu hdecision => ?_
  have hu := hs.mono (hst.trans htu)
  cases decision with
  | none => exact (conducts_outboxForWork hu.free).bind fun _ _ _ _ => Async.rising_pure trivial
  | some decision =>
    refine (conducts_rejectInvalidClaim hu ?_ (hdecision decision rfl)).bind fun _ _ _ _ =>
      Async.rising_pure trivial
    exact Progress.tokens_mono (hst.trans htu) htoken

theorem conducts_claimCandidates (hs : s.Claimer now) {leaseOwner : Text} {leaseMs : ℕ}
    {candidates : ℕ} :
    Conducts s (fun _ _ => True) (claimCandidates leaseOwner now leaseMs options candidates) := by
  induction candidates generalizing s with
  | zero => exact Async.rising_pure trivial
  | succ candidates ih =>
    refine conducts_rawLeaseToken.bind fun t token hst htoken => ?_
    have ht := hs.mono hst
    refine (conducts_updateWork (by exact fun _ => rfl) fun time item hsound _ hfilter =>
      .touched ?_ _).bind fun u item htu _ => ?_
    · exact claimUpdate_step hfilter ht.free ht.reading ht.careful hsound
    cases item with
    | none => exact Async.rising_pure trivial
    | some item =>
      refine (conducts_settleClaim (ht.mono htu) (Progress.tokens_mono htu htoken)).bind
        fun v claimed huv _ => ?_
      cases claimed with
      | some claimed => exact Async.rising_pure trivial
      | none => exact ih (ht.mono (htu.trans huv))

theorem Progress.Free.claimer {t : Progress} (hs : s.Free) (hcareful : s.careful = false)
    (h : s ≤ t) (hreading : now ∈ t.readings) : t.Claimer now :=
  ⟨hs.mono h, hreading, (careful_eq h).symm.trans hcareful⟩

theorem conducts_claimNextWork (hs : s.Free) (hcareful : s.careful = false) {input : ClaimInput}
    {maximumCandidates : Option ℕ}
    (hnow : ∀ now, input.now.or options.now = some now → now ∈ s.readings) :
    Conducts s (fun _ _ => True) (claimNextWork env input options maximumCandidates) := by
  refine (conducts_dateValue hnow).bind fun t now hst hreading => ?_
  refine Async.Rising.check fun leaseMs _ => Async.Rising.check fun _ _ => ?_
  exact conducts_claimCandidates (hs.claimer hcareful hst hreading)

theorem conducts_claimWorkById (hs : s.Free) (hcareful : s.careful = false) {workItemId : Text}
    {input : ClaimInput} (hnow : ∀ now, input.now.or options.now = some now → now ∈ s.readings) :
    Conducts s (fun _ _ => True) (claimWorkById env workItemId input options) := by
  refine (conducts_dateValue hnow).bind fun t now hst hreading => ?_
  refine Async.Rising.check fun leaseMs _ => ?_
  refine conducts_rawLeaseToken.bind fun u token htu htoken => ?_
  have hu := (hs.claimer hcareful hst hreading).mono htu
  refine (conducts_updateWork (by exact fun _ => rfl) fun time item hsound _ hfilter =>
    .touched ?_ _).bind fun v item huv _ => ?_
  · rw [Bool.and_eq_true] at hfilter
    exact claimUpdate_step hfilter.2 hu.free hu.reading hu.careful hsound
  cases item with
  | none => exact Async.rising_pure trivial
  | some item => exact conducts_settleClaim (hu.mono huv) (Progress.tokens_mono huv htoken)

end Claim

/-- A call that presents a lease, and need not be careful. -/
structure Progress.Presenter (s : Progress) (workItemId : Text) (ownership : Ownership) : Prop where
  token : ownership.leaseToken ∈ s.tokens
  presented : ∀ p, s.presented = some p → s.updated = true ∨ p = (workItemId, ownership)

section Work

variable {workItemId : Text} {ownership : Ownership} {now : Int}

theorem Progress.Presenter.mono {t : Progress} (h : s ≤ t) (hs : s.Presenter workItemId ownership) :
    t.Presenter workItemId ownership where
  token := tokens_mono h hs.token
  presented p hp := (hs.presented p ((presented_eq h).trans hp)).imp_left (updated_mono h)

theorem Progress.Presenter.owner (hs : s.Presenter workItemId ownership) (hreading : now ∈ s.readings) :
    s.Owner workItemId ownership now :=
  ⟨hreading, hs.token, hs.presented⟩

theorem Progress.free_of_updated (h : s.updated = true) : s.Free := fun _ _ => h

theorem conducts_startWork (hs : s.Presenter workItemId ownership) (hcareful : s.careful = false)
    (hnow : ∀ now, options.now = some now → now ∈ s.readings) :
    Conducts s (fun _ _ => True) (startWork workItemId ownership options) := by
  refine (conducts_dateValue hnow).bind fun t now hst hreading => ?_
  refine (conducts_updateWork (by exact fun _ => rfl) fun time item hsound _ hfilter =>
    .touched ?_ _).bind fun u item htu hitem => ?_
  · rw [Bool.and_eq_true] at hfilter
    exact startUpdate_step (ownershipFilter_ownedBy hfilter.1) ((hs.mono hst).owner hreading) hsound
      ((Progress.careful_eq hst).symm.trans hcareful)
  cases item with
  | none => exact Async.rising_throw
  | some item =>
    exact (conducts_outboxForWork (Progress.free_of_updated (hitem item rfl).updated)).bind
      fun _ _ _ _ => Async.rising_pure trivial

theorem conducts_heartbeatWork (hs : s.Presenter workItemId ownership)
    (hcareful : s.careful = false) {leaseMs : Option ℕ}
    (hnow : ∀ now, options.now = some now → now ∈ s.readings) :
    Conducts s (fun _ _ => True) (heartbeatWork env workItemId ownership leaseMs options) := by
  refine (conducts_dateValue hnow).bind fun t now hst hreading => ?_
  refine Async.Rising.check fun leaseMs _ => ?_
  refine (conducts_updateWork (by exact fun _ => rfl) fun time item hsound _ hfilter =>
    .touched ?_ _).bind fun u item _ _ => ?_
  · exact heartbeatUpdate_step (ownershipFilter_ownedBy hfilter) ((hs.mono hst).owner hreading)
      hsound ((Progress.careful_eq hst).symm.trans hcareful) leaseMs
  cases item with
  | none => exact Async.rising_throw
  | some item => exact Async.rising_pure trivial

theorem conducts_recordMilestone (hs : s.Presenter workItemId ownership)
    (hcareful : s.careful = false) {input : MilestoneInput}
    (hnow : ∀ now, input.recordedAt.or options.now = some now → now ∈ s.readings) :
    Conducts s (fun _ _ => True) (recordMilestone workItemId ownership input options) := by
  refine (conducts_dateValue hnow).bind fun t now hst hreading => ?_
  refine Async.Rising.check fun _ _ => ?_
  refine (conducts_updateWork (by exact fun _ => rfl) fun time item hsound _ hfilter =>
    .touched ?_ _).bind fun u item _ _ => ?_
  · simp only [Bool.and_eq_true, Bool.not_eq_true'] at hfilter
    exact milestoneUpdate_step (ownershipFilter_ownedBy hfilter.1.1.1)
      ((hs.mono hst).owner hreading) (List.Subset.refl _) hsound
      ((Progress.careful_eq hst).symm.trans hcareful) hfilter.2
  cases item with
  | some item => exact Async.rising_pure trivial
  | none =>
    refine conducts_findOneWork.bind fun v existing _ _ => ?_
    cases existing with
    | none => exact Async.rising_throw
    | some item => exact Async.rising_pure trivial

theorem finalizeFilter_ownedBy {status : WorkStatus} {work : WorkItem}
    (h : finalizeFilter workItemId ownership now status work = true) :
    OwnedBy workItemId ownership now ownedDurableWorkStatuses work := by
  unfold finalizeFilter at h
  split at h
  · rw [Bool.and_eq_true] at h
    have howned := ownershipFilter_ownedBy h.1
    have hstatuses : [WorkStatus.claimed, .running] ⊆ ownedDurableWorkStatuses := by decide
    exact { howned with status := hstatuses howned.status }
  · exact ownershipFilter_ownedBy h

theorem conducts_finalizeWork (hs : s.Presenter workItemId ownership) {input : FinalizeInput}
    (hnow : ∀ now, options.now = some now → now ∈ s.readings) :
    Conducts s (fun _ _ => True) (finalizeWork workItemId ownership input options) := by
  refine Async.Rising.check fun _ hterminal => ?_
  have hstatus : input.status ∈ terminalDurableWorkStatuses := by simpa using hterminal
  refine (conducts_dateValue hnow).bind fun t now hst hreading => ?_
  refine Async.Rising.check fun _ _ => ?_
  refine (conducts_updateWork (by exact fun _ => rfl) fun time item hsound _ hfilter =>
    .touched ?_ _).bind fun u item _ hitem => ?_
  · exact finalizeUpdate_step (finalizeFilter_ownedBy hfilter) ((hs.mono hst).owner hreading)
      (List.Subset.refl _) hsound hstatus
  cases item with
  | none => exact Async.rising_throw
  | some item =>
    exact (conducts_outboxForWork (Progress.free_of_updated (hitem item rfl).updated)).bind
      fun _ _ _ _ => Async.rising_pure trivial

theorem conducts_deadLetterWork (hs : s.Presenter workItemId ownership) {reasonCode : Option Text}
    (hnow : ∀ now, options.now = some now → now ∈ s.readings) :
    Conducts s (fun _ _ => True) (deadLetterWork workItemId ownership reasonCode options) := by
  refine (conducts_dateValue hnow).bind fun t now hst _ => ?_
  refine conducts_findOneWork.bind fun u current htu _ => ?_
  have hu := hs.mono (hst.trans htu)
  have hnow' (now : Int) (h : options.now = some now) : now ∈ u.readings :=
    Progress.readings_mono (hst.trans htu) (hnow now h)
  cases current with
  | none => exact Async.rising_throw
  | some current =>
    dsimp only
    split
    · exact conducts_finalizeWork hu hnow'
    · exact conducts_finalizeWork hu hnow'

end Work

theorem conducts_settledCancellation (hs : s.Free) {input : CancellationInput} :
    Conducts s (fun _ _ => True) (settledCancellation input options) := by
  refine conducts_findOneWork.bind fun t item hst _ => ?_
  cases item with
  | none => exact Async.rising_throw
  | some item =>
    dsimp only
    split
    · exact (conducts_outboxForWork (hs.mono hst)).bind fun _ _ _ _ => Async.rising_pure trivial
    · exact Async.rising_pure trivial

theorem conducts_requestWorkCancellation (hs : s.Free) {input : CancellationInput}
    (hnow : ∀ now, options.now = some now → now ∈ s.readings) :
    Conducts s (fun _ _ => True) (requestWorkCancellation input options) := by
  refine Async.Rising.check fun _ _ => ?_
  refine (conducts_dateValue hnow).bind fun t now hst _ => ?_
  have ht := hs.mono hst
  refine (conducts_updateWork (by exact fun _ => rfl) fun time item hsound _ hfilter =>
    .touched ?_ _).bind fun u cancelled htu _ => ?_
  · simp only [Bool.and_eq_true, List.contains_iff_mem] at hfilter
    exact cancelUpdate_step hfilter.2 ht hsound _ _
  have hu := ht.mono htu
  cases cancelled with
  | some item => exact (conducts_outboxForWork hu).bind fun _ _ _ _ => Async.rising_pure trivial
  | none =>
    refine (conducts_updateWork (by exact fun _ => rfl) fun time item hsound _ hfilter =>
      .touched ?_ _).bind fun v requested huv _ => ?_
    · simp only [Bool.and_eq_true, List.contains_iff_mem] at hfilter
      exact requestCancellationUpdate_step hfilter.2 hu hsound _ _
    have hv := hu.mono huv
    cases requested with
    | some item => exact (conducts_outboxForWork hv).bind fun _ _ _ _ => Async.rising_pure trivial
    | none => exact conducts_settledCancellation hv

end GhostBridge.DurableWork
