import GhostBridge.DurableWork.Conduct

/-!
# Updates of work items

Each update that the service makes to an item is one that a call may make: it keeps the item sound,
leads to a later state of it, and takes over no lease but one that is over or that the call owns.
-/

namespace GhostBridge.DurableWork

open Ecma Machine

variable {s t : Progress} {work next : WorkItem}

/-- The update counts a version, and changes neither what is fixed nor a limit. -/
structure WorkItem.Counted (work next : WorkItem) : Prop where
  fixed : next.fixed = work.fixed
  version : next.version = work.version + 1
  requeueCount : next.requeueCount = work.requeueCount
  maximumAttempts : next.maximumAttempts = work.maximumAttempts

structure WorkItem.Closed (work next : WorkItem) : Prop extends work.Counted next where
  lease : next.lease = {}
  attemptNumber : next.attemptNumber = work.attemptNumber
  milestones : next.milestones = work.milestones

theorem WorkItem.closed_set (work : WorkItem) (status : WorkStatus) (times : WorkTimes)
    (lastErrorCode retryDecisionReason : Option Text) (recoveryReasonCode : Option RecoveryReason)
    (cancellationReasonCode : Option Text) :
    work.Closed { work.versioned.unleased with
      status := status
      times := times
      lastErrorCode := lastErrorCode
      retryDecisionReason := retryDecisionReason
      recoveryReasonCode := recoveryReasonCode
      cancellationReasonCode := cancellationReasonCode } := by
  unfold WorkItem.versioned WorkItem.unleased
  exact ⟨⟨rfl, rfl, rfl, rfl⟩, rfl, rfl, rfl⟩

theorem WorkItem.Counted.later (h : work.Counted next) (halive : work.status ≠ .deadLettered)
    (hmilestones : work.milestones <+: next.milestones) : work.Later next :=
  .of_versioned h.fixed h.version h.requeueCount h.maximumAttempts hmilestones halive

/-- An update by which no attempt begins and no item becomes claimable, unless the call need not
be careful. -/
theorem ItemStep.of_counted (hsound : next.Sound) (hcounted : work.Counted next)
    (halive : work.status ≠ .deadLettered) (hmilestones : work.milestones <+: next.milestones)
    (hstatus : s.careful = true →
      next.status ≠ .retryPreparing ∧ next.status ∉ claimableDurableWorkStatuses)
    (hlease : next.lease = work.lease ∨ s.MayTake work.lease) (hupdate : s.MayUpdate work) :
    ItemStep s work next where
  sound := hsound
  follows := hcounted.later halive hmilestones
  taken hcareful hpreparing := absurd hpreparing (hstatus hcareful).1
  released hcareful hclaimable := absurd hclaimable (hstatus hcareful).2
  lease := hlease
  presented := hupdate

theorem ItemStep.of_core (hsound : work.Sound) (hfixed : next.fixed = work.fixed)
    (hcore : next.core = work.core) (hupdate : s.MayUpdate work) : ItemStep s work next where
  sound := hsound.of_core hcore
  follows := .of_core hfixed hcore
  taken _ _ := .inl hcore
  released _ _ := .inl hcore
  lease := .inl (WorkItem.core_eq hcore).2.2.2.2.1
  presented := hupdate

theorem ItemStep.touched {update : WorkItem → WorkItem} (h : ItemStep s work (update work))
    (now : Int) : ItemStep s work (touched now update work) where
  sound := h.sound.of_core rfl
  follows := h.follows.trans (.of_core rfl rfl)
  taken := h.taken
  released := h.released
  lease := h.lease
  presented := h.presented

theorem ne_deadLettered {statuses : List WorkStatus} (h : work.status ∈ statuses)
    (hstatuses : WorkStatus.deadLettered ∉ statuses) : work.status ≠ .deadLettered :=
  fun heq => hstatuses (heq ▸ h)

theorem deadLettered_notMem_owned : WorkStatus.deadLettered ∉ ownedDurableWorkStatuses := by decide

theorem deadLettered_notMem_claimable : WorkStatus.deadLettered ∉ claimableDurableWorkStatuses := by
  decide

theorem retryPreparing_mem_owned : WorkStatus.retryPreparing ∈ ownedDurableWorkStatuses := by decide

theorem notMem_owned_of_claimable {status : WorkStatus}
    (h : status ∈ claimableDurableWorkStatuses) : status ∉ ownedDurableWorkStatuses := by
  simp only [claimableDurableWorkStatuses, List.mem_cons, List.not_mem_nil, or_false] at h
  rcases h with rfl | rfl <;> decide

theorem terminal_status {status : WorkStatus} (h : status ∈ terminalDurableWorkStatuses) :
    status ∉ ownedDurableWorkStatuses ∧ status ≠ .retryPreparing ∧
      status ∉ claimableDurableWorkStatuses := by
  simp only [terminalDurableWorkStatuses, List.mem_cons, List.not_mem_nil, or_false] at h
  rcases h with rfl | rfl | rfl | rfl | rfl <;> decide

theorem ItemStep.ended (hsound : work.Sound) (hclosed : work.Closed next)
    (halive : work.status ≠ .deadLettered) (hstatus : next.status ∈ terminalDurableWorkStatuses)
    (htake : s.MayTake work.lease) (hupdate : s.MayUpdate work) : ItemStep s work next := by
  obtain ⟨howned, hpreparing, hclaimable⟩ := terminal_status hstatus
  refine .of_counted ?_ hclosed.toCounted halive (by rw [hclosed.milestones])
    (fun _ => ⟨hpreparing, hclaimable⟩) (.inr htake) hupdate
  exact hsound.released howned hclosed.lease hclosed.attemptNumber hclosed.maximumAttempts
    hclosed.requeueCount hclosed.milestones

/-- The call presents no lease, or has used the one that it presents. -/
def Progress.Free (s : Progress) : Prop := ∀ p, s.presented = some p → s.updated = true

theorem Progress.Free.mono (h : s ≤ t) (hs : s.Free) : t.Free :=
  fun p hp => updated_mono h (hs p ((presented_eq h).trans hp))

theorem Progress.Free.mayUpdate (hs : s.Free) : s.MayUpdate work := fun p hp => .inl (hs p hp)

structure OwnedBy (workItemId : Text) (ownership : Ownership) (now : Int)
    (statuses : List WorkStatus) (work : WorkItem) : Prop where
  id_eq : work.id = workItemId
  status : work.status ∈ statuses
  owner : work.lease.leaseOwner = some ownership.leaseOwner
  tokenHash : work.lease.leaseTokenHash = some (leaseTokenHash ownership.leaseToken)
  live : leaseLive now work.lease = true

theorem ownershipFilter_ownedBy {workItemId : Text} {ownership : Ownership} {now : Int}
    {statuses : List WorkStatus} (h : ownershipFilter workItemId ownership now statuses work = true) :
    OwnedBy workItemId ownership now statuses work := by
  simp only [ownershipFilter, Bool.and_eq_true, beq_iff_eq, List.contains_iff_mem] at h
  obtain ⟨⟨⟨⟨⟨hid, hstatus⟩, howner⟩, hhash⟩, hlive⟩, -⟩ := h
  exact ⟨hid, hstatus, howner, hhash, hlive⟩

/-- The call owns the lease that it presents to the updates of an item. -/
structure Progress.Owner (s : Progress) (workItemId : Text) (ownership : Ownership) (now : Int) :
    Prop where
  reading : now ∈ s.readings
  token : ownership.leaseToken ∈ s.tokens
  presented : ∀ p, s.presented = some p → s.updated = true ∨ p = (workItemId, ownership)

section Owner

variable {workItemId : Text} {ownership : Ownership} {now : Int} {statuses : List WorkStatus}

theorem Progress.Free.owner (hs : s.Free) (hreading : now ∈ s.readings)
    (htoken : ownership.leaseToken ∈ s.tokens) : s.Owner workItemId ownership now :=
  ⟨hreading, htoken, fun p hp => .inl (hs p hp)⟩

theorem OwnedBy.mayTake (h : OwnedBy workItemId ownership now statuses work)
    (hs : s.Owner workItemId ownership now) : s.MayTake work.lease :=
  .inr ⟨ownership.leaseToken, hs.token, h.tokenHash⟩

theorem OwnedBy.mayUpdate (h : OwnedBy workItemId ownership now statuses work)
    (hs : s.Owner workItemId ownership now) : s.MayUpdate work := by
  intro p hp
  refine (hs.presented p hp).imp_right ?_
  rintro rfl
  exact ⟨h.id_eq, h.owner, h.tokenHash, now, hs.reading, h.live⟩

theorem OwnedBy.ended (h : OwnedBy workItemId ownership now statuses work)
    (hs : s.Owner workItemId ownership now) (hstatuses : statuses ⊆ ownedDurableWorkStatuses)
    (hsound : work.Sound) (hclosed : work.Closed next)
    (hstatus : next.status ∈ terminalDurableWorkStatuses) : ItemStep s work next :=
  .ended hsound hclosed (ne_deadLettered (hstatuses h.status) deadLettered_notMem_owned) hstatus
    (h.mayTake hs) (h.mayUpdate hs)

theorem OwnedBy.kept (h : OwnedBy workItemId ownership now statuses work)
    (hs : s.Owner workItemId ownership now) (hstatuses : statuses ⊆ ownedDurableWorkStatuses)
    (hsound : work.Sound) (hcounted : work.Counted next) (hcareful : s.careful = false)
    (hstatus : next.status ∈ ownedDurableWorkStatuses) (hlease : next.lease.Held)
    (hattempt : next.attemptNumber = work.attemptNumber)
    ( hprefix : work.milestones <+: next.milestones) (hmilestones : MilestonesOnce next.milestones) :
    ItemStep s work next :=
  .of_counted
    (hsound.leased hstatus hlease hattempt hcounted.maximumAttempts hcounted.requeueCount
      hmilestones)
    hcounted (ne_deadLettered (hstatuses h.status) deadLettered_notMem_owned) hprefix
    (fun h => absurd (hcareful.symm.trans h) Bool.false_ne_true) (.inr (h.mayTake hs))
    (h.mayUpdate hs)

theorem denialUpdate_step (h : OwnedBy workItemId ownership now [.claimed] work)
    (hs : s.Owner workItemId ownership now) (hsound : work.Sound) {status : WorkStatus}
    (hstatus : status ∈ terminalDurableWorkStatuses) (reasonCode : Text) :
    ItemStep s work (denialUpdate status reasonCode now work) :=
  h.ended hs (by decide) hsound (work.closed_set ..) hstatus

theorem finalizeUpdate_step (h : OwnedBy workItemId ownership now statuses work)
    (hs : s.Owner workItemId ownership now) (hstatuses : statuses ⊆ ownedDurableWorkStatuses)
    (hsound : work.Sound) {input : FinalizeInput}
    (hstatus : input.status ∈ terminalDurableWorkStatuses) :
    ItemStep s work (finalizeUpdate input now work) :=
  h.ended hs hstatuses hsound (work.closed_set ..) hstatus

theorem addMilestone_step (h : OwnedBy workItemId ownership now statuses work)
    (hs : s.Owner workItemId ownership now) (hstatuses : statuses ⊆ ownedDurableWorkStatuses)
    (hsound : work.Sound) (hcareful : s.careful = false) {milestone : Milestone}
    (hnew : work.hasMilestone milestone.name milestone.attemptNumber = false) :
    ItemStep s work (addMilestone milestone work) :=
  h.kept hs hstatuses hsound ⟨rfl, rfl, rfl, rfl⟩ hcareful (hstatuses h.status)
    (hsound.held (hstatuses h.status)) rfl (List.prefix_append _ _)
    (hsound.milestones.concat (hasMilestone_eq_false hnew))

private theorem milestoneUpdate_counted (milestone : Milestone) (work : WorkItem) :
    work.Counted (milestoneUpdate milestone work) := by
  unfold milestoneUpdate addMilestone WorkItem.versioned
  exact ⟨rfl, rfl, rfl, rfl⟩

theorem milestoneUpdate_step (h : OwnedBy workItemId ownership now statuses work)
    (hs : s.Owner workItemId ownership now) (hstatuses : statuses ⊆ ownedDurableWorkStatuses)
    (hsound : work.Sound) (hcareful : s.careful = false) {milestone : Milestone}
    (hnew : work.hasMilestone milestone.name milestone.attemptNumber = false) :
    ItemStep s work (milestoneUpdate milestone work) :=
  h.kept hs hstatuses hsound (milestoneUpdate_counted milestone work) hcareful
    (hstatuses h.status) (hsound.held (hstatuses h.status)) rfl (List.prefix_append _ _)
    (hsound.milestones.concat (hasMilestone_eq_false hnew))

theorem startUpdate_step (h : OwnedBy workItemId ownership now [.claimed] work)
    (hs : s.Owner workItemId ownership now) (hsound : work.Sound) (hcareful : s.careful = false) :
    ItemStep s work (startUpdate now work) := by
  have hstatuses : [WorkStatus.claimed] ⊆ ownedDurableWorkStatuses := by decide
  have hheld : work.lease.Held := hsound.held (hstatuses h.status)
  exact h.kept hs hstatuses hsound ⟨rfl, rfl, rfl, rfl⟩ hcareful
    (by simp [startUpdate, ownedDurableWorkStatuses])
    ⟨hheld.owner, hheld.tokenHash, hheld.expiry⟩ rfl List.prefix_rfl hsound.milestones

theorem heartbeatUpdate_step
    (h : OwnedBy workItemId ownership now ownedDurableWorkStatuses work)
    (hs : s.Owner workItemId ownership now) (hsound : work.Sound) (hcareful : s.careful = false)
    (leaseMs : ℕ) : ItemStep s work (heartbeatUpdate now leaseMs work) := by
  have hheld := hsound.held h.status
  exact h.kept hs (List.Subset.refl _) hsound ⟨rfl, rfl, rfl, rfl⟩ hcareful h.status
    ⟨hheld.owner, hheld.tokenHash, rfl⟩ rfl List.prefix_rfl hsound.milestones

theorem retryUpdate_step (h : OwnedBy workItemId ownership now [.claimed, .running] work)
    (hs : s.Owner workItemId ownership now) (hsound : work.Sound) (hcareful : s.careful = false)
    {env : Env} {preparation : Ownership} {availableAt : Int} {reason : Text}
    {lastErrorCode : Option Text} {nextAttemptNumber : ℕ} (hpos : 1 ≤ nextAttemptNumber)
    (hle : nextAttemptNumber ≤ work.maximumAttempts) :
    ItemStep s work
      (retryUpdate env preparation now availableAt reason lastErrorCode nextAttemptNumber work) :=
  .of_counted
    ⟨hpos, hle, hsound.requeueCount_le, fun h => absurd retryPreparing_mem_owned h,
      fun _ => newLease_held _ _ _ _, hsound.milestones⟩
    ⟨rfl, rfl, rfl, rfl⟩ (ne_deadLettered h.status (by decide)) List.prefix_rfl
    (fun h => absurd (hcareful.symm.trans h) Bool.false_ne_true) (.inr (h.mayTake hs))
    (h.mayUpdate hs)

end Owner

section Claim

variable {now : Int} {owner token : Text} {leaseMs : ℕ}

theorem claimUpdate_step (hfilter : claimFilter now work = true) (hs : s.Free)
    (hreading : now ∈ s.readings) (hcareful : s.careful = false) (hsound : work.Sound) :
    ItemStep s work (claimUpdate owner token now leaseMs work) := by
  simp only [claimFilter, Bool.and_eq_true, List.contains_iff_mem] at hfilter
  obtain ⟨⟨⟨⟨hstatus, -⟩, -⟩, hfree⟩, -⟩ := hfilter
  refine .of_counted ?_ ⟨rfl, rfl, rfl, rfl⟩ (ne_deadLettered hstatus deadLettered_notMem_claimable)
    List.prefix_rfl (fun h => absurd (hcareful.symm.trans h) Bool.false_ne_true)
    (.inr (.inl ⟨now, hreading, hfree⟩)) hs.mayUpdate
  exact hsound.leased (by simp [claimUpdate, ownedDurableWorkStatuses]) (newLease_held _ _ _ _) rfl
    rfl rfl hsound.milestones

theorem reserveUpdate_step {env : Env} {ownership : Ownership}
    (hstatus : work.status ∈ claimableDurableWorkStatuses) (hfree : leaseFree now work.lease = true)
    (hs : s.Free) (hreading : now ∈ s.readings) (hcareful : s.careful = false)
    (hsound : work.Sound) : ItemStep s work (reserveUpdate env ownership now work) := by
  refine .of_counted ?_ ⟨rfl, rfl, rfl, rfl⟩ (ne_deadLettered hstatus deadLettered_notMem_claimable)
    List.prefix_rfl (fun h => absurd (hcareful.symm.trans h) Bool.false_ne_true)
    (.inr (.inl ⟨now, hreading, hfree⟩)) hs.mayUpdate
  exact hsound.leased (by simp [reserveUpdate, ownedDurableWorkStatuses]) (newLease_held _ _ _ _)
    rfl rfl rfl hsound.milestones

end Claim

theorem cancelUpdate_step (hstatus : work.status ∈ claimableDurableWorkStatuses) (hs : s.Free)
    (hsound : work.Sound) (reasonCode : Text) (now : Int) :
    ItemStep s work (cancelUpdate reasonCode now work) := by
  have hlease : work.lease = {} := hsound.unleased (notMem_owned_of_claimable hstatus)
  refine .of_counted ?_ ⟨rfl, rfl, rfl, rfl⟩ (ne_deadLettered hstatus deadLettered_notMem_claimable)
    List.prefix_rfl (fun _ => (terminal_status (by simp [cancelUpdate, terminalDurableWorkStatuses])).2)
    (.inl rfl) hs.mayUpdate
  exact hsound.released (by simp [cancelUpdate, ownedDurableWorkStatuses]) hlease rfl rfl rfl rfl

theorem requestCancellationUpdate_step
    (hstatus : work.status ∈ [WorkStatus.claimed, .running, .retryPreparing]) (hs : s.Free)
    (hsound : work.Sound) (reasonCode : Text) (now : Int) :
    ItemStep s work (requestCancellationUpdate reasonCode now work) := by
  have hstatuses : [WorkStatus.claimed, .running, .retryPreparing] ⊆ ownedDurableWorkStatuses := by
    decide
  have howned : work.status ∈ ownedDurableWorkStatuses := hstatuses hstatus
  refine .of_counted ?_ ⟨rfl, rfl, rfl, rfl⟩ (ne_deadLettered howned deadLettered_notMem_owned)
    List.prefix_rfl (fun _ => ?_) (.inl rfl) hs.mayUpdate
  · exact hsound.leased (by simp [requestCancellationUpdate, ownedDurableWorkStatuses])
      (hsound.held howned) rfl rfl rfl hsound.milestones
  · simp [requestCancellationUpdate, claimableDurableWorkStatuses]

section Replay

variable {preparing : WorkItem} {ownership : Ownership} {now : Int}

/-- What an item is that passes the filter of a preparation. -/
structure Prepared (preparing : WorkItem) (ownership : Ownership) (work : WorkItem) : Prop where
  id_eq : work.id = preparing.id
  status : work.status = .retryPreparing
  version : work.version = preparing.version
  tokenHash : work.lease.leaseTokenHash = some (leaseTokenHash ownership.leaseToken)

theorem replayPreparationFilter_prepared
    (h : replayPreparationFilter preparing ownership now work = true) :
    Prepared preparing ownership work := by
  simp only [replayPreparationFilter, Bool.and_eq_true, beq_iff_eq] at h
  obtain ⟨⟨⟨⟨⟨hid, hstatus⟩, hversion⟩, -⟩, hhash⟩, -⟩ := h
  exact ⟨hid, hstatus, hversion, hhash⟩

theorem Prepared.alive (h : Prepared preparing ownership work) : work.status ≠ .deadLettered := by
  rw [h.status]
  decide

theorem Prepared.mayTake (h : Prepared preparing ownership work)
    (htoken : ownership.leaseToken ∈ s.tokens) : s.MayTake work.lease :=
  .inr ⟨ownership.leaseToken, htoken, h.tokenHash⟩

theorem Prepared.ended (h : Prepared preparing ownership work) (hs : s.Free)
    (htoken : ownership.leaseToken ∈ s.tokens) (hsound : work.Sound) (hclosed : work.Closed next)
    (hstatus : next.status ∈ terminalDurableWorkStatuses) : ItemStep s work next :=
  .ended hsound hclosed h.alive hstatus (h.mayTake htoken) hs.mayUpdate

theorem releaseUpdate_counted (status : WorkStatus) (work : WorkItem) :
    work.Counted (releaseUpdate status work) := by
  unfold releaseUpdate WorkItem.versioned WorkItem.unleased
  exact ⟨rfl, rfl, rfl, rfl⟩

theorem Prepared.released (h : Prepared preparing ownership work) (hs : s.Free)
    (htoken : ownership.leaseToken ∈ s.tokens) (htaken : preparing ∈ s.taken)
    (hsound : work.Sound) {status : WorkStatus} (hstatus : status ∈ claimableDurableWorkStatuses) :
    ItemStep s work (releaseUpdate status work) where
  sound := hsound.released (notMem_owned_of_claimable hstatus) rfl rfl rfl rfl rfl
  follows := (releaseUpdate_counted status work).later h.alive List.prefix_rfl
  taken _ hpreparing :=
    absurd retryPreparing_mem_owned (notMem_owned_of_claimable (hpreparing ▸ hstatus))
  released _ _ := .inr ⟨preparing, htaken, h.id_eq.symm, h.version.symm⟩
  lease := .inr (h.mayTake htoken)
  presented := hs.mayUpdate

theorem replayDenialStatus_terminal (reasonCode : Text) :
    replayDenialStatus reasonCode ∈ terminalDurableWorkStatuses := by
  unfold replayDenialStatus
  split
  · decide
  · split <;> decide

end Replay

section Abandoned

variable {candidate : WorkItem} {cutoff now : Int}

/-- What an item is that passes the filter of abandoned work. -/
structure Abandoned (candidate : WorkItem) (cutoff : Int) (work : WorkItem) : Prop where
  id_eq : work.id = candidate.id
  status : work.status = candidate.status
  version : work.version = candidate.version
  expired : leaseExpiredBy cutoff work.lease = true

theorem abandonedCasFilter_abandoned (h : abandonedCasFilter candidate cutoff work = true) :
    Abandoned candidate cutoff work := by
  simp only [abandonedCasFilter, Bool.and_eq_true, beq_iff_eq] at h
  obtain ⟨⟨⟨hid, hstatus⟩, hversion⟩, hexpired⟩ := h
  exact ⟨hid, hstatus, hversion, hexpired⟩

theorem leaseFree_of_expired {lease : LeaseFields} (h : leaseExpiredBy cutoff lease = true)
    (hcutoff : cutoff ≤ now) : leaseFree now lease = true := by
  cases hexpiry : lease.leaseExpiresAt with
  | none => simp [leaseFree, hexpiry]
  | some expiresAt =>
    have hexpired : expiresAt ≤ cutoff := by simpa [leaseExpiredBy, hexpiry] using h
    simpa [leaseFree, hexpiry] using hexpired.trans hcutoff

/-- The scan reads a time at which abandoned leases are over. -/
structure Progress.Scanner (s : Progress) (cutoff now : Int) : Prop where
  free : s.Free
  reading : now ∈ s.readings
  cutoff_le : cutoff ≤ now

theorem Progress.Scanner.mono (h : s ≤ t) (hs : s.Scanner cutoff now) : t.Scanner cutoff now :=
  ⟨.mono h hs.free, readings_mono h hs.reading, hs.cutoff_le⟩

structure Progress.Candidate (s : Progress) (candidate : WorkItem) : Prop where
  seen : candidate ∈ s.seen
  sound : candidate.Sound
  owned : candidate.status ∈ ownedDurableWorkStatuses

theorem Progress.Candidate.mono (h : s ≤ t) (hs : s.Candidate candidate) : t.Candidate candidate :=
  ⟨seen_mono h hs.seen, hs.sound, hs.owned⟩

theorem Abandoned.mayTake (h : Abandoned candidate cutoff work) (hs : s.Scanner cutoff now) :
    s.MayTake work.lease :=
  .inl ⟨now, hs.reading, leaseFree_of_expired h.expired hs.cutoff_le⟩

theorem Abandoned.core_eq (h : Abandoned candidate cutoff work) (hcandidate : s.Candidate candidate)
    (hknows : s.Knows work) : work.core = candidate.core :=
  (hknows candidate hcandidate.seen h.id_eq.symm).core h.version.symm

theorem Abandoned.alive (h : Abandoned candidate cutoff work) (hcandidate : s.Candidate candidate) :
    work.status ≠ .deadLettered :=
  ne_deadLettered (h.status ▸ hcandidate.owned) deadLettered_notMem_owned

theorem Abandoned.ended (h : Abandoned candidate cutoff work) (hs : s.Scanner cutoff now)
    (hcandidate : s.Candidate candidate) (hsound : work.Sound) (hclosed : work.Closed next)
    (hstatus : next.status ∈ terminalDurableWorkStatuses) : ItemStep s work next :=
  .ended hsound hclosed (h.alive hcandidate) hstatus (h.mayTake hs) hs.free.mayUpdate

theorem classifyAbandonedWork_congr {a b : WorkItem} (h : a.core = b.core) :
    classifyAbandonedWork a = classifyAbandonedWork b := by
  obtain ⟨-, hattempt, -, -, -, hmilestones, -⟩ := WorkItem.core_eq h
  unfold classifyAbandonedWork currentAttemptMilestones
  rw [hattempt, hmilestones]

theorem Abandoned.taken (h : Abandoned candidate cutoff work) (hs : s.Scanner cutoff now)
    (hcandidate : s.Candidate candidate) (hknows : s.Knows work) (hsound : next.Sound)
    (hcounted : work.Counted next) (hstatus : next.status = .retryPreparing)
    (hmilestones : next.milestones = work.milestones)
    (hallowed : (classifyAbandonedWork candidate).replayAllowed = true) : ItemStep s work next where
  sound := hsound
  follows := hcounted.later (h.alive hcandidate) (by rw [hmilestones])
  taken _ _ := by
    refine .inr ⟨fun hclaimable => ?_, hmilestones, ?_⟩
    · exact notMem_owned_of_claimable hclaimable (h.status ▸ hcandidate.owned)
    · rw [classifyAbandonedWork_congr (h.core_eq hcandidate hknows)]
      exact hallowed
  released _ hclaimable :=
    absurd retryPreparing_mem_owned (notMem_owned_of_claimable (hstatus ▸ hclaimable))
  lease := .inr (h.mayTake hs)
  presented := hs.free.mayUpdate

theorem abandonedRetryUpdate_step (h : Abandoned candidate cutoff work)
    (hs : s.Scanner cutoff now) (hcandidate : s.Candidate candidate) (hknows : s.Knows work)
    (hsound : work.Sound) (hallowed : (classifyAbandonedWork candidate).replayAllowed = true)
    {env : Env} {preparation : Ownership} {availableAt : Int} {reasonCode : Text}
    {recoveryReasonCode : RecoveryReason} {nextAttemptNumber : ℕ} (hpos : 1 ≤ nextAttemptNumber)
    (hle : nextAttemptNumber ≤ candidate.maximumAttempts) {fromStatus : WorkStatus} :
    ItemStep s work (abandonedRetryUpdate env preparation now availableAt reasonCode
      recoveryReasonCode nextAttemptNumber fromStatus work) := by
  refine h.taken hs hcandidate hknows ?_ ⟨rfl, rfl, rfl, rfl⟩ rfl rfl hallowed
  have hmaximum := (WorkItem.core_eq (h.core_eq hcandidate hknows)).2.2.1
  exact ⟨hpos, hle.trans_eq hmaximum.symm, hsound.requeueCount_le,
    fun h => absurd retryPreparing_mem_owned h, fun _ => newLease_held _ _ _ _, hsound.milestones⟩

theorem deadLetterPreparingUpdate_step (h : Abandoned candidate cutoff work)
    (hs : s.Scanner cutoff now) (hcandidate : s.Candidate candidate) (hknows : s.Knows work)
    (hsound : work.Sound) (hallowed : (classifyAbandonedWork candidate).replayAllowed = true)
    (env : Env) (preparation : Ownership) :
    ItemStep s work (deadLetterPreparingUpdate env preparation now work) :=
  h.taken hs hcandidate hknows
    (hsound.leased retryPreparing_mem_owned (newLease_held _ _ _ _) rfl rfl rfl hsound.milestones)
    ⟨rfl, rfl, rfl, rfl⟩ rfl rfl hallowed

end Abandoned

theorem requeueUpdate_step {current : WorkItem} {now : Int} {env : Env} {ownership : Ownership}
    {nextAttemptNumber : ℕ} (hs : s.Free) (hreading : now ∈ s.readings)
    (hseen : current ∈ s.seen) (hdead : current.status = .deadLettered)
    (hallowed : (classifyAbandonedWork current).replayAllowed = true)
    (hcount : current.requeueCount < 1) (hpos : 1 ≤ nextAttemptNumber) (hknows : s.Knows work)
    (hsound : work.Sound) (hid : work.id = current.id) (hstatus : work.status = .deadLettered)
    (hrequeued : work.requeueCount < 1) :
    ItemStep s work (requeueUpdate env ownership now current nextAttemptNumber work) := by
  have hlater : current.Later work := hknows current hseen hid.symm
  have hcore : work.core = current.core := hlater.dead hdead (by omega)
  have hlease : work.lease = {} := hsound.unleased (by rw [hstatus]; decide)
  refine ⟨⟨hpos, le_max_right _ _, ?_, fun h => absurd retryPreparing_mem_owned h,
      fun _ => newLease_held _ _ _ _, hsound.milestones⟩,
    ⟨rfl, ?_, ?_, ?_, ?_, ?_, ?_, List.prefix_rfl⟩, fun _ _ => .inr ⟨?_, rfl, ?_⟩, fun _ h => ?_,
    .inr (.inl ⟨now, hreading, ?_⟩), hs.mayUpdate⟩
  · change work.requeueCount + 1 ≤ 1
    omega
  · exact Nat.le_succ _
  · exact fun h => absurd h (Nat.succ_ne_self _).symm
  · exact Nat.le_succ _
  · exact (WorkItem.core_eq hcore).2.2.1.trans_le (le_max_left _ _)
  · exact fun h => absurd h (Nat.succ_ne_self _).symm
  · exact fun _ h => absurd h (Nat.succ_ne_self _).symm
  · rw [hstatus]
    decide
  · rw [classifyAbandonedWork_congr hcore]
    exact hallowed
  · exact absurd retryPreparing_mem_owned (notMem_owned_of_claimable h)
  · rw [hlease]
    rfl

end GhostBridge.DurableWork
