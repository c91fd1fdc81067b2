import GhostBridge.DurableWork.Histories

/-!
# The calls of the service

Every call keeps to its conduct, from what it knows when it begins.
-/

namespace GhostBridge.DurableWork

open Ecma Machine

variable {s : Progress}

private theorem conducts_coreUpdate {α : Type} {filter : WorkItem → Bool}
    {update : WorkItem → WorkItem} {rest : Option WorkItem → Flow α} {post : Progress → α → Prop}
    (hs : s.Free) (hupdate : ∀ work, (update work).fixed = work.fixed ∧
      (update work).core = work.core)
    (hrest : ∀ t item, s ≤ t → Conducts t post (rest item)) :
    Conducts s post (findOneAndUpdateWork filter update >>= rest) := by
  refine (conducts_repairUpdate (fun _ work hsound _ _ => .touched ?_ _) fun work => ?_).bind
    fun t item hst _ => hrest t item hst
  · exact .of_core hsound (hupdate work).1 (hupdate work).2 hs.mayUpdate
  · exact (WorkItem.core_eq (hupdate work).2).2.2.2.2.2.2

theorem conducts_deferOutboxRepair (hs : s.Free) (work : WorkItem) (event : OutboxEvent) :
    Conducts s (fun _ _ => True) (deferOutboxRepair work event) := by
  refine Async.Rising.tryCatch ?_ fun _ _ _ => Async.rising_pure trivial
  refine (conducts_dateValue (by simp)).bind fun t now hst _ => ?_
  exact conducts_coreUpdate (hs.mono hst) (fun _ => ⟨rfl, rfl⟩) fun _ _ _ =>
    Async.rising_pure trivial

theorem conducts_outboxForWork (hs : s.Free) {work : WorkItem} {eventType : OutboxEventType}
    {metadata : SafeMetadata → SafeMetadata} {options : Options} :
    Conducts s (fun _ _ => True) (outboxForWork work eventType metadata options) := by
  unfold outboxForWork
  split
  · exact Async.rising_pure trivial
  · refine Async.Rising.tryCatch ?_ fun t _ hst => Async.Rising.tryCatch ?_ fun u _ htu => ?_
    · exact conducts_insertEvent.bind fun _ _ _ _ => Async.rising_pure trivial
    · exact conducts_insertEvent.bind fun _ _ _ _ => Async.rising_pure trivial
    · exact conducts_deferOutboxRepair (hs.mono (hst.trans htu)) _ _

theorem conducts_repairEvent {work : WorkItem} {record : RepairRecord} :
    Conducts s (fun _ _ => True) (repairEvent work record) :=
  Async.Rising.tryCatch (conducts_insertEvent.bind fun _ _ _ _ => Async.rising_pure trivial)
    fun _ _ _ => Async.rising_pure trivial

theorem conducts_repairWork (hs : s.Free) (work : WorkItem) (now : Int) :
    Conducts s (fun _ _ => True) (repairWork work now) := by
  refine (Async.rising_mapM' (I := fun _ => True) trivial fun t record _ _ _ => ?_).bind
    fun t outcomes hst _ => ?_
  · exact conducts_repairEvent.bind fun _ _ _ _ => Async.rising_pure trivial
  have ht := hs.mono hst
  extract_lets succeededKeys failedRecords marks
  have hmarks (u : Progress) (hu : u.Free) : Conducts u (fun _ _ => True) (marks ()) := by
    unfold marks
    split
    · exact conducts_coreUpdate hu (fun _ => ⟨rfl, rfl⟩) fun _ _ _ => Async.rising_pure trivial
    · exact conducts_coreUpdate hu (fun _ => ⟨rfl, rfl⟩) fun _ _ _ => Async.rising_pure trivial
  split
  · exact conducts_coreUpdate ht (fun _ => ⟨rfl, rfl⟩) fun u _ htu => hmarks u (ht.mono htu)
  · exact hmarks t ht

theorem conducts_repairDurableOutbox (hs : s.Free) {env : Env} {input : ScanInput}
    {options : Options} (hnow : ∀ now, input.now.or options.now = some now → now ∈ s.readings) :
    Conducts s (fun _ _ => True) (repairDurableOutbox env input options) := by
  refine (conducts_dateValue hnow).bind fun t now hst _ => ?_
  refine Async.Rising.check fun limit _ => ?_
  refine conducts_findWork.bind fun u marked htu _ => ?_
  have hloop (v : Progress) (items : List WorkItem) (hv : v.Free) :
      Conducts v (fun _ _ => True) (items.forM fun work => repairWork work now) :=
    (Async.rising_forM (I := Progress.Free) hv fun w work _ _ hw =>
      ((conducts_repairWork hw work now).mono fun x _ hwx _ => hw.mono hwx)).mono
        fun _ _ _ _ => trivial
  have hu := hs.mono (hst.trans htu)
  dsimp only
  split
  · have hmarked : Conducts u (fun _ _ => True) (pure marked) := Async.rising_pure trivial
    exact hmarked.bind fun v _ huv _ => hloop v _ (hu.mono huv)
  · exact conducts_findWork.bind fun v _ huv _ => hloop v _ (hu.mono huv)

theorem conducts_prepareInvocationForSafeReplay {work : WorkItem} {input : ReplayInput}
    {options : Options} (hnow : ∀ now, input.now.or options.now = some now → now ∈ s.readings) :
    Conducts s (fun _ preparation => ∀ n, preparation = .allowed n → 1 ≤ n)
      (prepareInvocationForSafeReplay work input options) := by
  refine (conducts_dateValue hnow).bind fun t now _ _ => ?_
  refine conducts_findOneInvocation.bind fun u found _ hfound => ?_
  cases found with
  | none => exact Async.rising_pure nofun
  | some found =>
    obtain ⟨hmem, -⟩ := hfound found rfl
    dsimp only
    cases hdenial : replayDenial work input now found with
    | some reasonCode => exact Async.rising_pure nofun
    | none =>
      dsimp only
      split
      · exact Async.rising_pure fun n hn => by cases hn; exact Nat.succ_pos _
      · refine Async.Rising.check fun entries hentries => ?_
        refine (conducts_updateInvocation fun invocation hhistorical hfilter => ?_).bind
          fun v prepared _ _ => ?_
        · exact replayUpdate_step hmem hdenial hentries hhistorical hfilter
        · cases prepared with
          | none => exact Async.rising_pure nofun
          | some _ => exact Async.rising_pure fun n hn => by cases hn; exact Nat.succ_pos _

private theorem denial_of_ite {c : Prop} [Decidable c] {first denial : ClaimDenial}
    {others : Option ClaimDenial} (h : (if c then some first else others) = some denial) :
    first = denial ∨ others = some denial := by
  split at h
  · exact .inl (Option.some.inj h)
  · exact .inr h

theorem claimDenial_workStatus {work : WorkItem} {invocation : Invocation} {denial : ClaimDenial}
    (h : claimDenial work invocation = some denial) {status : WorkStatus}
    (hstatus : denial.workStatus = some status) : status ∈ terminalDurableWorkStatuses := by
  unfold claimDenial at h
  rcases denial_of_ite h with rfl | h
  · cases hstatus
  rcases denial_of_ite h with rfl | h
  · cases hstatus
    unfold statusOfTerminal
    split <;> decide
  -- the other denials name no status
  iterate 7
    rcases denial_of_ite h with rfl | h
    · cases hstatus
  cases h

/-- The status that a denial gives work is a terminal one. -/
def ClaimDenial.Ends (denial : ClaimDenial) : Prop :=
  ∀ status, denial.workStatus = some status → status ∈ terminalDurableWorkStatuses

theorem conducts_claimDecision {work : WorkItem} {options : Options} :
    Conducts s (fun _ decision => ∀ denial, decision = some denial → denial.Ends)
      (claimDecision work options) := by
  unfold claimDecision
  split
  · refine conducts_findOneInvocation.bind fun t invocation _ _ => ?_
    cases invocation with
    | none => exact Async.rising_pure fun denial h => by cases h; exact nofun
    | some invocation =>
      exact Async.rising_pure fun denial h status hstatus => claimDenial_workStatus h hstatus
  · exact Async.rising_pure nofun

theorem conducts_markInvocationRecoveryForWork {work : WorkItem} {reasonCode : Text} {now : Int}
    {options : Options} :
    Conducts s (fun _ _ => True) (markInvocationRecoveryForWork work reasonCode now options) := by
  unfold markInvocationRecoveryForWork
  split
  · exact Async.rising_pure trivial
  · refine conducts_findOneInvocation.bind fun t current _ _ => ?_
    cases current with
    | none => exact Async.rising_pure trivial
    | some current =>
      refine Async.Rising.check fun update hupdate => ?_
      refine (conducts_updateInvocation fun invocation hhistorical hfilter => ?_).bind
        fun _ _ _ _ => Async.rising_pure trivial
      simp only [Bool.and_eq_true, beq_iff_eq] at hfilter
      exact transitionUpdate_step hupdate hhistorical hfilter.2

theorem lifecycleState_of_unchangedFor {work : WorkItem} {state : InvocationState}
    {invocation : Invocation} (h : unchangedFor work state invocation = true) :
    invocation.lifecycleState = state := by
  simp only [unchangedFor, Bool.and_eq_true, beq_iff_eq] at h
  exact h.1.1

theorem conducts_terminalizeInvocationForDeadLetter {work : WorkItem} {now : Int}
    {options : Options} :
    Conducts s (fun _ _ => True) (terminalizeInvocationForDeadLetter work now options) := by
  unfold terminalizeInvocationForDeadLetter
  split
  · exact Async.rising_pure trivial
  refine conducts_findOneInvocation.bind fun t found _ _ => ?_
  cases found with
  | none => exact Async.rising_pure trivial
  | some found =>
    dsimp only
    split
    · exact Async.rising_pure trivial
    split
    · exact Async.rising_pure trivial
    split
    · exact Async.rising_pure trivial
    cases hupdate : deadLetterUpdate work now found with
    | none => exact Async.rising_pure trivial
    | some update =>
      refine (conducts_updateInvocation fun invocation hhistorical hfilter => ?_).bind
        fun _ _ _ _ => Async.rising_pure trivial
      rw [Bool.and_eq_true] at hfilter
      exact deadLetterUpdate_step hupdate hhistorical (lifecycleState_of_unchangedFor hfilter.2)

theorem conducts_reconcileTerminalWorkInvocation {invocation : Invocation} {work : WorkItem}
    {now : Int} {options : Options} :
    Conducts s (fun _ _ => True)
      (reconcileTerminalWorkInvocation invocation work now options) := by
  unfold reconcileTerminalWorkInvocation
  split
  · exact conducts_terminalizeInvocationForDeadLetter
  · refine Async.Rising.check fun entries hentries => ?_
    refine (conducts_updateInvocation fun candidate hhistorical hfilter => ?_).bind
      fun _ _ _ _ => Async.rising_pure trivial
    rw [Bool.and_eq_true] at hfilter
    exact reconciliationUpdate_step hentries hhistorical (lifecycleState_of_unchangedFor hfilter.2)

theorem conducts_linkReconciledInvocationWork {invocation : Invocation} {work : WorkItem} :
    Conducts s (fun _ _ => True) (linkReconciledInvocationWork invocation work) := by
  refine (conducts_updateInvocation fun candidate hhistorical _ => ?_).bind
    fun _ _ _ _ => Async.rising_pure trivial
  exact .of_same hhistorical rfl rfl rfl

private theorem conducts_transition {α : Type} {fromState toState : InvocationState}
    {entry : EntryOptions} {outcome : Outcome} {update : Invocation → Invocation}
    {filter : Invocation → Bool} {rest : Option Invocation → Flow α} {post : Progress → α → Prop}
    (hupdate : transitionUpdate fromState toState entry outcome = .ok update)
    (hfilter : ∀ invocation, filter invocation = true → invocation.lifecycleState = fromState)
    (hrest : ∀ t invocation, s ≤ t → Conducts t post (rest invocation)) :
    Conducts s post (findOneAndUpdateInvocation filter update >>= rest) := by
  refine (conducts_updateInvocation fun invocation hhistorical hpasses => ?_).bind
    fun t invocation hst _ => hrest t invocation hst
  exact transitionUpdate_step hupdate hhistorical (hfilter invocation hpasses)

theorem conducts_transitionInvocation {lifecycle : LifecycleOptions}
    {fromState toState : InvocationState}
    (hnow : ∀ now, lifecycle.now = some now → now ∈ s.readings) :
    Conducts s (fun _ _ => True) (transitionInvocation lifecycle fromState toState) := by
  refine (conducts_dateValue hnow).bind fun t now _ _ => ?_
  refine Async.Rising.check fun update hupdate => ?_
  refine conducts_transition hupdate (fun invocation h => ?_) fun u invocation _ => ?_
  · simp only [Bool.and_eq_true, beq_iff_eq] at h
    exact h.1.1.2
  · cases invocation with
    | some invocation => exact Async.rising_pure trivial
    | none =>
      refine conducts_findOneInvocation.bind fun v found _ _ => ?_
      cases found with
      | none => exact Async.rising_throw
      | some _ => exact Async.rising_throw

theorem conducts_markRecovery {lifecycle : LifecycleOptions} {now : Int}
    {guard : Invocation → Bool} {states : List InvocationState} :
    Conducts s (fun _ _ => True) (markRecovery lifecycle now guard states) := by
  induction states generalizing s with
  | nil => exact Async.rising_pure trivial
  | cons fromState rest ih =>
    refine Async.Rising.check fun update hupdate => ?_
    refine conducts_transition hupdate (fun invocation h => ?_) fun t invocation _ => ?_
    · simp only [Bool.and_eq_true, beq_iff_eq] at h
      exact h.1.2
    · cases invocation with
      | some invocation => exact Async.rising_pure trivial
      | none => exact ih

theorem conducts_markExpiredInvocationLeaseRecovery {lifecycle : LifecycleOptions}
    (hnow : ∀ now, lifecycle.now = some now → now ∈ s.readings) :
    Conducts s (fun _ _ => True) (markExpiredInvocationLeaseRecovery lifecycle) :=
  (conducts_dateValue hnow).bind fun _ _ _ _ => conducts_markRecovery

theorem conducts_markActiveInvocationRecovery {lifecycle : LifecycleOptions}
    (hnow : ∀ now, lifecycle.now = some now → now ∈ s.readings) :
    Conducts s (fun _ _ => True) (markActiveInvocationRecovery lifecycle) :=
  (conducts_dateValue hnow).bind fun _ _ _ _ => conducts_markRecovery

theorem conducts_renewInvocationExecutionLease {lifecycle : LifecycleOptions} {owner leaseId : Text}
    {leaseDurationMs : ℕ} (hnow : ∀ now, lifecycle.now = some now → now ∈ s.readings) :
    Conducts s (fun _ _ => True)
      (renewInvocationExecutionLease lifecycle owner leaseId leaseDurationMs) := by
  refine (conducts_dateValue hnow).bind fun t now _ _ => ?_
  refine Async.Rising.check fun _ _ => ?_
  exact conducts_updateInvocation fun invocation hhistorical _ => .of_same hhistorical rfl rfl rfl

theorem conducts_claimInvocationExecution {lifecycle : LifecycleOptions} {owner : Text}
    {leaseId : Option Text} {leaseDurationMs : ℕ}
    (hnow : ∀ now, lifecycle.now = some now → now ∈ s.readings) :
    Conducts s (fun _ _ => True)
      (claimInvocationExecution lifecycle owner leaseId leaseDurationMs) := by
  unfold claimInvocationExecution
  extract_lets options claim
  have hclaim (t : Progress) (hst : s ≤ t) (id : Text) : Conducts t (fun _ _ => True) (claim id) := by
    refine (conducts_dateValue fun now h => Progress.readings_mono hst (hnow now h)).bind
      fun u now _ hreading => ?_
    refine Async.Rising.check fun _ _ => Async.Rising.check fun update hupdate => ?_
    refine (conducts_updateInvocation fun invocation hhistorical hfilter => ?_).bind
      fun v invocation huv _ => ?_
    · simp only [Bool.and_eq_true, beq_iff_eq] at hfilter
      exact (transitionUpdate_step hupdate hhistorical hfilter.1.2).congr rfl rfl rfl
    cases invocation with
    | some invocation => exact Async.rising_pure trivial
    | none =>
      refine (conducts_markExpiredInvocationLeaseRecovery fun _ h => ?_).bind
        fun w recovered _ _ => ?_
      · exact Option.some.inj h ▸ Progress.readings_mono huv hreading
      split
      · exact Async.rising_throw
      · refine conducts_findOneInvocation.bind fun x found _ _ => ?_
        cases found with
        | none => exact Async.rising_throw
        | some _ => exact Async.rising_throw
  cases leaseId with
  | some id => exact hclaim s le_rfl id
  | none => exact conducts_randomUUID.bind fun t id hst _ => hclaim t hst id

end GhostBridge.DurableWork
