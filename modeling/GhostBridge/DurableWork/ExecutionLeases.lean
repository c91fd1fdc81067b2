import GhostBridge.DurableWork.HistoryRuns

/-!
# Leases on executions

The calls that claim the execution of an invocation, renew its lease, end it, or move the
invocation under it; and what one update of such a call may do.
-/

namespace GhostBridge.DurableWork

open Ecma Machine

namespace Invocation

variable {invocation : Invocation} {now later : Int} {p q : Text × Text}

def pair (invocation : Invocation) : Option Text × Option Text :=
  (invocation.executionOwner, invocation.executionLeaseId)

/-- The pair is that of the invocation, and its lease has not expired. -/
def Unexpired (now : Int) (invocation : Invocation) (p : Text × Text) : Prop :=
  invocation.pair = (some p.1, some p.2) ∧
    ∃ expiresAt, invocation.executionLeaseExpiresAt = some expiresAt ∧ now < expiresAt

/-- The invocation is not executed under a lease, or the lease has expired. -/
def LeaseOver (now : Int) (invocation : Invocation) : Prop :=
  invocation.executionLeaseId = none ∨ invocation.executionLeaseExpiresAt = none ∨
    executionLeaseExpired now invocation = true

theorem Unexpired.unique (h : invocation.Unexpired now p) (h' : invocation.Unexpired later q) :
    p = q := by
  have heq := h.1.symm.trans h'.1
  simp only [Prod.mk.injEq, Option.some.injEq] at heq
  exact Prod.ext heq.1 heq.2

theorem Unexpired.not_over (h : invocation.Unexpired later p) (hle : now ≤ later) :
    ¬invocation.LeaseOver now := by
  obtain ⟨hpair, expiresAt, hexpiry, hlt⟩ := h
  have hlease : invocation.executionLeaseId = some p.2 := congrArg Prod.snd hpair
  intro hover
  rcases hover with hnone | hnone | hexpired
  · simp [hlease] at hnone
  · simp [hexpiry] at hnone
  · simp only [executionLeaseExpired, hexpiry, decide_eq_true_eq] at hexpired
    omega

theorem unexpired_of_owns {options : LifecycleOptions} (h : options.owns now invocation = true)
    (hp : options.ownership = some p) : invocation.Unexpired now p := by
  simp only [LifecycleOptions.owns, hp, Bool.and_eq_true, beq_iff_eq] at h
  obtain ⟨⟨howner, hlease⟩, hlive⟩ := h
  cases hexpiry : invocation.executionLeaseExpiresAt with
  | none => simp [hexpiry] at hlive
  | some expiresAt =>
    have hlt : now < expiresAt := by simpa [hexpiry] using hlive
    exact ⟨by rw [pair, howner, hlease], expiresAt, hexpiry, hlt⟩

end Invocation

/-- A call of the lifecycle service by an executor, a heartbeat or a shutdown. -/
inductive LeaseCall where
  | claimInvocationExecution (options : LifecycleOptions) (owner : Text) (leaseId : Option Text)
      (leaseDurationMs : ℕ)
  | transitionInvocation (options : LifecycleOptions) (fromState toState : InvocationState)
  | renewInvocationExecutionLease (options : LifecycleOptions) (owner leaseId : Text)
      (leaseDurationMs : ℕ)
  | markExpiredInvocationLeaseRecovery (options : LifecycleOptions)
  | markActiveInvocationRecovery (options : LifecycleOptions)

namespace LeaseCall

def options : LeaseCall → LifecycleOptions
  | .claimInvocationExecution options _ _ _ => options
  | .transitionInvocation options _ _ => options
  | .renewInvocationExecutionLease options _ _ _ => options
  | .markExpiredInvocationLeaseRecovery options => options
  | .markActiveInvocationRecovery options => options

def presented : LeaseCall → Option (Text × Text)
  | .transitionInvocation options _ _ => options.ownership
  | .renewInvocationExecutionLease _ owner leaseId _ => some (owner, leaseId)
  | .markActiveInvocationRecovery options => options.ownership
  | _ => none

def leaseId : LeaseCall → Option Text
  | .claimInvocationExecution _ _ leaseId _ => leaseId
  | _ => none

def program : LeaseCall → Flow Unit
  | .claimInvocationExecution options owner leaseId leaseDurationMs => do
    let _ ← DurableWork.claimInvocationExecution options owner leaseId leaseDurationMs
  | .transitionInvocation options fromState toState => do
    let _ ← DurableWork.transitionInvocation options fromState toState
  | .renewInvocationExecutionLease options owner leaseId leaseDurationMs => do
    let _ ← DurableWork.renewInvocationExecutionLease options owner leaseId leaseDurationMs
  | .markExpiredInvocationLeaseRecovery options => do
    let _ ← DurableWork.markExpiredInvocationLeaseRecovery options
  | .markActiveInvocationRecovery options => do
    let _ ← DurableWork.markActiveInvocationRecovery options

end LeaseCall

/-- What a call has read from the clock and drawn, and whether it has updated an invocation. -/
structure LeaseProgress where
  call : LeaseCall
  readings : List Int := []
  ids : List Text := []
  updated : Bool := false

namespace LeaseProgress

instance : Preorder LeaseProgress where
  le s t := s.call = t.call ∧ s.readings ⊆ t.readings ∧ s.ids ⊆ t.ids ∧
    (s.updated = true → t.updated = true)
  le_refl _ := ⟨rfl, List.Subset.refl _, List.Subset.refl _, id⟩
  le_trans _ _ _ h h' := ⟨h.1.trans h'.1, List.Subset.trans h.2.1 h'.2.1,
    List.Subset.trans h.2.2.1 h'.2.2.1, h'.2.2.2 ∘ h.2.2.2⟩

variable {s t : LeaseProgress}

theorem call_eq (h : s ≤ t) : s.call = t.call := h.1
theorem readings_mono (h : s ≤ t) : s.readings ⊆ t.readings := h.2.1
theorem ids_mono (h : s ≤ t) : s.ids ⊆ t.ids := h.2.2.1
theorem updated_mono (h : s ≤ t) : s.updated = true → t.updated = true := h.2.2.2

/-- The call was given the lease, or has drawn it. -/
def Brings (s : LeaseProgress) (leaseId : Text) : Prop :=
  s.call.leaseId = some leaseId ∨ leaseId ∈ s.ids

theorem Brings.mono {leaseId : Text} (h : s ≤ t) (hbrings : s.Brings leaseId) : t.Brings leaseId :=
  hbrings.imp (call_eq h ▸ id) fun hmem => ids_mono h hmem

/-- The call has read a time at which the pair that it presents was unexpired. -/
def Presents (s : LeaseProgress) (invocation : Invocation) : Prop :=
  ∀ p, s.call.presented = some p → ∃ now ∈ s.readings, invocation.Unexpired now p

end LeaseProgress

inductive LeaseStep (s : LeaseProgress) (invocation next : Invocation) : Prop
  /-- The execution of an authorized invocation is claimed. -/
  | claims (owner leaseId : Text) (hpresented : s.call.presented = none)
      (hbrings : s.Brings leaseId) (hauthorized : invocation.lifecycleState = .authorized)
      (hover : ∃ now ∈ s.readings, invocation.LeaseOver now)
      (hrunning : next.lifecycleState = .running)
      (hpair : next.pair = (some owner, some leaseId))
  /-- The state changes, under the lease or with its end. -/
  | moves (hpresents : s.Presents invocation)
      (hlease : next.pair = invocation.pair ∧
          next.executionLeaseExpiresAt = invocation.executionLeaseExpiresAt ∨
        next.pair = (none, none) ∧ next.executionLeaseExpiresAt = none)
  | renews (p : Text × Text) (hp : s.call.presented = some p) (hpresents : s.Presents invocation)
      (hstate : next.lifecycleState = invocation.lifecycleState)
      (hpair : next.pair = invocation.pair)

namespace LeaseStep

variable {s : LeaseProgress} {invocation next : Invocation}

theorem presents (h : LeaseStep s invocation next) : s.Presents invocation := by
  cases h with
  | claims owner leaseId hpresented => exact fun p hp => absurd (hpresented.symm.trans hp) nofun
  | moves hpresents => exact hpresents
  | renews p hp hpresents => exact hpresents

theorem claimed (h : LeaseStep s invocation next) {leaseId : Text}
    (hlease : next.executionLeaseId = some leaseId) (hpair : next.pair ≠ invocation.pair) :
    s.Brings leaseId ∧ invocation.lifecycleState = .authorized ∧
      (∃ now ∈ s.readings, invocation.LeaseOver now) ∧ next.lifecycleState = .running := by
  cases h with
  | claims owner id _ hbrings hauthorized hover hrunning hnext =>
    obtain rfl : id = leaseId :=
      Option.some.inj ((congrArg Prod.snd hnext : next.executionLeaseId = some id).symm.trans hlease)
    exact ⟨hbrings, hauthorized, hover, hrunning⟩
  | moves _ hsame =>
    rcases hsame with hsame | hnone
    · exact absurd hsame.1 hpair
    · have : next.executionLeaseId = none := congrArg Prod.snd hnone.1
      simp [this] at hlease
  | renews p _ _ _ hsame => exact absurd hsame hpair

end LeaseStep

def nextLeaseProgress (s : LeaseProgress) : (op : Op) → Reply op → LeaseProgress
  | .clock, now => { s with readings := now :: s.readings }
  | .randomUUID, id => { s with ids := id :: s.ids }
  | .updateInvocation _ _, .ok (some _) => { s with updated := true }
  | _, _ => s

def leaseConduct : Monitor Op Reply LeaseProgress where
  next := nextLeaseProgress
  allowed s
    | .updateInvocation filter update => s.updated = false ∧
      ∀ invocation, filter invocation = true → LeaseStep s invocation (update invocation)
    | _ => True
  replies _ _ _ := True

theorem leaseConduct_upward : leaseConduct.Upward := by
  intro s op reply
  have hself : s ≤ s := le_rfl
  cases op with
  | clock => exact ⟨rfl, List.subset_cons_self _ _, hself.2.2.1, id⟩
  | randomUUID => exact ⟨rfl, hself.2.1, List.subset_cons_self _ _, id⟩
  | updateInvocation filter update =>
    rcases reply with e | (_ | invocation)
    · exact hself
    · exact hself
    · exact ⟨rfl, hself.2.1, hself.2.2.1, fun _ => rfl⟩
  | _ => exact hself

section Rules

variable {s : LeaseProgress}

/-- The call keeps to its conduct, and what it returns is as described. -/
abbrev Leases {α : Type} (s : LeaseProgress) (post : LeaseProgress → α → Prop) (flow : Flow α) :
    Prop := flow.Rising leaseConduct s post

theorem leases_updateInvocation {filter : Invocation → Bool} {update : Invocation → Invocation}
    (hupdated : s.updated = false)
    (h : ∀ invocation, filter invocation = true → LeaseStep s invocation (update invocation)) :
    Leases s (fun t found => found = none → t.updated = false)
      (findOneAndUpdateInvocation filter update) := by
  let op : Op := .updateInvocation filter update
  have hasked : Leases s (fun t (reply : Reply op) =>
      ∀ found, reply = Except.ok found → found = none → t.updated = false) (Async.ask op) := by
    refine Async.rising_ask leaseConduct_upward ⟨hupdated, h⟩ fun reply _ found hreply hnone => ?_
    subst hnone hreply
    exact hupdated
  exact hasked.bind fun t reply _ hpost => Async.rising_monadLift hpost

theorem leases_findOneInvocation {filter : Invocation → Bool} :
    Leases s (fun _ _ => True) (findOneInvocation filter) := by
  have hasked : Leases s (fun _ _ => True) (Async.ask (.findOneInvocation filter)) :=
    Async.rising_ask leaseConduct_upward trivial fun _ _ => trivial
  exact hasked.bind fun _ _ _ _ => Async.rising_monadLift fun _ _ => trivial

theorem leases_dateValue {date : Option Int} (h : ∀ now, date = some now → now ∈ s.readings) :
    Leases s (fun t now => now ∈ t.readings ∧ t.updated = s.updated) (dateValue date) := by
  cases date with
  | some now => exact Async.rising_pure ⟨h now rfl, rfl⟩
  | none =>
    exact Async.rising_ask leaseConduct_upward trivial fun _ _ => ⟨List.mem_cons_self, rfl⟩

theorem leases_randomUUID :
    Leases s (fun t id => id ∈ t.ids ∧ t.updated = s.updated) randomUUID :=
  Async.rising_ask leaseConduct_upward trivial fun _ _ => ⟨List.mem_cons_self, rfl⟩

end Rules

section Operations

variable {s : LeaseProgress} {options : LifecycleOptions}

theorem applyTransition_lease (toState : InvocationState) (entry : HistoryEntry)
    (outcome : Outcome) (invocation : Invocation) :
    (applyTransition toState entry outcome invocation).pair = invocation.pair ∧
        (applyTransition toState entry outcome invocation).executionLeaseExpiresAt =
          invocation.executionLeaseExpiresAt ∨
      (applyTransition toState entry outcome invocation).pair = (none, none) ∧
        (applyTransition toState entry outcome invocation).executionLeaseExpiresAt = none := by
  simp only [applyTransition]
  split
  · exact .inr ⟨rfl, rfl⟩
  · exact .inl ⟨rfl, rfl⟩

/-- What `transitionUpdate` returns keeps the lease of an invocation, or ends it. -/
theorem transitionUpdate_moves {fromState toState : InvocationState} {entry : EntryOptions}
    {outcome : Outcome} {update : Invocation → Invocation} {invocation : Invocation}
    (hupdate : transitionUpdate fromState toState entry outcome = .ok update)
    (hpresents : s.Presents invocation) : LeaseStep s invocation (update invocation) := by
  simp only [transitionUpdate, bind_ok, exists_unit, pure_ok] at hupdate
  obtain ⟨-, entry, -, -, rfl⟩ := hupdate
  exact .moves hpresents (applyTransition_lease toState entry outcome invocation)

theorem leases_transitionInvocation {fromState toState : InvocationState}
    (hcall : s.call = .transitionInvocation options fromState toState) (hupdated : s.updated = false)
    (hnow : options.now = none) :
    Leases s (fun _ _ => True) (transitionInvocation options fromState toState) := by
  refine (leases_dateValue (by simp [hnow])).bind fun t now hst hreading => ?_
  refine Async.Rising.check fun update hupdate => ?_
  refine (leases_updateInvocation (hreading.2.trans hupdated) fun invocation hfilter => ?_).bind
    fun u found _ _ => ?_
  · simp only [Bool.and_eq_true] at hfilter
    refine transitionUpdate_moves hupdate fun p hp => ⟨now, hreading.1, ?_⟩
    rw [← LeaseProgress.call_eq hst, hcall] at hp
    exact Invocation.unexpired_of_owns hfilter.2 hp
  · cases found with
    | some found => exact Async.rising_pure trivial
    | none =>
      refine leases_findOneInvocation.bind fun v current _ _ => ?_
      cases current with
      | none => exact Async.rising_throw
      | some _ => exact Async.rising_throw

theorem leases_markRecovery {now : Int} {guard : Invocation → Bool} {states : List InvocationState}
    (hupdated : s.updated = false)
    (hguard : ∀ invocation, guard invocation = true → s.Presents invocation) :
    Leases s (fun _ _ => True) (markRecovery options now guard states) := by
  induction states generalizing s with
  | nil => exact Async.rising_pure trivial
  | cons fromState rest ih =>
    refine Async.Rising.check fun update hupdate => ?_
    refine (leases_updateInvocation hupdated fun invocation hfilter => ?_).bind
      fun t found hst hnone => ?_
    · simp only [Bool.and_eq_true] at hfilter
      exact transitionUpdate_moves hupdate (hguard invocation hfilter.2)
    · cases found with
      | some found => exact Async.rising_pure trivial
      | none =>
        refine ih (hnone rfl) fun invocation h p hp => ?_
        obtain ⟨now, hmem, hunexpired⟩ :=
          hguard invocation h p ((congrArg LeaseCall.presented hst.1).trans hp)
        exact ⟨now, LeaseProgress.readings_mono hst hmem, hunexpired⟩

theorem leases_markExpired (hcall : s.call.presented = none) (hupdated : s.updated = false)
    (hnow : ∀ now, options.now = some now → now ∈ s.readings) :
    Leases s (fun _ _ => True) (markExpiredInvocationLeaseRecovery options) := by
  refine (leases_dateValue hnow).bind fun t now hst hreading => ?_
  refine leases_markRecovery (hreading.2.trans hupdated) fun invocation _ p hp => ?_
  rw [← LeaseProgress.call_eq hst, hcall] at hp
  cases hp

theorem leases_markActive (hcall : s.call = .markActiveInvocationRecovery options)
    (hupdated : s.updated = false) (hnow : options.now = none) :
    Leases s (fun _ _ => True) (markActiveInvocationRecovery options) := by
  refine (leases_dateValue (by simp [hnow])).bind fun t now hst hreading => ?_
  refine leases_markRecovery (hreading.2.trans hupdated) fun invocation h p hp => ?_
  rw [← LeaseProgress.call_eq hst, hcall] at hp
  exact ⟨now, hreading.1, Invocation.unexpired_of_owns h hp⟩

theorem leases_renewInvocationExecutionLease {owner leaseId : Text} {leaseDurationMs : ℕ}
    (hcall : s.call = .renewInvocationExecutionLease options owner leaseId leaseDurationMs)
    (hupdated : s.updated = false) (hnow : options.now = none) :
    Leases s (fun _ _ => True)
      (renewInvocationExecutionLease options owner leaseId leaseDurationMs) := by
  refine (leases_dateValue (by simp [hnow])).bind fun t now hst hreading => ?_
  refine Async.Rising.check fun _ _ => ?_
  have hpresented : t.call.presented = some (owner, leaseId) := by
    rw [← LeaseProgress.call_eq hst, hcall]
    rfl
  refine (leases_updateInvocation (hreading.2.trans hupdated) fun invocation hfilter => ?_).mono
    fun _ _ _ _ => trivial
  simp only [Bool.and_eq_true] at hfilter
  refine .renews (owner, leaseId) hpresented (fun p hp => ⟨now, hreading.1, ?_⟩) rfl rfl
  exact Invocation.unexpired_of_owns hfilter.2 (hpresented.symm.trans hp)

theorem claimed_step {owner leaseId : Text} {expiresAt now : Int} {entry : EntryOptions}
    {outcome : Outcome} {update : Invocation → Invocation} {invocation : Invocation}
    (hcall : s.call.presented = none) (hbrings : s.Brings leaseId) (hreading : now ∈ s.readings)
    (hupdate : transitionUpdate .authorized .running entry outcome = .ok update)
    (hfilter : (options.names invocation && invocation.lifecycleState == .authorized &&
      (invocation.executionLeaseId.isNone || invocation.executionLeaseExpiresAt.isNone ||
        executionLeaseExpired now invocation)) = true) :
    LeaseStep s invocation { update invocation with
      executionLeaseId := some leaseId
      executionLeaseExpiresAt := some expiresAt
      executionOwner := some owner
      lastProgressStage := some .executionClaimed } := by
  simp only [Bool.and_eq_true, Bool.or_eq_true, beq_iff_eq, Option.isNone_iff_eq_none] at hfilter
  simp only [transitionUpdate, bind_ok, exists_unit, pure_ok] at hupdate
  obtain ⟨-, entry, -, -, rfl⟩ := hupdate
  have hrunning := (applyTransition_lifecycleState .running entry outcome invocation).1
  have hover : invocation.LeaseOver now := or_assoc.mp hfilter.2
  exact .claims owner leaseId hcall hbrings hfilter.1.2 ⟨now, hreading, hover⟩ hrunning rfl

theorem leases_claimInvocationExecution {owner : Text} {leaseId : Option Text}
    {leaseDurationMs : ℕ}
    (hcall : s.call = .claimInvocationExecution options owner leaseId leaseDurationMs)
    (hupdated : s.updated = false) (hnow : options.now = none) :
    Leases s (fun _ _ => True)
      (claimInvocationExecution options owner leaseId leaseDurationMs) := by
  have hpresented : s.call.presented = none := by
    rw [hcall]
    rfl
  unfold claimInvocationExecution
  extract_lets lifecycle claim
  have hclaim (t : LeaseProgress) (hst : s ≤ t) (hfree : t.updated = false) (id : Text)
      (hbrings : t.Brings id) : Leases t (fun _ _ => True) (claim id) := by
    have hpresented' : t.call.presented = none := hst.1 ▸ hpresented
    refine (leases_dateValue (by simp [hnow])).bind fun u now htu hreading => ?_
    have hcall' : u.call.presented = none := htu.1 ▸ hpresented'
    refine Async.Rising.check fun _ _ => Async.Rising.check fun update hupdate => ?_
    refine (leases_updateInvocation (hreading.2.trans hfree) fun invocation hfilter => ?_).bind
      fun v found huv hnone => ?_
    · exact claimed_step hcall' (hbrings.mono htu) hreading.1 hupdate hfilter
    cases found with
    | some invocation => exact Async.rising_pure trivial
    | none =>
      have hread : ∀ date, some now = some date → date ∈ v.readings := by
        intro date hdate
        exact Option.some.inj hdate ▸ LeaseProgress.readings_mono huv hreading.1
      refine (leases_markExpired (huv.1 ▸ hcall') (hnone rfl) hread).bind
        fun w recovered _ _ => ?_
      split
      · exact Async.rising_throw
      · refine leases_findOneInvocation.bind fun x current _ _ => ?_
        cases current with
        | none => exact Async.rising_throw
        | some _ => exact Async.rising_throw
  cases leaseId with
  | some id =>
    refine hclaim s le_rfl hupdated id (.inl ?_)
    rw [hcall]
    rfl
  | none =>
    refine leases_randomUUID.bind fun t id hst hid => ?_
    exact hclaim t hst (hid.2.trans hupdated) id (.inr hid.1)

end Operations

theorem LeaseCall.leases (call : LeaseCall) (hnow : call.options.now = none) :
    Leases { call := call } (fun _ _ => True) call.program := by
  cases call with
  | claimInvocationExecution options owner leaseId leaseDurationMs =>
    exact (leases_claimInvocationExecution rfl rfl hnow).bind fun _ _ _ _ => Async.rising_pure trivial
  | transitionInvocation options fromState toState =>
    exact (leases_transitionInvocation rfl rfl hnow).bind fun _ _ _ _ => Async.rising_pure trivial
  | renewInvocationExecutionLease options owner leaseId leaseDurationMs =>
    exact (leases_renewInvocationExecutionLease rfl rfl hnow).bind
      fun _ _ _ _ => Async.rising_pure trivial
  | markExpiredInvocationLeaseRecovery options =>
    have hdate : ∀ now, options.now = some now → now ∈ ([] : List Int) := by
      rw [show options.now = none from hnow]
      exact nofun
    exact (leases_markExpired rfl rfl hdate).bind fun _ _ _ _ => Async.rising_pure trivial
  | markActiveInvocationRecovery options =>
    exact (leases_markActive rfl rfl hnow).bind fun _ _ _ _ => Async.rising_pure trivial

end GhostBridge.DurableWork
