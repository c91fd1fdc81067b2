import GhostBridge.DurableWork.Reconciliation
import GhostBridge.Machine.Program

/-!
# The conduct of a call

What every call of the service keeps to, whatever the others do: how it changes a work item that it
knows only from what it has read, when it takes over a lease, and how it adds to the history of an
invocation.
-/

namespace GhostBridge.DurableWork

open Ecma Machine

/-- The one edge that is not in the table: the replay of an attempt that has failed. -/
def IsReplayOfFailure (fromState toState : InvocationState) : Prop :=
  fromState = .failed ∧ toState = .retryScheduled

def HistoryEntry.Edge (entry : HistoryEntry) : Prop :=
  ∀ fromState, entry.fromState = some fromState →
    canTransition fromState entry.toState = true ∨ IsReplayOfFailure fromState entry.toState

structure LeadsTo (history : List HistoryEntry) (state : InvocationState) : Prop where
  edges : ∀ entry ∈ history, entry.Edge
  chain : history.IsChain fun a b => b.fromState = some a.toState
  last : history.getLast?.map HistoryEntry.toState = some state

/-- The history of the invocation leads to its state. -/
def Invocation.Historical (invocation : Invocation) : Prop :=
  LeadsTo invocation.stateHistory invocation.lifecycleState

/-- The lease is presented: its owner and its token, in time. -/
def Presents (readings : List Int) (presented : Text × Ownership) (work : WorkItem) : Prop :=
  work.id = presented.1 ∧ work.lease.leaseOwner = some presented.2.leaseOwner ∧
    work.lease.leaseTokenHash = some (leaseTokenHash presented.2.leaseToken) ∧
    ∃ now ∈ readings, leaseLive now work.lease = true

structure Progress where
  /-- The call may only repeat attempts that have not come to their transmission. -/
  careful : Bool := false
  presented : Option (Text × Ownership) := none
  readings : List Int := []
  tokens : List Text := []
  seen : List WorkItem := []
  /-- The items that the call has set to `retry_preparing` itself. -/
  taken : List WorkItem := []
  invocations : List Invocation := []
  updated : Bool := false

namespace Progress

instance : Preorder Progress where
  le s t := s.careful = t.careful ∧ s.presented = t.presented ∧ s.readings ⊆ t.readings ∧
    s.tokens ⊆ t.tokens ∧ s.seen ⊆ t.seen ∧ s.taken ⊆ t.taken ∧ s.invocations ⊆ t.invocations ∧
    (s.updated = true → t.updated = true)
  le_refl _ := ⟨rfl, rfl, List.Subset.refl _, List.Subset.refl _, List.Subset.refl _,
    List.Subset.refl _, List.Subset.refl _, id⟩
  le_trans _ _ _ h h' := ⟨h.1.trans h'.1, h.2.1.trans h'.2.1,
    List.Subset.trans h.2.2.1 h'.2.2.1, List.Subset.trans h.2.2.2.1 h'.2.2.2.1,
    List.Subset.trans h.2.2.2.2.1 h'.2.2.2.2.1, List.Subset.trans h.2.2.2.2.2.1 h'.2.2.2.2.2.1,
    List.Subset.trans h.2.2.2.2.2.2.1 h'.2.2.2.2.2.2.1,
    h'.2.2.2.2.2.2.2 ∘ h.2.2.2.2.2.2.2⟩

variable {s t : Progress}

theorem careful_eq (h : s ≤ t) : s.careful = t.careful := h.1
theorem presented_eq (h : s ≤ t) : s.presented = t.presented := h.2.1
theorem readings_mono (h : s ≤ t) : s.readings ⊆ t.readings := h.2.2.1
theorem tokens_mono (h : s ≤ t) : s.tokens ⊆ t.tokens := h.2.2.2.1
theorem seen_mono (h : s ≤ t) : s.seen ⊆ t.seen := h.2.2.2.2.1
theorem taken_mono (h : s ≤ t) : s.taken ⊆ t.taken := h.2.2.2.2.2.1
theorem updated_mono (h : s ≤ t) : s.updated = true → t.updated = true := h.2.2.2.2.2.2.2

/-- The item is one that the call has seen, or a later state of it. -/
def Knows (s : Progress) (work : WorkItem) : Prop :=
  ∀ p ∈ s.seen, p.id = work.id → p.Later work

/-- The call has read a time at which the lease is over, or knows its token. -/
def MayTake (s : Progress) (lease : LeaseFields) : Prop :=
  (∃ now ∈ s.readings, leaseFree now lease = true) ∨
    ∃ token ∈ s.tokens, lease.leaseTokenHash = some (leaseTokenHash token)

/-- The first update of a call that presents a lease is one of the item that carries it. -/
def MayUpdate (s : Progress) (work : WorkItem) : Prop :=
  ∀ p, s.presented = some p → s.updated = true ∨ Presents s.readings p work

end Progress

structure ItemStep (s : Progress) (work next : WorkItem) : Prop where
  sound : next.Sound
  follows : work.Later next
  taken : s.careful = true → next.status = .retryPreparing → next.core = work.core ∨
    (work.status ∉ claimableDurableWorkStatuses ∧ next.milestones = work.milestones ∧
      (classifyAbandonedWork work).replayAllowed = true)
  released : s.careful = true → next.status ∈ claimableDurableWorkStatuses →
    next.core = work.core ∨ ∃ p ∈ s.taken, p.id = work.id ∧ p.version = work.version
  lease : next.lease = work.lease ∨ s.MayTake work.lease
  presented : s.MayUpdate work

structure InvocationStep (s : Progress) (invocation next : Invocation) : Prop where
  id_eq : next.id = invocation.id
  historical : next.Historical
  terminal : invocation.lifecycleState ∈ terminalInvocationStates →
    next.lifecycleState ≠ invocation.lifecycleState →
    invocation.lifecycleState = .failed ∧ next.lifecycleState = .authorized ∧
      ∃ p ∈ s.invocations, p.id = invocation.id ∧ p.lifecycleState = .failed ∧
        p.retryState = .scheduled

/-- The update leaves the version of an item, or counts it. -/
def Versions (update : WorkItem → WorkItem) : Prop :=
  (∀ work, (update work).version = work.version) ∨
    ∀ work, (update work).version = work.version + 1

def inserted (document : WorkItem) (id : Text) (now : Int) : WorkItem :=
  { document with id := id, createdAt := now, updatedAt := now }

def nextProgress (s : Progress) : (op : Op) → Reply op → Progress
  | .clock, now => { s with readings := now :: s.readings }
  | .randomToken, token => { s with tokens := token :: s.tokens }
  | .findWork _ _ _, .ok items => { s with seen := items ++ s.seen }
  | .findOneWork _ _, .ok (some item) => { s with seen := item :: s.seen }
  | .updateWork _ _ update, .ok (some item) =>
    { s with
      seen := item :: s.seen
      taken :=
        if item.status = .retryPreparing ∧ (update item).version ≠ item.version then
          item :: s.taken
        else s.taken
      updated := true }
  | .findInvocations _ _ _, .ok invocations =>
    { s with invocations := invocations ++ s.invocations }
  | .findOneInvocation _, .ok (some invocation) =>
    { s with invocations := invocation :: s.invocations }
  | _, _ => s

def conduct : Monitor Op Reply Progress where
  next := nextProgress
  allowed s
    | .updateWork filter _ update => Versions update ∧
      ∀ now work, work.Sound → s.Knows work → filter work = true →
        ItemStep s work (touched now update work)
    | .upsertWork document => ∀ id now, (inserted document id now).Sound
    | .updateInvocation filter update => ∀ invocation, invocation.Historical →
      filter invocation = true → InvocationStep s invocation (update invocation)
    | _ => True
  replies
    | s, .findWork filter _ _, .ok items =>
      ∀ work ∈ items, work.Sound ∧ s.Knows work ∧ filter work = true
    | s, .findOneWork filter _, .ok (some work) => work.Sound ∧ s.Knows work ∧ filter work = true
    | s, .updateWork filter _ update, .ok (some item) => ∃ now work, work.Sound ∧ s.Knows work ∧
      filter work = true ∧ item = touched now update work
    | _, .findInvocations filter _ _, .ok invocations =>
      ∀ invocation ∈ invocations, filter invocation = true
    | _, .findOneInvocation filter, .ok (some invocation) => filter invocation = true
    | _, _, _ => True

theorem conduct_upward : conduct.Upward := by
  intro s op reply
  have hself : s ≤ s := le_rfl
  cases op with
  | clock =>
    exact ⟨rfl, rfl, List.subset_cons_self _ _, hself.2.2.2.1, hself.2.2.2.2.1,
      hself.2.2.2.2.2.1, hself.2.2.2.2.2.2.1, id⟩
  | randomToken =>
    exact ⟨rfl, rfl, hself.2.2.1, List.subset_cons_self _ _, hself.2.2.2.2.1,
      hself.2.2.2.2.2.1, hself.2.2.2.2.2.2.1, id⟩
  | findWork filter sort limit =>
    cases reply with
    | error e => exact hself
    | ok items =>
      exact ⟨rfl, rfl, hself.2.2.1, hself.2.2.2.1, List.subset_append_right _ _,
        hself.2.2.2.2.2.1, hself.2.2.2.2.2.2.1, id⟩
  | findOneWork filter sort =>
    rcases reply with e | (_ | item)
    · exact hself
    · exact hself
    · exact ⟨rfl, rfl, hself.2.2.1, hself.2.2.2.1, List.subset_cons_self _ _,
        hself.2.2.2.2.2.1, hself.2.2.2.2.2.2.1, id⟩
  | updateWork filter sort update =>
    rcases reply with e | (_ | item)
    · exact hself
    · exact hself
    · refine ⟨rfl, rfl, hself.2.2.1, hself.2.2.2.1, List.subset_cons_self _ _, ?_,
        hself.2.2.2.2.2.2.1, fun _ => rfl⟩
      change s.taken ⊆ if item.status = .retryPreparing ∧ (update item).version ≠ item.version then
        item :: s.taken else s.taken
      split
      · exact List.subset_cons_self _ _
      · exact List.Subset.refl _
  | findInvocations filter sort limit =>
    cases reply with
    | error e => exact hself
    | ok invocations =>
      exact ⟨rfl, rfl, hself.2.2.1, hself.2.2.2.1, hself.2.2.2.2.1, hself.2.2.2.2.2.1,
        List.subset_append_right _ _, id⟩
  | findOneInvocation filter =>
    rcases reply with e | (_ | invocation)
    · exact hself
    · exact hself
    · exact ⟨rfl, rfl, hself.2.2.1, hself.2.2.2.1, hself.2.2.2.2.1, hself.2.2.2.2.2.1,
        List.subset_cons_self _ _, id⟩
  | _ => exact hself

/-- The call keeps to its conduct, and what it returns is as described. -/
abbrev Conducts {α : Type} (s : Progress) (post : Progress → α → Prop) (flow : Flow α) : Prop :=
  flow.Rising conduct s post

variable {s : Progress}

private theorem conducts_reply {α : Type} {post : Progress → α → Prop} (op : Op)
    (result : Reply op → Checked α) (hallowed : conduct.allowed s op)
    (h : ∀ reply, conduct.replies s op reply → ∀ a, result reply = .ok a →
      post (conduct.next s op reply) a) :
    Conducts s post (Async.ask op >>= fun reply => liftM (result reply)) :=
  have hasked : Conducts s (fun t reply => ∀ a, result reply = .ok a → post t a) (Async.ask op) :=
    Async.rising_ask conduct_upward hallowed h
  hasked.bind fun _ _ _ hpost => Async.rising_monadLift hpost

structure Updated (s t : Progress) (filter : WorkItem → Bool) (update : WorkItem → WorkItem)
    (item : WorkItem) : Prop where
  seen : item ∈ t.seen
  taken : item.status = .retryPreparing → item ∈ t.taken
  updated : t.updated = true
  before : ∃ now work, work.Sound ∧ s.Knows work ∧ filter work = true ∧
    item = touched now update work

theorem conducts_updateWork {filter : WorkItem → Bool} {sort : DocumentOrder WorkItem}
    {update : WorkItem → WorkItem}
    (hversion : ∀ work, (update work).version = work.version + 1)
    (h : ∀ now work, work.Sound → s.Knows work → filter work = true →
      ItemStep s work (touched now update work)) :
    Conducts s (fun t item => ∀ found, item = some found → Updated s t filter update found)
      (findOneAndUpdateWork filter update sort) := by
  refine conducts_reply (.updateWork filter sort update) id ⟨.inr hversion, h⟩
    fun reply hreply a ha => ?_
  rintro found rfl
  obtain rfl : reply = .ok (some found) := ha
  refine ⟨List.mem_cons_self, fun hstatus => ?_, rfl, hreply⟩
  have hcounted : (update found).version ≠ found.version := by
    rw [hversion]
    exact Nat.succ_ne_self _
  change found ∈ if found.status = .retryPreparing ∧ (update found).version ≠ found.version then
    found :: s.taken else s.taken
  rw [if_pos ⟨hstatus, hcounted⟩]
  exact List.mem_cons_self

theorem conducts_repairUpdate {filter : WorkItem → Bool} {sort : DocumentOrder WorkItem}
    {update : WorkItem → WorkItem}
    (h : ∀ now work, work.Sound → s.Knows work → filter work = true →
      ItemStep s work (touched now update work))
    (hversion : ∀ work, (update work).version = work.version) :
    Conducts s (fun _ _ => True) (findOneAndUpdateWork filter update sort) :=
  conducts_reply (.updateWork filter sort update) id ⟨.inl hversion, h⟩
    fun _ _ _ _ => trivial

structure Read (s t : Progress) (filter : WorkItem → Bool) (item : WorkItem) : Prop where
  seen : item ∈ t.seen
  sound : item.Sound
  knows : s.Knows item
  filter : filter item = true

theorem conducts_findOneWork {filter : WorkItem → Bool} {sort : DocumentOrder WorkItem} :
    Conducts s (fun t item => ∀ found, item = some found → Read s t filter found)
      (findOneWork filter sort) := by
  refine conducts_reply (.findOneWork filter sort) id trivial fun reply hreply a ha => ?_
  rintro found rfl
  obtain rfl : reply = .ok (some found) := ha
  exact ⟨List.mem_cons_self, hreply.1, hreply.2.1, hreply.2.2⟩

theorem conducts_findWork {filter : WorkItem → Bool} {sort : DocumentOrder WorkItem} {limit : ℕ} :
    Conducts s (fun t items => ∀ found ∈ items, Read s t filter found)
      (findWork filter sort limit) := by
  refine conducts_reply (.findWork filter sort limit) id trivial fun reply hreply a ha => ?_
  intro found hfound
  obtain rfl : reply = .ok a := ha
  obtain ⟨hsound, hknows, hfilter⟩ := hreply found hfound
  exact ⟨List.mem_append_left _ hfound, hsound, hknows, hfilter⟩

theorem conducts_insertWork {document : WorkItem}
    (h : ∀ id now, (inserted document id now).Sound) :
    Conducts s (fun _ _ => True) (insertWork document) :=
  conducts_reply (.upsertWork document) id h fun _ _ _ _ => trivial

theorem conducts_updateInvocation {filter : Invocation → Bool} {update : Invocation → Invocation}
    (h : ∀ invocation, invocation.Historical → filter invocation = true →
      InvocationStep s invocation (update invocation)) :
    Conducts s (fun _ _ => True) (findOneAndUpdateInvocation filter update) :=
  conducts_reply (.updateInvocation filter update) id h fun _ _ _ _ => trivial

theorem conducts_findOneInvocation {filter : Invocation → Bool} :
    Conducts s (fun t invocation => ∀ found, invocation = some found →
        found ∈ t.invocations ∧ filter found = true)
      (findOneInvocation filter) := by
  refine conducts_reply (.findOneInvocation filter) id trivial fun reply hreply a ha => ?_
  rintro found rfl
  obtain rfl : reply = .ok (some found) := ha
  exact ⟨List.mem_cons_self, hreply⟩

theorem conducts_findInvocations {filter : Invocation → Bool} {sort : DocumentOrder Invocation}
    {limit : ℕ} : Conducts s (fun t invocations => ∀ found ∈ invocations,
        found ∈ t.invocations ∧ filter found = true)
      (findInvocations filter sort limit) := by
  refine conducts_reply (.findInvocations filter sort limit) id trivial
    fun reply hreply a ha => ?_
  intro found hfound
  obtain rfl : reply = .ok a := ha
  exact ⟨List.mem_append_left _ hfound, hreply found hfound⟩

theorem conducts_insertEvent {event : OutboxEvent} :
    Conducts s (fun _ _ => True) (insertEvent event) :=
  conducts_reply (.upsertEvent event) id trivial fun _ _ _ _ => trivial

theorem conducts_findConnection {invocation : Invocation} :
    Conducts s (fun _ _ => True) (findConnection invocation) :=
  conducts_reply (.findConnection invocation) id trivial fun _ _ _ _ => trivial

theorem conducts_assertOperationalAccess : Conducts s (fun _ _ => True) assertOperationalAccess :=
  conducts_reply .operationalAccess id trivial fun _ _ _ _ => trivial

theorem conducts_evaluateRetry {work : WorkItem} :
    Conducts s (fun _ _ => True) (evaluateRetry work) :=
  conducts_reply (.evaluateRetry work) id trivial fun _ _ _ _ => trivial

theorem conducts_randomUUID : Conducts s (fun _ _ => True) randomUUID :=
  Async.rising_ask conduct_upward trivial fun _ _ => trivial

theorem conducts_rawLeaseToken : Conducts s (fun t token => token ∈ t.tokens) rawLeaseToken :=
  Async.rising_ask conduct_upward trivial fun _ _ => List.mem_cons_self

theorem conducts_dateValue {date : Option Int} (h : ∀ now, date = some now → now ∈ s.readings) :
    Conducts s (fun t now => now ∈ t.readings) (dateValue date) := by
  cases date with
  | some now => exact Async.rising_pure (h now rfl)
  | none => exact Async.rising_ask conduct_upward trivial fun _ _ => List.mem_cons_self

end GhostBridge.DurableWork
