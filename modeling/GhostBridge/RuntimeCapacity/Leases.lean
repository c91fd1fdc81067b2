import GhostBridge.Ecma.Text
import GhostBridge.Machine.Counts
import GhostBridge.Machine.Threads

/-!
# Leases of runtime capacity

The documents that hold the slots of workspaces and connections, the operations of the database on
them, each one atomic, and the service that acquires, renews and releases leases.
-/

namespace GhostBridge.RuntimeCapacity

open Ecma Machine

inductive ScopeType where
  | workspace
  | connection
deriving DecidableEq

structure Scope where
  workspaceId : Text
  scopeType : ScopeType
  scopeId : Text
deriving DecidableEq

/-- A `RuntimeCapacitySlot`. -/
structure Slot where
  scope : Scope
  slotNumber : ℕ
  connectionId : Text
  invocationId : Text
  leaseId : Text
  acquiredAt : ℕ
  leaseExpiresAt : ℕ
deriving DecidableEq

/-- `unique_runtime_capacity_slot` does not let two such documents stand. -/
def Slot.clashes (a b : Slot) : Bool := a.scope = b.scope ∧ a.slotNumber = b.slotNumber

structure Lease where
  workspaceId : Text
  connectionId : Text
  invocationId : Text
  leaseId : Text
  leaseExpiresAt : ℕ
deriving DecidableEq

namespace Lease

def scope (lease : Lease) : ScopeType → Scope
  | .workspace => ⟨lease.workspaceId, .workspace, lease.workspaceId⟩
  | .connection => ⟨lease.workspaceId, .connection, lease.connectionId⟩

def slot (lease : Lease) (scope : Scope) (slotNumber now : ℕ) : Slot where
  scope := scope
  slotNumber := slotNumber
  connectionId := lease.connectionId
  invocationId := lease.invocationId
  leaseId := lease.leaseId
  acquiredAt := now
  leaseExpiresAt := lease.leaseExpiresAt

end Lease

/-- What `acquireRuntimeCapacity` returns. -/
inductive CapacityLease where
  | bypassed
  | leased (lease : Lease)
deriving DecidableEq

structure Connection where
  id : Text
  receivingWorkspaceId : Text

structure Settings where
  executionLeaseMs : ℕ
  maxConcurrentPerWorkspace : ℕ
  maxConcurrentPerConnection : ℕ

def Settings.limit (settings : Settings) : ScopeType → ℕ
  | .workspace => settings.maxConcurrentPerWorkspace
  | .connection => settings.maxConcurrentPerConnection

inductive Failure where
  /-- `429`, `RUNTIME_CAPACITY_EXCEEDED`. -/
  | capacityExceeded (message reasonCode : String) (connectionId : Text) (retryAfterMs : ℕ)
  /-- `E11000`. -/
  | duplicateKey
  | unavailable
deriving DecidableEq

inductive Op where
  /-- `Date.now()`. -/
  | clock
  /-- The upsert of `claimScopeSlot`. -/
  | findOneAndUpdate (slot : Slot) (now : ℕ)
  | deleteMany (workspaceId leaseId : Text)
  /-- The update of `renewRuntimeCapacity`. -/
  | updateMany (lease : Lease) (now leaseExpiresAt : ℕ)

abbrev Reply : Op → Type
  | .clock => ℕ
  | .findOneAndUpdate _ _ => Except Failure Slot
  | .deleteMany _ _ => Except Failure ℕ
  | .updateMany _ _ _ => Except Failure ℕ

abbrev Flow := Async Op Reply Failure

structure Store where
  clock : ℕ
  slots : List Slot

/-- The database fails before an operation takes effect, or after it. -/
inductive Fault where
  | before
  | after
deriving DecidableEq

structure Answer where
  /-- How long the clock has gone on before the operation. -/
  elapsed : ℕ := 0
  fault : Option Fault := none

def Answer.deliver {α : Type} (answer : Answer) (store : Store)
    (result : Except Failure α × Store) : Except Failure α × Store :=
  match answer.fault with
  | none => result
  | some .before => (.error .unavailable, store)
  | some .after => (.error .unavailable, result.2)

namespace Store

def blocks (slot : Slot) (now : ℕ) (held : Slot) : Bool :=
  held.clashes slot ∧ ¬(held.leaseExpiresAt ≤ now ∨ held.leaseId = slot.leaseId)

def put (store : Store) (slot : Slot) : Store :=
  { store with slots := store.slots.filter (fun held => !held.clashes slot) ++ [slot] }

def upsert (store : Store) (slot : Slot) (now : ℕ) : Except Failure Slot × Store :=
  if store.slots.any (blocks slot now) then (.error .duplicateKey, store)
  else (.ok slot, store.put slot)

def isHeldBy (workspaceId leaseId : Text) (held : Slot) : Bool :=
  held.scope.workspaceId = workspaceId ∧ held.leaseId = leaseId

def isRenewable (lease : Lease) (now : ℕ) (held : Slot) : Bool :=
  held.scope.workspaceId = lease.workspaceId ∧ held.invocationId = lease.invocationId ∧
    held.leaseId = lease.leaseId ∧ now < held.leaseExpiresAt

def extend (store : Store) (filter : Slot → Bool) (leaseExpiresAt : ℕ) : Store :=
  { store with slots := store.slots.map fun held =>
      if filter held then { held with leaseExpiresAt := leaseExpiresAt } else held }

end Store

def performAt (store : Store) : (op : Op) → Answer → Reply op × Store
  | .clock, _ => (store.clock, store)
  | .findOneAndUpdate slot now, answer => answer.deliver store (store.upsert slot now)
  | .deleteMany workspaceId leaseId, answer =>
    let held := Store.isHeldBy workspaceId leaseId
    answer.deliver store
      (.ok (store.slots.countP held), { store with slots := store.slots.filter fun s => !held s })
  | .updateMany lease now leaseExpiresAt, answer =>
    let renewable := Store.isRenewable lease now
    answer.deliver store
      (.ok (store.slots.countP renewable), store.extend renewable leaseExpiresAt)

def perform : Perform Store Op Answer Reply :=
  fun store op answer => performAt { store with clock := store.clock + answer.elapsed } op answer

/-- The slots from `slotNumber` on, until one is claimed. -/
def claimSlotsFrom (scope : Scope) (lease : Lease) (now : ℕ) :
    (slotNumber remaining : ℕ) → Flow (Option Slot)
  | _, 0 => return none
  | slotNumber, remaining + 1 => do
    let claimed : Except Failure Slot ←
      Async.ask (Op.findOneAndUpdate (lease.slot scope slotNumber now) now)
    match claimed with
    | .ok slot => return some slot
    | .error .duplicateKey => claimSlotsFrom scope lease now (slotNumber + 1) remaining
    | .error e => throw e

def claimScopeSlot (scope : Scope) (limit : ℕ) (lease : Lease) (now : ℕ) : Flow (Option Slot) :=
  claimSlotsFrom scope lease now 1 limit

/-- `persistenceAvailable` is that of the call. -/
def releaseRuntimeCapacity (persistenceAvailable : Bool) (capacityLease : Option CapacityLease) :
    Flow ℕ :=
  match persistenceAvailable, capacityLease with
  | true, some (.leased lease) => do
    let deleted : Except Failure ℕ ← Async.ask (Op.deleteMany lease.workspaceId lease.leaseId)
    deleted
  | _, _ => return 0

def capacityExceeded (settings : Settings) (connectionId : Text) : ScopeType → Failure
  | .workspace => .capacityExceeded "Workspace runtime capacity is full."
      "WORKSPACE_CAPACITY_EXCEEDED" connectionId (min settings.executionLeaseMs 1000)
  | .connection => .capacityExceeded "Connection runtime capacity is full."
      "CONNECTION_CAPACITY_EXCEEDED" connectionId (min settings.executionLeaseMs 1000)

def leaseAt (settings : Settings) (connection : Connection) (invocationId leaseId : Text)
    (now : ℕ) : Lease where
  workspaceId := connection.receivingWorkspaceId
  connectionId := connection.id
  invocationId := invocationId
  leaseId := leaseId
  leaseExpiresAt := now + settings.executionLeaseMs

def acquireLease (settings : Settings) (lease : Lease) (now : ℕ) : Flow CapacityLease := do
  let workspaceSlot ←
    claimScopeSlot (lease.scope .workspace) settings.maxConcurrentPerWorkspace lease now
  match workspaceSlot with
  | none => throw (capacityExceeded settings lease.connectionId .workspace)
  | some _ =>
    let connectionSlot ←
      claimScopeSlot (lease.scope .connection) settings.maxConcurrentPerConnection lease now
    match connectionSlot with
    | none =>
      let deleted : Except Failure ℕ ← Async.ask (Op.deleteMany lease.workspaceId lease.leaseId)
      let _ ← deleted
      throw (capacityExceeded settings lease.connectionId .connection)
    | some _ => return .leased lease

def acquireRuntimeCapacity (settings : Settings) (persistenceAvailable : Bool)
    (connection : Connection) (invocationId leaseId : Text) : Flow CapacityLease :=
  if persistenceAvailable then do
    let now : ℕ ← Async.ask Op.clock
    acquireLease settings (leaseAt settings connection invocationId leaseId now) now
  else return .bypassed

/-- `options.leaseDurationMs || env.RUNTIME_EXECUTION_LEASE_MS`. -/
def leaseDuration (settings : Settings) (leaseDurationMs : Option ℕ) : ℕ :=
  (leaseDurationMs.filter (· ≠ 0)).getD settings.executionLeaseMs

def renewRuntimeCapacity (settings : Settings) (persistenceAvailable : Bool)
    (capacityLease : Option CapacityLease) (leaseDurationMs : Option ℕ) : Flow (Option Lease) :=
  match persistenceAvailable, capacityLease with
  | true, some (.leased lease) => do
    let now : ℕ ← Async.ask Op.clock
    let leaseExpiresAt := now + leaseDuration settings leaseDurationMs
    let matched : Except Failure ℕ ← Async.ask (Op.updateMany lease now leaseExpiresAt)
    let matchedCount ← matched
    if matchedCount < 2 then return none
    else return some { lease with leaseExpiresAt := leaseExpiresAt }
  | _, _ => return none

end GhostBridge.RuntimeCapacity

/-!
## Runs over the slots of runtime capacity

Any number of acquisitions, renewals and releases that run at the same time over one clock. The
unique index bounds the leases, and a lease that was returned has a slot of each scope until it is
released or has expired. An acquisition that throws has freed its slots if the database does not
fail where the lease holds one.
-/

namespace GhostBridge.RuntimeCapacity

open Ecma Machine

inductive Call where
  | acquire (persistenceAvailable : Bool) (connection : Connection) (invocationId leaseId : Text)
  | renew (persistenceAvailable : Bool) (capacityLease : Option CapacityLease)
    (leaseDurationMs : Option ℕ)
  | release (persistenceAvailable : Bool) (capacityLease : Option CapacityLease)

inductive Outcome where
  | acquired (capacityLease : CapacityLease)
  | renewed (lease : Option Lease)
  | released (count : ℕ)

namespace Call

def program (settings : Settings) : Call → Flow Outcome
  | acquire persistenceAvailable connection invocationId leaseId => do
    let capacityLease ←
      acquireRuntimeCapacity settings persistenceAvailable connection invocationId leaseId
    return .acquired capacityLease
  | renew persistenceAvailable capacityLease leaseDurationMs => do
    let lease ← renewRuntimeCapacity settings persistenceAvailable capacityLease leaseDurationMs
    return .renewed lease
  | release persistenceAvailable capacityLease => do
    let count ← releaseRuntimeCapacity persistenceAvailable capacityLease
    return .released count

def leaseId? : Call → Option Text
  | acquire _ _ _ leaseId => some leaseId
  | _ => none

def given : Call → Option Lease
  | renew _ (some (.leased lease)) _ => some lease
  | release _ (some (.leased lease)) => some lease
  | _ => none

def IsFor (call : Call) (lease : Lease) : Prop :=
  call = .acquire true ⟨lease.connectionId, lease.workspaceId⟩ lease.invocationId lease.leaseId

theorem IsFor.leaseId? {call : Call} {lease : Lease} (h : call.IsFor lease) :
    call.leaseId? = some lease.leaseId := by
  rw [h]
  rfl

end Call

/-- No two operations acquire leases of one id. -/
def DistinctLeases (calls : ℕ → Call) : Prop :=
  ∀ i j leaseId, (calls i).leaseId? = some leaseId → (calls j).leaseId? = some leaseId → i = j

abbrev CapacityWorld := World Store Op Reply (Except Failure Outcome)

def capacityWorld (settings : Settings) (clock : ℕ) (calls : ℕ → Call)
    (turns : List (ℕ × Answer)) : CapacityWorld :=
  after (World.turn perform) (.initial ⟨clock, []⟩ fun i => (calls i).program settings) turns

/-- A lease that an operation is given was returned by an acquisition. -/
def Issued (calls : ℕ → Call) (w : CapacityWorld) (turn : ℕ × Answer) : Prop :=
  ∀ lease, (calls turn.1).given = some lease →
    ∃ k leaseExpiresAt, w.Ended k
      (.ok (.acquired (.leased { lease with leaseExpiresAt := leaseExpiresAt })))

structure Progress where
  call : Call
  now : Option ℕ := none
  claimed : List ScopeType := []
  freed : Bool := false
  broken : Bool := false
  matched : ℕ := 0

def ScopeType.before : ScopeType → List ScopeType
  | .workspace => []
  | .connection => [.workspace]

namespace Progress

def next (s : Progress) : (op : Op) → Reply op → Progress
  | .clock, now => { s with now := some now }
  | .findOneAndUpdate slot _, .ok _ => { s with claimed := slot.scope.scopeType :: s.claimed }
  | .findOneAndUpdate _ _, .error .duplicateKey => s
  | .findOneAndUpdate _ _, .error _ => { s with broken := true }
  | .deleteMany _ _, .ok _ => { s with freed := true }
  | .deleteMany _ _, .error _ => { s with broken := true }
  | .updateMany _ _ _, .ok matchedCount => { s with matched := matchedCount }
  | .updateMany _ _ _, .error _ => { s with broken := true }

/-- Nothing was freed, and the database has not failed. -/
def Sound (s : Progress) : Prop := s.freed = false ∧ s.broken = false

structure Ready (settings : Settings) (s : Progress) (lease : Lease) (now : ℕ)
    (scopeType : ScopeType) : Prop where
  sound : s.Sound
  read : s.now = some now
  isFor : s.call.IsFor lease
  expires : lease.leaseExpiresAt = now + settings.executionLeaseMs
  claimed : s.claimed = scopeType.before

structure Claims (settings : Settings) (s : Progress) (lease : Lease) (slot : Slot) (now : ℕ)
    (scopeType : ScopeType) (slotNumber : ℕ) : Prop where
  ready : s.Ready settings lease now scopeType
  slot_eq : slot = lease.slot (lease.scope scopeType) slotNumber now
  first : 1 ≤ slotNumber
  last : slotNumber ≤ settings.limit scopeType

def allowed (settings : Settings) (s : Progress) : Op → Prop
  | .clock => s.now = none ∧ s.claimed = []
  | .findOneAndUpdate slot now => ∃ lease scopeType slotNumber,
      s.Claims settings lease slot now scopeType slotNumber
  | .deleteMany workspaceId leaseId => ∃ lease, lease.workspaceId = workspaceId ∧
      lease.leaseId = leaseId ∧
      (s.call.IsFor lease ∧ s.claimed = [.workspace] ∨ s.call = .release true (some (.leased lease)))
  | .updateMany lease now leaseExpiresAt => s.now = some now ∧ s.matched = 0 ∧ ∃ leaseDurationMs,
      s.call = .renew true (some (.leased lease)) leaseDurationMs ∧
        leaseExpiresAt = now + leaseDuration settings leaseDurationMs

/-- What is known of an operation that has ended. -/
def Ends (settings : Settings) (s : Progress) : Except Failure Outcome → Prop
  | .ok (.acquired (.leased lease)) => s.call.IsFor lease ∧
      s.claimed = [.connection, .workspace] ∧
      ∃ now, s.now = some now ∧ lease.leaseExpiresAt = now + settings.executionLeaseMs
  | .ok (.renewed (some lease)) => 2 ≤ s.matched ∧ ∃ given leaseDurationMs now,
      s.call = .renew true (some (.leased given)) leaseDurationMs ∧ s.now = some now ∧
        lease = { given with leaseExpiresAt := now + leaseDuration settings leaseDurationMs }
  | .error _ => ¬s.Sound ∨ s.claimed = []
  | _ => True

end Progress

def conduct (settings : Settings) : Monitor Op Reply Progress where
  next := Progress.next
  allowed := Progress.allowed settings
  replies _ _ _ := True

@[simp] theorem Lease.scope_scopeType (lease : Lease) (scopeType : ScopeType) :
    (lease.scope scopeType).scopeType = scopeType := by
  cases scopeType <;> rfl

@[simp] theorem Lease.scope_workspaceId (lease : Lease) (scopeType : ScopeType) :
    (lease.scope scopeType).workspaceId = lease.workspaceId := by
  cases scopeType <;> rfl

section Follows

variable {settings : Settings} {s : Progress} {lease : Lease} {now : ℕ}

def claimEnds (s : Progress) (scopeType : ScopeType) (t : Progress) :
    Except Failure (Option Slot) → Prop
  | .ok none => t = s
  | .ok (some _) => t = { s with claimed := scopeType :: s.claimed }
  | .error _ => t.broken = true

theorem follows_claimSlotsFrom {scopeType : ScopeType} (hs : s.Ready settings lease now scopeType)
    {slotNumber remaining : ℕ} (hfirst : 1 ≤ slotNumber)
    (hlast : slotNumber + remaining ≤ settings.limit scopeType + 1) :
    (claimSlotsFrom (lease.scope scopeType) lease now slotNumber remaining).Follows
      (conduct settings) (claimEnds s scopeType) s := by
  induction remaining generalizing slotNumber with
  | zero => exact Async.follows_pure.mpr rfl
  | succ remaining ih =>
    rw [claimSlotsFrom]
    apply Async.follows_asking
    · exact ⟨lease, scopeType, slotNumber, hs, rfl, hfirst, by omega⟩
    · intro reply _
      rcases reply with e | slot
      · cases e with
        | duplicateKey => exact ih (by omega) (by omega)
        | _ => exact rfl
      · have hscope : (lease.scope scopeType).scopeType = scopeType := lease.scope_scopeType scopeType
        change claimEnds s scopeType
          { s with claimed := (lease.scope scopeType).scopeType :: s.claimed } (.ok (some slot))
        rw [hscope]
        rfl

theorem follows_claimScopeSlot {scopeType : ScopeType} (hs : s.Ready settings lease now scopeType)
    {limit : ℕ} (hlimit : limit = settings.limit scopeType) :
    (claimScopeSlot (lease.scope scopeType) limit lease now).Follows (conduct settings)
      (claimEnds s scopeType) s :=
  follows_claimSlotsFrom hs le_rfl (by omega)

def acquireEnds (settings : Settings) (t : Progress) : Except Failure CapacityLease → Prop
  | .ok capacityLease => t.Ends settings (.ok (.acquired capacityLease))
  | .error e => t.Ends settings (.error e)

theorem follows_acquireLease (hs : s.Ready settings lease now .workspace) :
    (acquireLease settings lease now).Follows (conduct settings) (acquireEnds settings) s := by
  have hbroken {t : Progress} (e : Failure) (ht : t.broken = true) :
      acquireEnds settings t (.error e) := by
    left
    intro hsound
    rw [hsound.2] at ht
    cases ht
  unfold acquireLease
  rw [Async.follows_bind]
  refine (follows_claimScopeSlot hs rfl).mono fun t r hr => ?_
  rcases r with e | _ | workspaceSlot
  · exact hbroken e hr
  · obtain rfl : t = s := hr
    exact .inr hs.claimed
  obtain rfl : t = { s with claimed := .workspace :: s.claimed } := hr
  have hclaimed : (ScopeType.workspace :: s.claimed) = [.workspace] := by
    rw [hs.claimed]
    rfl
  rw [Async.goesOn_ok]
  simp only [hclaimed]
  have ht : Progress.Ready settings { s with claimed := [.workspace] } lease now .connection :=
    ⟨hs.sound, hs.read, hs.isFor, hs.expires, rfl⟩
  rw [Async.follows_bind]
  refine (follows_claimScopeSlot ht rfl).mono fun u r hr => ?_
  rcases r with e | _ | connectionSlot
  · exact hbroken e hr
  · obtain rfl : u = { s with claimed := [.workspace] } := hr
    rw [Async.goesOn_ok]
    apply Async.follows_asking
    · exact ⟨lease, rfl, rfl, .inl ⟨hs.isFor, rfl⟩⟩
    intro reply _
    rcases reply with e | count
    · exact hbroken e rfl
    · left
      intro hsound
      cases hsound.1
  · obtain rfl : u = { s with claimed := [.connection, .workspace] } := hr
    exact ⟨hs.isFor, rfl, now, hs.read, hs.expires⟩

theorem follows_program (settings : Settings) (call : Call) :
    (call.program settings).Follows (conduct settings) (fun t r => t.Ends settings r)
      { call := call } := by
  cases call with
  | acquire persistenceAvailable connection invocationId leaseId =>
    unfold Call.program acquireRuntimeCapacity
    rw [Async.follows_bind]
    cases persistenceAvailable with
    | false => exact trivial
    | true =>
      rw [if_pos rfl]
      apply Async.follows_asking
      · exact ⟨rfl, rfl⟩
      intro now _
      have hready : Progress.Ready settings
          { call := .acquire true connection invocationId leaseId, now := some now }
          (leaseAt settings connection invocationId leaseId now) now .workspace :=
        ⟨⟨rfl, rfl⟩, rfl, rfl, rfl, rfl⟩
      refine (follows_acquireLease hready).mono fun t r hr => ?_
      cases r with
      | ok capacityLease => exact hr
      | error e => exact hr
  | renew persistenceAvailable capacityLease leaseDurationMs =>
    unfold Call.program renewRuntimeCapacity
    rw [Async.follows_bind]
    split
    next lease =>
      apply Async.follows_asking
      · exact ⟨rfl, rfl⟩
      intro now _
      apply Async.follows_asking
      · exact ⟨rfl, rfl, leaseDurationMs, rfl, rfl⟩
      intro reply _
      rcases reply with e | matchedCount
      · left
        intro hsound
        cases hsound.2
      · rw [Async.follows_bind]
        show Async.Follows _ _ (if matchedCount < 2 then _ else _) _
        split
        · exact trivial
        next hmatched =>
          exact ⟨Nat.le_of_not_lt hmatched, lease, leaseDurationMs, now, rfl, rfl, rfl⟩
    · exact trivial
  | release persistenceAvailable capacityLease =>
    unfold Call.program releaseRuntimeCapacity
    rw [Async.follows_bind]
    split
    next lease =>
      apply Async.follows_asking
      · exact ⟨lease, rfl, rfl, .inr rfl⟩
      intro reply _
      rcases reply with e | count
      · left
        intro hsound
        cases hsound.2
      · exact trivial
    · exact trivial

end Follows

end GhostBridge.RuntimeCapacity
