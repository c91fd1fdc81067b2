import GhostBridge.Machine.Records
import GhostBridge.ProductionScale.Partitions

/-!
# Runs over the queue partitions

Any number of claims, fences and rebalances that run at the same time.
-/

namespace GhostBridge.ProductionScale

open Ecma Machine

structure Partition.Later (stored next : Partition) : Prop where
  ownershipEpoch : stored.ownershipEpoch ≤ next.ownershipEpoch
  owner : stored.ownershipEpoch = next.ownershipEpoch →
    stored.ownerWorkerId = next.ownerWorkerId ∧ stored.ownerInstanceId = next.ownerInstanceId
  status : stored.ownershipEpoch = next.ownershipEpoch → stored.status = next.status

theorem Partition.Later.refl (stored : Partition) : stored.Later stored :=
  ⟨le_rfl, fun _ => ⟨rfl, rfl⟩, fun _ => rfl⟩

theorem Partition.Later.trans {a b c : Partition} (hab : a.Later b) (hbc : b.Later c) :
    a.Later c := by
  have hepochs (h : a.ownershipEpoch = c.ownershipEpoch) :
      a.ownershipEpoch = b.ownershipEpoch ∧ b.ownershipEpoch = c.ownershipEpoch := by
    have hfirst := hab.ownershipEpoch
    have hsecond := hbc.ownershipEpoch
    omega
  constructor
  · exact hab.ownershipEpoch.trans hbc.ownershipEpoch
  · intro h
    obtain ⟨hfirst, hsecond⟩ := hepochs h
    rw [(hab.owner hfirst).1, (hab.owner hfirst).2]
    exact hbc.owner hsecond
  · intro h
    obtain ⟨hfirst, hsecond⟩ := hepochs h
    rw [hab.status hfirst]
    exact hbc.status hsecond

theorem PartitionChange.later (change : PartitionChange) (stored : Partition) :
    stored.Later (change.update stored) := by
  cases change with
  | renew => exact ⟨le_rfl, fun _ => ⟨rfl, rfl⟩, fun _ => rfl⟩
  | extend => exact ⟨le_rfl, fun _ => ⟨rfl, rfl⟩, fun _ => rfl⟩
  | claim =>
    constructor
    · simp only [update]
      omega
    · intro h
      simp only [update] at h
      omega
    · intro h
      simp only [update] at h
      omega

theorem applyChange_some {store : PartitionStore} {key : Text} {change : PartitionChange}
    {next : Partition} (h : (store.applyChange key change).1 = some next) :
    ∃ stored, store.partitions key = some stored ∧ change.filter stored = true ∧
      next = change.update stored ∧
      (store.applyChange key change).2.partitions key = some (change.update stored) := by
  unfold PartitionStore.applyChange at *
  cases hfound : (store.partitions key).filter change.filter with
  | none =>
    rw [hfound] at h
    cases h
  | some stored =>
    rw [hfound] at h
    obtain ⟨hget, hfilter⟩ := Option.filter_eq_some_iff.mp hfound
    exact ⟨stored, hget, hfilter, (Option.some.inj h).symm, Function.update_self _ _ _⟩

theorem onward_applyChange (store : PartitionStore) (key : Text) (change : PartitionChange) :
    Onward Partition.Later store.partitions (store.applyChange key change).2.partitions := by
  unfold PartitionStore.applyChange
  cases hfound : (store.partitions key).filter change.filter with
  | none => exact Onward.refl Partition.Later.refl _
  | some stored =>
    apply onward_update Partition.Later.refl
    intro other hother
    have hget := (Option.filter_eq_some_iff.mp hfound).1
    rw [hget] at hother
    cases hother
    exact change.later stored

theorem onward_partitionAvailable {α : Type} {answer : PartitionAnswer} {store : PartitionStore}
    {result : α × PartitionStore}
    (h : Onward Partition.Later store.partitions result.2.partitions) :
    Onward Partition.Later store.partitions (answer.available store result).2.partitions := by
  unfold PartitionAnswer.available
  split
  · exact Onward.refl Partition.Later.refl _
  · exact h

theorem onward_performPartitionAt (store : PartitionStore) (op : PartitionOp)
    (answer : PartitionAnswer) :
    Onward Partition.Later store.partitions (performPartitionAt store op answer).2.partitions := by
  have hsame := Onward.refl Partition.Later.refl store.partitions
  cases op with
  | clock => exact hsame
  | change key change => exact onward_partitionAvailable (onward_applyChange store key change)
  | _ => exact onward_partitionAvailable hsame

theorem kept_partitions :
    KeptOnward performPartition (fun store : PartitionStore => store.partitions) Partition.Later where
  refl := Partition.Later.refl
  trans _ _ _ := Partition.Later.trans
  perform store op answer := onward_performPartitionAt { store with
    clock := store.clock + answer.elapsed
    workers := answer.registrations store.workers } op answer

inductive PartitionEntry where
  | claimPartition (input : ClaimInput) (options : PartitionOptions)
  | assertPartitionFence (claim : FenceClaim) (options : FenceOptions)
  | rebalancePartitions (input : RebalanceInput) (options : PartitionOptions)

inductive PartitionOutcome where
  | claimed (partition : Option Partition)
  | fenced
  | rebalanced (result : RebalanceResult)

namespace PartitionEntry

def program : PartitionEntry → PartitionFlow PartitionOutcome
  | claimPartition input options => do
    let partition ← ProductionScale.claimPartition input options
    return .claimed partition
  | assertPartitionFence claim options => do
    ProductionScale.assertPartitionFence claim options
    return .fenced
  | rebalancePartitions input options => do
    let result ← ProductionScale.rebalancePartitions input options
    return .rebalanced result

def now : PartitionEntry → Option Int
  | claimPartition _ options => options.now
  | assertPartitionFence _ options => options.now
  | rebalancePartitions _ options => options.now

end PartitionEntry

abbrev PartitionWorld :=
  World PartitionStore PartitionOp PartitionReply (Except PartitionFailure PartitionOutcome)

def partitionWorld (store : PartitionStore) (entries : ℕ → PartitionEntry)
    (calls : List (ℕ × PartitionAnswer)) : PartitionWorld :=
  after (World.turn performPartition) (.initial store fun i => (entries i).program) calls

def partitionAfter (store : PartitionStore) (entries : ℕ → PartitionEntry)
    (calls : List (ℕ × PartitionAnswer)) (key : Text) : Option Partition :=
  (partitionWorld store entries calls).store.partitions key

structure PartitionProgress where
  entry : PartitionEntry
  time : Option Int
  read : Option (Text × Partition) := none
  /-- The partition that a claim has updated, and its key. -/
  changed : Option (Text × Partition) := none
  fenced : Option Bool := none
  registrations : List Worker := []

namespace PartitionProgress

def start (entries : ℕ → PartitionEntry) (i : ℕ) : PartitionProgress :=
  { entry := entries i, time := (entries i).now }

def next (s : PartitionProgress) : (op : PartitionOp) → PartitionReply op → PartitionProgress
  | .clock, now => { s with time := some now }
  | .findPartition key, .ok (some partition) => { s with read := some (key, partition) }
  | .findFenced _ _, .ok found => { s with fenced := some found.isSome }
  | .change _ (.extend _ _ _), .ok found => { s with fenced := some found.isSome }
  | .change key _, .ok (some partition) => { s with changed := some (key, partition) }
  | .findWorkers _, .ok registrations => { s with registrations := registrations }
  | _, _ => s

structure Keeps (t : PartitionProgress) (op : PartitionOp) (u : PartitionProgress) : Prop where
  entry : u.entry = t.entry
  time : op ≠ .clock → u.time = t.time
  read : (∀ key, op ≠ .findPartition key) → u.read = t.read
  changed : (∀ key change, op ≠ .change key change) → u.changed = t.changed
  fenced : (∀ claim now, op ≠ .findFenced claim now) →
    (∀ key claim now extendLeaseMs, op ≠ .change key (.extend claim now extendLeaseMs)) →
    u.fenced = t.fenced

theorem keeps_next (t : PartitionProgress) (op : PartitionOp) (reply : PartitionReply op) :
    t.Keeps op (t.next op reply) := by
  have hsame : t.Keeps op t := ⟨rfl, fun _ => rfl, fun _ => rfl, fun _ => rfl, fun _ _ => rfl⟩
  cases op with
  | clock => exact ⟨rfl, fun h => absurd rfl h, fun _ => rfl, fun _ => rfl, fun _ _ => rfl⟩
  | findPartition key =>
    rcases reply with e | (_ | partition)
    · exact hsame
    · exact hsame
    · exact ⟨rfl, fun _ => rfl, fun h => absurd rfl (h key), fun _ => rfl, fun _ _ => rfl⟩
  | findFenced claim now =>
    cases reply with
    | error e => exact hsame
    | ok found =>
      exact ⟨rfl, fun _ => rfl, fun _ => rfl, fun _ => rfl, fun h _ => absurd rfl (h claim now)⟩
  | findWorkers healthyAfter =>
    cases reply with
    | error e => exact hsame
    | ok found => exact ⟨rfl, fun _ => rfl, fun _ => rfl, fun _ => rfl, fun _ _ => rfl⟩
  | change key change =>
    cases change with
    | extend claim now extendLeaseMs =>
      cases reply with
      | error e => exact hsame
      | ok found =>
        exact ⟨rfl, fun _ => rfl, fun _ => rfl, fun _ => rfl, fun _ h => absurd rfl (h _ _ _ _)⟩
    | _ =>
      rcases reply with e | (_ | partition)
      · exact hsame
      · exact hsame
      · exact ⟨rfl, fun _ => rfl, fun _ => rfl, fun h => absurd rfl (h key _), fun _ _ => rfl⟩
  | _ => exact hsame

/-- The operation is the claim that an update belongs to. -/
def Claiming (s : PartitionProgress) (key workerId : Text) (now leaseMs : Int) : Prop :=
  s.time = some now ∧ 5000 ≤ leaseMs ∧
    ∃ input options, s.entry = .claimPartition input options ∧ key = input.key ∧
      workerId = input.workerId

/-- The operation is the fence that a filter belongs to. -/
def Fencing (s : PartitionProgress) (claim : FenceClaim) (now : Int) : Prop :=
  s.time = some now ∧ ∃ options, s.entry = .assertPartitionFence claim options

def allowed (s : PartitionProgress) : PartitionOp → Prop
  | .findFenced claim now => s.Fencing claim now
  | .change key (.extend claim now _) => key = claim.partitionKey.trimmed ∧ s.Fencing claim now
  | .change key (.claim workerId _ _ _ now leaseMs) => s.Claiming key workerId now leaseMs
  | .change key (.renew workerId _ ownershipEpoch now leaseMs) =>
    s.Claiming key workerId now leaseMs ∧ ∃ partition, s.read = some (key, partition) ∧
      partition.ownershipEpoch = ownershipEpoch ∧ partition.status ≠ .paused ∧
      partition.status ≠ .disabled
  | _ => True

def unavailableOnly {α : Type} (reply : Except PartitionFailure α) : Prop :=
  ∀ e, reply = .error e → e = .unavailable

def replies (s : PartitionProgress) : (op : PartitionOp) → PartitionReply op → Prop
  | .markUnhealthy _, reply => unavailableOnly reply
  | .findWorkers _, reply => unavailableOnly reply
  | .findFenced _ _, reply => unavailableOnly reply
  | .findPartitions, reply => unavailableOnly reply ∧ ∀ now partitions, s.time = some now →
      reply = .ok partitions → ∀ partition ∈ partitions, moves now s.registrations partition = false
  | .change _ (.extend _ _ _), reply => unavailableOnly reply
  | .change _ change, reply => ∀ partition, reply = .ok (some partition) →
      (partition.status = .active ∨ partition.status = .draining) ∧
        ∃ stored, change.filter stored = true ∧ partition = change.update stored
  | _, _ => True

end PartitionProgress

def partitionConduct : Monitor PartitionOp PartitionReply PartitionProgress where
  next := PartitionProgress.next
  allowed := PartitionProgress.allowed
  replies := PartitionProgress.replies

/-- A partition that a worker has just claimed or renewed. -/
structure Held (workerId : Text) (now : Int) (partition : Partition) : Prop where
  owner : partition.ownerWorkerId = some workerId.trimmed
  status : partition.status = .active ∨ partition.status = .draining
  lease : ∃ lease, partition.leaseExpiresAt = some lease ∧ now + 5000 ≤ lease

theorem PartitionChange.held {workerId instanceId : Text} {ownershipEpoch : ℕ}
    {now leaseMs : Int} {stored : Partition} (hlease : 5000 ≤ leaseMs)
    (hfilter : (renew workerId instanceId ownershipEpoch now leaseMs).filter stored = true)
    (hstatus : stored.status = .active ∨ stored.status = .draining) :
    Held workerId now
      ((renew workerId instanceId ownershipEpoch now leaseMs).update stored) where
  owner := by
    simp only [filter, decide_eq_true_eq] at hfilter
    exact hfilter.2.1
  status := hstatus
  lease := ⟨now + leaseMs, rfl, by omega⟩

section Follows

variable {α : Type} {s : PartitionProgress}

theorem follows_partitionTime {options : PartitionOptions} {f : Int → PartitionFlow α}
    {post : PartitionProgress → Except PartitionFailure α → Prop}
    (hs : s.time = options.now)
    (hrest : ∀ now, (f now).Follows partitionConduct post { s with time := some now }) :
    (partitionTime options >>= f).Follows partitionConduct post s := by
  unfold partitionTime
  cases hnow : options.now with
  | some now =>
    have hsame : { s with time := some now } = s := by
      rw [← hnow, ← hs]
    rw [Async.follows_bind, Async.follows_pure, Async.goesOn_ok, ← hsame]
    exact hrest now
  | none =>
    apply Async.follows_asking trivial
    intro now _
    exact hrest now

theorem duration_le {value : Option Numeral} {path : String} {minimum maximum fallback : ℕ}
    {milliseconds : Int}
    (h : duration value path minimum maximum fallback = .ok milliseconds) :
    (minimum : Int) ≤ milliseconds := by
  unfold duration at h
  cases hbounded : boundedInteger value path minimum maximum (some fallback) with
  | error e =>
    rw [hbounded] at h
    cases h
  | ok bounded =>
    rw [hbounded] at h
    have hvalue : (bounded.val : Int) = milliseconds := Except.ok.inj h
    have hminimum := bounded.property.1
    omega

/-- What a claim that returns a partition has made of it. -/
def claimEnds (input : ClaimInput) (t : PartitionProgress) :
    Except PartitionFailure (Option Partition) → Prop
  | .ok (some partition) => t.changed = some (input.key, partition) ∧
      ∃ now, t.time = some now ∧ Held input.workerId now partition
  | _ => True

theorem follows_claimChange {input : ClaimInput} {options : PartitionOptions}
    {partition : Partition} {now leaseMs : Int} (hentry : s.entry = .claimPartition input options)
    (htime : s.time = some now) (hlease : 5000 ≤ leaseMs)
    (hread : s.read = some (input.key, partition)) (hpaused : partition.status ≠ .paused)
    (hdisabled : partition.status ≠ .disabled) :
    (updatePartition input.key (claimChange input partition now leaseMs)).Follows partitionConduct
      (claimEnds input) s := by
  have hclaiming : s.Claiming input.key input.workerId now leaseMs :=
    ⟨htime, hlease, input, options, hentry, rfl, rfl⟩
  unfold claimChange updatePartition
  by_cases hrenews : partition.ownerWorkerId = some input.workerId ∧
      partition.ownerInstanceId = some input.instanceId ∧ now < partition.leaseExpiresAt.getD 0
  · rw [if_pos hrenews]
    apply Async.follows_check (fun _ => trivial)
    intro _ _
    apply Async.follows_asking
    · exact ⟨hclaiming, partition, hread, rfl, hpaused, hdisabled⟩
    intro reply hreply
    rw [Async.follows_monadLift]
    rcases reply with e | (_ | renewed)
    · trivial
    · trivial
    · obtain ⟨hstatus, stored, hfilter, hupdate⟩ := hreply renewed rfl
      refine ⟨rfl, now, htime, ?_⟩
      rw [hupdate] at hstatus ⊢
      exact PartitionChange.held hlease hfilter hstatus
  · rw [if_neg hrenews]
    apply Async.follows_check (fun _ => trivial)
    intro _ _
    apply Async.follows_asking hclaiming
    intro reply hreply
    rw [Async.follows_monadLift]
    rcases reply with e | (_ | claimed)
    · trivial
    · trivial
    · obtain ⟨hstatus, stored, -, hupdate⟩ := hreply claimed rfl
      refine ⟨rfl, now, htime, ?_⟩
      rw [hupdate] at hstatus ⊢
      exact ⟨rfl, hstatus, now + leaseMs, rfl, by omega⟩

theorem follows_claimPartition {input : ClaimInput} {options : PartitionOptions}
    (hentry : s.entry = .claimPartition input options) (htime : s.time = options.now) :
    (claimPartition input options).Follows partitionConduct (claimEnds input) s := by
  have herror (t : PartitionProgress) (e : PartitionFailure) : claimEnds input t (.error e) := trivial
  unfold claimPartition
  apply follows_partitionTime htime
  intro now
  apply Async.follows_check (herror _)
  intro leaseMs hlease
  apply Async.follows_check (herror _)
  intro timeout _
  apply Async.follows_asking trivial
  intro reply _
  apply Async.follows_check (herror _)
  intro found _
  cases found with
  | none => trivial
  | some worker =>
    dsimp only
    unfold findOnePartition
    apply Async.follows_reply trivial
    · intro reply e _
      exact herror _ e
    intro reply found _ hfound
    cases found with
    | none => trivial
    | some partition =>
      obtain rfl : reply = .ok (some partition) := hfound
      dsimp only
      split
      · trivial
      next hstatus =>
        rw [not_or] at hstatus
        exact follows_claimChange hentry rfl (duration_le hlease) rfl hstatus.1 hstatus.2

def fenceEnds (claim : FenceClaim) (t : PartitionProgress) : Except PartitionFailure Unit → Prop
  | .ok () => claim.partitionKey = [] ∨ t.fenced = some true
  | .error e => e = .unavailable ∨ t.fenced = some false ∧
        e = .scale (.app 409 "PARTITION_OWNERSHIP_LOST" "Partition ownership was lost.") ∨
      e = .invalid "ownershipEpoch" ∧ claim.partitionOwnershipEpoch = none

theorem follows_askFence {claim : FenceClaim} {options : FenceOptions} {now : Int}
    (hfencing : s.Fencing claim now) :
    (askFence claim options now).Follows partitionConduct (fun t r =>
      match r with
      | .ok found => t.fenced = some found.isSome
      | .error e => e = .unavailable ∨
          e = .invalid "ownershipEpoch" ∧ claim.partitionOwnershipEpoch = none) s := by
  unfold askFence
  by_cases hepoch : claim.partitionOwnershipEpoch = none
  · rw [hepoch]
    exact .inr ⟨rfl, rfl⟩
  rw [Async.follows_bind, Async.follows_monadLift]
  have hpasses : throwWhen claim.partitionOwnershipEpoch.isNone
      (PartitionFailure.invalid "ownershipEpoch") = .ok () := by
    rw [throwWhen_ok]
    exact Option.isNone_eq_false_iff.mpr (Option.isSome_iff_ne_none.mpr hepoch)
  rw [hpasses, Async.goesOn_ok]
  cases options.extendLeaseMs with
  | some extendLeaseMs =>
    unfold updatePartition
    have hvalid : (PartitionChange.extend claim now extendLeaseMs).validate = .ok () := rfl
    rw [Async.follows_bind, Async.follows_monadLift, hvalid, Async.goesOn_ok]
    apply Async.follows_asking (show _ ∧ _ from ⟨rfl, hfencing⟩)
    intro reply hreply
    rw [Async.follows_monadLift]
    cases reply with
    | error e => exact .inl (hreply e rfl)
    | ok found => rfl
  | none =>
    apply Async.follows_asking hfencing
    intro reply hreply
    rw [Async.follows_monadLift]
    cases reply with
    | error e => exact .inl (hreply e rfl)
    | ok found => rfl

theorem follows_assertPartitionFence {claim : FenceClaim} {options : FenceOptions}
    (hentry : s.entry = .assertPartitionFence claim options) (htime : s.time = options.now) :
    (assertPartitionFence claim options).Follows partitionConduct (fenceEnds claim) s := by
  unfold assertPartitionFence
  split
  next hkey => exact .inl hkey
  apply follows_partitionTime htime
  intro now
  rw [Async.follows_bind]
  have hfencing : PartitionProgress.Fencing { s with time := some now } claim now :=
    ⟨rfl, options, hentry⟩
  refine (follows_askFence hfencing).mono fun t r hr => ?_
  cases r with
  | error e =>
    rcases hr with hunavailable | hinvalid
    · exact .inl hunavailable
    · exact .inr (.inr hinvalid)
  | ok found =>
    cases found with
    | some partition => exact .inr hr
    | none => exact .inr (.inl ⟨hr, rfl⟩)

def rebalanceEnds (input : RebalanceInput) : Except PartitionFailure RebalanceResult → Prop
  | .ok _ => True
  | .error e => e = .unavailable ∨
      duration input.workerHeartbeatTimeoutMs "workerHeartbeatTimeoutMs" 5000 3600000 120000 =
        .error e

theorem placePartitions_eq {now : Int} {registrations : List Worker} {partitions : List Partition}
    (h : ∀ partition ∈ partitions, moves now registrations partition = false) :
    placePartitions now registrations partitions = pure () := by
  induction partitions with
  | nil => rfl
  | cons partition partitions ih =>
    unfold placePartitions
    rw [h partition List.mem_cons_self]
    exact ih fun other hother => h other (List.mem_cons_of_mem _ hother)

theorem follows_rebalancePartitions {input : RebalanceInput} {options : PartitionOptions}
    (htime : s.time = options.now) :
    (rebalancePartitions input options).Follows partitionConduct
      (fun _ r => rebalanceEnds input r) s := by
  unfold rebalancePartitions
  apply follows_partitionTime htime
  intro now
  rw [Async.follows_bind, Async.follows_monadLift]
  cases htimeout : duration input.workerHeartbeatTimeoutMs "workerHeartbeatTimeoutMs" 5000 3600000
    120000 with
  | error e => exact .inr htimeout
  | ok timeout =>
    rw [Async.goesOn_ok]
    apply Async.follows_asking trivial
    intro marked hmarked
    rw [Async.follows_bind, Async.follows_monadLift]
    cases marked with
    | error e => exact .inl (hmarked e rfl)
    | ok =>
      rw [Async.goesOn_ok]
      apply Async.follows_asking trivial
      intro found hfound
      rw [Async.follows_bind, Async.follows_monadLift]
      cases found with
      | error e => exact .inl (hfound e rfl)
      | ok registrations =>
        rw [Async.goesOn_ok]
        apply Async.follows_asking trivial
        intro read hread
        rw [Async.follows_bind, Async.follows_monadLift]
        cases read with
        | error e => exact .inl (hread.1 e rfl)
        | ok partitions =>
          have hmoves : ∀ partition ∈ partitions, moves now registrations partition = false :=
            hread.2 now partitions rfl rfl
          rw [Async.goesOn_ok, placePartitions_eq hmoves]
          trivial

def PartitionProgress.Ends (t : PartitionProgress) :
    PartitionEntry → Except PartitionFailure PartitionOutcome → Prop
  | .claimPartition input _, .ok (.claimed partition) => claimEnds input t (.ok partition)
  | .assertPartitionFence claim _, .ok _ => fenceEnds claim t (.ok ())
  | .assertPartitionFence claim _, .error e => fenceEnds claim t (.error e)
  | .rebalancePartitions input _, .error e => rebalanceEnds input (.error e)
  | _, _ => True

theorem partitionProgram_follows (entries : ℕ → PartitionEntry) (i : ℕ) :
    (entries i).program.Follows partitionConduct (fun t r => t.Ends (entries i) r)
      (PartitionProgress.start entries i) := by
  have hentry : (PartitionProgress.start entries i).entry = entries i := rfl
  have htime : (PartitionProgress.start entries i).time = (entries i).now := rfl
  cases h : entries i with
  | claimPartition input options =>
    rw [h] at hentry htime
    unfold PartitionEntry.program
    rw [Async.follows_bind]
    refine (follows_claimPartition hentry htime).mono fun t r hr => ?_
    cases r with
    | error e => trivial
    | ok partition => exact hr
  | assertPartitionFence claim options =>
    rw [h] at hentry htime
    unfold PartitionEntry.program
    rw [Async.follows_bind]
    refine (follows_assertPartitionFence hentry htime).mono fun t r hr => ?_
    cases r with
    | error e => exact hr
    | ok => exact hr
  | rebalancePartitions input options =>
    rw [h] at htime
    unfold PartitionEntry.program
    rw [Async.follows_bind]
    refine (follows_rebalancePartitions htime).mono fun t r hr => ?_
    cases r with
    | error e => exact hr
    | ok result => trivial

end Follows

variable {store : PartitionStore} {entries : ℕ → PartitionEntry}
  {calls : List (ℕ × PartitionAnswer)} {key : Text}

/-- No lease of a partition that recovers is renewed, and a rebalance finds no partition to move. -/
structure SteadyTurn (entries : ℕ → PartitionEntry) (w : PartitionWorld)
    (call : ℕ × PartitionAnswer) : Prop where
  renewals : ∀ key workerId instanceId ownershipEpoch now leaseMs stored,
    w.Next call.1 (.change key (.renew workerId instanceId ownershipEpoch now leaseMs)) →
    w.store.partitions key = some stored → stored.status ≠ .recovering
  rebalances : ∀ now progress, w.Next call.1 .findPartitions →
    progress = w.states partitionConduct (PartitionProgress.start entries) call.1 →
    progress.time = some now →
    ∀ partition ∈ w.store.findPartitions, moves now progress.registrations partition = false

def Steady (store : PartitionStore) (entries : ℕ → PartitionEntry)
    (calls : List (ℕ × PartitionAnswer)) : Prop :=
  Guarded (World.turn performPartition) (SteadyTurn entries)
    (.initial store fun i => (entries i).program) calls

theorem partitionAfter_concat (call : ℕ × PartitionAnswer) :
    partitionAfter store entries (calls ++ [call]) key =
      ((partitionWorld store entries calls).turn performPartition call).store.partitions key :=
  congrArg (fun w : PartitionWorld => w.store.partitions key) (after_concat call)

def progressAfter (store : PartitionStore) (entries : ℕ → PartitionEntry)
    (calls : List (ℕ × PartitionAnswer)) (i : ℕ) : PartitionProgress :=
  (partitionWorld store entries calls).states partitionConduct (PartitionProgress.start entries) i

theorem available_cases {α : Type} (answer : PartitionAnswer) (store : PartitionStore)
    (result : α × PartitionStore) :
    answer.available store result = (.error .unavailable, store) ∨
      answer.available store result = (.ok result.1, result.2) := by
  unfold PartitionAnswer.available
  split
  · exact .inl rfl
  · exact .inr rfl

theorem unavailableOnly_available {α : Type} (answer : PartitionAnswer) (store : PartitionStore)
    (result : α × PartitionStore) :
    PartitionProgress.unavailableOnly (answer.available store result).1 := by
  intro e he
  rcases available_cases answer store result with h | h
  · rw [h] at he
    exact (Except.error.inj he).symm
  · rw [h] at he
    cases he

theorem performPartition_change {key : Text} {change : PartitionChange}
    {answer : PartitionAnswer} {next : Partition}
    (h : (performPartition store (.change key change) answer).1 = .ok (some next)) :
    ∃ stored, store.partitions key = some stored ∧ change.filter stored = true ∧
      next = change.update stored ∧
      (performPartition store (.change key change) answer).2.partitions key =
        some (change.update stored) := by
  unfold performPartition performPartitionAt at *
  dsimp only at *
  rcases available_cases answer _ _ with hanswer | hanswer
  · rw [hanswer] at h
    cases h
  · rw [hanswer] at h ⊢
    exact applyChange_some (Except.ok.inj h)

theorem read_next (s : PartitionProgress) (op : PartitionOp) (store : PartitionStore)
    (answer : PartitionAnswer) :
    (s.next op (performPartition store op answer).1).read = s.read ∨
      ∃ key partition,
        (s.next op (performPartition store op answer).1).read = some (key, partition) ∧
        (performPartition store op answer).2.partitions key = some partition := by
  by_cases hop : ∃ key, op = .findPartition key
  · obtain ⟨key, rfl⟩ := hop
    unfold performPartition performPartitionAt
    dsimp only
    rcases available_cases answer _ _ with hanswer | hanswer
    · rw [hanswer]
      exact .inl rfl
    · rw [hanswer]
      dsimp only
      cases hfound : store.partitions key with
      | none => exact .inl rfl
      | some partition => exact .inr ⟨key, partition, rfl, hfound⟩
  · rw [not_exists] at hop
    exact .inl ((s.keeps_next op _).read hop)

theorem later_read {i : ℕ} {partition : Partition}
    (h : (progressAfter store entries calls i).read = some (key, partition)) :
    ∃ current, partitionAfter store entries calls key = some current ∧ partition.Later current :=
  kept_partitions.known (fun _ => rfl) read_next calls h

theorem partition_replies {w : PartitionWorld} {i : ℕ} {answer : PartitionAnswer}
    {op : PartitionOp} (hw : ∃ calls, w = partitionWorld store entries calls)
    (hsteady : SteadyTurn entries w (i, answer)) (hnext : w.Next i op)
    (hallowed : (w.states partitionConduct (PartitionProgress.start entries) i).allowed op) :
    (w.states partitionConduct (PartitionProgress.start entries) i).replies op
      (performPartition w.store op answer).1 := by
  obtain ⟨calls, rfl⟩ := hw
  cases op with
  | markUnhealthy healthyAfter => exact unavailableOnly_available _ _ _
  | findWorkers healthyAfter => exact unavailableOnly_available _ _ _
  | findFenced claim now => exact unavailableOnly_available _ _ _
  | findPartitions =>
    refine ⟨unavailableOnly_available _ _ _, fun now partitions htime hreply => ?_⟩
    have hmoves := hsteady.rebalances now _ hnext rfl htime
    unfold performPartition performPartitionAt at hreply
    dsimp only at hreply
    rcases available_cases answer _ _ with hanswer | hanswer
    · rw [hanswer] at hreply
      cases hreply
    · rw [hanswer] at hreply
      obtain rfl := Except.ok.inj hreply
      exact hmoves
  | change key change =>
    cases change with
    | extend claim now extendLeaseMs => exact unavailableOnly_available _ _ _
    | claim workerId instanceId ownershipEpoch status now leaseMs =>
      intro next hreply
      obtain ⟨stored, -, hfilter, hupdate, -⟩ := performPartition_change hreply
      refine ⟨?_, stored, hfilter, hupdate⟩
      rw [hupdate]
      simp only [PartitionChange.update]
      split
      · exact .inr rfl
      · exact .inl rfl
    | renew workerId instanceId ownershipEpoch now leaseMs =>
      intro next hreply
      obtain ⟨stored, hstored, hfilter, hupdate, -⟩ := performPartition_change hreply
      refine ⟨?_, stored, hfilter, hupdate⟩
      obtain ⟨-, partition, hread, hepoch, hpaused, hdisabled⟩ := hallowed
      obtain ⟨current, hcurrent, hlater⟩ := later_read hread
      obtain rfl := Option.some.inj (hcurrent.symm.trans hstored)
      simp only [PartitionChange.filter, decide_eq_true_eq] at hfilter
      -- the status is the one that was read, since the epoch is
      have hstatus := hlater.status (hepoch.trans hfilter.1.symm)
      have hrecovering := hsteady.renewals _ _ _ _ _ _ _ hnext hstored
      rw [hupdate]
      simp only [PartitionChange.update]
      rw [hstatus] at hpaused hdisabled
      cases h : current.status with
      | active => exact .inl rfl
      | draining => exact .inr rfl
      | paused => exact absurd h hpaused
      | recovering => exact absurd h hrecovering
      | disabled => exact absurd h hdisabled
  | _ => trivial

theorem partition_monitored (h : Steady store entries calls) :
    (partitionWorld store entries calls).Monitored partitionConduct (PartitionProgress.start entries)
      fun i t r => t.Ends (entries i) r := by
  have hreached : Invariant performPartition partitionConduct (PartitionProgress.start entries)
      (SteadyTurn entries)
      fun w : PartitionWorld => ∃ calls, w = partitionWorld store entries calls := by
    constructor
    · intro w i answer op next hw hsteady hthread hallowed
      exact partition_replies hw hsteady ⟨next, hthread⟩ hallowed
    · intro w i answer op next hw _ _ _
      obtain ⟨calls, rfl⟩ := hw
      exact ⟨calls ++ [(i, answer)], (after_concat _).symm⟩
  exact (hreached.after ⟨[], rfl⟩ (fun i => partitionProgram_follows entries i) h).2

theorem exists_progress_entry {P : PartitionProgress → Prop} {i : ℕ}
    (hstart : ¬P (PartitionProgress.start entries i)) (h : P (progressAfter store entries calls i)) :
    ∃ before answer rest op next, calls = before ++ (i, answer) :: rest ∧
      (partitionWorld store entries before).thread i = .perform op next ∧
      ¬P (progressAfter store entries before i) ∧
      P ((progressAfter store entries before i).next op
        (performPartition (partitionWorld store entries before).store op answer).1) := by
  have hinitial : ¬P (World.states (.initial store fun i => (entries i).program : PartitionWorld)
      partitionConduct (PartitionProgress.start entries) i) := hstart
  exact World.exists_entry hinitial h

/-- The time is the one that an operation takes for now: its options give it, or the operation has
read the clock. -/
def Times (store : PartitionStore) (entries : ℕ → PartitionEntry)
    (calls : List (ℕ × PartitionAnswer)) (i : ℕ) (now : Int) : Prop :=
  (entries i).now = some now ∨ ∃ before answer rest, calls = before ++ (i, answer) :: rest ∧
    (partitionWorld store entries before).Next i .clock ∧
    now = (partitionWorld store entries before).store.clock + answer.elapsed

theorem times_of_time {i : ℕ} {now : Int}
    (h : (progressAfter store entries calls i).time = some now) :
    Times store entries calls i now := by
  by_cases hgiven : (entries i).now = some now
  · exact .inl hgiven
  right
  obtain ⟨before, answer, rest, op, next, hcalls, hthread, hnot, hnow⟩ :=
    exists_progress_entry (P := fun t => t.time = some now) hgiven h
  refine ⟨before, answer, rest, hcalls, ?_⟩
  by_cases hop : op = .clock
  · subst hop
    exact ⟨⟨next, hthread⟩, (Option.some.inj hnow).symm⟩
  · rw [(PartitionProgress.keeps_next _ op _).time hop] at hnow
    exact absurd hnow hnot

/-- A turn of a fence decides it: whether the claim passes under the partition as it is then. -/
def Decides (store : PartitionStore) (entries : ℕ → PartitionEntry)
    (calls : List (ℕ × PartitionAnswer)) (i : ℕ) (claim : FenceClaim) (passes : Bool) : Prop :=
  ∃ before answer rest now, calls = before ++ (i, answer) :: rest ∧
    Times store entries before i now ∧
    ((partitionAfter store entries before claim.partitionKey.trimmed).any (claim.passes now)) = passes

structure PartitionLaw (store : PartitionStore) (entries : ℕ → PartitionEntry)
    (calls : List (ℕ × PartitionAnswer)) (key : Text) : Prop where
  /-- The epoch never decreases, and it increases with every change of the owner. -/
  epochs : ∀ before later stored, before <+: later → later <+: calls →
    partitionAfter store entries before key = some stored →
    ∃ next, partitionAfter store entries later key = some next ∧
      stored.ownershipEpoch ≤ next.ownershipEpoch ∧
      ((stored.ownerWorkerId, stored.ownerInstanceId) ≠ (next.ownerWorkerId, next.ownerInstanceId) →
        stored.ownershipEpoch < next.ownershipEpoch)
  /-- A fence that ends has been decided by the partition, unless the database or the claim is no
  good. -/
  fences : ∀ i claim options result, entries i = .assertPartitionFence claim options →
    claim.partitionKey ≠ [] → (partitionWorld store entries calls).Ended i result →
    (∃ outcome, result = .ok outcome ∧ Decides store entries calls i claim true) ∨
      result = .error (.scale (.app 409 "PARTITION_OWNERSHIP_LOST" "Partition ownership was lost.")) ∧
        Decides store entries calls i claim false ∨
      result = .error .unavailable ∨
      result = .error (.invalid "ownershipEpoch") ∧ claim.partitionOwnershipEpoch = none
  /-- One pair of a worker and an epoch passes at a time. -/
  exclusive : ∀ before stored (claim claim' : FenceClaim) now now', before <+: calls →
    partitionAfter store entries before key = some stored →
    claim.passes now stored = true → claim'.passes now' stored = true →
    claim.owner = claim'.owner ∧ claim.partitionOwnershipEpoch = claim'.partitionOwnershipEpoch
  /-- A pair that another one has followed never passes again. -/
  superseded : ∀ before later last stored next final (claim : FenceClaim) now,
    before <+: later → later <+: last → last <+: calls →
    partitionAfter store entries before key = some stored →
    partitionAfter store entries later key = some next →
    partitionAfter store entries last key = some final →
    (stored.ownerWorkerId, stored.ownershipEpoch) ≠ (next.ownerWorkerId, next.ownershipEpoch) →
    claim.partitionOwnershipEpoch = some (stored.ownershipEpoch : Int) →
    claim.passes now final = false
  /-- A claim that is returned is what a turn has made of the partition. It passes under every later
  state of the same epoch and status, before the lease that is then stored expires. -/
  claims : ∀ i input options partition, entries i = .claimPartition input options →
    (partitionWorld store entries calls).Ended i (.ok (.claimed (some partition))) →
    ∃ before answer rest now lease, calls = before ++ (i, answer) :: rest ∧
      partitionAfter store entries (before ++ [(i, answer)]) input.key = some partition ∧
      Times store entries calls i now ∧ partition.leaseExpiresAt = some lease ∧ now < lease ∧
      ∀ later stored (claim : FenceClaim), before ++ [(i, answer)] <+: later → later <+: calls →
        partitionAfter store entries later input.key = some stored →
        stored.ownershipEpoch = partition.ownershipEpoch → stored.status = partition.status →
        claim.owner = input.workerId.trimmed →
        claim.partitionOwnershipEpoch = some (partition.ownershipEpoch : Int) →
        ∀ time expires, stored.leaseExpiresAt = some expires → time < expires →
          claim.passes time stored = true
  /-- A rebalance fails only with the database or its own input. -/
  rebalances : ∀ i input options e, entries i = .rebalancePartitions input options →
    (partitionWorld store entries calls).Ended i (.error e) →
    e = .unavailable ∨
      duration input.workerHeartbeatTimeoutMs "workerHeartbeatTimeoutMs" 5000 3600000 120000 =
        .error e
  /-- A turn that gives a partition another owner gives it a new epoch and a lease to come. -/
  moves : ∀ before i answer rest stored next, calls = before ++ (i, answer) :: rest →
    partitionAfter store entries before key = some stored →
    partitionAfter store entries (before ++ [(i, answer)]) key = some next →
    (stored.ownerWorkerId, stored.ownerInstanceId, stored.ownershipEpoch) ≠
      (next.ownerWorkerId, next.ownerInstanceId, next.ownershipEpoch) →
    next.ownershipEpoch = stored.ownershipEpoch + 1 ∧
      ∃ now lease, Times store entries before i now ∧ next.leaseExpiresAt = some lease ∧ now < lease

theorem later_of_partition_prefix {before calls : List (ℕ × PartitionAnswer)}
    ( hprefix : before <+: calls) {stored : Partition}
    (h : partitionAfter store entries before key = some stored) :
    ∃ next, partitionAfter store entries calls key = some next ∧ stored.Later next :=
  kept_partitions.of_prefix hprefix h

theorem passes_iff {claim : FenceClaim} {now : Int} {stored : Partition} :
    claim.passes now stored = true ↔ stored.ownerWorkerId = some claim.owner ∧
      claim.partitionOwnershipEpoch = some (stored.ownershipEpoch : Int) ∧
      (∃ lease ∈ stored.leaseExpiresAt, now < lease) ∧
      (stored.status = .active ∨ stored.status = .draining) := by
  simp [FenceClaim.passes]

theorem entry_progressAfter (i : ℕ) : (progressAfter store entries calls i).entry = entries i := by
  by_contra hentry
  obtain ⟨before, answer, rest, op, next, -, -, hnot, hnow⟩ :=
    exists_progress_entry (P := fun t => t.entry ≠ entries i) (fun hstart => hstart rfl) hentry
  rw [(PartitionProgress.keeps_next _ op _).entry] at hnow
  exact hnot hnow

theorem fenced_next {t : PartitionProgress} {op : PartitionOp} {store : PartitionStore}
    {answer : PartitionAnswer} {passes : Bool} (hallowed : t.allowed op)
    (hnot : t.fenced ≠ some passes)
    (h : (t.next op (performPartition store op answer).1).fenced = some passes) :
    ∃ claim options now, t.entry = .assertPartitionFence claim options ∧ t.time = some now ∧
      (store.partitions claim.partitionKey.trimmed).any (claim.passes now) = passes := by
  have hkept (hsame : (t.next op (performPartition store op answer).1).fenced = t.fenced) : False :=
    hnot (hsame.symm.trans h)
  by_cases hlookup : ∃ claim now, op = .findFenced claim now
  · obtain ⟨claim, now, rfl⟩ := hlookup
    obtain ⟨htime, options, hentry⟩ := hallowed
    refine ⟨claim, options, now, hentry, htime, ?_⟩
    unfold performPartition performPartitionAt at h hkept
    dsimp only at h hkept
    rcases available_cases answer _ _ with hanswer | hanswer
    · rw [hanswer] at hkept
      exact (hkept rfl).elim
    · rw [hanswer] at h
      have hsome := Option.some.inj h
      rw [← hsome]
      exact Option.isSome_filter.symm
  by_cases hextends : ∃ key claim now extendLeaseMs, op = .change key (.extend claim now extendLeaseMs)
  · obtain ⟨key, claim, now, extendLeaseMs, rfl⟩ := hextends
    obtain ⟨hkey, htime, options, hentry⟩ := hallowed
    refine ⟨claim, options, now, hentry, htime, ?_⟩
    unfold performPartition performPartitionAt at h hkept
    dsimp only at h hkept
    rcases available_cases answer _ _ with hanswer | hanswer
    · rw [hanswer] at hkept
      exact (hkept rfl).elim
    · rw [hanswer] at h
      have hsome := Option.some.inj h
      rw [← hsome, ← hkey]
      change (store.partitions key).any (PartitionChange.extend claim now extendLeaseMs).filter = _
      rw [← Option.isSome_filter]
      unfold PartitionStore.applyChange
      dsimp only
      cases (store.partitions key).filter
        (PartitionChange.extend claim now extendLeaseMs).filter <;> rfl
  · push Not at hlookup hextends
    exact (hkept ((t.keeps_next op _).fenced hlookup hextends)).elim

theorem Steady.of_prefix {before : List (ℕ × PartitionAnswer)} (h : Steady store entries calls)
    ( hprefix : before <+: calls) : Steady store entries before := by
  obtain ⟨rest, rfl⟩ := hprefix
  exact ((guarded_append before rest).mp h).1

theorem allowed_of_next (h : Steady store entries calls) {i : ℕ} {op : PartitionOp}
    (hnext : (partitionWorld store entries calls).Next i op) :
    (progressAfter store entries calls i).allowed op := by
  obtain ⟨next, hthread⟩ := hnext
  have hfollows := partition_monitored h i
  rw [hthread] at hfollows
  exact hfollows.1

theorem decides_of_fenced (h : Steady store entries calls) {i : ℕ} {claim : FenceClaim}
    {options : FenceOptions} (hentry : entries i = .assertPartitionFence claim options)
    {passes : Bool} (hfenced : (progressAfter store entries calls i).fenced = some passes) :
    Decides store entries calls i claim passes := by
  have hstart : (PartitionProgress.start entries i).fenced ≠ some passes := by
    intro hsome
    cases hsome
  obtain ⟨before, answer, rest, op, next, hcalls, hthread, hnot, hnow⟩ :=
    exists_progress_entry (P := fun t => t.fenced = some passes) hstart hfenced
  have hallowed := allowed_of_next (h.of_prefix ⟨_, hcalls.symm⟩) ⟨next, hthread⟩
  obtain ⟨claim', options', now, hclaim, htime, hdecided⟩ := fenced_next hallowed hnot hnow
  rw [entry_progressAfter, hentry] at hclaim
  cases hclaim
  exact ⟨before, answer, rest, now, hcalls, times_of_time htime, hdecided⟩

theorem changed_next {t : PartitionProgress} {op : PartitionOp} {store : PartitionStore}
    {answer : PartitionAnswer} {partition : Partition} (hnot : t.changed ≠ some (key, partition))
    (h : (t.next op (performPartition store op answer).1).changed = some (key, partition)) :
    (performPartition store op answer).2.partitions key = some partition := by
  have hkept (hsame : (t.next op (performPartition store op answer).1).changed = t.changed) :
      (performPartition store op answer).2.partitions key = some partition :=
    absurd (hsame.symm.trans h) hnot
  by_cases hop : ∃ key change, op = .change key change
  · obtain ⟨changedKey, change, rfl⟩ := hop
    have hstored (next : Partition)
        (h : (performPartition store (.change changedKey change) answer).1 = .ok (some next)) :
        (performPartition store (.change changedKey change) answer).2.partitions changedKey =
          some next := by
      obtain ⟨stored, -, -, hupdate, hafter⟩ := performPartition_change h
      rw [hafter, hupdate]
    generalize (performPartition store (.change changedKey change) answer).1 = reply at *
    have hclaim (hupdates : t.next (.change changedKey change) reply = t ∨
        ∃ next, reply = .ok (some next) ∧
          (t.next (.change changedKey change) reply).changed = some (changedKey, next)) :
        (performPartition store (.change changedKey change) answer).2.partitions key =
          some partition := by
      rcases hupdates with hsame | ⟨next, hreply, hchanged⟩
      · exact hkept (by rw [hsame])
      · rw [h] at hchanged
        cases hchanged
        exact hstored partition hreply
    cases change with
    | extend => exact hkept (by cases reply <;> rfl)
    | _ =>
      rcases reply with e | (_ | next)
      · exact hclaim (.inl rfl)
      · exact hclaim (.inl rfl)
      · exact hclaim (.inr ⟨next, rfl, rfl⟩)
  · push Not at hop
    exact hkept ((t.keeps_next op _).changed hop)

theorem partitions_applyChange_cases (store : PartitionStore) (changedKey : Text)
    (change : PartitionChange) (key : Text) :
    (store.applyChange changedKey change).2.partitions key = store.partitions key ∨
      changedKey = key ∧ ∃ stored, store.partitions key = some stored ∧
        (store.applyChange changedKey change).2.partitions key = some (change.update stored) := by
  unfold PartitionStore.applyChange
  cases hfound : (store.partitions changedKey).filter change.filter with
  | none => exact .inl rfl
  | some stored =>
    by_cases hkey : key = changedKey
    · subst hkey
      exact .inr ⟨rfl, stored, (Option.filter_eq_some_iff.mp hfound).1, Function.update_self _ _ _⟩
    · exact .inl (Function.update_of_ne hkey _ _)

theorem claim_of_moved {store : PartitionStore} {op : PartitionOp} {answer : PartitionAnswer}
    {stored next : Partition} (hstored : store.partitions key = some stored)
    (hnext : (performPartition store op answer).2.partitions key = some next)
    (hmoved : (stored.ownerWorkerId, stored.ownerInstanceId, stored.ownershipEpoch) ≠
      (next.ownerWorkerId, next.ownerInstanceId, next.ownershipEpoch)) :
    ∃ workerId instanceId ownershipEpoch status now leaseMs,
      op = .change key (.claim workerId instanceId ownershipEpoch status now leaseMs) ∧
      next = (PartitionChange.claim workerId instanceId ownershipEpoch status now leaseMs).update
        stored := by
  have hkept (hsame : (performPartition store op answer).2.partitions key =
      store.partitions key) : False := by
    rw [hsame, hstored] at hnext
    cases hnext
    exact hmoved rfl
  by_cases hop : ∃ key change, op = .change key change
  · obtain ⟨changedKey, change, rfl⟩ := hop
    unfold performPartition performPartitionAt at hnext hkept
    dsimp only at hnext hkept
    rcases available_cases answer _ _ with hanswer | hanswer
    · rw [hanswer] at hkept
      exact (hkept rfl).elim
    rw [hanswer] at hnext hkept
    rcases partitions_applyChange_cases { store with
        clock := store.clock + answer.elapsed
        workers := answer.registrations store.workers } changedKey change key with
      hsame | ⟨rfl, found, hfound, hupdate⟩
    · exact (hkept hsame).elim
    obtain rfl := Option.some.inj (hfound.symm.trans hstored)
    obtain rfl := Option.some.inj (hupdate.symm.trans hnext)
    cases change with
    | claim => exact ⟨_, _, _, _, _, _, rfl, rfl⟩
    | renew => exact (hmoved rfl).elim
    | extend => exact (hmoved rfl).elim
  · push Not at hop
    apply (hkept _).elim
    unfold performPartition performPartitionAt
    cases op with
    | change key change => exact absurd rfl (hop key change)
    | clock => rfl
    | _ =>
      dsimp only
      rcases available_cases answer _ _ with hanswer | hanswer <;> rw [hanswer]
      all_goals rfl

private def freePartition : Partition where
  partitionKey := ascii "checkpoint:v1:p0"
  workloadCategory := .checkpoint
  routingVersion := 1
  partitionNumber := 0
  status := .active
  ownershipEpoch := 0

private def idleWorker : Worker where
  workerId := ascii "worker"
  instanceId := ascii "instance"
  status := .idle
  supportedWorkloadCategories := [.checkpoint]
  supportedRoutingVersions := [1]
  heartbeatAt := 0

private def freeStore : PartitionStore where
  clock := 0
  workers := [idleWorker]
  partitionKeys := [ascii "checkpoint:v1:p0"]
  partitions key := if key = ascii "checkpoint:v1:p0" then some freePartition else none

private def idleClaim : ClaimInput where
  workerId := ascii "worker"
  instanceId := ascii "instance"
  workloadCategory := ascii "checkpoint"
  routingVersion := 1

private def claimOnce (_ : ℕ) : PartitionEntry := .claimPartition idleClaim {}

private theorem claim_steady {w : PartitionWorld} (op : PartitionOp)
    {next : PartitionReply op → PartitionFlow PartitionOutcome}
    (hthread : w.thread 0 = Program.perform op next)
    (hrenew : ∀ key workerId instanceId ownershipEpoch now leaseMs,
      op ≠ .change key (.renew workerId instanceId ownershipEpoch now leaseMs))
    (hfind : op ≠ .findPartitions) : SteadyTurn claimOnce w (0, {}) := by
  have hop {other : PartitionOp} (h : w.Next 0 other) : op = other := by
    obtain ⟨rest, hrest⟩ := h
    rw [hthread] at hrest
    cases hrest
    rfl
  constructor
  · intro key workerId instanceId ownershipEpoch now leaseMs stored hnext
    exact absurd (hop hnext) (hrenew key workerId instanceId ownershipEpoch now leaseMs)
  · intro now progress hnext
    exact absurd (hop hnext) hfind

private theorem idleClaim_steady :
    Steady freeStore claimOnce [(0, {}), (0, {}), (0, {}), (0, {})] := by
  refine ⟨?_, ?_, ?_, ?_, trivial⟩
  · exact claim_steady .clock rfl (by simp) (by simp)
  · exact claim_steady (.findWorker _ _ _ _ _) rfl (by simp) (by simp)
  · exact claim_steady (.findPartition _) rfl (by simp) (by simp)
  · exact claim_steady (.change _ (.claim _ _ _ _ _ _)) rfl (by simp) (by simp)

private theorem moves_freePartition : moves 0 [idleWorker] freePartition = true := by
  unfold moves chosenOwner
  simp [idleWorker, freePartition, Worker.owns, Nat.mod_one]

private def rebalanceOnce (_ : ℕ) : PartitionEntry := .rebalancePartitions {} { now := some 0 }

set_option maxRecDepth 4000 in
private theorem rebalance_thread :
    (partitionWorld freeStore rebalanceOnce [(0, {}), (0, {}), (0, {})]).thread 0 =
      (do
        let result ← (do
          placePartitions 0 [idleWorker] [freePartition]
          return { changedPartitionCount := 0, workerCount := 1, partitionCount := 1 } :
            PartitionFlow RebalanceResult)
        return .rebalanced result : PartitionFlow PartitionOutcome) := rfl

private theorem rebalance_ended :
    (partitionWorld freeStore rebalanceOnce [(0, {}), (0, {}), (0, {})]).Ended 0
      (.error (.referenceError "leaseMs")) := by
  unfold World.Ended
  rw [rebalance_thread, placePartitions, if_pos moves_freePartition]
  rfl

end GhostBridge.ProductionScale
