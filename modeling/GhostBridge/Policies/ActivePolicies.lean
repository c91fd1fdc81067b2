import GhostBridge.Ecma.OrderedMap
import GhostBridge.Machine.Threads
import GhostBridge.Policies.Snapshots

/-!
# Active policies

Versions of policies are drafted, activated and retired while evaluations load the active ones. A
process keeps the snapshots that it has loaded, with the generation that it read before; an
activation and a retirement raise the generation of the organization in their transaction.
-/

namespace GhostBridge.Policies

open Ecma Machine

inductive PolicyStatus where
  | draft
  | active
  | retired
deriving DecidableEq

structure VersionKey where
  organizationId : Text
  stablePolicyId : Text
  version : ℕ
deriving DecidableEq

def Policy.versionKey (policy : Policy) : VersionKey :=
  ⟨policy.organizationId, policy.stablePolicyId, policy.version⟩

/-- A version with its status and the revision of its document. -/
structure StoredPolicy where
  policy : Policy
  status : PolicyStatus
  revision : ℕ

namespace StoredPolicy

def meets (key : VersionKey) (status : PolicyStatus) (revision : ℕ) (stored : StoredPolicy) : Bool :=
  decide (stored.policy.versionKey = key ∧ stored.status = status ∧ stored.revision = revision)

def isActiveOf (key : VersionKey) (stored : StoredPolicy) : Bool :=
  decide (stored.policy.organizationId = key.organizationId ∧
    stored.policy.stablePolicyId = key.stablePolicyId ∧ stored.status = .active)

def moved (stored : StoredPolicy) (status : PolicyStatus) : StoredPolicy :=
  { stored with status, revision := stored.revision + 1 }

/-- `$set` of an update of a draft. -/
def edited (stored : StoredPolicy) (candidate : Policy) : StoredPolicy where
  policy := { stored.policy with
    name := candidate.name, workspaceId := candidate.workspaceId, effect := candidate.effect
    target := candidate.target, condition := candidate.condition, priority := candidate.priority }
  status := stored.status
  revision := stored.revision + 1

end StoredPolicy

inductive PolicyChange where
  | create (policy : Policy)
  | update (key : VersionKey) (revision : ℕ) (candidate : Policy)
  | activate (key : VersionKey) (revision : ℕ)
  | retire (key : VersionKey) (revision : ℕ)

def findOneAndUpdate (versions : List StoredPolicy) (filter : StoredPolicy → Bool)
    (update : StoredPolicy → StoredPolicy) : Option (List StoredPolicy) :=
  if versions.any filter then
    some (versions.map fun stored => if filter stored then update stored else stored)
  else none

def PolicyChange.apply (versions : List StoredPolicy) : PolicyChange → Option (List StoredPolicy)
  | .create policy =>
    if versions.any fun stored => stored.policy.versionKey = policy.versionKey then none
    else some (versions ++ [⟨policy, .draft, 0⟩])
  | .update key revision candidate =>
    findOneAndUpdate versions (StoredPolicy.meets key .draft revision) fun stored =>
      stored.edited candidate
  | .activate key revision =>
    findOneAndUpdate (versions.map fun stored =>
        if stored.isActiveOf key then stored.moved .retired else stored)
      (StoredPolicy.meets key .draft revision) fun stored => stored.moved .active
  | .retire key revision =>
    findOneAndUpdate versions (StoredPolicy.meets key .active revision) fun stored =>
      stored.moved .retired

/-- The organization whose generation is raised. -/
def PolicyChange.raises : PolicyChange → Option Text
  | .create _ => none
  | .update _ _ _ => none
  | .activate key _ => some key.organizationId
  | .retire key _ => some key.organizationId

def PolicyChange.raised (change : PolicyChange) (generation : Text → ℕ) : Text → ℕ :=
  match change.raises with
  | none => generation
  | some organizationId =>
    Function.update generation organizationId (generation organizationId + 1)

def StoredPolicy.isActiveIn (organizationId workspaceId : Text) (stored : StoredPolicy) : Bool :=
  decide (stored.status = .active ∧ stored.policy.organizationId = organizationId ∧
    (stored.policy.workspaceId = [] ∨ stored.policy.workspaceId = workspaceId))

def activePolicies (versions : List StoredPolicy) (organizationId workspaceId : Text) :
    List Policy :=
  (versions.filter (StoredPolicy.isActiveIn organizationId workspaceId)).map StoredPolicy.policy

structure Snapshot where
  policies : List Policy
  revision : ℕ

structure PolicyStore where
  versions : List StoredPolicy
  /-- `PolicyRevision`, by organization. -/
  generation : Text → ℕ
  cache : ℕ → OrderedMap (Text × Text) Snapshot

def maxCacheEntries : ℕ := 200

/-- `cacheKey`; what it encodes is told apart by its parts. -/
def cacheKey (organizationId workspaceId : Text) : Text × Text :=
  (organizationId, firstGiven workspaceId (ascii "*"))

namespace PolicyStore

def empty : PolicyStore := ⟨[], fun _ => 0, fun _ => .empty⟩

def withCache (store : PolicyStore) (process : ℕ) (entries : OrderedMap (Text × Text) Snapshot) :
    PolicyStore :=
  { store with cache := Function.update store.cache process entries }

/-- The active policies of an organization, and of a workspace in it. -/
def findActive (store : PolicyStore) (organizationId workspaceId : Text) : List Policy :=
  activePolicies store.versions organizationId workspaceId

def change (store : PolicyStore) (change : PolicyChange) : Bool × PolicyStore :=
  match change.apply store.versions with
  | none => (false, store)
  | some versions =>
    (true, { store with versions, generation := change.raised store.generation })

/-- A snapshot of this generation, which becomes the last entry. -/
def cached (store : PolicyStore) (process : ℕ) (key : Text × Text) (revision : ℕ) :
    Option Snapshot × PolicyStore :=
  match ((store.cache process).get? key).filter fun snapshot => snapshot.revision = revision with
  | none => (none, store)
  | some snapshot => (some snapshot,
      store.withCache process (((store.cache process).delete key).set key snapshot))

end PolicyStore

inductive StoreFailure where
  | unavailable
  | policyConflict

inductive Op where
  | findRevision (organizationId : Text)
  /-- The lookup in the cache of a process. -/
  | cached (process : ℕ) (key : Text × Text) (revision : ℕ)
  | findActive (organizationId workspaceId : Text)
  /-- `cache.set(key, snapshot)` and `trimCache()`. -/
  | remember (process : ℕ) (key : Text × Text) (snapshot : Snapshot)
  /-- `invalidatePolicyCache(organizationId)`. -/
  | invalidate (process : ℕ) (organizationId : Text)
  /-- What a transaction finds before it is committed. -/
  | finds (change : PolicyChange)
  | change (change : PolicyChange)

abbrev Reply : Op → Type
  | .findRevision _ => Except StoreFailure ℕ
  | .cached _ _ _ => Option Snapshot
  | .findActive _ _ => Except StoreFailure (List Policy)
  | .remember _ _ _ => Unit
  | .invalidate _ _ => Unit
  | .finds _ => Except StoreFailure Bool
  | .change _ => Except StoreFailure Bool

/-- The answer of the environment: the database is not available. -/
abbrev Answer := Bool

def perform : Perform PolicyStore Op Answer Reply
  | store, .findRevision organizationId, unavailable =>
    (if unavailable then .error .unavailable else .ok (store.generation organizationId), store)
  | store, .cached process key revision, _ => store.cached process key revision
  | store, .findActive organizationId workspaceId, unavailable =>
    (if unavailable then .error .unavailable
      else .ok (store.findActive organizationId workspaceId), store)
  | store, .remember process key snapshot, _ => ((), store.withCache process
      (((store.cache process).set key snapshot).trim maxCacheEntries))
  | store, .invalidate process organizationId, _ => ((), store.withCache process
      ((store.cache process).filter fun entry => entry.1.1 != organizationId))
  | store, .finds change, unavailable =>
    (if unavailable then .error .unavailable else .ok (store.change change).1, store)
  | store, .change change, unavailable =>
    if unavailable then (.error .unavailable, store)
    else (.ok (store.change change).1, (store.change change).2)

abbrev Flow := Async Op Reply StoreFailure

variable (runtime : PolicyRuntime)

def loadActivePolicySnapshot (process : ℕ) (organizationId workspaceId : Text) : Flow Snapshot := do
  let revision ← liftM (← Async.ask (.findRevision organizationId))
  let key := cacheKey organizationId workspaceId
  let cached : Option Snapshot ← Async.ask (Op.cached process key revision)
  match cached with
  | some snapshot => return snapshot
  | none =>
    let policies ← liftM (← Async.ask (.findActive organizationId workspaceId))
    let snapshot := ⟨sortBy (comparePolicies runtime) policies, revision⟩
    Async.ask (Op.remember process key snapshot)
    return snapshot

def evaluateActivePolicies (process : ℕ) (attributes : Datum) (input : PolicyInput) :
    Flow Decision :=
  tryCatch (do
      let snapshot ← loadActivePolicySnapshot runtime process input.organizationId input.workspaceId
      return decideBySnapshot runtime attributes snapshot.policies input)
    fun _ => return ⟨false, .policyEvaluationError, []⟩

def commit (change : PolicyChange) : Flow Unit := do
  let found ← liftM (← Async.ask (.change change))
  if !found then throw .policyConflict

def transaction (process : ℕ) (organizationId : Text) (change : PolicyChange) : Flow Unit := do
  let found ← liftM (← Async.ask (.finds change))
  if !found then throw .policyConflict
  Async.ask (Op.invalidate process organizationId)
  commit change

/-- A version comes after another: it keeps its key, and its policy once it was active. -/
structure StoredPolicy.Later (stored next : StoredPolicy) : Prop where
  versionKey : next.policy.versionKey = stored.policy.versionKey
  fixed : stored.status ≠ .draft → next.policy = stored.policy ∧ next.status ≠ .draft
  final : stored.status = .retired → next.status = .retired

theorem StoredPolicy.Later.refl (stored : StoredPolicy) : stored.Later stored :=
  ⟨rfl, fun hne => ⟨rfl, hne⟩, id⟩

theorem StoredPolicy.Later.trans {a b c : StoredPolicy} (hab : a.Later b) (hbc : b.Later c) :
    a.Later c where
  versionKey := hbc.versionKey.trans hab.versionKey
  fixed hne := by
    obtain ⟨hpolicy, hne⟩ := hab.fixed hne
    obtain ⟨hpolicy', hne⟩ := hbc.fixed hne
    exact ⟨hpolicy'.trans hpolicy, hne⟩
  final hretired := hbc.final (hab.final hretired)

def PolicyChange.moves (stored : StoredPolicy) : PolicyChange → StoredPolicy
  | .create _ => stored
  | .update key revision candidate =>
    if stored.meets key .draft revision then stored.edited candidate else stored
  | .activate key revision =>
    let retired := if stored.isActiveOf key then stored.moved .retired else stored
    if retired.meets key .draft revision then retired.moved .active else retired
  | .retire key revision =>
    if stored.meets key .active revision then stored.moved .retired else stored

def PolicyChange.added : PolicyChange → List StoredPolicy
  | .create policy => [⟨policy, .draft, 0⟩]
  | _ => []

section Versions

variable {change : PolicyChange} {versions next : List StoredPolicy} {stored : StoredPolicy}

theorem PolicyChange.apply_some (h : change.apply versions = some next) :
    next = versions.map (fun stored => change.moves stored) ++ change.added ∧
      ∀ added ∈ change.added, ∀ stored ∈ versions,
        stored.policy.versionKey ≠ added.policy.versionKey := by
  cases change <;> simp only [apply, findOneAndUpdate, Option.ite_none_left_eq_some,
    Option.ite_none_right_eq_some, Option.some.injEq] at h <;> obtain ⟨hfound, rfl⟩ := h
  · simpa [moves, added] using hfound
  · simp [moves, added]
  · simp [moves, added, Function.comp_def]
  · simp [moves, added]

theorem PolicyChange.moves_later (change : PolicyChange) (stored : StoredPolicy) :
    stored.Later (change.moves stored) := by
  obtain ⟨policy, status, revision⟩ := stored
  cases change <;> simp only [moves, StoredPolicy.meets, StoredPolicy.isActiveOf]
  all_goals constructor
  all_goals
    cases status <;> simp [StoredPolicy.moved, StoredPolicy.edited, Policy.versionKey] <;>
      split_ifs <;> simp_all

theorem PolicyChange.moves_eq (h : change.raises ≠ some stored.policy.organizationId)
    (hactive : stored.status = .active ∨ (change.moves stored).status = .active) :
    change.moves stored = stored := by
  cases change <;> grind [moves, raises, StoredPolicy.meets, StoredPolicy.isActiveOf,
    StoredPolicy.moved, StoredPolicy.edited, Policy.versionKey]

theorem activePolicies_apply (happly : change.apply versions = some next) {organizationId : Text}
    (h : change.raises ≠ some organizationId) (workspaceId : Text) :
    activePolicies next organizationId workspaceId =
      activePolicies versions organizationId workspaceId := by
  obtain ⟨rfl, -⟩ := PolicyChange.apply_some happly
  have hsame (stored : StoredPolicy) (horganization : stored.policy.organizationId = organizationId)
      (hactive : stored.status = .active ∨ (change.moves stored).status = .active) :
      change.moves stored = stored := PolicyChange.moves_eq (horganization ▸ h) hactive
  have hfilter : ∀ stored ∈ versions, StoredPolicy.isActiveIn organizationId workspaceId
      (change.moves stored) = stored.isActiveIn organizationId workspaceId := by
    intro stored _
    have horganization := congrArg VersionKey.organizationId (change.moves_later stored).versionKey
    grind [StoredPolicy.isActiveIn, Policy.versionKey]
  have hadded : change.added.filter (StoredPolicy.isActiveIn organizationId workspaceId) = [] := by
    cases change <;> simp [PolicyChange.added, StoredPolicy.isActiveIn]
  simp only [activePolicies, List.filter_append, List.filter_map, hadded, List.append_nil,
    List.map_map, Function.comp_def, List.filter_congr hfilter]
  apply List.map_congr_left
  intro stored hstored
  have hactive := (List.mem_filter.mp hstored).2
  simp only [StoredPolicy.isActiveIn, decide_eq_true_eq] at hactive
  rw [hsame stored hactive.2.1 (.inl hactive.1)]

/-- Versions have different keys, and one version of a policy is active at most. -/
structure SoundVersions (versions : List StoredPolicy) : Prop where
  keys : (versions.map fun stored => stored.policy.versionKey).Nodup
  active : ∀ stored ∈ versions, ∀ other ∈ versions, stored.status = .active →
    other.status = .active → stored.policy.organizationId = other.policy.organizationId →
    stored.policy.stablePolicyId = other.policy.stablePolicyId → stored = other

theorem soundVersions_apply (h : SoundVersions versions) (happly : change.apply versions = some next) :
    SoundVersions next := by
  obtain ⟨rfl, hnew⟩ := PolicyChange.apply_some happly
  have hkeys : (versions.map fun stored => (change.moves stored).policy.versionKey) =
      versions.map fun stored => stored.policy.versionKey :=
    List.map_congr_left fun stored _ => (change.moves_later stored).versionKey
  have hinactive : ∀ added ∈ change.added, added.status ≠ .active := by
    cases change <;> simp [PolicyChange.added]
  constructor
  · rw [List.map_append, List.map_map, List.nodup_append]
    refine ⟨hkeys.symm ▸ h.keys, ?_, ?_⟩
    · cases change <;> simp [PolicyChange.added]
    · intro key hkey other hother
      obtain ⟨stored, hstored, rfl⟩ := List.mem_map.mp hkey
      obtain ⟨added, hadded, rfl⟩ := List.mem_map.mp hother
      rw [Function.comp_apply, (change.moves_later stored).versionKey]
      exact hnew added hadded stored hstored
  · intro first hfirst second hsecond hactive hactive' horganization hpolicy
    rcases List.mem_append.mp hfirst with hfirst | hfirst
    swap
    · exact absurd hactive (hinactive first hfirst)
    rcases List.mem_append.mp hsecond with hsecond | hsecond
    swap
    · exact absurd hactive' (hinactive second hsecond)
    obtain ⟨stored, hstored, rfl⟩ := List.mem_map.mp hfirst
    obtain ⟨other, hother, rfl⟩ := List.mem_map.mp hsecond
    have hinjective : stored.policy.versionKey = other.policy.versionKey → stored = other :=
      fun hkey => List.inj_on_of_nodup_map h.keys hstored hother hkey
    have hone := h.active stored hstored other hother
    cases change <;> grind [PolicyChange.moves, StoredPolicy.meets, StoredPolicy.isActiveOf,
      StoredPolicy.moved, StoredPolicy.edited, Policy.versionKey]

end Versions

/-- The collections stay as they are, or one change applies to them. -/
def Step (store next : PolicyStore) : Prop :=
  next.versions = store.versions ∧ next.generation = store.generation ∨
    ∃ change : PolicyChange, change.apply store.versions = some next.versions ∧
      next.generation = change.raised store.generation

theorem step_perform (store : PolicyStore) (op : Op) (unavailable : Answer) :
    Step store (perform store op unavailable).2 := by
  cases op with
  | change change =>
    cases unavailable
    · change Step store (store.change change).2
      unfold PolicyStore.change
      cases happly : change.apply store.versions with
      | none => exact .inl ⟨rfl, rfl⟩
      | some next => exact .inr ⟨change, happly, rfl⟩
    · exact .inl ⟨rfl, rfl⟩
  | cached process key revision =>
    simp only [perform, PolicyStore.cached]
    split <;> exact .inl ⟨rfl, rfl⟩
  | _ => exact .inl ⟨rfl, rfl⟩

/-- Versions come one after another, and the active policies of an organization are the same as
long as its generation is. -/
structure Onwards (store next : PolicyStore) : Prop where
  versions : ∀ stored ∈ store.versions, ∃ later ∈ next.versions, stored.Later later
  generation : ∀ organizationId, store.generation organizationId ≤ next.generation organizationId
  active : ∀ organizationId, store.generation organizationId = next.generation organizationId →
    ∀ workspaceId, next.findActive organizationId workspaceId =
      store.findActive organizationId workspaceId

theorem Onwards.refl (store : PolicyStore) : Onwards store store :=
  ⟨fun stored h => ⟨stored, h, .refl stored⟩, fun _ => le_rfl, fun _ _ _ => rfl⟩

theorem Onwards.trans {a b c : PolicyStore} (hab : Onwards a b) (hbc : Onwards b c) :
    Onwards a c where
  versions stored h := by
    obtain ⟨later, hlater, hbefore⟩ := hab.versions stored h
    obtain ⟨last, hlast, hafter⟩ := hbc.versions later hlater
    exact ⟨last, hlast, hbefore.trans hafter⟩
  generation organizationId := (hab.generation organizationId).trans (hbc.generation organizationId)
  active organizationId hsame workspaceId := by
    have hle := hab.generation organizationId
    have hle' := hbc.generation organizationId
    rw [hbc.active organizationId (by omega), hab.active organizationId (by omega)]

theorem Step.onwards {store next : PolicyStore} (h : Step store next) : Onwards store next := by
  rcases h with ⟨hversions, hgeneration⟩ | ⟨change, happly, hgeneration⟩
  · refine ⟨fun stored h => ⟨stored, hversions ▸ h, .refl stored⟩, fun _ => by rw [hgeneration], ?_⟩
    intro _ _ _
    rw [PolicyStore.findActive, PolicyStore.findActive, hversions]
  · have hraised (organizationId : Text) (h : change.raises = some organizationId) :
        next.generation organizationId = store.generation organizationId + 1 := by
      simp [hgeneration, PolicyChange.raised, h]
    have hkept (organizationId : Text) (h : change.raises ≠ some organizationId) :
        next.generation organizationId = store.generation organizationId := by
      rw [hgeneration, PolicyChange.raised]
      cases hraises : change.raises with
      | none => rfl
      | some other =>
        apply Function.update_of_ne
        rintro rfl
        exact h hraises
    constructor
    · intro stored hstored
      rw [(PolicyChange.apply_some happly).1]
      exact ⟨change.moves stored, List.mem_append_left _ (List.mem_map_of_mem hstored),
        change.moves_later stored⟩
    · intro organizationId
      by_cases h : change.raises = some organizationId
      · exact hraised organizationId h ▸ Nat.le_succ _
      · exact (hkept organizationId h).ge
    · intro organizationId hsame
      apply activePolicies_apply happly
      intro h
      have hsucc := hraised organizationId h
      omega

end GhostBridge.Policies
