import GhostBridge.Policies.ActivePolicies

/-!
# Evaluations while policies change

Any number of evaluations and changes that run at the same time, in any number of processes.
-/

namespace GhostBridge.Policies

open Ecma Machine

variable (runtime : PolicyRuntime)

/-- The generation that a thread has read, and the snapshot that it has found since then. -/
structure Progress where
  generation : Option (Text × ℕ) := none
  found : Option ((Text × Text) × List Policy) := none

def Progress.next (s : Progress) : (op : Op) → Reply op → Progress
  | .findRevision organizationId, .ok revision => ⟨some (organizationId, revision), none⟩
  | .cached _ key _, some snapshot => { s with found := some (key, snapshot.policies) }
  | .findActive organizationId workspaceId, .ok policies => { s with
      found := some (cacheKey organizationId workspaceId,
        sortBy (comparePolicies runtime) policies) }
  | _, _ => s

def Progress.Allows (s : Progress) : Op → Prop
  | .cached _ key revision => s.generation = some (key.1, revision)
  | .findActive organizationId _ => ∃ revision, s.generation = some (organizationId, revision)
  | .remember _ key snapshot =>
    s.generation = some (key.1, snapshot.revision) ∧ s.found = some (key, snapshot.policies)
  | _ => True

def conduct : Monitor Op Reply Progress where
  next := Progress.next runtime
  allowed := Progress.Allows
  replies _ _ _ := True

variable {runtime : PolicyRuntime}

theorem follows_loadActivePolicySnapshot (s : Progress) (process : ℕ)
    (organizationId workspaceId : Text) :
    (loadActivePolicySnapshot runtime process organizationId workspaceId).Follows (conduct runtime)
      (fun t r => ∀ snapshot, r = .ok snapshot →
        t.found = some (cacheKey organizationId workspaceId, snapshot.policies)) s := by
  refine ⟨trivial, fun reply _ => ?_⟩
  rcases reply with e | revision
  · intro snapshot h
    cases h
  refine ⟨rfl, fun cached _ => ?_⟩
  rcases cached with _ | snapshot
  · refine ⟨⟨revision, rfl⟩, fun reply _ => ?_⟩
    rcases reply with e | policies
    · intro snapshot h
      cases h
    · refine ⟨⟨rfl, rfl⟩, fun _ _ snapshot h => ?_⟩
      cases h
      rfl
  · intro other h
    cases h
    rfl

/-- What evaluates policies, and what changes them once it has been checked. -/
inductive Entry where
  | evaluate (process : ℕ) (attributes : Datum) (input : PolicyInput)
  /-- `createDraft` and `createNewVersion`. -/
  | create (policy : Policy)
  /-- `updateDraft`. -/
  | update (key : VersionKey) (revision : ℕ) (candidate : Policy)
  /-- `activateDraft`. -/
  | activate (process : ℕ) (key : VersionKey) (revision : ℕ)
  /-- `retirePolicy`. -/
  | retire (process : ℕ) (key : VersionKey) (revision : ℕ)

def withoutResult (flow : Flow Unit) : Flow (Option Decision) := do
  flow
  return none

variable (runtime) in
def Entry.program : Entry → Flow (Option Decision)
  | .evaluate process attributes input => do
    let decision ← evaluateActivePolicies runtime process attributes input
    return some decision
  | .create policy => withoutResult (commit (.create policy))
  | .update key revision candidate => withoutResult (commit (.update key revision candidate))
  | .activate process key revision =>
    withoutResult (transaction process key.organizationId (.activate key revision))
  | .retire process key revision =>
    withoutResult (transaction process key.organizationId (.retire key revision))

variable (runtime) in
/-- A decision that allows is one by the snapshot that was found. -/
def Entry.Ends (s : Progress) : Entry → Except StoreFailure (Option Decision) → Prop
  | .evaluate _ attributes input, .ok (some decision) => decision.allowed = true →
    ∃ policies, s.found = some (cacheKey input.organizationId input.workspaceId, policies) ∧
      Permits runtime attributes id policies input
  | _, _ => True

/-- Operations that are no part of loading a snapshot. -/
def Op.isApart : Op → Prop
  | .invalidate _ _ => True
  | .finds _ => True
  | .change _ => True
  | _ => False

theorem unnoticed_of_isApart (s : Progress) {op : Op} (h : op.isApart) :
    Program.Unnoticed (conduct runtime) s op := by
  cases op <;> first | exact ⟨trivial, fun _ => rfl⟩ | exact h.elim

theorem follows_of_performs {α : Type} {flow : Flow α} {s : Progress}
    (h : flow.Performs Op.isApart fun _ => True) :
    flow.Follows (conduct runtime) (fun _ _ => True) s :=
  h.follows (fun _ => unnoticed_of_isApart s) fun _ _ => trivial

theorem performs_commit (change : PolicyChange) :
    (commit change).Performs Op.isApart fun _ => True := by
  refine ⟨trivial, fun reply => ?_⟩
  rcases reply with e | (_ | _) <;> trivial

theorem performs_transaction (process : ℕ) (organizationId : Text) (change : PolicyChange) :
    (transaction process organizationId change).Performs Op.isApart fun _ => True := by
  refine ⟨trivial, fun reply => ?_⟩
  rcases reply with e | (_ | _)
  · trivial
  · trivial
  · exact ⟨trivial, fun _ => performs_commit change⟩

theorem follows_withoutResult {flow : Flow Unit} {s : Progress} (entry : Entry)
    (h : flow.Follows (conduct runtime) (fun _ _ => True) s) :
    (withoutResult flow).Follows (conduct runtime) (entry.Ends runtime) s := by
  unfold withoutResult
  rw [Async.follows_bind]
  refine h.mono fun t r _ => ?_
  cases r <;> cases entry <;> trivial

theorem program_follows (entry : Entry) (s : Progress) :
    (entry.program runtime).Follows (conduct runtime) (entry.Ends runtime) s := by
  cases entry with
  | evaluate process attributes input =>
    unfold Entry.program evaluateActivePolicies
    rw [Async.follows_bind, Async.follows_tryCatch, Async.follows_bind]
    refine (follows_loadActivePolicySnapshot s process _ _).mono fun t r h => ?_
    cases r with
    | error e =>
      intro hallowed
      cases hallowed
    | ok snapshot =>
      intro hallowed
      exact ⟨snapshot.policies, h snapshot rfl, decideBySnapshot_allowed.mp hallowed⟩
  | create policy =>
    exact follows_withoutResult _ (follows_of_performs (performs_commit _))
  | update key revision candidate =>
    exact follows_withoutResult _ (follows_of_performs (performs_commit _))
  | activate process key revision =>
    exact follows_withoutResult _ (follows_of_performs (performs_transaction _ _ _))
  | retire process key revision =>
    exact follows_withoutResult _ (follows_of_performs (performs_transaction _ _ _))

abbrev PolicyWorld := World PolicyStore Op Reply (Except StoreFailure (Option Decision))

variable (runtime) in
/-- The programs, over an empty store, after some turns. -/
def worldAfter (entries : ℕ → Entry) (calls : List (ℕ × Answer)) : PolicyWorld :=
  after (World.turn perform) (.initial .empty fun i => (entries i).program runtime) calls

variable {entries : ℕ → Entry} {calls : List (ℕ × Answer)}

theorem monitored (calls : List (ℕ × Answer)) :
    (worldAfter runtime entries calls).Monitored (conduct runtime) (fun _ => {})
      fun i s r => (entries i).Ends runtime s r := by
  have htrivial : Invariant perform (conduct runtime) (fun _ => {}) (fun _ _ => True)
      fun _ : PolicyWorld => True := ⟨fun _ _ _ _ _ _ _ _ _ => trivial,
        fun _ _ _ _ _ _ _ _ _ => trivial⟩
  refine (htrivial.after trivial ?_ (guarded_of_forall fun _ _ _ => trivial)).2
  exact fun i => program_follows (entries i) {}

theorem step_turn (w : PolicyWorld) (call : ℕ × Answer) :
    Step w.store (w.turn perform call).store := by
  rcases World.turn_cases perform w call with ⟨hsame, -⟩ | ⟨op, next, -, hturn⟩
  · rw [hsame]
    exact .inl ⟨rfl, rfl⟩
  · rw [hturn]
    exact step_perform w.store op call.2

theorem onwards_since {before : List (ℕ × Answer)} ( hprefix : before <+: calls) :
    Onwards (worldAfter runtime entries before).store (worldAfter runtime entries calls).store := by
  obtain ⟨rest, rfl⟩ := hprefix
  unfold worldAfter
  rw [after_append]
  exact after_relates (R := fun v w : PolicyWorld => Onwards v.store w.store)
    (fun w => .refl w.store) (fun _ _ _ => .trans) fun w call => (step_turn w call).onwards

theorem soundVersions_after :
    SoundVersions (worldAfter runtime entries calls).store.versions := by
  unfold worldAfter
  apply after_induction (I := fun w : PolicyWorld => SoundVersions w.store.versions)
  · exact ⟨List.nodup_nil, by simp [World.initial, PolicyStore.empty]⟩
  · intro w call hw _
    rcases step_turn w call with ⟨hsame, -⟩ | ⟨change, happly, -⟩
    · rwa [hsame]
    · exact soundVersions_apply hw happly

variable (runtime) in
/-- The snapshot under a key, if no workspace has the name `*`. -/
def snapshotAt (store : PolicyStore) (key : Text × Text) : List Policy :=
  sortBy (comparePolicies runtime) (store.findActive key.1 (if key.2 = ascii "*" then [] else key.2))

theorem snapshotAt_cacheKey {workspaceId : Text} (h : workspaceId ≠ ascii "*")
    (store : PolicyStore) (organizationId : Text) :
    snapshotAt runtime store (cacheKey organizationId workspaceId) =
      sortBy (comparePolicies runtime) (store.findActive organizationId workspaceId) := by
  cases workspaceId with
  | nil => simp [snapshotAt, cacheKey, firstGiven]
  | cons unit units => simp [snapshotAt, cacheKey, firstGiven, h]

theorem snapshotAt_congr {before after : PolicyStore} {key : Text × Text} (h : Onwards before after)
    (hgeneration : before.generation key.1 = after.generation key.1) :
    snapshotAt runtime after key = snapshotAt runtime before key := by
  rw [snapshotAt, snapshotAt, h.active key.1 hgeneration]

theorem mem_cache_withCache {store : PolicyStore} {process other : ℕ}
    {entries : OrderedMap (Text × Text) Snapshot} {entry : (Text × Text) × Snapshot}
    (h : entry ∈ ((store.withCache other entries).cache process).entries) :
    entry ∈ (store.cache process).entries ∨ process = other ∧ entry ∈ entries.entries := by
  change entry ∈ (Function.update store.cache other entries process).entries at h
  by_cases hprocess : process = other
  · subst hprocess
    rw [Function.update_self] at h
    exact .inr ⟨rfl, h⟩
  · rw [Function.update_of_ne hprocess] at h
    exact .inl h

theorem mem_cache_perform {store : PolicyStore} {op : Op} {unavailable : Answer} {process : ℕ}
    {entry : (Text × Text) × Snapshot}
    (h : entry ∈ ((perform store op unavailable).2.cache process).entries) :
    entry ∈ (store.cache process).entries ∨ ∃ p, op = .remember p entry.1 entry.2 := by
  cases op with
  | cached other key revision =>
    left
    simp only [perform, PolicyStore.cached] at h
    split at h
    · exact h
    next snapshot hfound =>
      rcases mem_cache_withCache h with hold | ⟨rfl, hmem⟩
      · exact hold
      rcases OrderedMap.mem_set.mp hmem with rfl | ⟨-, hmem⟩
      · exact OrderedMap.get?_eq_some.mp (Option.filter_eq_some_iff.mp hfound).1
      · exact (List.mem_filter.mp hmem).1
  | remember other key snapshot =>
    rcases mem_cache_withCache h with hold | ⟨rfl, hmem⟩
    · exact .inl hold
    rcases OrderedMap.mem_set.mp ((OrderedMap.dropOldest_suffix _ _).subset hmem) with
      rfl | ⟨-, hmem⟩
    · exact .inr ⟨process, rfl⟩
    · exact .inl hmem
  | invalidate other organizationId =>
    left
    rcases mem_cache_withCache h with hold | ⟨rfl, hmem⟩
    · exact hold
    · exact (List.mem_filter.mp hmem).1
  | change change =>
    left
    cases unavailable
    · change entry ∈ ((store.change change).2.cache process).entries at h
      unfold PolicyStore.change at h
      split at h <;> exact h
    · exact h
  | _ => exact .inl h

theorem generation_performed {s : Progress} {store : PolicyStore} {op : Op} {unavailable : Answer}
    {organizationId : Text} {revision : ℕ}
    (h : (s.next runtime op (perform store op unavailable).1).generation =
      some (organizationId, revision)) :
    s.generation = some (organizationId, revision) ∨
      revision = store.generation organizationId ∧ (perform store op unavailable).2 = store := by
  cases op with
  | findRevision other =>
    cases unavailable
    · cases h
      exact .inr ⟨rfl, rfl⟩
    · exact .inl h
  | cached process key generation =>
    simp only [perform, PolicyStore.cached] at h
    split at h <;> exact .inl h
  | findActive other workspaceId => cases unavailable <;> exact .inl h
  | _ => exact .inl h

theorem found_performed {s : Progress} {store : PolicyStore} {op : Op} {unavailable : Answer}
    {key : Text × Text} {policies : List Policy}
    (h : (s.next runtime op (perform store op unavailable).1).found = some (key, policies)) :
    (s.next runtime op (perform store op unavailable).1).generation = s.generation ∧
      (s.found = some (key, policies) ∨
        (∃ process snapshot, op = .cached process key snapshot.revision ∧
          (key, snapshot) ∈ (store.cache process).entries ∧ policies = snapshot.policies) ∨
        ∃ organizationId workspaceId, op = .findActive organizationId workspaceId ∧
          key = cacheKey organizationId workspaceId ∧ (perform store op unavailable).2 = store ∧
          policies = sortBy (comparePolicies runtime)
            (store.findActive organizationId workspaceId)) := by
  cases op with
  | findRevision other =>
    cases unavailable
    · cases h
    · exact ⟨rfl, .inl h⟩
  | cached process other generation =>
    simp only [perform, PolicyStore.cached] at h ⊢
    split at h
    · exact ⟨rfl, .inl h⟩
    next snapshot hfound =>
      cases h
      obtain ⟨hget, hrevision⟩ := Option.filter_eq_some_iff.mp hfound
      obtain rfl : snapshot.revision = generation := by simpa using hrevision
      exact ⟨rfl, .inr (.inl ⟨process, snapshot, rfl, OrderedMap.get?_eq_some.mp hget, rfl⟩)⟩
  | findActive organizationId workspaceId =>
    cases unavailable
    · cases h
      exact ⟨rfl, .inr (.inr ⟨organizationId, workspaceId, rfl, rfl, rfl, rfl⟩)⟩
    · exact ⟨rfl, .inl h⟩
  | _ => exact ⟨rfl, .inl h⟩

variable (runtime entries calls)

/-- The store was like that at a moment after the first turn of the thread. -/
def Since (i : ℕ) (P : PolicyStore → Prop) : Prop :=
  ∃ before, before <+: calls ∧ i ∈ before.map Prod.fst ∧ P (worldAfter runtime entries before).store

def progressAfter (i : ℕ) : Progress :=
  (worldAfter runtime entries calls).states (conduct runtime) (fun _ => {}) i

/-- Every snapshot is that of a moment: one that is kept, of the generation that it is kept under
or a later one, and one that a thread has found, of a moment since the thread has begun. -/
structure Sourced : Prop where
  cache : ∀ process entry, entry ∈ ((worldAfter runtime entries calls).store.cache process).entries →
    ∃ before, before <+: calls ∧
      entry.2.policies = snapshotAt runtime (worldAfter runtime entries before).store entry.1 ∧
      entry.2.revision ≤ (worldAfter runtime entries before).store.generation entry.1.1
  generation : ∀ i organizationId revision,
    (progressAfter runtime entries calls i).generation = some (organizationId, revision) →
    Since runtime entries calls i fun store => revision = store.generation organizationId
  found : ∀ i key policies, (progressAfter runtime entries calls i).found = some (key, policies) →
    Since runtime entries calls i fun store => policies = snapshotAt runtime store key ∧
      ∀ revision, (progressAfter runtime entries calls i).generation = some (key.1, revision) →
        revision ≤ store.generation key.1

variable {runtime entries calls}

/-- No snapshot has been loaded for a workspace of the name that stands for none. -/
def Named (w : PolicyWorld) : Prop :=
  ∀ i organizationId workspaceId reply, w.Performed i (.findActive organizationId workspaceId) reply →
    workspaceId ≠ ascii "*"

theorem Since.later {i : ℕ} {P : PolicyStore → Prop} (h : Since runtime entries calls i P)
    (call : ℕ × Answer) : Since runtime entries (calls ++ [call]) i P := by
  obtain ⟨before, hbefore, hrest⟩ := h
  exact ⟨before, hbefore.trans (List.prefix_append _ _), hrest⟩

theorem since_turn {i : ℕ} {answer : Answer} {P : PolicyStore → Prop}
    (h : P (worldAfter runtime entries (calls ++ [(i, answer)])).store) :
    Since runtime entries (calls ++ [(i, answer)]) i P :=
  ⟨_, List.prefix_rfl, by simp, h⟩

theorem allows_of_thread {i : ℕ} {op : Op}
    {next : Reply op → Program Op Reply (Except StoreFailure (Option Decision))}
    (h : (worldAfter runtime entries calls).thread i = .perform op next) :
    (progressAfter runtime entries calls i).Allows op := by
  have hfollows : ((worldAfter runtime entries calls).thread i).Follows (conduct runtime)
      ((entries i).Ends runtime) (progressAfter runtime entries calls i) := monitored calls i
  rw [h] at hfollows
  exact hfollows.1

/-- A snapshot from the cache was taken after the generation was read, or the generation has not
been raised in between. -/
theorem Sourced.cached (h : Sourced runtime entries calls) {i process : ℕ} {key : Text × Text}
    {snapshot : Snapshot}
    (hentry : (key, snapshot) ∈ ((worldAfter runtime entries calls).store.cache process).entries)
    (hgeneration : (progressAfter runtime entries calls i).generation =
      some (key.1, snapshot.revision)) :
    Since runtime entries calls i fun store => snapshot.policies = snapshotAt runtime store key ∧
      snapshot.revision ≤ store.generation key.1 := by
  obtain ⟨kept, hkept, hpolicies, hle⟩ := h.cache process _ hentry
  obtain ⟨read, hread, hi, hrevision⟩ := h.generation i _ _ hgeneration
  rcases List.prefix_or_prefix_of_prefix hread hkept with hfirst | hfirst
  · exact ⟨kept, hkept, (hfirst.map Prod.fst).subset hi, hpolicies, hle⟩
  · have honwards : Onwards (worldAfter runtime entries kept).store
        (worldAfter runtime entries read).store := onwards_since hfirst
    have hsame := le_antisymm (honwards.generation key.1) (hrevision ▸ hle)
    exact ⟨read, hread, hi, hpolicies.trans (snapshotAt_congr honwards hsame).symm, hrevision.le⟩

theorem sourced (h : Named (worldAfter runtime entries calls)) : Sourced runtime entries calls := by
  induction calls using List.reverseRecOn with
  | nil =>
    constructor
    · intro process entry hentry
      cases hentry
    · intro i organizationId revision h
      cases h
    · intro i key policies h
      cases h
  | append_singleton calls call ih =>
    obtain ⟨j, answer⟩ := call
    have hconcat : worldAfter runtime entries (calls ++ [(j, answer)]) =
        (worldAfter runtime entries calls).turn perform (j, answer) := after_concat _
    have hearlier : Named (worldAfter runtime entries calls) := by
      intro i organizationId workspaceId reply hperformed
      apply h i organizationId workspaceId reply
      rw [hconcat]
      exact ((worldAfter runtime entries calls).log_turn _).subset hperformed
    have ih := ih hearlier
    have hprogress (i : ℕ) := World.states_turn_cases perform (worldAfter runtime entries calls)
      (j, answer) (conduct runtime) (fun _ => {}) i
    rw [← hconcat] at hprogress
    constructor
    · intro process entry hentry
      have hcases : entry ∈ ((worldAfter runtime entries calls).store.cache process).entries ∨
          ∃ p next, (worldAfter runtime entries calls).thread j =
            .perform (.remember p entry.1 entry.2) next := by
        rcases World.turn_cases perform (worldAfter runtime entries calls) (j, answer) with
          ⟨hsame, -⟩ | ⟨op, next, hthread, hturn⟩
        · rw [hconcat, hsame] at hentry
          exact .inl hentry
        rw [hconcat, hturn] at hentry
        rcases mem_cache_perform hentry with hold | ⟨p, rfl⟩
        · exact .inl hold
        · exact .inr ⟨p, next, hthread⟩
      rcases hcases with hold | ⟨p, next, hthread⟩
      · obtain ⟨before, hbefore, hrest⟩ := ih.cache process entry hold
        exact ⟨before, hbefore.trans (List.prefix_append _ _), hrest⟩
      · obtain ⟨hgeneration, hfound⟩ := allows_of_thread hthread
        obtain ⟨before, hbefore, -, hpolicies, hle⟩ := ih.found j entry.1 _ hfound
        exact ⟨before, hbefore.trans (List.prefix_append _ _), hpolicies, hle _ hgeneration⟩
    · intro i organizationId revision hgeneration
      rcases hprogress i with hsame | ⟨rfl, op, next, hthread, hstate⟩
      · rw [progressAfter, hsame] at hgeneration
        exact (ih.generation i organizationId revision hgeneration).later _
      rw [progressAfter, hstate] at hgeneration
      rcases generation_performed hgeneration with hold | ⟨rfl, hstore⟩
      · exact (ih.generation _ organizationId revision hold).later _
      · apply since_turn
        rw [hconcat, World.turn_perform hthread, hstore]
    · intro i key policies hfound
      rcases hprogress i with hsame | ⟨rfl, op, next, hthread, hstate⟩
      · rw [progressAfter, hsame] at hfound ⊢
        exact (ih.found i key policies hfound).later _
      rw [progressAfter, hstate] at hfound ⊢
      obtain ⟨hsame, hcases⟩ := found_performed hfound
      simp only [conduct] at hsame ⊢
      rw [hsame]
      rcases hcases with hold | ⟨process, snapshot, rfl, hentry, rfl⟩ |
        ⟨organizationId, workspaceId, rfl, rfl, hstore, rfl⟩
      · exact (ih.found _ key policies hold).later _
      · have hgeneration := allows_of_thread hthread
        obtain ⟨before, hbefore, hj, hpolicies, hle⟩ := (ih.cached hentry hgeneration).later (j, answer)
        refine ⟨before, hbefore, hj, hpolicies, fun revision hsame => ?_⟩
        cases hgeneration.symm.trans hsame
        exact hle
      · apply since_turn
        have hnamed : workspaceId ≠ ascii "*" := by
          apply h j organizationId workspaceId _
          rw [hconcat, World.turn_perform hthread]
          exact List.mem_append_right _ List.mem_cons_self
        refine ⟨?_, fun revision hgeneration => ?_⟩
        · rw [snapshotAt_cacheKey hnamed, hconcat, World.turn_perform hthread, hstore]
        · obtain ⟨before, hbefore, -, rfl⟩ := (ih.generation j _ _ hgeneration).later (j, answer)
          exact (onwards_since hbefore).generation _

variable (runtime entries calls)

/-- What holds of stored policies and of decisions in every run. -/
structure ActivePolicyLaw : Prop where
  /-- One version of a policy is active at most. -/
  sound : SoundVersions (worldAfter runtime entries calls).store.versions
  /-- A version that was activated is not edited, and one that was retired stays so. -/
  lasting : ∀ before, before <+: calls →
    ∀ stored ∈ (worldAfter runtime entries before).store.versions,
      ∃ later ∈ (worldAfter runtime entries calls).store.versions, stored.Later later
  /-- What an evaluation allows was permitted by the policies that were active at a moment since it
  has begun. -/
  fresh : ∀ i process attributes input decision, entries i = .evaluate process attributes input →
    (worldAfter runtime entries calls).Ended i (.ok (some decision)) → decision.allowed = true →
    Named (worldAfter runtime entries calls) → input.workspaceId ≠ ascii "*" →
    Since runtime entries calls i fun store => Permits runtime attributes id
      (store.findActive input.organizationId input.workspaceId) input

end GhostBridge.Policies
