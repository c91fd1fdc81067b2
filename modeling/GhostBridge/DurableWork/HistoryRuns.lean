import GhostBridge.DurableWork.WorkRuns

/-!
# Histories along runs

In every order of turns, the history of an invocation leads to its state along the table of
transitions, and a terminal state is left only by the replay of an attempt that has failed.
-/

namespace GhostBridge.DurableWork

open Ecma Machine

theorem perform_updateInvocation (db : Database) (filter : Invocation → Bool)
    (update : Invocation → Invocation) (answer : Answer) :
    (perform db (.updateInvocation filter update) answer).2.invocations = db.invocations ∨
    ∃ id invocation, db.invocations.get? id = some invocation ∧ filter invocation = true ∧
      (perform db (.updateInvocation filter update) answer).2.invocations =
        db.invocations.set id (update invocation) := by
  simp only [perform, performAt, Answer.available]
  split
  · exact .inl rfl
  · simp only [updateInvocation]
    rcases Collection.findOneAndUpdate_cases db.invocations filter unordered update with
      ⟨h, -⟩ | ⟨id, invocation, hget, hfilter, h⟩
    · rw [h]
      exact .inl rfl
    · rw [h]
      exact .inr ⟨id, invocation, hget, hfilter, rfl⟩

theorem perform_invocations {op : Op} (hop : ∀ filter update, op ≠ .updateInvocation filter update)
    (db : Database) (answer : Answer) :
    (perform db op answer).2.invocations = db.invocations := by
  unfold perform
  cases op with
  | updateInvocation filter update => exact (hop filter update rfl).elim
  | upsertWork document =>
    simp only [performAt, Answer.available, upsertWork]
    split
    · rfl
    split
    · rfl
    split <;> rfl
  | upsertEvent event =>
    simp only [performAt, Answer.available, upsertEvent]
    split
    · rfl
    split <;> rfl
  | _ =>
    simp only [performAt, Answer.available]
    try (split <;> rfl)

/-- The invocations are stored under their identifiers, with their histories. -/
def Database.Historical (db : Database) : Prop :=
  ∀ id invocation, db.invocations.get? id = some invocation →
    invocation.id = id ∧ invocation.Historical

section Turn

variable {start : ℕ → Progress} {w : WorkWorld} {i : ℕ} {op : Op} {answer : Answer}

theorem invocationTurn (h : w.store.Historical)
    (hallowed : conduct.allowed (w.states conduct start i) op) :
    (perform w.store op answer).2.invocations = w.store.invocations ∨
      ∃ id invocation next, w.store.invocations.get? id = some invocation ∧
        InvocationStep (w.states conduct start i) invocation next ∧
        (perform w.store op answer).2.invocations = w.store.invocations.set id next := by
  cases op with
  | updateInvocation filter update =>
    refine (perform_updateInvocation w.store filter update answer).imp_right ?_
    rintro ⟨id, invocation, hget, hfilter, hresult⟩
    exact ⟨id, invocation, _, hget, hallowed invocation (h id invocation hget).2 hfilter, hresult⟩
  | _ => exact .inl (perform_invocations (by exact nofun) _ _)

theorem historical_turn (h : w.store.Historical)
    (hallowed : conduct.allowed (w.states conduct start i) op) :
    (perform w.store op answer).2.Historical := by
  rcases invocationTurn h hallowed with hsame | ⟨id, invocation, next, hget, hstep, hresult⟩
  · intro id invocation hget
    exact h id invocation (hsame ▸ hget)
  · intro other found hfound
    rw [hresult] at hfound
    by_cases hother : other = id
    · subst hother
      obtain rfl := Option.some.inj ((OrderedMap.get?_set_self _ _ _).symm.trans hfound)
      exact ⟨hstep.id_eq.trans (h other invocation hget).1, hstep.historical⟩
    · rw [OrderedMap.get?_set_of_ne _ hother] at hfound
      exact h other found hfound

end Turn

section Runs

variable {env : Env} {options : ℕ → Options} {entries : ℕ → Entry} {clock : Int}
  {invocations : OrderedMap Text Invocation} {calls : List (ℕ × Answer)}

theorem historical_after
    (hinvocations : Database.Historical { clock := clock, invocations := invocations }) :
    (worksAfter env options entries clock invocations calls).store.Historical := by
  induction calls using List.reverseRecOn with
  | nil => exact hinvocations
  | append_singleton calls call ih =>
    rw [worksAfter_concat]
    obtain ⟨-, hmonitored⟩ := reached env options entries clock invocations calls
    rcases World.turn_cases perform _ call with ⟨hturn, -⟩ | ⟨op, rest, hthread, hturn⟩
    · rw [turn, hturn]
      exact ih
    · have hfollows := hmonitored call.1
      rw [hthread] at hfollows
      rw [turn, hturn]
      exact historical_turn ih hfollows.1

theorem changed_invocation
    (hinvocations : Database.Historical { clock := clock, invocations := invocations })
    {call : ℕ × Answer} {id : Text} {invocation next : Invocation}
    (hget : (worksAfter env options entries clock invocations calls).store.invocations.get? id =
      some invocation)
    (hnext : (worksAfter env options entries clock invocations
      (calls ++ [call])).store.invocations.get? id = some next) (hne : next ≠ invocation) :
    InvocationStep ((worksAfter env options entries clock invocations calls).states conduct
      (starts options entries) call.1) invocation next := by
  have hhistorical : (worksAfter env options entries clock invocations calls).store.Historical :=
    historical_after hinvocations
  obtain ⟨-, hmonitored⟩ := reached env options entries clock invocations calls
  rw [worksAfter_concat] at hnext
  rcases World.turn_cases perform _ call with ⟨hturn, -⟩ | ⟨op, rest, hthread, hturn⟩
  · rw [turn, hturn] at hnext
    exact absurd (Option.some.inj (hnext.symm.trans hget)) hne
  have hfollows := hmonitored call.1
  rw [hthread] at hfollows
  rw [turn, hturn] at hnext
  rcases @invocationTurn _ _ _ op call.2 hhistorical hfollows.1 with
    hsame | ⟨other, found, updated, hother, hstep, hresult⟩
  · exact absurd (Option.some.inj ((hsame ▸ hnext).symm.trans hget)) hne
  · change (perform _ op call.2).2.invocations.get? id = some next at hnext
    rw [hresult] at hnext
    by_cases hid : id = other
    · subst hid
      obtain rfl := Option.some.inj (hother.symm.trans hget)
      obtain rfl := Option.some.inj ((OrderedMap.get?_set_self _ _ _).symm.trans hnext)
      exact hstep
    · rw [OrderedMap.get?_set_of_ne _ hid] at hnext
      exact absurd (Option.some.inj (hnext.symm.trans hget)) hne

theorem invocations_next {s : Progress} {op : Op} {reply : Reply op} {invocation : Invocation}
    (h : invocation ∈ (conduct.next s op reply).invocations) :
    invocation ∈ s.invocations ∨
      (∃ filter sort limit found, invocation ∈ found ∧
        (⟨op, reply⟩ : (op : Op) × Reply op) = ⟨.findInvocations filter sort limit, .ok found⟩) ∨
      ∃ filter, (⟨op, reply⟩ : (op : Op) × Reply op) =
        ⟨.findOneInvocation filter, .ok (some invocation)⟩ := by
  cases op with
  | findInvocations filter sort limit =>
    cases reply with
    | error e => exact .inl h
    | ok found =>
      rcases List.mem_append.mp h with h | h
      · exact .inr (.inl ⟨filter, sort, limit, found, h, rfl⟩)
      · exact .inl h
  | findOneInvocation filter =>
    rcases reply with e | (_ | found)
    · exact .inl h
    · exact .inl h
    · rcases List.mem_cons.mp h with rfl | h
      · exact .inr (.inr ⟨filter, rfl⟩)
      · exact .inl h
  | findWork filter sort limit => cases reply <;> exact .inl h
  | findOneWork filter sort => rcases reply with e | (_ | item) <;> exact .inl h
  | updateWork filter sort update => rcases reply with e | (_ | item) <;> exact .inl h
  | _ => exact .inl h

theorem stored_of_reading {db : Database} (hdb : db.Historical) {op : Op} {answer : Answer}
    {invocation : Invocation}
    (h : (∃ filter sort limit found, invocation ∈ found ∧
        (⟨op, (perform db op answer).1⟩ : (op : Op) × Reply op) =
          ⟨.findInvocations filter sort limit, .ok found⟩) ∨
      ∃ filter, (⟨op, (perform db op answer).1⟩ : (op : Op) × Reply op) =
        ⟨.findOneInvocation filter, .ok (some invocation)⟩) :
    db.invocations.get? invocation.id = some invocation := by
  have hstored {id : Text} (hget : db.invocations.get? id = some invocation) :
      db.invocations.get? invocation.id = some invocation := by
    rw [(hdb id invocation hget).1]
    exact hget
  rcases h with ⟨filter, sort, limit, found, hmem, heq⟩ | ⟨filter, heq⟩
  · obtain rfl : op = .findInvocations filter sort limit := congrArg Sigma.fst heq
    have hreply := eq_of_heq (Sigma.mk.inj heq).2
    simp only [perform, performAt, Answer.available] at hreply
    split at hreply
    · cases hreply
    · obtain rfl := Except.ok.inj hreply
      obtain ⟨⟨id, hget⟩, -⟩ := Collection.get?_of_find hmem
      exact hstored hget
  · obtain rfl : op = .findOneInvocation filter := congrArg Sigma.fst heq
    have hreply := eq_of_heq (Sigma.mk.inj heq).2
    simp only [perform, performAt, Answer.available] at hreply
    split at hreply
    · cases hreply
    · obtain ⟨id, hget, -⟩ := Collection.findOne_some (Except.ok.inj hreply)
      exact hstored hget

end Runs

variable (env : Env) (options : ℕ → Options) (entries : ℕ → Entry) (clock : Int)
  (invocations : OrderedMap Text Invocation)

private def replayEnv : Env where
  leaseMs := 6000
  heartbeatMs := 2000
  maxAttempts := 4
  deadLetterAfterAttempts := 6
  abandonedGraceMs := 2000
  workerBatchSize := 10
  maxAttempts_le := by decide
  heartbeat_le := by decide
  grace_pos := by decide

private def replayLifecycle : LifecycleOptions :=
  { invocationId := ascii "i", receivingWorkspaceId := ascii "w" }

private def replayWork : WorkItem where
  id := ascii "x"
  identity := ⟨ascii "p", ascii "p", ascii "w", ascii "c"⟩
  invocationId := ascii "i"
  workType := .runtimeInvocation
  executionGeneration := 1
  dedupeKey := []
  traceId := none
  status := .retryPreparing
  attemptNumber := 1
  maximumAttempts := 3
  retryCount := 0
  priority := 0
  availableAt := 0
  createdAt := 0
  updatedAt := 0

private def replayEntries (i : ℕ) : Entry :=
  if i = 0 then .transitionInvocation replayLifecycle .accepted .validating
  else if i = 1 then
    .transitionInvocation { replayLifecycle with outcome := { retryState := some .scheduled } }
      .validating .failed
  else .prepareInvocationForSafeReplay replayWork { reasonCode := ascii "RETRY" }

private def replayInvocations : OrderedMap Text Invocation :=
  OrderedMap.empty.set (ascii "i")
    { id := ascii "i"
      receivingWorkspaceId := ascii "w"
      connectionId := ascii "c"
      lifecycleState := .accepted
      stateHistory := [⟨none, .accepted, 0, none, none, none⟩]
      protectedReplayAvailable := true
      createdAt := 0 }

private theorem replayInvocations_historical (clock : Int) :
    Database.Historical { clock := clock, invocations := replayInvocations } := by
  intro id invocation hget
  have hmem := OrderedMap.get?_eq_some.mp hget
  obtain ⟨rfl, rfl⟩ := Prod.mk.inj (List.mem_singleton.mp hmem)
  refine ⟨rfl, fun entry hentry state hstate => ?_, List.isChain_singleton _, rfl⟩
  obtain rfl := List.mem_singleton.mp hentry
  cases hstate

private def replayFailed : List (ℕ × Answer) :=
  [(0, {}), (0, {}), (1, {}), (1, {}), (2, {}), (2, {})]

private def replayPrepare : ℕ × Answer := (2, {})

private theorem replay_get : ∃ invocation next,
    (worksAfter replayEnv (fun _ => {}) replayEntries 0 replayInvocations
      replayFailed).store.invocations.get? (ascii "i") = some invocation ∧
    (worksAfter replayEnv (fun _ => {}) replayEntries 0 replayInvocations
      (replayFailed ++ [replayPrepare])).store.invocations.get? (ascii "i") = some next ∧
    invocation.lifecycleState = .failed ∧ next.lifecycleState = .authorized := by
  have hbefore : ((worksAfter replayEnv (fun _ => {}) replayEntries 0 replayInvocations
      replayFailed).store.invocations.get? (ascii "i")).map Invocation.lifecycleState =
      some .failed := by
    decide
  have hafter : ((worksAfter replayEnv (fun _ => {}) replayEntries 0 replayInvocations
      (replayFailed ++ [replayPrepare])).store.invocations.get? (ascii "i")).map
      Invocation.lifecycleState = some .authorized := by
    decide
  obtain ⟨invocation, hget, hfailed⟩ := Option.map_eq_some_iff.mp hbefore
  obtain ⟨next, hnext, hauthorized⟩ := Option.map_eq_some_iff.mp hafter
  exact ⟨invocation, next, hget, hnext, hfailed, hauthorized⟩

end GhostBridge.DurableWork
