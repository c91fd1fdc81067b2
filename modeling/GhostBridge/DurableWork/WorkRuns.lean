import GhostBridge.DurableWork.RecoveryCalls

/-!
# Runs of the service

Calls of the service that run at the same time over one database.
-/

namespace GhostBridge.DurableWork

open Ecma Machine

namespace Entry

def givenNow (options : Options) : Entry → Option Int
  | .claimNextWork input _ => input.now.or options.now
  | .claimWorkById _ input => input.now.or options.now
  | .recordMilestone _ _ input => input.recordedAt.or options.now
  | .scanAbandonedWork input _ => input.now.or options.now
  | .reconcileAcceptedInvocations input => input.now.or options.now
  | .repairDurableOutbox input => input.now.or options.now
  | .prepareInvocationForSafeReplay _ input => input.now.or options.now
  | .transitionInvocation lifecycle _ _ => lifecycle.now
  | .markExpiredInvocationLeaseRecovery lifecycle => lifecycle.now
  | .markActiveInvocationRecovery lifecycle => lifecycle.now
  | .renewInvocationExecutionLease lifecycle _ _ _ => lifecycle.now
  | .claimInvocationExecution lifecycle _ _ _ => lifecycle.now
  | _ => options.now

def presented : Entry → Option (Text × Ownership)
  | .startWork workItemId ownership => some (workItemId, ownership)
  | .heartbeatWork workItemId ownership _ => some (workItemId, ownership)
  | .recordMilestone workItemId ownership _ => some (workItemId, ownership)
  | .finalizeWork workItemId ownership _ => some (workItemId, ownership)
  | .deadLetterWork workItemId ownership _ => some (workItemId, ownership)
  | .scheduleRetry workItemId ownership _ => some (workItemId, ownership)
  | _ => none

def replays : Entry → Bool
  | .scanAbandonedWork _ _ => true
  | .requeueDeadLetter _ => true
  | _ => false

def start (options : Options) (entry : Entry) : Progress where
  careful := entry.replays
  presented := entry.presented
  readings := (entry.givenNow options).toList
  tokens := (entry.presented.map fun p => p.2.leaseToken).toList

end Entry

section Program

variable {env : Env} {options : Options} {s : Progress}

theorem conducts_discarding {α : Type} {flow : Flow α} {post : Progress → α → Prop}
    (h : Conducts s post flow) : Conducts s (fun _ _ => True) (discarding flow) :=
  h.bind fun _ _ _ _ => Async.rising_pure trivial

private theorem conducts_returning {α : Type} {flow : Flow α} {result : α → Result}
    (h : Conducts s (fun _ _ => True) flow) :
    Conducts s (fun _ _ => True) (do let a ← flow; pure (result a)) :=
  h.bind fun _ _ _ _ => Async.rising_pure trivial

theorem Entry.start_reading {entry : Entry} {now : Int} (h : entry.givenNow options = some now) :
    now ∈ (entry.start options).readings := by
  change now ∈ (entry.givenNow options).toList
  rw [h]
  exact List.mem_singleton_self now

theorem Entry.start_free {entry : Entry} (h : entry.presented = none) :
    (entry.start options).Free :=
  fun _ hp => nomatch h.symm.trans hp

theorem Entry.start_presenter {entry : Entry} {workItemId : Text} {ownership : Ownership}
    (h : entry.presented = some (workItemId, ownership)) :
    (entry.start options).Presenter workItemId ownership where
  token := by
    change ownership.leaseToken ∈ (entry.presented.map fun p => p.2.leaseToken).toList
    rw [h]
    exact List.mem_singleton_self _
  presented p hp := .inr (Option.some.inj (hp.symm.trans h))

theorem program_conducts (env : Env) (options : Options) (entry : Entry) :
    Conducts (entry.start options) (fun _ _ => True) (entry.program env options) := by
  have hnow {now : Int} (h : entry.givenNow options = some now) :
      now ∈ (entry.start options).readings := Entry.start_reading h
  cases entry with
  | enqueueWork input initialClaim =>
    exact (conducts_enqueueWork (Entry.start_free rfl) fun _ => hnow).bind fun _ _ _ _ =>
      Async.rising_pure trivial
  | claimNextWork input maximumCandidates =>
    exact conducts_returning (conducts_claimNextWork (Entry.start_free rfl) rfl fun _ => hnow)
  | claimWorkById workItemId input =>
    exact conducts_returning (conducts_claimWorkById (Entry.start_free rfl) rfl fun _ => hnow)
  | startWork workItemId ownership =>
    exact conducts_returning (conducts_startWork (Entry.start_presenter rfl) rfl fun _ => hnow)
  | heartbeatWork workItemId ownership leaseMs =>
    exact conducts_returning (conducts_heartbeatWork (Entry.start_presenter rfl) rfl fun _ => hnow)
  | recordMilestone workItemId ownership input =>
    exact conducts_returning
      (conducts_recordMilestone (Entry.start_presenter rfl) rfl fun _ => hnow)
  | finalizeWork workItemId ownership input =>
    exact conducts_returning (conducts_finalizeWork (Entry.start_presenter rfl) fun _ => hnow)
  | deadLetterWork workItemId ownership reasonCode =>
    exact conducts_returning (conducts_deadLetterWork (Entry.start_presenter rfl) fun _ => hnow)
  | scheduleRetry workItemId ownership errorCode =>
    exact conducts_returning (conducts_scheduleRetry (Entry.start_presenter rfl) rfl fun _ => hnow)
  | requestWorkCancellation input =>
    exact conducts_returning (conducts_requestWorkCancellation (Entry.start_free rfl) fun _ => hnow)
  | scanAbandonedWork input graceMs =>
    exact conducts_discarding (conducts_scanAbandonedWork (Entry.start_free rfl) fun _ => hnow)
  | requeueDeadLetter input =>
    exact conducts_returning (conducts_requeueDeadLetter (Entry.start_free rfl) fun _ => hnow)
  | reconcileAcceptedInvocations input =>
    exact conducts_discarding
      (conducts_reconcileAcceptedInvocations (Entry.start_free rfl) rfl fun _ => hnow)
  | persistWorkOutboxEvent work eventType metadata =>
    exact conducts_discarding (conducts_outboxForWork (Entry.start_free rfl))
  | repairDurableOutbox input =>
    exact conducts_discarding (conducts_repairDurableOutbox (Entry.start_free rfl) fun _ => hnow)
  | prepareInvocationForSafeReplay work input =>
    exact conducts_discarding (conducts_prepareInvocationForSafeReplay fun _ => hnow)
  | transitionInvocation lifecycle fromState toState =>
    exact conducts_discarding (conducts_transitionInvocation fun _ => hnow)
  | markExpiredInvocationLeaseRecovery lifecycle =>
    exact conducts_discarding (conducts_markExpiredInvocationLeaseRecovery fun _ => hnow)
  | markActiveInvocationRecovery lifecycle =>
    exact conducts_discarding (conducts_markActiveInvocationRecovery fun _ => hnow)
  | renewInvocationExecutionLease lifecycle owner leaseId leaseDurationMs =>
    exact conducts_discarding (conducts_renewInvocationExecutionLease fun _ => hnow)
  | claimInvocationExecution lifecycle owner leaseId leaseDurationMs =>
    exact conducts_discarding (conducts_claimInvocationExecution fun _ => hnow)

end Program

section Perform

variable {db : Database} {answer : Answer}

attribute [local simp] performAt perform

theorem perform_clock (db : Database) (op : Op) (answer : Answer) :
    (perform db op answer).2.clock = db.clock + answer.elapsed := by
  unfold perform
  cases op with
  | upsertWork document =>
    simp only [performAt, Answer.available, upsertWork]
    split
    · rfl
    split
    · rfl
    split <;> rfl
  | upsertEvent event =>
    simp only [performAt, Answer.available, upsertEvent]
    split
    · rfl
    split <;> rfl
  | _ =>
    simp only [performAt, Answer.available]
    try (split <;> rfl)

theorem perform_updateWork (db : Database) (filter : WorkItem → Bool)
    (sort : DocumentOrder WorkItem) (update : WorkItem → WorkItem) (answer : Answer) :
    ((perform db (.updateWork filter sort update) answer).2.workItems = db.workItems ∧
      ∀ item, (perform db (.updateWork filter sort update) answer).1 ≠ .ok (some item)) ∨
    ∃ id work, db.workItems.get? id = some work ∧ filter work = true ∧
      perform db (.updateWork filter sort update) answer =
        (.ok (some (touched (db.clock + answer.elapsed) update work)),
          { db with
            clock := db.clock + answer.elapsed
            workItems :=
              db.workItems.set id (touched (db.clock + answer.elapsed) update work) }) := by
  simp only [perform, performAt, Answer.available]
  split
  · exact .inl ⟨rfl, fun item h => nomatch h⟩
  · simp only [updateWork]
    rcases Collection.findOneAndUpdate_cases db.workItems filter sort
      (touched (db.clock + answer.elapsed) update) with ⟨h, -⟩ | ⟨id, work, hget, hfilter, h⟩
    · rw [h]
      exact .inl ⟨rfl, fun item h => nomatch h⟩
    · rw [h]
      exact .inr ⟨id, work, hget, hfilter, rfl⟩

theorem perform_upsertWork (db : Database) (document : WorkItem) (answer : Answer) :
    (perform db (.upsertWork document) answer).2.workItems = db.workItems ∨
    (db.workItems.get? answer.text = none ∧
      (∀ id work, db.workItems.get? id = some work → work.dedupeKey ≠ document.dedupeKey) ∧
      (perform db (.upsertWork document) answer).2 =
        { db with
          clock := db.clock + answer.elapsed
          workItems := db.workItems.set answer.text
            (inserted document answer.text (db.clock + answer.elapsed)) }) := by
  simp only [perform, performAt, Answer.available]
  split
  · exact .inl rfl
  · simp only [upsertWork]
    split
    · exact .inl rfl
    next hkey =>
      split
      · exact .inl rfl
      next hnew =>
        refine .inr ⟨?_, fun id work hget heq => ?_, rfl⟩
        · simp only [Bool.or_eq_true, not_or, OrderedMap.has_eq_isSome, Bool.not_eq_true,
            Option.isSome_eq_false_iff, Option.isNone_iff_eq_none] at hnew
          exact hnew.1
        · refine hkey (List.any_eq_true.mpr ⟨work, ?_, beq_iff_eq.mpr heq⟩)
          exact List.mem_map.mpr ⟨(id, work), OrderedMap.get?_eq_some.mp hget, rfl⟩

def Op.writesItems : Op → Bool
  | .updateWork _ _ _ => true
  | .upsertWork _ => true
  | _ => false

theorem perform_workItems {op : Op} (hop : op.writesItems = false) (db : Database)
    (answer : Answer) : (perform db op answer).2.workItems = db.workItems := by
  unfold perform
  cases op with
  | updateWork filter sort update => cases hop
  | upsertWork document => cases hop
  | upsertEvent event =>
    simp only [performAt, Answer.available, upsertEvent]
    split
    · rfl
    split <;> rfl
  | _ =>
    simp only [performAt, Answer.available]
    try (split <;> rfl)

end Perform

/-- Every stored item is stored later, in a later state. -/
def Database.Onward (db later : Database) : Prop :=
  ∀ id work, db.workItems.get? id = some work →
    ∃ next, later.workItems.get? id = some next ∧ work.Later next

/-- The item is an earlier state of a stored one. -/
def Database.Stores (db : Database) (item : WorkItem) : Prop :=
  ∃ work, db.workItems.get? item.id = some work ∧ item.Later work

theorem Database.Onward.of_eq {db later : Database} (h : later.workItems = db.workItems) :
    db.Onward later := fun _ work hget => ⟨work, h ▸ hget, .refl work⟩

theorem Database.Onward.trans {db later latest : Database} (h : db.Onward later)
    (h' : later.Onward latest) : db.Onward latest := by
  intro id work hget
  obtain ⟨next, hnext, hlater⟩ := h id work hget
  obtain ⟨last, hlast, hlater'⟩ := h' id next hnext
  exact ⟨last, hlast, hlater.trans hlater'⟩

theorem Database.Stores.onward {db later : Database} {item : WorkItem} (h : db.Stores item)
    (honward : db.Onward later) : later.Stores item := by
  obtain ⟨work, hget, hlater⟩ := h
  obtain ⟨next, hnext, hlater'⟩ := honward item.id work hget
  exact ⟨next, hnext, hlater.trans hlater'⟩

def starts (options : ℕ → Options) (entries : ℕ → Entry) (i : ℕ) : Progress :=
  (entries i).start (options i)

structure WorkInvariant (start : ℕ → Progress) (w : WorkWorld) : Prop where
  items : ∀ id work, w.store.workItems.get? id = some work → work.id = id ∧ work.Sound
  seen : ∀ i, ∀ item ∈ (w.states conduct start i).seen, w.store.Stores item
  readings : ∀ i, ∀ now ∈ (w.states conduct start i).readings,
    now ∈ (start i).readings ∨ now ≤ w.store.clock

section Invariant

variable {start : ℕ → Progress} {w : WorkWorld} {i : ℕ} {op : Op}
  {next : Reply op → Program Op Reply (Checked Result)}

theorem WorkInvariant.knows (h : WorkInvariant start w) (i : ℕ) {id : Text} {work : WorkItem}
    (hget : w.store.workItems.get? id = some work) : (w.states conduct start i).Knows work := by
  intro item hitem hid
  obtain ⟨stored, hstored, hlater⟩ := h.seen i item hitem
  rw [hid, (h.items id work hget).1, hget] at hstored
  exact Option.some.inj hstored ▸ hlater

theorem WorkInvariant.stores (h : WorkInvariant start w) {id : Text} {work : WorkItem}
    (hget : w.store.workItems.get? id = some work) : w.store.Stores work :=
  ⟨work, (h.items id work hget).1.symm ▸ hget, .refl work⟩

inductive ItemTurn (start : ℕ → Progress) (w : WorkWorld) (i : ℕ) (op : Op) (answer : Answer) : Prop
  | quiet (same : (perform w.store op answer).2.workItems = w.store.workItems)
      (seen : ∀ item ∈ (conduct.next (w.states conduct start i) op
        (perform w.store op answer).1).seen, w.store.Stores item)
  | updated (filter : WorkItem → Bool) (sort : DocumentOrder WorkItem)
      (update : WorkItem → WorkItem) (id : Text) (work : WorkItem)
      (hop : op = .updateWork filter sort update)
      (get : w.store.workItems.get? id = some work)
      (step : ItemStep (w.states conduct start i) work
        (touched (w.store.clock + answer.elapsed) update work))
      (result : perform w.store (.updateWork filter sort update) answer =
        (.ok (some (touched (w.store.clock + answer.elapsed) update work)),
          { w.store with
            clock := w.store.clock + answer.elapsed
            workItems := w.store.workItems.set id
              (touched (w.store.clock + answer.elapsed) update work) }))
  | inserted (document : WorkItem) (hop : op = .upsertWork document)
      (free : w.store.workItems.get? answer.text = none)
      (sound : (DurableWork.inserted document answer.text (w.store.clock + answer.elapsed)).Sound)
      (result : (perform w.store (.upsertWork document) answer).2.workItems =
        w.store.workItems.set answer.text
          (DurableWork.inserted document answer.text (w.store.clock + answer.elapsed)))

theorem WorkInvariant.itemTurn (h : WorkInvariant start w)
    (hallowed : conduct.allowed (w.states conduct start i) op) (answer : Answer) :
    ItemTurn start w i op answer := by
  have hsame {items : List WorkItem} (hitems : ∀ item ∈ items, w.store.Stores item) :
      ∀ item ∈ items ++ (w.states conduct start i).seen, w.store.Stores item := by
    intro item hitem
    rcases List.mem_append.mp hitem with hitem | hitem
    · exact hitems item hitem
    · exact h.seen i item hitem
  cases op with
  | updateWork filter sort update =>
    rcases perform_updateWork w.store filter sort update answer with
      ⟨hitems, hreply⟩ | ⟨id, work, hget, hfilter, hresult⟩
    · refine .quiet hitems ?_
      revert hreply
      generalize (perform w.store (.updateWork filter sort update) answer).1 = reply
      intro hreply
      rcases reply with e | (_ | item)
      · exact h.seen i
      · exact h.seen i
      · exact (hreply item rfl).elim
    · refine .updated filter sort update id work rfl hget ?_ hresult
      exact hallowed.2 _ work (h.items id work hget).2 (h.knows i hget) hfilter
  | upsertWork document =>
    rcases perform_upsertWork w.store document answer with hitems | ⟨hfree, -, hresult⟩
    · exact .quiet hitems (h.seen i)
    · exact .inserted document rfl hfree (hallowed _ _) (by rw [hresult])
  | findWork filter sort limit =>
    refine .quiet (perform_workItems rfl _ _) ?_
    simp only [perform, performAt, Answer.available]
    split
    · exact h.seen i
    · refine hsame fun item hitem => ?_
      obtain ⟨⟨id, hget⟩, -⟩ := Collection.get?_of_find hitem
      exact h.stores hget
  | findOneWork filter sort =>
    refine .quiet (perform_workItems rfl _ _) ?_
    simp only [perform, performAt, Answer.available]
    split
    · exact h.seen i
    · cases hfound : Collection.findOne w.store.workItems filter sort with
      | none => exact h.seen i
      | some item =>
        obtain ⟨id, hget, -⟩ := Collection.findOne_some hfound
        intro found hfound
        rcases List.mem_cons.mp hfound with rfl | hseen
        · exact h.stores hget
        · exact h.seen i found hseen
  | findInvocations filter sort limit =>
    refine .quiet (perform_workItems rfl _ _) ?_
    generalize (perform w.store (.findInvocations filter sort limit) answer).1 = reply
    cases reply <;> exact h.seen i
  | findOneInvocation filter =>
    refine .quiet (perform_workItems rfl _ _) ?_
    generalize (perform w.store (.findOneInvocation filter) answer).1 = reply
    rcases reply with e | (_ | invocation) <;> exact h.seen i
  | _ => exact .quiet (perform_workItems rfl _ _) (h.seen i)

theorem ItemTurn.onward {answer : Answer} (h : ItemTurn start w i op answer) :
    w.store.Onward (perform w.store op answer).2 := by
  cases h with
  | quiet same seen => exact .of_eq same
  | updated filter sort update id work hop hget hstep hresult =>
    subst hop
    rw [hresult]
    intro other item hitem
    by_cases hother : other = id
    · subst hother
      obtain rfl := Option.some.inj (hget.symm.trans hitem)
      exact ⟨_, OrderedMap.get?_set_self _ _ _, hstep.follows⟩
    · exact ⟨item, (OrderedMap.get?_set_of_ne _ hother _).trans hitem, .refl item⟩
  | inserted document hop hfree hsound hresult =>
    subst hop
    intro other item hitem
    have hother : other ≠ answer.text := by
      rintro rfl
      exact nomatch hfree.symm.trans hitem
    exact ⟨item, by rw [hresult, OrderedMap.get?_set_of_ne _ hother, hitem], .refl item⟩

theorem ItemTurn.seen {answer : Answer} (h : ItemTurn start w i op answer)
    (hinvariant : WorkInvariant start w) :
    ∀ item ∈ (conduct.next (w.states conduct start i) op (perform w.store op answer).1).seen,
      (perform w.store op answer).2.Stores item := by
  have honward := h.onward
  cases h with
  | quiet same seen => exact fun item hitem => (seen item hitem).onward honward
  | updated filter sort update id work hop hget hstep hresult =>
    subst hop
    intro item hitem
    rw [hresult] at hitem honward ⊢
    rcases List.mem_cons.mp hitem with rfl | hitem
    · have hid : (touched (w.store.clock + answer.elapsed) update work).id = id :=
        hstep.follows.id_eq.trans (hinvariant.items id work hget).1
      exact ⟨_, by rw [hid]; exact OrderedMap.get?_set_self _ _ _, .refl _⟩
    · exact (hinvariant.seen i item hitem).onward honward
  | inserted document hop hfree hsound hresult =>
    subst hop
    exact fun item hitem => (hinvariant.seen i item hitem).onward honward

theorem ItemTurn.items {answer : Answer} (h : ItemTurn start w i op answer)
    (hinvariant : WorkInvariant start w) {id : Text} {work : WorkItem}
    (hget : (perform w.store op answer).2.workItems.get? id = some work) :
    work.id = id ∧ work.Sound := by
  cases h with
  | quiet same seen => exact hinvariant.items id work (same ▸ hget)
  | updated filter sort update other item hop hother hstep hresult =>
    subst hop
    rw [hresult] at hget
    by_cases hid : id = other
    · subst hid
      obtain rfl := Option.some.inj ((OrderedMap.get?_set_self _ _ _).symm.trans hget)
      exact ⟨hstep.follows.id_eq.trans (hinvariant.items id item hother).1, hstep.sound⟩
    · exact hinvariant.items id work ((OrderedMap.get?_set_of_ne _ hid _).symm.trans hget)
  | inserted document hop hfree hsound hresult =>
    subst hop
    rw [hresult] at hget
    by_cases hid : id = answer.text
    · subst hid
      obtain rfl := Option.some.inj ((OrderedMap.get?_set_self _ _ _).symm.trans hget)
      exact ⟨rfl, hsound⟩
    · exact hinvariant.items id work ((OrderedMap.get?_set_of_ne _ hid _).symm.trans hget)

theorem readings_next {s : Progress} {op : Op} {reply : Reply op} {now : Int}
    (h : now ∈ (conduct.next s op reply).readings) :
    now ∈ s.readings ∨ (⟨op, reply⟩ : (op : Op) × Reply op) = ⟨.clock, now⟩ := by
  cases op with
  | clock => exact (List.mem_cons.mp h).symm.imp_right fun heq => by rw [heq]
  | findWork filter sort limit => cases reply <;> exact .inl h
  | findOneWork filter sort => rcases reply with e | (_ | item) <;> exact .inl h
  | updateWork filter sort update => rcases reply with e | (_ | item) <;> exact .inl h
  | findInvocations filter sort limit => cases reply <;> exact .inl h
  | findOneInvocation filter => rcases reply with e | (_ | item) <;> exact .inl h
  | _ => exact .inl h

theorem tokens_next {s : Progress} {op : Op} {reply : Reply op} {token : Text}
    (h : token ∈ (conduct.next s op reply).tokens) :
    token ∈ s.tokens ∨ (⟨op, reply⟩ : (op : Op) × Reply op) = ⟨.randomToken, token⟩ := by
  cases op with
  | randomToken => exact (List.mem_cons.mp h).symm.imp_right fun heq => by rw [heq]
  | findWork filter sort limit => cases reply <;> exact .inl h
  | findOneWork filter sort => rcases reply with e | (_ | item) <;> exact .inl h
  | updateWork filter sort update => rcases reply with e | (_ | item) <;> exact .inl h
  | findInvocations filter sort limit => cases reply <;> exact .inl h
  | findOneInvocation filter => rcases reply with e | (_ | item) <;> exact .inl h
  | _ => exact .inl h

theorem taken_next {s : Progress} {op : Op} {reply : Reply op} {item : WorkItem}
    (h : item ∈ (conduct.next s op reply).taken) :
    item ∈ s.taken ∨ ∃ filter sort update,
      (⟨op, reply⟩ : (op : Op) × Reply op) = ⟨.updateWork filter sort update, .ok (some item)⟩ ∧
        item.status = .retryPreparing ∧ (update item).version ≠ item.version := by
  cases op with
  | updateWork filter sort update =>
    rcases reply with e | (_ | found)
    · exact .inl h
    · exact .inl h
    · change item ∈ if found.status = .retryPreparing ∧ (update found).version ≠ found.version then
        found :: s.taken else s.taken at h
      split at h
      · next hcounted =>
        rcases List.mem_cons.mp h with rfl | h
        · exact .inr ⟨filter, sort, update, rfl, hcounted⟩
        · exact .inl h
      · exact .inl h
  | findWork filter sort limit => cases reply <;> exact .inl h
  | findOneWork filter sort => rcases reply with e | (_ | item) <;> exact .inl h
  | findInvocations filter sort limit => cases reply <;> exact .inl h
  | findOneInvocation filter => rcases reply with e | (_ | item) <;> exact .inl h
  | _ => exact .inl h

theorem updated_next {s : Progress} {op : Op} {reply : Reply op}
    (h : (conduct.next s op reply).updated = true) :
    s.updated = true ∨ ∃ filter sort update item,
      (⟨op, reply⟩ : (op : Op) × Reply op) = ⟨.updateWork filter sort update, .ok (some item)⟩ := by
  cases op with
  | updateWork filter sort update =>
    rcases reply with e | (_ | found)
    · exact .inl h
    · exact .inl h
    · exact .inr ⟨filter, sort, update, found, rfl⟩
  | findWork filter sort limit => cases reply <;> exact .inl h
  | findOneWork filter sort => rcases reply with e | (_ | item) <;> exact .inl h
  | findInvocations filter sort limit => cases reply <;> exact .inl h
  | findOneInvocation filter => rcases reply with e | (_ | item) <;> exact .inl h
  | _ => exact .inl h

theorem readings_perform {s : Progress} {db : Database} {op : Op} {answer : Answer} {now : Int}
    (h : now ∈ (conduct.next s op (perform db op answer).1).readings) :
    now ∈ s.readings ∨ now ≤ (perform db op answer).2.clock := by
  refine (readings_next h).imp_right fun heq => ?_
  obtain rfl : op = .clock := congrArg Sigma.fst heq
  have hreply : (perform db .clock answer).1 = now := eq_of_heq (Sigma.mk.inj heq).2
  exact hreply.ge

theorem performed_of_reading {now : Int} (h : now ∈ (w.states conduct start i).readings) :
    now ∈ (start i).readings ∨ w.Performed i .clock now := by
  refine (World.states_cases (P := fun s : Progress => now ∈ s.readings)
    (fun s op reply => readings_next) h).imp_right ?_
  rintro ⟨op, reply, hperformed, heq⟩
  rwa [World.Performed, heq] at hperformed

theorem performed_of_token {token : Text} (h : token ∈ (w.states conduct start i).tokens) :
    token ∈ (start i).tokens ∨ w.Performed i .randomToken token := by
  refine (World.states_cases (P := fun s : Progress => token ∈ s.tokens)
    (fun s op reply => tokens_next) h).imp_right ?_
  rintro ⟨op, reply, hperformed, heq⟩
  rwa [World.Performed, heq] at hperformed

theorem workInvariant (start : ℕ → Progress) :
    Invariant perform conduct start (fun (_ : WorkWorld) _ => True) (WorkInvariant start) where
  replies w i answer op next h _ hthread hallowed := by
    cases op with
    | findWork filter sort limit =>
      simp only [perform, performAt, Answer.available]
      split
      · trivial
      · intro work hwork
        obtain ⟨⟨id, hget⟩, hfilter⟩ := Collection.get?_of_find hwork
        exact ⟨(h.items id work hget).2, h.knows i hget, hfilter⟩
    | findOneWork filter sort =>
      simp only [perform, performAt, Answer.available]
      split
      · trivial
      · cases hfound : Collection.findOne w.store.workItems filter sort with
        | none => trivial
        | some work =>
          obtain ⟨id, hget, hfilter⟩ := Collection.findOne_some hfound
          exact ⟨(h.items id work hget).2, h.knows i hget, hfilter⟩
    | updateWork filter sort update =>
      rcases perform_updateWork w.store filter sort update answer with
        ⟨-, hreply⟩ | ⟨id, work, hget, hfilter, hresult⟩
      · revert hreply
        generalize (perform w.store (.updateWork filter sort update) answer).1 = reply
        intro hreply
        rcases reply with e | (_ | item)
        · trivial
        · trivial
        · exact (hreply item rfl).elim
      · rw [hresult]
        exact ⟨_, work, (h.items id work hget).2, h.knows i hget, hfilter, rfl⟩
    | findInvocations filter sort limit =>
      simp only [perform, performAt, Answer.available]
      split
      · trivial
      · exact fun invocation hmem => (Collection.get?_of_find hmem).2
    | findOneInvocation filter =>
      simp only [perform, performAt, Answer.available]
      split
      · trivial
      · cases hfound : Collection.findOne w.store.invocations filter unordered with
        | none => trivial
        | some invocation => exact (Collection.findOne_some hfound).choose_spec.2
    | _ => trivial
  keeps w i answer op next h _ hthread hallowed := by
    have hturn := h.itemTurn hallowed answer
    have hstates : (w.turn perform (i, answer)).states conduct start = _ :=
      World.states_turn hthread conduct start answer
    rw [World.turn_perform hthread] at hstates ⊢
    refine ⟨fun id work hget => hturn.items h hget, fun j item hitem => ?_, fun j now hnow => ?_⟩
    · rw [hstates] at hitem
      by_cases hj : j = i
      · subst hj
        rw [Function.update_self] at hitem
        exact hturn.seen h item hitem
      · rw [Function.update_of_ne hj] at hitem
        exact (h.seen j item hitem).onward hturn.onward
    · have hclock : w.store.clock ≤ (perform w.store op answer).2.clock := by
        rw [perform_clock]
        omega
      have hbefore : now ∈ (w.states conduct start j).readings →
          now ∈ (start j).readings ∨ now ≤ (perform w.store op answer).2.clock :=
        fun hmem => (h.readings j now hmem).imp_right fun hle => hle.trans hclock
      rw [hstates] at hnow
      by_cases hj : j = i
      · subst hj
        rw [Function.update_self] at hnow
        exact (readings_perform hnow).elim hbefore .inr
      · rw [Function.update_of_ne hj] at hnow
        exact hbefore hnow

end Invariant

def workStart (env : Env) (options : ℕ → Options) (entries : ℕ → Entry) (clock : Int)
    (invocations : OrderedMap Text Invocation) : WorkWorld :=
  World.initial { clock := clock, invocations := invocations } (callThreads env options entries)

section Runs

variable (env : Env) (options : ℕ → Options) (entries : ℕ → Entry) (clock : Int)
  (invocations : OrderedMap Text Invocation)

abbrev worksAfter (calls : List (ℕ × Answer)) : WorkWorld :=
  after turn (workStart env options entries clock invocations) calls

theorem reached (calls : List (ℕ × Answer)) :
    WorkInvariant (starts options entries)
        (worksAfter env options entries clock invocations calls) ∧
      World.Monitored conduct (starts options entries)
        (fun i t (_ : Checked Result) => starts options entries i ≤ t)
        (worksAfter env options entries clock invocations calls) := by
  refine (workInvariant (starts options entries)).after ?_ (fun i => ?_)
    (guarded_of_forall fun _ _ _ => trivial)
  · exact ⟨fun id work h => (nomatch h), fun i item h => (nomatch h), fun i now h => .inl h⟩
  · exact Async.Follows.mono (program_conducts env (options i) (entries i)) fun t r ht => ht.1

variable {env options entries clock invocations} {calls : List (ℕ × Answer)} {call : ℕ × Answer}
  {id : Text} {work next : WorkItem}

theorem worksAfter_concat : worksAfter env options entries clock invocations (calls ++ [call]) =
    turn (worksAfter env options entries clock invocations calls) call := after_concat call

theorem starts_le (w : WorkWorld) (i : ℕ) :
    starts options entries i ≤ w.states conduct (starts options entries) i := by
  unfold World.states
  generalize w.log = log
  induction log using List.reverseRecOn with
  | nil => exact le_rfl
  | append_singleton log e ih =>
    rw [Monitor.state_concat]
    by_cases hi : e.1 = i
    · subst hi
      rw [Function.update_self]
      exact ih.trans (conduct_upward _ _ _)
    · rw [Function.update_of_ne (Ne.symm hi)]
      exact ih

theorem updated_item {i : ℕ} {answer : Answer} {filter : WorkItem → Bool}
    {sort : DocumentOrder WorkItem} {update : WorkItem → WorkItem}
    {rest : Reply (.updateWork filter sort update) → Program Op Reply (Checked Result)}
    {item : WorkItem}
    (hthread : (worksAfter env options entries clock invocations calls).thread i =
      .perform (.updateWork filter sort update) rest)
    (hreply : (perform (worksAfter env options entries clock invocations calls).store
      (.updateWork filter sort update) answer).1 = .ok (some item)) :
    Versions update ∧ ∃ work now,
      (worksAfter env options entries clock invocations calls).store.workItems.get? item.id =
        some work ∧
      item = touched now update work ∧
      ItemStep ((worksAfter env options entries clock invocations calls).states conduct
        (starts options entries) i) work item ∧
      (worksAfter env options entries clock invocations
        (calls ++ [(i, answer)])).store.workItems.get? item.id = some item := by
  obtain ⟨hinvariant, hmonitored⟩ := reached env options entries clock invocations calls
  have hfollows := hmonitored i
  rw [hthread] at hfollows
  rw [worksAfter_concat, turn, World.turn_perform hthread]
  rcases perform_updateWork _ filter sort update answer with
    ⟨-, hnone⟩ | ⟨id, work, hget, hfilter, hresult⟩
  · exact absurd hreply (hnone item)
  rw [hresult] at hreply ⊢
  obtain rfl := Option.some.inj (Except.ok.inj hreply)
  have hstep := hfollows.1.2
    ((worksAfter env options entries clock invocations calls).store.clock + answer.elapsed) work
    (hinvariant.items id work hget).2 (hinvariant.knows i hget) hfilter
  have hid := hstep.follows.id_eq.trans (hinvariant.items id work hget).1
  refine ⟨hfollows.1.1, work, _, ?_, rfl, hstep, ?_⟩
  · rw [hid]
    exact hget
  · rw [hid]
    exact OrderedMap.get?_set_self _ _ _

theorem clock_turn (w : WorkWorld) (call : ℕ × Answer) :
    w.store.clock ≤ (turn w call).store.clock := by
  rcases World.turn_cases perform w call with ⟨hturn, -⟩ | ⟨op, rest, hthread, hturn⟩
  · rw [turn, hturn]
  · rw [turn, hturn, perform_clock]
    omega

theorem onward_run (before more : List (ℕ × Answer)) :
    (worksAfter env options entries clock invocations before).store.Onward
      (worksAfter env options entries clock invocations (before ++ more)).store := by
  induction more using List.reverseRecOn with
  | nil =>
    rw [List.append_nil]
    exact .of_eq rfl
  | append_singleton more call ih =>
    rw [← List.append_assoc, worksAfter_concat]
    refine ih.trans ?_
    obtain ⟨hinvariant, hmonitored⟩ :=
      reached env options entries clock invocations (before ++ more)
    obtain ⟨i, answer⟩ := call
    rcases World.turn_cases perform _ (i, answer) with ⟨hturn, -⟩ | ⟨op, rest, hthread, hturn⟩
    · rw [turn, hturn]
      exact .of_eq rfl
    · have hfollows := hmonitored i
      rw [hthread] at hfollows
      rw [turn, hturn]
      exact (hinvariant.itemTurn hfollows.1 answer).onward

theorem changed_item
    (hget : (worksAfter env options entries clock invocations calls).store.workItems.get? id =
      some work)
    (hnext : (worksAfter env options entries clock invocations
      (calls ++ [call])).store.workItems.get? id = some next) (hne : next ≠ work) :
    ItemStep ((worksAfter env options entries clock invocations calls).states conduct
      (starts options entries) call.1) work next := by
  obtain ⟨hinvariant, hmonitored⟩ := reached env options entries clock invocations calls
  rw [worksAfter_concat] at hnext
  generalize worksAfter env options entries clock invocations calls = w at *
  obtain ⟨i, answer⟩ := call
  rcases World.turn_cases perform w (i, answer) with ⟨hturn, -⟩ | ⟨op, rest, hthread, hturn⟩
  · rw [turn, hturn] at hnext
    exact absurd (Option.some.inj (hnext.symm.trans hget)) hne
  have hfollows := hmonitored i
  rw [hthread] at hfollows
  rw [turn, hturn] at hnext
  cases hinvariant.itemTurn hfollows.1 answer with
  | quiet same seen => exact absurd (Option.some.inj ((same ▸ hnext).symm.trans hget)) hne
  | updated filter sort update other item hop hother hstep hresult =>
    subst hop
    rw [hresult] at hnext
    by_cases hid : id = other
    · subst hid
      obtain rfl := Option.some.inj (hother.symm.trans hget)
      obtain rfl := Option.some.inj ((OrderedMap.get?_set_self _ _ _).symm.trans hnext)
      exact hstep
    · rw [OrderedMap.get?_set_of_ne _ hid] at hnext
      exact absurd (Option.some.inj (hnext.symm.trans hget)) hne
  | inserted document hop hfree hsound hresult =>
    subst hop
    have hid : id ≠ answer.text := by
      rintro rfl
      exact nomatch hfree.symm.trans hget
    rw [hresult, OrderedMap.get?_set_of_ne _ hid] at hnext
    exact absurd (Option.some.inj (hnext.symm.trans hget)) hne

end Runs

end GhostBridge.DurableWork
