import GhostBridge.RuntimeCapacity.Leases

/-!
# The slots of leases

What stands in every state of a run: the documents are in distinct slots within the limits, and each
is one of a lease whose acquisition claimed it.
-/

namespace GhostBridge.RuntimeCapacity

open Ecma Machine

variable {settings : Settings} {calls : ℕ → Call}

section Effects

variable (store : Store) (answer : Answer)

theorem perform_clock (op : Op) :
    (perform store op answer).2.clock = store.clock + answer.elapsed := by
  cases op with
  | clock => rfl
  | findOneAndUpdate slot now =>
    simp only [perform, performAt, Answer.deliver, Store.upsert]
    split
    · split <;> rfl
    · rfl
    · split <;> rfl
  | deleteMany workspaceId leaseId =>
    simp only [perform, performAt, Answer.deliver]
    split <;> rfl
  | updateMany lease now leaseExpiresAt =>
    simp only [perform, performAt, Answer.deliver]
    split <;> rfl

/-- A claim is refused, or the document is there; then it replaced none that it had to spare. -/
inductive Claimed (store : Store) (slot : Slot) (now : ℕ) (answer : Answer) :
    Except Failure Slot → List Slot → Prop where
  | refused (e : Failure) (hfault : e = .duplicateKey ∨ answer.fault ≠ none) :
      Claimed store slot now answer (.error e) store.slots
  | put (reply : Except Failure Slot)
      (hfree : ∀ held ∈ store.slots, held.clashes slot = true →
        held.leaseExpiresAt ≤ now ∨ held.leaseId = slot.leaseId)
      (hreply : reply = .ok slot ∨ reply = .error .unavailable ∧ answer.fault = some .after) :
      Claimed store slot now answer reply (store.put slot).slots

theorem claimed (slot : Slot) (now : ℕ) :
    Claimed store slot now answer (perform store (.findOneAndUpdate slot now) answer).1
      (perform store (.findOneAndUpdate slot now) answer).2.slots := by
  have hfree (h : ¬store.slots.any (Store.blocks slot now) = true) :
      ∀ held ∈ store.slots, held.clashes slot = true →
        held.leaseExpiresAt ≤ now ∨ held.leaseId = slot.leaseId := by
    intro held hheld hclash
    by_contra hblocked
    refine h (List.any_eq_true.mpr ⟨held, hheld, ?_⟩)
    simp only [Store.blocks, decide_eq_true_eq]
    exact ⟨hclash, hblocked⟩
  simp only [perform, performAt, Answer.deliver, Store.upsert]
  split
  · split
    · exact .refused _ (.inl rfl)
    next h => exact .put _ (hfree h) (.inl rfl)
  next hfault => exact .refused _ (.inr (hfault ▸ Option.some_ne_none _))
  next hfault =>
    split
    · exact .refused _ (.inr (hfault ▸ Option.some_ne_none _))
    next h => exact .put _ (hfree h) (.inr ⟨rfl, hfault⟩)

theorem deleted (workspaceId leaseId : Text) :
    (answer.fault = some .before ∧
        (perform store (.deleteMany workspaceId leaseId) answer).2.slots = store.slots ∧
        ∃ e, (perform store (.deleteMany workspaceId leaseId) answer).1 = .error e) ∨
      answer.fault ≠ some .before ∧
        (perform store (.deleteMany workspaceId leaseId) answer).2.slots =
          store.slots.filter fun s => !Store.isHeldBy workspaceId leaseId s := by
  simp only [perform, performAt, Answer.deliver]
  split
  next hfault =>
    right
    rw [hfault]
    exact ⟨nofun, rfl⟩
  next hfault => exact .inl ⟨hfault, rfl, _, rfl⟩
  next hfault =>
    right
    rw [hfault]
    exact ⟨by decide, rfl⟩

theorem renewed (lease : Lease) (now leaseExpiresAt : ℕ) :
    ((perform store (.updateMany lease now leaseExpiresAt) answer).2.slots = store.slots ∧
        ∃ e, (perform store (.updateMany lease now leaseExpiresAt) answer).1 = .error e) ∨
      (perform store (.updateMany lease now leaseExpiresAt) answer).2.slots =
          (store.extend (Store.isRenewable lease now) leaseExpiresAt).slots ∧
        ∀ matchedCount, (perform store (.updateMany lease now leaseExpiresAt) answer).1 =
          .ok matchedCount → matchedCount = store.slots.countP (Store.isRenewable lease now) := by
  simp only [perform, performAt, Answer.deliver]
  split
  · right
    refine ⟨rfl, fun matchedCount h => ?_⟩
    exact (Except.ok.inj h).symm
  · exact .inl ⟨rfl, _, rfl⟩
  · right
    refine ⟨rfl, fun matchedCount h => ?_⟩
    cases h

end Effects

def progress (settings : Settings) (calls : ℕ → Call) (w : CapacityWorld) : ℕ → Progress :=
  w.states (conduct settings) fun j => { call := calls j }

structure Slot.IsOf (s : Slot) (lease : Lease) : Prop where
  leaseId : s.leaseId = lease.leaseId
  invocationId : s.invocationId = lease.invocationId
  scope : s.scope = lease.scope s.scope.scopeType

structure Standing (settings : Settings) (calls : ℕ → Call) (w : CapacityWorld) : Prop where
  index : w.store.slots.Pairwise fun a b => a.clashes b = false
  numbers : ∀ s ∈ w.store.slots,
    1 ≤ s.slotNumber ∧ s.slotNumber ≤ settings.limit s.scope.scopeType
  /-- A lease has no two documents in scopes of one type. -/
  once : w.store.slots.Pairwise fun a b =>
    a.leaseId = b.leaseId → a.scope.scopeType ≠ b.scope.scopeType
  clock : ∀ i now, (progress settings calls w i).now = some now → now ≤ w.store.clock
  /-- A document was claimed, or was stored where the database failed. -/
  owned : ∀ s ∈ w.store.slots, ∃ i lease, (calls i).IsFor lease ∧ s.IsOf lease ∧
    (s.scope.scopeType ∈ (progress settings calls w i).claimed ∨
      ¬(progress settings calls w i).Sound)
  /-- Between the two claims, the slot of the workspace is there, or the lease has expired. -/
  between : ∀ i lease now, (calls i).IsFor lease →
    (progress settings calls w i).claimed = [.workspace] →
    (progress settings calls w i).Sound → (progress settings calls w i).now = some now →
    (∃ s ∈ w.store.slots, s.IsOf lease ∧ s.scope.scopeType = .workspace ∧
        s.leaseExpiresAt = now + settings.executionLeaseMs) ∨
      now + settings.executionLeaseMs ≤ w.store.clock

abbrev Conducted (settings : Settings) (calls : ℕ → Call) (w : CapacityWorld) : Prop :=
  w.Monitored (conduct settings) (fun j => { call := calls j }) fun _ t r => t.Ends settings r

theorem next_call (s : Progress) (op : Op) (reply : Reply op) :
    (s.next op reply).call = s.call := by
  cases op with
  | clock => rfl
  | findOneAndUpdate slot now =>
    rcases reply with e | slot
    · cases e <;> rfl
    · rfl
  | deleteMany workspaceId leaseId => cases reply <;> rfl
  | updateMany lease now leaseExpiresAt => cases reply <;> rfl

theorem mem_next {s : Progress} {scopeType : ScopeType} (op : Op) (reply : Reply op)
    (h : scopeType ∈ s.claimed) : scopeType ∈ (s.next op reply).claimed := by
  cases op with
  | clock => exact h
  | findOneAndUpdate slot now =>
    rcases reply with e | slot
    · cases e <;> exact h
    · exact List.mem_cons_of_mem _ h
  | deleteMany workspaceId leaseId => cases reply <;> exact h
  | updateMany lease now leaseExpiresAt => cases reply <;> exact h

theorem sound_of_next {s : Progress} {op : Op} {reply : Reply op} (h : (s.next op reply).Sound) :
    s.Sound := by
  cases op with
  | clock => exact h
  | findOneAndUpdate slot now =>
    rcases reply with e | slot
    · cases e with
      | duplicateKey => exact h
      | _ => cases h.2
    · exact h
  | deleteMany workspaceId leaseId =>
    cases reply with
    | ok count => cases h.1
    | error e => cases h.2
  | updateMany lease now leaseExpiresAt =>
    cases reply with
    | ok count => exact h
    | error e => cases h.2

def Op.leaseId? : Op → Option Text
  | .clock => none
  | .findOneAndUpdate slot _ => some slot.leaseId
  | .deleteMany _ leaseId => some leaseId
  | .updateMany lease _ _ => some lease.leaseId

theorem now_of_next {s : Progress} {op : Op} {reply : Reply op} {now : ℕ}
    (hop : op.leaseId? ≠ none) (h : (s.next op reply).now = some now) : s.now = some now := by
  cases op with
  | clock => exact absurd rfl hop
  | findOneAndUpdate slot time =>
    rcases reply with e | slot
    · cases e <;> exact h
    · exact h
  | deleteMany workspaceId leaseId => cases reply <;> exact h
  | updateMany lease time leaseExpiresAt => cases reply <;> exact h

section Turn

variable {w : CapacityWorld} {i : ℕ} {op : Op}
  {next : Reply op → Program Op Reply (Except Failure Outcome)}

theorem progress_call (w : CapacityWorld) (i : ℕ) : (progress settings calls w i).call = calls i := by
  by_contra hne
  have hkept : ∀ (s : Progress) (op : Op) (reply : Reply op),
      (s.next op reply).call ≠ calls i → s.call ≠ calls i ∨ False := by
    intro s op reply h
    rw [next_call] at h
    exact .inl h
  rcases World.states_cases (P := fun t : Progress => t.call ≠ calls i) (Q := fun _ _ => False)
    (m := conduct settings) hkept hne with hstart | ⟨_, _, _, hfalse⟩
  · exact hstart rfl
  · exact hfalse

theorem progress_turn (hthread : w.thread i = .perform op next) (answer : Answer) (j : ℕ) :
    progress settings calls (w.turn perform (i, answer)) j =
      if j = i then (progress settings calls w i).next op (perform w.store op answer).1
      else progress settings calls w j := by
  unfold progress
  rw [World.states_turn hthread, Function.update_apply]
  rfl

theorem store_turn (hthread : w.thread i = .perform op next) (answer : Answer) :
    (w.turn perform (i, answer)).store = (perform w.store op answer).2 := by
  rw [World.turn_perform hthread]

end Turn

/-- Documents were deleted, and the others are as they were but for their expiry. -/
def Kept (slots slots' : List Slot) : Prop :=
  ∃ (p : Slot → Bool) (f : Slot → Slot),
    (∀ s, f s = { s with leaseExpiresAt := (f s).leaseExpiresAt }) ∧ slots' = (slots.filter p).map f

theorem Kept.refl (slots : List Slot) : Kept slots slots :=
  ⟨fun _ => true, id, fun _ => rfl, by simp⟩

theorem Kept.filter (slots : List Slot) (p : Slot → Bool) : Kept slots (slots.filter p) :=
  ⟨p, id, fun _ => rfl, by simp⟩

theorem Kept.extend (store : Store) (filter : Slot → Bool) (leaseExpiresAt : ℕ) :
    Kept store.slots (store.extend filter leaseExpiresAt).slots := by
  refine ⟨fun _ => true, fun s => if filter s then { s with leaseExpiresAt := leaseExpiresAt } else s,
    ?_, ?_⟩
  · intro s
    dsimp only
    split <;> rfl
  · rw [List.filter_true]
    rfl

theorem Kept.mem {slots slots' : List Slot} (h : Kept slots slots') {s : Slot} (hs : s ∈ slots') :
    ∃ stored ∈ slots, s = { stored with leaseExpiresAt := s.leaseExpiresAt } := by
  obtain ⟨p, f, hf, rfl⟩ := h
  obtain ⟨stored, hstored, rfl⟩ := List.mem_map.mp hs
  exact ⟨stored, (List.mem_filter.mp hstored).1, hf stored⟩

theorem Kept.pairwise {slots slots' : List Slot} {R : Slot → Slot → Prop} (h : Kept slots slots')
    (hR : ∀ a b x y, R a b → R { a with leaseExpiresAt := x } { b with leaseExpiresAt := y })
    (hslots : slots.Pairwise R) : slots'.Pairwise R := by
  obtain ⟨p, f, hf, rfl⟩ := h
  rw [List.pairwise_map]
  refine (hslots.filter p).imp fun {a b} hab => ?_
  rw [hf a, hf b]
  exact hR a b _ _ hab

theorem slots_performed (store : Store) (op : Op) (answer : Answer) :
    Kept store.slots (perform store op answer).2.slots ∨
      ∃ slot now, op = .findOneAndUpdate slot now ∧
        (perform store op answer).2.slots = (store.put slot).slots ∧
        ((perform store (.findOneAndUpdate slot now) answer).1 = .ok slot ∨
          (perform store (.findOneAndUpdate slot now) answer).1 = .error .unavailable ∧
            answer.fault = some .after) := by
  cases op with
  | clock => exact .inl (Kept.refl _)
  | findOneAndUpdate slot now =>
    have hclaimed := claimed store answer slot now
    generalize hreply : (perform store (.findOneAndUpdate slot now) answer).1 = reply at hclaimed
    generalize (perform store (.findOneAndUpdate slot now) answer).2.slots = slots at hclaimed
    cases hclaimed with
    | refused e hfault => exact .inl (Kept.refl _)
    | put reply hfree hcase =>
      rw [← hreply] at hcase
      exact .inr ⟨slot, now, rfl, rfl, hcase⟩
  | deleteMany workspaceId leaseId =>
    left
    rcases deleted store answer workspaceId leaseId with ⟨-, hslots, -⟩ | ⟨-, hslots⟩
    · rw [hslots]
      exact Kept.refl _
    · rw [hslots]
      exact Kept.filter _ _
  | updateMany lease now leaseExpiresAt =>
    left
    rcases renewed store answer lease now leaseExpiresAt with ⟨hslots, -⟩ | ⟨hslots, -⟩
    · rw [hslots]
      exact Kept.refl _
    · rw [hslots]
      exact Kept.extend _ _ _

theorem Call.IsFor.unique {call : Call} {lease lease' : Lease} (h : call.IsFor lease)
    (h' : call.IsFor lease') : lease' = { lease with leaseExpiresAt := lease'.leaseExpiresAt } := by
  unfold IsFor at h h'
  rw [h] at h'
  injection h' with _ hconnection hinvocation hlease
  injection hconnection with hid hworkspace
  cases lease
  cases lease'
  simp_all

theorem Slot.IsOf.congr {s : Slot} {lease lease' : Lease} (h : s.IsOf lease)
    (hsame : lease' = { lease with leaseExpiresAt := lease'.leaseExpiresAt }) : s.IsOf lease' := by
  rw [hsame]
  refine ⟨h.leaseId, h.invocationId, h.scope.trans ?_⟩
  cases s.scope.scopeType <;> rfl

theorem Slot.IsOf.extended {s : Slot} {lease : Lease} (h : s.IsOf lease) (leaseExpiresAt : ℕ) :
    ({ s with leaseExpiresAt := leaseExpiresAt } : Slot).IsOf lease :=
  ⟨h.leaseId, h.invocationId, h.scope⟩

theorem Slot.isOf_slot (lease : Lease) (scopeType : ScopeType) (slotNumber now : ℕ) :
    (lease.slot (lease.scope scopeType) slotNumber now).IsOf lease := by
  refine ⟨rfl, rfl, ?_⟩
  change lease.scope scopeType = lease.scope (lease.scope scopeType).scopeType
  rw [Lease.scope_scopeType]

theorem Standing.owner {w : CapacityWorld} (h : Standing settings calls w)
    (hdistinct : DistinctLeases calls) {s : Slot} (hs : s ∈ w.store.slots) {i : ℕ} {lease : Lease}
    (hfor : (calls i).IsFor lease) (hid : s.leaseId = lease.leaseId) :
    s.IsOf lease ∧ (s.scope.scopeType ∈ (progress settings calls w i).claimed ∨
      ¬(progress settings calls w i).Sound) := by
  obtain ⟨j, lease', hfor', hof, hclaimed⟩ := h.owned s hs
  have hsame : lease'.leaseId = lease.leaseId := hof.leaseId.symm.trans hid
  obtain rfl : j = i := hdistinct j i lease.leaseId (hsame ▸ hfor'.leaseId?) hfor.leaseId?
  exact ⟨hof.congr (hfor'.unique hfor), hclaimed⟩

section Turn

variable {w : CapacityWorld} {i : ℕ} {op : Op} {answer : Answer}
  {next : Reply op → Program Op Reply (Except Failure Outcome)}

theorem allowed_of_thread (hconducted : Conducted settings calls w)
    (hthread : w.thread i = .perform op next) :
    (progress settings calls w i).allowed settings op := by
  have hfollows := hconducted i
  rw [hthread] at hfollows
  exact hfollows.1

theorem ends_of_ended (hconducted : Conducted settings calls w) {result : Except Failure Outcome}
    (hended : w.Ended i result) : (progress settings calls w i).Ends settings result := by
  have hends := hconducted i
  rw [hended] at hends
  exact hends

structure Returned (settings : Settings) (calls : ℕ → Call) (w : CapacityWorld) (k : ℕ)
    (lease : Lease) : Prop where
  ended : ∃ leaseExpiresAt, w.Ended k
    (.ok (.acquired (.leased { lease with leaseExpiresAt := leaseExpiresAt })))
  isFor : (calls k).IsFor lease
  claimed : (progress settings calls w k).claimed = [.connection, .workspace]

theorem returned_of_given (hconducted : Conducted settings calls w)
    (hissued : Issued calls w (i, answer)) {given : Lease} (hgiven : (calls i).given = some given) :
    ∃ k, Returned settings calls w k given := by
  obtain ⟨k, leaseExpiresAt, hended⟩ := hissued given hgiven
  obtain ⟨hfor, hclaimed, -⟩ := ends_of_ended hconducted hended
  rw [progress_call] at hfor
  exact ⟨k, ⟨leaseExpiresAt, hended⟩, hfor, hclaimed⟩

theorem actor (hdistinct : DistinctLeases calls) (hconducted : Conducted settings calls w)
    (hissued : Issued calls w (i, answer)) (hthread : w.thread i = .perform op next) {k : ℕ}
    {lease : Lease} (hfor : (calls k).IsFor lease) (hid : op.leaseId? = some lease.leaseId) :
    i = k ∨ ∃ given, (calls i).given = some given ∧ given.leaseId = lease.leaseId ∧
      Returned settings calls w k given := by
  have hallowed := allowed_of_thread hconducted hthread
  have hcall : (progress settings calls w i).call = calls i := progress_call w i
  have hacquires {lease' : Lease} (hfor' : (progress settings calls w i).call.IsFor lease')
      (hsame : lease'.leaseId = lease.leaseId) : i = k := by
    rw [hcall] at hfor'
    exact hdistinct i k lease.leaseId (hsame ▸ hfor'.leaseId?) hfor.leaseId?
  have hgives {given : Lease} (hgiven : (calls i).given = some given)
      (hsame : given.leaseId = lease.leaseId) : ∃ given, (calls i).given = some given ∧
      given.leaseId = lease.leaseId ∧ Returned settings calls w k given := by
    obtain ⟨k', hreturned⟩ := returned_of_given hconducted hissued hgiven
    obtain rfl : k' = k :=
      hdistinct k' k lease.leaseId (hsame ▸ hreturned.isFor.leaseId?) hfor.leaseId?
    exact ⟨given, hgiven, hsame, hreturned⟩
  cases op with
  | clock => cases hid
  | findOneAndUpdate slot now =>
    obtain ⟨lease', scopeType, slotNumber, hclaims⟩ := hallowed
    have hsame : lease'.leaseId = lease.leaseId := by
      have hslot := Option.some.inj hid
      rw [hclaims.slot_eq] at hslot
      exact hslot
    exact .inl (hacquires hclaims.ready.isFor hsame)
  | deleteMany workspaceId leaseId =>
    obtain ⟨lease', -, hlease, hcase⟩ := hallowed
    have hsame : lease'.leaseId = lease.leaseId := hlease.trans (Option.some.inj hid)
    rcases hcase with ⟨hfor', -⟩ | hrelease
    · exact .inl (hacquires hfor' hsame)
    · rw [hcall] at hrelease
      exact .inr (hgives (by rw [hrelease]; rfl) hsame)
  | updateMany lease' now leaseExpiresAt =>
    obtain ⟨-, -, leaseDurationMs, hrenew, -⟩ := hallowed
    rw [hcall] at hrenew
    exact .inr (hgives (by rw [hrenew]; rfl) (Option.some.inj hid))

/-- An operation that is about another lease spares a document, or puts its own in the slot of one
that has expired. -/
theorem Standing.spares (h : Standing settings calls w) (hconducted : Conducted settings calls w)
    (hthread : w.thread i = .perform op next) {s : Slot} (hs : s ∈ w.store.slots)
    (hid : op.leaseId? ≠ some s.leaseId) :
    s ∈ (w.turn perform (i, answer)).store.slots ∨
      s.leaseExpiresAt ≤ (w.turn perform (i, answer)).store.clock ∧
        ∃ slot now, op = .findOneAndUpdate slot now ∧ s.clashes slot = true := by
  have hallowed := allowed_of_thread hconducted hthread
  rw [store_turn hthread]
  cases op with
  | clock => exact .inl hs
  | findOneAndUpdate slot now =>
    obtain ⟨lease', scopeType, slotNumber, hclaims⟩ := hallowed
    have hclock : now ≤ (perform w.store (.findOneAndUpdate slot now) answer).2.clock := by
      rw [perform_clock]
      exact (h.clock i now hclaims.ready.read).trans (Nat.le_add_right _ _)
    have hclaimed := claimed w.store answer slot now
    generalize (perform w.store (.findOneAndUpdate slot now) answer).1 = reply at hclaimed
    generalize (perform w.store (.findOneAndUpdate slot now) answer).2.slots = slots
      at hclaimed ⊢
    cases hclaimed with
    | refused e hfault => exact .inl hs
    | put reply hfree hreply =>
      by_cases hclash : s.clashes slot = true
      · rcases hfree s hs hclash with hexpired | hown
        · exact .inr ⟨hexpired.trans hclock, slot, now, rfl, hclash⟩
        · exact absurd (congrArg some hown.symm) hid
      · left
        refine List.mem_append_left _ (List.mem_filter.mpr ⟨hs, ?_⟩)
        rw [Bool.not_eq_true']
        exact Bool.not_eq_true _ ▸ hclash
  | deleteMany workspaceId leaseId =>
    left
    rcases deleted w.store answer workspaceId leaseId with ⟨-, hslots, -⟩ | ⟨-, hslots⟩
    · rw [hslots]
      exact hs
    · rw [hslots]
      refine List.mem_filter.mpr ⟨hs, ?_⟩
      simp only [Store.isHeldBy, Bool.not_eq_true', decide_eq_false_iff_not]
      exact fun hheld => hid (congrArg some hheld.2.symm)
  | updateMany lease now leaseExpiresAt =>
    left
    rcases renewed w.store answer lease now leaseExpiresAt with ⟨hslots, -⟩ | ⟨hslots, -⟩
    · rw [hslots]
      exact hs
    · rw [hslots]
      refine List.mem_map.mpr ⟨s, hs, if_neg ?_⟩
      simp only [Store.isRenewable, decide_eq_true_eq]
      exact fun hrenewable => hid (congrArg some hrenewable.2.2.1.symm)

theorem Standing.fresh (h : Standing settings calls w) (hdistinct : DistinctLeases calls)
    {lease : Lease} {slot : Slot} {now slotNumber : ℕ} {scopeType : ScopeType}
    (hclaims : (progress settings calls w i).Claims settings lease slot now scopeType slotNumber)
    {s : Slot} (hs : s ∈ w.store.slots) (hid : s.leaseId = slot.leaseId) :
    s.scope.scopeType ≠ slot.scope.scopeType := by
  have hfor := hclaims.ready.isFor
  rw [progress_call] at hfor
  have hscope : slot.scope.scopeType = scopeType := by
    rw [hclaims.slot_eq]
    exact lease.scope_scopeType scopeType
  have hlease : s.leaseId = lease.leaseId := by
    rw [hid, hclaims.slot_eq]
    rfl
  obtain ⟨-, hclaimed⟩ := h.owner hdistinct hs hfor hlease
  rw [hscope]
  rintro rfl
  rcases hclaimed with hmem | hunsound
  · rw [hclaims.ready.claimed] at hmem
    revert hmem
    cases s.scope.scopeType <;> decide
  · exact hunsound hclaims.ready.sound

theorem Standing.index_turn (h : Standing settings calls w)
    (hthread : w.thread i = .perform op next) :
    (w.turn perform (i, answer)).store.slots.Pairwise fun a b => a.clashes b = false := by
  rw [store_turn hthread]
  rcases slots_performed w.store op answer with hkept | ⟨slot, now, -, hslots, -⟩
  · exact hkept.pairwise (fun _ _ _ _ hab => hab) h.index
  · rw [hslots, Store.put, List.pairwise_append]
    refine ⟨h.index.filter _, List.pairwise_singleton _ _, ?_⟩
    intro a ha b hb
    obtain rfl := List.mem_singleton.mp hb
    simpa using (List.mem_filter.mp ha).2

theorem Standing.numbers_turn (h : Standing settings calls w)
    (hconducted : Conducted settings calls w) (hthread : w.thread i = .perform op next) :
    ∀ s ∈ (w.turn perform (i, answer)).store.slots,
      1 ≤ s.slotNumber ∧ s.slotNumber ≤ settings.limit s.scope.scopeType := by
  have hallowed := allowed_of_thread hconducted hthread
  rw [store_turn hthread]
  intro s hs
  rcases slots_performed w.store op answer with hkept | ⟨slot, now, rfl, hslots, hreply⟩
  · obtain ⟨stored, hstored, hsame⟩ := hkept.mem hs
    rw [hsame]
    exact h.numbers stored hstored
  · rw [hslots] at hs
    rcases List.mem_append.mp hs with hold | hnew
    · exact h.numbers s (List.mem_filter.mp hold).1
    · obtain rfl := List.mem_singleton.mp hnew
      obtain ⟨lease, scopeType, slotNumber, hclaims⟩ := hallowed
      rw [hclaims.slot_eq]
      refine ⟨hclaims.first, ?_⟩
      change slotNumber ≤ settings.limit (lease.scope scopeType).scopeType
      rw [Lease.scope_scopeType]
      exact hclaims.last

theorem Standing.once_turn (h : Standing settings calls w) (hdistinct : DistinctLeases calls)
    (hconducted : Conducted settings calls w) (hthread : w.thread i = .perform op next) :
    (w.turn perform (i, answer)).store.slots.Pairwise fun a b =>
      a.leaseId = b.leaseId → a.scope.scopeType ≠ b.scope.scopeType := by
  have hallowed := allowed_of_thread hconducted hthread
  rw [store_turn hthread]
  rcases slots_performed w.store op answer with hkept | ⟨slot, now, rfl, hslots, hreply⟩
  · exact hkept.pairwise (fun _ _ _ _ hab => hab) h.once
  · obtain ⟨lease, scopeType, slotNumber, hclaims⟩ := hallowed
    rw [hslots, Store.put, List.pairwise_append]
    refine ⟨h.once.filter _, List.pairwise_singleton _ _, ?_⟩
    intro a ha b hb
    obtain rfl := List.mem_singleton.mp hb
    exact h.fresh hdistinct hclaims (List.mem_filter.mp ha).1

theorem Standing.clock_turn (h : Standing settings calls w)
    (hthread : w.thread i = .perform op next) {j now : ℕ}
    (hnow : (progress settings calls (w.turn perform (i, answer)) j).now = some now) :
    now ≤ (w.turn perform (i, answer)).store.clock := by
  rw [progress_turn hthread] at hnow
  rw [store_turn hthread, perform_clock]
  have hearlier {k : ℕ} (hk : (progress settings calls w k).now = some now) :
      now ≤ w.store.clock + answer.elapsed := (h.clock k now hk).trans (Nat.le_add_right _ _)
  split at hnow
  · cases op with
    | clock => exact (Option.some.inj hnow).symm.le
    | _ =>
      refine hearlier (now_of_next ?_ hnow)
      exact Option.some_ne_none _
  · exact hearlier hnow

theorem claimed_turn (hthread : w.thread i = .perform op next) {j : ℕ} {scopeType : ScopeType}
    (h : scopeType ∈ (progress settings calls w j).claimed ∨ ¬(progress settings calls w j).Sound) :
    scopeType ∈ (progress settings calls (w.turn perform (i, answer)) j).claimed ∨
      ¬(progress settings calls (w.turn perform (i, answer)) j).Sound := by
  rw [progress_turn hthread]
  split
  next hj =>
    subst hj
    exact h.imp (mem_next _ _) fun hunsound hsound => hunsound (sound_of_next hsound)
  · exact h

theorem Standing.owned_turn (h : Standing settings calls w)
    (hconducted : Conducted settings calls w) (hthread : w.thread i = .perform op next) :
    ∀ s ∈ (w.turn perform (i, answer)).store.slots, ∃ j lease, (calls j).IsFor lease ∧
      s.IsOf lease ∧
      (s.scope.scopeType ∈ (progress settings calls (w.turn perform (i, answer)) j).claimed ∨
        ¬(progress settings calls (w.turn perform (i, answer)) j).Sound) := by
  have hallowed := allowed_of_thread hconducted hthread
  have hearlier {s : Slot} (hs : s ∈ w.store.slots) : ∃ j lease, (calls j).IsFor lease ∧
      s.IsOf lease ∧
      (s.scope.scopeType ∈ (progress settings calls (w.turn perform (i, answer)) j).claimed ∨
        ¬(progress settings calls (w.turn perform (i, answer)) j).Sound) := by
    obtain ⟨j, lease, hfor, hof, hclaimed⟩ := h.owned s hs
    exact ⟨j, lease, hfor, hof, claimed_turn hthread hclaimed⟩
  intro s hs
  rw [store_turn hthread] at hs
  rcases slots_performed w.store op answer with hkept | ⟨slot, now, rfl, hslots, hreply⟩
  · obtain ⟨stored, hstored, hsame⟩ := hkept.mem hs
    obtain ⟨j, lease, hfor, hof, hclaimed⟩ := hearlier hstored
    rw [hsame]
    exact ⟨j, lease, hfor, hof.extended _, hclaimed⟩
  · rw [hslots] at hs
    rcases List.mem_append.mp hs with hold | hnew
    · exact hearlier (List.mem_filter.mp hold).1
    obtain rfl := List.mem_singleton.mp hnew
    obtain ⟨lease, scopeType, slotNumber, hclaims⟩ := hallowed
    have hfor := hclaims.ready.isFor
    rw [progress_call] at hfor
    refine ⟨i, lease, hfor, hclaims.slot_eq ▸ Slot.isOf_slot _ _ _ _, ?_⟩
    rw [progress_turn hthread, if_pos rfl]
    rcases hreply with hok | ⟨hfailed, -⟩
    · rw [hok]
      exact .inl List.mem_cons_self
    · rw [hfailed]
      right
      intro hsound
      cases hsound.2

theorem Standing.between_turn (h : Standing settings calls w) (hdistinct : DistinctLeases calls)
    (hconducted : Conducted settings calls w) (hissued : Issued calls w (i, answer))
    (hthread : w.thread i = .perform op next) {j : ℕ} {lease : Lease} {now : ℕ}
    (hfor : (calls j).IsFor lease)
    (hclaimed : (progress settings calls (w.turn perform (i, answer)) j).claimed = [.workspace])
    (hsound : (progress settings calls (w.turn perform (i, answer)) j).Sound)
    (hnow : (progress settings calls (w.turn perform (i, answer)) j).now = some now) :
    (∃ s ∈ (w.turn perform (i, answer)).store.slots, s.IsOf lease ∧
        s.scope.scopeType = .workspace ∧ s.leaseExpiresAt = now + settings.executionLeaseMs) ∨
      now + settings.executionLeaseMs ≤ (w.turn perform (i, answer)).store.clock := by
  have hallowed := allowed_of_thread hconducted hthread
  have hclock : w.store.clock ≤ (w.turn perform (i, answer)).store.clock := by
    rw [store_turn hthread, perform_clock]
    exact Nat.le_add_right _ _
  rw [progress_turn hthread] at hclaimed hsound hnow
  by_cases hj : j = i
  · -- The operation has just claimed the slot of the workspace.
    subst hj
    rw [if_pos rfl] at hclaimed hsound hnow
    cases op with
    | clock =>
      have hnone : (progress settings calls w j).claimed = [] := hallowed.2
      have hsame : (progress settings calls w j).claimed = [.workspace] := hclaimed
      rw [hnone] at hsame
      cases hsame
    | findOneAndUpdate slot time =>
      obtain ⟨lease', scopeType, slotNumber, hclaims⟩ := hallowed
      rw [store_turn hthread] at hclock ⊢
      have hclaim := claimed w.store answer slot time
      generalize (perform w.store (.findOneAndUpdate slot time) answer).1 = reply
        at hclaim hclaimed hsound hnow
      generalize (perform w.store (.findOneAndUpdate slot time) answer).2.slots = slots at hclaim ⊢
      cases hclaim with
      | refused e hfault =>
        cases e with
        | duplicateKey =>
          exact (h.between j lease now hfor hclaimed hsound hnow).imp_right hclock.trans'
        | _ => cases hsound.2
      | put reply hfree hreply =>
        rcases hreply with rfl | ⟨rfl, -⟩
        · left
          refine ⟨slot, List.mem_append_right _ (List.mem_singleton_self _), ?_, ?_, ?_⟩
          · have hfor' := hclaims.ready.isFor
            rw [progress_call] at hfor'
            rw [hclaims.slot_eq]
            exact (Slot.isOf_slot _ _ _ _).congr (hfor'.unique hfor)
          · exact (List.cons.inj hclaimed).1
          · have htime : time = now := Option.some.inj (hclaims.ready.read.symm.trans hnow)
            rw [hclaims.slot_eq, ← htime]
            exact hclaims.ready.expires
        · cases hsound.2
    | deleteMany workspaceId leaseId =>
      generalize (perform w.store (.deleteMany workspaceId leaseId) answer).1 = reply at hsound
      cases reply with
      | ok count => cases hsound.1
      | error e => cases hsound.2
    | updateMany lease' time leaseExpiresAt =>
      obtain ⟨-, -, leaseDurationMs, hrenew, -⟩ := hallowed
      rw [progress_call, hfor] at hrenew
      cases hrenew
  · rw [if_neg hj] at hclaimed hsound hnow
    rcases h.between j lease now hfor hclaimed hsound hnow with
      ⟨s, hs, hof, hscope, hexpires⟩ | hexpired
    · have hid : op.leaseId? ≠ some s.leaseId := by
        rw [hof.leaseId]
        intro hid
        rcases actor hdistinct hconducted hissued hthread hfor hid with
          hi | ⟨given, -, -, hreturned⟩
        · exact hj hi.symm
        · rw [hreturned.claimed] at hclaimed
          cases hclaimed
      rcases h.spares hconducted hthread hs hid with hspared | ⟨hexpired, -⟩
      · exact .inl ⟨s, hspared, hof, hscope, hexpires⟩
      · exact .inr (hexpires ▸ hexpired)
    · exact .inr (hexpired.trans hclock)

theorem Standing.turn (h : Standing settings calls w) (hdistinct : DistinctLeases calls)
    (hconducted : Conducted settings calls w) (hissued : Issued calls w (i, answer))
    (hthread : w.thread i = .perform op next) :
    Standing settings calls (w.turn perform (i, answer)) where
  index := h.index_turn hthread
  numbers := h.numbers_turn hconducted hthread
  once := h.once_turn hdistinct hconducted hthread
  clock _ _ hnow := h.clock_turn hthread hnow
  owned := h.owned_turn hconducted hthread
  between _ _ _ hfor hclaimed hsound hnow :=
    h.between_turn hdistinct hconducted hissued hthread hfor hclaimed hsound hnow

end Turn

variable {clock : ℕ} {turns : List (ℕ × Answer)}

/-- In each turn of an operation on a lease, the lease was returned. -/
def IssuedRun (settings : Settings) (clock : ℕ) (calls : ℕ → Call) (turns : List (ℕ × Answer)) :
    Prop :=
  Guarded (World.turn perform) (Issued calls)
    (.initial ⟨clock, []⟩ fun i => (calls i).program settings) turns

theorem conducted_turn {w : CapacityWorld} (h : Conducted settings calls w) (turn : ℕ × Answer) :
    Conducted settings calls (w.turn perform turn) := by
  have htrivial : Invariant perform (conduct settings) (fun j => { call := calls j })
      (fun _ _ => True) fun _ : CapacityWorld => True :=
    ⟨fun _ _ _ _ _ _ _ _ _ => trivial, fun _ _ _ _ _ _ _ _ _ => trivial⟩
  exact (htrivial.turn trivial h trivial).2

theorem standing_turn {w : CapacityWorld} {turn : ℕ × Answer} (hdistinct : DistinctLeases calls)
    (h : Standing settings calls w) (hconducted : Conducted settings calls w)
    (hissued : Issued calls w turn) : Standing settings calls (w.turn perform turn) := by
  obtain ⟨i, answer⟩ := turn
  rcases World.turn_cases perform w (i, answer) with ⟨hsame, -⟩ | ⟨op, next, hthread, -⟩
  · rw [hsame]
    exact h
  · exact h.turn hdistinct hconducted hissued hthread

theorem standing_initial : Standing settings calls
    (.initial ⟨clock, []⟩ fun i => (calls i).program settings) where
  index := .nil
  numbers _ hs := absurd hs List.not_mem_nil
  once := .nil
  clock _ _ hnow := by cases hnow
  owned _ hs := absurd hs List.not_mem_nil
  between _ _ _ _ hclaimed := by cases hclaimed

theorem standing_after (hdistinct : DistinctLeases calls)
    (hissued : IssuedRun settings clock calls turns) :
    Standing settings calls (capacityWorld settings clock calls turns) ∧
      Conducted settings calls (capacityWorld settings clock calls turns) := by
  refine hissued.after_induction
    (I := fun w => Standing settings calls w ∧ Conducted settings calls w) ?_ ?_
  · exact ⟨standing_initial, fun i => follows_program settings (calls i)⟩
  · rintro w turn ⟨hstanding, hconducted⟩ hturn
    exact ⟨standing_turn hdistinct hstanding hconducted hturn, conducted_turn hconducted turn⟩

end GhostBridge.RuntimeCapacity
