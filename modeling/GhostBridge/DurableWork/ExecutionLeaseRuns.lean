import GhostBridge.DurableWork.ExecutionLeases

/-!
# Leases on executions along runs

In every order of turns: leases exclude each other, a lease that has ended does not come back, and
a call that presents a lease changes nothing unless it has read a time at which the lease was
unexpired.
-/

namespace GhostBridge.DurableWork

open Ecma Machine

abbrev LeaseWorld := World Database Op Reply (Checked Unit)

def leasesAfter (executors : ℕ → LeaseCall) (clock : Int) (invocations : OrderedMap Text Invocation)
    (calls : List (ℕ × Answer)) : LeaseWorld :=
  after (World.turn perform)
    (.initial { clock := clock, invocations := invocations } fun i => (executors i).program) calls

def leaseStarts (executors : ℕ → LeaseCall) (i : ℕ) : LeaseProgress := { call := executors i }

def leaseProgress (executors : ℕ → LeaseCall) (w : LeaseWorld) : ℕ → LeaseProgress :=
  w.states leaseConduct (leaseStarts executors)

def BringsLease (executors : ℕ → LeaseCall) (w : LeaseWorld) (i : ℕ) (leaseId : Text) : Prop :=
  (executors i).leaseId = some leaseId ∨ w.Performed i .randomUUID leaseId

/-- Every call brings leases of its own, which no invocation carries at the start. -/
structure FreshLeases (executors : ℕ → LeaseCall) (invocations : OrderedMap Text Invocation)
    (w : LeaseWorld) : Prop where
  distinct : ∀ i j leaseId, BringsLease executors w i leaseId → BringsLease executors w j leaseId →
    i = j
  new : ∀ i leaseId id invocation, BringsLease executors w i leaseId →
    invocations.get? id = some invocation → invocation.executionLeaseId ≠ some leaseId

section Turn

variable {executors : ℕ → LeaseCall} {w : LeaseWorld} {i : ℕ}

private theorem perform_lease_update (db : Database) (filter : Invocation → Bool)
    (update : Invocation → Invocation) (answer : Answer) :
    (perform db (.updateInvocation filter update) answer).2.invocations = db.invocations ∨
    ∃ id invocation, db.invocations.get? id = some invocation ∧ filter invocation = true ∧
      (perform db (.updateInvocation filter update) answer).2.invocations =
        db.invocations.set id (update invocation) ∧
      (perform db (.updateInvocation filter update) answer).1 =
        Except.ok (some (update invocation)) := by
  simp only [perform, performAt, Answer.available]
  split
  · exact .inl rfl
  · simp only [updateInvocation]
    rcases Collection.findOneAndUpdate_cases db.invocations filter unordered update with
      ⟨h, -⟩ | ⟨id, invocation, hget, hfilter, h⟩
    · rw [h]
      exact .inl rfl
    · rw [h]
      exact .inr ⟨id, invocation, hget, hfilter, rfl, rfl⟩

theorem lease_turn {op : Op} {rest : Reply op → Program Op Reply (Checked Unit)}
    (hthread : w.thread i = .perform op rest) (answer : Answer)
    (hallowed : leaseConduct.allowed (leaseProgress executors w i) op) :
    (w.turn perform (i, answer)).store.invocations = w.store.invocations ∨
    ∃ id invocation next, w.store.invocations.get? id = some invocation ∧
      LeaseStep (leaseProgress executors w i) invocation next ∧
      (leaseProgress executors w i).updated = false ∧
      (leaseProgress executors (w.turn perform (i, answer)) i).updated = true ∧
      (w.turn perform (i, answer)).store.invocations = w.store.invocations.set id next := by
  have hstates : leaseProgress executors (w.turn perform (i, answer)) = Function.update
      (leaseProgress executors w) i
      (leaseConduct.next (leaseProgress executors w i) op (perform w.store op answer).1) :=
    World.states_turn hthread leaseConduct (leaseStarts executors) answer
  rw [hstates, World.turn_perform hthread]
  cases op with
  | updateInvocation filter update =>
    refine (perform_lease_update w.store filter update answer).imp_right ?_
    rintro ⟨id, invocation, hget, hfilter, hstore, hreply⟩
    refine ⟨id, invocation, _, hget, hallowed.2 invocation hfilter, hallowed.1, ?_, hstore⟩
    rw [Function.update_self, hreply]
    rfl
  | _ => exact .inl (perform_invocations (by exact nofun) _ _)

def Leasing (executors : ℕ → LeaseCall) (w : LeaseWorld) : Prop :=
  w.Monitored leaseConduct (leaseStarts executors) fun i t r =>
    leaseStarts executors i ≤ t ∧ ∀ a, r = Except.ok a → True

theorem clock_lease_turn (w : LeaseWorld) (call : ℕ × Answer) :
    w.store.clock ≤ (w.turn perform call).store.clock := by
  rcases World.turn_cases perform w call with ⟨hturn, -⟩ | ⟨op, rest, -, hturn⟩
  · rw [hturn]
  · rw [hturn, perform_clock]
    omega

theorem Leasing.turn (h : Leasing executors w) (call : ℕ × Answer) :
    Leasing executors (w.turn perform call) :=
  have hinvariant : Invariant perform leaseConduct (leaseStarts executors)
      (fun _ _ => True) (fun _ => True) :=
    ⟨fun _ _ _ _ _ _ _ _ _ => trivial, fun _ _ _ _ _ _ _ _ _ => trivial⟩
  (hinvariant.turn trivial h trivial).2

theorem Leasing.step (h : Leasing executors w) (call : ℕ × Answer) {id : Text}
    {invocation : Invocation} (hget : w.store.invocations.get? id = some invocation) :
    ∃ next, (w.turn perform call).store.invocations.get? id = some next ∧
      (next = invocation ∨ LeaseStep (leaseProgress executors w call.1) invocation next ∧
        (leaseProgress executors w call.1).updated = false ∧
        (leaseProgress executors (w.turn perform call) call.1).updated = true) := by
  rcases World.turn_cases perform w call with ⟨hturn, -⟩ | ⟨op, rest, hthread, -⟩
  · exact ⟨invocation, by rw [hturn]; exact hget, .inl rfl⟩
  have hfollows := h call.1
  rw [hthread] at hfollows
  rcases lease_turn hthread call.2 hfollows.1 with
    hsame | ⟨other, found, next, hother, hstep, hbefore, hafter, hstore⟩
  · exact ⟨invocation, by rw [hsame]; exact hget, .inl rfl⟩
  · change (w.turn perform call).store.invocations = _ at hstore
    rw [hstore]
    by_cases hid : id = other
    · subst hid
      obtain rfl := Option.some.inj (hother.symm.trans hget)
      exact ⟨next, OrderedMap.get?_set_self _ _ _, .inr ⟨hstep, hbefore, hafter⟩⟩
    · exact ⟨invocation, (OrderedMap.get?_set_of_ne _ hid _).trans hget, .inl rfl⟩

theorem Leasing.before (h : Leasing executors w) (call : ℕ × Answer) {id : Text} {next : Invocation}
    (hnext : (w.turn perform call).store.invocations.get? id = some next) :
    ∃ invocation, w.store.invocations.get? id = some invocation := by
  rcases World.turn_cases perform w call with ⟨hturn, -⟩ | ⟨op, rest, hthread, -⟩
  · exact ⟨next, hturn ▸ hnext⟩
  have hfollows := h call.1
  rw [hthread] at hfollows
  rcases lease_turn hthread call.2 hfollows.1 with
    hsame | ⟨other, found, updated, hother, -, -, -, hstore⟩
  · exact ⟨next, hsame ▸ hnext⟩
  · change (w.turn perform call).store.invocations = _ at hstore
    by_cases hid : id = other
    · exact ⟨found, hid ▸ hother⟩
    · rw [hstore, OrderedMap.get?_set_of_ne _ hid] at hnext
      exact ⟨next, hnext⟩

end Turn

section Invariant

variable {executors : ℕ → LeaseCall} {clock : Int} {invocations : OrderedMap Text Invocation}
  {w : LeaseWorld} {calls : List (ℕ × Answer)}

/-- The calls have read times that are past, and every lease comes from a call that has made its
update. -/
structure LeaseInvariant (executors : ℕ → LeaseCall) (invocations : OrderedMap Text Invocation)
    (w : LeaseWorld) : Prop where
  leasing : Leasing executors w
  readings : ∀ i, ∀ now ∈ (leaseProgress executors w i).readings, now ≤ w.store.clock
  brought : ∀ id invocation leaseId, w.store.invocations.get? id = some invocation →
    invocation.executionLeaseId = some leaseId →
    (∃ first, invocations.get? id = some first ∧ first.executionLeaseId = some leaseId) ∨
      ∃ i, (leaseProgress executors w i).updated = true ∧
        (leaseProgress executors w i).Brings leaseId

theorem leaseProgress_le_turn (w : LeaseWorld) (call : ℕ × Answer) (i : ℕ) :
    leaseProgress executors w i ≤ leaseProgress executors (w.turn perform call) i := by
  rcases World.states_turn_cases perform w call leaseConduct (leaseStarts executors) i with
    hsame | ⟨-, op, rest, -, hnext⟩
  · exact le_of_eq hsame.symm
  · have hle := leaseConduct_upward (leaseProgress executors w i) op
      (perform w.store op call.2).1
    exact hle.trans_eq hnext.symm

theorem LeaseInvariant.turn (h : LeaseInvariant executors invocations w) (call : ℕ × Answer) :
    LeaseInvariant executors invocations (w.turn perform call) where
  leasing := h.leasing.turn call
  readings i now hnow := by
    have hclock := clock_lease_turn w call
    rcases World.states_turn_cases perform w call leaseConduct (leaseStarts executors) i with
      hsame | ⟨hi, op, rest, hthread, hnext⟩
    · have hmem : now ∈ (leaseProgress executors w i).readings := by
        rw [leaseProgress, ← hsame]
        exact hnow
      exact (h.readings i now hmem).trans hclock
    · have hmem : now ∈ (nextLeaseProgress (leaseProgress executors w i) op
          (perform w.store op call.2).1).readings := by
        have heq := congrArg LeaseProgress.readings hnext
        exact heq ▸ hnow
      have hpast (hold : now ∈ (leaseProgress executors w i).readings) :
          now ≤ (w.turn perform call).store.clock := (h.readings i now hold).trans hclock
      cases op with
      | clock =>
        rcases List.mem_cons.mp hmem with rfl | hold
        · obtain ⟨j, answer⟩ := call
          obtain rfl : j = i := hi
          rw [World.turn_perform hthread]
          exact le_rfl
        · exact hpast hold
      | updateInvocation filter update =>
        refine hpast ?_
        revert hmem
        generalize (perform w.store (.updateInvocation filter update) call.2).1 = reply
        rcases reply with e | (_ | found) <;> exact id
      | _ => exact hpast hmem
  brought id next leaseId hnext hlease := by
    obtain ⟨invocation, hget⟩ := h.leasing.before call hnext
    obtain ⟨updated, hupdated, hcases⟩ := h.leasing.step call hget
    obtain rfl := Option.some.inj (hupdated.symm.trans hnext)
    have hold (heq : invocation.executionLeaseId = some leaseId) := h.brought id invocation leaseId
      hget heq
    have hkeeps (heq : invocation.executionLeaseId = some leaseId) :
        (∃ first, invocations.get? id = some first ∧ first.executionLeaseId = some leaseId) ∨
          ∃ i, (leaseProgress executors (w.turn perform call) i).updated = true ∧
            (leaseProgress executors (w.turn perform call) i).Brings leaseId := by
      refine (hold heq).imp_right ?_
      rintro ⟨i, hi, hbrings⟩
      have hle : leaseProgress executors w i ≤ leaseProgress executors (w.turn perform call) i :=
        leaseProgress_le_turn w call i
      exact ⟨i, LeaseProgress.updated_mono hle hi, hbrings.mono hle⟩
    rcases hcases with rfl | ⟨hstep, -, hafter⟩
    · exact hkeeps hlease
    · by_cases hpair : updated.pair = invocation.pair
      · exact hkeeps ((congrArg Prod.snd hpair).symm.trans hlease)
      · have hle : leaseProgress executors w call.1 ≤
            leaseProgress executors (w.turn perform call) call.1 :=
          leaseProgress_le_turn w call call.1
        exact .inr ⟨call.1, hafter, (hstep.claimed hlease hpair).1.mono hle⟩

theorem leases_reached (hnow : ∀ i, (executors i).options.now = none) :
    LeaseInvariant executors invocations (leasesAfter executors clock invocations calls) := by
  refine after_induction (I := LeaseInvariant executors invocations) ?_
    fun w call h _ => h.turn call
  refine ⟨fun i => LeaseCall.leases (executors i) (hnow i), ?_, ?_⟩
  · intro i now hnow
    exact absurd hnow List.not_mem_nil
  · intro id invocation leaseId hget hlease
    exact .inl ⟨invocation, hget, hlease⟩

theorem leasesAfter_append (before rest : List (ℕ × Answer)) :
    leasesAfter executors clock invocations (before ++ rest) =
      after (World.turn perform) (leasesAfter executors clock invocations before) rest :=
  after_append before rest

theorem leasesAfter_concat (call : ℕ × Answer) :
    leasesAfter executors clock invocations (calls ++ [call]) =
      (leasesAfter executors clock invocations calls).turn perform call :=
  after_concat call

theorem leases_stored (hnow : ∀ i, (executors i).options.now = none) (rest : List (ℕ × Answer))
    {id : Text} {invocation : Invocation}
    (hget : (leasesAfter executors clock invocations calls).store.invocations.get? id =
      some invocation) :
    ∃ next, (leasesAfter executors clock invocations (calls ++ rest)).store.invocations.get? id =
      some next := by
  induction rest using List.reverseRecOn with
  | nil => exact ⟨invocation, by rw [List.append_nil]; exact hget⟩
  | append_singleton rest call ih =>
    obtain ⟨next, hnext⟩ := ih
    obtain ⟨last, hlast, -⟩ := (leases_reached hnow).leasing.step call hnext
    rw [← List.append_assoc, leasesAfter_concat]
    exact ⟨last, hlast⟩

theorem leaseProgress_le (rest : List (ℕ × Answer)) (i : ℕ) :
    leaseProgress executors (leasesAfter executors clock invocations calls) i ≤
      leaseProgress executors (leasesAfter executors clock invocations (calls ++ rest)) i := by
  induction rest using List.reverseRecOn with
  | nil => rw [List.append_nil]
  | append_singleton rest call ih =>
    rw [← List.append_assoc, leasesAfter_concat]
    exact ih.trans (leaseProgress_le_turn _ call i)

end Invariant

section Fresh

variable {executors : ℕ → LeaseCall} {clock : Int} {invocations : OrderedMap Text Invocation}
  {calls before rest : List (ℕ × Answer)}

theorem bringsLease_of_progress {w : LeaseWorld} {i : ℕ} {leaseId : Text}
    (hstart : leaseStarts executors i ≤ leaseProgress executors w i)
    (h : (leaseProgress executors w i).Brings leaseId) : BringsLease executors w i leaseId := by
  refine h.imp (fun hgiven => ?_) fun hdrawn => ?_
  · rw [← LeaseProgress.call_eq hstart] at hgiven
    exact hgiven
  · have hnext (s : LeaseProgress) (op : Op) (reply : Reply op)
        (hmem : leaseId ∈ (leaseConduct.next s op reply).ids) :
        leaseId ∈ s.ids ∨ (⟨op, reply⟩ : (op : Op) × Reply op) = ⟨.randomUUID, leaseId⟩ := by
      cases op with
      | randomUUID =>
        rcases List.mem_cons.mp hmem with rfl | hold
        · exact .inr rfl
        · exact .inl hold
      | updateInvocation filter update =>
        rcases reply with e | (_ | found) <;> exact .inl hmem
      | _ => exact .inl hmem
    have hids : leaseId ∈ (w.states leaseConduct (leaseStarts executors) i).ids := hdrawn
    rcases World.states_cases (P := fun s : LeaseProgress => leaseId ∈ s.ids) hnext hids with hnone | ⟨op, reply, hperformed, heq⟩
    · exact absurd hnone List.not_mem_nil
    · unfold World.Performed at hperformed ⊢
      rwa [heq] at hperformed

theorem BringsLease.later {w : LeaseWorld} {i : ℕ} {leaseId : Text}
    (h : BringsLease executors w i leaseId) (calls : List (ℕ × Answer)) :
    BringsLease executors (after (World.turn perform) w calls) i leaseId :=
  h.imp_right fun hdrawn => hdrawn.after calls

theorem FreshLeases.earlier
    (h : FreshLeases executors invocations (leasesAfter executors clock invocations (before ++ rest))) :
    FreshLeases executors invocations (leasesAfter executors clock invocations before) := by
  rw [leasesAfter_append] at h
  exact ⟨fun i j leaseId hi hj => h.distinct i j leaseId (hi.later rest) (hj.later rest),
    fun i leaseId id invocation hi => h.new i leaseId id invocation (hi.later rest)⟩

theorem leaseStarts_le (i : ℕ) :
    leaseStarts executors i ≤
      leaseProgress executors (leasesAfter executors clock invocations calls) i := by
  have hle : leaseProgress executors (leasesAfter executors clock invocations []) i ≤
      leaseProgress executors (leasesAfter executors clock invocations ([] ++ calls)) i :=
    leaseProgress_le calls i
  rwa [List.nil_append] at hle

theorem brought_lease_new (hnow : ∀ i, (executors i).options.now = none)
    (hfresh : FreshLeases executors invocations (leasesAfter executors clock invocations calls))
    {i : ℕ} {leaseId id : Text} {invocation : Invocation}
    (hbrings : (leaseProgress executors (leasesAfter executors clock invocations calls) i).Brings
      leaseId)
    (hupdated : (leaseProgress executors (leasesAfter executors clock invocations calls) i).updated =
      false)
    (hget : (leasesAfter executors clock invocations calls).store.invocations.get? id =
      some invocation) : invocation.executionLeaseId ≠ some leaseId := by
  intro hlease
  have hmine := bringsLease_of_progress (leaseStarts_le i) hbrings
  rcases (leases_reached hnow).brought id invocation leaseId hget hlease with
    ⟨first, hfirst, hcarried⟩ | ⟨j, hj, hbrought⟩
  · exact hfresh.new i leaseId id first hmine hfirst hcarried
  · have hother := bringsLease_of_progress (leaseStarts_le j) hbrought
    obtain rfl := hfresh.distinct i j leaseId hmine hother
    rw [hupdated] at hj
    cases hj

end Fresh

def Takeover (invocation next : Invocation) : Prop :=
  next.executionLeaseId ≠ none ∧ next.pair ≠ invocation.pair

variable (executors : ℕ → LeaseCall) (clock : Int) (invocations : OrderedMap Text Invocation)

def leased (calls : List (ℕ × Answer)) (id : Text) : Option Invocation :=
  (leasesAfter executors clock invocations calls).store.invocations.get? id

section Law

variable {executors clock invocations} {calls before rest : List (ℕ × Answer)} {call : ℕ × Answer}
  {id : Text} {invocation next : Invocation} {p : Text × Text}

theorem leased_step (hnow : ∀ i, (executors i).options.now = none)
    (hget : leased executors clock invocations before id = some invocation)
    (hnext : leased executors clock invocations (before ++ [call]) id = some next)
    (hne : next ≠ invocation) :
    LeaseStep (leaseProgress executors (leasesAfter executors clock invocations before) call.1)
        invocation next ∧
      (leaseProgress executors (leasesAfter executors clock invocations before) call.1).updated =
        false := by
  obtain ⟨last, hlast, hcases⟩ := (leases_reached hnow).leasing.step call hget
  rw [leased, leasesAfter_concat] at hnext
  obtain rfl := Option.some.inj (hlast.symm.trans hnext)
  rcases hcases with hsame | ⟨hstep, hupdated, -⟩
  · exact absurd hsame hne
  · exact ⟨hstep, hupdated⟩

theorem takeover_claimed (hnow : ∀ i, (executors i).options.now = none)
    (hget : leased executors clock invocations before id = some invocation)
    (hnext : leased executors clock invocations (before ++ [call]) id = some next)
    (h : Takeover invocation next) :
    ∃ leaseId, next.executionLeaseId = some leaseId ∧
      (leaseProgress executors (leasesAfter executors clock invocations before) call.1).Brings
        leaseId ∧
      (leaseProgress executors (leasesAfter executors clock invocations before) call.1).updated =
        false ∧
      invocation.lifecycleState = .authorized ∧ next.lifecycleState = .running ∧
      ∃ now ≤ (leasesAfter executors clock invocations before).store.clock,
        invocation.LeaseOver now := by
  obtain ⟨leaseId, hlease⟩ := Option.ne_none_iff_exists'.mp h.1
  obtain ⟨hstep, hupdated⟩ := leased_step hnow hget hnext fun heq => h.2 (heq ▸ rfl)
  obtain ⟨hbrings, hauthorized, ⟨now, hreading, hover⟩, hrunning⟩ := hstep.claimed hlease h.2
  exact ⟨leaseId, hlease, hbrings, hupdated, hauthorized, hrunning, now,
    (leases_reached hnow).readings call.1 now hreading, hover⟩

theorem performed_of_lease_reading {now : Int} {i : ℕ}
    (h : now ∈ (leaseProgress executors (leasesAfter executors clock invocations calls) i).readings) :
    (leasesAfter executors clock invocations calls).Performed i .clock now := by
  have hnext (s : LeaseProgress) (op : Op) (reply : Reply op)
      (hmem : now ∈ (leaseConduct.next s op reply).readings) :
      now ∈ s.readings ∨ (⟨op, reply⟩ : (op : Op) × Reply op) = ⟨.clock, now⟩ := by
    cases op with
    | clock =>
      rcases List.mem_cons.mp hmem with rfl | hold
      · exact .inr rfl
      · exact .inl hold
    | updateInvocation filter update =>
      rcases reply with e | (_ | found) <;> exact .inl hmem
    | _ => exact .inl hmem
  have hreadings : now ∈ ((leasesAfter executors clock invocations calls).states leaseConduct
      (leaseStarts executors) i).readings := h
  rcases World.states_cases (P := fun s : LeaseProgress => now ∈ s.readings) hnext hreadings with
    hnone | ⟨op, reply, hperformed, heq⟩
  · exact absurd hnone List.not_mem_nil
  · unfold World.Performed at hperformed ⊢
    rwa [heq] at hperformed

theorem presented_unexpired (hnow : ∀ i, (executors i).options.now = none)
    (hget : leased executors clock invocations before id = some invocation)
    (hnext : leased executors clock invocations (before ++ [call]) id = some next)
    (hne : next ≠ invocation) (hp : (executors call.1).presented = some p) :
    ∃ now, (leasesAfter executors clock invocations before).Performed call.1 .clock now ∧
      invocation.Unexpired now p := by
  obtain ⟨hstep, -⟩ := leased_step hnow hget hnext hne
  have hcall : (leaseProgress executors (leasesAfter executors clock invocations before)
      call.1).call = executors call.1 := (leaseStarts_le call.1).1.symm
  obtain ⟨now, hreading, hunexpired⟩ := hstep.presents p (by rw [hcall]; exact hp)
  exact ⟨now, performed_of_lease_reading hreading, hunexpired⟩

theorem lease_not_carried_again (hnow : ∀ i, (executors i).options.now = none)
    {middle : List (ℕ × Answer)} {leaseId : Text} {first second third : Invocation}
    (hfresh : FreshLeases executors invocations
      (leasesAfter executors clock invocations (before ++ (middle ++ rest))))
    (hfirst : leased executors clock invocations before id = some first)
    (hcarried : first.executionLeaseId = some leaseId)
    (hsecond : leased executors clock invocations (before ++ middle) id = some second)
    (hended : second.executionLeaseId ≠ some leaseId)
    (hthird : leased executors clock invocations (before ++ (middle ++ rest)) id = some third) :
    third.executionLeaseId ≠ some leaseId := by
  induction rest using List.reverseRecOn generalizing third with
  | nil =>
    rw [List.append_nil] at hthird
    obtain rfl := Option.some.inj (hsecond.symm.trans hthird)
    exact hended
  | append_singleton rest call ih =>
    have hlist : before ++ (middle ++ (rest ++ [call])) = before ++ (middle ++ rest) ++ [call] := by
      simp
    rw [hlist] at hfresh hthird
    have hfresh' := hfresh.earlier
    obtain ⟨found, hfound⟩ := leases_stored hnow (middle ++ rest) hfirst
    have hfree := ih hfresh' hfound
    intro hlease
    have hpair : third.pair ≠ found.pair := fun heq =>
      hfree ((congrArg Prod.snd heq).symm.trans hlease)
    obtain ⟨id', hid', hbrings, hupdated, -⟩ :=
      takeover_claimed hnow hfound hthird ⟨by simp [hlease], hpair⟩
    obtain rfl : id' = leaseId := Option.some.inj (hid'.symm.trans hlease)
    -- the lease was carried already when the call had not made its update
    have hmine := bringsLease_of_progress (leaseStarts_le call.1) hbrings
    rcases (leases_reached hnow).brought id first id' hfirst hcarried with
      ⟨initial, hinitial, hinitially⟩ | ⟨j, hj, hbrought⟩
    · exact hfresh'.new call.1 id' id initial hmine hinitial hinitially
    · have hother := (bringsLease_of_progress (leaseStarts_le j) hbrought).later (middle ++ rest)
      rw [← leasesAfter_append] at hother
      obtain rfl := hfresh'.distinct call.1 j id' hmine hother
      have hle : leaseProgress executors (leasesAfter executors clock invocations before) call.1 ≤
          leaseProgress executors
            (leasesAfter executors clock invocations (before ++ (middle ++ rest))) call.1 :=
        leaseProgress_le (middle ++ rest) call.1
      have hlater := LeaseProgress.updated_mono hle hj
      rw [hupdated] at hlater
      cases hlater

theorem revived_by_renewal (hnow : ∀ i, (executors i).options.now = none)
    (hfresh : FreshLeases executors invocations (leasesAfter executors clock invocations before))
    (hget : leased executors clock invocations before id = some invocation)
    (hnext : leased executors clock invocations (before ++ [call]) id = some next)
    (hpair : invocation.pair = (some p.1, some p.2)) {now : Int}
    (hexpired : ¬invocation.Unexpired now p) (hlive : next.Unexpired now p) :
    (executors call.1).presented = some p ∧
      ∃ earlier, (leasesAfter executors clock invocations before).Performed call.1 .clock earlier ∧
        invocation.Unexpired earlier p := by
  have hne : next ≠ invocation := by
    rintro rfl
    exact hexpired hlive
  obtain ⟨hstep, hupdated⟩ := leased_step hnow hget hnext hne
  cases hstep with
  | claims owner leaseId _ hbrings _ _ _ hnextPair =>
    have hlease : invocation.executionLeaseId = some leaseId := by
      have hsame := congrArg Prod.snd (hlive.1.symm.trans hnextPair)
      exact (congrArg Prod.snd hpair).trans hsame
    exact absurd hlease (brought_lease_new hnow hfresh hbrings hupdated hget)
  | moves _ hlease =>
    rcases hlease with ⟨-, hsame⟩ | ⟨hnone, -⟩
    · obtain ⟨-, expiresAt, hexpiry, hlt⟩ := hlive
      exact absurd ⟨hpair, expiresAt, hsame.symm.trans hexpiry, hlt⟩ hexpired
    · cases hlive.1.symm.trans hnone
  | renews q hq hpresents _ _ =>
    have hcall : (leaseProgress executors (leasesAfter executors clock invocations before)
        call.1).call = executors call.1 := (leaseStarts_le call.1).1.symm
    obtain ⟨earlier, hreading, hunexpired⟩ := hpresents q hq
    have heq := hpair.symm.trans hunexpired.1
    simp only [Prod.mk.injEq, Option.some.injEq] at heq
    obtain rfl : p = q := Prod.ext heq.1 heq.2
    rw [hcall] at hq
    exact ⟨hq, earlier, performed_of_lease_reading hreading, hunexpired⟩

theorem authorized_between (hnow : ∀ i, (executors i).options.now = none)
    {middle : List (ℕ × Answer)} {call' : ℕ × Answer} {invocation' next' : Invocation}
    (hget : leased executors clock invocations before id = some invocation)
    (hnext : leased executors clock invocations (before ++ [call]) id = some next)
    (htaken : Takeover invocation next)
    (hget' : leased executors clock invocations (before ++ [call] ++ middle) id = some invocation')
    (hnext' : leased executors clock invocations (before ++ [call] ++ middle ++ [call']) id =
      some next')
    (htaken' : Takeover invocation' next') :
    ∃ earlier turn later old new, middle = earlier ++ turn :: later ∧
      leased executors clock invocations (before ++ [call] ++ earlier) id = some old ∧
      leased executors clock invocations (before ++ [call] ++ (earlier ++ [turn])) id = some new ∧
      old.lifecycleState ≠ .authorized ∧ new.lifecycleState = .authorized := by
  obtain ⟨-, -, -, -, -, hrunning, -⟩ := takeover_claimed hnow hget hnext htaken
  obtain ⟨-, -, -, -, hauthorized, -, -⟩ := takeover_claimed hnow hget' hnext' htaken'
  let authorized (w : LeaseWorld) : Prop := ∃ found, w.store.invocations.get? id = some found ∧
    found.lifecycleState = .authorized
  have hstart : ¬authorized (leasesAfter executors clock invocations (before ++ [call])) := by
    rintro ⟨found, hfound, hstate⟩
    obtain rfl := Option.some.inj (hfound.symm.trans hnext)
    rw [hrunning] at hstate
    cases hstate
  have hend : authorized (after (World.turn perform)
      (leasesAfter executors clock invocations (before ++ [call])) middle) := by
    rw [← leasesAfter_append]
    exact ⟨invocation', hget', hauthorized⟩
  obtain ⟨earlier, turn, later, hmiddle, hnot, hsince⟩ := exists_last_entry hstart hend
  obtain ⟨new, hnew, hstate⟩ := hsince [] List.nil_prefix
  obtain ⟨old, hold⟩ := leases_stored hnow earlier hnext
  refine ⟨earlier, turn, later, old, new, hmiddle, hold, ?_, fun holdState => ?_, hstate⟩
  · rw [← leasesAfter_append] at hnew
    exact hnew
  · rw [← leasesAfter_append] at hnot
    exact hnot ⟨old, hold, holdState⟩

end Law

private def lateLifecycle : LifecycleOptions :=
  { invocationId := ascii "i", receivingWorkspaceId := ascii "w" }

private def lateExecutors (i : ℕ) : LeaseCall :=
  if i = 0 then .claimInvocationExecution lateLifecycle (ascii "a") (some (ascii "l")) 1000
  else .renewInvocationExecutionLease lateLifecycle (ascii "a") (ascii "l") 10000

private def lateInvocations : OrderedMap Text Invocation :=
  OrderedMap.empty.set (ascii "i")
    { id := ascii "i"
      receivingWorkspaceId := ascii "w"
      connectionId := ascii "c"
      lifecycleState := .authorized
      stateHistory := [⟨none, .authorized, 0, none, none, none⟩]
      createdAt := 0 }

private def lateReading : List (ℕ × Answer) := [(0, {}), (0, {}), (1, {})]

private def lateRenewal : ℕ × Answer := (1, { elapsed := 5000 })

private theorem lateExecutors_now (i : ℕ) : (lateExecutors i).options.now = none := by
  unfold lateExecutors
  split <;> rfl

private def draws : Op → Bool
  | .randomUUID => true
  | _ => false

private theorem lateExecutors_fresh : FreshLeases lateExecutors lateInvocations
    (leasesAfter lateExecutors 0 lateInvocations (lateReading ++ [lateRenewal])) := by
  have hbrings {i : ℕ} {leaseId : Text} (h : BringsLease lateExecutors
      (leasesAfter lateExecutors 0 lateInvocations (lateReading ++ [lateRenewal])) i leaseId) :
      i = 0 := by
    rcases h with hgiven | hdrawn
    · by_contra hne
      simp [lateExecutors, hne, LeaseCall.leaseId] at hgiven
    · have hnone : ((leasesAfter lateExecutors 0 lateInvocations
          (lateReading ++ [lateRenewal])).log.any fun e => draws e.2.1) = false := by
        decide
      exact absurd rfl (List.any_eq_false.mp hnone _ hdrawn)
  refine ⟨fun i j leaseId hi hj => (hbrings hi).trans (hbrings hj).symm, ?_⟩
  intro i leaseId id invocation _ hget
  have hmem := OrderedMap.get?_eq_some.mp hget
  obtain ⟨rfl, rfl⟩ := Prod.mk.inj (List.mem_singleton.mp hmem)
  simp

private theorem late_get : ∃ invocation next,
    leased lateExecutors 0 lateInvocations lateReading (ascii "i") = some invocation ∧
    leased lateExecutors 0 lateInvocations (lateReading ++ [lateRenewal]) (ascii "i") =
      some next ∧
    invocation.lifecycleState = .running ∧
    invocation.pair = (some (ascii "a"), some (ascii "l")) ∧
    invocation.executionLeaseExpiresAt = some 1000 ∧
    next.pair = (some (ascii "a"), some (ascii "l")) ∧
    next.executionLeaseExpiresAt = some 10000 := by
  have hbefore : (leased lateExecutors 0 lateInvocations lateReading (ascii "i")).map
      (fun invocation => (invocation.lifecycleState, invocation.pair,
        invocation.executionLeaseExpiresAt)) =
      some (.running, (some (ascii "a"), some (ascii "l")), some 1000) := by
    decide
  have hafter : (leased lateExecutors 0 lateInvocations (lateReading ++ [lateRenewal])
      (ascii "i")).map (fun next => (next.pair, next.executionLeaseExpiresAt)) =
      some ((some (ascii "a"), some (ascii "l")), some 10000) := by
    decide
  obtain ⟨invocation, hget, hinvocation⟩ := Option.map_eq_some_iff.mp hbefore
  obtain ⟨next, hnext, hfields⟩ := Option.map_eq_some_iff.mp hafter
  simp only [Prod.mk.injEq] at hinvocation hfields
  exact ⟨invocation, next, hget, hnext, hinvocation.1,
    hinvocation.2.1, hinvocation.2.2, hfields.1, hfields.2⟩

private theorem late_revived {invocation next : Invocation}
    (hexpiry : invocation.executionLeaseExpiresAt = some 1000)
    (hpair : next.pair = (some (ascii "a"), some (ascii "l")))
    (hrenewed : next.executionLeaseExpiresAt = some 10000) :
    ¬invocation.Unexpired 5000 (ascii "a", ascii "l") ∧
      next.Unexpired 5000 (ascii "a", ascii "l") := by
  refine ⟨?_, hpair, 10000, hrenewed, by decide⟩
  rintro ⟨-, expiresAt, hexpires, hlt⟩
  obtain rfl := Option.some.inj (hexpiry.symm.trans hexpires)
  exact absurd hlt (by decide)

end GhostBridge.DurableWork
