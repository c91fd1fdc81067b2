import GhostBridge.Machine.Program
import GhostBridge.Machine.Runs
import Mathlib.Tactic.Common

/-!
# Threads

Programs that share a store.
-/

namespace Machine

variable {σ Op Answer α S : Type} {Reply : Op → Type}

structure World (σ Op : Type) (Reply : Op → Type) (α : Type) where
  store : σ
  thread : ℕ → Program Op Reply α
  log : List (ℕ × (op : Op) × Reply op)

def World.initial (store : σ) (thread : ℕ → Program Op Reply α) : World σ Op Reply α :=
  ⟨store, thread, []⟩

/-- How an operation changes the store, and what it replies. -/
abbrev Perform (σ Op Answer : Type) (Reply : Op → Type) :=
  σ → (op : Op) → Answer → Reply op × σ

def World.turn (perform : Perform σ Op Answer Reply) (world : World σ Op Reply α)
    (call : ℕ × Answer) : World σ Op Reply α :=
  match world.thread call.1 with
  | .done _ => world
  | .perform op next =>
    let (reply, store) := perform world.store op call.2
    { store := store
      thread := Function.update world.thread call.1 (next reply)
      log := world.log ++ [(call.1, ⟨op, reply⟩)] }

/-- A thread performed an operation, which had this reply. -/
def World.Performed (world : World σ Op Reply α) (i : ℕ) (op : Op) (reply : Reply op) : Prop :=
  (i, ⟨op, reply⟩) ∈ world.log

def World.Ended (world : World σ Op Reply α) (i : ℕ) (result : α) : Prop :=
  world.thread i = .done result

def World.Next (world : World σ Op Reply α) (i : ℕ) (op : Op) : Prop :=
  ∃ next, world.thread i = .perform op next

variable {perform : Perform σ Op Answer Reply} {world : World σ Op Reply α} {call : ℕ × Answer}

theorem World.turn_cases (perform : Perform σ Op Answer Reply) (world : World σ Op Reply α)
    (call : ℕ × Answer) :
    (world.turn perform call = world ∧ ∃ result, world.Ended call.1 result) ∨
      ∃ op next, world.thread call.1 = .perform op next ∧ world.turn perform call =
        { store := (perform world.store op call.2).2
          thread := Function.update world.thread call.1 (next (perform world.store op call.2).1)
          log := world.log ++ [(call.1, ⟨op, (perform world.store op call.2).1⟩)] } := by
  cases hthread : world.thread call.1 with
  | done result => exact .inl ⟨by rw [turn, hthread], result, hthread⟩
  | perform op next => exact .inr ⟨op, next, rfl, by rw [turn, hthread]⟩

theorem World.turn_perform {i : ℕ} {op : Op} {next : Reply op → Program Op Reply α}
    (h : world.thread i = .perform op next) (perform : Perform σ Op Answer Reply) (answer : Answer) :
    world.turn perform (i, answer) =
      { store := (perform world.store op answer).2
        thread := Function.update world.thread i (next (perform world.store op answer).1)
        log := world.log ++ [(i, ⟨op, (perform world.store op answer).1⟩)] } := by
  rw [turn, h]

theorem World.log_turn (world : World σ Op Reply α) (call : ℕ × Answer) :
    world.log <+: (world.turn perform call).log := by
  rcases turn_cases perform world call with ⟨hturn, -⟩ | ⟨op, next, -, hturn⟩
  · exact (congrArg World.log hturn).symm ▸ List.prefix_rfl
  · rw [hturn]
    exact List.prefix_append _ _

theorem World.log_after (world : World σ Op Reply α) (calls : List (ℕ × Answer)) :
    world.log <+: (Machine.after (World.turn perform) world calls).log :=
  after_induction (I := fun w : World σ Op Reply α => world.log <+: w.log) List.prefix_rfl
    fun w call hw _ => hw.trans (w.log_turn call)

theorem World.Performed.after {i : ℕ} {op : Op} {reply : Reply op} (h : world.Performed i op reply)
    (calls : List (ℕ × Answer)) :
    (Machine.after (World.turn perform) world calls).Performed i op reply :=
  (world.log_after calls).subset h

def Program.run (perform : Perform σ Op Answer Reply) (answer : Answer) :
    Program Op Reply α → σ → α × σ
  | .done a, s => (a, s)
  | .perform op next, s => run perform answer (next (perform s op answer).1) (perform s op answer).2

theorem Program.run_bind {β : Type} (x : Program Op Reply α) (f : α → Program Op Reply β)
    (answer : Answer) (s : σ) : (x.bind f).run perform answer s =
      (f (x.run perform answer s).1).run perform answer (x.run perform answer s).2 := by
  induction x generalizing s with
  | done a => rfl
  | perform op next ih => exact ih _ _

section Run

variable {ε β : Type} {answer : Answer} {s t : σ}

def Async.run (perform : Perform σ Op Answer Reply) (answer : Answer) (x : Async Op Reply ε α)
    (s : σ) : Except ε α × σ := Program.run perform answer x s

theorem Async.run_bind (x : Async Op Reply ε α) (f : α → Async Op Reply ε β) :
    (x >>= f).run perform answer s = match x.run perform answer s with
      | (.ok a, u) => (f a).run perform answer u
      | (.error e, u) => (.error e, u) := by
  refine (Program.run_bind _ _ answer s).trans ?_
  unfold run
  cases Program.run perform answer x s with
  | mk outcome u => cases outcome <;> rfl

theorem Async.run_tryCatch (x : Async Op Reply ε α) (handle : ε → Async Op Reply ε α) :
    (tryCatch x handle).run perform answer s = match x.run perform answer s with
      | (.ok a, u) => (.ok a, u)
      | (.error e, u) => (handle e).run perform answer u := by
  refine (Program.run_bind _ _ answer s).trans ?_
  unfold run
  cases Program.run perform answer x s with
  | mk outcome u => cases outcome <;> rfl

@[simp] theorem Async.run_bind_ok {x : Async Op Reply ε α} {f : α → Async Op Reply ε β} {b : β} :
    (x >>= f).run perform answer s = (.ok b, t) ↔
      ∃ a u, x.run perform answer s = (.ok a, u) ∧ (f a).run perform answer u = (.ok b, t) := by
  rw [run_bind]
  cases x.run perform answer s with
  | mk outcome u => cases outcome <;> simp

@[simp] theorem Async.run_monadLift_ok {outcome : Except ε α} {a : α} :
    (liftM outcome : Async Op Reply ε α).run perform answer s = (.ok a, t) ↔
      outcome = .ok a ∧ t = s := by
  change (outcome, s) = (.ok a, t) ↔ _
  rw [Prod.mk.injEq, eq_comm (a := s)]

@[simp] theorem Async.run_pure_ok {a b : α} :
    (pure a : Async Op Reply ε α).run perform answer s = (.ok b, t) ↔ a = b ∧ t = s := by
  change ((.ok a : Except ε α), s) = (.ok b, t) ↔ _
  rw [Prod.mk.injEq, Except.ok.injEq, eq_comm (a := s)]

@[simp] theorem Async.run_throw_ok {e : ε} {a : α} :
    (throw e : Async Op Reply ε α).run perform answer s ≠ (.ok a, t) := fun h => nomatch h

@[simp] theorem Async.run_ask_ok {op : Op} {reply : Reply op} :
    (Async.ask op : Async Op Reply ε (Reply op)).run perform answer s = (.ok reply, t) ↔
      perform s op answer = (reply, t) := by
  change ((.ok (perform s op answer).1 : Except ε (Reply op)), (perform s op answer).2) = _ ↔ _
  rw [Prod.mk.injEq, Except.ok.injEq, Prod.ext_iff]

theorem Async.run_tryCatch_ok {x : Async Op Reply ε α} {handle : ε → ε} {a : α} :
    (tryCatch x fun e => throw (handle e)).run perform answer s = (.ok a, t) ↔
      x.run perform answer s = (.ok a, t) := by
  rw [run_tryCatch]
  cases x.run perform answer s with
  | mk outcome u => cases outcome <;> simp

end Run

variable {m : Monitor Op Reply S} {start : ℕ → S} {post : ℕ → S → α → Prop}

def Monitor.state (m : Monitor Op Reply S) (start : ℕ → S) (log : List (ℕ × (op : Op) × Reply op))
    (i : ℕ) : S :=
  log.foldl (fun s e => if e.1 = i then m.next s e.2.1 e.2.2 else s) (start i)

theorem Monitor.state_concat (log : List (ℕ × (op : Op) × Reply op)) (i : ℕ) (op : Op)
    (reply : Reply op) :
    m.state start (log ++ [(i, ⟨op, reply⟩)]) =
      Function.update (m.state start log) i (m.next (m.state start log i) op reply) := by
  funext j
  rw [state, List.foldl_append]
  by_cases h : i = j
  · subst h
    simp [state]
  · rw [Function.update_of_ne (Ne.symm h)]
    simp [state, h]

def World.states (world : World σ Op Reply α) (m : Monitor Op Reply S) (start : ℕ → S) : ℕ → S :=
  m.state start world.log

theorem World.states_turn {i : ℕ} {op : Op} {next : Reply op → Program Op Reply α}
    (h : world.thread i = .perform op next) (m : Monitor Op Reply S) (start : ℕ → S)
    (answer : Answer) : (world.turn perform (i, answer)).states m start =
      Function.update (world.states m start) i
        (m.next (world.states m start i) op (perform world.store op answer).1) := by
  rw [turn_perform h, states, Monitor.state_concat]
  rfl

theorem World.states_turn_cases (perform : Perform σ Op Answer Reply) (world : World σ Op Reply α)
    (call : ℕ × Answer) (m : Monitor Op Reply S) (start : ℕ → S) (i : ℕ) :
    (world.turn perform call).states m start i = world.states m start i ∨
      call.1 = i ∧ ∃ op next, world.thread i = .perform op next ∧
        (world.turn perform call).states m start i =
          m.next (world.states m start i) op (perform world.store op call.2).1 := by
  obtain ⟨j, answer⟩ := call
  rcases turn_cases perform world (j, answer) with ⟨hturn, -⟩ | ⟨op, next, hthread, -⟩
  · exact .inl (by rw [hturn])
  · rw [states_turn hthread]
    by_cases hj : j = i
    · subst hj
      rw [Function.update_self]
      exact .inr ⟨rfl, op, next, hthread, rfl⟩
    · exact .inl (Function.update_of_ne (Ne.symm hj) _ _)

theorem World.exists_entry {P : S → Prop} {i : ℕ} {calls : List (ℕ × Answer)}
    (hnot : ¬P (world.states m start i))
    (h : P ((Machine.after (World.turn perform) world calls).states m start i)) :
    ∃ before answer rest op next, calls = before ++ (i, answer) :: rest ∧
      (Machine.after (World.turn perform) world before).thread i = .perform op next ∧
      ¬P ((Machine.after (World.turn perform) world before).states m start i) ∧
      P (m.next ((Machine.after (World.turn perform) world before).states m start i) op
        (perform (Machine.after (World.turn perform) world before).store op answer).1) := by
  obtain ⟨before, call, rest, rfl, hbefore, hsince⟩ :=
    exists_last_entry (P := fun w : World σ Op Reply α => P (w.states m start i)) hnot h
  have hafter := hsince [] List.nil_prefix
  rw [after_concat] at hafter
  rcases states_turn_cases perform _ call m start i with hsame | ⟨rfl, op, next, hthread, hnext⟩
  · exact absurd (hsame ▸ hafter) hbefore
  · exact ⟨before, call.2, rest, op, next, rfl, hthread, hbefore, hnext ▸ hafter⟩

theorem World.states_cases {P : S → Prop} {Q : (op : Op) → Reply op → Prop}
    (hnext : ∀ s op reply, P (m.next s op reply) → P s ∨ Q op reply) {i : ℕ}
    (h : P (world.states m start i)) :
    P (start i) ∨ ∃ op reply, world.Performed i op reply ∧ Q op reply := by
  unfold states Performed at *
  generalize world.log = log at *
  induction log using List.reverseRecOn with
  | nil => exact .inl h
  | append_singleton log e ih =>
    obtain ⟨j, op, reply⟩ := e
    have hearlier (hP : P (m.state start log i)) : P (start i) ∨ ∃ o r,
        (i, (⟨o, r⟩ : (op : Op) × Reply op)) ∈ log ++ [(j, ⟨op, reply⟩)] ∧ Q o r :=
      (ih hP).imp_right fun ⟨o, r, hmem, hQ⟩ => ⟨o, r, List.mem_append_left _ hmem, hQ⟩
    rw [Monitor.state_concat] at h
    by_cases hj : j = i
    · subst hj
      rw [Function.update_self] at h
      rcases hnext _ op reply h with hP | hQ
      · exact hearlier hP
      · exact .inr ⟨op, reply, by simp, hQ⟩
    · rw [Function.update_of_ne (Ne.symm hj)] at h
      exact hearlier h

/-- What an operation makes true of the monitor of its thread, and every operation keeps, is true
since then. -/
theorem World.states_of_performed {P : S → Prop} (hkept : ∀ s op reply, P s → P (m.next s op reply))
    {i : ℕ} {op : Op} {reply : Reply op} (hmade : ∀ s, P (m.next s op reply))
    (h : world.Performed i op reply) : P (world.states m start i) := by
  unfold states Performed at *
  generalize world.log = log at *
  induction log using List.reverseRecOn with
  | nil => cases h
  | append_singleton log e ih =>
    obtain ⟨j, other, otherReply⟩ := e
    rw [Monitor.state_concat]
    by_cases hj : j = i
    · subst hj
      rw [Function.update_self]
      rcases List.mem_append.mp h with hearlier | hlast
      · exact hkept _ _ _ (ih hearlier)
      · cases List.mem_singleton.mp hlast
        exact hmade _
    · rw [Function.update_of_ne (Ne.symm hj)]
      rcases List.mem_append.mp h with hearlier | hlast
      · exact ih hearlier
      · cases List.mem_singleton.mp hlast
        exact absurd rfl hj

/-- Every thread follows the monitor from where it is. -/
def World.Monitored (m : Monitor Op Reply S) (start : ℕ → S) (post : ℕ → S → α → Prop)
    (world : World σ Op Reply α) : Prop :=
  ∀ i, (world.thread i).Follows m (post i) (world.states m start i)

/-- An invariant of the store and the monitors that every allowed operation keeps. -/
structure Invariant (perform : Perform σ Op Answer Reply) (m : Monitor Op Reply S)
    (start : ℕ → S) (guard : World σ Op Reply α → ℕ × Answer → Prop)
    (I : World σ Op Reply α → Prop) : Prop where
  replies : ∀ w i answer op next, I w → guard w (i, answer) → w.thread i = .perform op next →
    m.allowed (w.states m start i) op →
    m.replies (w.states m start i) op (perform w.store op answer).1
  keeps : ∀ w i answer op next, I w → guard w (i, answer) → w.thread i = .perform op next →
    m.allowed (w.states m start i) op → I (w.turn perform (i, answer))

variable {guard : World σ Op Reply α → ℕ × Answer → Prop} {I : World σ Op Reply α → Prop}

theorem Invariant.turn (h : Invariant perform m start guard I) (hI : I world)
    (hmonitored : world.Monitored m start post) (hguard : guard world call) :
    I (world.turn perform call) ∧ (world.turn perform call).Monitored m start post := by
  obtain ⟨i, answer⟩ := call
  rcases World.turn_cases perform world (i, answer) with ⟨hturn, -⟩ | ⟨op, next, hthread, hturn⟩
  · rw [hturn]
    exact ⟨hI, hmonitored⟩
  have hfollows := hmonitored i
  rw [hthread] at hfollows
  refine ⟨h.keeps world i answer op next hI hguard hthread hfollows.1, fun j => ?_⟩
  rw [hturn, World.states, Monitor.state_concat]
  by_cases hj : j = i
  · subst hj
    simp only [Function.update_self]
    exact hfollows.2 _ (h.replies world j answer op next hI hguard hthread hfollows.1)
  · simp only [Function.update_of_ne hj]
    exact hmonitored j

theorem Invariant.after (h : Invariant perform m start guard I) (hI : I world)
    (hmonitored : world.Monitored m start post) {calls : List (ℕ × Answer)}
    (hguard : Guarded (World.turn perform) guard world calls) :
    I (Machine.after (World.turn perform) world calls) ∧
      (Machine.after (World.turn perform) world calls).Monitored m start post :=
  hguard.after_induction
    (I := fun w : World σ Op Reply α => I w ∧ w.Monitored m start post) ⟨hI, hmonitored⟩
    fun _ _ hw hcall => h.turn hw.1 hw.2 hcall

end Machine
