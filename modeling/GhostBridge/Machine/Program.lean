import Mathlib.Logic.Function.Basic
import Mathlib.Order.Basic

/-!
# Programs of operations

A program performs operations one after the other and goes on with their replies.
-/

namespace Machine

inductive Program (Op : Type) (Reply : Op → Type) (α : Type) where
  | done (result : α)
  | perform (op : Op) (next : Reply op → Program Op Reply α)

variable {Op : Type} {Reply : Op → Type} {ε α β : Type}

namespace Program

def bind : Program Op Reply α → (α → Program Op Reply β) → Program Op Reply β
  | .done a, f => f a
  | .perform op next, f => .perform op fun reply => (next reply).bind f

end Program

def Async (Op : Type) (Reply : Op → Type) (ε α : Type) := Program Op Reply (Except ε α)

namespace Async

def lift (outcome : Except ε α) : Async Op Reply ε α := Program.done outcome

def ask (op : Op) : Async Op Reply ε (Reply op) := Program.perform op fun reply => Program.done (.ok reply)

def bind (x : Async Op Reply ε α) (f : α → Async Op Reply ε β) : Async Op Reply ε β :=
  Program.bind x fun
    | .ok a => f a
    | .error e => Program.done (.error e)

/-- `try x catch handle`. -/
def catching (x : Async Op Reply ε α) (handle : ε → Async Op Reply ε α) : Async Op Reply ε α :=
  Program.bind x fun
    | .ok a => Program.done (.ok a)
    | .error e => handle e

def attempt (x : Async Op Reply ε α) : Async Op Reply ε (Except ε α) :=
  Program.bind x fun outcome => Program.done (.ok outcome)

instance : Monad (Async Op Reply ε) where
  pure a := lift (.ok a)
  bind := bind

instance : MonadExcept ε (Async Op Reply ε) where
  throw e := lift (.error e)
  tryCatch := catching

instance : MonadLift (Except ε) (Async Op Reply ε) where
  monadLift := lift

end Async

structure Monitor (Op : Type) (Reply : Op → Type) (S : Type) where
  next : S → (op : Op) → Reply op → S
  allowed : S → Op → Prop
  replies : S → (op : Op) → Reply op → Prop

variable {S : Type}

namespace Program

/-- The program performs allowed operations only, and ends as described. -/
def Follows (m : Monitor Op Reply S) (post : S → α → Prop) : Program Op Reply α → S → Prop
  | .done a, s => post s a
  | .perform op next, s =>
    m.allowed s op ∧ ∀ reply, m.replies s op reply → Follows m post (next reply) (m.next s op reply)

variable {m : Monitor Op Reply S} {post : S → α → Prop} {s : S}

theorem follows_bind {post : S → β → Prop} {x : Program Op Reply α} {f : α → Program Op Reply β} :
    (x.bind f).Follows m post s ↔ x.Follows m (fun t a => (f a).Follows m post t) s := by
  induction x generalizing s with
  | done a => rfl
  | perform op next ih => simp only [bind, Follows, ih]

theorem Follows.mono {post' : S → α → Prop} {x : Program Op Reply α} (h : x.Follows m post s)
    (hpost : ∀ t a, post t a → post' t a) : x.Follows m post' s := by
  induction x generalizing s with
  | done a => exact hpost s a h
  | perform op next ih => exact ⟨h.1, fun reply hreply => ih reply (h.2 reply hreply)⟩

theorem follows_of_forall {x : Program Op Reply α} (hallowed : ∀ t op, m.allowed t op)
    (hpost : ∀ t a, post t a) : x.Follows m post s := by
  induction x generalizing s with
  | done a => exact hpost s a
  | perform op next ih => exact ⟨hallowed s op, fun reply _ => ih reply⟩

/-- The program performs these operations only, whatever the replies are. -/
def Performs (operations : Op → Prop) (post : α → Prop) : Program Op Reply α → Prop
  | .done a => post a
  | .perform op next => operations op ∧ ∀ reply, Performs operations post (next reply)

theorem performs_bind {operations : Op → Prop} {post : β → Prop} {x : Program Op Reply α}
    {f : α → Program Op Reply β} :
    (x.bind f).Performs operations post ↔
      x.Performs operations fun a => (f a).Performs operations post := by
  induction x with
  | done a => rfl
  | perform op next ih => simp only [bind, Performs, ih]

/-- Operations that a monitor always allows and does not notice. -/
def Unnoticed (m : Monitor Op Reply S) (s : S) (op : Op) : Prop :=
  m.allowed s op ∧ ∀ reply, m.next s op reply = s

theorem Performs.follows {operations : Op → Prop} {post : α → Prop} {x : Program Op Reply α}
    (h : x.Performs operations post) (hunnoticed : ∀ op, operations op → Unnoticed m s op) :
    x.Follows m (fun t a => t = s ∧ post a) s := by
  induction x with
  | done a => exact ⟨rfl, h⟩
  | perform op next ih =>
    obtain ⟨hallowed, hsame⟩ := hunnoticed op h.1
    refine ⟨hallowed, fun reply _ => ?_⟩
    rw [hsame reply]
    exact ih reply (h.2 reply)

/-- Operations that a monitor always allows in the states that they lead to. -/
def Stable (m : Monitor Op Reply S) (R : S → Prop) (operations : Op → Prop) : Prop :=
  ∀ t op, R t → operations op → m.allowed t op ∧ ∀ reply, R (m.next t op reply)

theorem Performs.follows_of {operations : Op → Prop} {post : α → Prop} {R : S → Prop}
    {x : Program Op Reply α} (h : x.Performs operations post) (hstable : Stable m R operations)
    (hs : R s) : x.Follows m (fun t a => R t ∧ post a) s := by
  induction x generalizing s with
  | done a => exact ⟨hs, h⟩
  | perform op next ih =>
    obtain ⟨hallowed, hnext⟩ := hstable s op hs h.1
    exact ⟨hallowed, fun reply _ => ih reply (h.2 reply) (hnext reply)⟩

theorem Performs.mono {operations operations' : Op → Prop} {post post' : α → Prop}
    {x : Program Op Reply α} (h : x.Performs operations post)
    (hoperations : ∀ op, operations op → operations' op) (hpost : ∀ a, post a → post' a) :
    x.Performs operations' post' := by
  induction x with
  | done a => exact hpost a h
  | perform op next ih => exact ⟨hoperations op h.1, fun reply => ih reply (h.2 reply)⟩

end Program

namespace Async

variable {m : Monitor Op Reply S} {s : S}

/-- The program follows the monitor; `post` describes how it returns or throws. -/
def Follows (m : Monitor Op Reply S) (post : S → Except ε α → Prop) (x : Async Op Reply ε α)
    (s : S) : Prop := Program.Follows m post x s

/-- What has to hold of the outcome of a first program for a second one to go on from it. -/
def goesOn (m : Monitor Op Reply S) (post : S → Except ε β → Prop) (f : α → Async Op Reply ε β) :
    S → Except ε α → Prop
  | t, .ok a => (f a).Follows m post t
  | t, .error e => post t (.error e)

/-- What has to hold of the outcome of a program for its handler to go on from it. -/
def recovers (m : Monitor Op Reply S) (post : S → Except ε α → Prop)
    (handle : ε → Async Op Reply ε α) : S → Except ε α → Prop
  | t, .ok a => post t (.ok a)
  | t, .error e => (handle e).Follows m post t

@[simp] theorem goesOn_ok {post : S → Except ε β → Prop} {f : α → Async Op Reply ε β} {a : α} :
    goesOn m post f s (.ok a) ↔ (f a).Follows m post s := Iff.rfl

@[simp] theorem goesOn_error {post : S → Except ε β → Prop} {f : α → Async Op Reply ε β} {e : ε} :
    goesOn m post f s (.error e) ↔ post s (.error e) := Iff.rfl

@[simp] theorem recovers_ok {post : S → Except ε α → Prop} {handle : ε → Async Op Reply ε α} {a : α} :
    recovers m post handle s (.ok a) ↔ post s (.ok a) := Iff.rfl

@[simp] theorem recovers_error {post : S → Except ε α → Prop} {handle : ε → Async Op Reply ε α}
    {e : ε} : recovers m post handle s (.error e) ↔ (handle e).Follows m post s := Iff.rfl

@[simp] theorem follows_pure {post : S → Except ε α → Prop} {a : α} :
    (pure a : Async Op Reply ε α).Follows m post s ↔ post s (.ok a) := Iff.rfl

@[simp] theorem follows_monadLift {post : S → Except ε α → Prop} {outcome : Except ε α} :
    (liftM outcome : Async Op Reply ε α).Follows m post s ↔ post s outcome := Iff.rfl

@[simp] theorem follows_ask {op : Op} {post : S → Except ε (Reply op) → Prop} :
    (ask op : Async Op Reply ε (Reply op)).Follows m post s ↔
      m.allowed s op ∧ ∀ reply, m.replies s op reply → post (m.next s op reply) (.ok reply) :=
  Iff.rfl

@[simp] theorem follows_bind {post : S → Except ε β → Prop} {x : Async Op Reply ε α}
    {f : α → Async Op Reply ε β} :
    (x >>= f).Follows m post s ↔ x.Follows m (goesOn m post f) s := by
  refine Program.follows_bind.trans (Iff.of_eq (congrArg (Program.Follows m · x s) ?_))
  funext t r
  cases r <;> rfl

@[simp] theorem follows_tryCatch {post : S → Except ε α → Prop} {x : Async Op Reply ε α}
    {handle : ε → Async Op Reply ε α} :
    (tryCatch x handle).Follows m post s ↔ x.Follows m (recovers m post handle) s := by
  refine Program.follows_bind.trans (Iff.of_eq (congrArg (Program.Follows m · x s) ?_))
  funext t r
  cases r <;> rfl

theorem follows_check {post : S → Except ε β → Prop} {outcome : Except ε α}
    {f : α → Async Op Reply ε β} (herror : ∀ e, post s (.error e))
    (hrest : ∀ a, outcome = .ok a → (f a).Follows m post s) :
    ((liftM outcome : Async Op Reply ε α) >>= f).Follows m post s := by
  rw [follows_bind, follows_monadLift]
  cases outcome with
  | ok a => exact hrest a rfl
  | error e => exact herror e

theorem follows_asking {op : Op} {post : S → Except ε β → Prop} {f : Reply op → Async Op Reply ε β}
    (hallowed : m.allowed s op)
    (hrest : ∀ reply, m.replies s op reply → (f reply).Follows m post (m.next s op reply)) :
    (ask op >>= f).Follows m post s := by
  rw [follows_bind]
  exact ⟨hallowed, hrest⟩

theorem follows_reply {op : Op} {post : S → Except ε β → Prop} {check : Reply op → Except ε α}
    {f : α → Async Op Reply ε β} (hallowed : m.allowed s op)
    (herror : ∀ reply e, check reply = .error e → post (m.next s op reply) (.error e))
    (hrest : ∀ reply a, m.replies s op reply → check reply = .ok a →
      (f a).Follows m post (m.next s op reply)) :
    ((do let reply ← ask op; check reply) >>= f).Follows m post s := by
  rw [follows_bind]
  apply follows_asking hallowed
  intro reply hreply
  rw [follows_monadLift]
  cases hcheck : check reply with
  | ok a => exact hrest reply a hreply hcheck
  | error e => exact herror reply e hcheck

theorem Follows.mono {post post' : S → Except ε α → Prop} {x : Async Op Reply ε α}
    (h : x.Follows m post s) (hpost : ∀ t r, post t r → post' t r) : x.Follows m post' s :=
  Program.Follows.mono h hpost

/-- The program performs these operations only. -/
def Performs (operations : Op → Prop) (post : Except ε α → Prop) (x : Async Op Reply ε α) : Prop :=
  Program.Performs operations post x

/-- What has to hold of the outcome of a first program for a second one to go on from it. -/
def performsOn (operations : Op → Prop) (post : Except ε β → Prop) (f : α → Async Op Reply ε β) :
    Except ε α → Prop
  | .ok a => (f a).Performs operations post
  | .error e => post (.error e)

variable {operations : Op → Prop}

@[simp] theorem performsOn_ok {post : Except ε β → Prop} {f : α → Async Op Reply ε β} {a : α} :
    performsOn operations post f (.ok a) ↔ (f a).Performs operations post := Iff.rfl

@[simp] theorem performsOn_error {post : Except ε β → Prop} {f : α → Async Op Reply ε β} {e : ε} :
    performsOn operations post f (.error e) ↔ post (.error e) := Iff.rfl

@[simp] theorem performs_pure {post : Except ε α → Prop} {a : α} :
    (pure a : Async Op Reply ε α).Performs operations post ↔ post (.ok a) := Iff.rfl

@[simp] theorem performs_throw {post : Except ε α → Prop} {e : ε} :
    (throw e : Async Op Reply ε α).Performs operations post ↔ post (.error e) := Iff.rfl

@[simp] theorem performs_monadLift {post : Except ε α → Prop} {outcome : Except ε α} :
    (liftM outcome : Async Op Reply ε α).Performs operations post ↔ post outcome := Iff.rfl

@[simp] theorem performs_ask {op : Op} {post : Except ε (Reply op) → Prop} :
    (ask op : Async Op Reply ε (Reply op)).Performs operations post ↔
      operations op ∧ ∀ reply, post (.ok reply) := Iff.rfl

@[simp] theorem performs_bind {post : Except ε β → Prop} {x : Async Op Reply ε α}
    {f : α → Async Op Reply ε β} :
    (x >>= f).Performs operations post ↔ x.Performs operations (performsOn operations post f) := by
  refine Program.performs_bind.trans (Iff.of_eq (congrArg (Program.Performs operations · x) ?_))
  funext r
  cases r <;> rfl

theorem Performs.mono {post post' : Except ε α → Prop} {x : Async Op Reply ε α}
    (h : x.Performs operations post) (hpost : ∀ r, post r → post' r) :
    x.Performs operations post' :=
  Program.Performs.mono h (fun _ h => h) hpost

theorem Performs.follows {post : Except ε α → Prop} {post' : S → Except ε α → Prop}
    {x : Async Op Reply ε α} (h : x.Performs operations post)
    (hunnoticed : ∀ op, operations op → Program.Unnoticed m s op)
    (hpost : ∀ r, post r → post' s r) : x.Follows m post' s :=
  (Program.Performs.follows h hunnoticed).mono fun _ r hr => hr.1 ▸ hpost r hr.2

/-- The program performs these operations only, and what it returns is as described. Nothing is
said of what it throws. -/
def Ensures (operations : Op → Prop) (post : α → Prop) (x : Async Op Reply ε α) : Prop :=
  x.Performs operations fun r => ∀ a, r = .ok a → post a

variable {post : α → Prop} {x : Async Op Reply ε α}

@[simp] theorem ensures_pure {a : α} :
    (pure a : Async Op Reply ε α).Ensures operations post ↔ post a := by
  simp [Ensures]

@[simp] theorem ensures_throw {e : ε} :
    (throw e : Async Op Reply ε α).Ensures operations post := by
  simp [Ensures]

@[simp] theorem ensures_monadLift {outcome : Except ε α} :
    (liftM outcome : Async Op Reply ε α).Ensures operations post ↔
      ∀ a, outcome = .ok a → post a := by
  simp [Ensures]

@[simp] theorem ensures_ask {op : Op} {post : Reply op → Prop} :
    (ask op : Async Op Reply ε (Reply op)).Ensures operations post ↔
      operations op ∧ ∀ reply, post reply := by
  simp [Ensures]

@[simp] theorem ensures_bind {post : β → Prop} {f : α → Async Op Reply ε β} :
    (x >>= f).Ensures operations post ↔
      x.Ensures operations fun a => (f a).Ensures operations post := by
  rw [Ensures, performs_bind, Ensures]
  refine Iff.of_eq (congrArg (Performs operations · x) (funext fun r => ?_))
  cases r <;> simp [Ensures]

@[simp] theorem ensures_attempt {post : Except ε α → Prop} :
    x.attempt.Ensures operations post ↔ x.Performs operations post := by
  refine Program.performs_bind.trans (Iff.of_eq (congrArg (Performs operations · x) (funext fun r => ?_)))
  exact propext ⟨fun h => h r rfl, fun h a ha => Except.ok.inj ha ▸ h⟩

theorem Ensures.mono {operations' : Op → Prop} {post' : α → Prop} (h : x.Ensures operations post)
    (hoperations : ∀ op, operations op → operations' op) (hpost : ∀ a, post a → post' a) :
    x.Ensures operations' post' :=
  Program.Performs.mono h hoperations fun _ hr a ha => hpost a (hr a ha)

theorem Ensures.follows_bind {f : α → Async Op Reply ε β} {post' : S → Except ε β → Prop}
    (h : x.Ensures operations post) (hunnoticed : ∀ op, operations op → Program.Unnoticed m s op)
    (herror : ∀ e, post' s (.error e)) (hrest : ∀ a, post a → (f a).Follows m post' s) :
    (x >>= f).Follows m post' s := by
  rw [Async.follows_bind]
  refine Performs.follows h hunnoticed fun r hr => ?_
  cases r with
  | ok a => exact hrest a (hr a rfl)
  | error e => exact herror e

theorem Ensures.follows_bind_of {f : α → Async Op Reply ε β} {post' : S → Except ε β → Prop}
    {R : S → Prop} (h : x.Ensures operations post) (hstable : Program.Stable m R operations)
    (hs : R s) (herror : ∀ t e, R t → post' t (.error e))
    (hrest : ∀ t a, R t → post a → (f a).Follows m post' t) : (x >>= f).Follows m post' s := by
  rw [Async.follows_bind]
  refine (Program.Performs.follows_of h hstable hs).mono fun t r ⟨ht, hr⟩ => ?_
  cases r with
  | ok a => exact hrest t a ht (hr a rfl)
  | error e => exact herror t e ht

end Async

end Machine

/-!
## Programs among more operations

A program keeps what it does where there are further operations that it does not perform.
-/

namespace Machine

variable {Op More S : Type} {Reply : Op → Type} {Further : More → Type} {ε α β : Type}

abbrev EitherReply (Reply : Op → Type) (Further : More → Type) : Op ⊕ More → Type
  | .inl op => Reply op
  | .inr more => Further more

def Program.extended : Program Op Reply α → Program (Op ⊕ More) (EitherReply Reply Further) α
  | .done a => .done a
  | .perform op next => .perform (.inl op) fun reply => (next reply).extended

def Async.extended (x : Async Op Reply ε α) : Async (Op ⊕ More) (EitherReply Reply Further) ε α :=
  Program.extended x

def Monitor.restricted (m : Monitor (Op ⊕ More) (EitherReply Reply Further) S) :
    Monitor Op Reply S where
  next s op reply := m.next s (.inl op) reply
  allowed s op := m.allowed s (.inl op)
  replies s op reply := m.replies s (.inl op) reply

theorem Program.follows_extended {m : Monitor (Op ⊕ More) (EitherReply Reply Further) S}
    {post : S → α → Prop} {x : Program Op Reply α} {s : S} :
    x.extended.Follows m post s ↔ x.Follows m.restricted post s := by
  induction x generalizing s with
  | done a => rfl
  | perform op next ih => simp only [extended, Follows, Monitor.restricted, ih]

theorem Async.follows_extended {m : Monitor (Op ⊕ More) (EitherReply Reply Further) S}
    {post : S → Except ε α → Prop} {x : Async Op Reply ε α} {s : S} :
    x.extended.Follows m post s ↔ x.Follows m.restricted post s :=
  Program.follows_extended

end Machine

/-!
## Programs that gather knowledge

The state of a monitor often only grows: what a program has read or drawn stays known to it. A
program rises when it follows such a monitor; what is said of what it returns may then use all
that was known before.
-/

namespace Machine

variable {Op : Type} {Reply : Op → Type} {ε α β : Type} {S : Type} [Preorder S]

def Monitor.Upward (m : Monitor Op Reply S) : Prop := ∀ s op reply, s ≤ m.next s op reply

namespace Async

/-- The program follows the monitor up from a state, and what it returns is as described. Nothing
is said of what it throws. -/
def Rising (m : Monitor Op Reply S) (s : S) (post : S → α → Prop) (x : Async Op Reply ε α) : Prop :=
  x.Follows m (fun t r => s ≤ t ∧ ∀ a, r = .ok a → post t a) s

variable {m : Monitor Op Reply S} {s : S} {post : S → α → Prop} {x : Async Op Reply ε α}

theorem rising_pure {a : α} (h : post s a) : (pure a : Async Op Reply ε α).Rising m s post :=
  ⟨le_rfl, fun _ hb => Except.ok.inj hb ▸ h⟩

theorem rising_throw {e : ε} : (throw e : Async Op Reply ε α).Rising m s post :=
  ⟨le_rfl, fun _ hb => nomatch hb⟩

theorem rising_monadLift {outcome : Except ε α} (h : ∀ a, outcome = .ok a → post s a) :
    (liftM outcome : Async Op Reply ε α).Rising m s post :=
  follows_monadLift.mpr ⟨le_rfl, h⟩

theorem rising_ask {op : Op} {post : S → Reply op → Prop} (hm : m.Upward) (hallowed : m.allowed s op)
    (h : ∀ reply, m.replies s op reply → post (m.next s op reply) reply) :
    (ask op : Async Op Reply ε (Reply op)).Rising m s post := by
  refine follows_ask.mpr ⟨hallowed, fun reply hreply => ⟨hm s op reply, fun a ha => ?_⟩⟩
  obtain rfl := Except.ok.inj ha
  exact h _ hreply

theorem Rising.mono {post' : S → α → Prop} (h : x.Rising m s post)
    (hpost : ∀ t a, s ≤ t → post t a → post' t a) : x.Rising m s post' :=
  Follows.mono h fun t _ hr => ⟨hr.1, fun a ha => hpost t a hr.1 (hr.2 a ha)⟩

theorem Rising.bind {post' : S → β → Prop} {f : α → Async Op Reply ε β} (h : x.Rising m s post)
    (hrest : ∀ t a, s ≤ t → post t a → (f a).Rising m t post') : (x >>= f).Rising m s post' := by
  refine follows_bind.mpr (Follows.mono h fun t r hr => ?_)
  cases r with
  | ok a =>
    exact Follows.mono (hrest t a hr.1 (hr.2 a rfl)) fun u _ hu => ⟨hr.1.trans hu.1, hu.2⟩
  | error e => exact ⟨hr.1, fun _ hb => nomatch hb⟩

theorem Rising.check {post' : S → β → Prop} {outcome : Except ε α} {f : α → Async Op Reply ε β}
    (hrest : ∀ a, outcome = .ok a → (f a).Rising m s post') :
    ((liftM outcome : Async Op Reply ε α) >>= f).Rising m s post' := by
  refine follows_check (fun e => ⟨le_rfl, fun _ hb => nomatch hb⟩) fun a ha => ?_
  exact hrest a ha

theorem Rising.tryCatch {handle : ε → Async Op Reply ε α} (h : x.Rising m s post)
    (hhandle : ∀ t e, s ≤ t → (handle e).Rising m t post) :
    (tryCatch x handle).Rising m s post := by
  refine follows_tryCatch.mpr (Follows.mono h fun t r hr => ?_)
  cases r with
  | ok a => exact hr
  | error e => exact Follows.mono (hhandle t e hr.1) fun u _ hu => ⟨hr.1.trans hu.1, hu.2⟩

theorem rising_foldlM {I : S → β → Prop} {f : β → α → Async Op Reply ε β} {as : List α} {b : β}
    (hb : I s b)
    (hstep : ∀ t b a, s ≤ t → a ∈ as → I t b → (f b a).Rising m t I) :
    (as.foldlM f b).Rising m s I := by
  induction as generalizing s b with
  | nil => exact rising_pure hb
  | cons a as ih =>
    rw [List.foldlM_cons]
    refine (hstep s b a le_rfl List.mem_cons_self hb).bind fun t c hst hc => ih hc ?_
    exact fun u d a' htu ha' hd => hstep u d a' (hst.trans htu) (List.mem_cons_of_mem a ha') hd

theorem rising_forM {f : α → Async Op Reply ε PUnit} {as : List α} {I : S → Prop} (hs : I s)
    (hstep : ∀ t a, s ≤ t → a ∈ as → I t → (f a).Rising m t fun u _ => I u) :
    (as.forM f).Rising m s fun t _ => I t := by
  induction as generalizing s with
  | nil => exact rising_pure hs
  | cons a as ih =>
    change (f a >>= fun _ => as.forM f).Rising m s _
    refine (hstep s a le_rfl List.mem_cons_self hs).bind fun t _ hst ht => ih ht ?_
    exact fun u a' htu ha' hu => hstep u a' (hst.trans htu) (List.mem_cons_of_mem a ha') hu

theorem rising_mapM' {f : α → Async Op Reply ε β} {as : List α} {I : S → Prop} (hs : I s)
    (hstep : ∀ t a, s ≤ t → a ∈ as → I t → (f a).Rising m t fun u _ => I u) :
    (as.mapM' f).Rising m s fun t _ => I t := by
  induction as generalizing s with
  | nil => exact rising_pure hs
  | cons a as ih =>
    rw [List.mapM'_cons]
    refine (hstep s a le_rfl List.mem_cons_self hs).bind fun t b hst ht => ?_
    refine (ih ht fun u a' htu ha' hu => ?_).bind fun u bs _ hu => rising_pure hu
    exact hstep u a' (hst.trans htu) (List.mem_cons_of_mem a ha') hu

end Async

end Machine
