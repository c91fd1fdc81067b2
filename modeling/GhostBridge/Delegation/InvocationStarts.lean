import GhostBridge.Delegation.InvocationRuns

/-!
# Starts of delegated invocations

Where a grant is ended only while no other invocation is on its way, and no invocation is replayed
under a grant that has ended, none starts under a grant that has ended.
-/

namespace GhostBridge.Delegation

open Ecma Machine

variable {digests : Digests} {db : Database} {op : Op} {answer : Answer} {id : ObjectId}
  {grant : Grant} {change : GrantChange} {created : NewGrants} {entries : ℕ → Entry}
  {calls : List (ℕ × Answer)}

def GrantStatus.isEnded (status : GrantStatus) : Bool := status ∈ [revoked, rejected, expired]

def Grant.isEnded (grant : Grant) : Bool := grant.state.status.isEnded

theorem terminal_of_ended (h : grant.isEnded = true) : grant.state.status.isTerminal = true := by
  unfold Grant.isEnded at h
  cases hstatus : grant.state.status <;> rw [hstatus] at h <;> first | rfl | cases h

def GrantChange.ends : GrantChange → Bool
  | .settle _ _ | .expire | .revoke _ | .close _ _ false => true
  | _ => false

/-- How far an invocation has come: it has not read its grant, it is on its way under one that had
not ended when it was read, it has read one that had ended, or it has started or ended the grant. -/
inductive Phase where
  | outside
  | within (id : ObjectId)
  | barred (id : ObjectId)
  | past
deriving DecidableEq

def Phase.next : Phase → (op : Op) → Reply op → Phase
  | .outside, .findGrant id _, .ok (some grant) => if grant.isEnded then .barred id else .within id
  | .outside, .changeGrant _ _, _ => .past
  | .within id, .changeGrant _ change, _ => if change.ends then .past else .within id
  | .within _, .closeGrants _ _ _, _ => .past
  | .within _, .invoke _ _, _ => .past
  | phase, _, _ => phase

/-- An invocation starts only on its way under its grant; one that is barred looks for invocations
of the grant that it has read. -/
def Phase.allowed (phase : Phase) : Op → Prop
  | .changeInvocation id _ .start | .invoke id _ => phase = .within id
  | .findInvocation id _ => ∀ other, phase = .barred other → other = id
  | _ => True

/-- An invocation that is barred finds none that it could replay. -/
def Phase.replies : Phase → (op : Op) → Reply op → Prop
  | .barred _, .findInvocation _ _, reply => ∀ invocation, reply ≠ .ok (some invocation)
  | _, _, _ => True

def conduct : Monitor Op Reply Phase where
  next := Phase.next
  allowed := Phase.allowed
  replies := Phase.replies

def phaseOf (w : InvocationWorld) (i : ℕ) : Phase := w.states conduct (fun _ => .outside) i

def InFlight (w : InvocationWorld) (i : ℕ) (id : ObjectId) : Prop :=
  phaseOf w i = .within id ∧ ∃ op, w.Next i op

def Starts (w : InvocationWorld) (call : ℕ × Answer) (id : ObjectId) : Prop :=
  ∃ invocationId, w.Next call.1 (.changeInvocation id invocationId .start) ∨
    w.Next call.1 (.invoke id invocationId)

/-- A turn ends no grant under which another invocation is on its way, and finds no invocation to
replay under a grant that has ended. -/
structure Orderly (digests : Digests) (w : InvocationWorld) (call : ℕ × Answer) : Prop where
  ends : ∀ i id grant next, i ≠ call.1 → InFlight w i id → w.store.grants id = some grant →
    (w.turn (perform digests) call).store.grants id = some next → next.isEnded = true →
    grant.isEnded = true
  replays : ∀ id key invocation grant, w.Next call.1 (.findInvocation id key) →
    (perform digests w.store (.findInvocation id key) call.2).1 = .ok (some invocation) →
    w.store.grants id = some grant → grant.isEnded = false

def StaysWithin {α : Type} (id : ObjectId) (post : α → Prop) (x : Flow α) : Prop :=
  x.Follows conduct (fun t r => ∀ a, r = .ok a → t = .within id ∧ post a) (.within id)

section StaysWithin

variable {α β : Type} {post : α → Prop} {post' : β → Prop}

theorem staysWithin_pure {a : α} (h : post a) : StaysWithin id post (pure a) := by
  intro b hb
  obtain rfl := Except.ok.inj hb
  exact ⟨rfl, h⟩

theorem staysWithin_throw {failure : Failure} : StaysWithin id post (throw failure : Flow α) := by
  intro a ha
  cases ha

theorem StaysWithin.bind {x : Flow α} {f : α → Flow β} (hx : StaysWithin id post x)
    (hf : ∀ a, post a → StaysWithin id post' (f a)) : StaysWithin id post' (x >>= f) := by
  unfold StaysWithin
  rw [Async.follows_bind]
  refine Async.Follows.mono hx fun t r h => ?_
  cases r with
  | ok a =>
    obtain ⟨rfl, ha⟩ := h a rfl
    exact hf a ha
  | error e =>
    intro b hb
    cases hb

theorem staysWithin_check {outcome : Created α} {f : α → Flow β}
    (hf : ∀ a, outcome = .ok a → StaysWithin id post' (f a)) :
    StaysWithin id post' ((liftM outcome : Flow α) >>= f) := by
  apply Async.follows_check
  · intro e b hb
    cases hb
  · exact hf

theorem staysWithin_ask {op : Op} {f : Reply op → Flow β}
    (hallowed : Phase.allowed (.within id) op)
    (hnext : ∀ reply, Phase.next (.within id) op reply = .within id)
    (hf : ∀ reply, StaysWithin id post' (f reply)) :
    StaysWithin id post' (Async.ask op >>= f) := by
  unfold StaysWithin
  rw [Async.follows_bind]
  refine ⟨hallowed, fun reply _ => ?_⟩
  rw [show conduct.next (.within id) op reply = .within id from hnext reply]
  exact hf reply

theorem staysWithin_fails {x : Flow α} {failure : Failure}
    (hx : x.Follows conduct (fun _ _ => True) (.within id)) :
    StaysWithin id post' (x >>= fun _ => (throw failure : Flow β)) := by
  unfold StaysWithin
  rw [Async.follows_bind]
  refine Async.Follows.mono hx fun t r _ => ?_
  cases r with
  | ok a =>
    intro b hb
    cases hb
  | error e =>
    intro b hb
    cases hb

theorem staysWithin_currentTime (options : Options) :
    StaysWithin id (fun _ => True) (currentTime options) := by
  unfold currentTime
  split
  · exact staysWithin_pure trivial
  · refine ⟨trivial, fun now _ a ha => ⟨rfl, trivial⟩⟩

theorem staysWithin_checkStage (stage : Stage) :
    StaysWithin id (fun _ => True) (check stage) := by
  unfold check
  apply staysWithin_ask
  · trivial
  · exact fun _ => rfl
  · exact fun _ _ _ => ⟨rfl, trivial⟩

end StaysWithin

theorem staysWithin_changeGrant {other : ObjectId} (hends : change.ends = false) :
    StaysWithin id (fun _ => True) (changeGrant other change) := by
  unfold changeGrant
  apply staysWithin_ask
  · trivial
  · intro reply
    simp only [Phase.next, hends, Bool.false_eq_true, if_false]
  · exact fun _ _ _ => ⟨rfl, trivial⟩

theorem follows_changeGrant {other : ObjectId} {phase : Phase} :
    (changeGrant other change).Follows conduct (fun _ _ => True) phase :=
  ⟨trivial, fun _ _ => trivial⟩

theorem staysWithin_findInvocation (other : ObjectId) (key : Text) :
    StaysWithin id (fun _ => True) (findInvocation other key) := by
  unfold findInvocation
  apply staysWithin_ask
  · intro barred h
    cases h
  · exact fun _ => rfl
  · exact fun _ _ _ => ⟨rfl, trivial⟩

theorem staysWithin_activateApprovedGrant (grant : Grant) :
    StaysWithin id (fun _ => True) (activateApprovedGrant id grant) := by
  unfold activateApprovedGrant
  split
  · exact staysWithin_pure trivial
  apply staysWithin_ask
  · trivial
  · exact fun _ => rfl
  intro reply
  apply staysWithin_check
  intro found _
  split
  · exact staysWithin_throw
  · apply StaysWithin.bind (staysWithin_changeGrant rfl)
    exact fun _ _ => staysWithin_pure trivial
  · exact staysWithin_throw
  · exact staysWithin_throw
  · exact staysWithin_fails follows_changeGrant

theorem staysWithin_markExhausted (reserved : Grant) :
    StaysWithin id (fun _ => True) (markExhausted id reserved) := by
  unfold markExhausted
  split
  · apply StaysWithin.bind (staysWithin_changeGrant rfl)
    exact fun _ _ => staysWithin_pure trivial
  · exact staysWithin_pure trivial

theorem staysWithin_unreserved (key : Text) (scope : Scope) (now : Int) :
    StaysWithin id (fun _ => True) (unreserved digests id key scope now) := by
  unfold unreserved
  apply staysWithin_ask
  · trivial
  · exact fun _ => rfl
  intro reply
  apply staysWithin_check
  intro existing _
  split
  · split
    · exact staysWithin_pure trivial
    · exact staysWithin_throw
  · split
    · exact staysWithin_fails follows_changeGrant
    · exact staysWithin_throw

theorem staysWithin_reserveGrantInvocation (grant : Grant) (key : Text) (scope : Scope)
    (options : Options) :
    StaysWithin id (fun _ => True) (reserveGrantInvocation digests id grant key scope options) := by
  unfold reserveGrantInvocation
  apply StaysWithin.bind (staysWithin_currentTime options)
  intro now _
  apply StaysWithin.bind (staysWithin_changeGrant rfl)
  intro reserved _
  split
  · exact staysWithin_unreserved key scope now
  · apply StaysWithin.bind (staysWithin_markExhausted _)
    exact fun _ _ => staysWithin_pure trivial

theorem staysWithin_createInvocation (scope : Scope) (key : Text) (ordinal : ℕ) :
    StaysWithin id (fun _ => True) (createInvocation scope id key ordinal) := by
  unfold createInvocation StaysWithin
  rw [Async.follows_tryCatch, Async.follows_bind]
  refine ⟨trivial, fun reply _ => ?_⟩
  cases reply with
  | ok invocation => exact fun _ _ => ⟨rfl, trivial⟩
  | error failure =>
    change StaysWithin id (fun _ => True) (if failure ≠ .duplicateKey then throw failure else _)
    split
    · exact staysWithin_throw
    · apply StaysWithin.bind (staysWithin_findInvocation id key)
      intro found _
      split
      · exact staysWithin_pure trivial
      · exact staysWithin_throw

theorem staysWithin_issueDelegationReference (grant : Grant) (invocation : Invocation)
    (options : Options) :
    StaysWithin id (fun _ => True) (issueDelegationReference id grant invocation options) := by
  unfold issueDelegationReference
  apply StaysWithin.bind (staysWithin_currentTime options)
  intro now _
  apply staysWithin_ask
  · trivial
  · exact fun _ => rfl
  intro token
  apply staysWithin_ask
  · trivial
  · exact fun _ => rfl
  intro reply
  apply staysWithin_check
  exact fun _ _ => staysWithin_pure trivial

theorem staysWithin_prepareUnderGrant (input : ExecuteInput) (options : Options) (now : Int)
    (found : Grant) :
    StaysWithin id (fun prepared => prepared.grantId = id)
      (prepareUnderGrant digests input options now id found) := by
  unfold prepareUnderGrant
  apply StaysWithin.bind (staysWithin_findInvocation id _)
  intro existing _
  apply StaysWithin.bind (staysWithin_checkStage _)
  intro _ _
  apply StaysWithin.bind (staysWithin_activateApprovedGrant found)
  intro grant _
  apply staysWithin_check
  intro _ _
  apply StaysWithin.bind (staysWithin_checkStage _)
  intro _ _
  have hend (reserved : Grant × Bool) (invocation : Invocation) :
      StaysWithin id (fun prepared => prepared.grantId = id) (do
        let reference ← issueDelegationReference id reserved.1 invocation options
        return (⟨id, reserved.1, invocation, reference, existing.isSome || reserved.2⟩ :
          PreparedInvocation)) := by
    apply StaysWithin.bind (staysWithin_issueDelegationReference _ _ _)
    exact fun _ _ => staysWithin_pure rfl
  cases existing with
  | some invocation => exact hend (grant, true) invocation
  | none =>
    apply StaysWithin.bind (staysWithin_reserveGrantInvocation _ _ _ _)
    intro reserved _
    apply StaysWithin.bind (staysWithin_createInvocation _ _ _)
    exact fun invocation _ => hend reserved invocation

theorem follows_checkStage {α : Type} {stage : Stage} {f : Unit → Flow α}
    {post : Phase → Except Failure α → Prop} {phase : Phase} (herror : ∀ e, post phase (.error e))
    (hf : (f ()).Follows conduct post phase) :
    (check stage >>= f).Follows conduct post phase := by
  have hnext (reply : Created Unit) : conduct.next phase (.check stage) reply = phase := by
    cases phase <;> rfl
  unfold check
  rw [Async.follows_bind, Async.follows_bind]
  refine ⟨trivial, fun reply _ => ?_⟩
  rw [hnext reply]
  cases reply with
  | ok u => exact hf
  | error e => exact herror e

theorem follows_prepareUnderGrant_barred (input : ExecuteInput) (options : Options) (now : Int)
    {found : Grant} (hended : found.isEnded = true) :
    (prepareUnderGrant digests input options now id found).Follows conduct
      (fun _ r => ∀ prepared, r ≠ .ok prepared) (.barred id) := by
  have hstatus : found.state.status ≠ .pending ∧ found.state.status ≠ .active := by
    unfold Grant.isEnded at hended
    constructor <;>
      · intro hstatus
        rw [hstatus] at hended
        cases hended
  unfold prepareUnderGrant findInvocation
  rw [Async.follows_bind, Async.follows_bind]
  refine ⟨fun other hother => (Phase.barred.inj hother).symm, fun reply hreply => ?_⟩
  rcases reply with e | (_ | invocation)
  · intro prepared h
    cases h
  · apply follows_checkStage
    · intro e prepared h
      cases h
    unfold activateApprovedGrant
    rw [if_pos hstatus.1]
    apply Async.follows_check
    · intro e prepared h
      cases h
    intro grant hgrant
    obtain rfl := Except.ok.inj hgrant
    apply Async.follows_check
    · intro e prepared h
      cases h
    intro u hcheck
    obtain ⟨_, hactive, -⟩ := bind_ok.mp hcheck
    simp [hstatus.2] at hactive
  · exact absurd rfl (hreply invocation)

theorem follows_prepareDelegatedInvocation (input : ExecuteInput) (options : Options) :
    (prepareDelegatedInvocation digests input options).Follows conduct
      (fun phase r => ∀ prepared, r = .ok prepared → phase = .within prepared.grantId) .outside := by
  have hread (now : Int) (id : ObjectId) : (do
      let found ← scopedGrant id input.scope
      prepareUnderGrant digests input options now id found : Flow PreparedInvocation).Follows conduct
        (fun phase r => ∀ prepared, r = .ok prepared → phase = .within prepared.grantId)
        .outside := by
    unfold scopedGrant
    rw [Async.follows_bind, Async.follows_bind]
    refine ⟨trivial, fun reply _ => ?_⟩
    rcases reply with e | (_ | found)
    · intro prepared h
      cases h
    · intro prepared h
      cases h
    change (prepareUnderGrant digests input options now id found).Follows conduct _
      (if found.isEnded then .barred id else .within id)
    cases hended : found.isEnded with
    | true =>
      refine (follows_prepareUnderGrant_barred input options now hended).mono fun t r h => ?_
      intro prepared hprepared
      exact absurd hprepared (h prepared)
    | false =>
      refine (staysWithin_prepareUnderGrant input options now found).mono fun t r h => ?_
      intro prepared hprepared
      obtain ⟨hphase, hid⟩ := h prepared hprepared
      rw [hphase, hid]
  have hchecked (now : Int) : (do
      let id ← orThrow grantNotFound (castObjectId input.grantId)
      let found ← scopedGrant id input.scope
      prepareUnderGrant digests input options now id found : Flow PreparedInvocation).Follows conduct
        (fun phase r => ∀ prepared, r = .ok prepared → phase = .within prepared.grantId)
        .outside := by
    apply Async.follows_check
    · intro e prepared h
      cases h
    · exact fun id _ => hread now id
  unfold prepareDelegatedInvocation currentTime
  split
  · exact hchecked _
  · rw [Async.follows_bind]
    exact ⟨trivial, fun now _ => hchecked now⟩

def Unbound {α : Type} (x : Flow α) : Prop :=
  x.Performs (fun op => ∀ phase, Phase.allowed phase op) fun _ => True

section Unbound

variable {α β : Type}

theorem Unbound.bind {x : Flow α} {f : α → Flow β} (hx : Unbound x) (hf : ∀ a, Unbound (f a)) :
    Unbound (x >>= f) := by
  unfold Unbound
  rw [Async.performs_bind]
  refine Async.Performs.mono hx fun r _ => ?_
  cases r with
  | ok a => exact hf a
  | error e => trivial

theorem unbound_ask {op : Op} (h : ∀ phase, Phase.allowed phase op) :
    Unbound (Async.ask op : Flow (Reply op)) :=
  ⟨h, fun _ => trivial⟩

theorem unbound_done (outcome : Created α) : Unbound (Async.lift outcome : Flow α) := trivial

theorem Unbound.follows {x : Flow α} (h : Unbound x) (phase : Phase) :
    x.Follows conduct (fun _ _ => True) phase := by
  have hstable : Program.Stable conduct (fun _ => True) fun op => ∀ phase, Phase.allowed phase op :=
    fun t op _ hop => ⟨hop t, fun _ => trivial⟩
  exact (Program.Performs.follows_of h hstable trivial).mono fun _ _ _ => trivial

theorem unbound_check (stage : Stage) : Unbound (check stage) := by
  apply Unbound.bind
  · exact unbound_ask fun _ => trivial
  · exact fun reply => unbound_done reply

theorem unbound_changeGrant (id : ObjectId) (change : GrantChange) :
    Unbound (changeGrant id change) := by
  apply Unbound.bind
  · exact unbound_ask fun _ => trivial
  · exact fun reply => unbound_done reply

theorem unbound_changeInvocation (grantId id : ObjectId) {change : InvocationChange}
    (h : change ≠ .start) : Unbound (changeInvocation grantId id change) := by
  apply Unbound.bind
  · apply unbound_ask
    intro phase
    cases change with
    | start => exact absurd rfl h
    | succeed => trivial
    | fail scope => trivial
  · exact fun reply => unbound_done reply

theorem unbound_completeDelegatedInvocation (prepared : PreparedInvocation) :
    Unbound (completeDelegatedInvocation prepared) := by
  apply Unbound.bind (unbound_check _)
  intro _
  apply Unbound.bind (unbound_check _)
  intro _
  apply Unbound.bind (unbound_changeInvocation _ _ (by decide))
  exact fun _ => unbound_done _

theorem unbound_failDelegatedInvocation (prepared : PreparedInvocation) (scope : Scope) :
    Unbound (failDelegatedInvocation prepared scope) := by
  apply Unbound.bind
  · apply unbound_changeInvocation
    intro h
    cases h
  · exact fun _ => unbound_done _

theorem unbound_scopedGrant (id : ObjectId) (scope : Scope) : Unbound (scopedGrant id scope) := by
  apply Unbound.bind
  · exact unbound_ask fun _ => trivial
  intro reply
  apply Unbound.bind (unbound_done reply)
  intro found
  split <;> exact unbound_done _

theorem unbound_revokeGrant (grantText : Text) (scope : Scope) :
    Unbound (revokeGrant grantText scope) := by
  apply Unbound.bind (unbound_check _)
  intro _
  apply Unbound.bind
  · unfold revokeGrantRecord
    apply Unbound.bind
    · exact unbound_ask fun _ => trivial
    intro now
    apply Unbound.bind (unbound_done _)
    intro id
    apply Unbound.bind (unbound_changeGrant _ _)
    intro found
    have hend (grant : Grant) : Unbound (do
        let reply ← Async.ask (.invalidateReferences (some id) none now)
        reply
        return grant : Flow Grant) := by
      apply Unbound.bind
      · exact unbound_ask fun _ => trivial
      intro reply
      apply Unbound.bind (unbound_done reply)
      exact fun _ => unbound_done _
    split
    · exact hend _
    · apply Unbound.bind (unbound_scopedGrant _ _)
      intro grant
      split
      · exact unbound_done _
      · exact hend grant
  · exact fun _ => unbound_done _

theorem unbound_closeRunGrants (run : ObjectId) (completed : Bool) (scope : Scope) :
    Unbound (closeRunGrants run completed scope) := by
  apply Unbound.bind
  · exact unbound_ask fun _ => trivial
  intro now
  apply Unbound.bind
  · exact unbound_ask fun _ => trivial
  intro reply
  apply Unbound.bind (unbound_done reply)
  intro _
  apply Unbound.bind
  · exact unbound_ask fun _ => trivial
  · exact fun reply => unbound_done reply

theorem unbound_markNodeFromApproval (grantId : ObjectId) (approvalRequestId : Text)
    (status : ApprovalStatus) :
    Unbound (markNodeFromApproval grantId approvalRequestId status) := by
  unfold markNodeFromApproval
  split
  · apply Unbound.bind (unbound_changeGrant _ _)
    exact fun _ => unbound_done _
  split
  · apply Unbound.bind (unbound_changeGrant _ _)
    exact fun _ => unbound_done _
  · exact unbound_done _

end Unbound

theorem staysWithin_consumeDelegationReference (token : Text) (scope : Scope)
    (grantId invocationId : ObjectId) (options : Options) :
    StaysWithin id (fun _ => True)
      (consumeDelegationReference token scope grantId invocationId options) := by
  unfold consumeDelegationReference
  apply StaysWithin.bind (staysWithin_currentTime options)
  intro now _
  apply staysWithin_ask
  · trivial
  · exact fun _ => rfl
  intro reply
  apply staysWithin_check
  intro found _
  split
  · exact staysWithin_pure trivial
  · exact staysWithin_throw

theorem follows_startDelegatedInvocation (prepared : PreparedInvocation) (scope : Scope)
    (options : Options) :
    (startDelegatedInvocation prepared scope options).Follows conduct (fun _ _ => True)
      (.within prepared.grantId) := by
  unfold startDelegatedInvocation
  rw [Async.follows_bind]
  refine Async.Follows.mono (staysWithin_consumeDelegationReference _ _ _ _ _) fun t r h => ?_
  cases r with
  | error e => trivial
  | ok reference =>
    rw [(h reference rfl).1]
    unfold changeInvocation
    rw [Async.goesOn_ok, Async.follows_bind, Async.follows_bind]
    refine ⟨rfl, fun reply _ => ?_⟩
    cases reply with
    | error e => trivial
    | ok changed =>
      refine ⟨rfl, fun reply _ => ?_⟩
      cases reply <;> trivial

theorem program_follows (entry : Entry) :
    (entry.program digests).Follows conduct (fun _ _ => True) .outside := by
  cases entry with
  | prepareDelegatedInvocation input options =>
    unfold Entry.program
    rw [Async.follows_bind]
    refine (follows_prepareDelegatedInvocation input options).mono fun t r _ => ?_
    cases r <;> trivial
  | executeDelegatedInvocation input options =>
    unfold Entry.program executeDelegatedInvocation
    rw [Async.follows_bind]
    refine (follows_prepareDelegatedInvocation input options).mono fun t r h => ?_
    cases r with
    | error e => trivial
    | ok prepared =>
      rw [h prepared rfl, Async.goesOn_ok, Async.follows_tryCatch, Async.follows_bind]
      have hrecover (phase : Phase) (outcome : Except Failure Unit) :
          Async.recovers conduct (fun _ _ => True) (fun error => do
            failDelegatedInvocation prepared input.scope
            throw error) phase outcome := by
        cases outcome with
        | ok u => trivial
        | error e =>
          apply Unbound.follows
          apply Unbound.bind (unbound_failDelegatedInvocation _ _)
          exact fun _ => unbound_done _
      refine (follows_startDelegatedInvocation prepared input.scope options).mono fun t r _ => ?_
      cases r with
      | error e => exact hrecover t (.error e)
      | ok u =>
        rw [Async.goesOn_ok]
        apply Async.Follows.mono (Unbound.follows ?_ t) fun t r _ => hrecover t r
        apply Unbound.bind (unbound_completeDelegatedInvocation prepared)
        exact fun _ => unbound_done _
  | revokeGrant grantText scope => exact (unbound_revokeGrant grantText scope).follows _
  | closeRunGrants run completed scope => exact (unbound_closeRunGrants run completed scope).follows _
  | markNodeFromApproval grantId approvalRequestId status =>
    exact (unbound_markNodeFromApproval grantId approvalRequestId status).follows _

def Sparing : Op → Prop
  | .changeGrant _ change => change.ends = false
  | .closeGrants _ _ _ => False
  | _ => True

def Read (id : ObjectId) (ended : Bool) : (op : Op) × Reply op → Prop
  | ⟨.findGrant other _, .ok (some grant)⟩ => other = id ∧ grant.isEnded = ended
  | _ => False

theorem within_of_next {phase : Phase} {op : Op} {reply : Reply op}
    (h : phase.next op reply = .within id) :
    phase = .within id ∧ Sparing op ∨ phase = .outside ∧ Read id false ⟨op, reply⟩ := by
  cases phase with
  | outside =>
    cases op with
    | findGrant other scope =>
      rcases reply with e | (_ | grant)
      · cases h
      · cases h
      · change (if grant.isEnded then Phase.barred other else .within other) = .within id at h
        split at h
        · cases h
        · next hopen => exact .inr ⟨rfl, Phase.within.inj h, by simpa using hopen⟩
    | _ => cases h
  | within other =>
    cases op with
    | changeGrant target change =>
      change (if change.ends then Phase.past else .within other) = .within id at h
      split at h
      · cases h
      · next hends => exact .inl ⟨h, by simpa [Sparing] using hends⟩
    | closeGrants run scope completed => cases h
    | invoke grantId invocationId => cases h
    | _ => exact .inl ⟨h, trivial⟩
  | _ => cases op <;> cases h

theorem barred_of_next {phase : Phase} {op : Op} {reply : Reply op}
    (h : phase.next op reply = .barred id) :
    phase = .barred id ∨ phase = .outside ∧ Read id true ⟨op, reply⟩ := by
  cases phase with
  | outside =>
    cases op with
    | findGrant other scope =>
      rcases reply with e | (_ | grant)
      · cases h
      · cases h
      · change (if grant.isEnded then Phase.barred other else .within other) = .barred id at h
        split at h
        · next hended => exact .inr ⟨rfl, Phase.barred.inj h, hended⟩
        · cases h
    | _ => cases h
  | within other =>
    cases op with
    | changeGrant target change =>
      change (if change.ends then Phase.past else .within other) = .barred id at h
      split at h <;> cases h
    | _ => cases h
  | barred other => exact .inl (by cases op <;> exact h)
  | past => cases op <;> cases h

theorem read_perform {ended : Bool} (h : Read id ended ⟨op, (perform digests db op answer).1⟩) :
    (perform digests db op answer).2.grants = db.grants ∧
      ∃ grant, db.grants id = some grant ∧ grant.isEnded = ended := by
  cases op with
  | findGrant other scope =>
    simp only [perform, performAt, Answer.available] at h ⊢
    by_cases hunavailable : answer.unavailable
    · rw [if_pos hunavailable] at h
      cases h
    · rw [if_neg hunavailable] at h ⊢
      refine ⟨rfl, ?_⟩
      unfold Database.findGrant at h
      cases hfound : (db.grants other).filter fun grant => grant.isIn scope with
      | none =>
        simp only [hfound] at h
        cases h
      | some grant =>
        simp only [hfound] at h
        obtain ⟨rfl, hended⟩ := h
        exact ⟨grant, (Option.filter_eq_some_iff.mp hfound).1, hended⟩
  | _ => exact h.elim

theorem isEnded_update (hends : change.ends = false) (hfilter : change.filter digests grant = true) :
    (change.update digests grant.state).status.isEnded = false := by
  cases change with
  | activate => rfl
  | settle => cases hends
  | reserve key scope now firstUsedAt =>
    simp only [GrantChange.filter, decide_eq_true_eq] at hfilter
    simp only [GrantChange.update, hfilter.2.1]
    rfl
  | expire => cases hends
  | exhaust => rfl
  | revoke => cases hends
  | close run scope completed =>
    cases completed with
    | true => rfl
    | false => cases hends

theorem open_perform (digests : Digests) (answer : Answer) (hsparing : Sparing op) (hgrant : db.grants id = some grant)
    (hopen : grant.isEnded = false) :
    ∃ next, (perform digests db op answer).2.grants id = some next ∧ next.isEnded = false := by
  obtain ⟨next, hnext, ⟨rfl, -⟩ | ⟨change, hchanges, happly, -⟩⟩ :=
    perform_grant digests op answer hgrant
  · exact ⟨next, hnext, hopen⟩
  · obtain ⟨hfilter, rfl⟩ := apply_eq_some.mp happly
    refine ⟨_, hnext, ?_⟩
    cases hchanges with
    | changeGrant => exact isEnded_update hsparing hfilter
    | closeGrants => exact hsparing.elim

/-- What is true of the grants of operations that are on their way, or barred. -/
structure Steady (w : InvocationWorld) : Prop where
  flight : ∀ i id, InFlight w i id → ∃ grant, w.store.grants id = some grant ∧ grant.isEnded = false
  barred : ∀ i id, phaseOf w i = .barred id →
    ∃ grant, w.store.grants id = some grant ∧ grant.isEnded = true

theorem steady_turn {w : InvocationWorld} {i : ℕ} {next : Reply op → Program Op Reply (Except Failure Unit)}
    (hsteady : Steady w) (horderly : Orderly digests w (i, answer))
    (hthread : w.thread i = .perform op next) : Steady (w.turn (perform digests) (i, answer)) := by
  have honward := onward_turn digests w (i, answer)
  have hphase (j : ℕ) : phaseOf (w.turn (perform digests) (i, answer)) j =
      Function.update (phaseOf w) i
        ((phaseOf w i).next op (perform digests w.store op answer).1) j :=
    congrFun (World.states_turn hthread conduct (fun _ => .outside) answer) j
  have hgrants : (w.turn (perform digests) (i, answer)).store.grants =
      (perform digests w.store op answer).2.grants := by
    rw [World.turn_perform hthread]
  constructor
  · intro j id hflight
    by_cases hj : j = i
    · subst hj
      have hwithin := hflight.1
      rw [hphase, Function.update_self] at hwithin
      rw [hgrants]
      rcases within_of_next hwithin with ⟨hbefore, hsparing⟩ | ⟨-, hread⟩
      · obtain ⟨grant, hgrant, hopen⟩ := hsteady.flight j id ⟨hbefore, op, next, hthread⟩
        exact open_perform digests answer hsparing hgrant hopen
      · obtain ⟨hsame, hgrant⟩ := read_perform hread
        rw [hsame]
        exact hgrant
    · have hbefore : InFlight w j id := by
        obtain ⟨hwithin, op', next', hthread'⟩ := hflight
        rw [hphase, Function.update_of_ne hj] at hwithin
        rw [World.turn_perform hthread] at hthread'
        exact ⟨hwithin, op', next', (Function.update_of_ne hj _ _).symm.trans hthread'⟩
      obtain ⟨grant, hgrant, hopen⟩ := hsteady.flight j id hbefore
      obtain ⟨found, hfound, -⟩ := honward id grant hgrant
      refine ⟨found, hfound, ?_⟩
      by_contra hended
      rw [horderly.ends j id grant found hj hbefore hgrant hfound
        (Bool.eq_true_of_not_eq_false hended)] at hopen
      cases hopen
  · intro j id hbarred
    have hstill (h : phaseOf w j = .barred id) : ∃ grant,
        (w.turn (perform digests) (i, answer)).store.grants id = some grant ∧
          grant.isEnded = true := by
      obtain ⟨grant, hgrant, hended⟩ := hsteady.barred j id h
      obtain ⟨found, hfound, -, hterminal⟩ := honward id grant hgrant
      refine ⟨found, hfound, ?_⟩
      rw [hterminal (terminal_of_ended hended)]
      exact hended
    by_cases hj : j = i
    · subst hj
      rw [hphase, Function.update_self] at hbarred
      rcases barred_of_next hbarred with hbefore | ⟨-, hread⟩
      · exact hstill hbefore
      · obtain ⟨hsame, hgrant⟩ := read_perform hread
        rw [hgrants, hsame]
        exact hgrant
    · rw [hphase, Function.update_of_ne hj] at hbarred
      exact hstill hbarred

theorem steady_invariant : Invariant (perform digests) conduct (fun _ => .outside)
    (Orderly digests) Steady where
  replies := by
    intro w i answer op next hsteady horderly hthread hallowed
    change Phase.replies (phaseOf w i) op _
    change Phase.allowed (phaseOf w i) op at hallowed
    cases hphase : phaseOf w i with
    | barred id =>
      cases op with
      | findInvocation other key =>
        rw [hphase] at hallowed
        obtain rfl := hallowed id rfl
        intro invocation hreply
        obtain ⟨grant, hgrant, hended⟩ := hsteady.barred i id hphase
        rw [horderly.replays id key invocation grant ⟨next, hthread⟩ hreply hgrant] at hended
        cases hended
      | _ => trivial
    | _ => trivial
  keeps := fun w i answer op next hsteady horderly hthread _ =>
    steady_turn hsteady horderly hthread

theorem starts_open
    (horderly : Guarded (World.turn (perform digests)) (Orderly digests)
      (worldAfter digests created entries []) calls)
    {before : List (ℕ × Answer)} {call : ℕ × Answer} ( hprefix : before ++ [call] <+: calls)
    (hstarts : Starts (worldAfter digests created entries before) call id) :
    ∃ grant, grantAfter digests created entries before id = some grant ∧ grant.isEnded = false := by
  obtain ⟨rest, rfl⟩ := hprefix
  rw [List.append_assoc] at horderly
  have hbefore := ((guarded_append before _).mp horderly).1
  have hstart : Steady (worldAfter digests created entries []) := by
    constructor
    · intro i id hflight
      cases hflight.1
    · intro i id hbarred
      cases hbarred
  have hmonitored : (worldAfter digests created entries []).Monitored conduct (fun _ => .outside)
      fun _ _ _ => True := fun i => program_follows (entries i)
  obtain ⟨hsteady, hmonitored⟩ := steady_invariant.after hstart hmonitored hbefore
  change Steady (worldAfter digests created entries before) at hsteady
  apply hsteady.flight call.1 id
  have hfollows := hmonitored call.1
  change ((worldAfter digests created entries before).thread call.1).Follows conduct _
    (phaseOf (worldAfter digests created entries before) call.1) at hfollows
  obtain ⟨invocationId, ⟨next, hthread⟩ | ⟨next, hthread⟩⟩ := hstarts
  · rw [hthread] at hfollows
    exact ⟨hfollows.1, _, next, hthread⟩
  · rw [hthread] at hfollows
    exact ⟨hfollows.1, _, next, hthread⟩

/-- The reservations of a grant are counted and within its limit, a grant does not leave a terminal
status, a reference is consumed once, and, in a run in which grants end in an orderly way, nothing
starts under a grant once it has been revoked, rejected or expired. -/
theorem delegation_law (digests : Digests) (created : NewGrants) (entries : ℕ → Entry)
    (calls : List (ℕ × Answer)) :
    (∀ id grant, grantAfter digests created entries calls id = some grant →
      (reservedKeys (worldAfter digests created entries calls).log id).Nodup ∧
        (reservedKeys (worldAfter digests created entries calls).log id).length =
          grant.state.invocationCount ∧
        grant.state.invocationCount ≤ grant.terms.invocationLimit) ∧
    (∀ before id grant, before <+: calls →
      grantAfter digests created entries before id = some grant →
      grant.state.status.isTerminal = true →
      grantAfter digests created entries calls id = some grant) ∧
    (∀ before call rest before' call' rest' token token', calls = before ++ call :: rest →
      calls = before' ++ call' :: rest' → digests.reference token = digests.reference token' →
      Consumes digests (worldAfter digests created entries before) call token →
      Consumes digests (worldAfter digests created entries before') call' token' →
      before = before') ∧
    (Guarded (World.turn (perform digests)) (Orderly digests)
        (worldAfter digests created entries []) calls →
      ∀ earlier before call id grant, earlier <+: before → before ++ [call] <+: calls →
        grantAfter digests created entries earlier id = some grant → grant.isEnded = true →
        ¬Starts (worldAfter digests created entries before) call id) := by
  refine ⟨?_, ?_, ?_, ?_⟩
  · intro id grant hgrant
    have hcounted := counted_after calls grant hgrant
    refine ⟨?_, ?_, hcounted.limit⟩
    · apply List.Nodup.of_map digests.idempotencyKey
      rw [← hcounted.hashes]
      exact hcounted.once
    · rw [hcounted.count, hcounted.hashes, List.length_map]
  · intro before id grant hprefix hgrant hterminal
    obtain ⟨next, hnext, -, hsame⟩ := onward_of_prefix hprefix id grant hgrant
    rw [hnext, hsame hterminal]
  · intro before call rest before' call' rest' token token' hcalls hcalls' hsame hfirst hsecond
    rcases before_or_after (hcalls.symm.trans hcalls') with heq | hlater | hearlier
    · exact heq
    · exact absurd hlater (consumed_once hsame hfirst hsecond)
    · exact absurd hearlier (consumed_once hsame.symm hsecond hfirst)
  · intro horderly earlier before call id grant hearlier hprefix hgrant hended hstarts
    obtain ⟨found, hfound, hopen⟩ := starts_open horderly hprefix hstarts
    obtain ⟨next, hnext, -, hsame⟩ := onward_of_prefix hearlier id grant hgrant
    obtain rfl := Option.some.inj (hnext.symm.trans hfound)
    rw [hsame (terminal_of_ended hended), hended] at hopen
    cases hopen

private def looksUp (w : InvocationWorld) (i : ℕ) : Bool :=
  match w.thread i with
  | .perform (.findInvocation _ _) _ => true
  | _ => false

private theorem replays_of_looksUp {w : InvocationWorld} {call : ℕ × Answer}
    (h : looksUp w call.1 = false) {key : Text} (hnext : w.Next call.1 (.findInvocation id key)) :
    False := by
  obtain ⟨next, hthread⟩ := hnext
  rw [looksUp, hthread] at h
  cases h

private theorem orderly_of_alone {w : InvocationWorld} {call : ℕ × Answer}
    (halone : ∀ i, i ≠ call.1 → phaseOf w i = .outside) (h : looksUp w call.1 = false) :
    Orderly digests w call where
  ends i id grant next hi hflight := by
    have hwithin := hflight.1
    rw [halone i hi] at hwithin
    cases hwithin
  replays id key invocation grant hnext := (replays_of_looksUp h hnext).elim

private theorem alone_turn (digests : Digests) {w : InvocationWorld} (call : ℕ × Answer)
    (halone : ∀ i, i ≠ call.1 → phaseOf w i = .outside) :
    ∀ i, i ≠ call.1 → phaseOf (w.turn (perform digests) call) i = .outside := by
  intro i hi
  rcases World.states_turn_cases (perform digests) w call conduct (fun _ => .outside) i with
    hsame | ⟨hcall, -⟩
  · exact hsame.trans (halone i hi)
  · exact absurd hcall.symm hi

private theorem orderly_of_sparing {w : InvocationWorld} {call : ℕ × Answer}
    {next : Reply op → Program Op Reply (Except Failure Unit)}
    (hthread : w.thread call.1 = .perform op next) (hsparing : Sparing op)
    (h : looksUp w call.1 = false) : Orderly digests w call where
  ends i id grant found hi hflight hgrant hfound hended := by
    by_contra hopen
    obtain ⟨next', hnext', hopen'⟩ := open_perform digests call.2 hsparing hgrant (Bool.eq_false_of_not_eq_true hopen)
    have hturn := World.turn_perform hthread (perform digests) call.2
    rw [show (call.1, call.2) = call from rfl] at hturn
    rw [hturn] at hfound
    obtain rfl := Option.some.inj (hnext'.symm.trans hfound)
    rw [hopen'] at hended
    cases hended
  replays id key invocation grant hnext := (replays_of_looksUp h hnext).elim

private def plainDigests : Digests := ⟨fun text => text, fun text => text⟩

private def pairTerms : Terms where
  organizationId := ascii "o"
  workspaceId := ascii "w"
  orchestrationRunId := none
  sourceNodeRunId := none
  targetNodeRunId := none
  contractId := digitId 0
  contractVersion := 1
  sourcePassportId := digitId 1
  sourceConnectionId := digitId 3
  targetPassportId := digitId 2
  targetConnectionId := digitId 4
  sourceCapability := ascii "read"
  sourceOperation := ascii "run"
  targetCapability := ascii "sum"
  targetOperation := ascii "run"
  purposeCode := ascii "REPORT"
  invocationLimit := 2
  validFrom := 0
  expiresAt := 1000
  delegationDepth := ⟨1, by decide⟩
  maximumDelegationDepth := ⟨1, by decide⟩
  allowFurtherDelegation := false
  parentDelegationGrantId := none
  passportPath := [(digitId 1).val, (digitId 2).val]

private def pairGrants : NewGrants := fun id => if id = digitId 9 then some (pairTerms, none) else none

private def revokedMeanwhile (i : ℕ) : Entry :=
  if i = 1 then .revokeGrant (digitId 9).val ⟨ascii "o", ascii "w"⟩
  else .executeDelegatedInvocation
    { grantId := (digitId 9).val, scope := ⟨ascii "o", ascii "w"⟩, idempotencyKey := ascii "k" }
    { now := some 10 }

private def calm : Answer := { newId := digitId 5 }

private def revocation : List (ℕ × Answer) := List.replicate 4 (1, calm)

private theorem revocation_orderly :
    Guarded (World.turn (perform plainDigests)) (Orderly plainDigests)
      (worldAfter plainDigests pairGrants revokedMeanwhile []) (revocation ++ [(0, calm)]) := by
  have h0 : ∀ i, i ≠ 1 →
      phaseOf (worldAfter plainDigests pairGrants revokedMeanwhile []) i = .outside := fun _ _ => rfl
  have h1 := alone_turn plainDigests (1, calm) h0
  have h2 := alone_turn plainDigests (1, calm) h1
  have h3 := alone_turn plainDigests (1, calm) h2
  refine ⟨orderly_of_alone h0 (by decide), orderly_of_alone h1 (by decide),
    orderly_of_alone h2 (by decide), orderly_of_alone h3 (by decide), ?_, trivial⟩
  exact orderly_of_sparing rfl (show Sparing (.findGrant (digitId 9) ⟨ascii "o", ascii "w"⟩) from trivial)
    (by decide)

theorem delegation_law_revocation :
    ¬Starts (worldAfter plainDigests pairGrants revokedMeanwhile revocation) (0, calm)
      (digitId 9) := by
  have hrevoked : (grantAfter plainDigests pairGrants revokedMeanwhile revocation (digitId 9)).map
      Grant.isEnded = some true := by decide
  obtain ⟨grant, hgrant, hended⟩ := Option.map_eq_some_iff.mp hrevoked
  exact (delegation_law plainDigests pairGrants revokedMeanwhile (revocation ++ [(0, calm)])).2.2.2
    revocation_orderly revocation revocation (0, calm) (digitId 9) grant List.prefix_rfl
    List.prefix_rfl hgrant hended

/-- The first invocation fails, the grant is revoked, and the second one finds the invocation of its
key and starts it again. -/
private def revokedReplay : List (ℕ × Answer) :=
  List.replicate 10 (0, calm) ++ [(0, { calm with failure := some .unavailable }), (0, calm)] ++
    revocation ++ List.replicate 7 (2, { calm with token := ascii "t" })

private def startsNext (w : InvocationWorld) (i : ℕ) (id : ObjectId) : Bool :=
  match w.thread i with
  | .perform (.changeInvocation grantId _ .start) _ => grantId = id
  | _ => false

private theorem starts_of_next {w : InvocationWorld} {call : ℕ × Answer}
    (h : startsNext w call.1 id = true) : Starts w call id := by
  unfold startsNext at h
  split at h
  · next grantId invocationId next hthread =>
    obtain rfl := of_decide_eq_true h
    exact ⟨invocationId, .inl ⟨next, hthread⟩⟩
  · cases h

/-- An invocation that failed is started again after its grant has been revoked. -/
theorem revoked_replay_starts : ¬∀ (digests : Digests) (created : NewGrants) (entries : ℕ → Entry)
    (before : List (ℕ × Answer)) (call : ℕ × Answer) (id : ObjectId) (grant : Grant),
    grantAfter digests created entries before id = some grant → grant.isEnded = true →
    ¬Starts (worldAfter digests created entries before) call id := by
  intro h
  have hrevoked : (grantAfter plainDigests pairGrants revokedMeanwhile revokedReplay (digitId 9)).map
      Grant.isEnded = some true := by decide
  obtain ⟨grant, hgrant, hended⟩ := Option.map_eq_some_iff.mp hrevoked
  refine h plainDigests pairGrants revokedMeanwhile revokedReplay (2, calm) (digitId 9) grant hgrant
    hended (starts_of_next ?_)
  decide

end GhostBridge.Delegation
