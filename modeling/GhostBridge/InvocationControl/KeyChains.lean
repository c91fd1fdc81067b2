import GhostBridge.Ecma.HexNumbers
import GhostBridge.InvocationControl.RetrySafety

/-!
# Keys along a chain of recoveries

A request is sent under a remote idempotency key.
-/

namespace GhostBridge.InvocationControl

open Ecma DurableWork Machine

inductive RuntimeType where
  | rest
  | mcp
deriving DecidableEq

/-- An invocation of a chain, with `actor.remoteIdempotencyKeyHash` of the call that created it. -/
structure Member where
  invocation : Invocation
  remoteIdempotencyKeyHash : Option Text

namespace Member

variable (member : Member)

/-- `actor.remoteIdempotencyKeyHash || idempotency.keyHash`. An attempt that is resumed from durable
work has the stored key, and an actor without a key. -/
def idempotencyKey (resumed : Bool) : Option Text :=
  if resumed then member.invocation.idempotencyKeyHash
  else
    match member.remoteIdempotencyKeyHash with
    | none | some [] => member.invocation.idempotencyKeyHash
    | some key => some key

/-- The header `Idempotency-Key` of the request. Only `invokeRest` sends one, and only of the right
form. -/
def keyHeader (resumed : Bool) : RuntimeType → Option Text
  | .rest => (member.idempotencyKey resumed).filter keyHashPattern.accepts
  | .mcp => none

end Member

/-- An outbound request, by the place of its invocation in the chain. -/
structure Request where
  member : ℕ
  resumed : Bool
  runtimeType : RuntimeType
  key : Option Text
deriving DecidableEq

def Request.source (request : Request) : ℕ :=
  if request.resumed then request.member else request.member - 1

structure Retry where
  connection : Option Connection
  recoveryClaimId : Text
  recoveryClaimExpiresAt : Int
  childInvocationId : Text
  replayInput : Value
  traceId : Option Text := none
  now : Int

/-- The child's call of `invoke`. -/
def Retry.reservation (retry : Retry) (claimed : Invocation) : Reservation where
  id := retry.childInvocationId
  receivingWorkspaceId := claimed.receivingWorkspaceId
  connectionId := claimed.connectionId
  capability := claimed.capability
  input := retry.replayInput
  inputSummary := .undefined
  idempotencyKey :=
    some (ascii "manual-recovery:" ++ claimed.id ++ ascii ":" ++
      decimalDigits claimed.recoveryRetrySequence)
  recoveryParentInvocationId := some claimed.id
  traceId := retry.traceId
  now := retry.now

def manualRetry (secret : Text) (parent : Invocation) (retry : Retry) :
    Option (Invocation × Invocation) :=
  let decision := recoveryPolicyDecision (controlContext secret parent retry.connection)
  let claim := claimRetry parent parent.version decision retry.recoveryClaimId
    retry.recoveryClaimExpiresAt
  if decision = .retryAllowed .remoteIdempotencyConfirmed ∧ claim.filter parent = true then
    match reserveInvocation secret [] (retry.reservation (claim.update parent)) with
    | .ok child => some (claim.update parent, child)
    | .error _ => none
  else none

/-- Each invocation is the child of a manual retry of the one before. -/
structure Chain where
  members : List Member
  sent : List Request := []

namespace Chain

variable (chain : Chain)

def keys : List (Option Text) := chain.members.map (·.invocation.idempotencyKeyHash)

def update (index : ℕ) (change : Invocation → Invocation) : Chain :=
  { chain with
    members := chain.members.modify index fun member =>
      { member with invocation := change member.invocation } }

def extend (claimed child : Invocation) (parentKey : Option Text) : Chain :=
  if child.idempotencyKeyHash ∈ chain.keys then chain
  else
    let updated := chain.update (chain.members.length - 1) fun _ => claimed
    { updated with members := updated.members ++ [⟨child, parentKey⟩] }

end Chain

inductive ChainEvent where
  | call (index : ℕ) (call : Call)
  | transmit (index : ℕ) (resumed : Bool) (runtimeType : RuntimeType)
      (options : LifecycleOptions) (now : Int)
  | retry (retry : Retry)

/-- `beforeTransmit`, and the request after it. -/
def transmit (chain : Chain) (index : ℕ) (resumed : Bool) (runtimeType : RuntimeType)
    (options : LifecycleOptions) (now : Int) : Chain :=
  match chain.members[index]?, gatewayTransition options .runtimeRequestTransmissionStarted now with
  | some member, .ok write =>
    if write.filter member.invocation then
      { chain.update index write.update with
        sent := chain.sent ++
          [⟨index, resumed, runtimeType, member.keyHeader resumed runtimeType⟩] }
    else chain
  | _, _ => chain

def chainStep (secret : Text) (chain : Chain) : ChainEvent → Chain
  | .call index call => chain.update index fun invocation => step invocation call
  | .transmit index resumed runtimeType options now =>
    transmit chain index resumed runtimeType options now
  | .retry retry =>
    match chain.members.getLast? with
    | none => chain
    | some parent =>
      match manualRetry secret parent.invocation retry with
      | some (claimed, child) =>
        chain.extend claimed child parent.invocation.idempotencyKeyHash
      | none => chain

def beginChain (root : Invocation) : Chain where
  members := [⟨root, none⟩]

/-- The request of a child carries the key of every earlier request of the chain. -/
def SameKeys (sent : List Request) : Prop :=
  sent.Pairwise fun earlier later =>
    0 < later.member → later.key.isSome = true ∧ later.key = earlier.key

/-- The requests of the chain go to a runtime that takes keys, and a request of a child is sent
under the stored key of the same invocation as every earlier one. -/
def OneSource (sent : List Request) : Prop :=
  sent.Pairwise fun earlier later =>
    0 < later.member →
      later.runtimeType = .rest ∧ earlier.runtimeType = .rest ∧ later.source = earlier.source

instance decidableSameKeys (sent : List Request) : Decidable (SameKeys sent) :=
  inferInstanceAs (Decidable (List.Pairwise _ sent))

instance decidableOneSource (sent : List Request) : Decidable (OneSource sent) :=
  inferInstanceAs (Decidable (List.Pairwise _ sent))

def IsKeyHash (key : Option Text) : Prop := ∃ hash, key = some hash ∧ keyHashPattern.accepts hash

theorem keyHashPattern_secureDigest (secret purpose value : Text) :
    keyHashPattern.accepts (secureDigest secret purpose value) = true := by
  obtain ⟨digest, hdigest, hlength⟩ : ∃ digest : Bytes,
      secureDigest secret purpose value = ascii "hmac-" ++ (ascii "sha256:" ++ hexText digest) ∧
        digest.length = 32 := ⟨_, rfl, hmacSha256_length _ _⟩
  have hcount : (hexText digest).length = 64 := by rw [hexText_length, hlength]
  have hdigits := Regex.language_replicate (p := (ascii "0123456789abcdef").contains)
    fun u hu => List.contains_iff_mem.mpr (hexText_mem digest u hu)
  rw [hcount] at hdigits
  rw [Regex.accepts_iff, hdigest]
  exact ⟨_, _, rfl, .inr (Regex.language_literal _), _, _, rfl, Regex.language_literal _, hdigits⟩

theorem reserveInvocation_isKeyHash {secret uuid : Text} {reservation : Reservation}
    {created : Invocation} (h : reserveInvocation secret uuid reservation = .ok created) :
    IsKeyHash created.idempotencyKeyHash := by
  simp only [reserveInvocation, createInvocationIdempotency, bind_ok, pure_ok] at h
  obtain ⟨idempotency, ⟨key, -, request, -, rfl⟩, rfl⟩ := h
  exact ⟨_, rfl, keyHashPattern_secureDigest _ _ _⟩

theorem manualRetry_some {secret : Text} {parent claimed child : Invocation} {retry : Retry}
    (h : manualRetry secret parent retry = some (claimed, child)) :
    claimed.idempotencyKeyHash = parent.idempotencyKeyHash ∧
      IsKeyHash child.idempotencyKeyHash := by
  simp only [manualRetry] at h
  split at h
  · split at h
    next hchild =>
      cases h
      exact ⟨rfl, reserveInvocation_isKeyHash hchild⟩
    · cases h
  · cases h

theorem step_sameKey (invocation : Invocation) (call : Call) :
    SameKey invocation (step invocation call) := by
  unfold step
  split
  next write hwrite =>
    unfold Write.apply
    split
    · exact (Call.write_keeps hwrite).sameKey invocation
    · exact ⟨rfl, rfl⟩
  · exact ⟨rfl, rfl⟩

def keyAt (keys : List (Option Text)) (source : ℕ) : RuntimeType → Option Text
  | .rest => keys[source]?.join
  | .mcp => none

def Request.SentUnder (keys : List (Option Text)) (request : Request) : Prop :=
  request.member < keys.length ∧ request.key = keyAt keys request.source request.runtimeType

theorem Request.source_le (request : Request) : request.source ≤ request.member := by
  unfold Request.source
  split <;> omega

theorem Request.SentUnder.append {keys : List (Option Text)} {request : Request}
    (h : request.SentUnder keys) (newer : List (Option Text)) :
    request.SentUnder (keys ++ newer) := by
  obtain ⟨hmember, hkey⟩ := h
  have hsource : request.source < keys.length := Nat.lt_of_le_of_lt request.source_le hmember
  have hsame : keyAt (keys ++ newer) request.source request.runtimeType =
      keyAt keys request.source request.runtimeType := by
    cases request.runtimeType with
    | mcp => rfl
    | rest => rw [keyAt, keyAt, List.getElem?_append_left hsource]
  refine ⟨?_, hkey.trans hsame.symm⟩
  rw [List.length_append]
  omega

/-- Every invocation has a stored key of its own, each child was given the key of its parent, and
the requests were sent accordingly. -/
structure Chain.Keyed (chain : Chain) : Prop where
  nodup : chain.keys.Nodup
  isKeyHash : ∀ key ∈ chain.keys, IsKeyHash key
  inherited : chain.members.map Member.remoteIdempotencyKeyHash = none :: chain.keys.dropLast
  sent : ∀ request ∈ chain.sent, request.SentUnder chain.keys

theorem map_modify_of_getElem? {α β : Type} {f : α → α} {g : α → β} {list : List α} {index : ℕ}
    (h : ∀ a, list[index]? = some a → g (f a) = g a) : (list.modify index f).map g = list.map g := by
  induction list generalizing index with
  | nil => rw [List.modify_nil]
  | cons a list ih =>
    cases index with
    | zero => rw [List.modify_zero_cons, List.map_cons, List.map_cons, h a rfl]
    | succ index => rw [List.modify_succ_cons, List.map_cons, List.map_cons, ih h]

namespace Chain

variable {chain : Chain} {index : ℕ} {change : Invocation → Invocation}

def Preserves (chain : Chain) (index : ℕ) (change : Invocation → Invocation) : Prop :=
  ∀ member, chain.members[index]? = some member →
    (change member.invocation).idempotencyKeyHash = member.invocation.idempotencyKeyHash

theorem update_overrides : (chain.update index change).members.map
    Member.remoteIdempotencyKeyHash = chain.members.map Member.remoteIdempotencyKeyHash :=
  map_modify_of_getElem? fun _ _ => rfl

theorem update_keys (h : chain.Preserves index change) :
    (chain.update index change).keys = chain.keys :=
  map_modify_of_getElem? h

theorem Keyed.update (h : chain.Keyed) (hchange : chain.Preserves index change) :
    (chain.update index change).Keyed where
  nodup := by
    rw [update_keys hchange]
    exact h.nodup
  isKeyHash := by
    rw [update_keys hchange]
    exact h.isKeyHash
  inherited := by
    rw [update_keys hchange, update_overrides]
    exact h.inherited
  sent := by
    rw [update_keys hchange]
    exact h.sent

theorem Keyed.stored (h : chain.Keyed) (hindex : index < chain.keys.length) :
    ∃ key, chain.keys[index]? = some (some key) ∧ keyHashPattern.accepts key = true := by
  obtain ⟨key, hkey, haccepts⟩ := h.isKeyHash _ (List.getElem_mem hindex)
  exact ⟨key, by rw [List.getElem?_eq_getElem hindex, hkey], haccepts⟩

theorem Keyed.idempotencyKey (h : chain.Keyed) {member : Member}
    (hmember : chain.members[index]? = some member) (resumed : Bool) :
    member.idempotencyKey resumed =
      chain.keys[if resumed then index else index - 1]?.join := by
  have hown : chain.keys[index]? = some member.invocation.idempotencyKeyHash := by
    rw [keys, List.getElem?_map, hmember, Option.map_some]
  have hgiven : (none :: chain.keys.dropLast)[index]? = some member.remoteIdempotencyKeyHash := by
    rw [← h.inherited, List.getElem?_map, hmember, Option.map_some]
  cases resumed with
  | true => simp only [Member.idempotencyKey, if_true, hown, Option.join_some]
  | false =>
    cases index with
    | zero =>
      have hnone : member.remoteIdempotencyKeyHash = none := (Option.some.inj hgiven).symm
      simp [Member.idempotencyKey, hnone, hown]
    | succ index =>
      rw [List.getElem?_cons_succ, List.getElem?_dropLast] at hgiven
      split at hgiven
      next hbound =>
        obtain ⟨key, hkey, haccepts⟩ := h.stored (by omega : index < chain.keys.length)
        have hkey' : member.remoteIdempotencyKeyHash = some key :=
          Option.some.inj (hgiven.symm.trans hkey)
        cases key with
        | nil => cases haccepts
        | cons u rest => simp [Member.idempotencyKey, hkey', hkey]
      · cases hgiven

theorem Keyed.keyHeader (h : chain.Keyed) {member : Member}
    (hmember : chain.members[index]? = some member) (resumed : Bool) (runtimeType : RuntimeType) :
    member.keyHeader resumed runtimeType =
      keyAt chain.keys (if resumed then index else index - 1) runtimeType := by
  have hindex : index < chain.keys.length := by
    rw [keys, List.length_map]
    exact (List.getElem?_eq_some_iff.mp hmember).1
  have hsource : (if resumed then index else index - 1) < chain.keys.length := by
    split <;> omega
  obtain ⟨key, hkey, haccepts⟩ := h.stored hsource
  cases runtimeType with
  | mcp => rfl
  | rest =>
    rw [Member.keyHeader, h.idempotencyKey hmember, keyAt, hkey, Option.join_some,
      Option.filter_some, if_pos haccepts]

theorem Keyed.transmit (h : chain.Keyed) (resumed : Bool) (runtimeType : RuntimeType)
    (options : LifecycleOptions) (now : Int) :
    (transmit chain index resumed runtimeType options now).Keyed := by
  unfold InvocationControl.transmit
  split
  next member write hmember hwrite =>
    split
    · have hkeeps : write.Keeps := gatewayTransition_keeps hwrite
      have hpreserves : chain.Preserves index write.update :=
        fun member _ => (hkeeps.sameKey member.invocation).2
      have hupdated := h.update hpreserves
      refine { hupdated with sent := fun request hrequest => ?_ }
      rcases List.mem_append.mp hrequest with hrequest | hrequest
      · exact hupdated.sent request hrequest
      · obtain rfl := List.mem_singleton.mp hrequest
        have hindex : index < chain.keys.length := by
          rw [keys, List.length_map]
          exact (List.getElem?_eq_some_iff.mp hmember).1
        have hsent : (⟨index, resumed, runtimeType, member.keyHeader resumed runtimeType⟩ :
            Request).SentUnder chain.keys := ⟨hindex, h.keyHeader hmember resumed runtimeType⟩
        rw [← update_keys hpreserves] at hsent
        exact hsent
    · exact h
  · exact h

theorem Keyed.extend (h : chain.Keyed) {parent : Member} {claimed child : Invocation}
    (hparent : chain.members.getLast? = some parent)
    (hclaimed : claimed.idempotencyKeyHash = parent.invocation.idempotencyKeyHash)
    (hchild : IsKeyHash child.idempotencyKeyHash) :
    (chain.extend claimed child parent.invocation.idempotencyKeyHash).Keyed := by
  unfold Chain.extend
  split
  · exact h
  next hfresh =>
    have hpreserves : chain.Preserves (chain.members.length - 1) fun _ => claimed := by
      intro member hmember
      rw [← List.getLast?_eq_getElem?, hparent] at hmember
      obtain rfl := Option.some.inj hmember
      exact hclaimed
    have hupdated := h.update hpreserves
    have hkeys := update_keys hpreserves
    have hlast : chain.keys.getLast? = some parent.invocation.idempotencyKeyHash := by
      rw [keys, List.getLast?_map, hparent, Option.map_some]
    have hextended (updated : Chain) (hupdatedKeys : updated.keys = chain.keys) (member : Member) :
        ({ updated with members := updated.members ++ [member] } : Chain).keys =
          chain.keys ++ [member.invocation.idempotencyKeyHash] := by
      rw [← hupdatedKeys, keys, keys, List.map_append, List.map_singleton]
    constructor
    · rw [hextended _ hkeys]
      exact List.nodup_append.mpr ⟨h.nodup, List.nodup_singleton _, fun key hkey other hother heq =>
        hfresh (by rwa [← List.mem_singleton.mp hother, ← heq])⟩
    · rw [hextended _ hkeys]
      intro key hkey
      rcases List.mem_append.mp hkey with hkey | hkey
      · exact h.isKeyHash key hkey
      · obtain rfl := List.mem_singleton.mp hkey
        exact hchild
    · rw [hextended _ hkeys, List.map_append, hupdated.inherited, hkeys, List.dropLast_concat]
      rw [List.map_singleton, List.cons_append, List.cons_inj_right]
      exact List.dropLast_append_getLast? _ hlast
    · intro request hrequest
      rw [hextended _ hkeys]
      exact (h.sent request hrequest).append _

theorem Keyed.chainStep (h : chain.Keyed) (secret : Text) (event : ChainEvent) :
    (chainStep secret chain event).Keyed := by
  cases event with
  | call index call =>
    have hpreserves : chain.Preserves index fun invocation => step invocation call :=
      fun member _ => (step_sameKey member.invocation call).2
    exact h.update hpreserves
  | transmit index resumed runtimeType options now =>
    exact h.transmit resumed runtimeType options now
  | retry retry =>
    simp only [InvocationControl.chainStep]
    split
    · exact h
    next parent hparent =>
      split
      next claimed child hretry =>
        obtain ⟨hclaimed, hchild⟩ := manualRetry_some hretry
        exact h.extend hparent hclaimed hchild
      · exact h

theorem beginChain_keyed {root : Invocation} (hroot : IsKeyHash root.idempotencyKeyHash) :
    (beginChain root).Keyed where
  nodup := List.nodup_singleton _
  isKeyHash key hkey := by
    obtain rfl := List.mem_singleton.mp hkey
    exact hroot
  inherited := rfl
  sent request hrequest := by cases hrequest

end Chain

theorem sameKey_iff {keys : List (Option Text)} (hnodup : keys.Nodup)
    (hkeys : ∀ key ∈ keys, IsKeyHash key) {earlier later : Request}
    (hearlier : earlier.SentUnder keys) (hlater : later.SentUnder keys) :
    later.key.isSome = true ∧ later.key = earlier.key ↔
      later.runtimeType = .rest ∧ earlier.runtimeType = .rest ∧
        later.source = earlier.source := by
  obtain ⟨hbound, hkey⟩ := hlater
  obtain ⟨hbound', hkey'⟩ := hearlier
  have hsource : later.source < keys.length := Nat.lt_of_le_of_lt later.source_le hbound
  have hsource' : earlier.source < keys.length := Nat.lt_of_le_of_lt earlier.source_le hbound'
  obtain ⟨key, hstored, -⟩ := hkeys _ (List.getElem_mem hsource)
  obtain ⟨key', hstored', -⟩ := hkeys _ (List.getElem_mem hsource')
  have hat : keyAt keys later.source .rest = some key := by
    rw [keyAt, List.getElem?_eq_getElem hsource, hstored, Option.join_some]
  have hat' : keyAt keys earlier.source .rest = some key' := by
    rw [keyAt, List.getElem?_eq_getElem hsource', hstored', Option.join_some]
  rw [hkey, hkey']
  cases later.runtimeType with
  | mcp => simp [keyAt]
  | rest =>
    cases earlier.runtimeType with
    | mcp =>
      rw [hat]
      simp [keyAt]
    | rest =>
      rw [hat, hat', ← hstored, ← hstored', hnodup.getElem_inj_iff]
      simp [hstored]

/-- Along every chain of recoveries, the requests of the children carry the keys of the earlier
requests exactly when these were sent under the stored key of the same invocation, to runtimes that
take keys. -/
theorem chain_sameKeys_iff (secret uuid : Text) (reservation : Reservation) (root : Invocation)
    (hroot : reserveInvocation secret uuid reservation = .ok root) (events : List ChainEvent) :
    SameKeys (after (chainStep secret) (beginChain root) events).sent ↔
      OneSource (after (chainStep secret) (beginChain root) events).sent := by
  have hkeyed : (after (chainStep secret) (beginChain root) events).Keyed :=
    after_induction (Chain.beginChain_keyed (reserveInvocation_isKeyHash hroot))
      fun chain event h _ => h.chainStep secret event
  have hiff (earlier later : Request) (hearlier : earlier ∈ (after (chainStep secret)
      (beginChain root) events).sent) (hlater : later ∈ (after (chainStep secret)
      (beginChain root) events).sent) :=
    sameKey_iff hkeyed.nodup hkeyed.isKeyHash (hkeyed.sent earlier hearlier)
      (hkeyed.sent later hlater)
  constructor
  · intro h
    exact h.imp_of_mem fun hearlier hlater hsame hchild =>
      (hiff _ _ hearlier hlater).mp (hsame hchild)
  · intro h
    exact h.imp_of_mem fun hearlier hlater hsource hchild =>
      (hiff _ _ hearlier hlater).mpr (hsource hchild)

private def chainReservation : Reservation where
  id := ascii "a"
  receivingWorkspaceId := ascii "w"
  connectionId := ascii "c"
  capability := ascii "p"
  input := .null
  inputSummary := .null
  idempotencyKey := some (ascii "k")
  now := 1

private def chainIdempotency : Idempotency :=
  (createInvocationIdempotency (ascii "s") [] chainReservation.request).toOption.getD
    ⟨[], [], [], false⟩

private def chainRoot : Invocation := createInvocation chainReservation chainIdempotency

private theorem chainRoot_reserved :
    reserveInvocation (ascii "s") [] chainReservation = .ok chainRoot := by
  have hidempotency : createInvocationIdempotency (ascii "s") [] chainReservation.request =
      .ok chainIdempotency := by decide +kernel
  rw [reserveInvocation, hidempotency]
  rfl

private def timedOutExecution (index : ℕ) (invocationId : Text) (now : Int) : List ChainEvent :=
  let options : LifecycleOptions :=
    { invocationId := invocationId, receivingWorkspaceId := ascii "w" }
  [.call index (.gatewayTransition options .requestValidationStarted now),
    .call index (.gatewayTransition options .invocationAuthorized (now + 1)),
    .call index (.claimInvocationExecution options (ascii "o") (ascii "l") 1000 (now + 2)),
    .transmit index false .rest options (now + 3),
    .call index (.failInvocation options .waitingForRuntime
      { error := { code := ascii "SAFE_FETCH_TIMEOUT" }
        externalCallStarted := true
        responsePersistenceUncertain := false } (now + 4))]

private def retryOf (index : ℕ) (invocationId childInvocationId : Text) (now : Int) :
    List ChainEvent :=
  [.retry
    { connection := some
        { status := some (ascii "connected")
          healthStatus := some (ascii "healthy")
          remoteIdempotencySupported := true }
      recoveryClaimId := ascii "r"
      recoveryClaimExpiresAt := now + 1000
      childInvocationId := childInvocationId
      replayInput := .null
      now := now },
    .call index
      (.linkChild { chainRoot with id := invocationId } (ascii "r") childInvocationId (now + 1))]

private def retriedOnce : List ChainEvent :=
  timedOutExecution 0 (ascii "a") 2 ++ retryOf 0 (ascii "a") (ascii "b") 10 ++
    timedOutExecution 1 (ascii "b") 12

private def retriedTwice : List ChainEvent :=
  retriedOnce ++ retryOf 1 (ascii "b") (ascii "d") 20 ++ timedOutExecution 2 (ascii "d") 22

theorem chain_sameKeys_iff_retriedOnce :
    SameKeys (after (chainStep (ascii "s")) (beginChain chainRoot) retriedOnce).sent :=
  (chain_sameKeys_iff (ascii "s") [] chainReservation chainRoot chainRoot_reserved _).mpr
    (by decide +kernel)

/-- The request of the second child is sent under the stored key of the first. -/
theorem chain_sameKeys_not_retriedTwice :
    reserveInvocation (ascii "s") [] chainReservation = .ok chainRoot ∧
      ¬ SameKeys (after (chainStep (ascii "s")) (beginChain chainRoot) retriedTwice).sent :=
  ⟨chainRoot_reserved, by decide +kernel⟩

end GhostBridge.InvocationControl
