import GhostBridge.NativeAgent.InstallGrants

/-!
# Concurrent redemptions

Redemptions that run at the same time over the file store.
-/

namespace GhostBridge.NativeAgent

open Ecma Machine ProtocolCore

structure Transaction where
  scope : Value
  selectedMode : Value
  /-- The grant that was read, and the capabilities that it allows. -/
  grant : Value
  allowed : List Value
  enabled : List Value
  keyHash : Text
  connectionId : Text
  now : Text

namespace Transaction

variable (agent : Agent) (t : Transaction)

def candidate : Value :=
  agent.connectionCandidate t.grant t.scope t.selectedMode t.enabled t.allowed t.connectionId t.now

def input : Value := Agent.redemptionInput t.scope t.keyHash t.now t.enabled (t.candidate agent)

def redemption : Redemption :=
  ⟨redeemedGrant t.grant (.string t.now) t.connectionId, t.candidate agent⟩

structure Sound : Prop where
  distinct : Distinct t.enabled
  allowed_eq : t.grant.field (ascii "allowedCapabilityKeys") = .array t.allowed

@[simp] theorem input_keyHash : (t.input agent).field (ascii "keyHash") = .string t.keyHash := rfl

@[simp] theorem input_now : (t.input agent).field (ascii "now") = .string t.now := rfl

@[simp] theorem input_approved :
    (t.input agent).field (ascii "approvedCapabilityKeys") = .array t.enabled := by
  simp only [input, Agent.redemptionInput, Value.optional]
  split <;> rfl

@[simp] theorem input_connection :
    (t.input agent).field (ascii "connection") = t.candidate agent := by
  simp only [input, Agent.redemptionInput, Value.optional]
  split <;> rfl

@[simp] theorem candidate_connectionId :
    (t.candidate agent).field (ascii "connectionId") = .string t.connectionId := rfl

theorem redeemedConnection_candidate :
    redeemedConnection t.grant (t.candidate agent) t.enabled t.allowed = t.candidate agent := by
  simp only [redeemedConnection, candidate, Agent.connectionCandidate, Value.optional]
  split <;> split <;> split <;> rfl

end Transaction

theorem redemptionOf_eq {agent : Agent} {state : Collections} {t : Transaction} (ht : t.Sound)
    {keyHash connectionId : Text} {approved allowed : List Value}
    (h : Redeems agent.runtime.toRuntime state (t.input agent) keyHash connectionId approved allowed)
    (hgrant : state.get .installGrants t.keyHash = t.grant) :
    keyHash = t.keyHash ∧ connectionId = t.connectionId ∧
      redemptionOf state (t.input agent) keyHash connectionId approved allowed = t.redemption agent := by
  have hkeyHash := h.keyHash_eq
  have hconnectionId := h.connectionId_eq
  have happroved := h.approved_eq
  have hallowed := h.allowed_eq
  simp only [Transaction.input_keyHash] at hkeyHash
  simp only [Transaction.input_connection, Transaction.candidate_connectionId] at hconnectionId
  obtain rfl := validKey_string hkeyHash
  obtain rfl := validKey_string hconnectionId
  simp only [Transaction.input_approved, Value.orElse, Value.isTruthy, if_true, itemsOf,
    pure_ok] at happroved
  rw [hgrant, ht.allowed_eq] at hallowed
  simp only [itemsOf, pure_ok] at hallowed
  subst happroved hallowed
  refine ⟨rfl, rfl, ?_⟩
  rw [redemptionOf, hgrant, Transaction.input_now, Transaction.input_connection,
    distinctValues_of_distinct ht.distinct, Transaction.redeemedConnection_candidate]
  rfl

structure RedemptionProgress where
  trusted : Option (Text × Value) := none
  /-- The transaction that went through, and what it returned. -/
  redeemed : Option (Value × Redemption) := none

/-- The transaction is sound, and about the grant that was read. -/
def Sends (agent : Agent) (s : RedemptionProgress) (input : Value) (t : Transaction) : Prop :=
  input = t.input agent ∧ t.Sound ∧ s.trusted = some (t.keyHash, t.grant)

def redemptionMonitor (agent : Agent) : Monitor Op Reply RedemptionProgress where
  next s op reply :=
    match op, reply with
    | .get .installGrants (.string key), .ok grant =>
      if s.redeemed.isNone then { s with trusted := some (key, grant) } else s
    | .redeemInstallGrant input, .ok redemption => { s with redeemed := some (input, redemption) }
    | _, _ => s
  allowed s op :=
    match op with
    | .clock | .randomUUID | .get .installGrants _ | .get .connections _ => True
    | .redeemInstallGrant input => s.redeemed = none ∧ ∃ t, Sends agent s input t
    | _ => False
  replies s op reply :=
    match op, reply with
    | .redeemInstallGrant input, .ok redemption => ∀ t, Sends agent s input t →
        redemption = t.redemption agent ∧ Written defaultLimits redemption.grant ∧
          Written defaultLimits redemption.connection
    | .get .installGrants key, reply => ∀ input redemption, s.redeemed = some (input, redemption) →
        key = input.field (ascii "keyHash") → reply = .ok redemption.grant
    | .get .connections key, reply => ∀ input redemption, s.redeemed = some (input, redemption) →
        key = (input.field (ascii "connection")).field (ascii "connectionId") →
          reply = .ok redemption.connection
    | _, _ => True

def RejectedUnredeemed (s : RedemptionProgress) (result : Checked Value) : Prop :=
  ∀ failure, result = .error failure → s.redeemed = none

section Follows

variable {agent : Agent} {s : RedemptionProgress}

theorem isDeepStrictEqual_refl (v : Value) : Agent.isDeepStrictEqual v v = true :=
  decide_eq_true rfl

theorem checkObservable_self {value : Value} (h : Written defaultLimits value) :
    Agent.checkObservable value value = .ok () := by
  obtain ⟨text, htext⟩ := h
  simp [Agent.checkObservable, htext, throwWhen]

private theorem confirmRedemption_follows {input : Value} {t : Transaction}
    {redemption : Redemption} {rest : Flow Value} (hinput : input = t.input agent)
    (hredeemed : s.redeemed = some (input, redemption)) (heq : redemption = t.redemption agent)
    (hgrant : Written defaultLimits redemption.grant)
    (hconnection : Written defaultLimits redemption.connection)
    (hrest : rest.Follows (redemptionMonitor agent) RejectedUnredeemed s) :
    (do
      Agent.confirmRedemption t.keyHash t.connectionId
        (redeemedGrant t.grant (.string t.now) t.connectionId) (t.candidate agent) redemption
      rest : Flow Value).Follows (redemptionMonitor agent) RejectedUnredeemed s := by
  have hsame : throwWhen (!redemption.grant.isTruthy || !redemption.connection.isTruthy ||
      !Agent.isDeepStrictEqual redemption.grant
        (redeemedGrant t.grant (.string t.now) t.connectionId) ||
      !Agent.isDeepStrictEqual redemption.connection (t.candidate agent))
      (protocolError .installGrantInvalid
        "The Install Grant redemption transaction returned invalid state.") = .ok () := by
    rw [heq, throwWhen_ok]
    simp only [Transaction.redemption, isDeepStrictEqual_refl]
    rfl
  have hnext {key : Value} {collection : Collection} {reply : Checked Value}
      (hcollection : collection = .installGrants ∨ collection = .connections) :
      (redemptionMonitor agent).next s (.get collection key) reply = s := by
    rcases hcollection with rfl | rfl
    · cases key <;> cases reply <;> simp [redemptionMonitor, hredeemed]
    · simp [redemptionMonitor]
  simp only [Agent.confirmRedemption, hsame, Async.follows_bind, Async.follows_monadLift,
    Async.goesOn_ok, follows_storeGet]
  refine ⟨trivial, fun reply hreply => ?_⟩
  obtain rfl := hreply input redemption hredeemed (by rw [hinput, Transaction.input_keyHash])
  rw [hnext (.inl rfl)]
  simp only [Async.goesOn_ok, Async.follows_bind, follows_storeGet]
  refine ⟨trivial, fun reply hreply => ?_⟩
  obtain rfl := hreply input redemption hredeemed
    (by rw [hinput, Transaction.input_connection, Transaction.candidate_connectionId])
  rw [hnext (.inr rfl)]
  simp only [Async.goesOn_ok, Async.follows_bind, Async.follows_monadLift,
    checkObservable_self hgrant, checkObservable_self hconnection]
  exact hrest

theorem checkTrusted_ok {grant : Value} {keyHash : Text} {allowed : List Value}
    (h : agent.checkTrusted grant keyHash = .ok allowed) :
    grant.field (ascii "allowedCapabilityKeys") = .array allowed := by
  simp only [Agent.checkTrusted, bind_ok, exists_unit] at h
  obtain ⟨-, h⟩ := h
  split at h
  · next items hitems => rw [hitems, pure_ok.mp h]
  · cases h

theorem redeemInstallGrantAtomically_follows (agent : Agent) (key scope : Value) :
    (agent.redeemInstallGrantAtomically key scope).Follows (redemptionMonitor agent)
      RejectedUnredeemed {} := by
  have hstart (failure : Failure) : RejectedUnredeemed {} (.error failure) := fun _ _ => rfl
  unfold Agent.redeemInstallGrantAtomically
  refine Async.follows_check hstart fun request _ => ?_
  refine Async.follows_check hstart fun keyHash _ => ?_
  simp only [Agent.trustedContext, Async.follows_bind, Async.follows_tryCatch, follows_storeGet]
  refine ⟨trivial, fun reply _ => ?_⟩
  cases reply with
  | error failure => exact hstart _
  | ok grant => ?_
  -- the grant has been read, and nothing else happens before the transaction
  generalize hs : (redemptionMonitor agent).next {} (.get .installGrants (.string keyHash))
    (.ok grant) = s
  obtain rfl : s = { trusted := some (keyHash, grant) } := hs.symm
  have hread (failure : Failure) :
    RejectedUnredeemed { trusted := some (keyHash, grant) } (.error failure) := fun _ _ => rfl
  refine Async.follows_check hread fun allowed hallowed => ?_
  simp only [Async.follows_bind, Async.follows_ask]
  refine ⟨trivial, fun checkedAt _ => ?_⟩
  refine Async.follows_check hread fun _ _ => Async.follows_check hread fun _ _ => ?_
  simp only [freshIdentifier, timestamp, Async.follows_bind, Async.follows_ask]
  refine ⟨trivial, fun uuid _ => ⟨trivial, fun milliseconds _ => ?_⟩⟩
  refine Async.follows_check hread fun now _ => ?_
  let t : Transaction :=
    { scope, selectedMode := request.selectedMode, grant, allowed,
      enabled := distinctValues request.approved, keyHash,
      connectionId := ascii "connection" ++ 0x5f :: uuid, now }
  have hsends : Sends agent { trusted := some (keyHash, grant) } (t.input agent) t :=
    ⟨rfl, ⟨distinct_distinctValues _, checkTrusted_ok hallowed⟩, rfl⟩
  simp only [Async.goesOn_ok, Async.follows_bind, Async.follows_ask]
  refine ⟨⟨rfl, t, hsends⟩, fun reply hreply => ?_⟩
  cases reply with
  | error failure => exact hread _
  | ok redemption =>
    obtain ⟨heq, hgrant, hconnection⟩ := hreply t hsends
    simp only [Agent.passRedemption, Async.follows_monadLift, Async.goesOn_ok]
    exact confirmRedemption_follows
      (t := t) (s := { trusted := some (keyHash, grant), redeemed := some (t.input agent, redemption) })
      rfl rfl heq hgrant hconnection (by rintro _ ⟨⟩)

end Follows

def redemptionThreads (agent : Agent) (requests : ℕ → Value × Value) : ℕ → Program Op Reply (Checked Value) :=
  fun i => agent.redeemInstallGrantAtomically (requests i).1 (requests i).2

abbrev RedemptionWorld := World AgentState Op Reply (Checked Value)

abbrev redemptionProgress (agent : Agent) (w : RedemptionWorld) : ℕ → RedemptionProgress :=
  w.states (redemptionMonitor agent) fun _ => {}

def redemptions (log : List (ℕ × (op : Op) × Reply op)) : List (ℕ × Value × Redemption) :=
  log.filterMap fun
    | (i, ⟨.redeemInstallGrant input, .ok redemption⟩) => some (i, input, redemption)
    | _ => none

structure Observable (state : Collections) (input : Value) (redemption : Redemption) : Prop where
  redeemed : hasStatus redemption.grant "redeemed" = true
  stored : ∃ keyHash connectionId, input.field (ascii "keyHash") = .string keyHash ∧
    (input.field (ascii "connection")).field (ascii "connectionId") = .string connectionId ∧
    validKey (.string keyHash) = .ok keyHash ∧
    validKey (.string connectionId) = .ok connectionId ∧
    (state .installGrants).get? keyHash = some redemption.grant ∧
    (state .connections).get? connectionId = some redemption.connection

/-- The connection has the scope of its grant, and its enabled and disabled capabilities are
together those that the grant allows. -/
structure Faithful (redemption : Redemption) : Prop where
  organization : redemption.connection.field (ascii "organizationScope") =
    redemption.grant.field (ascii "organizationScope")
  workspace : (redemption.connection.field (ascii "workspaceScope")).orElse .undefined =
    (redemption.grant.field (ascii "workspaceScope")).orElse .undefined
  capabilities : ∃ enabled disabled allowed,
    redemption.connection.field (ascii "enabledCapabilityKeys") = .array enabled ∧
    redemption.connection.field (ascii "disabledCapabilityKeys") = .array disabled ∧
    redemption.grant.field (ascii "allowedCapabilityKeys") = .array allowed ∧ enabled ≠ [] ∧
    ∀ key, listed allowed key = (listed enabled key || listed disabled key) ∧
      (listed enabled key && listed disabled key) = false

structure RedemptionInvariant (agent : Agent) (store : Collections) (w : RedemptionWorld) : Prop where
  /-- A grant that was read is stored, or is redeemed by now. -/
  trusted : ∀ i keyHash grant,
    (redemptionProgress agent w i).trusted = some (keyHash, grant) →
      w.store.collections.get .installGrants keyHash = grant ∨
        hasStatus (w.store.collections.get .installGrants keyHash) "redeemed" = true
  known : ∀ i input redemption, (i, input, redemption) ∈ redemptions w.log ↔
    (redemptionProgress agent w i).redeemed = some (input, redemption)
  observable : ∀ e ∈ redemptions w.log, Observable w.store.collections e.2.1 e.2.2
  faithful : ∀ e ∈ redemptions w.log, Faithful e.2.2
  once : (redemptions w.log).Pairwise fun a b =>
    a.2.1.field (ascii "keyHash") ≠ b.2.1.field (ascii "keyHash")
  /-- A redeemed grant is otherwise the grant that was there. -/
  granted : ∀ e ∈ redemptions w.log, ∃ keyHash now connectionId,
    e.2.1.field (ascii "keyHash") = .string keyHash ∧
      e.2.2.grant = redeemedGrant (store.get .installGrants keyHash) now connectionId
  untouched : ∀ keyHash, (∀ e ∈ redemptions w.log, e.2.1.field (ascii "keyHash") ≠ .string keyHash) →
    (w.store.collections .installGrants).get? keyHash = (store .installGrants).get? keyHash
  /-- Every connection was there, or was created by a redemption. -/
  created : ∀ connectionId connection,
    (w.store.collections .connections).get? connectionId = some connection →
      (store .connections).get? connectionId = some connection ∨
        ∃ e ∈ redemptions w.log, e.2.2.connection = connection ∧
          (e.2.1.field (ascii "connection")).field (ascii "connectionId") = .string connectionId

private theorem listed_withoutEnabled {allowed enabled : List Value}
    (h : ∀ key ∈ enabled, listed allowed key = true) (key : Value) :
    listed allowed key = (listed enabled key || listed (withoutEnabled allowed enabled) key) ∧
      (listed enabled key && listed (withoutEnabled allowed enabled) key) = false := by
  have hwithout : listed (withoutEnabled allowed enabled) key =
      (listed allowed key && !listed enabled key) := by
    rw [Bool.eq_iff_iff, Bool.and_eq_true, listed, withoutEnabled, List.any_filter,
      List.any_eq_true, listed, List.any_eq_true]
    constructor
    · rintro ⟨a, ha, hboth⟩
      rw [Bool.and_eq_true] at hboth
      exact ⟨⟨a, ha, hboth.2⟩, by rw [← listed_congr hboth.2]; exact hboth.1⟩
    · rintro ⟨⟨a, ha, hsame⟩, hnot⟩
      exact ⟨a, ha, by rw [listed_congr hsame, hnot, hsame]; rfl⟩
  have hsub : listed enabled key = true → listed allowed key = true := by
    intro hkey
    obtain ⟨a, ha, hsame⟩ := List.any_eq_true.mp hkey
    rw [← listed_congr hsame]
    exact h a ha
  rw [hwithout]
  cases henabled : listed enabled key <;> cases hallowed : listed allowed key <;> simp_all

theorem Transaction.redemption_faithful {agent : Agent} {t : Transaction} (ht : t.Sound)
    (hne : t.enabled ≠ []) (hallowed : ∀ key ∈ t.enabled, listed t.allowed key = true) :
    Faithful (t.redemption agent) := by
  have hgrant (name : String) (hname : ascii name ≠ ascii "status")
      (hname' : ascii name ≠ ascii "redeemedAt") (hname'' : ascii name ≠ ascii "connectionId") :
      (t.redemption agent).grant.field (ascii name) = t.grant.field (ascii name) :=
    Value.field_spread_of_ne (by simp [hname.symm, hname'.symm, hname''.symm])
  constructor
  · rw [hgrant _ (by decide) (by decide) (by decide)]
    rfl
  · rw [hgrant _ (by decide) (by decide) (by decide)]
    simp only [redemption, candidate, Agent.connectionCandidate, Value.optional]
    split
    · rfl
    · next hfalsy =>
      have hundefined : (t.grant.field (ascii "workspaceScope")).orElse .undefined = .undefined := by
        rw [Value.orElse, if_neg hfalsy]
      rw [hundefined]
      split <;> split <;> rfl
  · refine ⟨t.enabled, withoutEnabled t.allowed t.enabled, t.allowed, ?_, ?_, ?_, hne,
      listed_withoutEnabled hallowed⟩
    · simp only [redemption, candidate, Agent.connectionCandidate, Value.optional]
      split <;> split <;> split <;> rfl
    · simp only [redemption, candidate, Agent.connectionCandidate, Value.optional]
      split <;> split <;> split <;> rfl
    · rw [hgrant _ (by decide) (by decide) (by decide), ht.allowed_eq]

section Step

variable {agent : Agent} {store : Collections} {w : RedemptionWorld} {i : ℕ}

private theorem redemptions_concat (log : List (ℕ × (op : Op) × Reply op)) (i : ℕ) (op : Op)
    (reply : Reply op) :
    redemptions (log ++ [(i, ⟨op, reply⟩)]) = redemptions log ++ redemptions [(i, ⟨op, reply⟩)] :=
  List.filterMap_append

private theorem RedemptionInvariant.quiet (h : RedemptionInvariant agent store w) {op : Op}
    {next : Reply op → Program Op Reply (Checked Value)} {answer : Answer}
    (hthread : w.thread i = .perform op next)
    (hstore : (perform agent.runtime .file w.store op answer).2.collections = w.store.collections)
    (hlog : redemptions [(i, ⟨op, (perform agent.runtime .file w.store op answer).1⟩)] = [])
    (hredeemed : ((redemptionMonitor agent).next (redemptionProgress agent w i) op
      (perform agent.runtime .file w.store op answer).1).redeemed =
        (redemptionProgress agent w i).redeemed)
    (htrusted : ∀ keyHash grant, ((redemptionMonitor agent).next
      (redemptionProgress agent w i) op
      (perform agent.runtime .file w.store op answer).1).trusted = some (keyHash, grant) →
        (redemptionProgress agent w i).trusted = some (keyHash, grant) ∨
          w.store.collections.get .installGrants keyHash = grant) :
    RedemptionInvariant agent store (w.turn (perform agent.runtime .file) (i, answer)) := by
  have hsame : redemptions (w.turn (perform agent.runtime .file) (i, answer)).log =
      redemptions w.log := by
    rw [World.turn_perform hthread, redemptions_concat, hlog, List.append_nil]
  have hcollections : (w.turn (perform agent.runtime .file) (i, answer)).store.collections =
      w.store.collections := by
    rw [World.turn_perform hthread, hstore]
  have hprogress : redemptionProgress agent (w.turn (perform agent.runtime .file) (i, answer)) =
      Function.update (redemptionProgress agent w) i _ := World.states_turn hthread _ _ _
  refine ⟨fun j keyHash grant hj => ?_, fun j input redemption => ?_, ?_, ?_, ?_, ?_, ?_, ?_⟩
  · rw [hcollections]
    rw [hprogress] at hj
    by_cases hij : j = i
    · subst hij
      rw [Function.update_self] at hj
      exact (htrusted keyHash grant hj).elim (h.trusted j keyHash grant) .inl
    · rw [Function.update_of_ne hij] at hj
      exact h.trusted j keyHash grant hj
  · rw [hsame, h.known, hprogress]
    by_cases hij : j = i
    · subst hij
      rw [Function.update_self, hredeemed]
    · rw [Function.update_of_ne hij]
  · rw [hsame, hcollections]
    exact h.observable
  · rw [hsame]
    exact h.faithful
  · rw [hsame]
    exact h.once
  · rw [hsame]
    exact h.granted
  · rw [hsame, hcollections]
    exact h.untouched
  · rw [hsame, hcollections]
    exact h.created

private theorem RedemptionInvariant.redeems (h : RedemptionInvariant agent store w) {input : Value}
    {t : Transaction} {redemption : Redemption} {unavailable : Bool} {draft : Collections}
    (hsends : Sends agent (redemptionProgress agent w i) input t)
    (hok : redeemInstallGrant agent.runtime.toRuntime w.store.collections unavailable input =
      (.ok redemption, draft)) :
    redemption = t.redemption agent ∧ Faithful redemption ∧
      draft = storeRedemption w.store.collections t.keyHash t.connectionId redemption ∧
      persist draft = .ok () ∧
      hasStatus (w.store.collections.get .installGrants t.keyHash) "redeemed" = false ∧
      w.store.collections.get .installGrants t.keyHash = t.grant ∧
      (w.store.collections .connections).has t.connectionId = false ∧
      validKey (.string t.keyHash) = .ok t.keyHash ∧
      validKey (.string t.connectionId) = .ok t.connectionId := by
  obtain ⟨hinput, hsound, htrusted⟩ := hsends
  obtain ⟨-, -, keyHash, connectionId, approved, allowed, hredeems, hredemption, hdraft, hpersist⟩ :=
    redeemInstallGrant_ok.mp hok
  rw [hinput] at hredeems hredemption
  obtain rfl := validKey_string hredeems.keyHash_eq
  have hnot : hasStatus (w.store.collections.get .installGrants t.keyHash) "redeemed" = false := by
    have hredeemable := hredeems.redeemable
    simp only [checkRedeemable, bind_ok, throwWhen_ok, exists_unit] at hredeemable
    exact hredeemable.2.1
  have hgrant := (h.trusted i t.keyHash t.grant htrusted).resolve_right (by simp [hnot])
  obtain ⟨-, rfl, heq⟩ := redemptionOf_eq hsound hredeems hgrant
  obtain rfl := hredemption.trans heq
  have happroved := hredeems.approved_eq
  have hallowed := hredeems.allowed_eq
  simp only [Transaction.input_approved, Value.orElse, Value.isTruthy, if_true, itemsOf,
    pure_ok] at happroved
  rw [hgrant, hsound.allowed_eq] at hallowed
  simp only [itemsOf, pure_ok] at hallowed
  subst happroved hallowed
  have hne := hredeems.enabled_ne
  have hin := hredeems.enabled_allowed
  rw [distinctValues_of_distinct hsound.distinct] at hne hin
  exact ⟨rfl, Transaction.redemption_faithful hsound (by simpa using hne) hin, hdraft, hpersist,
    hnot, hgrant, hredeems.isNew, hredeems.keyHash_eq, by simpa using hredeems.connectionId_eq⟩

theorem Transaction.redemption_redeemed (agent : Agent) (t : Transaction) :
    hasStatus (t.redemption agent).grant "redeemed" = true := by
  rw [hasStatus, Transaction.redemption, redeemedGrant, Value.field_spread]
  rfl

private theorem RedemptionInvariant.redeem (h : RedemptionInvariant agent store w) {input : Value}
    {next : Checked Redemption → Program Op Reply (Checked Value)} {t : Transaction}
    {redemption : Redemption} {draft : Collections} {answer : Answer}
    (hthread : w.thread i = .perform (.redeemInstallGrant input) next)
    (hnone : (redemptionProgress agent w i).redeemed = none)
    (hsends : Sends agent (redemptionProgress agent w i) input t)
    (hok : redeemInstallGrant agent.runtime.toRuntime w.store.collections answer.unavailable input =
      (.ok redemption, draft)) :
    RedemptionInvariant agent store (w.turn (perform agent.runtime .file) (i, answer)) := by
  obtain ⟨heq, hfaithful, rfl, -, hactive, hgrant, hnew, hvalid, hvalid'⟩ := h.redeems hsends hok
  obtain ⟨hinput, -, -⟩ := hsends
  have hreply : perform agent.runtime .file w.store (.redeemInstallGrant input) answer =
      (.ok redemption, { w.store with
        collections := storeRedemption w.store.collections t.keyHash t.connectionId redemption }) := by
    rw [perform, hok]
    rfl
  have hlog : redemptions (w.turn (perform agent.runtime .file) (i, answer)).log =
      redemptions w.log ++ [(i, input, redemption)] := by
    rw [World.turn_perform hthread, redemptions_concat, hreply]
    rfl
  have hcollections : (w.turn (perform agent.runtime .file) (i, answer)).store.collections =
      storeRedemption w.store.collections t.keyHash t.connectionId redemption := by
    rw [World.turn_perform hthread, hreply]
  have hprogress : redemptionProgress agent (w.turn (perform agent.runtime .file) (i, answer)) =
      Function.update (redemptionProgress agent w) i
        { redemptionProgress agent w i with redeemed := some (input, redemption) } := by
    refine (World.states_turn hthread _ _ _).trans ?_
    rw [hreply]
    rfl
  have hstatus : hasStatus redemption.grant "redeemed" = true := by
    rw [heq]
    exact t.redemption_redeemed agent
  have hkey : input.field (ascii "keyHash") = .string t.keyHash := by rw [hinput]; rfl
  have hconnection : (input.field (ascii "connection")).field (ascii "connectionId") =
      .string t.connectionId := by
    rw [hinput, Transaction.input_connection, Transaction.candidate_connectionId]
  -- a grant that was redeemed before is not redeemed again
  have hother {e : ℕ × Value × Redemption} (he : e ∈ redemptions w.log) {keyHash : Text}
      (hkeyHash : e.2.1.field (ascii "keyHash") = .string keyHash) : keyHash ≠ t.keyHash := by
    rintro rfl
    obtain ⟨hredeemed, keyHash', _, hkeyHash', -, -, -, hstored, -⟩ := h.observable e he
    obtain rfl : keyHash' = t.keyHash := by simpa [hkeyHash] using hkeyHash'.symm
    rw [Collections.get, hstored, Option.getD_some, hredeemed] at hactive
    cases hactive
  refine ⟨fun j keyHash grant hj => ?_, fun j input' redemption' => ?_, fun e he => ?_,
    fun e he => ?_, ?_, fun e he => ?_, fun keyHash hunredeemed => ?_,
    fun connectionId connection hstored => ?_⟩
  · have hbefore : (redemptionProgress agent w j).trusted = some (keyHash, grant) := by
      rw [hprogress] at hj
      by_cases hij : j = i
      · subst hij
        rwa [Function.update_self] at hj
      · rwa [Function.update_of_ne hij] at hj
    rw [hcollections, Collections.get, storeRedemption_grants]
    by_cases hsame : keyHash = t.keyHash
    · subst hsame
      rw [OrderedMap.get?_set_self]
      exact .inr hstatus
    · rw [OrderedMap.get?_set_of_ne _ hsame]
      exact h.trusted j keyHash grant hbefore
  · rw [hlog, hprogress, List.mem_append, List.mem_singleton, h.known]
    by_cases hij : j = i
    · subst hij
      simp [hnone, eq_comm]
    · simp [hij]
  · rw [hlog, List.mem_append, List.mem_singleton] at he
    rw [hcollections]
    rcases he with he | rfl
    · obtain ⟨hredeemed, keyHash, connectionId, hkeyHash, hconnectionId, hvalidKey, hvalidId, hgrant,
        hstored⟩ := h.observable e he
      have hne : connectionId ≠ t.connectionId := by
        rintro rfl
        rw [OrderedMap.has_eq_isSome, hstored] at hnew
        cases hnew
      refine ⟨hredeemed, keyHash, connectionId, hkeyHash, hconnectionId, hvalidKey, hvalidId, ?_, ?_⟩
      · rw [storeRedemption_grants, OrderedMap.get?_set_of_ne _ (hother he hkeyHash), hgrant]
      · rw [storeRedemption_connections, OrderedMap.get?_set_of_ne _ hne, hstored]
    · exact ⟨hstatus, t.keyHash, t.connectionId, hkey, hconnection, hvalid, hvalid',
        by rw [storeRedemption_grants, OrderedMap.get?_set_self],
        by rw [storeRedemption_connections, OrderedMap.get?_set_self]⟩
  · rw [hlog, List.mem_append, List.mem_singleton] at he
    rcases he with he | rfl
    · exact h.faithful e he
    · exact hfaithful
  · rw [hlog, List.pairwise_append]
    refine ⟨h.once, List.pairwise_singleton _ _, fun e he f hf => ?_⟩
    obtain rfl := List.mem_singleton.mp hf
    intro hsame
    exact hother he (hsame.trans hkey) rfl
  · rw [hlog, List.mem_append, List.mem_singleton] at he
    rcases he with he | rfl
    · exact h.granted e he
    · have hbefore := h.untouched t.keyHash fun e he hsame => hother he hsame rfl
      refine ⟨t.keyHash, .string t.now, t.connectionId, hkey, ?_⟩
      rw [heq, Collections.get, ← hbefore]
      exact congrArg (redeemedGrant · _ _) hgrant.symm
  · have hne : keyHash ≠ t.keyHash := by
      rintro rfl
      exact hunredeemed (i, input, redemption) (by simp [hlog]) hkey
    rw [hcollections, storeRedemption_grants, OrderedMap.get?_set_of_ne _ hne]
    exact h.untouched keyHash fun e he => hunredeemed e (by simp [hlog, he])
  · rw [hcollections, storeRedemption_connections] at hstored
    rw [hlog]
    by_cases hsame : connectionId = t.connectionId
    · subst hsame
      rw [OrderedMap.get?_set_self, Option.some.injEq] at hstored
      exact .inr ⟨(i, input, redemption), by simp, hstored, hconnection⟩
    · rw [OrderedMap.get?_set_of_ne _ hsame] at hstored
      rcases h.created connectionId connection hstored with hbefore | ⟨e, he, hcreated⟩
      · exact .inl hbefore
      · exact .inr ⟨e, List.mem_append_left _ he, hcreated⟩

private theorem next_get (s : RedemptionProgress) (collection : Collection) (key : Value)
    (reply : Checked Value) :
    ((redemptionMonitor agent).next s (.get collection key) reply).redeemed = s.redeemed ∧
      ∀ keyHash grant,
        ((redemptionMonitor agent).next s (.get collection key) reply).trusted =
          some (keyHash, grant) → s.trusted = some (keyHash, grant) ∨
            (collection = .installGrants ∧ key = .string keyHash ∧ reply = .ok grant) := by
  cases collection with
  | installGrants =>
    cases key with
    | string k =>
      cases reply with
      | ok grant =>
        simp only [redemptionMonitor]
        split
        · refine ⟨rfl, fun keyHash grant' h => .inr ?_⟩
          simpa [eq_comm] using h
        · exact ⟨rfl, fun _ _ => .inl⟩
      | error failure => exact ⟨rfl, fun _ _ => .inl⟩
    | _ => exact ⟨rfl, fun _ _ => .inl⟩
  | _ => exact ⟨rfl, fun _ _ => .inl⟩

theorem redemptionInvariant (agent : Agent) (store : Collections) :
    Invariant (perform agent.runtime .file) (redemptionMonitor agent) (fun _ => {})
      (fun _ _ => True) (RedemptionInvariant agent store) where
  replies w i answer op next h _ _ hallowed := by
    cases op with
    | redeemInstallGrant input =>
      cases hok : redeemInstallGrant agent.runtime.toRuntime w.store.collections answer.unavailable
          input with
      | mk reply draft =>
        have hreply : (perform agent.runtime .file w.store (.redeemInstallGrant input) answer).1 =
            reply := by rw [perform, hok]; rfl
        rw [hreply]
        cases reply with
        | error failure => trivial
        | ok redemption =>
          intro t hsends
          obtain ⟨heq, -, rfl, hpersist, -⟩ := h.redeems hsends hok
          exact ⟨heq,
            written_of_persist hpersist .installGrants
              (by rw [storeRedemption_grants, OrderedMap.get?_set_self]),
            written_of_persist hpersist .connections
              (by rw [storeRedemption_connections, OrderedMap.get?_set_self])⟩
    | get collection key =>
      cases collection with
      | installGrants =>
        intro input redemption hredeemed hkey
        obtain ⟨-, keyHash, _, hkeyHash, -, hvalid, -, hstored, -⟩ :=
          h.observable _ ((h.known i input redemption).mpr hredeemed)
        rw [hkey, hkeyHash]
        exact fileGet_of_get? hvalid hstored
      | connections =>
        intro input redemption hredeemed hkey
        obtain ⟨-, _, connectionId, -, hconnectionId, -, hvalid, -, hstored⟩ :=
          h.observable _ ((h.known i input redemption).mpr hredeemed)
        rw [hkey, hconnectionId]
        exact fileGet_of_get? hvalid hstored
      | _ => exact hallowed.elim
    | clock => trivial
    | randomUUID => trivial
    | _ => exact hallowed.elim
  keeps w i answer op next h _ hthread hallowed := by
    cases op with
    | redeemInstallGrant input =>
      obtain ⟨hnone, t, hsends⟩ := hallowed
      cases hok : redeemInstallGrant agent.runtime.toRuntime w.store.collections answer.unavailable
          input with
      | mk reply draft =>
        cases reply with
        | ok redemption => exact h.redeem hthread hnone hsends hok
        | error failure =>
          have hdraft : draft = w.store.collections := by
            have herror := exclusive_error (congrArg Prod.fst hok)
            rw [← herror]
            exact (congrArg Prod.snd hok).symm
          have hreply : perform agent.runtime .file w.store (.redeemInstallGrant input) answer =
              (.error failure, { w.store with collections := draft }) := by rw [perform, hok]; rfl
          refine h.quiet hthread ?_ ?_ ?_ fun _ _ => ?_ <;> rw [hreply]
          · exact hdraft
          · rfl
          · rfl
          · exact .inl
    | get collection key =>
      have hread : fileGet w.store.collections collection key =
          (perform agent.runtime .file w.store (.get collection key) answer).1 := rfl
      refine h.quiet hthread rfl rfl ?_ fun keyHash grant => ?_
      · exact (next_get _ collection key _).1
      · intro htrusted
        refine ((next_get _ collection key _).2 keyHash grant htrusted).imp_right ?_
        rintro ⟨rfl, rfl, hgrant⟩
        exact fileGet_ok (hread.trans hgrant)
    | clock => exact h.quiet hthread rfl rfl rfl fun _ _ => .inl
    | randomUUID => exact h.quiet hthread rfl rfl rfl fun _ _ => .inl
    | _ => exact hallowed.elim

end Step

def redemptionStart (agent : Agent) (requests : ℕ → Value × Value) (store : Collections) :
    RedemptionWorld :=
  World.initial { collections := store } (redemptionThreads agent requests)

abbrev redemptionsAfter (agent : Agent) (requests : ℕ → Value × Value) (store : Collections)
    (calls : List (ℕ × Answer)) : RedemptionWorld :=
  after (World.turn (perform agent.runtime .file)) (redemptionStart agent requests store) calls

section Runs

variable (agent : Agent) (requests : ℕ → Value × Value) (store : Collections)

theorem redemptions_invariant (calls : List (ℕ × Answer)) :
    RedemptionInvariant agent store (redemptionsAfter agent requests store calls) ∧
      (redemptionsAfter agent requests store calls).Monitored (redemptionMonitor agent) (fun _ => {})
        fun _ => RejectedUnredeemed := by
  have hfollows : (redemptionStart agent requests store).Monitored (redemptionMonitor agent)
      (fun _ => {}) fun _ => RejectedUnredeemed :=
    fun i => redeemInstallGrantAtomically_follows agent _ _
  refine (redemptionInvariant agent store).after ?_ hfollows
    (guarded_of_forall fun _ _ _ => trivial)
  exact
    { trusted := fun i keyHash grant h => nomatch h
      known := fun i input redemption => ⟨fun h => (List.not_mem_nil h).elim, fun h => nomatch h⟩
      observable := fun e h => (List.not_mem_nil h).elim
      faithful := fun e h => (List.not_mem_nil h).elim
      once := .nil
      granted := fun e h => (List.not_mem_nil h).elim
      untouched := fun keyHash _ => rfl
      created := fun connectionId connection h => .inl h }

private theorem collections_turn {w : RedemptionWorld}
    (hmonitored : w.Monitored (redemptionMonitor agent) (fun _ => {}) fun _ => RejectedUnredeemed)
    (call : ℕ × Answer) :
    (w.turn (perform agent.runtime .file) call).store.collections = w.store.collections ∨
      ∃ input redemption, (call.1, input, redemption) ∈
        redemptions (w.turn (perform agent.runtime .file) call).log := by
  obtain ⟨i, answer⟩ := call
  rcases World.turn_cases (perform agent.runtime .file) w (i, answer) with
    ⟨hturn, -⟩ | ⟨op, next, hthread, hturn⟩
  · exact .inl (by rw [hturn])
  have hallowed := hmonitored i
  rw [hthread] at hallowed
  replace hallowed := hallowed.1
  rw [hturn]
  cases op with
  | redeemInstallGrant input =>
    cases hok : redeemInstallGrant agent.runtime.toRuntime w.store.collections answer.unavailable
        input with
    | mk reply draft =>
      have hreply : perform agent.runtime .file w.store (.redeemInstallGrant input) answer =
          (reply, { w.store with collections := draft }) := by rw [perform, hok]; rfl
      rw [hreply]
      cases reply with
      | ok redemption => exact .inr ⟨input, redemption, by simp [redemptions]⟩
      | error failure =>
        have herror := exclusive_error (congrArg Prod.fst hok)
        exact .inl ((congrArg Prod.snd hok).symm.trans herror)
  | clock => exact .inl rfl
  | randomUUID => exact .inl rfl
  | get collection key => exact .inl rfl
  | _ => exact hallowed.elim

end Runs

end GhostBridge.NativeAgent
