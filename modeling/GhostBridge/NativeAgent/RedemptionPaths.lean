import GhostBridge.NativeAgent.Redemption

/-!
# The two ways to redeem a grant

The same grant and the same request, redeemed in maps and as a transaction of the file store.
-/

namespace GhostBridge.NativeAgent

open Ecma Machine ProtocolCore

/-- A grant as `issueInstallGrant` stores it, which was neither redeemed nor revoked. -/
structure ActiveGrant (agent : Agent) (keyHash : Text) (grant : Value) : Prop where
  keyHash_eq : grant.field (ascii "keyHash") = .string keyHash
  issuer_eq : (grant.field (ascii "issuer")).strictEq (agent.passport.field (ascii "issuer")) = true
  agentId_eq :
    (grant.field (ascii "agentId")).strictEq (agent.passport.field (ascii "agentId")) = true
  active : hasStatus grant "active" = true
  expires : (parseDate agent.runtime.toRuntime (grant.field (ascii "expiresAt"))).isSome = true
  allows : (grant.field (ascii "allowedCapabilityKeys")).isArray = true

/-- What both ways check: the time, the scope of the grant, the mode, and the approved capabilities. -/
structure Eligible (agent : Agent) (grant scope : Value) (now : Int) (approved allowed : List Value) :
    Prop where
  inTime : (parseDate agent.runtime.toRuntime (grant.field (ascii "expiresAt"))).any (· ≤ now) = false
  hasScope : (scope.field (ascii "organizationScope")).isTruthy = true
  organization : (grant.field (ascii "organizationScope")).strictEq
    (scope.field (ascii "organizationScope")) = true
  workspace : (grant.field (ascii "workspaceScope")).isTruthy = true →
    (grant.field (ascii "workspaceScope")).strictEq (scope.field (ascii "workspaceScope")) = true
  mode : namesInclude agent.authenticationModes (agent.selectedMode scope) = true
  approved_eq : scope.field (ascii "approvedCapabilityKeys") = .array approved
  approved_ne : approved ≠ []
  allowed_eq : grant.field (ascii "allowedCapabilityKeys") = .array allowed
  approved_allowed : ∀ key ∈ approved, listed allowed key = true
  bound : lacksBinding scope (agent.selectedMode scope) (grant.field (ascii "organizationScope"))
    (grant.field (ascii "workspaceScope")) = false

section Checks

variable {agent : Agent} {grant scope : Value} {now : Int} {approved allowed : List Value}

theorem ActiveGrant.isTruthy {keyHash : Text} (h : ActiveGrant agent keyHash grant) :
    grant.isTruthy = true := by
  have hactive := h.active
  cases grant with
  | object members => rfl
  | _ => cases hactive

theorem hasStatus_of_active {status : String} (h : hasStatus grant "active" = true)
    (hne : ascii status ≠ ascii "active") : hasStatus grant status = false := by
  cases hstatus : grant.field (ascii "status") with
  | string s =>
    simp only [hasStatus, hstatus, Value.strictEq, beq_iff_eq] at h
    simp only [hasStatus, hstatus, Value.strictEq, h, beq_eq_false_iff_ne]
    exact hne.symm
  | _ => simp [hasStatus, hstatus, Value.strictEq]

theorem assertGrantScope_ok {allowRedeemed : Bool} (h : hasStatus grant "active" = true) :
    assertGrantScope agent.runtime.toRuntime grant scope now allowRedeemed = .ok () ↔
      (parseDate agent.runtime.toRuntime (grant.field (ascii "expiresAt"))).any (· ≤ now) = false ∧
        (scope.field (ascii "organizationScope")).isTruthy = true ∧
        (grant.field (ascii "organizationScope")).strictEq
          (scope.field (ascii "organizationScope")) = true ∧
        ((grant.field (ascii "workspaceScope")).isTruthy = true →
          (grant.field (ascii "workspaceScope")).strictEq
            (scope.field (ascii "workspaceScope")) = true) := by
  simp only [assertGrantScope, bind_ok, throwWhen_ok, exists_unit,
    hasStatus_of_active h (show ascii "revoked" ≠ ascii "active" by decide),
    hasStatus_of_active h (show ascii "redeemed" ≠ ascii "active" by decide), Bool.false_and,
    true_and, Bool.and_eq_false_imp, Bool.not_eq_eq_eq_not, Bool.not_false]

theorem supportedMode_ok {selected : Value} : agent.supportedMode scope = .ok selected ↔
    namesInclude agent.authenticationModes (agent.selectedMode scope) = true ∧
      agent.selectedMode scope = selected := by
  simp [Agent.supportedMode]

theorem checkRecord_ok {checked : Agent.RedemptionRequest × List Value}
    (h : (scope.field (ascii "approvedCapabilityKeys")).isTruthy = true) :
    agent.checkRecord grant scope = .ok checked ↔
      namesInclude agent.authenticationModes (agent.selectedMode scope) = true ∧
        ∃ approved allowed, scope.field (ascii "approvedCapabilityKeys") = .array approved ∧
          approved ≠ [] ∧ grant.field (ascii "allowedCapabilityKeys") = .array allowed ∧
          (∀ key ∈ approved, listed allowed key = true) ∧
          lacksBinding scope (agent.selectedMode scope) (grant.field (ascii "organizationScope"))
            (grant.field (ascii "workspaceScope")) = false ∧
          checked = (⟨agent.selectedMode scope, approved⟩, allowed) := by
  have hexplicit : agent.approvedCapabilities grant scope =
      scope.field (ascii "approvedCapabilityKeys") := by
    rw [Agent.approvedCapabilities, if_pos h]
  have hitems {value : Value} {items : List Value} :
      itemsOf value = .ok items ↔ value = .array items := by
    cases value <;> simp [itemsOf]
  cases happroved : scope.field (ascii "approvedCapabilityKeys") with
  | array approved =>
    simp only [Agent.checkRecord, hexplicit, happroved, bind_ok, supportedMode_ok, hitems,
      throwWhen_ok, exists_unit, pure_ok, List.isEmpty_eq_false_iff, List.any_eq_false,
      Bool.not_eq_true', Bool.not_eq_false, Value.array.injEq]
    constructor
    · rintro ⟨_, ⟨hmode, rfl⟩, _, rfl, hne, allowed, hallowed, hin, hbound, rfl⟩
      exact ⟨hmode, approved, allowed, rfl, hne, hallowed, hin, hbound, rfl⟩
    · rintro ⟨hmode, _, allowed, rfl, hne, hallowed, hin, hbound, rfl⟩
      exact ⟨_, ⟨hmode, rfl⟩, approved, rfl, hne, allowed, hallowed, hin, hbound, rfl⟩
  | _ => simp [Agent.checkRecord, hexplicit, happroved]

theorem checkRequest_ok {request : Agent.RedemptionRequest} :
    agent.checkRequest scope = .ok request ↔
      (scope.field (ascii "organizationScope")).isTruthy = true ∧
        namesInclude agent.authenticationModes (agent.selectedMode scope) = true ∧
        ∃ approved, scope.field (ascii "approvedCapabilityKeys") = .array approved ∧
          approved ≠ [] ∧
          lacksBinding scope (agent.selectedMode scope) (scope.field (ascii "organizationScope"))
            (scope.field (ascii "workspaceScope")) = false ∧
          request = ⟨agent.selectedMode scope, approved⟩ := by
  cases happroved : scope.field (ascii "approvedCapabilityKeys") with
  | array approved =>
    simp only [Agent.checkRequest, happroved, bind_ok, supportedMode_ok, throwWhen_ok, exists_unit,
      pure_ok, List.isEmpty_eq_false_iff, Bool.not_eq_false', Value.array.injEq]
    constructor
    · rintro ⟨hscoped, _, ⟨hmode, rfl⟩, _, rfl, hne, hbound, rfl⟩
      exact ⟨hscoped, hmode, approved, rfl, hne, hbound, rfl⟩
    · rintro ⟨hscoped, hmode, _, rfl, hne, hbound, rfl⟩
      exact ⟨hscoped, _, ⟨hmode, rfl⟩, approved, rfl, hne, hbound, rfl⟩
  | _ => simp [Agent.checkRequest, happroved]

theorem checkTrusted_active {keyHash : Text} (h : ActiveGrant agent keyHash grant) :
    agent.checkTrusted grant keyHash = .ok allowed ↔
      grant.field (ascii "allowedCapabilityKeys") = .array allowed := by
  have hkey : (grant.field (ascii "keyHash")).strictEq (.string keyHash) = true := by
    rw [h.keyHash_eq]
    exact beq_self_eq_true keyHash
  simp only [Agent.checkTrusted, h.isTruthy, hkey, h.issuer_eq, h.agentId_eq, bind_ok, exists_unit,
    throwWhen_ok, Bool.not_true, Bool.or_self, true_and]
  cases grant.field (ascii "allowedCapabilityKeys") <;> simp

end Checks

def connectionIdOf (uuid : Text) : Text := ascii "connection" ++ 0x5f :: uuid

def redeemedInMaps (agent : Agent) (state : AgentState) (keyHash : Text) (grant scope : Value)
    (approved allowed : List Value) (connectionId time : Text) : AgentState :=
  { state with
    collections := (state.collections.set .connections connectionId
      (agent.connectionRecord grant scope (agent.selectedMode scope) approved allowed connectionId
        time)).set .installGrants keyHash (redeemedGrant grant (.string time) connectionId) }

def connectionAnswer (connection : Value) : Value :=
  .record (publicConnection connection ++ [("idempotentReplay", .bool false)])

section Maps

variable {agent : Agent} {state after : AgentState} {scope grant value : Value} {keyHash uuid : Text}
  {now : Int}

private theorem run_clock {storage : Storage} {f : Int → Flow Value} :
    (Async.ask Op.clock >>= f).run (perform agent.runtime storage) { now := now, uuid := uuid }
        state = (.ok value, after) ↔
      (f now).run (perform agent.runtime storage) { now := now, uuid := uuid } state =
        (.ok value, after) :=
  Iff.rfl

theorem redeemInstallGrantRecord_ok (hgrant : ActiveGrant agent keyHash grant)
    (hexplicit : (scope.field (ascii "approvedCapabilityKeys")).isTruthy = true) :
    (agent.redeemInstallGrantRecord keyHash grant scope).run (perform agent.runtime .maps)
        { now := now, uuid := uuid } state = (.ok value, after) ↔
      ∃ approved allowed time, Eligible agent grant scope now approved allowed ∧
        agent.runtime.isoTime now = some time ∧
        value = connectionAnswer (agent.connectionRecord grant scope (agent.selectedMode scope)
          approved allowed (connectionIdOf uuid) time) ∧
        after = redeemedInMaps agent state keyHash grant scope approved allowed (connectionIdOf uuid)
          time := by
  have hredeemed := hasStatus_of_active hgrant.active
    (show ascii "redeemed" ≠ ascii "active" by decide)
  have hput {a b : AgentState} {collection : Collection} {k v : Value} {u : Unit} :
      (storePut collection k v).run (perform agent.runtime .maps) { now := now, uuid := uuid } a =
        (.ok u, b) ↔ b = { a with collections := a.collections.set collection (mapKey k) v } :=
    run_storePut_maps_ok rfl
  have hkey : mapKey (grant.field (ascii "keyHash")) = keyHash := by rw [hgrant.keyHash_eq]; rfl
  have hid (text : Text) : mapKey (.string text) = text := rfl
  rw [Agent.redeemInstallGrantRecord, run_clock]
  by_cases hexpired :
      (parseDate agent.runtime.toRuntime (grant.field (ascii "expiresAt"))).any (· ≤ now) = true
  · -- neither way accepts an expired grant
    simp only [hexpired, if_true, Async.run_bind_ok, Async.run_monadLift_ok,
      assertGrantScope_ok hgrant.active]
    constructor
    · rintro ⟨_, _, -, _, _, ⟨⟨h, -⟩, -⟩, -⟩
      cases h
    · rintro ⟨_, _, _, h, -⟩
      rw [h.inTime] at hexpired
      cases hexpired
  · simp only [Bool.not_eq_true] at hexpired
    simp only [hexpired, hredeemed, Bool.false_eq_true, if_false, Async.run_bind_ok,
      Async.run_monadLift_ok, Async.run_pure_ok, assertGrantScope_ok hgrant.active,
      checkRecord_ok hexplicit, run_freshIdentifier_ok, run_timestamp_ok, hput, hkey, hid]
    constructor
    · rintro ⟨_, _, ⟨⟨-, hscope, horganization, hworkspace⟩, rfl⟩, _, _, ⟨⟨hmode, approved, allowed,
        happroved, hne, hallowed, hin, hbound, rfl⟩, rfl⟩, _, _, ⟨rfl, rfl⟩, time, _, ⟨htime, rfl⟩,
        _, _, rfl, _, _, rfl, rfl, rfl⟩
      exact ⟨approved, allowed, time, ⟨hexpired, hscope, horganization, hworkspace, hmode, happroved,
        hne, hallowed, hin, hbound⟩, htime, rfl, rfl⟩
    · rintro ⟨approved, allowed, time, h, htime, rfl, rfl⟩
      exact ⟨(), _, ⟨⟨trivial, h.hasScope, h.organization, h.workspace⟩, rfl⟩, _, _,
        ⟨⟨h.mode, approved, allowed, h.approved_eq, h.approved_ne, h.allowed_eq, h.approved_allowed,
          h.bound, rfl⟩, rfl⟩, _, _, ⟨rfl, rfl⟩, time, _, ⟨htime, rfl⟩, (), _, rfl, (), _, rfl, rfl,
        rfl⟩

theorem redeemInstallGrantInMaps_ok {key : Value}
    (hkeyHash : digest (.record [("key", key)]) = .ok keyHash)
    (hstored : state.collections.get .installGrants keyHash = grant)
    (hgrant : ActiveGrant agent keyHash grant)
    (hexplicit : (scope.field (ascii "approvedCapabilityKeys")).isTruthy = true) :
    (agent.redeemInstallGrantInMaps key scope).run (perform agent.runtime .maps)
        { now := now, uuid := uuid } state = (.ok value, after) ↔
      ∃ approved allowed time, Eligible agent grant scope now approved allowed ∧
        agent.runtime.isoTime now = some time ∧
        value = connectionAnswer (agent.connectionRecord grant scope (agent.selectedMode scope)
          approved allowed (connectionIdOf uuid) time) ∧
        after = redeemedInMaps agent state keyHash grant scope approved allowed (connectionIdOf uuid)
          time := by
  rw [← redeemInstallGrantRecord_ok hgrant hexplicit]
  have hread : storageGet .maps state.collections .installGrants (.string keyHash) = .ok grant :=
    congrArg Except.ok hstored
  simp only [Agent.redeemInstallGrantInMaps, Agent.findGrant, Async.run_bind_ok,
    Async.run_monadLift_ok, Async.run_pure_ok, run_storeGet_ok, throwWhen_ok]
  constructor
  · rintro ⟨_, _, ⟨hkey, rfl⟩, _, _, ⟨_, _, ⟨hget, rfl⟩, _, _, ⟨-, rfl⟩, rfl, rfl⟩, hrun⟩
    obtain rfl : keyHash = _ := Except.ok.inj (hkeyHash.symm.trans hkey)
    obtain rfl : grant = _ := Except.ok.inj (hread.symm.trans hget)
    exact hrun
  · intro hrun
    exact ⟨keyHash, state, ⟨hkeyHash, rfl⟩, grant, state, ⟨grant, state, ⟨hread, rfl⟩, (), state,
      ⟨by rw [hgrant.isTruthy]; rfl, rfl⟩, rfl, rfl⟩, hrun⟩

end Maps

def transactionOf (agent : Agent) (keyHash : Text) (grant scope : Value) (approved allowed : List Value)
    (connectionId time : Text) : Transaction :=
  { scope, selectedMode := agent.selectedMode scope, grant, allowed,
    enabled := distinctValues approved, keyHash, connectionId, now := time }

structure Storable (agent : Agent) (state : Collections) (t : Transaction) : Prop where
  plain : Plain defaultLimits 0 (t.input agent)
  connectionId : validKey (.string t.connectionId) = .ok t.connectionId
  isNew : (state .connections).has t.connectionId = false
  persists : persist (storeRedemption state t.keyHash t.connectionId (t.redemption agent)) = .ok ()

section Transactions

variable {agent : Agent} {state after : AgentState} {scope grant value : Value} {keyHash uuid : Text}
  {now : Int} {before : Collections}

theorem strictEq_congr {a b : Value} (h : a.strictEq b = true) (v : Value) :
    v.strictEq a = v.strictEq b := by
  rw [Bool.eq_iff_iff]
  exact ⟨fun hv => Value.strictEq_trans hv h,
    fun hv => Value.strictEq_trans hv (by rwa [Value.strictEq_comm])⟩

theorem lacksBinding_congr {selected organization organization' workspace workspace' : Value}
    (horganization : organization.strictEq organization' = true)
    (hworkspace : sameOptional workspace workspace' = true) :
    lacksBinding scope selected organization workspace =
      lacksBinding scope selected organization' workspace' := by
  simp only [lacksBinding, sameOptional, strictEq_congr horganization, strictEq_congr hworkspace]

theorem Transaction.input_workspace (t : Transaction) :
    ((t.input agent).field (ascii "workspaceScope")).orElse .undefined =
      (t.scope.field (ascii "workspaceScope")).orElse .undefined := by
  simp only [input, Agent.redemptionInput, Value.optional]
  split
  · rfl
  · next hfalsy => rw [Value.orElse, Value.orElse, if_neg hfalsy]; rfl

theorem checkRedeemable_ok {input : Value} (h : ActiveGrant agent keyHash grant)
    (hnow : parseDate agent.runtime.toRuntime (input.field (ascii "now")) = some now) :
    checkRedeemable agent.runtime.toRuntime grant input = .ok () ↔
      (parseDate agent.runtime.toRuntime (grant.field (ascii "expiresAt"))).any (· ≤ now) = false ∧
        (grant.field (ascii "organizationScope")).strictEq
          (input.field (ascii "organizationScope")) = true ∧
        sameOptional (grant.field (ascii "workspaceScope")) (input.field (ascii "workspaceScope")) =
          true := by
  obtain ⟨expiry, hexpiry⟩ := Option.isSome_iff_exists.mp h.expires
  simp only [checkRedeemable, bind_ok, throwWhen_ok, exists_unit, h.isTruthy, h.active, hnow, hexpiry,
    hasStatus_of_active h.active (show ascii "revoked" ≠ ascii "active" by decide),
    hasStatus_of_active h.active (show ascii "redeemed" ≠ ascii "active" by decide), Bool.not_true,
    true_and, Option.any_some, Bool.or_eq_false_iff, Bool.not_eq_eq_eq_not, Bool.not_false]

theorem passRedemption_ok {reply : Checked Redemption} {redemption : Redemption} :
    Agent.passRedemption reply = .ok redemption ↔ reply = .ok redemption := by
  cases reply <;> simp [Agent.passRedemption]

theorem redeemInstallGrant_transactionOf {approved allowed : List Value} {connectionId time : Text}
    {redemption : Redemption} {draft state : Collections} {writeFails : Bool}
    (hgrant : ActiveGrant agent keyHash grant) (hvalid : validKey (.string keyHash) = .ok keyHash)
    (hstored : state.get .installGrants keyHash = grant)
    (hallowed : grant.field (ascii "allowedCapabilityKeys") = .array allowed)
    (hne : approved ≠ []) (hin : ∀ key ∈ approved, listed allowed key = true)
    (htime : agent.runtime.isoTime now = some time) :
    let t := transactionOf agent keyHash grant scope approved allowed connectionId time
    redeemInstallGrant agent.runtime.toRuntime state writeFails (t.input agent) =
        (.ok redemption, draft) ↔
      writeFails = false ∧ Storable agent state t ∧
        (parseDate agent.runtime.toRuntime (grant.field (ascii "expiresAt"))).any (· ≤ now) = false ∧
        (grant.field (ascii "organizationScope")).strictEq
          (scope.field (ascii "organizationScope")) = true ∧
        sameOptional (grant.field (ascii "workspaceScope")) (scope.field (ascii "workspaceScope")) =
          true ∧
        redemption = t.redemption agent ∧
        draft = storeRedemption state keyHash connectionId (t.redemption agent) := by
  intro t
  have hnow : parseDate agent.runtime.toRuntime ((t.input agent).field (ascii "now")) = some now :=
    agent.runtime.dateParse_isoTime _ _ htime
  have hworkspace : sameOptional (grant.field (ascii "workspaceScope"))
      ((t.input agent).field (ascii "workspaceScope")) =
        sameOptional (grant.field (ascii "workspaceScope")) (scope.field (ascii "workspaceScope")) := by
    rw [sameOptional, Transaction.input_workspace]
    rfl
  have hsound : t.Sound := ⟨distinct_distinctValues _, hallowed⟩
  rw [redeemInstallGrant_ok]
  constructor
  · rintro ⟨hwrite, hplain, keyHash', connectionId', _, _, h, rfl, rfl, hpersist⟩
    obtain ⟨hkey, hid, heq⟩ : keyHash' = keyHash ∧ connectionId' = connectionId ∧ _ :=
      redemptionOf_eq hsound h hstored
    subst hkey hid
    have hredeemable := h.redeemable
    rw [hstored, checkRedeemable_ok hgrant hnow, hworkspace] at hredeemable
    rw [heq] at hpersist ⊢
    have hconnectionId : validKey (.string t.connectionId) = .ok t.connectionId := by
      have hvalidId := h.connectionId_eq
      rw [Transaction.input_connection, Transaction.candidate_connectionId] at hvalidId
      exact hvalidId
    exact ⟨hwrite, ⟨hplain, hconnectionId, h.isNew, hpersist⟩, hredeemable.1, hredeemable.2.1,
      hredeemable.2.2, rfl, rfl⟩
  · rintro ⟨hwrite, hstorable, hexpiry, horganization, hsame, rfl, rfl⟩
    have happroved : itemsOf (((t.input agent).field (ascii "approvedCapabilityKeys")).orElse
        (.array [])) = .ok (distinctValues approved) := by
      rw [Transaction.input_approved]
      rfl
    have hagain : distinctValues (distinctValues approved) = distinctValues approved :=
      distinctValues_of_distinct (distinct_distinctValues _)
    have hredeems : Redeems agent.runtime.toRuntime state (t.input agent) keyHash connectionId
        (distinctValues approved) allowed :=
      { keyHash_eq := hvalid
        connectionId_eq := by
          rw [Transaction.input_connection, Transaction.candidate_connectionId]
          exact hstorable.connectionId
        redeemable := by
          rw [hstored, checkRedeemable_ok hgrant hnow, hworkspace]
          exact ⟨hexpiry, horganization, hsame⟩
        approved_eq := happroved
        allowed_eq := by
          rw [hstored, hallowed]
          rfl
        enabled_ne := by simpa [hagain] using distinctValues_ne_nil hne
        enabled_allowed := by rwa [hagain, forall_distinctValues]
        isNew := hstorable.isNew }
    obtain ⟨-, -, heq⟩ := redemptionOf_eq hsound hredeems hstored
    exact ⟨hwrite, hstorable.plain, keyHash, connectionId, _, _, hredeems, heq.symm, rfl,
      hstorable.persists⟩

theorem run_confirmRedemption {t : Transaction} {answer : Answer} {state : AgentState}
    (hkeyHash : validKey (.string t.keyHash) = .ok t.keyHash)
    (hstorable : Storable agent before t)
    (hcollections : state.collections =
      storeRedemption before t.keyHash t.connectionId (t.redemption agent)) :
    (Agent.confirmRedemption t.keyHash t.connectionId
        (redeemedGrant t.grant (.string t.now) t.connectionId) (t.candidate agent)
        (t.redemption agent)).run (perform agent.runtime .file) answer state = (.ok (), after) ↔
      after = state := by
  have hpersist := hstorable.persists
  rw [← hcollections] at hpersist
  have hgrant : (state.collections .installGrants).get? t.keyHash = some (t.redemption agent).grant := by
    rw [hcollections, storeRedemption_grants, OrderedMap.get?_set_self]
  have hconnection : (state.collections .connections).get? t.connectionId =
      some (t.redemption agent).connection := by
    rw [hcollections, storeRedemption_connections, OrderedMap.get?_set_self]
  have hshown : throwWhen (!(t.redemption agent).grant.isTruthy ||
      !(t.redemption agent).connection.isTruthy ||
      !Agent.isDeepStrictEqual (t.redemption agent).grant
        (redeemedGrant t.grant (.string t.now) t.connectionId) ||
      !Agent.isDeepStrictEqual (t.redemption agent).connection (t.candidate agent))
      (protocolError .installGrantInvalid
        "The Install Grant redemption transaction returned invalid state.") = .ok () := by
    rw [throwWhen_ok]
    simp only [Transaction.redemption, isDeepStrictEqual_refl]
    rfl
  have hgrantRead : storageGet .file state.collections .installGrants (.string t.keyHash) =
      .ok (t.redemption agent).grant := fileGet_of_get? hkeyHash hgrant
  have hconnectionRead : storageGet .file state.collections .connections (.string t.connectionId) =
      .ok (t.redemption agent).connection := fileGet_of_get? hstorable.connectionId hconnection
  simp only [Agent.confirmRedemption, hshown, Async.run_bind_ok, Async.run_monadLift_ok,
    run_storeGet_ok]
  constructor
  · rintro ⟨_, _, ⟨-, rfl⟩, _, _, ⟨-, rfl⟩, _, _, ⟨-, rfl⟩, _, _, ⟨-, rfl⟩, -, rfl⟩
    rfl
  · rintro rfl
    exact ⟨(), _, ⟨trivial, rfl⟩, _, _, ⟨hgrantRead, rfl⟩, _, _, ⟨hconnectionRead, rfl⟩, (), _,
      ⟨checkObservable_self (written_of_persist hpersist .installGrants hgrant), rfl⟩,
      checkObservable_self (written_of_persist hpersist .connections hconnection), rfl⟩

theorem redeemInstallGrantAtomically_ok {key : Value}
    (hkeyHash : digest (.record [("key", key)]) = .ok keyHash)
    (hstored : state.collections.get .installGrants keyHash = grant)
    (hgrant : ActiveGrant agent keyHash grant) :
    (agent.redeemInstallGrantAtomically key scope).run (perform agent.runtime .file)
        { now := now, uuid := uuid } state = (.ok value, after) ↔
      ∃ approved allowed time, Eligible agent grant scope now approved allowed ∧
        agent.runtime.isoTime now = some time ∧
        sameOptional (grant.field (ascii "workspaceScope")) (scope.field (ascii "workspaceScope")) =
          true ∧
        let t := transactionOf agent keyHash grant scope approved allowed (connectionIdOf uuid) time
        Storable agent state.collections t ∧ value = connectionAnswer (t.candidate agent) ∧
          after = { state with
            collections := storeRedemption state.collections keyHash (connectionIdOf uuid)
              (t.redemption agent) } := by
  have hvalid := validKey_digest hkeyHash
  have hread : storageGet .file state.collections .installGrants (.string keyHash) = .ok grant := by
    refine fileGet_of_get? hvalid ?_
    have htruthy := hgrant.isTruthy
    rw [← hstored, Collections.get] at htruthy ⊢
    cases hget : (state.collections .installGrants).get? keyHash with
    | some found => rfl
    | none =>
      rw [hget] at htruthy
      cases htruthy
  have hask {input : Value} {reply : Checked Redemption} {a b : AgentState} :
      (Async.ask (Op.redeemInstallGrant input) : Flow _).run (perform agent.runtime .file)
          { now := now, uuid := uuid } a = (.ok reply, b) ↔
        ∃ draft, redeemInstallGrant agent.runtime.toRuntime a.collections false input =
          (reply, draft) ∧ b = { a with collections := draft } := by
    rw [Async.run_ask_ok, perform, AgentState.onCollections, Prod.mk.injEq]
    constructor
    · rintro ⟨rfl, rfl⟩
      exact ⟨_, rfl, rfl⟩
    · rintro ⟨draft, h, rfl⟩
      exact ⟨congrArg Prod.fst h, by rw [h]⟩
  have hclock {a b : AgentState} {milliseconds : Int} :
      (Async.ask Op.clock : Flow Int).run (perform agent.runtime .file)
          { now := now, uuid := uuid } a = (.ok milliseconds, b) ↔ now = milliseconds ∧ b = a := by
    rw [Async.run_ask_ok, perform, Prod.mk.injEq, eq_comm (a := a)]
  simp only [Agent.redeemInstallGrantAtomically, Agent.trustedContext, Async.run_bind_ok,
    Async.run_monadLift_ok, Async.run_pure_ok, Async.run_tryCatch_ok, run_storeGet_ok,
    run_freshIdentifier_ok, run_timestamp_ok, checkRequest_ok, throwWhen_ok, passRedemption_ok, hclock]
  constructor
  · rintro ⟨_, _, ⟨⟨hscope, hmode, approved, happroved, hne, hbound, rfl⟩, rfl⟩, _, _, ⟨hkey, rfl⟩,
      _, _, ⟨hget, rfl⟩, hrest⟩
    obtain rfl : keyHash = _ := Except.ok.inj (hkeyHash.symm.trans hkey)
    obtain rfl : grant = _ := Except.ok.inj (hread.symm.trans hget)
    simp only [checkTrusted_active hgrant, assertGrantScope_ok hgrant.active] at hrest
    obtain ⟨allowed, _, ⟨hallowed, rfl⟩, _, _, ⟨rfl, rfl⟩, _, _, ⟨⟨hexpiry, -, horganization,
      hworkspace⟩, rfl⟩, _, _, ⟨hin, rfl⟩, _, _, ⟨rfl, rfl⟩, time, _, ⟨htime, rfl⟩, reply, _, hreply,
      redemption, _, ⟨rfl, rfl⟩, _, _, hconfirm, rfl, rfl⟩ := hrest
    have hlisted : ∀ key ∈ approved, listed allowed key = true :=
      forall_distinctValues.mp (by simpa using hin)
    obtain ⟨draft, hredeem, rfl⟩ := hask.mp hreply
    obtain ⟨-, hstorable, -, -, hsame, rfl, rfl⟩ := (redeemInstallGrant_transactionOf hgrant hvalid
      hstored hallowed hne hlisted htime).mp hredeem
    obtain rfl := (run_confirmRedemption hvalid hstorable rfl).mp hconfirm
    refine ⟨approved, allowed, time, ⟨hexpiry, hscope, horganization, hworkspace, hmode, happroved, hne,
      hallowed, hlisted, ?_⟩, htime, hsame, hstorable, rfl, rfl⟩
    rwa [lacksBinding_congr horganization hsame]
  · rintro ⟨approved, allowed, time, h, htime, hsame, hstorable, rfl, rfl⟩
    have hbound := h.bound
    rw [lacksBinding_congr h.organization hsame] at hbound
    refine ⟨_, _, ⟨⟨h.hasScope, h.mode, approved, h.approved_eq, h.approved_ne, hbound, rfl⟩, rfl⟩, _,
      _, ⟨hkeyHash, rfl⟩, _, _, ⟨hread, rfl⟩, ?_⟩
    simp only [checkTrusted_active hgrant, assertGrantScope_ok hgrant.active]
    refine ⟨allowed, _, ⟨h.allowed_eq, rfl⟩, _, _, ⟨rfl, rfl⟩, (), _, ⟨⟨h.inTime, h.hasScope,
      h.organization, h.workspace⟩, rfl⟩, (), _, ⟨?_, rfl⟩, _, _, ⟨rfl, rfl⟩, time, _, ⟨htime, rfl⟩, _, _,
      hask.mpr ⟨_, (redeemInstallGrant_transactionOf hgrant hvalid hstored h.allowed_eq h.approved_ne
        h.approved_allowed htime).mpr ⟨rfl, hstorable, h.inTime, h.organization, hsame, rfl, rfl⟩, rfl⟩,
      _, _, ⟨rfl, rfl⟩, (), _, (run_confirmRedemption hvalid hstorable rfl).mpr rfl, rfl, rfl⟩
    simpa using forall_distinctValues.mpr h.approved_allowed

end Transactions

def SameConnection (c d : Value) : Prop :=
  ∀ name, if name = ascii "workspaceScope" ∨ name = ascii "hostAudience" then
    (c.field name).orElse .undefined = (d.field name).orElse .undefined
  else c.field name = d.field name

/-- The two ways to redeem accept the same requests and store the same connection. -/
structure RedeemsAlike (agent : Agent) (state : AgentState) (key scope : Value) (now : Int)
    (uuid : Text) : Prop where
  accepted : (∃ value after, (agent.redeemInstallGrantInMaps key scope).run
      (perform agent.runtime .maps) { now := now, uuid := uuid } state = (.ok value, after)) ↔
    ∃ value after, (agent.redeemInstallGrantAtomically key scope).run
      (perform agent.runtime .file) { now := now, uuid := uuid } state = (.ok value, after)
  created : ∀ value after value' after', (agent.redeemInstallGrantInMaps key scope).run
      (perform agent.runtime .maps) { now := now, uuid := uuid } state = (.ok value, after) →
    (agent.redeemInstallGrantAtomically key scope).run
      (perform agent.runtime .file) { now := now, uuid := uuid } state = (.ok value', after') →
    SameConnection (after.collections.get .connections (connectionIdOf uuid))
      (after'.collections.get .connections (connectionIdOf uuid))

section Agreement

variable {agent : Agent} {state after : AgentState} {scope grant value : Value} {keyHash uuid : Text}
  {now : Int}

theorem sameConnection_candidate (grant scope selected : Value) (enabled allowed : List Value)
    (connectionId now : Text) :
    SameConnection (agent.connectionRecord grant scope selected enabled allowed connectionId now)
      (agent.connectionCandidate grant scope selected enabled allowed connectionId now) := by
  intro name
  simp only [Agent.connectionRecord, Agent.connectionCandidate, Value.field_record,
    List.find?_append]
  have hother {condition : Bool} {optionalName : String} {v : Value} (h : name ≠ ascii optionalName) :
      (Value.optional condition optionalName v).find? (fun m => ascii m.1 == name) = none :=
    Value.find?_optional_of_ne h.symm
  by_cases hworkspace : name = ascii "workspaceScope"
  · subst hworkspace
    rw [if_pos (.inl rfl), hother (show _ ≠ ascii "authenticationBindingReference" by decide),
      hother (show _ ≠ ascii "hostAudience" by decide)]
    have hcandidate (found : Option (String × Value)) :
        (((((none.or found).or none).or none).or none).or none : Option (String × Value)) = found := by
      simp
    exact (Value.orElse_find?_optional "workspaceScope" _).symm.trans
      (congrArg (fun found => Value.orElse ((Option.map Prod.snd found).getD _) _)
        (hcandidate _).symm)
  by_cases haudience : name = ascii "hostAudience"
  · subst haudience
    rw [if_pos (.inr rfl), hother (show _ ≠ ascii "authenticationBindingReference" by decide),
      hother (show _ ≠ ascii "workspaceScope" by decide)]
    have hcandidate (found : Option (String × Value)) :
        (((((none.or none).or none).or none).or found).or none : Option (String × Value)) = found := by
      simp
    exact (Value.orElse_find?_optional "hostAudience" _).symm.trans
      (congrArg (fun found => Value.orElse ((Option.map Prod.snd found).getD _) _)
        (hcandidate _).symm)
  · rw [if_neg (not_or.mpr ⟨hworkspace, haudience⟩), hother hworkspace, hother haudience]
    have hcons (m : String × Value) (rest : List (String × Value)) :
        (m :: rest).find? (fun m => ascii m.1 == name) =
          (if ascii m.1 = name then some m else none).or (rest.find? fun m => ascii m.1 == name) := by
      rw [List.find?_cons]
      cases h : ascii m.1 == name <;> simp_all
    simp only [hcons, if_neg (Ne.symm hworkspace), if_neg (Ne.symm haudience), Option.or_none,
      Option.none_or, Option.or_assoc, List.find?_nil]

private theorem get_redeemedInMaps {keyHash connectionId time : Text} {approved allowed : List Value} :
    (redeemedInMaps agent state keyHash grant scope approved allowed connectionId time).collections.get
        .connections connectionId =
      agent.connectionRecord grant scope (agent.selectedMode scope) approved allowed connectionId
        time := by
  have hother (store : Collections) (value : Value) :
      (store.set .installGrants keyHash value).get .connections connectionId =
        store.get .connections connectionId := by
    rw [Collections.get, Collections.set_of_ne (by decide), Collections.get]
  exact (hother _ _).trans (Collections.get_set_self _ _ _ _)

private theorem get_storeRedemption {store : Collections} {connectionId time : Text}
    {approved allowed : List Value} :
    (storeRedemption store keyHash connectionId ((transactionOf agent keyHash grant scope approved
        allowed connectionId time).redemption agent)).get .connections connectionId =
      agent.connectionCandidate grant scope (agent.selectedMode scope) (distinctValues approved)
        allowed connectionId time := by
  rw [Collections.get, storeRedemption_connections, OrderedMap.get?_set_self]
  rfl

theorem Eligible.unique {approved allowed approved' allowed' : List Value}
    (h : Eligible agent grant scope now approved allowed)
    (h' : Eligible agent grant scope now approved' allowed') :
    approved = approved' ∧ allowed = allowed' :=
  ⟨Value.array.inj (h.approved_eq.symm.trans h'.approved_eq),
    Value.array.inj (h.allowed_eq.symm.trans h'.allowed_eq)⟩

theorem connectionRecord_enabled {selected : Value} {enabled allowed : List Value}
    {connectionId time : Text} :
    (agent.connectionRecord grant scope selected enabled allowed connectionId time).field
      (ascii "enabledCapabilityKeys") = .array enabled := by
  simp only [Agent.connectionRecord, Value.optional]
  split <;> rfl

theorem connectionCandidate_enabled {selected : Value} {enabled allowed : List Value}
    {connectionId time : Text} :
    (agent.connectionCandidate grant scope selected enabled allowed connectionId time).field
      (ascii "enabledCapabilityKeys") = .array enabled := by
  simp only [Agent.connectionCandidate, Value.optional]
  split <;> split <;> split <;> rfl

/-- The two ways agree on an active grant exactly when a request that passes what both check is for
the workspace of the grant, repeats no capability, and is within the limits of the store. -/
theorem redemption_paths_agree_iff (agent : Agent) (state : AgentState) (key scope grant : Value)
    (now : Int) (uuid keyHash : Text) (hkeyHash : digest (.record [("key", key)]) = .ok keyHash)
    (hstored : state.collections.get .installGrants keyHash = grant)
    (hgrant : ActiveGrant agent keyHash grant)
    (hexplicit : (scope.field (ascii "approvedCapabilityKeys")).isTruthy = true) :
    RedeemsAlike agent state key scope now uuid ↔
      ∀ approved allowed time, Eligible agent grant scope now approved allowed →
        agent.runtime.isoTime now = some time →
        sameOptional (grant.field (ascii "workspaceScope")) (scope.field (ascii "workspaceScope")) =
          true ∧ Distinct approved ∧
        Storable agent state.collections
          (transactionOf agent keyHash grant scope approved allowed (connectionIdOf uuid) time) := by
  constructor
  · intro h approved allowed time heligible htime
    obtain ⟨value, after, hfile⟩ := h.accepted.mp
      ⟨_, _, (redeemInstallGrantInMaps_ok hkeyHash hstored hgrant hexplicit).mpr
        ⟨approved, allowed, time, heligible, htime, rfl, rfl⟩⟩
    have hsame := h.created _ _ _ _
      ((redeemInstallGrantInMaps_ok hkeyHash hstored hgrant hexplicit).mpr
        ⟨approved, allowed, time, heligible, htime, rfl, rfl⟩) hfile
    obtain ⟨approved', allowed', time', heligible', htime', hworkspace, hstorable, rfl, rfl⟩ :=
      (redeemInstallGrantAtomically_ok hkeyHash hstored hgrant).mp hfile
    obtain ⟨rfl, rfl⟩ := heligible.unique heligible'
    obtain rfl : time = time' := Option.some.inj (htime.symm.trans htime')
    refine ⟨hworkspace, ?_, hstorable⟩
    -- a capability that the request repeats would be enabled once by the transaction
    rw [get_redeemedInMaps, get_storeRedemption] at hsame
    have henabled := hsame (ascii "enabledCapabilityKeys")
    rw [if_neg (by decide), connectionRecord_enabled, connectionCandidate_enabled,
      Value.array.injEq] at henabled
    rw [henabled]
    exact distinct_distinctValues approved
  · intro h
    constructor
    · constructor
      · rintro ⟨value, after, hmaps⟩
        obtain ⟨approved, allowed, time, heligible, htime, -⟩ :=
          (redeemInstallGrantInMaps_ok hkeyHash hstored hgrant hexplicit).mp hmaps
        obtain ⟨hworkspace, -, hstorable⟩ := h approved allowed time heligible htime
        exact ⟨_, _, (redeemInstallGrantAtomically_ok hkeyHash hstored hgrant).mpr
          ⟨approved, allowed, time, heligible, htime, hworkspace, hstorable, rfl, rfl⟩⟩
      · rintro ⟨value, after, hfile⟩
        obtain ⟨approved, allowed, time, heligible, htime, -⟩ :=
          (redeemInstallGrantAtomically_ok hkeyHash hstored hgrant).mp hfile
        exact ⟨_, _, (redeemInstallGrantInMaps_ok hkeyHash hstored hgrant hexplicit).mpr
          ⟨approved, allowed, time, heligible, htime, rfl, rfl⟩⟩
    · intro value after value' after' hmaps hfile
      obtain ⟨approved, allowed, time, heligible, htime, rfl, rfl⟩ :=
        (redeemInstallGrantInMaps_ok hkeyHash hstored hgrant hexplicit).mp hmaps
      obtain ⟨approved', allowed', time', heligible', htime', -, -, rfl, rfl⟩ :=
        (redeemInstallGrantAtomically_ok hkeyHash hstored hgrant).mp hfile
      obtain ⟨rfl, rfl⟩ := heligible.unique heligible'
      obtain rfl : time = time' := Option.some.inj (htime.symm.trans htime')
      have hdistinct := (h approved allowed time heligible htime).2.1
      rw [get_redeemedInMaps, get_storeRedemption, distinctValues_of_distinct hdistinct]
      exact sameConnection_candidate _ _ _ _ _ _ _

end Agreement

private def exampleAgent : Agent where
  runtime := epochRuntime
  mode := .productionMode
  passport := .record [("issuer", .string (ascii "i")), ("agentId", .string (ascii "a"))]

private def exampleKeyHash : Text := ascii "nVHjZfHIv8Jujf9FAcJs8Dv4eQKCQUOmR28QxQ6RLPA"

private theorem exampleKey_digest :
    digest (.record [("key", .string (ascii "k"))]) = .ok exampleKeyHash := by decide +kernel

private def exampleGrant : Value :=
  .record [("keyHash", .string exampleKeyHash), ("issuer", .string (ascii "i")),
    ("agentId", .string (ascii "a")), ("status", .string (ascii "active")),
    ("expiresAt", .string (ascii "1970-01-01T01:00:00.000Z")),
    ("organizationScope", .string (ascii "o")),
    ("allowedCapabilityKeys", .array [.string (ascii "c")])]

private def exampleState : AgentState :=
  { collections := Collections.empty.set .installGrants exampleKeyHash exampleGrant }

private def exampleScope : Value :=
  .record [("organizationScope", .string (ascii "o")), ("workspaceScope", .string (ascii "w")),
    ("approvedCapabilityKeys", .array [.string (ascii "c")])]

private theorem exampleGrant_active : ActiveGrant exampleAgent exampleKeyHash exampleGrant := by
  constructor <;> decide

private theorem exampleGrant_stored :
    exampleState.collections.get .installGrants exampleKeyHash = exampleGrant :=
  Collections.get_set_self _ _ _ _

private theorem exampleScope_eligible : Eligible exampleAgent exampleGrant exampleScope 0
    [.string (ascii "c")] [.string (ascii "c")] := by
  constructor <;> decide

/-- The request of a workspace is accepted in maps, and not as a transaction. -/
theorem redemption_paths_disagree :
    (∃ value after, (exampleAgent.redeemInstallGrantInMaps (.string (ascii "k")) exampleScope).run
        (perform exampleAgent.runtime .maps) {} exampleState = (.ok value, after)) ∧
      ¬∃ value after, (exampleAgent.redeemInstallGrantAtomically (.string (ascii "k"))
        exampleScope).run (perform exampleAgent.runtime .file) {} exampleState =
          (.ok value, after) := by
  constructor
  · exact ⟨_, _, (redeemInstallGrantInMaps_ok exampleKey_digest exampleGrant_stored
      exampleGrant_active rfl).mpr ⟨_, _, _, exampleScope_eligible, rfl, rfl, rfl⟩⟩
  · rintro ⟨value, after, hrun⟩
    obtain ⟨_, _, _, -, -, hworkspace, -⟩ := (redeemInstallGrantAtomically_ok exampleKey_digest
      exampleGrant_stored exampleGrant_active).mp hrun
    revert hworkspace
    decide

theorem redemption_paths_agree_iff_workspace :
    RedeemsAlike exampleAgent exampleState (.string (ascii "k")) exampleScope 0 [] ↔
      ∀ approved allowed time, Eligible exampleAgent exampleGrant exampleScope 0 approved allowed →
        exampleAgent.runtime.isoTime 0 = some time →
        sameOptional (exampleGrant.field (ascii "workspaceScope"))
          (exampleScope.field (ascii "workspaceScope")) = true ∧ Distinct approved ∧
        Storable exampleAgent exampleState.collections (transactionOf exampleAgent exampleKeyHash
          exampleGrant exampleScope approved allowed (connectionIdOf []) time) :=
  redemption_paths_agree_iff exampleAgent exampleState (.string (ascii "k")) exampleScope exampleGrant
    0 [] exampleKeyHash exampleKey_digest exampleGrant_stored exampleGrant_active rfl

end GhostBridge.NativeAgent
