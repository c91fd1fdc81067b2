import GhostBridge.Ecma.Objects
import GhostBridge.Ecma.OrderedMap
import GhostBridge.ProtocolCore.Approval

/-!
# Protocol stores

The collections of an agent and the operations on them.
-/

namespace GhostBridge.NativeAgent

open Ecma ProtocolCore

/-- `COLLECTION_NAMES`. -/
inductive Collection where
  | installGrants
  | connections
  | tasks
  | taskContexts
  | receipts
  | approvals
  | approvalDecisions
  | idempotency
  | replay
  | revocation
deriving DecidableEq

namespace Collection

def name : Collection → Text
  | installGrants => ascii "installGrants"
  | connections => ascii "connections"
  | tasks => ascii "tasks"
  | taskContexts => ascii "taskContexts"
  | receipts => ascii "receipts"
  | approvals => ascii "approvals"
  | approvalDecisions => ascii "approvalDecisions"
  | idempotency => ascii "idempotency"
  | replay => ascii "replay"
  | revocation => ascii "revocation"

def all : List Collection :=
  [installGrants, connections, tasks, taskContexts, receipts, approvals, approvalDecisions,
    idempotency, replay, revocation]

end Collection

abbrev Collections := Collection → OrderedMap Text Value

namespace Collections

/-- `emptyState()`. -/
def empty : Collections := fun _ => .empty

def set (state : Collections) (collection : Collection) (key : Text) (value : Value) : Collections :=
  Function.update state collection ((state collection).set key value)

def delete (state : Collections) (collection : Collection) (key : Text) : Collections :=
  Function.update state collection ((state collection).delete key)

/-- The stored value; `undefined` when there is none. -/
def get (state : Collections) (collection : Collection) (key : Text) : Value :=
  ((state collection).get? key).getD .undefined

def document (state : Collections) : Value :=
  .object (Collection.all.map fun collection => (collection.name, .object (state collection).entries))

theorem get_set_self (state : Collections) (collection : Collection) (key : Text) (value : Value) :
    (state.set collection key value).get collection key = value := by
  simp [get, set, OrderedMap.get?_set_self]

theorem get_set_of_ne {state : Collections} {collection : Collection} {key other : Text}
    (h : other ≠ key) (value : Value) :
    (state.set collection key value).get collection other = state.get collection other := by
  simp [get, set, OrderedMap.get?_set_of_ne _ h]

theorem get_set_of_collection_ne {state : Collections} {collection other : Collection}
    (h : other ≠ collection) (key k : Text) (value : Value) :
    (state.set collection key value).get other k = state.get other k := by
  simp [get, set, Function.update_of_ne h]

theorem set_of_ne {state : Collections} {collection other : Collection} (h : other ≠ collection)
    (key : Text) (value : Value) : state.set collection key value other = state other :=
  Function.update_of_ne h _ _

end Collections

/-- `(a || undefined) === (b || undefined)`. -/
def sameOptional (a b : Value) : Bool :=
  (a.orElse .undefined).strictEq (b.orElse .undefined)

def inheritedNames : List Text :=
  [ascii "hasOwnProperty", ascii "isPrototypeOf", ascii "propertyIsEnumerable",
    ascii "toLocaleString", ascii "toString", ascii "valueOf", ascii "__defineGetter__",
    ascii "__defineSetter__", ascii "__lookupGetter__", ascii "__lookupSetter__"]

def validKey (value : Value) : Checked Text := do
  let key ← textOf (value.orElse (.string []))
  throwWhen (key.isEmpty || decide (1000 < key.length) || key == ascii "__proto__" ||
    key == ascii "constructor") .runtimeError
  pure key

def mapKey (value : Value) : Text := value.toText?.getD []

def persist (draft : Collections) : Checked Unit := do
  let _ ← assertPlainData draft.document defaultLimits
  let _ ← boundedSerialize draft.document defaultLimits

/-- `database.exclusive(operation)`. The state changes only when everything succeeds; writing out
may fail for reasons of its own. -/
def exclusive {ε α : Type} (runtimeFailure : ε) (state : Collections) (writeFails : Bool)
    (operation : Except ε (α × Collections)) : Except ε α × Collections :=
  match operation with
  | .error failure => (.error failure, state)
  | .ok (result, draft) =>
    match persist draft with
    | .error _ => (.error runtimeFailure, state)
    | .ok () => if writeFails then (.error runtimeFailure, state) else (.ok result, draft)

/-- `store.get(key)`. An inherited property cannot be cloned. -/
def fileGet (state : Collections) (collection : Collection) (key : Value) : Checked Value := do
  let normalized ← validKey key
  match (state collection).get? normalized with
  | some value => pure value
  | none => do
    throwWhen (inheritedNames.contains normalized) .runtimeError
    pure .undefined

def fileHas (state : Collections) (collection : Collection) (key : Value) : Checked Bool := do
  let normalized ← validKey key
  pure ((state collection).has normalized)

/-- `store.values()`, in property order. -/
def fileValues (state : Collections) (collection : Collection) : List Value :=
  (Reordering.propertyOrder.order (state collection).entries).map Prod.snd

def filePut (state : Collections) (writeFails : Bool) (collection : Collection) (key value : Value) :
    Checked Unit × Collections :=
  exclusive .runtimeError state writeFails do
    let normalized ← validKey key
    let _ ← assertPlainData value defaultLimits
    pure ((), state.set collection normalized value)

def putDecision (state : Collections) (writeFails : Bool) (decision : Value) :
    Checked Unit × Collections :=
  exclusive .runtimeError state writeFails do
    let _ ← assertPlainData decision defaultLimits
    let key ← validKey (decision.field (ascii "decisionId"))
    throwWhen ((state .approvalDecisions).has key) .runtimeError
    pure ((), state.set .approvalDecisions key decision)

variable (runtime : Runtime)

/-- `Date.parse(value)`; none is `NaN`. -/
def parseDate (value : Value) : Option Int := value.toText? >>= runtime.dateParse

/-- `Date.parse(decision.expiresAt || decision.validUntil || '')`. -/
def decisionExpiry (decision : Value) : Option Int :=
  parseDate runtime
    (((decision.field (ascii "expiresAt")).orElse (decision.field (ascii "validUntil"))).orElse
      (.string []))

/-- `expiresAt > Date.parse(criteria.now)`. -/
def expiresAfter (decision criteria : Value) : Bool :=
  match decisionExpiry runtime decision, parseDate runtime (criteria.field (ascii "now")) with
  | some expiry, some now => now < expiry
  | _, _ => false

def sharesBinding (decision criteria : Value) : Bool :=
  let same (field : String) : Bool :=
    (decision.field (ascii field)).strictEq (criteria.field (ascii field))
  same "decisionId" && same "invocationId" && same "actionKey" && same "approvalActionDigest" &&
    same "organizationScope" &&
    sameOptional (decision.field (ascii "workspaceScope")) (criteria.field (ascii "workspaceScope"))

def matchesApprovalDecision (decision criteria : Value) : Bool :=
  decision.isTruthy && !(decision.field (ascii "used")).isTruthy &&
    (decision.field (ascii "decision")).strictEq (.string (ascii "approved")) &&
    sharesBinding decision criteria && expiresAfter runtime decision criteria

def usedDecision (decision criteria : Value) : Value :=
  decision.spread [("used", .bool true), ("consumedAt", criteria.field (ascii "now"))]

def consumeApprovedDecision (state : Collections) (writeFails : Bool) (criteria : Value) :
    Checked Value × Collections :=
  exclusive .runtimeError state writeFails do
    let _ ← assertPlainData criteria defaultLimits
    let key ← validKey (criteria.field (ascii "decisionId"))
    let current := state.get .approvalDecisions key
    if matchesApprovalDecision runtime current criteria then
      pure (current, state.set .approvalDecisions key (usedDecision current criteria))
    else pure (.undefined, state)

def terminalStates : List Text :=
  [ascii "completed", ascii "failed", ascii "cancelled", ascii "timed_out", ascii "revoked"]

/-- `TERMINAL_STATES.has(task.state)`. -/
def isTerminal (task : Value) : Bool := namesInclude terminalStates (task.field (ascii "state"))

/-- What `commitTerminal` answers. -/
inductive TerminalCommit where
  | committed
  | idempotent
  | recoveryRequired (reasonCode : Text)
deriving DecidableEq

/-- `receipt.taskId === task.taskId && task.receiptReference === receipt.receiptId`, with both
identifiers there. -/
def bindsTerminal (task receipt : Value) : Bool :=
  (task.field (ascii "taskId")).isTruthy && (receipt.field (ascii "receiptId")).isTruthy &&
    (receipt.field (ascii "taskId")).strictEq (task.field (ascii "taskId")) &&
    (task.field (ascii "receiptReference")).strictEq (receipt.field (ascii "receiptId"))

def receiptConflicts (existing receipt : Value) : Checked Bool :=
  if existing.isTruthy then do
    let stored ← boundedSerialize existing defaultLimits
    let written ← boundedSerialize receipt defaultLimits
    pure (stored != written)
  else pure false

/-- A property key, as `String(value)`. -/
def propertyKey (value : Value) : Checked Text := textOf value

def commitTerminal (state : Collections) (writeFails : Bool) (task receipt : Value)
    (expectedTaskStates : List Text) : Checked TerminalCommit × Collections :=
  exclusive .runtimeError state writeFails do
    let _ ← assertPlainData (.object [(ascii "task", task), (ascii "receipt", receipt)]) defaultLimits
    throwWhen (!bindsTerminal task receipt || !isTerminal task) .runtimeError
    let taskKey ← propertyKey (task.field (ascii "taskId"))
    let receiptKey ← propertyKey (receipt.field (ascii "receiptId"))
    let current := state.get .tasks taskKey
    if isTerminal current &&
        (current.field (ascii "receiptReference")).strictEq (task.field (ascii "receiptReference")) then
      pure (.idempotent, state)
    else if !namesInclude expectedTaskStates (current.field (ascii "state")) then
      pure (.recoveryRequired (ascii "TASK_STATE_CHANGED"), state)
    else do
      let conflicts ← receiptConflicts (state.get .receipts receiptKey) receipt
      if conflicts then pure (.recoveryRequired (ascii "RECEIPT_ID_CONFLICT"), state)
      else
        pure (.committed, (state.set .receipts receiptKey receipt).set .tasks taskKey task)

/-- `grant.allowedCapabilityKeys.filter((key) => !enabled.includes(key))`. -/
def withoutEnabled (allowed enabled : List Value) : List Value :=
  allowed.filter fun key => !listed enabled key

def itemsOf : Value → Checked (List Value)
  | .array items => pure items
  | _ => throw .runtimeError

structure Redemption where
  grant : Value
  connection : Value
deriving DecidableEq

def storeProtocolError (errorCode : ProtocolErrorCode) (message : String) : Failure :=
  protocolError errorCode message

def hasStatus (document : Value) (status : String) : Bool :=
  (document.field (ascii "status")).strictEq (.string (ascii status))

def checkRedeemable (grant input : Value) : Checked Unit := do
  throwWhen (!grant.isTruthy)
    (storeProtocolError .installGrantInvalid "The Install Grant is invalid.")
  throwWhen (hasStatus grant "redeemed")
    (storeProtocolError .installGrantAlreadyRedeemed "The Install Grant was already redeemed.")
  throwWhen (hasStatus grant "revoked")
    (storeProtocolError .revoked "The Install Grant was revoked.")
  throwWhen (!hasStatus grant "active")
    (storeProtocolError .installGrantInvalid "The Install Grant is not active.")
  throwWhen (match parseDate runtime (input.field (ascii "now")),
        parseDate runtime (grant.field (ascii "expiresAt")) with
      | some now, some expiry => decide (expiry ≤ now)
      | _, _ => true)
    (storeProtocolError .installGrantExpired "The Install Grant has expired.")
  throwWhen (!(grant.field (ascii "organizationScope")).strictEq
        (input.field (ascii "organizationScope")) ||
      !sameOptional (grant.field (ascii "workspaceScope")) (input.field (ascii "workspaceScope")))
    (storeProtocolError .scopeMismatch "The Install Grant scope does not match.")

def redeemedConnection (grant connection : Value) (enabled allowed : List Value) : Value :=
  connection.spread ([("organizationScope", grant.field (ascii "organizationScope"))] ++
    Value.optional (grant.field (ascii "workspaceScope")).isTruthy "workspaceScope"
      (grant.field (ascii "workspaceScope")) ++
    [("enabledCapabilityKeys", .array enabled),
      ("disabledCapabilityKeys", .array (withoutEnabled allowed enabled))])

def redeemedGrant (grant now : Value) (connectionId : Text) : Value :=
  grant.spread [("status", .string (ascii "redeemed")), ("redeemedAt", now),
    ("connectionId", .string connectionId)]

def redeemInstallGrant (state : Collections) (writeFails : Bool) (input : Value) :
    Checked Redemption × Collections :=
  exclusive .runtimeError state writeFails do
    let _ ← assertPlainData input defaultLimits
    let keyHash ← validKey (input.field (ascii "keyHash"))
    let grant := state.get .installGrants keyHash
    checkRedeemable runtime grant input
    let approved ← itemsOf ((input.field (ascii "approvedCapabilityKeys")).orElse (.array []))
    let enabled := distinctValues approved
    let denied := storeProtocolError .authorizationDenied
      "The requested capabilities are not authorized by the Install Grant."
    throwWhen enabled.isEmpty denied
    let allowed ← itemsOf (grant.field (ascii "allowedCapabilityKeys"))
    throwWhen (enabled.any fun key => !listed allowed key) denied
    let connectionId ← validKey ((input.field (ascii "connection")).field (ascii "connectionId"))
    throwWhen ((state .connections).has connectionId)
      (storeProtocolError .installGrantInvalid "The Connection identifier is already in use.")
    let connection :=
      redeemedConnection grant (input.field (ascii "connection")) enabled allowed
    let updatedGrant := redeemedGrant grant (input.field (ascii "now")) connectionId
    pure (⟨updatedGrant, connection⟩,
      (state.set .connections connectionId connection).set .installGrants keyHash updatedGrant)

theorem validKey_string {key normalized : Text} (h : validKey (.string key) = .ok normalized) :
    normalized = key := by
  have htext : (Value.string key).orElse (.string []) = .string key := by
    cases key <;> rfl
  simp only [validKey, textOf, htext, Value.toText?, bind_ok, orThrow_ok, Option.some.injEq,
    throwWhen_ok, exists_unit, pure_ok] at h
  obtain ⟨_, rfl, -, rfl⟩ := h
  rfl

theorem validKey_congr {a b : Value} (h : a.strictEq b = true) : validKey a = validKey b := by
  rcases Value.eq_or_falsy_of_strictEq h with rfl | ⟨ha, hb⟩
  · rfl
  · have hempty (v : Value) (hv : v.isTruthy = false) : v.orElse (.string []) = .string [] := by
      rw [Value.orElse, hv]
      rfl
    rw [validKey, validKey, hempty a ha, hempty b hb]

theorem validKey_digest {value : Value} {text : Text} (h : digest value = .ok text) :
    validKey (.string text) = .ok text := by
  have hlength : text.length = 43 := by
    simp only [digest, bind_ok, pure_ok] at h
    obtain ⟨_, -, rfl⟩ := h
    rw [Base64Url.length_encode, Sha256.hash_length]
  have hne (other : Text) (hother : other.length ≠ 43) : text ≠ other :=
    fun heq => hother (heq ▸ hlength)
  have hnil : text ≠ [] := hne [] (by decide)
  simp [validKey, textOf, Value.orElse, Value.isTruthy, Value.toText?, throwWhen, hlength, hnil,
    hne (ascii "__proto__") (by decide), hne (ascii "constructor") (by decide)]

theorem fileGet_of_get? {state : Collections} {collection : Collection} {key : Text} {value : Value}
    (hkey : validKey (.string key) = .ok key) (h : (state collection).get? key = some value) :
    fileGet state collection (.string key) = .ok value := by
  simp [fileGet, hkey, h]

/-- What is read under a key is stored there, or is `undefined`. -/
theorem fileGet_ok {state : Collections} {collection : Collection} {key : Text} {value : Value}
    (h : fileGet state collection (.string key) = .ok value) : state.get collection key = value := by
  simp only [fileGet, bind_ok] at h
  obtain ⟨normalized, hnormalized, h⟩ := h
  obtain rfl := validKey_string hnormalized
  rw [Collections.get]
  split at h
  · next found hfound => rw [hfound, Option.getD_some, pure_ok.mp h]
  · next hnone =>
    simp only [bind_ok, exists_unit, pure_ok] at h
    rw [hnone, h.2]
    rfl

section Exclusive

variable {ε α : Type} {runtimeFailure : ε} {state draft : Collections} {writeFails : Bool}
  {operation : Except ε (α × Collections)} {result : α}

theorem exclusive_error {failure : ε}
    (h : (exclusive runtimeFailure state writeFails operation).1 = .error failure) :
    (exclusive runtimeFailure state writeFails operation).2 = state := by
  unfold exclusive at h ⊢
  split
  · rfl
  · split
    · rfl
    · split <;> simp_all

theorem exclusive_ok :
    exclusive runtimeFailure state writeFails operation = (.ok result, draft) ↔
      writeFails = false ∧ operation = .ok (result, draft) ∧ persist draft = .ok () := by
  unfold exclusive
  cases operation with
  | error failure => simp
  | ok done =>
    obtain ⟨value, left⟩ := done
    simp only [Except.ok.injEq, Prod.mk.injEq]
    cases hpersist : persist left with
    | error failure =>
      simp only [Prod.mk.injEq, reduceCtorEq, false_and, false_iff, not_and]
      rintro - ⟨rfl, rfl⟩ h
      rw [hpersist] at h
      cases h
    | ok u =>
      cases writeFails with
      | true => simp
      | false =>
        simp only [Bool.false_eq_true, if_false, Prod.mk.injEq, Except.ok.injEq, true_and]
        exact ⟨fun h => ⟨h, h.2 ▸ hpersist⟩, fun h => h.1⟩

end Exclusive

theorem filePut_ok {state draft : Collections} {writeFails : Bool} {collection : Collection}
    {key value : Value} {u : Unit} :
    filePut state writeFails collection key value = (.ok u, draft) ↔
      writeFails = false ∧ Plain defaultLimits 0 value ∧ ∃ normalized, validKey key = .ok normalized ∧
        draft = state.set collection normalized value ∧ persist draft = .ok () := by
  rw [filePut, exclusive_ok]
  simp only [bind_ok, assertPlainData_ok, pure_ok, Prod.mk.injEq, true_and]
  constructor
  · rintro ⟨hwrite, ⟨normalized, hkey, _, ⟨hplain, rfl⟩, rfl⟩, hpersist⟩
    exact ⟨hwrite, hplain, normalized, hkey, rfl, hpersist⟩
  · rintro ⟨hwrite, hplain, normalized, hkey, rfl, hpersist⟩
    exact ⟨hwrite, ⟨normalized, hkey, _, ⟨hplain, rfl⟩, rfl⟩, hpersist⟩

theorem putDecision_ok {state draft : Collections} {writeFails : Bool} {decision : Value} {u : Unit} :
    putDecision state writeFails decision = (.ok u, draft) ↔
      writeFails = false ∧ Plain defaultLimits 0 decision ∧ ∃ key,
        validKey (decision.field (ascii "decisionId")) = .ok key ∧
        (state .approvalDecisions).has key = false ∧
        draft = state.set .approvalDecisions key decision ∧ persist draft = .ok () := by
  rw [putDecision, exclusive_ok]
  simp only [bind_ok, assertPlainData_ok, throwWhen_ok, exists_unit, pure_ok, Prod.mk.injEq, true_and]
  constructor
  · rintro ⟨hwrite, ⟨_, ⟨hplain, rfl⟩, key, hkey, hnew, rfl⟩, hpersist⟩
    exact ⟨hwrite, hplain, key, hkey, hnew, rfl, hpersist⟩
  · rintro ⟨hwrite, hplain, key, hkey, hnew, rfl, hpersist⟩
    exact ⟨hwrite, ⟨_, ⟨hplain, rfl⟩, key, hkey, hnew, rfl⟩, hpersist⟩

theorem written_of_persist {state : Collections} (h : persist state = .ok ())
    (collection : Collection) {key : Text} {value : Value}
    (hvalue : (state collection).get? key = some value) : Written defaultLimits value := by
  simp only [persist, bind_ok, pure_ok] at h
  obtain ⟨-, -, text, htext, -⟩ := h
  have hdocument : Written defaultLimits state.document := ⟨text, htext⟩
  have hcollection : Written defaultLimits (.object (state collection).entries) :=
    hdocument.member (m := (collection.name, .object (state collection).entries))
      (List.mem_map.mpr ⟨collection, by cases collection <;> simp [Collection.all], rfl⟩)
  exact hcollection.member (OrderedMap.get?_eq_some.mp hvalue)

structure Redeems (runtime : Runtime) (state : Collections) (input : Value) (keyHash connectionId : Text)
    (approved allowed : List Value) : Prop where
  keyHash_eq : validKey (input.field (ascii "keyHash")) = .ok keyHash
  connectionId_eq :
    validKey ((input.field (ascii "connection")).field (ascii "connectionId")) = .ok connectionId
  redeemable : checkRedeemable runtime (state.get .installGrants keyHash) input = .ok ()
  approved_eq :
    itemsOf ((input.field (ascii "approvedCapabilityKeys")).orElse (.array [])) = .ok approved
  allowed_eq : itemsOf ((state.get .installGrants keyHash).field (ascii "allowedCapabilityKeys")) =
    .ok allowed
  enabled_ne : (distinctValues approved).isEmpty = false
  enabled_allowed : ∀ key ∈ distinctValues approved, listed allowed key = true
  isNew : (state .connections).has connectionId = false

def redemptionOf (state : Collections) (input : Value) (keyHash connectionId : Text)
    (approved allowed : List Value) : Redemption :=
  let grant := state.get .installGrants keyHash
  ⟨redeemedGrant grant (input.field (ascii "now")) connectionId,
    redeemedConnection grant (input.field (ascii "connection")) (distinctValues approved) allowed⟩

def storeRedemption (state : Collections) (keyHash connectionId : Text) (redemption : Redemption) :
    Collections :=
  (state.set .connections connectionId redemption.connection).set .installGrants keyHash
    redemption.grant

@[simp] theorem storeRedemption_grants (state : Collections) (keyHash connectionId : Text)
    (redemption : Redemption) : storeRedemption state keyHash connectionId redemption .installGrants =
      (state .installGrants).set keyHash redemption.grant := by
  simp [storeRedemption, Collections.set]

@[simp] theorem storeRedemption_connections (state : Collections) (keyHash connectionId : Text)
    (redemption : Redemption) : storeRedemption state keyHash connectionId redemption .connections =
      (state .connections).set connectionId redemption.connection := by
  simp [storeRedemption, Collections.set]

theorem redeemInstallGrant_ok {runtime : Runtime} {state draft : Collections} {writeFails : Bool}
    {input : Value} {redemption : Redemption} :
    redeemInstallGrant runtime state writeFails input = (.ok redemption, draft) ↔
      writeFails = false ∧ Plain defaultLimits 0 input ∧ ∃ keyHash connectionId approved allowed,
        Redeems runtime state input keyHash connectionId approved allowed ∧
          redemption = redemptionOf state input keyHash connectionId approved allowed ∧
          draft = storeRedemption state keyHash connectionId redemption ∧ persist draft = .ok () := by
  rw [redeemInstallGrant, exclusive_ok]
  simp only [bind_ok, assertPlainData_ok, throwWhen_ok, exists_unit, pure_ok, Prod.mk.injEq,
    List.any_eq_false, Bool.not_eq_true', Bool.not_eq_false]
  constructor
  · rintro ⟨hwrite, ⟨_, ⟨hplain, rfl⟩, keyHash, hkeyHash, hredeemable, approved, happroved, hne,
      allowed, hallowed, henabled, connectionId, hconnectionId, hnew, rfl, rfl⟩, hpersist⟩
    exact ⟨hwrite, hplain, keyHash, connectionId, approved, allowed,
      ⟨hkeyHash, hconnectionId, hredeemable, happroved, hallowed, hne, henabled, hnew⟩, rfl, rfl,
      hpersist⟩
  · rintro ⟨hwrite, hplain, keyHash, connectionId, approved, allowed, h, rfl, rfl, hpersist⟩
    exact ⟨hwrite, ⟨_, ⟨hplain, rfl⟩, keyHash, h.keyHash_eq, h.redeemable, approved, h.approved_eq,
      h.enabled_ne, allowed, h.allowed_eq, h.enabled_allowed, connectionId, h.connectionId_eq,
      h.isNew, rfl, rfl⟩, hpersist⟩

end GhostBridge.NativeAgent
