import GhostBridge.Ecma.Arrays
import GhostBridge.Ecma.Numeric
import GhostBridge.Ecma.OrderedMap
import GhostBridge.Ecma.Value
import GhostBridge.Machine.Operations
import GhostBridge.ProtocolCore.SecretFields
import GhostBridge.Trust.Proof

/-!
# The keys of an issuer

A local key provider holds key pairs under identifiers and moves them between states.
-/

namespace GhostBridge.Issuer

open Ecma Machine Trust

/-- `KEY_STATES`. -/
inductive KeyState where
  | generated
  | prepublished
  | active
  | retiring
  | retired
  | suspended
  | revoked
  | expired
  | compromised
deriving DecidableEq

namespace KeyState

def name : KeyState → Text
  | generated => ascii "generated"
  | prepublished => ascii "prepublished"
  | active => ascii "active"
  | retiring => ascii "retiring"
  | retired => ascii "retired"
  | suspended => ascii "suspended"
  | revoked => ascii "revoked"
  | expired => ascii "expired"
  | compromised => ascii "compromised"

def all : List KeyState :=
  [generated, prepublished, active, retiring, retired, suspended, revoked, expired, compromised]

example : all.map name = keyStates := by decide

def named (text : Text) : Option KeyState := all.find? fun state => state.name == text

/-- `KEY_TRANSITIONS[from]`. -/
def transitions : KeyState → List KeyState
  | generated => [prepublished, revoked]
  | prepublished => [active, suspended, revoked, compromised]
  | active => [retiring, suspended, revoked, expired, compromised]
  | retiring => [retired, suspended, revoked, expired, compromised]
  | suspended => [active, retiring, revoked, compromised]
  | retired => [revoked, compromised]
  | expired => [revoked, compromised]
  | compromised => [revoked]
  | revoked => []

end KeyState

inductive KeyFailure where
  | trust (failure : Trust.Failure)
  | protocol (failure : ProtocolCore.Failure)
  | typeError (message : String)
deriving DecidableEq

def keyError (code : TrustErrorCode) (message : String) : KeyFailure :=
  .trust (trustError code message)

/-- `assertKeyTransition(from, to)`, with the state that the text names. -/
def assertKeyTransition (current : KeyState) (next : Text) : Except KeyFailure KeyState :=
  orThrow (keyError .keyNotActive "The requested key-state transition is not allowed.")
    ((KeyState.named next).filter current.transitions.contains)

/-- A pair of `crypto.generateKeyPairSync('ed25519')`. -/
structure KeyPair (PrivateKey : Type) where
  publicJwk : Value
  privateKey : PrivateKey
deriving DecidableEq

/-- The metadata of a key, without its constant members. -/
structure KeyMetadata where
  publicJwk : Value
  kid : Text
  state : KeyState
  notBefore : Value
  expiresAt : Value
  activationSequence : Value
  retirementSequence : Value
  thumbprint : Text
  purpose : List Text
  compromisedAt : Value
deriving DecidableEq

structure KeyRecord (PrivateKey : Type) where
  privateKey : PrivateKey
  metadata : KeyMetadata
deriving DecidableEq

/-- The records of the provider and the metadata sequence of its toolkit. The identifiers of
destroyed keys are kept for the statements; the provider forgets them. -/
structure IssuerKeys (PrivateKey : Type) where
  records : OrderedMap Text (KeyRecord PrivateKey)
  metadataSequence : Number
  destroyed : List Text
deriving DecidableEq

variable {PrivateKey : Type}

def IssuerKeys.initial (metadataSequence : Number) : IssuerKeys PrivateKey :=
  ⟨.empty, metadataSequence, []⟩

abbrev KeyOperation (PrivateKey : Type) (α : Type) :=
  Operation (IssuerKeys PrivateKey) KeyFailure α

/-- The options of `createKey`, and what its surroundings answer. -/
structure KeyRequest (PrivateKey : Type) where
  kid : Value := .undefined
  purpose : Value := .undefined
  notBefore : Value := .undefined
  expiresAt : Value := .undefined
  /-- `test_${crypto.randomUUID()}`. -/
  randomKid : Text
  pair : KeyPair PrivateKey
  now : Text
  /-- `new Date(now + (options.lifetimeMs || 31_536_000_000)).toISOString()`, unless it throws. -/
  expiry : Option Text

/-- `#require(kid)`. -/
def requireRecord (kid : Text) : KeyOperation PrivateKey (KeyRecord PrivateKey) := do
  let keys ← get
  liftM (orThrow (keyError .keyNotFound "The signing key was not found.") (keys.records.get? kid))

def getPublicKey (kid : Text) : KeyOperation PrivateKey KeyMetadata := do
  let record ← requireRecord kid
  pure record.metadata

/-- `redactPublicData(fields)` of an event. -/
def emit (fields : List (Text × Value)) : Except KeyFailure Unit :=
  match ProtocolCore.redactPublicData (.object fields) with
  | .ok _ => .ok ()
  | .error failure => .error (.protocol failure)

/-- `this.#records.set(kid, record)`. -/
def IssuerKeys.store (keys : IssuerKeys PrivateKey) (kid : Text) (record : KeyRecord PrivateKey) :
    IssuerKeys PrivateKey :=
  { keys with records := keys.records.set kid record }

def requestedKid (request : KeyRequest PrivateKey) : Except KeyFailure Text := do
  let kid ← orThrow (.typeError "Cannot convert object to primitive value")
    (request.kid.orElse (.string request.randomKid)).toText?
  throwWhen (!isKeyIdentifier kid) (.typeError "A bounded non-URL key identifier is required.")
  pure kid

def requestedPurposes (purpose : Value) : Except KeyFailure (List Text) := do
  let unsupported := KeyFailure.typeError "At least one supported key purpose is required."
  let purposes ← ((asList purpose).filter Value.isTruthy).mapM fun
    | .string purpose => if keyPurposes.contains purpose then pure purpose else throw unsupported
    | _ => throw unsupported
  throwWhen purposes.isEmpty unsupported
  pure (distinct purposes)

/-- `calculateJwkThumbprint(publicJwk)`. -/
def thumbprintOf (publicJwk : Value) : Except KeyFailure Text :=
  match calculateJwkThumbprint publicJwk with
  | .ok thumbprint => .ok thumbprint
  | .error failure => .error (.trust failure)

/-- `options.expiresAt || new Date(now + …).toISOString()`. -/
def requestedExpiry (request : KeyRequest PrivateKey) : Except KeyFailure Value :=
  if request.expiresAt.isTruthy then .ok request.expiresAt
  else Value.string <$> orThrow (.typeError "Invalid time value") request.expiry

def generatedRecord (request : KeyRequest PrivateKey) (kid : Text) (purposes : List Text) :
    Except KeyFailure (KeyRecord PrivateKey) := do
  let expiresAt ← requestedExpiry request
  let thumbprint ← thumbprintOf request.pair.publicJwk
  pure
    { privateKey := request.pair.privateKey
      metadata :=
        { publicJwk := request.pair.publicJwk
          kid := kid
          state := .generated
          notBefore := request.notBefore.orElse (.string request.now)
          expiresAt := expiresAt
          activationSequence := .null
          retirementSequence := .null
          thumbprint := thumbprint
          purpose := purposes
          compromisedAt := .undefined } }

def createKey (request : KeyRequest PrivateKey) : KeyOperation PrivateKey KeyMetadata := do
  let kid ← liftM (requestedKid request)
  let keys ← get
  liftM (throwWhen (keys.records.has kid)
    (keyError .jwksInvalid "Key identifiers cannot be reused."))
  let purposes ← liftM (requestedPurposes request.purpose)
  let record ← liftM (generatedRecord request kid purposes)
  modify fun keys => keys.store kid record
  liftM (emit [(ascii "kid", .string kid), (ascii "purpose", .array (purposes.map .string))])
  getPublicKey kid

/-- `listPublicKeys(options)`. A destroyed record is no longer in the map. -/
def IssuerKeys.listPublicKeys (keys : IssuerKeys PrivateKey) (includeGenerated : Bool) :
    List KeyMetadata :=
  (keys.records.entries.map fun entry => entry.2.metadata).filter fun metadata =>
    includeGenerated || metadata.state != .generated

def sign (cryptoSign : PrivateKey → Bytes → Bytes) (kid : Text) (data : Bytes)
    (context : SigningContext) : KeyOperation PrivateKey Bytes := do
  let record ← requireRecord kid
  liftM (throwWhen (record.metadata.state != .active)
    (keyError (if record.metadata.state = .retired then .keyRetired else .keyNotActive)
      "Only an active authorized key may create a new signature."))
  liftM (throwWhen (context.algorithm.isTruthy &&
      !context.algorithm.strictEq (.string (ascii "EdDSA")))
    (keyError .keyTypeMismatch "The requested algorithm does not match the signing key."))
  liftM (throwWhen (context.purpose.isTruthy &&
      !includes (record.metadata.purpose.map .string) context.purpose)
    (keyError .keyNotActive "The key is not authorized for the requested signing purpose."))
  pure (cryptoSign record.privateKey data)

def getKeyState (kid : Text) : KeyOperation PrivateKey KeyState := do
  let record ← requireRecord kid
  pure record.metadata.state

def positiveSequence (value : Value) (label : String) : Except KeyFailure Value :=
  match value.safeInteger? with
  | some n =>
    if n < 1 then .error (.typeError ("A positive " ++ label ++ " sequence is required."))
    else .ok value
  | none => .error (.typeError ("A positive " ++ label ++ " sequence is required."))

/-- `options.name`. -/
def option (options : Value) (name : String) : Except KeyFailure Value :=
  orThrow (.typeError "Cannot read properties of null") (options.get (ascii name))

def recordedSequence (records : Bool) (options : Value) (label : String) (current : Value) :
    Except KeyFailure Value :=
  if records then option options "sequence" >>= fun sequence => positiveSequence sequence label
  else .ok current

def recordedCompromise (records : Bool) (options : Value) (now : Text) (current : Value) :
    Except KeyFailure Value :=
  if records then option options "at" >>= fun time => .ok (time.orElse (.string now))
  else .ok current

def KeyMetadata.moved (metadata : KeyMetadata) (next : KeyState) (options : Value) (now : Text) :
    Except KeyFailure KeyMetadata := do
  let activationSequence ← recordedSequence (next = .active) options "activation"
    metadata.activationSequence
  let retirementSequence ← recordedSequence (next = .retiring || next = .retired) options
    "retirement" metadata.retirementSequence
  let compromisedAt ← recordedCompromise (next = .compromised) options now metadata.compromisedAt
  pure
    { metadata with
      state := next
      activationSequence := activationSequence
      retirementSequence := retirementSequence
      compromisedAt := compromisedAt }

def transitionFields (kid : Text) (previous next : KeyState) (sequence : Value) :
    List (Text × Value) :=
  [(ascii "kid", .string kid), (ascii "previousState", .string previous.name),
    (ascii "state", .string next.name), (ascii "sequence", sequence)]

def transitionKeyState (kid nextState : Text) (options : Value) (now : Text) :
    KeyOperation PrivateKey KeyMetadata := do
  let record ← requireRecord kid
  let next ← liftM (assertKeyTransition record.metadata.state nextState)
  let metadata ← liftM (record.metadata.moved next options now)
  modify fun keys => keys.store kid { record with metadata := metadata }
  let sequence ← liftM (option options "sequence")
  liftM (emit (transitionFields kid record.metadata.state next sequence))
  getPublicKey kid

def destroyTestKey (kid : Text) : KeyOperation PrivateKey Bool := do
  let _ ← requireRecord kid
  modify fun keys =>
    { keys with records := keys.records.delete kid, destroyed := kid :: keys.destroyed }
  liftM (emit [(ascii "kid", .string kid)])
  pure true

/-- `Math.max(this.metadataSequence + 1, sequence || 0)`. -/
def advancedSequence (metadataSequence : Number) (sequence : Value) : Except KeyFailure Number := do
  let requested ← orThrow (.typeError "Cannot convert object to primitive value")
    (sequence.orElse (.number (.ofNat 0))).toNumber?
  pure ((metadataSequence.add (.ofNat 1)).max requested)

def sequenceOptions (sequence : Value) : Value := .object [(ascii "sequence", sequence)]

/-- `prepublishKey`, `activateKey` and `retireKey`. -/
def moveKey (next : KeyState) (kid : Text) (sequence : Value) (now : Text) :
    KeyOperation PrivateKey KeyMetadata := do
  let key ← transitionKeyState kid next.name (sequenceOptions sequence) now
  let keys ← get
  let metadataSequence ← liftM (advancedSequence keys.metadataSequence sequence)
  modify fun keys => { keys with metadataSequence := metadataSequence }
  liftM (emit [(ascii "kid", .string kid),
    (ascii "metadataSequence", .number metadataSequence)])
  pure key

def prepublishKey (kid : Text) (sequence : Value) (now : Text) :
    KeyOperation PrivateKey KeyMetadata :=
  moveKey .prepublished kid sequence now

def activateKey (kid : Text) (sequence : Value) (now : Text) :
    KeyOperation PrivateKey KeyMetadata :=
  moveKey .active kid sequence now

def retireKey (kid : Text) (sequence : Value) (now : Text) : KeyOperation PrivateKey KeyMetadata :=
  moveKey .retired kid sequence now

def beginRotation (oldKeyId newKeyId : Text) (sequence : Value) (now : Text) :
    KeyOperation PrivateKey (KeyMetadata × KeyMetadata × Number) := do
  let state ← getKeyState newKeyId
  liftM (throwWhen (state != .prepublished)
    (keyError .keyNotActive "The replacement key must be prepublished before activation."))
  let next ← activateKey newKeyId sequence now
  let previous ← transitionKeyState oldKeyId KeyState.retiring.name (sequenceOptions sequence) now
  let keys ← get
  liftM (emit [(ascii "oldKeyId", .string oldKeyId), (ascii "newKeyId", .string newKeyId),
    (ascii "metadataSequence", .number keys.metadataSequence)])
  pure (previous, next, keys.metadataSequence)

/-- `this.metadataSequence += 1`. -/
def IssuerKeys.incremented (keys : IssuerKeys PrivateKey) : IssuerKeys PrivateKey :=
  { keys with metadataSequence := keys.metadataSequence.add (.ofNat 1) }

def defaultOptions (options : Value) : Value :=
  match options with
  | .undefined => .object []
  | options => options

def compromiseKey (kid : Text) (options : Value) (now : Text) :
    KeyOperation PrivateKey KeyMetadata := do
  let time ← liftM (option (defaultOptions options) "at")
  let sequence ← liftM (option (defaultOptions options) "sequence")
  let key ← transitionKeyState kid KeyState.compromised.name
    (.object [(ascii "at", time), (ascii "sequence", sequence)]) now
  modify IssuerKeys.incremented
  liftM (emit [(ascii "kid", .string kid), (ascii "at", key.compromisedAt)])
  pure key

def revokeKey (kid : Text) (options : Value) (now : Text) : KeyOperation PrivateKey KeyMetadata := do
  let key ← transitionKeyState kid KeyState.revoked.name (defaultOptions options) now
  modify IssuerKeys.incremented
  liftM (emit [(ascii "kid", .string kid)])
  pure key

inductive KeyCall (PrivateKey : Type) where
  | createKey (request : KeyRequest PrivateKey)
  | prepublishKey (kid : Text) (sequence : Value) (now : Text)
  | activateKey (kid : Text) (sequence : Value) (now : Text)
  | beginRotation (oldKeyId newKeyId : Text) (sequence : Value) (now : Text)
  | retireKey (kid : Text) (sequence : Value) (now : Text)
  | compromiseKey (kid : Text) (options : Value) (now : Text)
  | revokeKey (kid : Text) (options : Value) (now : Text)
  | sign (kid : Text) (data : Bytes) (context : SigningContext)
  | transitionKeyState (kid nextState : Text) (options : Value) (now : Text)
  | destroyTestKey (kid : Text)

def KeyCall.operation (cryptoSign : PrivateKey → Bytes → Bytes) :
    KeyCall PrivateKey → KeyOperation PrivateKey (Option Bytes)
  | .createKey request => do let _ ← Issuer.createKey request; pure none
  | .prepublishKey kid sequence now => do let _ ← Issuer.prepublishKey kid sequence now; pure none
  | .activateKey kid sequence now => do let _ ← Issuer.activateKey kid sequence now; pure none
  | .beginRotation oldKeyId newKeyId sequence now => do
    let _ ← Issuer.beginRotation oldKeyId newKeyId sequence now
    pure none
  | .retireKey kid sequence now => do let _ ← Issuer.retireKey kid sequence now; pure none
  | .compromiseKey kid options now => do let _ ← Issuer.compromiseKey kid options now; pure none
  | .revokeKey kid options now => do let _ ← Issuer.revokeKey kid options now; pure none
  | .sign kid data context => do
    let signature ← Issuer.sign cryptoSign kid data context
    pure (some signature)
  | .transitionKeyState kid nextState options now => do
    let _ ← Issuer.transitionKeyState kid nextState (defaultOptions options) now
    pure none
  | .destroyTestKey kid => do let _ ← Issuer.destroyTestKey kid; pure none

def keyStep (cryptoSign : PrivateKey → Bytes → Bytes) (keys : IssuerKeys PrivateKey)
    (call : KeyCall PrivateKey) : IssuerKeys PrivateKey :=
  (perform (call.operation cryptoSign) keys).2

def keyAnswer (cryptoSign : PrivateKey → Bytes → Bytes) (keys : IssuerKeys PrivateKey)
    (call : KeyCall PrivateKey) : Except KeyFailure (Option Bytes) :=
  (perform (call.operation cryptoSign) keys).1

end GhostBridge.Issuer

/-!
## What the operations on keys do

One statement for each operation: it throws and changes nothing, or it returns and has moved the
records and the sequence in this way.
-/

namespace GhostBridge.Issuer

open Ecma Machine Operation Trust ProtocolCore

variable {PrivateKey : Type} {keys : IssuerKeys PrivateKey} {kid : Text}
  {record : KeyRecord PrivateKey} {metadata : KeyMetadata}

def Auditable (value : Value) : Prop :=
  value.isUndefined = true ∨ Plain defaultLimits 1 (removeUndefined value)

theorem emit_ok {fields : List (Text × Value)}
    (h : ∀ m ∈ fields, m.1 ∉ forbiddenKeys ∧ Auditable m.2) : emit fields = .ok () := by
  have hplain : Plain defaultLimits 0 (removeUndefined (.object fields)) := by
    rw [removeUndefined, plain_object]
    refine ⟨by decide, fun m hm => ?_⟩
    have hkept := mem_of_mem_fromEntries hm
    clear hm
    induction fields with
    | nil => cases hkept
    | cons field fields ih =>
      rw [List.forall_mem_cons] at h
      rw [removeUndefinedMembers] at hkept
      split at hkept
      · exact ih h.2 hkept
      · next hdefined =>
        rcases List.mem_cons.mp hkept with rfl | hrest
        · exact ⟨h.1.1, h.1.2.resolve_left hdefined⟩
        · exact ih h.2 hrest
  unfold emit redactPublicData
  rw [assertPlainData_ok.mpr ⟨hplain, rfl⟩]
  rfl

theorem auditable_text {text : Text} (h : text.length ≤ 65536) : Auditable (.string text) :=
  .inr ((plain_string text).mpr ⟨by decide, h⟩)

theorem auditable_number {n : Number} (h : ProtocolCore.isFinite n = true) :
    Auditable (.number n) :=
  .inr ((plain_number n).mpr ⟨by decide, h⟩)

theorem auditable_kid (h : isKeyIdentifier kid = true) : Auditable (.string kid) := by
  simp only [isKeyIdentifier, Bool.and_eq_true, decide_eq_true_eq] at h
  exact auditable_text (by omega)

theorem auditable_state (state : KeyState) : Auditable (.string state.name) :=
  auditable_text (by cases state <;> decide)

theorem named_name (state : KeyState) : KeyState.named state.name = some state := by
  cases state <;> decide

theorem assertKeyTransition_ok {current next : KeyState} {text : Text} :
    assertKeyTransition current text = .ok next ↔
      KeyState.named text = some next ∧ next ∈ current.transitions := by
  simp [assertKeyTransition, Option.filter_eq_some_iff]

/-- The sequence is a positive integer, which activation and retirement ask for. -/
def Positive (sequence : Value) : Prop := ∃ n, sequence.safeInteger? = some n ∧ 1 ≤ n

theorem positiveSequence_ok {sequence result : Value} {label : String} :
    positiveSequence sequence label = .ok result ↔ Positive sequence ∧ result = sequence := by
  unfold positiveSequence Positive
  split
  · next n hn =>
    split
    · next hlt =>
      simp only [reduceCtorEq, hn, Option.some.injEq, false_iff, not_and]
      rintro ⟨m, rfl, hm⟩
      omega
    · next hle =>
      simp only [Except.ok.injEq, hn, Option.some.injEq, eq_comm (a := result)]
      exact ⟨fun h => ⟨⟨n, rfl, by omega⟩, h⟩, And.right⟩
  · next hnone => simp [hnone]

def Numbered (next : KeyState) : Prop := next = .active ∨ next = .retiring ∨ next = .retired

structure Admits (record : KeyRecord PrivateKey) (next : KeyState) (sequence : Value) : Prop where
  transition : next ∈ record.metadata.state.transitions
  numbered : Numbered next → Positive sequence

structure SameMaterial (metadata moved : KeyMetadata) : Prop where
  publicJwk : moved.publicJwk = metadata.publicJwk
  thumbprint : moved.thumbprint = metadata.thumbprint
  purpose : moved.purpose = metadata.purpose

theorem SameMaterial.trans {first second third : KeyMetadata} (h : SameMaterial first second)
    (h' : SameMaterial second third) : SameMaterial first third :=
  ⟨h'.publicJwk.trans h.publicJwk, h'.thumbprint.trans h.thumbprint, h'.purpose.trans h.purpose⟩

theorem recordedSequence_ok {records : Bool} {options current result : Value} {label : String}
    (h : recordedSequence records options label current = .ok result) (hrecords : records = true) :
    Positive (options.field (ascii "sequence")) := by
  rw [recordedSequence, if_pos hrecords] at h
  simp only [bind_ok, option, orThrow_ok] at h
  obtain ⟨sequence, hget, hpositive⟩ := h
  rw [Value.field_eq_of_get hget]
  exact (positiveSequence_ok.mp hpositive).1

theorem moved_ok {next : KeyState} {options : Value} {now : Text} {moved : KeyMetadata}
    (h : metadata.moved next options now = .ok moved) :
    moved.state = next ∧ SameMaterial metadata moved ∧
      (Numbered next → Positive (options.field (ascii "sequence"))) ∧
      (next = .compromised →
        options.isNullish = false ∧
          moved.compromisedAt = (options.field (ascii "at")).orElse (.string now)) := by
  simp only [KeyMetadata.moved, bind_ok, pure_ok] at h
  obtain ⟨activation, hactivation, retirement, hretirement, compromised, hcompromised, rfl⟩ := h
  refine ⟨rfl, ⟨rfl, rfl, rfl⟩, fun hnumbered => ?_, fun hnext => ?_⟩
  · rcases hnumbered with hactive | hretiring
    · exact recordedSequence_ok hactivation (decide_eq_true hactive)
    · exact recordedSequence_ok hretirement (by simpa using hretiring)
  · rw [recordedCompromise, if_pos (decide_eq_true hnext)] at hcompromised
    simp only [bind_ok, option, orThrow_ok, Except.ok.injEq] at hcompromised
    obtain ⟨time, hget, rfl⟩ := hcompromised
    rw [Value.field_eq_of_get hget]
    refine ⟨?_, rfl⟩
    cases options <;> first | rfl | cases hget

theorem option_ok {options : Value} (h : options.isNullish = false) (name : String) :
    option options name = .ok (options.field (ascii name)) := by
  cases options <;> first | rfl | cases h

theorem option_error {options : Value} (h : options.isNullish = true) (name : String) :
    ∃ failure, option options name = .error failure := by
  cases options <;> first | exact ⟨_, rfl⟩ | cases h

theorem recordedSequence_of_positive (records : Bool) {options : Value} (label : String)
    (current : Value) (hoptions : options.isNullish = false)
    (h : records = true → Positive (options.field (ascii "sequence"))) :
    ∃ result, recordedSequence records options label current = .ok result := by
  cases records with
  | false => exact ⟨current, rfl⟩
  | true =>
    refine ⟨options.field (ascii "sequence"), ?_⟩
    rw [recordedSequence, if_pos rfl, option_ok hoptions, ok_bind]
    exact positiveSequence_ok.mpr ⟨h rfl, rfl⟩

theorem moved_of_positive (metadata : KeyMetadata) {next : KeyState} {options : Value} (now : Text)
    (hoptions : options.isNullish = false)
    (hnumbered : Numbered next → Positive (options.field (ascii "sequence"))) :
    ∃ moved, metadata.moved next options now = .ok moved := by
  obtain ⟨activation, hactivation⟩ := recordedSequence_of_positive (next = .active) "activation"
    metadata.activationSequence hoptions fun h => hnumbered (.inl (of_decide_eq_true h))
  obtain ⟨retirement, hretirement⟩ := recordedSequence_of_positive
    (next = .retiring || next = .retired) "retirement" metadata.retirementSequence hoptions
    fun h => hnumbered (.inr (by simpa using h))
  unfold KeyMetadata.moved
  rw [hactivation, ok_bind, hretirement, ok_bind]
  by_cases hcompromised : next = .compromised
  · rw [recordedCompromise, if_pos (decide_eq_true hcompromised), option_ok hoptions]
    exact ⟨_, rfl⟩
  · rw [recordedCompromise, if_neg (by simpa using hcompromised)]
    exact ⟨_, rfl⟩

theorem perform_requireRecord (h : keys.records.get? kid = some record) :
    perform (requireRecord kid) keys = (.ok record, keys) := by
  unfold requireRecord
  rw [perform_bind_ok perform_get, perform_lift, h]
  rfl

theorem perform_requireRecord_none (h : keys.records.get? kid = none) :
    ∃ failure, perform (requireRecord kid) keys = (.error failure, keys) := by
  refine ⟨keyError .keyNotFound "The signing key was not found.", ?_⟩
  unfold requireRecord
  rw [perform_bind_ok perform_get, perform_lift, h]
  rfl

theorem get?_store (record : KeyRecord PrivateKey) :
    (keys.store kid record).records.get? kid = some record :=
  OrderedMap.get?_set_self _ _ _

theorem perform_getPublicKey_store :
    perform (getPublicKey kid) (keys.store kid record) =
      (.ok record.metadata, keys.store kid record) := by
  unfold getPublicKey
  rw [perform_bind_ok (perform_requireRecord (get?_store record)), perform_pure]

theorem transition_refused (keys : IssuerKeys PrivateKey) (kid nextState : Text) (options : Value)
    (now : Text)
    (h : ∀ record next, keys.records.get? kid = some record →
      KeyState.named nextState = some next → Admits record next (options.field (ascii "sequence")) →
        next = .compromised ∧ options.isNullish = true) :
    ∃ failure, perform (transitionKeyState kid nextState options now) keys =
      (.error failure, keys) := by
  cases hrecord : keys.records.get? kid with
  | none =>
    obtain ⟨failure, hfailure⟩ := perform_requireRecord_none hrecord
    exact ⟨failure, by rw [transitionKeyState, perform_bind_error hfailure]⟩
  | some record =>
    rw [transitionKeyState, perform_bind_ok (perform_requireRecord hrecord)]
    cases hnext : assertKeyTransition record.metadata.state nextState with
    | error failure =>
      exact ⟨failure, perform_bind_error (by rw [perform_lift])⟩
    | ok next =>
      rw [perform_bind_ok (by rw [perform_lift])]
      cases hmoved : record.metadata.moved next options now with
      | error failure => exact ⟨failure, perform_bind_error (by rw [perform_lift])⟩
      | ok metadata =>
        obtain ⟨hnamed, htransition⟩ := assertKeyTransition_ok.mp hnext
        obtain ⟨-, -, hnumbered, hcompromised⟩ := moved_ok hmoved
        obtain ⟨hnext, hnullish⟩ := h record next hrecord hnamed ⟨htransition, hnumbered⟩
        cases hnullish.symm.trans (hcompromised hnext).1

theorem transition_admitted {next : KeyState} (options : Value) (now : Text)
    (hkid : isKeyIdentifier kid = true) (hrecord : keys.records.get? kid = some record)
    (hadmits : Admits record next (options.field (ascii "sequence")))
    (hoptions : options.isNullish = false)
    (hsequence : Auditable (options.field (ascii "sequence"))) :
    ∃ moved, record.metadata.moved next options now = .ok moved ∧
      perform (transitionKeyState kid next.name options now) keys =
        (.ok moved, keys.store kid { record with metadata := moved }) := by
  obtain ⟨moved, hmoved⟩ := moved_of_positive record.metadata now hoptions
    hadmits.numbered
  refine ⟨moved, hmoved, ?_⟩
  have hnext : assertKeyTransition record.metadata.state next.name = .ok next :=
    assertKeyTransition_ok.mpr ⟨named_name next, hadmits.transition⟩
  have hoption := option_ok hoptions "sequence"
  have hemit : emit (transitionFields kid record.metadata.state next
      (options.field (ascii "sequence"))) = .ok () := by
    apply emit_ok
    simp only [transitionFields, List.forall_mem_cons]
    exact ⟨⟨by decide, auditable_kid hkid⟩, ⟨by decide, auditable_state _⟩,
      ⟨by decide, auditable_state _⟩, ⟨by decide, hsequence⟩, List.forall_mem_nil _⟩
  unfold transitionKeyState
  rw [perform_bind_ok (perform_requireRecord hrecord), perform_lift_bind_ok hnext,
    perform_lift_bind_ok hmoved, perform_bind_ok (perform_modify _), perform_lift_bind_ok hoption,
    perform_lift_bind_ok hemit, perform_getPublicKey_store]

end GhostBridge.Issuer
