import GhostBridge.Ecma.Json
import GhostBridge.Ecma.JsonBytes
import GhostBridge.Ecma.Outcome
import GhostBridge.Ecma.Sha256
import GhostBridge.Ecma.Text
import GhostBridge.Ecma.Utf8

/-!
# Protocol errors
-/

namespace GhostBridge.ProtocolCore

open Ecma

/-- The codes of `ERROR_CODES` that the protocol itself raises. -/
inductive ProtocolErrorCode where
  | invalidMessage
  | messageTooLarge
  | unsupportedProtocolVersion
  | noCommonProtocolVersion
  | coreProfileRequired
  | governedProfileRequired
  | noCompatibleAuthenticationMode
  | requiredExtensionUnsupported
  | invalidPassport
  | passportExpired
  | passportSuspended
  | passportRevoked
  | installGrantInvalid
  | installGrantExpired
  | installGrantAlreadyRedeemed
  | connectionNotActive
  | capabilityNotFound
  | capabilityVersionMismatch
  | inputContractViolation
  | outputContractViolation
  | authenticationRequired
  | authorizationDenied
  | scopeRequired
  | scopeMismatch
  | delegationRequired
  | delegationInvalid
  | delegationExpired
  | delegationExhausted
  | dataContractViolation
  | approvalRequired
  | approvalInvalid
  | approvalExpired
  | idempotencyConflict
  | idempotencyRequired
  | deadlineExceeded
  | taskFailed
  | taskNotFound
  | taskNotCancellable
  | taskCancelled
  | terminalPersistenceRequired
  | revoked
  | providerUnavailable
  | rateLimited
  | internalError
  | proofRequired
  | proofInvalid
deriving DecidableEq

structure ErrorDetails where
  path : Text := []
  missing : List Text := []
  prohibitedPaths : List Text := []
  supportedVersions : List Text := []
  identifier : Text := []
  extensionNamespace : Text := []
  profile : Text := []
  maximumMessageBytes : Nat := 0
deriving DecidableEq

structure GhostBridgeProtocolError where
  errorCode : ProtocolErrorCode
  safeMessage : String
  details : ErrorDetails := {}
  retryable : Bool := false
deriving DecidableEq

/-- What the package throws: its own errors, or an error of the runtime. -/
inductive Failure where
  | protocol (error : GhostBridgeProtocolError)
  | runtimeError
deriving DecidableEq

abbrev Checked := Except Failure

def protocolError (errorCode : ProtocolErrorCode) (message : String) (details : ErrorDetails := {}) :
    Failure := .protocol ⟨errorCode, message, details, false⟩

end GhostBridge.ProtocolCore

/-!
## Plain protocol data

The walk every protocol message goes through, and the bounded JSON text of a message. Trees have
no cycles, so the ancestor set has nothing to find.
-/

namespace GhostBridge.ProtocolCore

open Ecma

structure Limits where
  maximumMessageBytes : Nat := 262144
  maximumStringLength : Nat := 65536
  maximumArrayLength : Nat := 256
  maximumObjectDepth : Nat := 16

def defaultLimits : Limits := {}

def forbiddenKeys : List Text := [ascii "__proto__", ascii "prototype", ascii "constructor"]

def isFinite : Number → Bool
  | .finite _ => true
  | _ => false

/-- `${location}[${index}]`. -/
def itemLocation (location : Text) (index : Nat) : Text :=
  location ++ 0x5b :: (decimalDigits index ++ [0x5d])

/-- `${location}.${key}`. -/
def memberLocation (location key : Text) : Text := location ++ 0x2e :: key

mutual
def visit (limits : Limits) (value : Value) (location : Text) (depth : Nat) : Checked Unit := do
  throwWhen (limits.maximumObjectDepth < depth)
    (protocolError .invalidMessage "The message exceeds the maximum object depth."
      { path := location })
  match value with
  | .null => pure ()
  | .bool _ => pure ()
  | .number n =>
    throwWhen (!isFinite n)
      (protocolError .invalidMessage "The message contains a non-finite number.")
  | .string s =>
    throwWhen (limits.maximumStringLength < s.length)
      (protocolError .invalidMessage "A message string exceeds the configured limit."
        { path := location })
  | .undefined =>
    throw (protocolError .invalidMessage "Public protocol messages must contain plain data only.")
  | .array items =>
    throwWhen (limits.maximumArrayLength < items.length)
      (protocolError .invalidMessage "A message array exceeds the configured limit."
        { path := location })
    visitItems limits items location 0 (depth + 1)
  | .object members => visitMembers limits members location (depth + 1)
def visitItems (limits : Limits) : List Value → Text → Nat → Nat → Checked Unit
  | [], _, _, _ => pure ()
  | item :: items, location, index, depth => do
    visit limits item (itemLocation location index) depth
    visitItems limits items location (index + 1) depth
def visitMembers (limits : Limits) : List (Text × Value) → Text → Nat → Checked Unit
  | [], _, _ => pure ()
  | (key, child) :: members, location, depth => do
    throwWhen (forbiddenKeys.contains key)
      (protocolError .invalidMessage "The message contains a prohibited object key."
        { path := memberLocation location key })
    visit limits child (memberLocation location key) depth
    visitMembers limits members location depth
end

def assertPlainData (value : Value) (limits : Limits) : Checked Value := do
  visit limits value (ascii "$") 0
  pure value

def boundedSerialize (value : Value) (limits : Limits) : Checked Text := do
  let _ ← assertPlainData value limits
  let serialized ← orThrow .runtimeError (Json.stringify value)
  let maximumMessageBytes :=
    if limits.maximumMessageBytes = 0 then defaultLimits.maximumMessageBytes
    else limits.maximumMessageBytes
  throwWhen (maximumMessageBytes < Utf8.byteLength serialized)
    (protocolError .messageTooLarge "The protocol message exceeds the configured size."
      { maximumMessageBytes := maximumMessageBytes })
  pure serialized

def safeParse (text : Text) : Checked Value := do
  throwWhen (defaultLimits.maximumMessageBytes < Utf8.byteLength text)
    (protocolError .messageTooLarge "The protocol message exceeds the configured size.")
  let parsed ← orThrow
    (protocolError .invalidMessage "The protocol message is not valid JSON.") (Json.parse text)
  assertPlainData parsed defaultLimits

def clonePlain (value : Value) : Checked Value := do
  let text ← boundedSerialize value defaultLimits
  safeParse text

def digest (value : Value) : Checked Text := do
  let text ← boundedSerialize value defaultLimits
  pure (Base64Url.encode (Sha256.hash (Utf8.encode text)))

/-- The walk accepts the value at this depth; where it stands does not matter. -/
def Plain (limits : Limits) (depth : Nat) (value : Value) : Prop :=
  visit limits value [] depth = .ok ()

variable {limits : Limits} {depth : Nat}

section

attribute [local simp] visitItems visitMembers

private theorem visitItems_ok {items : List Value} {location : Text} {index : Nat}
    (h : ∀ item ∈ items, ∀ location, visit limits item location depth = .ok () ↔
      Plain limits depth item) :
    visitItems limits items location index depth = .ok () ↔
      ∀ item ∈ items, Plain limits depth item := by
  induction items generalizing index with
  | nil => simp
  | cons item items ih =>
    rw [List.forall_mem_cons] at h
    simp [h.1, ih h.2]

private theorem visitMembers_ok {members : List (Text × Value)} {location : Text}
    (h : ∀ m ∈ members, ∀ location, visit limits m.2 location depth = .ok () ↔
      Plain limits depth m.2) :
    visitMembers limits members location depth = .ok () ↔
      ∀ m ∈ members, m.1 ∉ forbiddenKeys ∧ Plain limits depth m.2 := by
  induction members with
  | nil => simp
  | cons m members ih =>
    rw [List.forall_mem_cons] at h
    simp [h.1, ih h.2, and_assoc]

end

section

attribute [local simp] Plain visit

theorem visit_ok (value : Value) (location : Text) :
    visit limits value location depth = .ok () ↔ Plain limits depth value := by
  induction value using Value.inductionOn generalizing location depth with
  | array items ih =>
    simp only [Plain, visit, bind_ok, exists_unit, throwWhen_ok,
      visitItems_ok fun item hi location => ih item hi location]
  | object members ih =>
    simp only [Plain, visit, bind_ok, exists_unit, throwWhen_ok,
      visitMembers_ok fun m hm location => ih m hm location]
  | _ => simp

theorem plain_undefined : ¬Plain limits depth .undefined := by
  simp

theorem plain_number (n : Number) :
    Plain limits depth (.number n) ↔ depth ≤ limits.maximumObjectDepth ∧ isFinite n = true := by
  simp

theorem plain_string (s : Text) :
    Plain limits depth (.string s) ↔
      depth ≤ limits.maximumObjectDepth ∧ s.length ≤ limits.maximumStringLength := by
  simp

theorem plain_array (items : List Value) :
    Plain limits depth (.array items) ↔
      depth ≤ limits.maximumObjectDepth ∧ items.length ≤ limits.maximumArrayLength ∧
        ∀ item ∈ items, Plain limits (depth + 1) item := by
  simp [visitItems_ok fun item _ location => visit_ok item location]

theorem plain_object (members : List (Text × Value)) :
    Plain limits depth (.object members) ↔
      depth ≤ limits.maximumObjectDepth ∧
        ∀ m ∈ members, m.1 ∉ forbiddenKeys ∧ Plain limits (depth + 1) m.2 := by
  simp [visitMembers_ok fun m _ location => visit_ok m.2 location]

end

theorem assertPlainData_ok {value result : Value} :
    assertPlainData value limits = .ok result ↔ Plain limits 0 value ∧ result = value := by
  simp only [assertPlainData, bind_ok, exists_unit, visit_ok, pure_ok, eq_comm (a := result)]

theorem plain_mono {value : Value} {depth' : Nat} (hle : depth' ≤ depth)
    (h : Plain limits depth value) : Plain limits depth' value := by
  induction value using Value.inductionOn generalizing depth depth' with
  | undefined => exact absurd h plain_undefined
  | array items ih =>
    rw [plain_array] at h ⊢
    exact ⟨hle.trans h.1, h.2.1, fun item hi =>
      ih item hi (Nat.add_le_add_right hle 1) (h.2.2 item hi)⟩
  | object members ih =>
    rw [plain_object] at h ⊢
    exact ⟨hle.trans h.1, fun m hm =>
      ⟨(h.2 m hm).1, ih m hm (Nat.add_le_add_right hle 1) (h.2 m hm).2⟩⟩
  | number n =>
    rw [plain_number] at h ⊢
    exact ⟨hle.trans h.1, h.2⟩
  | string s =>
    rw [plain_string] at h ⊢
    exact ⟨hle.trans h.1, h.2⟩
  | _ => simp_all [Plain, visit]; omega

theorem isJson_of_plain {value : Value} (h : Plain limits depth value) : value.isJson = true := by
  induction value using Value.inductionOn generalizing depth with
  | undefined => exact absurd h plain_undefined
  | null => rfl
  | bool b => rfl
  | number n =>
    cases n with
    | finite x => rfl
    | _ => simp [plain_number, isFinite] at h
  | string s => rfl
  | array items ih =>
    rw [plain_array] at h
    exact (Value.isJson_array items).mpr fun item hi => ih item hi (h.2.2 item hi)
  | object members ih =>
    rw [plain_object] at h
    exact (Value.isJson_object members).mpr fun m hm => ih m hm (h.2 m hm).2

theorem boundedSerialize_ok {value : Value} {text : Text} :
    boundedSerialize value limits = .ok text ↔
      Plain limits 0 value ∧ text = Json.write value ∧
        Utf8.byteLength text ≤
          (if limits.maximumMessageBytes = 0 then defaultLimits.maximumMessageBytes
            else limits.maximumMessageBytes) := by
  simp only [boundedSerialize, bind_ok, assertPlainData_ok, orThrow_ok, throwWhen_ok, exists_unit,
    pure_ok, decide_eq_false_iff_not, Nat.not_lt]
  constructor
  · rintro ⟨_, ⟨hplain, rfl⟩, serialized, htext, hsize, rfl⟩
    have hdefined := Value.isUndefined_of_isJson (isJson_of_plain hplain)
    rw [Json.stringify, hdefined] at htext
    exact ⟨hplain, (Option.some.inj htext).symm, hsize⟩
  · rintro ⟨hplain, rfl, hsize⟩
    have hdefined := Value.isUndefined_of_isJson (isJson_of_plain hplain)
    exact ⟨value, ⟨hplain, rfl⟩, Json.write value, by rw [Json.stringify, hdefined]; rfl, hsize, rfl⟩

/-- The value can be written within the limits. -/
def Written (limits : Limits) (value : Value) : Prop :=
  ∃ text, boundedSerialize value limits = .ok text

theorem Written.member {members : List (Text × Value)} (h : Written limits (.object members))
    {m : Text × Value} (hm : m ∈ members) : Written limits m.2 := by
  obtain ⟨_, h⟩ := h
  obtain ⟨hplain, rfl, hsize⟩ := boundedSerialize_ok.mp h
  have hmembers := (plain_object members).mp hplain
  have hle := Json.byteLength_writeMember_le
    (fun n hn => isJson_of_plain (hmembers.2 n hn).2) hm
  have hmember := Json.byteLength_writeMember (m := m)
  exact ⟨_, boundedSerialize_ok.mpr
    ⟨plain_mono (Nat.zero_le _) (hmembers.2 m hm).2, rfl, by omega⟩⟩

theorem clonePlain_ok {value clone : Value} (hkeys : value.uniqueKeys = true)
    (h : clonePlain value = .ok clone) : Plain defaultLimits 0 value ∧ clone = value.parsed := by
  simp only [clonePlain, safeParse, bind_ok, boundedSerialize_ok, throwWhen_ok, exists_unit,
    orThrow_ok, assertPlainData_ok] at h
  obtain ⟨_, ⟨hplain, rfl, -⟩, -, parsed, hparsed, -, rfl⟩ := h
  rw [Json.parse_write (isJson_of_plain hplain) hkeys, Option.some.injEq] at hparsed
  exact ⟨hplain, hparsed.symm⟩

end GhostBridge.ProtocolCore
