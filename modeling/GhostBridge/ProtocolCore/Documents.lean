import GhostBridge.Ecma.Objects
import GhostBridge.ProtocolCore.SecretFields
import GhostBridge.ProtocolCore.Versions

/-!
# Protocol documents

What every document is checked for before its own rules: plain data, required fields, its protocol
version and its extensions.
-/

namespace GhostBridge.ProtocolCore

open Ecma

/-- The functions of the runtime that are not part of the repository. -/
structure Runtime where
  /-- `Date.parse` of a text; none is `NaN`. -/
  dateParse : Text → Option Int
  toLowerCase : Text → Text
  /-- `new URL(text).protocol`; none when it throws. -/
  urlProtocol : Text → Option Text

variable (runtime : Runtime)

/-- `String(value)`. -/
def textOf (value : Value) : Checked Text := orThrow .runtimeError value.toText?

/-- `String(value).toLowerCase()`. -/
def lowerTextOf (value : Value) : Checked Text := runtime.toLowerCase <$> textOf value

/-- `validateProtocolVersion(value)` of a value that need not be a text. -/
def validateDeclaredVersion (value : Value) : Checked Unit := do
  let text ← textOf (value.orElse (.string []))
  let _ ← parseProtocolVersion text
  throwWhen (!value.strictEq (.string protocolVersion))
    (protocolError .unsupportedProtocolVersion "The protocol version is not supported."
      { supportedVersions := [protocolVersion] })

private def smallAlnum : Regex := .unit fun u => Regex.range 0x61 0x7a u || Regex.range 0x30 0x39 u

/-- `[a-z0-9]` and the units of a text, under the flag `i`. -/
private def wordUnit (others : Text) : Regex :=
  .unit fun u => Regex.range 0x61 0x7a (Regex.lowerAscii u) || Regex.range 0x30 0x39 u ||
    others.contains u

private def smallOr (others : Text) : Regex := .alt smallAlnum (.oneOf others)

private def digit : Regex := .unit (Regex.range 0x30 0x39)

private def identifierLabel : Regex :=
  .sequence [smallAlnum, .option (.sequence [.upTo (smallOr (ascii "-")) 61, smallAlnum])]

def extensionIdentifierPattern : Regex :=
  .sequence [.plus (.sequence [identifierLabel, .literal (ascii ".")]), identifierLabel,
    .literal (ascii "/"), smallAlnum,
    .option (.sequence [.upTo (smallOr (ascii "._-")) 126, smallAlnum])]

/-- `/^\d+\.\d+\.\d+(?:-[a-z0-9.-]+)?$/i`. -/
def extensionVersionPattern : Regex :=
  .sequence [.plus digit, .literal (ascii "."), .plus digit, .literal (ascii "."), .plus digit,
    .option (.sequence [.literal (ascii "-"), .plus (wordUnit (ascii ".-"))])]

/-- `/^[a-z][a-z0-9]*(?:[.-][a-z0-9]+)+(?:\/[a-z0-9._-]+)?$/i`. -/
def extensionNamespacePattern : Regex :=
  .sequence [.unit fun u => Regex.range 0x61 0x7a (Regex.lowerAscii u), .star (wordUnit []),
    .plus (.sequence [.oneOf (ascii ".-"), .plus (wordUnit [])]),
    .option (.sequence [.literal (ascii "/"), .plus (wordUnit (ascii "._-"))])]

def extensionStates : List Text :=
  [ascii "experimental", ascii "candidate", ascii "official", ascii "deprecated", ascii "removed"]

/-- `PROFILE_IDS`, with their keys. -/
def profileIds : List (Text × Text) :=
  [(ascii "core", ascii "ghostbridge.core"),
    (ascii "governedExecution", ascii "ghostbridge.governed-execution"),
    (ascii "agentCoordination", ascii "ghostbridge.agent-coordination.experimental")]

/-- `names.includes(value)`. -/
def namesInclude (names : List Text) (value : Value) : Bool :=
  names.any fun name => value.strictEq (.string name)

def isSafeReference (value : Value) : Bool :=
  match value.toText? with
  | none => false
  | some reference =>
    if (ascii "/").isPrefixOf reference then
      !(ascii "//").isPrefixOf reference && !decide (ascii ".." <:+: reference)
    else
      (runtime.urlProtocol reference).any [ascii "https:", ascii "http:"].contains

def validateExtensionIdentifier (identifier : Value) : Checked Text := do
  let value ← lowerTextOf runtime (identifier.orElse (.string []))
  throwWhen (255 < value.length || !extensionIdentifierPattern.accepts value)
    (protocolError .invalidMessage "An extension identifier is invalid."
      { identifier := value.take 255 })
  pure value

/-- The rules of `validateExtensionDeclaration` after the required fields. -/
def checkExtensionDeclaration (declaration : Value) : Checked Text := do
  let name (field : String) : Value := declaration.field (ascii field)
  let identifier ← validateExtensionIdentifier runtime (name "identifier")
  let invalid (message : String) : Failure :=
    protocolError .invalidMessage message { identifier := identifier }
  let version ← textOf (name "version")
  throwWhen (!extensionVersionPattern.accepts version) (invalid "An extension version is invalid.")
  let status ← lowerTextOf runtime (name "status")
  throwWhen (!extensionStates.contains status) (invalid "An extension status is invalid.")
  throwWhen (match name "required" with
      | .bool _ => false
      | _ => true)
    (invalid "An extension required flag must be boolean.")
  throwWhen (match name "profiles" with
      | .undefined => false
      | .array profiles =>
        decide (10 < profiles.length) || profiles.any fun profile =>
          !namesInclude (profileIds.map Prod.snd) profile
      | _ => true)
    (invalid "An extension profile declaration is invalid.")
  throwWhen ((name "documentationReference").isTruthy &&
      !isSafeReference runtime (name "documentationReference"))
    (invalid "An extension documentationReference is unsafe.")
  throwWhen ((name "schemaReference").isTruthy && !isSafeReference runtime (name "schemaReference"))
    (invalid "An extension schemaReference is unsafe.")
  pure identifier

/-- `document?.[field] === undefined || document?.[field] === null || document?.[field] === ''`. -/
def isMissing : Value → Bool
  | .undefined => true
  | .null => true
  | .string s => s.isEmpty
  | _ => false

def checkRequired (document : Value) (fields : List String) (errorCode : ProtocolErrorCode) :
    Checked Unit := do
  let _ ← assertPlainData document defaultLimits
  let missing := (fields.map ascii).filter fun field => isMissing (document.field field)
  throwWhen (!missing.isEmpty)
    (protocolError errorCode "The protocol message is missing required fields."
      { missing := missing })
  let version := document.field (ascii "protocolVersion")
  stepWhen version.isTruthy (validateDeclaredVersion version)

mutual
/-- `validateExtensions(extensions)`, which goes on into the extensions of each declaration. -/
def validateExtensions (extensions : Value) : Checked Unit := do
  let _ ← assertPlainData extensions defaultLimits
  match extensions with
  | .array declarations => validateExtensionDeclarations declarations
  | extensions => do
    let names ← orThrow .runtimeError extensions.keys?
    throwWhen (!names.all extensionNamespacePattern.accepts)
      (protocolError .invalidMessage "An extension namespace is invalid."
        { extensionNamespace := (names.find? fun name =>
            !extensionNamespacePattern.accepts name).getD [] })
def validateExtensionDeclarations : List Value → Checked Unit
  | [] => pure ()
  | declaration :: declarations => do
    checkRequired declaration ["identifier", "version", "status", "required"] .invalidMessage
    validateOwnExtensions declaration
    let _ ← checkExtensionDeclaration runtime declaration
    validateExtensionDeclarations declarations

/-- `if (document.extensions) validateExtensions(document.extensions)`. -/
def validateOwnExtensions : Value → Checked Unit
  | .object members => validateExtensionsMember members
  | _ => pure ()

def validateExtensionsMember : List (Text × Value) → Checked Unit
  | [] => pure ()
  | (key, extensions) :: members =>
    if key = ascii "extensions" then
      if extensions.isTruthy then validateExtensions extensions else pure ()
    else validateExtensionsMember members
end

def assertRequired (document : Value) (fields : List String)
    (errorCode : ProtocolErrorCode := .invalidMessage) : Checked Unit := do
  checkRequired document fields errorCode
  validateOwnExtensions runtime document

structure ProfileDeclaration where
  id : Text
  supported : Bool
  status : Text
  conformance : List Text
deriving DecidableEq

def profileStatuses (key : Text) (supported : Bool) : List Text × Text :=
  if key = ascii "agentCoordination" then
    ([ascii "experimental", ascii "deferred"],
      if supported then ascii "experimental" else ascii "deferred")
  else ([ascii "draft", ascii "experimental", ascii "deprecated"], ascii "draft")

def conformancePrefix (key : Text) : Text :=
  if key = ascii "core" then ascii "C"
  else if key = ascii "governedExecution" then ascii "G"
  else ascii "A"

def conformanceLevels (key : Text) : List Text :=
  [ascii "1", ascii "2", ascii "3"].map (conformancePrefix key ++ ·)

/-- `String(level)` of each declared level. -/
def conformanceTexts (key : Text) (conformance : Value) (invalid : Failure) : Checked (List Text) :=
  match conformance with
  | .array levels => do
    throwWhen (10 < levels.length) invalid
    levels.mapM fun level => do
      let text ← textOf level
      throwWhen (!(conformanceLevels key).contains text) invalid
      pure text
  | _ => throw invalid

def validateProfile (key id : Text) (declaration : Value) : Checked ProfileDeclaration := do
  let invalid (message : String) : Failure := protocolError .invalidMessage message { profile := id }
  let supported ← (match declaration.field (ascii "supported") with
    | .bool supported => pure supported
    | _ => throw (invalid "A profile supported flag must be boolean."))
  let (allowed, default) := profileStatuses key supported
  let status ← lowerTextOf runtime ((declaration.field (ascii "status")).orElse (.string default))
  throwWhen (!allowed.contains status) (invalid "A profile status is invalid.")
  let levels ← conformanceTexts key ((declaration.field (ascii "conformance")).orElse (.array []))
    (invalid "A profile conformance declaration is invalid.")
  pure
    { id := id, supported := supported, status := status
      conformance := (distinct levels).insertionSort fun a b => Text.le a b = true }

/-- `validateProfileDeclarations(profiles)`. A profile that is not declared is left out. -/
def validateProfileDeclarations (profiles : Value) : Checked (List ProfileDeclaration) := do
  let _ ← assertPlainData profiles defaultLimits
  let keys ← orThrow .runtimeError profiles.keys?
  throwWhen (decide (profileIds.length < keys.length) ||
      keys.any fun key => !(profileIds.map Prod.fst).contains key)
    (protocolError .invalidMessage "The profile declaration contains an unknown profile.")
  (profileIds.filter fun entry => (profiles.field entry.1).isTruthy).mapM fun entry =>
    validateProfile runtime entry.1 entry.2 (profiles.field entry.1)

variable {runtime}

end GhostBridge.ProtocolCore

/-!
## Public documents

Passports, connection offers and receipts. Each validator has its own rules and then refuses secret
fields; it returns the document it was given, which is left out here.
-/

namespace GhostBridge.ProtocolCore

open Ecma

variable (runtime : Runtime)

/-- The rules of `validatePassport` before the secret fields. -/
def checkPassport (document : Value) (clock : Int) : Checked Unit := do
  assertRequired runtime document
    ["protocolVersion", "passportId", "passportVersion", "agentId", "displayName", "safeDescription",
      "issuer", "issuedAt", "expiresAt", "status", "capabilities", "supportedProtocolVersions",
      "supportedTransports", "receiptSupport", "revocationReference"]
    .invalidPassport
  let name (field : String) : Value := document.field (ascii field)
  let hasStatus (status : String) : Bool := (name "status").strictEq (.string (ascii status))
  throwWhen (hasStatus "suspended")
    (protocolError .passportSuspended "The Agent Passport is suspended.")
  throwWhen (hasStatus "revoked") (protocolError .passportRevoked "The Agent Passport is revoked.")
  let expired := protocolError .passportExpired "The Agent Passport has expired."
  throwWhen (hasStatus "expired") expired
  let expiry ← textOf (name "expiresAt")
  throwWhen ((runtime.dateParse expiry).any (· ≤ clock)) expired
  throwWhen (!hasStatus "active")
    (protocolError .invalidPassport "The Agent Passport is not active.")
  throwWhen (match name "supportedProtocolVersions" with
      | .array versions => !versions.any (·.sameValueZero (name "protocolVersion"))
      | _ => true)
    (protocolError .invalidPassport
      "The Agent Passport does not advertise its declared protocol version.")
  stepWhen (name "profiles").isTruthy do
    let _ ← validateProfileDeclarations runtime (name "profiles")

def validatePassport (document : Value) (clock : Int) : Checked Unit := do
  checkPassport runtime document clock
  assertNoSecretFields document .invalidPassport "The Agent Passport contains a prohibited field."

def authenticationModes : List Text :=
  [ascii "none", ascii "oauth", ascii "mutual_tls", ascii "signed_request",
    ascii "managed_credential", ascii "delegated_credential", ascii "platform_brokered"]

def normalizeAuthenticationModes (modes : Value) : Checked (List Text) := do
  let items ← (match modes with
    | .array items => pure items
    | _ => throw (protocolError .invalidMessage "Authentication modes must be a non-empty array."))
  throwWhen (items.isEmpty || decide (authenticationModes.length < items.length))
    (protocolError .invalidMessage "Authentication modes must be a non-empty array.")
  let normalized ← distinct <$> items.mapM textOf
  throwWhen (!normalized.all authenticationModes.contains)
    (protocolError .invalidMessage "An authentication mode is invalid.")
  pure normalized

/-- The rules of `validateConnectionOffer` before the secret fields. -/
def checkConnectionOffer (document : Value) : Checked Unit := do
  assertRequired runtime document
    ["connectionOfferId", "agentId", "passportReference", "protocolVersion", "transportCategory",
      "runtimeReference", "authenticationMode", "authenticationSetupReference", "expiresAt",
      "acceptedOrganizationScope", "restrictions", "revocationReference"]
  let mode := document.field (ascii "authenticationMode")
  let modes := document.field (ascii "authenticationModes")
  throwWhen (!namesInclude authenticationModes mode)
    (protocolError .invalidMessage "The Connection Offer authentication mode is invalid.")
  stepWhen modes.isTruthy do
    let _ ← normalizeAuthenticationModes modes
  throwWhen (match modes with
      | .array items => !items.any (·.sameValueZero mode)
      | _ => false)
    (protocolError .invalidMessage
      "The preferred authentication mode is not in the declared supported modes.")

def validateConnectionOffer (document : Value) : Checked Unit := do
  checkConnectionOffer runtime document
  assertNoSecretFields document .invalidMessage
    "The Connection Offer contains a prohibited secret field."

def receiptOutcomes : List Text :=
  [ascii "completed", ascii "failed", ascii "cancelled", ascii "timed_out", ascii "rejected",
    ascii "revoked", ascii "partially_completed", ascii "compensated"]

/-- The rules of `validateReceipt` before the secret fields. -/
def checkReceipt (document : Value) : Checked Unit := do
  assertRequired runtime document
    ["receiptId", "invocationId", "taskId", "agentId", "passportVersion", "capabilityKey",
      "capabilityVersion", "organizationScope", "outcome", "outputContractReference", "startedAt",
      "completedAt", "attemptCount", "outputDigest", "evidenceDigest",
      "revocationStateAtExecution"]
  throwWhen (!namesInclude receiptOutcomes (document.field (ascii "outcome")))
    (protocolError .invalidMessage "The Execution Receipt outcome is invalid.")

def validateReceipt (document : Value) : Checked Unit := do
  checkReceipt runtime document
  assertNoSecretFields document .invalidMessage
    "The Execution Receipt contains a prohibited secret field."

/-- Every key that looks like a secret shows in the path of some leaf, when there is one. -/
def SecretsShow (document : Value) : Prop :=
  hasSecretKey document = true → hasSecretLeaf document = true

private theorem secretFree_iff {check : Checked Unit} {document : Value}
    {errorCode : ProtocolErrorCode} {message : String} :
    ((do check; assertNoSecretFields document errorCode message : Checked Unit) = .ok () →
        hasSecretKey document = false) ↔
      (check = .ok () → SecretsShow document) := by
  simp only [bind_ok, exists_unit, assertNoSecretFields_ok, SecretsShow, and_imp]
  refine forall_congr' fun _ => ?_
  cases hasSecretKey document <;> cases hasSecretLeaf document <;> simp

/-- Accepted documents are free of secret keys exactly where their secret keys show, and redaction
leaves no value of such a key. -/
theorem public_documents_secret_free_iff (runtime : Runtime) (document : Value) (clock : Int) :
    ((validatePassport runtime document clock = .ok () → hasSecretKey document = false) ↔
      (checkPassport runtime document clock = .ok () → SecretsShow document)) ∧
    ((validateConnectionOffer runtime document = .ok () → hasSecretKey document = false) ↔
      (checkConnectionOffer runtime document = .ok () → SecretsShow document)) ∧
    ((validateReceipt runtime document = .ok () → hasSecretKey document = false) ↔
      (checkReceipt runtime document = .ok () → SecretsShow document)) ∧
    ∀ result, redactPublicData document = .ok result → allRedacted result = true :=
  ⟨secretFree_iff, secretFree_iff, secretFree_iff, fun _ h => redactPublicData_redacted h⟩

private def documentRuntime : Runtime :=
  { dateParse := fun _ => none
    toLowerCase := List.map Regex.lowerAscii
    urlProtocol := fun _ => none }

private def receiptWithSecrets : Value :=
  let text (name value : String) : Text × Value := (ascii name, .string (ascii value))
  .object [text "receiptId" "r", text "invocationId" "i", text "taskId" "t", text "agentId" "a",
    text "passportVersion" "1", text "capabilityKey" "c", text "capabilityVersion" "1",
    text "organizationScope" "o", text "outcome" "completed", text "outputContractReference" "out",
    text "startedAt" "s", text "completedAt" "e", (ascii "attemptCount", .bool true),
    text "outputDigest" "d", text "evidenceDigest" "d", text "revocationStateAtExecution" "active",
    (ascii "notes", .array [.object [text "apiKey" "k"]]), (ascii "password", .object [])]

/-- A receipt that is accepted with secret keys. -/
theorem receipt_accepted_with_secrets :
    validateReceipt documentRuntime receiptWithSecrets = .ok () ∧
      hasSecretKey receiptWithSecrets = true := by
  decide

end GhostBridge.ProtocolCore

/-!
## The runtime of an agent
-/

namespace GhostBridge.ProtocolCore

open Ecma

/-- The functions of an agent's runtime that are not part of the repository. -/
structure AgentRuntime extends Runtime where
  /-- `new Date(milliseconds).toISOString()`; none when it throws. -/
  isoTime : Int → Option Text
  dateParse_isoTime : ∀ milliseconds text, isoTime milliseconds = some text →
    dateParse text = some milliseconds
  /-- `ajv.compile(schema)`, which tells valid values; none when it throws. -/
  compileSchema : Value → Option (Value → Bool)

end GhostBridge.ProtocolCore
