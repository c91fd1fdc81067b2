import GhostBridge.Trust.PlainData

/-!
# The host and the options of verification

What the package takes from its runtime, and the options its callers pass down.
-/

namespace GhostBridge.Trust

open Ecma

/-- The functions of the runtime that are not part of the repository. -/
structure Host where
  /-- `Date.parse` of a text; none is `NaN`. -/
  dateParse : Text → Option Int
  /-- `Date.now()`. -/
  dateNow : Int
  toUpperCase : Text → Text
  PublicKey : Type
  /-- `crypto.createPublicKey({ key, format: 'jwk' })`; none when it throws. -/
  createPublicKey : Value → Option PublicKey
  /-- `crypto.verify(null, data, key, signature)`. -/
  verify : PublicKey → Bytes → Bytes → Bool

/-- The options that the validation of a key set reads. -/
structure KeyOptions where
  maximumBytes : Option Nat := none
  maximumKeys : Option Nat := none
  allowedAlgorithms : Option (List Text) := none
  productionMode : Bool := false

/-- The options object that the verifying functions hand to each other. -/
structure VerifyOptions extends KeyOptions where
  maximumProofBytes : Option Nat := none
  maximumPayloadBytes : Option Nat := none
  purpose : Value := .undefined
  issuedAt : Value := .undefined
  historical : Bool := false
  expectedIssuer : Value := .undefined
  expectedAudience : Value := .undefined
  clock : Option Int := none
  clockSkewMs : Option Int := none
  requireFutureExpiry : Option Bool := none

def clockValue (host : Host) (clock : Option Int) : Int := clock.getD host.dateNow

def boundedInteger (value : Option Int) (minimum maximum fallback : Int) : Int :=
  match value with
  | some n => max minimum (min maximum n)
  | none => fallback

/-- `Date.parse(value)`, which converts to text first. -/
def parseDate (host : Host) (value : Value) : Checked (Option Int) := do
  let text ← orThrow .runtimeError value.toText?
  pure (host.dateParse text)

/-- `a < b`, false when either is `NaN`. -/
def dateLt : Option Int → Option Int → Bool
  | some a, some b => a < b
  | _, _ => false

/-- `a >= b`, false when either is `NaN`. -/
def dateGe : Option Int → Option Int → Bool
  | some a, some b => b ≤ a
  | _, _ => false

def validateTimestamp (host : Host) (value : Value) (code : TrustErrorCode) : Checked Int := do
  let time ← parseDate host value
  orThrow (trustError code "A trust-object timestamp is invalid.") time

/-- `value === undefined || value === null || value === ''`. -/
def isMissing : Value → Bool
  | .undefined => true
  | .null => true
  | .string s => s.isEmpty
  | _ => false

def isRecord : Value → Bool
  | .object _ => true
  | _ => false

def requireFields (document : Value) (fields : List Text) (code : TrustErrorCode) :
    Checked Unit := do
  throwWhen (!isRecord document) (trustError code "The trust document is malformed.")
  let missing := fields.filter fun field => isMissing (document.field field)
  throwWhen (!missing.isEmpty)
    (.trust ⟨code, "The trust document is missing required fields.", false, missing⟩)

/-- `Array.isArray(value) ? value : [value]`. -/
def asList : Value → List Value
  | .array items => items
  | v => [v]

def includes (items : List Value) (value : Value) : Bool := items.any (·.sameValueZero value)

theorem requireFields_ok {document : Value} {fields : List Text} {code : TrustErrorCode} :
    requireFields document fields code = .ok () ↔
      isRecord document = true ∧ ∀ field ∈ fields, isMissing (document.field field) = false := by
  simp [requireFields]

theorem validateTimestamp_ok {host : Host} {value : Value} {code : TrustErrorCode} {time : Int} :
    validateTimestamp host value code = .ok time ↔ parseDate host value = .ok (some time) := by
  simp [validateTimestamp]

end GhostBridge.Trust

/-!
## Time windows and audiences
-/

namespace GhostBridge.Trust

open Ecma

/-- `boundedInteger(options.clockSkewMs, 0, 300_000, DEFAULT_TRUST_LIMITS.clockSkewMs)`. -/
def clockSkew (clockSkewMs : Option Int) : Int :=
  boundedInteger clockSkewMs 0 300000 DefaultTrustLimits.clockSkewMs

/-- The member, when present, is a time not after `latest`. -/
def notAfter (host : Host) (value : Value) (latest : Int) (message : String) : Checked Unit :=
  stepWhen value.isTruthy do
    let time ← validateTimestamp host value .messageNotYetValid
    throwWhen (latest < time) (trustError .messageNotYetValid message)

def validateTimeWindow (host : Host) (document : Value) (now : Int) (clockSkewMs : Option Int)
    (requireFutureExpiry : Option Bool) : Checked Unit := do
  let skew := clockSkew clockSkewMs
  notAfter host (document.field (ascii "issuedAt")) (now + skew)
    "The signed object was issued too far in the future."
  notAfter host (document.field (ascii "notBefore")) (now + skew)
    "The signed object is not yet valid."
  let expiry := document.field (ascii "expiresAt")
  throwWhen (requireFutureExpiry == some true && !expiry.isTruthy)
    (trustError .messageExpired "The signed object is missing its required expiration.")
  stepWhen (expiry.isTruthy && requireFutureExpiry != some false) do
    let expiresAt ← validateTimestamp host expiry .messageExpired
    throwWhen (expiresAt ≤ now - skew)
      (trustError .messageExpired "The signed object has expired.")

def issuanceMember (payload : Value) : Value :=
  ((payload.field (ascii "issuedAt")).orElse (payload.field (ascii "generatedAt"))).orElse
    (payload.field (ascii "completedAt"))

def signedIssuanceTime (host : Host) (payload : Value) : Checked Value := do
  let value := issuanceMember payload
  throwWhen (!value.isTruthy)
    (trustError .proofInvalid "A signed object must contain an authoritative issuance timestamp.")
  let _ ← validateTimestamp host value .proofInvalid
  pure value

def validateAudience (actual expected : Value) : Checked Unit := do
  throwWhen (!actual.isTruthy)
    (trustError .audienceMismatch "The signed object is missing its required audience.")
  let actualValues := asList actual
  throwWhen (includes actualValues (.string (ascii "*")) ||
      !(asList expected).all (includes actualValues))
    (trustError .audienceMismatch
      "The signed object audience does not match the intended recipient.")

theorem signedIssuanceTime_ok {host : Host} {payload value : Value}
    (h : signedIssuanceTime host payload = .ok value) :
    value = issuanceMember payload ∧ value.isTruthy = true ∧
      ∃ time, parseDate host value = .ok (some time) := by
  simp only [signedIssuanceTime, bind_ok, throwWhen_ok, exists_unit, pure_ok,
    validateTimestamp_ok, Bool.not_eq_false'] at h
  obtain ⟨htruthy, time, htime, rfl⟩ := h
  exact ⟨rfl, htruthy, time, htime⟩

end GhostBridge.Trust
