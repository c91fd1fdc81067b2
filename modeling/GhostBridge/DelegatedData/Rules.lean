import GhostBridge.DelegatedData.SafeClone
import GhostBridge.Ecma.Sha256
import GhostBridge.Ecma.Value

/-!
# Rules on delegated data

A transformation or a redaction is data too.
-/

namespace GhostBridge.DelegatedData

open Ecma Delegation

structure Runtime where
  hashingSecret : Text
  /-- `new Date(value).toISOString()`; nothing for a date that is not one. -/
  isoDate : Value → Option Text

inductive RuleKind where
  | transformation
  | redaction
deriving DecidableEq

namespace RuleKind

/-- `DATA_CONTRACT_${kind}_INVALID`. -/
def code : RuleKind → String
  | transformation => "DATA_CONTRACT_TRANSFORMATION_INVALID"
  | redaction => "DATA_CONTRACT_REDACTION_INVALID"

/-- `kind.toLowerCase()`. -/
def lowerName : RuleKind → String
  | transformation => "transformation"
  | redaction => "redaction"

end RuleKind

/-- `/^[A-Za-z][A-Za-z0-9._-]{0,127}$/`. -/
def isRuleId : Text → Bool
  | [] => false
  | u :: rest =>
    isLetter u && rest.length ≤ 127 &&
      rest.all fun v => isLetter v || isDigit v || v == 0x2e || v == 0x5f || v == 0x2d

def isPlainObject : Value → Bool
  | .object _ => true
  | _ => false

def ruleLimits : LimitOptions where
  maximumObjectDepth := some 5
  maximumArrayItems := some 100
  maximumStringLength := some 2000
  maximumPayloadBytes := some 50000

def rulePath (list : String) (index : Nat) (field : String := "") : Text :=
  ascii list ++ 0x5b :: decimalDigits index ++ 0x5d :: ascii field

def normalizeRule (ruleInput : Value) (index : Nat) (kind : RuleKind) : Attempt Value := do
  throwWhen (!isPlainObject ruleInput)
    (failure kind.code (kind.lowerName ++ " rule must be an object.") (rulePath "$rules" index))
  let rule ← safeClone ruleInput ruleLimits
  let noRuleId := failure kind.code "Every rule requires a safe ruleId." (rulePath "$rules" index ".ruleId")
  let ruleId := rule.field (ascii "ruleId")
  throwWhen (!ruleId.isTruthy) noRuleId
  throwWhen (!isRuleId (← textOf ruleId)) noRuleId
  return rule

mutual
def canonicalize : Value → Attempt Text
  | .null => return ascii "null"
  | .undefined => return ascii "undefined"
  | .string s => return Json.quote s
  | .bool b => return if b then ascii "true" else ascii "false"
  | .number (.finite x) => return x.toText
  | .number _ => throw .typeError
  | .array items => return 0x5b :: [0x2c].intercalate (← canonicalItems items) ++ [0x5d]
  | .object members => do
    let texts ← ((Reordering.byName.order (canonicalMembers members)).filterMap Prod.snd).mapM id
    return 0x7b :: [0x2c].intercalate texts ++ [0x7d]
def canonicalItems : List Value → Attempt (List Text)
  | [] => return []
  | item :: items => return (← canonicalize item) :: (← canonicalItems items)
def canonicalMembers : List (Text × Value) → List (Text × Option (Attempt Text))
  | [] => []
  | (key, value) :: members =>
    (key,
      if value.isUndefined then none
      else some do return Json.quote key ++ 0x3a :: (← canonicalize value)) ::
      canonicalMembers members
end

/-- `ghost-bridge:${purpose}:v1\0`. -/
def digestPrefix (purpose : Text) : Text :=
  ascii "ghost-bridge:" ++ purpose ++ ascii ":v1" ++ [0]

def secureDigest (runtime : Runtime) (purpose value : Text) : Text :=
  ascii "hmac-sha256:" ++ hexText (hmacSha256 (Utf8.encode runtime.hashingSecret)
    (Utf8.encode (digestPrefix purpose) ++ Utf8.encode value))

def hashedText : Value → Attempt Text
  | .string s => return s
  | value => canonicalize value

def digestText (runtime : Runtime) (purpose : Text) (pseudonymized : Bool) (text : Text) : Text :=
  if pseudonymized then secureDigest runtime (ascii "delegation-pseudonym:" ++ purpose) text
  else ascii "sha256:" ++ sha256Hex (digestPrefix purpose ++ text)

def hashValue (runtime : Runtime) (value : Value) (purpose : Text) (pseudonymized : Bool) :
    Attempt Text := do
  let text ← hashedText value
  throwWhen (text.length < 8)
    (failure "DATA_CONTRACT_TRANSFORMATION_INVALID"
      "Low-entropy values cannot be hashed for delegated metadata." (ascii "$transformation"))
  return digestText runtime purpose pseudonymized text

end GhostBridge.DelegatedData

/-!
## Redactions

The rules of a contract run one after the other on the payload. Each replaces or removes what it
finds at its path.
-/

namespace GhostBridge.DelegatedData

open Ecma Delegation

inductive RedactionAction where
  | remove
  | replace
  | mask
  | truncate
  | sha256
  | pseudonymize
deriving DecidableEq

namespace RedactionAction

def all : List RedactionAction := [remove, replace, mask, truncate, sha256, pseudonymize]

def text : RedactionAction → Text
  | remove => ascii "remove"
  | replace => ascii "replace"
  | mask => ascii "mask"
  | truncate => ascii "truncate"
  | sha256 => ascii "sha256"
  | pseudonymize => ascii "pseudonymize"

/-- The action that a rule names, when it is in `REDACTION_ACTIONS`. -/
def ofValue? (value : Value) : Option RedactionAction :=
  all.find? fun action => value = .string action.text

end RedactionAction

/-- Where the visible part of a masked text starts, as `text.slice` is asked for it. -/
def maskCut (length : Nat) (visibleSuffix : Number) : Number :=
  let suffix := Number.max (.ofNat 0)
    (Number.min (Number.min visibleSuffix (.ofNat 16)) (.ofNat length))
  (Number.ofNat length).sub suffix

def maskFrom (text : Text) (cut : Number) : Text :=
  List.replicate (Number.min (.ofNat 12) (Number.max (.ofNat 4) cut)).wholePart.toNat 0x2a ++
    text.drop (cut.sliceIndex text.length)

def visibleUnits (visibleSuffix : Value) : Attempt Number :=
  let visibleSuffix := if visibleSuffix.isUndefined then .number (.ofNat 4) else visibleSuffix
  numberOf (visibleSuffix.orElse (.number (.ofNat 0)))

def mask (value visibleSuffix : Value) : Attempt Text := do
  let text ← textOf value
  return maskFrom text (maskCut text.length (← visibleUnits visibleSuffix))

def replacementText (rule : Value) : Attempt Text :=
  return (← textOf ((rule.field (ascii "marker")).orElse (.string (ascii "[REDACTED]")))).take 100

def truncatedLength (rule : Value) (length : Nat) : Attempt Nat := do
  let maximum ← numberOf ((rule.field (ascii "maximumLength")).orElse (.number (.ofNat 0)))
  return (Number.max (.ofNat 0) (Number.min maximum (.ofNat 1000))).sliceIndex length

def redactedValue (runtime : Runtime) (rule : Value) (action : RedactionAction) (value : Value) :
    Attempt (Option Value) := do
  let purpose ← textOf (rule.field (ascii "ruleId"))
  match action with
  | .remove => return none
  | .replace => return some (.string (← replacementText rule))
  | .mask => return some (.string (← mask value (rule.field (ascii "visibleSuffix"))))
  | .truncate => do
    let text ← textOf value
    return some (.string (text.take (← truncatedLength rule text.length)))
  | .sha256 => return some (.string (← hashValue runtime value purpose false))
  | .pseudonymize => return some (.string (← hashValue runtime value purpose true))

def applyRedaction (runtime : Runtime) (raw : Value) (index : Nat) (payload : Value) :
    Attempt (Value × Bool) := do
  let rule ← normalizeRule raw index .redaction
  let action ← orThrow
    (failure RuleKind.redaction.code "Redaction action is not approved."
      (rulePath "$redactionRules" index ".action"))
    (RedactionAction.ofValue? (rule.field (ascii "action")))
  replacePath payload (rule.field (ascii "path")) (redactedValue runtime rule action)

def runRedactions (runtime : Runtime) :
    Nat → List Value → Value → Attempt (Value × Nat)
  | _, [], payload => return (payload, 0)
  | index, raw :: rules, payload => do
    let (payload, changed) ← applyRedaction runtime raw index payload
    let (payload, count) ← runRedactions runtime (index + 1) rules payload
    return (payload, count + changed.toNat)

structure Redacted where
  payload : Value
  redactedFieldCount : Nat
deriving DecidableEq

def applyRedactions (runtime : Runtime) (payloadInput : Value) (rules : List Value)
    (limits : LimitOptions) : Attempt Redacted := do
  throwWhen (InterAgentLimits.maximumRules < rules.length)
    (failure RuleKind.redaction.code "Redaction rule limit exceeded." (ascii "$redactionRules"))
  let payload ← safeClone payloadInput limits
  let (payload, redactedFieldCount) ← runRedactions runtime 0 rules payload
  return { payload := ← safeClone payload limits, redactedFieldCount }

end GhostBridge.DelegatedData

/-!
## The operations of transformation rules
-/

namespace GhostBridge.DelegatedData

open Ecma Delegation

inductive TransformationOperation where
  | select
  | rename
  | literal
  | truncateString
  | sliceArray
  | normalizeDate
  | mapEnum
  | clampNumber
  | normalizeBoolean
  | wrapObject
  | flattenObject
  | sha256
  | pseudonymize
deriving DecidableEq

namespace TransformationOperation

def all : List TransformationOperation :=
  [select, rename, literal, truncateString, sliceArray, normalizeDate, mapEnum, clampNumber,
    normalizeBoolean, wrapObject, flattenObject, sha256, pseudonymize]

def text : TransformationOperation → Text
  | select => ascii "select"
  | rename => ascii "rename"
  | literal => ascii "literal"
  | truncateString => ascii "truncate_string"
  | sliceArray => ascii "slice_array"
  | normalizeDate => ascii "normalize_date"
  | mapEnum => ascii "map_enum"
  | clampNumber => ascii "clamp_number"
  | normalizeBoolean => ascii "normalize_boolean"
  | wrapObject => ascii "wrap_object"
  | flattenObject => ascii "flatten_object"
  | sha256 => ascii "sha256"
  | pseudonymize => ascii "pseudonymize"

/-- The operation that a rule names, when it is in `TRANSFORMATION_OPERATIONS`. -/
def ofValue? (value : Value) : Option TransformationOperation :=
  all.find? fun operation => value = .string operation.text

end TransformationOperation

end GhostBridge.DelegatedData

/-!
## The rules of a contract

What a contract may say about transformations and redactions before any of them runs.
-/

namespace GhostBridge.DelegatedData

open Ecma Delegation

def validationError (code message : String) (details : List Issue := []) : Failure :=
  .invalid code message details

def issue (path : Text) (code message : String) : Issue := ⟨path, code, message⟩

/-- `Number.isInteger(n)` within bounds. -/
def isIntegerWithin (n : Number) (low high : Int) : Bool :=
  match (Value.number n).integer? with
  | some m => low ≤ m && m ≤ high
  | none => false

def contractRuleLimits : LimitOptions where
  maximumPayloadBytes := some 50000
  maximumArrayItems := some 100
  maximumStringLength := some 2000
  maximumObjectDepth := some 6

/-- What a rule does, under the names that both kinds of rules use. -/
inductive RuleOperation where
  | transform (operation : TransformationOperation)
  | redact (action : RedactionAction)
deriving DecidableEq

def RuleOperation.ofRule? (kind : RuleKind) (rule : Value) : Option RuleOperation :=
  match kind with
  | .transformation =>
    (TransformationOperation.ofValue? (rule.field (ascii "operation"))).map .transform
  | .redaction => (RedactionAction.ofValue? (rule.field (ascii "action"))).map .redact

/-- `${kind.toLowerCase()}Rules[${index}]`. -/
def ruleListPath (kind : RuleKind) (index : Nat) (field : String := "") : Text :=
  rulePath (kind.lowerName ++ "Rules") index field

def checkRuleParameters (kind : RuleKind) (rule : Value) (operation : RuleOperation) : Attempt Unit := do
  stepWhen (operation ≠ .transform .literal) do
    let _ ← pathSegments (rule.field (ascii "path"))
    return ()
  stepWhen (operation = .transform .literal || operation = .transform .rename) do
    let _ ← pathSegments (rule.field (ascii "targetPath"))
    return ()
  stepWhen (operation = .transform .sliceArray) do
    let maximum ← numberOf (rule.field (ascii "maximumItems"))
    throwWhen (!isIntegerWithin maximum 0 InterAgentLimits.maximumArrayItems)
      (validationError "DATA_CONTRACT_TRANSFORMATION_INVALID" "Array slice bound is invalid.")
  stepWhen (operation = .transform .truncateString || operation = .redact .truncate) do
    let maximum ← numberOf (rule.field (ascii "maximumLength"))
    throwWhen (!isIntegerWithin maximum 0 InterAgentLimits.maximumStringLength)
      (validationError kind.code "String bound is invalid.")
  stepWhen (operation = .transform .clampNumber) do
    let minimum ← numberOf (rule.field (ascii "minimum"))
    let maximum ← numberOf (rule.field (ascii "maximum"))
    throwWhen (!isFinite minimum || !isFinite maximum || !minimum.le maximum)
      (validationError "DATA_CONTRACT_TRANSFORMATION_INVALID" "Numeric clamp bounds are invalid.")

def normalizeContractRule (kind : RuleKind) (inputRule : Value) (index : Nat)
    (identifiers : List Value) : Attempt Value := do
  let rule ← safeClone inputRule contractRuleLimits
  let invalidId := validationError kind.code "Rules require unique safe identifiers."
    [issue (ruleListPath kind index ".ruleId") "RULE_ID_INVALID"
      "Rule identifier is missing, invalid, or duplicated."]
  throwWhen (!isPlainObject rule) invalidId
  let ruleId := rule.field (ascii "ruleId")
  throwWhen (!isRuleId (← textOf (ruleId.orElse (.string [])))) invalidId
  throwWhen (identifiers.any ruleId.sameValueZero) invalidId
  let operation ← orThrow
    (validationError kind.code "Rule operation is not approved."
      [issue (ruleListPath kind index) "RULE_OPERATION_INVALID"
        "Arbitrary code, templates, regular expressions, and external calls are forbidden."])
    (RuleOperation.ofRule? kind rule)
  checkRuleParameters kind rule operation
  return rule

def normalizeRuleList (kind : RuleKind) : Nat → List Value → List Value → Attempt (List Value)
  | _, _, [] => return []
  | index, identifiers, inputRule :: rules => do
    let rule ← normalizeContractRule kind inputRule index identifiers
    let rest ← normalizeRuleList kind (index + 1) (rule.field (ascii "ruleId") :: identifiers) rules
    return rule :: rest

def itemsOf : Value → List Value
  | .array items => items
  | _ => []

def normalizeRules (input : Value) (kind : RuleKind) : Attempt (List Value) := do
  let rules := itemsOf input
  throwWhen (InterAgentLimits.maximumRules < rules.length)
    (validationError kind.code (kind.lowerName ++ " rule limit exceeded."))
  normalizeRuleList kind 0 [] rules

end GhostBridge.DelegatedData
