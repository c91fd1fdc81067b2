import GhostBridge.Delegation.Error
import GhostBridge.Ecma.Numeric
import GhostBridge.Ecma.Objects
import GhostBridge.Ecma.Outcome
import GhostBridge.Ecma.Positions

/-!
# Paths into delegated data

Paths name nested members.
-/

namespace GhostBridge.DelegatedData

open Ecma Delegation

structure Issue where
  path : Text
  code : String
  message : String
deriving DecidableEq

inductive Failure where
  | data (error : DataError)
  /-- The `validationError` of a contract. -/
  | invalid (code message : String) (details : List Issue)
  /-- The TypeError of the runtime, on a value that has no primitive form. -/
  | typeError
deriving DecidableEq

abbrev Attempt (α : Type) := Except Failure α

def failure (code message : String) (path : Text := ascii "$") : Failure :=
  .data (dataError code message path)

/-- `String(value)`. -/
def textOf (value : Value) : Attempt Text := orThrow .typeError value.toText?

/-- `Number(value)`. -/
def numberOf (value : Value) : Attempt Number := orThrow .typeError value.toNumber?

namespace InterAgentLimits

def maximumArrayItems : Nat := 1000
def maximumStringLength : Nat := 100000
def maximumObjectDepth : Nat := 20
def maximumPayloadBytes : Nat := 1000000
def maximumRules : Nat := 100
def maximumPathDepth : Nat := 20

end InterAgentLimits

def isLetter (u : UInt16) : Bool := (0x41 ≤ u && u ≤ 0x5a) || (0x61 ≤ u && u ≤ 0x7a)

/-- `SAFE_SEGMENT`. -/
def isSafeSegment : Text → Bool
  | [] => false
  | u :: rest =>
    isLetter u && rest.length ≤ 127 &&
      rest.all fun v => isLetter v || isDigit v || v == 0x5f || v == 0x2d

def dangerousKeys : List Text :=
  [ascii "__proto__", ascii "prototype", ascii "constructor", ascii "process", ascii "global",
    ascii "globalThis", ascii "require", ascii "module", ascii "exports"]

def hiddenFields : List Text :=
  [ascii "chainOfThought", ascii "chain_of_thought", ascii "reasoningTrace",
    ascii "hiddenReasoning", ascii "systemPrompt", ascii "internalPrompt", ascii "memoryDump",
    ascii "privateMemory", ascii "runtimeCredential", ascii "authorization", ascii "apiKey",
    ascii "accessToken", ascii "credential", ascii "credentials", ascii "providerKey",
    ascii "installKey", ascii "encryptedDelegatedCredential", ascii "sourceCode",
    ascii "privatePolicy"]

def dangerousSegment (segment : Text) : Bool :=
  dangerousKeys.contains segment || hiddenFields.contains segment

/-- `text.replace(/^\$\.?/, '')`. -/
def stripRoot : Text → Text
  | 0x24 :: 0x2e :: rest => rest
  | 0x24 :: rest => rest
  | text => text

/-- `text.split('.').filter(Boolean)`. -/
def splitPath (text : Text) : List Text := (text.splitOn 0x2e).filter (· ≠ [])

def normalizedSegments (text : Text) : List Text := splitPath (stripRoot text.trimmed)

def mayNotName (allowHidden : Bool) (segment : Text) : Bool :=
  !isSafeSegment segment || dangerousKeys.contains segment ||
    (!allowHidden && hiddenFields.contains segment)

def pathSegments (path : Value) (allowHidden : Bool := false) : Attempt (List Text) := do
  let text ← textOf (path.orElse (.string []))
  let segments := normalizedSegments text
  throwWhen
    (segments.isEmpty || InterAgentLimits.maximumPathDepth < segments.length ||
      segments.any (mayNotName allowHidden))
    (failure "DATA_CONTRACT_MAPPING_INVALID" "A protected or invalid data path was rejected."
      (if path.isTruthy then text else ascii "$"))
  return segments

def ownMember (value : Value) (segment : Text) : Option Value :=
  match value with
  | .object members => (members.lookup segment).filter fun v => !v.isUndefined
  | .array items => (arrayIndex? segment).bind fun index => items[index]?.filter fun v => !v.isUndefined
  | _ => none

def readOwn (source : Value) : List Text → Option Value
  | [] => some source
  | segment :: segments => (ownMember source segment).bind fun v => readOwn v segments

def pathConflict (segments : List Text) : Failure :=
  failure "DATA_CONTRACT_MAPPING_INVALID" "Mapping paths conflict." ([0x2e].intercalate segments)

/-- The members of an object after the assignment; `before` leads to the object. -/
def assignMembers (before : List Text) (members : List (Text × Value)) :
    List Text → Value → Attempt (List (Text × Value))
  | [], _ => return members
  | [segment], value => return defineMember members segment value
  | segment :: segments, value => do
    let before := before ++ [segment]
    let child ←
      match members.lookup segment with
      | none => assignMembers before [] segments value
      | some (.object child) => assignMembers before child segments value
      | some _ => throw (pathConflict before)
    return defineMember members segment (.object child)

def assignSegments (target : Value) (segments : List Text) (value : Value) : Attempt Value :=
  match target with
  | .object members => return .object (← assignMembers [] members segments value)
  | .array items => return .array items
  | target =>
    match segments with
    | [] => return target
    | segment :: rest => do
      throwWhen target.isNullish .typeError
      throwWhen (!rest.isEmpty) (pathConflict [segment])
      return target

def deleteSegments (target : Value) : List Text → Value
  | [] => target
  | [segment] =>
    match target with
    | .object members => .object (members.filter fun m => m.1 ≠ segment)
    | target => target
  | segment :: segments =>
    match target with
    | .object members =>
      match members.lookup segment with
      | some child => .object (defineMember members segment (deleteSegments child segments))
      | none => .object members
    | target => target

/-- `replacePath(target, path, transform)`: the target after it and whether the path was there. The
transform gives nothing to have the path deleted. -/
def replacePath (target path : Value) (transform : Value → Attempt (Option Value)) :
    Attempt (Value × Bool) := do
  let segments ← pathSegments path
  match readOwn target segments with
  | none => return (target, false)
  | some value =>
    match ← transform value with
    | none => return (deleteSegments target segments, true)
    | some next => return (← assignSegments target segments next, true)

end GhostBridge.DelegatedData
