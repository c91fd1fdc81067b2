import GhostBridge.Ecma.Numeric
import GhostBridge.Ecma.Outcome
import GhostBridge.Ecma.Text

/-!
# Data of policies

Plain data with dates, as attributes and conditions hold them.
-/

namespace GhostBridge.Policies

open Ecma

inductive Datum where
  | undefined
  | null
  | bool (b : Bool)
  | number (n : Number)
  | string (s : Text)
  /-- A date with its time value, which an invalid date lacks. -/
  | date (time : Option ℤ)
  | array (items : List Datum)
  | object (members : List (Text × Datum))

structure Calendar where
  parse : Text → Option ℤ
  write : Option ℤ → Text

inductive Failure where
  | typeError
  /-- `Unsupported comparison operator.` -/
  | unsupportedOperator
deriving DecidableEq

abbrev Attempt := Except Failure

namespace Datum

/-- `value?.[key]` of a name that no prototype has. -/
def field (value : Datum) (key : Text) : Datum :=
  match value with
  | .object members => (members.lookup key).getD .undefined
  | _ => .undefined

def hasOwn (value : Datum) (key : Text) : Bool :=
  match value with
  | .object members => (members.lookup key).isSome
  | _ => false

def isTruthy : Datum → Bool
  | .undefined => false
  | .null => false
  | .bool b => b
  | .number n => (Value.number n).isTruthy
  | .string s => !s.isEmpty
  | _ => true

/-- `a || b`. -/
def orElse (a b : Datum) : Datum := if a.isTruthy then a else b

def isUndefined : Datum → Bool
  | .undefined => true
  | _ => false

def isNullish : Datum → Bool
  | .undefined => true
  | .null => true
  | _ => false

/-- `value && typeof value === 'object' && !Array.isArray(value)`. -/
def isNode : Datum → Bool
  | .date _ => true
  | .object _ => true
  | _ => false

/-- `a === b` of data that share no references. -/
def strictEq : Datum → Datum → Bool
  | .undefined, .undefined => true
  | .null, .null => true
  | .bool a, .bool b => a == b
  | .number a, .number b => a.strictEq b
  | .string a, .string b => a == b
  | _, _ => false

section Conversions

variable (calendar : Calendar)

mutual
/-- `String(value)`. -/
def toText? : Datum → Option Text
  | .undefined => some (ascii "undefined")
  | .null => some (ascii "null")
  | .bool b => some (if b then ascii "true" else ascii "false")
  | .number n => some n.toText
  | .string s => some s
  | .date time => some (calendar.write time)
  | .array items => joinTexts? items
  | .object members =>
    if (members.lookup (ascii "toString")).isSome then none else some (ascii "[object Object]")
/-- `items.join(',')`, where null and undefined are written as nothing. -/
def joinTexts? : List Datum → Option Text
  | [] => some []
  | item :: items => do
    let first ← if item.isNullish then some [] else item.toText?
    let rest ← joinTexts? items
    pure (if items.isEmpty then first else first ++ 0x2c :: rest)
end

def timeClip : Number → Option ℤ
  | .finite x =>
    let time := (Number.finite x).wholePart
    if time.natAbs ≤ 8640000000000000 then some time else none
  | _ => none

/-- `new Date(value).getTime()`, where none is NaN, if the value has a primitive form. -/
def time? : Datum → Option (Option ℤ)
  | .undefined => some none
  | .null => some (some 0)
  | .bool b => some (some b.toNat)
  | .number n => some (timeClip n)
  | .string s => some (calendar.parse s)
  | .date time => some time
  | value => (toText? calendar value).map calendar.parse

inductive Primitive where
  | number (n : Number)
  | string (s : Text)

def numberOfTime : Option ℤ → Number
  | none => .nan
  | some time => .ofDecimal (time < 0) time.natAbs 0

def primitive? : Datum → Option Primitive
  | .undefined => some (.number .nan)
  | .null => some (.number (.finite (.zero false)))
  | .bool b => some (.number (.ofNat b.toNat))
  | .number n => some (.number n)
  | .string s => some (.string s)
  | .date time => some (.number (numberOfTime time))
  | value => (toText? calendar value).map .string

end Conversions

def Primitive.toNumber : Primitive → Number
  | .number n => n
  | .string s => s.toNumber

/-- `a < b`. -/
def Primitive.lessThan : Primitive → Primitive → Bool
  | .string s, .string t => !Text.le t s
  | a, b => a.toNumber.le b.toNumber && !b.toNumber.le a.toNumber

/-- `a <= b`. -/
def Primitive.lessOrEqual : Primitive → Primitive → Bool
  | .string s, .string t => Text.le s t
  | a, b => a.toNumber.le b.toNumber

def isPrintable (calendar : Calendar) (value : Datum) : Bool := (toText? calendar value).isSome

theorem isSome_time? (calendar : Calendar) (value : Datum) :
    (time? calendar value).isSome = value.isPrintable calendar := by
  cases value <;> simp [time?, isPrintable, toText?]

theorem isSome_primitive? (calendar : Calendar) (value : Datum) :
    (primitive? calendar value).isSome = value.isPrintable calendar := by
  cases value <;> simp [primitive?, isPrintable, toText?]

end Datum

end GhostBridge.Policies

/-!
## The attribute registry

The attributes that a condition may ask for, with the operators that each allows.
-/

namespace GhostBridge.Policies

open Ecma

inductive Comparison where
  | equals
  | notEquals
  | in
  | notIn
  | exists
  | notExists
  | lessThan
  | lessThanOrEqual
  | greaterThan
  | greaterThanOrEqual
  | startsWith
  | endsWith
  | contains
deriving DecidableEq

inductive Logical where
  | all
  | any
  | not
deriving DecidableEq

def Comparison.name : Comparison → Text
  | equals => ascii "EQUALS"
  | notEquals => ascii "NOT_EQUALS"
  | .in => ascii "IN"
  | notIn => ascii "NOT_IN"
  | .exists => ascii "EXISTS"
  | notExists => ascii "NOT_EXISTS"
  | lessThan => ascii "LESS_THAN"
  | lessThanOrEqual => ascii "LESS_THAN_OR_EQUAL"
  | greaterThan => ascii "GREATER_THAN"
  | greaterThanOrEqual => ascii "GREATER_THAN_OR_EQUAL"
  | startsWith => ascii "STARTS_WITH"
  | endsWith => ascii "ENDS_WITH"
  | contains => ascii "CONTAINS"

def Logical.name : Logical → Text
  | all => ascii "ALL"
  | any => ascii "ANY"
  | not => ascii "NOT"

def comparisonOperators : List Comparison :=
  [.equals, .notEquals, .in, .notIn, .exists, .notExists, .lessThan, .lessThanOrEqual,
    .greaterThan, .greaterThanOrEqual, .startsWith, .endsWith, .contains]

def logicalOperators : List Logical := [.all, .any, .not]

/-- The comparison of the name, where `COMPARISON.has(operator)`. -/
def comparison? (operator : Text) : Option Comparison :=
  comparisonOperators.find? fun comparison => comparison.name == operator

/-- The logical operator of the name, where `LOGICAL.has(operator)`. -/
def logical? (operator : Text) : Option Logical :=
  logicalOperators.find? fun logical => logical.name == operator

/-- `operator === 'EXISTS' || operator === 'NOT_EXISTS'`. -/
def Comparison.doesNotNeedValue (comparison : Comparison) : Bool :=
  comparison == .exists || comparison == .notExists

inductive ValueType where
  | string
  | enum
  | boolean
  | number
  | date
  | stringArray
deriving DecidableEq

structure AttributeDefinition where
  id : Text
  valueType : ValueType
  allowedOperators : List Comparison
  auditDisplaySafe : Bool

/-- `path.split('.').reduce((current, key) => current?.[key], attributes)`. -/
def AttributeDefinition.resolver (definition : AttributeDefinition) (attributes : Datum) : Datum :=
  (definition.id.splitOn 0x2e).foldl Datum.field attributes

def stringOperators : List Comparison :=
  [.equals, .notEquals, .in, .notIn, .exists, .notExists, .startsWith, .endsWith, .contains]

def enumOperators : List Comparison := [.equals, .notEquals, .in, .notIn, .exists, .notExists]

def orderedOperators : List Comparison :=
  enumOperators ++ [.lessThan, .lessThanOrEqual, .greaterThan, .greaterThanOrEqual]

def arrayOperators : List Comparison :=
  [.equals, .notEquals, .in, .notIn, .exists, .notExists, .contains]

private def hidden (id : String) (valueType : ValueType) (operators : List Comparison) :
    AttributeDefinition :=
  ⟨ascii id, valueType, operators, false⟩

private def displayed (id : String) (valueType : ValueType) (operators : List Comparison) :
    AttributeDefinition :=
  ⟨ascii id, valueType, operators, true⟩

def attributeDefinitions : List AttributeDefinition :=
  [hidden "actor.id" .string stringOperators,
    displayed "actor.type" .enum enumOperators,
    displayed "actor.serviceAccount" .boolean enumOperators,
    hidden "actor.teamIds" .stringArray arrayOperators,
    displayed "actor.roleKeys" .stringArray arrayOperators,
    displayed "organization.id" .string enumOperators,
    displayed "workspace.id" .string enumOperators,
    displayed "workspace.environment" .enum enumOperators,
    displayed "workspace.productionApproved" .boolean enumOperators,
    displayed "resource.type" .string stringOperators,
    hidden "resource.id" .string enumOperators,
    hidden "resource.ownerWorkspaceId" .string enumOperators,
    hidden "request.timestamp" .date orderedOperators,
    displayed "request.weekday" .enum enumOperators,
    displayed "request.hour" .number orderedOperators,
    hidden "request.sourceIp" .string enumOperators,
    displayed "environment.name" .enum enumOperators,
    hidden "capability.id" .string enumOperators,
    displayed "capability.category" .enum enumOperators,
    displayed "capability.classification" .enum enumOperators,
    displayed "capability.sideEffect" .enum enumOperators,
    hidden "connection.id" .string enumOperators,
    displayed "connection.status" .enum enumOperators,
    hidden "passport.id" .string enumOperators,
    displayed "passport.version" .string stringOperators,
    displayed "secret.provider" .enum enumOperators,
    displayed "secret.credentialType" .enum enumOperators,
    displayed "secret.status" .enum enumOperators,
    displayed "secret.healthStatus" .enum enumOperators,
    displayed "binding.purpose" .enum enumOperators,
    displayed "binding.status" .enum enumOperators,
    displayed "orchestration.runStatus" .enum enumOperators,
    displayed "orchestration.nodeStatus" .enum enumOperators,
    displayed "orchestration.failureCategory" .enum enumOperators,
    displayed "orchestration.healthCategory" .enum enumOperators,
    displayed "orchestration.sloStatus" .enum enumOperators,
    displayed "orchestration.alertSeverity" .enum enumOperators,
    displayed "orchestration.operationalAction" .enum enumOperators,
    displayed "orchestration.criticalityCategory" .enum enumOperators,
    displayed "orchestration.classificationCategory" .enum enumOperators,
    displayed "orchestration.trustTier" .enum enumOperators,
    displayed "worker.healthCategory" .enum enumOperators]

/-- `byId.get(id)`. -/
def getAttributeDefinition (id : Text) : Option AttributeDefinition :=
  attributeDefinitions.find? fun definition => definition.id == id

end GhostBridge.Policies
