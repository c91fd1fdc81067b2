import GhostBridge.DelegatedData.SafeClone
import GhostBridge.Ecma.NameOrder
import GhostBridge.Ecma.Value

/-!
# Minimization by a schema

`applyMinimization` keeps of a payload the members that a schema declares, without the optional
ones that are null or empty.
-/

namespace GhostBridge.DelegatedData

open Ecma

inductive SchemaType where
  | null
  | boolean
  | number
  | integer
  | string
  | array
  | object
deriving DecidableEq

/-- A JSON Schema built from `type`, `properties`, `required` and `items`. No type allows every
type; an absent list of properties or required names is an empty one. -/
inductive Schema where
  | mk (types : Option (List SchemaType)) (properties : List (Text × Schema))
    (required : List Text) (items : Option Schema)

namespace Schema

def types : Schema → Option (List SchemaType)
  | mk types _ _ _ => types

def properties : Schema → List (Text × Schema)
  | mk _ properties _ _ => properties

def required : Schema → List Text
  | mk _ _ required _ => required

def items : Schema → Option Schema
  | mk _ _ _ items => items

/-- `{}`. -/
def empty : Schema := mk none [] [] none

/-- `Object.hasOwn(properties, key)` and `properties[key]`. -/
def property (schema : Schema) (key : Text) : Option Schema := schema.properties.lookup key

/-- `schema.items || {}`. -/
def itemSchema (schema : Schema) : Schema := schema.items.getD empty

end Schema

def hasType (value : Value) : SchemaType → Bool
  | .null => match value with | .null => true | _ => false
  | .boolean => match value with | .bool _ => true | _ => false
  | .number => match value with | .number n => isFinite n | _ => false
  | .integer => value.integer?.isSome
  | .string => value.isString
  | .array => value.isArray
  | .object => match value with | .object _ => true | _ => false

def hasSchemaType (schema : Schema) (value : Value) : Bool :=
  match schema.types with
  | none => true
  | some types => types.any (hasType value)

def hasMember (members : List (Text × Value)) (key : Text) : Bool :=
  (members.lookup key).any fun value => !value.isUndefined

mutual
def validates (schema : Schema) : Value → Bool
  | .array items => hasSchemaType schema (.array items) && validatesItems schema.itemSchema items
  | .object members =>
    hasSchemaType schema (.object members) && schema.required.all (hasMember members) &&
      validatesMembers schema members
  | value => hasSchemaType schema value
def validatesItems (schema : Schema) : List Value → Bool
  | [] => true
  | item :: items => validates schema item && validatesItems schema items
def validatesMembers (schema : Schema) : List (Text × Value) → Bool
  | [] => true
  | (key, value) :: members =>
    (match schema.property key with
      | none => true
      | some sub => value.isUndefined || validates sub value) && validatesMembers schema members
end

structure MinimizationOptions where
  limits : Limits
  removeOptional : Bool

/-- `emptyObject || emptyArray`. -/
def isEmptyValue : Value → Bool
  | .array items => items.isEmpty
  | .object members => members.isEmpty
  | _ => false

def isNullValue : Value → Bool
  | .null => true
  | _ => false

def isLeftOut (options : MinimizationOptions) (schema : Schema) (key : Text) (minimized : Value) :
    Bool :=
  (isNullValue minimized || isEmptyValue minimized || options.removeOptional) &&
    !schema.required.contains key

mutual
def minimizeBySchema (options : MinimizationOptions) (schema : Schema) : Value → Value
  | .array items =>
    .array ((minimizeItems options schema.itemSchema options.limits.maximumArrayItems items).filter
      fun item => !item.isUndefined)
  | .object members =>
    .object ((Reordering.byName.order (minimizeMembers options schema members)).filterMap fun m =>
      m.2.map (m.1, ·))
  | .string text => .string (text.take options.limits.maximumStringLength)
  | value => value
def minimizeItems (options : MinimizationOptions) (schema : Schema) : ℕ → List Value → List Value
  | _, [] => []
  | 0, _ => []
  | room + 1, item :: items =>
    minimizeBySchema options schema item :: minimizeItems options schema room items
def minimizeMembers (options : MinimizationOptions) (schema : Schema) :
    List (Text × Value) → List (Text × Option Value)
  | [] => []
  | (key, value) :: members =>
    (key,
      match schema.property key with
      | none => none
      | some sub =>
        if dangerousSegment key then none
        else
          let minimized := minimizeBySchema options sub value
          if isLeftOut options schema key minimized then none else some minimized) ::
      minimizeMembers options schema members
end

mutual
def countFields : Value → ℕ
  | .array items => countItems items
  | .object members => countMembers members
  | _ => 0
def countItems : List Value → ℕ
  | [] => 0
  | item :: items => countFields item + countItems items
def countMembers : List (Text × Value) → ℕ
  | [] => 0
  | (_, value) :: members => 1 + countFields value + countMembers members
end

def Limits.options (limits : Limits) : LimitOptions where
  maximumPayloadBytes := some limits.maximumPayloadBytes
  maximumArrayItems := some limits.maximumArrayItems
  maximumStringLength := some limits.maximumStringLength
  maximumObjectDepth := some limits.maximumObjectDepth

/-- `rules.some((rule) => rule?.operation === 'remove_optional')`. -/
def removesOptional (rules : List Value) : Bool :=
  rules.any fun rule =>
    (rule.field (ascii "operation")).strictEq (.string (ascii "remove_optional"))

structure Minimized where
  payload : Value
  removedFieldCount : ℕ

def applyMinimization (payloadInput : Value) (schema : Option Schema) (rules : List Value)
    (limits : LimitOptions) : Attempt Minimized := do
  let safeLimits := normalizedLimits limits
  let payload ← safeClone payloadInput safeLimits.options
  let minimized :=
    minimizeBySchema ⟨safeLimits, removesOptional rules⟩ (schema.getD .empty) payload
  let safe ← safeClone minimized safeLimits.options
  return ⟨safe, countFields payload - countFields safe⟩

end GhostBridge.DelegatedData
