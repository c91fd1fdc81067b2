import GhostBridge.Policies.Data

/-!
# Conditions of policies

A condition is accepted by one walk over its tree and evaluated by another.
-/

namespace GhostBridge.Policies

open Ecma

namespace PolicyLimits

def maxDepth : ℕ := 8
def maxNodes : ℕ := 100
def maxArrayItems : ℕ := 100
def maxStringLength : ℕ := 2048

end PolicyLimits

section Nodes

variable (calendar : Calendar) (node : Datum)

/-- `String(node?.operator || node?.type || '').trim().toUpperCase()`. -/
def conditionOperator : Attempt Text := do
  let operator := ((node.field (ascii "operator")).orElse (node.field (ascii "type"))).orElse
    (.string [])
  return Text.toUpperCase (Text.trimmed (← orThrow .typeError (operator.toText? calendar)))

/-- `node?.conditions || node?.children`. -/
def conditionChildren : Datum :=
  (node.field (ascii "conditions")).orElse (node.field (ascii "children"))

/-- `node.attribute || node.attributeId`. -/
def nodeAttribute : Datum :=
  (node.field (ascii "attribute")).orElse (node.field (ascii "attributeId"))

end Nodes

theorem sizeOf_field_lt {node : Datum} {key : Text} {items : List Datum}
    (h : node.field key = .array items) : sizeOf items < sizeOf node := by
  cases node with
  | object members =>
    rw [Datum.field] at h
    cases hlookup : members.lookup key with
    | none =>
      rw [hlookup] at h
      cases h
    | some value =>
      rw [hlookup] at h
      have hvalue : value = .array items := h
      subst hvalue
      have hmember : sizeOf items < sizeOf members := by
        clear h
        induction members with
        | nil => cases hlookup
        | cons m members ih =>
          obtain ⟨name, value⟩ := m
          rw [List.lookup_cons] at hlookup
          simp only [List.cons.sizeOf_spec, Prod.mk.sizeOf_spec]
          cases hname : key == name with
          | true =>
            rw [hname] at hlookup
            simp only [Option.some.injEq] at hlookup
            subst hlookup
            simp only [Datum.array.sizeOf_spec]
            omega
          | false =>
            rw [hname] at hlookup
            have hrest := ih hlookup
            omega
      simp only [Datum.object.sizeOf_spec]
      omega
  | _ => cases h

theorem sizeOf_children_lt {node : Datum} {items : List Datum}
    (h : conditionChildren node = .array items) : sizeOf items < sizeOf node := by
  rw [conditionChildren, Datum.orElse] at h
  split at h
  · exact sizeOf_field_lt h
  · exact sizeOf_field_lt h

structure Issue where
  path : Text
  code : String
  message : String

/-- `issues` and `nodes`. -/
structure Walk where
  issues : List Issue
  nodes : ℕ

def Walk.report (walk : Walk) (issues : List Issue) : Walk :=
  { walk with issues := walk.issues ++ issues }

/-- `if (condition) issues.push(issue)`. -/
def issueWhen (condition : Bool) (issue : Issue) : List Issue := if condition then [issue] else []

def typeIssue (calendar : Calendar) (item : Datum) (valueType : ValueType) (path : Text) :
    List Issue :=
  match valueType with
  | .boolean => issueWhen (match item with | .bool _ => false | _ => true)
      ⟨path, "TYPE_MISMATCH", "Expected a boolean value."⟩
  | .number => issueWhen (match item with | .number (.finite _) => false | _ => true)
      ⟨path, "TYPE_MISMATCH", "Expected a finite number value."⟩
  | .date => issueWhen (match item with
      | .string text => (calendar.parse text).isNone
      | .date time => time.isNone
      | _ => true) ⟨path, "TYPE_MISMATCH", "Expected an ISO date value."⟩
  | .string | .enum | .stringArray => issueWhen (match item with | .string _ => false | _ => true)
      ⟨path, "TYPE_MISMATCH", "Expected a string value."⟩

def lengthIssue (item : Datum) (path : Text) : List Issue :=
  match item with
  | .string text => issueWhen (PolicyLimits.maxStringLength < text.length)
      ⟨path, "STRING_LIMIT_EXCEEDED", "Condition string is too long."⟩
  | _ => []

/-- `Array.isArray(value) ? value : [value]`. -/
def comparisonValues : Datum → List Datum
  | .array items => items
  | value => [value]

def validateTypedValue (calendar : Calendar) (value : Datum) (valueType : ValueType)
    (path : Text) : List Issue :=
  (comparisonValues value).flatMap fun item =>
    typeIssue calendar item valueType path ++ lengthIssue item path

def childrenIssues (logical : Logical) (children : List Datum) (path : Text) : List Issue :=
  let path := path ++ ascii ".conditions"
  issueWhen (PolicyLimits.maxArrayItems < children.length)
      ⟨path, "ARRAY_LIMIT_EXCEEDED", "Condition array is too large."⟩ ++
    issueWhen (logical == .not && children.length != 1)
      ⟨path, "NOT_ARITY_INVALID", "NOT requires exactly one child."⟩ ++
    issueWhen (logical != .not && children.length == 0) ⟨path, "EMPTY_LOGICAL_NODE",
      (if logical == .all then "ALL" else "ANY") ++ " requires at least one child."⟩

def comparisonIssues (calendar : Calendar) (node : Datum) (comparison : Comparison) (path : Text) :
    Attempt (List Issue) := do
  let attributeId ← orThrow .typeError (((nodeAttribute node).orElse (.string [])).toText? calendar)
  match getAttributeDefinition (Text.trimmed attributeId) with
  | none => return [⟨path ++ ascii ".attribute", "UNKNOWN_ATTRIBUTE",
      "Condition attribute is not registered."⟩]
  | some definition =>
    let valuePath := path ++ ascii ".value"
    let value := node.field (ascii "value")
    let present := node.hasOwn (ascii "value")
    return issueWhen (!definition.allowedOperators.contains comparison)
        ⟨path ++ ascii ".operator", "OPERATOR_TYPE_MISMATCH",
          "Operator is not allowed for this attribute."⟩ ++
      issueWhen (!comparison.doesNotNeedValue && !present)
        ⟨valuePath, "VALUE_REQUIRED", "Comparison value is required."⟩ ++
      if present then
        (match value with
          | .array items => issueWhen (PolicyLimits.maxArrayItems < items.length)
              ⟨valuePath, "ARRAY_LIMIT_EXCEEDED", "Comparison array is too large."⟩
          | _ => issueWhen (comparison == .in || comparison == .notIn) ⟨valuePath, "ARRAY_REQUIRED",
              (if comparison == .in then "IN" else "NOT_IN") ++ " requires an array value."⟩) ++
          validateTypedValue calendar value definition.valueType valuePath
      else []

/-- `${path}.conditions[${index}]`. -/
def childPath (path : Text) (index : ℕ) : Text :=
  path ++ ascii ".conditions[" ++ decimalDigits index ++ ascii "]"

/-- The walk of the validator; `room` is what the depth leaves of `maxDepth`. -/
def validateNode (calendar : Calendar) : ℕ → Datum → Text → Walk → Attempt Walk
  | room, node, path, walk => do
    let walk : Walk := { walk with nodes := walk.nodes + 1 }
    if PolicyLimits.maxNodes < walk.nodes then
      return walk.report [⟨path, "NODE_LIMIT_EXCEEDED", "Condition has too many nodes."⟩]
    else
      match room with
      | 0 => return walk.report [⟨path, "DEPTH_LIMIT_EXCEEDED", "Condition nesting is too deep."⟩]
      | room + 1 =>
        if !node.isNode then
          return walk.report [⟨path, "INVALID_NODE", "Condition node must be an object."⟩]
        else do
          let operator ← conditionOperator calendar node
          match logical? operator with
          | some logical =>
            match conditionChildren node with
            | .array children =>
              let walk := walk.report (childrenIssues logical children path)
              (children.take PolicyLimits.maxArrayItems).zipIdx.foldlM (fun walk child =>
                validateNode calendar room child.1 (childPath path child.2) walk) walk
            | _ => return walk.report [⟨path ++ ascii ".conditions", "CHILDREN_REQUIRED",
                "Logical conditions require a conditions array."⟩]
          | none =>
            match comparison? operator with
            | none => return walk.report [⟨path ++ ascii ".operator", "UNSUPPORTED_OPERATOR",
                "Condition operator is not supported."⟩]
            | some comparison =>
              return walk.report (← comparisonIssues calendar node comparison path)

def validateConditionTree (calendar : Calendar) (condition : Datum) : Attempt Walk :=
  validateNode calendar PolicyLimits.maxDepth condition (ascii "condition") ⟨[], 0⟩

def Walk.valid (walk : Walk) : Bool := walk.issues.isEmpty

mutual
/-- `same(left, right, valueType)` of a type that is no date. -/
def sameValue : Datum → Datum → Bool
  | .array left, .array right => left.length == right.length && sameItems left right
  | .array _, _ => false
  | left, right => left.strictEq right
def sameItems : List Datum → List Datum → Bool
  | left :: lefts, right :: rights => sameValue left right && sameItems lefts rights
  | _, _ => true
end

section Comparisons

variable (calendar : Calendar)

/-- `comparable(value, 'date')`. -/
def timeOf (value : Datum) : Attempt (Option ℤ) := orThrow .typeError (value.time? calendar)

def same (left right : Datum) (valueType : ValueType) : Attempt Bool := do
  if valueType = .date then
    let time ← timeOf calendar left
    let other ← timeOf calendar right
    return time.any fun t => other.any (t == ·)
  else return sameValue left right

/-- `expected.some((item) => same(actual, item, valueType))`. -/
def sameAsSome (actual : Datum) (valueType : ValueType) : List Datum → Attempt Bool
  | [] => return false
  | item :: items => do
    if ← same calendar actual item valueType then return true
    else sameAsSome actual valueType items

def isAmong (actual expected : Datum) (valueType : ValueType) : Attempt Bool :=
  match expected with
  | .array items => sameAsSome calendar actual valueType items
  | _ => throw .typeError

/-- `left < right` or `left <= right` of what `comparable` makes of the operands. -/
def ordered (left right : Datum) (valueType : ValueType) (times : ℤ → ℤ → Bool)
    (values : Datum.Primitive → Datum.Primitive → Bool) : Attempt Bool := do
  if valueType = .date then
    let time ← timeOf calendar left
    let other ← timeOf calendar right
    return time.any fun t => other.any (times t)
  else
    let value ← orThrow .typeError (left.primitive? calendar)
    let other ← orThrow .typeError (right.primitive? calendar)
    return values value other

def contains (actual expected : Datum) : Bool :=
  match actual, expected with
  | .array items, _ => items.any fun item => sameValue item expected
  | .string text, .string part => decide (part <:+: text)
  | _, _ => false

/-- `typeof actual === 'string' && actual.startsWith(expected)`, and likewise `endsWith`. -/
def textTest (actual expected : Datum) (test : Text → Text → Bool) : Attempt Bool := do
  match actual with
  | .string text => return test (← orThrow .typeError (expected.toText? calendar)) text
  | _ => return false

/-- The comparison of a node whose operator `compare` knows, or else its last line. -/
def compare (comparison : Option Comparison) (actual expected : Datum) (valueType : ValueType) :
    Attempt Bool :=
  match comparison with
  | some .exists => return !actual.isNullish
  | some .notExists => return actual.isNullish
  | comparison =>
    if actual.isNullish then return false
    else
      match comparison with
      | some .equals => same calendar actual expected valueType
      | some .notEquals => (!·) <$> same calendar actual expected valueType
      | some .in => isAmong calendar actual expected valueType
      | some .notIn => (!·) <$> isAmong calendar actual expected valueType
      | some .contains => return contains actual expected
      | some .startsWith => textTest calendar actual expected fun part text =>
          decide (part <+: text)
      | some .endsWith => textTest calendar actual expected fun part text =>
          decide (part <:+ text)
      | some .lessThan => ordered calendar actual expected valueType (· < ·)
          Datum.Primitive.lessThan
      | some .lessThanOrEqual => ordered calendar actual expected valueType (· ≤ ·)
          Datum.Primitive.lessOrEqual
      | some .greaterThan => ordered calendar actual expected valueType (· > ·)
          fun left right => right.lessThan left
      | some .greaterThanOrEqual => ordered calendar actual expected valueType (· ≥ ·)
          fun left right => right.lessOrEqual left
      | _ => do
        if valueType = .date then
          let _ ← timeOf calendar actual
          let _ ← timeOf calendar expected
        throw .unsupportedOperator

end Comparisons

/-- `POLICY_ATTRIBUTE_UNAVAILABLE` with the attribute. -/
structure Unavailable where
  attributeId : Text

structure Evidence where
  path : Text
  attributeId : Text
  operator : Text
  matched : Bool
  /-- The value compared with, where the audit may show it. -/
  expected : Option Datum

/-- What a node reports, with the evidence that it adds. -/
abbrev Report := Except Unavailable Bool × List Evidence

section Evaluation

variable (calendar : Calendar) (attributes : Datum)

def evaluateComparison (node : Datum) (operator path : Text) : Attempt Report := do
  let attributeId ← orThrow .typeError ((nodeAttribute node).toText? calendar)
  match getAttributeDefinition attributeId with
  | none => return (.error ⟨attributeId⟩, [])
  | some definition =>
    let actual := definition.resolver attributes
    let comparison := comparison? operator
    if actual.isUndefined && !comparison.any Comparison.doesNotNeedValue then
      return (.error ⟨attributeId⟩, [])
    else
      let expected := node.field (ascii "value")
      let matched ← compare calendar comparison actual expected definition.valueType
      return (.ok matched, [{
        path, attributeId, operator, matched
        expected := if definition.auditDisplaySafe then some expected else none }])

def combine (logical : Logical) (results : List (Except Unavailable Bool)) :
    Attempt (Except Unavailable Bool) :=
  match results.find? fun result => !result.isOk with
  | some failure => return failure
  | none =>
    let matched (result : Except Unavailable Bool) : Bool := result.toOption.any id
    match logical, results with
    | .all, results => return .ok (results.all matched)
    | .any, results => return .ok (results.any matched)
    | .not, result :: _ => return .ok (!matched result)
    | .not, [] => throw .typeError

mutual
def evaluateNode (node : Datum) (path : Text) : Attempt Report := do
  let operator ← conditionOperator calendar node
  match logical? operator with
  | some logical =>
    match _ : conditionChildren node with
    | .array children =>
      let (results, evidence) ← evaluateChildren children path 0
      return (← combine logical results, evidence)
    | _ => throw .typeError
  | none =>
    if node.isNullish then throw .typeError
    else evaluateComparison calendar attributes node operator path
termination_by sizeOf node
decreasing_by exact sizeOf_children_lt ‹_›
def evaluateChildren (children : List Datum) (path : Text) (index : ℕ) :
    Attempt (List (Except Unavailable Bool) × List Evidence) := do
  match children with
  | [] => return ([], [])
  | child :: children =>
    let (result, evidence) ← evaluateNode child (path ++ 0x2e :: decimalDigits index)
    let (results, rest) ← evaluateChildren children path (index + 1)
    return (result :: results, evidence ++ rest)
termination_by sizeOf children
decreasing_by all_goals simp only [List.cons.sizeOf_spec]; omega
end

inductive Evaluation where
  /-- `POLICY_INVALID`. -/
  | invalid (details : List Issue)
  | evaluated (report : Report)

def evaluateCondition (condition : Datum) (skipValidation : Bool) : Attempt Evaluation := do
  let walk ← if skipValidation then pure ⟨[], 0⟩ else validateConditionTree calendar condition
  if !walk.valid then return .invalid walk.issues
  else return .evaluated (← evaluateNode calendar attributes condition (ascii "condition"))

end Evaluation

end GhostBridge.Policies
