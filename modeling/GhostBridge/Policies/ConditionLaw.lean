import GhostBridge.Formulas.Formula
import GhostBridge.Policies.Conditions

/-!
# What an accepted condition evaluates to

An accepted condition stands for a formula over its comparisons.
-/

namespace GhostBridge.Policies

open Ecma Formulas

structure Leaf where
  path : Text
  /-- The attribute as the evaluator reads it, which the validator trims. -/
  name : Text
  operator : Text
  comparison : Comparison
  expected : Datum

namespace Leaf

variable (calendar : Calendar) (attributes : Datum) (leaf : Leaf)

/-- `EXISTS` and `NOT_EXISTS`. -/
def isExistence : Bool := leaf.comparison.doesNotNeedValue

def definition? : Option AttributeDefinition := getAttributeDefinition leaf.name

def isUnresolved : Bool :=
  match leaf.definition? with
  | none => true
  | some definition => (definition.resolver attributes).isUndefined

def isOrdering (valueType : ValueType) : Bool :=
  match leaf.comparison with
  | .lessThan | .lessThanOrEqual | .greaterThan | .greaterThanOrEqual => true
  | .equals | .notEquals => valueType == .date
  | .in | .notIn => valueType == .date && (match leaf.expected with
      | .array items => !items.isEmpty
      | _ => true)
  | _ => false

def throws : Bool :=
  match leaf.definition? with
  | none => false
  | some definition =>
    let actual := definition.resolver attributes
    !actual.isNullish && leaf.isOrdering definition.valueType && !actual.isPrintable calendar

def holds : Bool :=
  match leaf.definition? with
  | none => false
  | some definition => ((compare calendar (some leaf.comparison) (definition.resolver attributes)
      leaf.expected definition.valueType).toOption).any id

def evidence : Evidence where
  path := leaf.path
  attributeId := leaf.name
  operator := leaf.operator
  matched := leaf.holds calendar attributes
  expected := leaf.definition?.bind fun definition =>
    if definition.auditDisplaySafe then some leaf.expected else none

def isUnavailable : Bool :=
  leaf.definition?.isNone || leaf.isUnresolved attributes && !leaf.isExistence

def run : Attempt Report := do
  match leaf.definition? with
  | none => return (.error ⟨leaf.name⟩, [])
  | some definition =>
    let actual := definition.resolver attributes
    if actual.isUndefined && !leaf.isExistence then return (.error ⟨leaf.name⟩, [])
    else
      let matched ← compare calendar (some leaf.comparison) actual leaf.expected
        definition.valueType
      return (.ok matched, [{
        path := leaf.path, attributeId := leaf.name, operator := leaf.operator, matched
        expected := if definition.auditDisplaySafe then some leaf.expected else none }])

/-- What the validator ensures of the value compared with. -/
structure Accepted : Prop where
  printable : leaf.isExistence = false → leaf.expected.isPrintable calendar = true
  listed : leaf.comparison = .in ∨ leaf.comparison = .notIn → ∃ items, leaf.expected = .array items

end Leaf

mutual
/-- A node, at a path of the evidence, stands for a formula. -/
inductive Shows (calendar : Calendar) : Datum → Text → Formula Leaf → Prop where
  | leaf {node : Datum} {path operator name : Text} {comparison : Comparison}
      (hoperator : conditionOperator calendar node = .ok operator)
      (hlogical : logical? operator = none) (hcomparison : comparison? operator = some comparison)
      (hnode : node.isNullish = false) (hname : (nodeAttribute node).toText? calendar = some name) :
      Shows calendar node path
        (.leaf ⟨path, name, operator, comparison, node.field (ascii "value")⟩)
  | all {node : Datum} {path operator : Text} {children : List Datum} {parts : List (Formula Leaf)}
      (hoperator : conditionOperator calendar node = .ok operator)
      (hlogical : logical? operator = some .all)
      (hchildren : conditionChildren node = .array children)
      (hparts : ShowsChildren calendar children path 0 parts) : Shows calendar node path (.all parts)
  | any {node : Datum} {path operator : Text} {children : List Datum} {parts : List (Formula Leaf)}
      (hoperator : conditionOperator calendar node = .ok operator)
      (hlogical : logical? operator = some .any)
      (hchildren : conditionChildren node = .array children)
      (hparts : ShowsChildren calendar children path 0 parts) : Shows calendar node path (.any parts)
  | not {node : Datum} {path operator : Text} {children : List Datum} {part : Formula Leaf}
      (hoperator : conditionOperator calendar node = .ok operator)
      (hlogical : logical? operator = some .not)
      (hchildren : conditionChildren node = .array children)
      (hparts : ShowsChildren calendar children path 0 [part]) :
      Shows calendar node path (.not part)
inductive ShowsChildren (calendar : Calendar) :
    List Datum → Text → ℕ → List (Formula Leaf) → Prop where
  | nil {path : Text} {index : ℕ} : ShowsChildren calendar [] path index []
  | cons {child : Datum} {children : List Datum} {path : Text} {index : ℕ} {part : Formula Leaf}
      {parts : List (Formula Leaf)}
      (hpart : Shows calendar child (path ++ 0x2e :: decimalDigits index) part)
      (hparts : ShowsChildren calendar children path (index + 1) parts) :
      ShowsChildren calendar (child :: children) path index (part :: parts)
end

variable {calendar : Calendar} {attributes : Datum}

private theorem find?_or_firstFailure (results : List (Except Unavailable Bool)) :
    ((results.find? fun result => !result.isOk) = none ∧ Formula.firstFailure results =
      .ok (results.map fun result => result.toOption.any id)) ∨
    ∃ failure, (results.find? fun result => !result.isOk) = some (.error failure) ∧
      Formula.firstFailure results = .error failure := by
  induction results with
  | nil => exact .inl ⟨rfl, rfl⟩
  | cons result results ih =>
    cases result with
    | error failure => exact .inr ⟨failure, rfl, rfl⟩
    | ok value =>
      obtain ⟨hnone, hvalues⟩ | ⟨failure, hfind, hfirst⟩ := ih
      · refine .inl ⟨hnone, ?_⟩
        rw [Formula.firstFailure, hvalues]
        cases value <;> rfl
      · refine .inr ⟨failure, hfind, ?_⟩
        rw [Formula.firstFailure, hfirst]
        rfl

theorem combine_all (results : List (Except Unavailable Bool)) :
    combine .all results = .ok ((·.all id) <$> Formula.firstFailure results) := by
  rw [combine]
  obtain ⟨hnone, hvalues⟩ | ⟨failure, hfind, hfirst⟩ := find?_or_firstFailure results
  · rw [hnone, hvalues]
    simp only [Functor.map, Except.map, List.all_map]
    rfl
  · rw [hfind, hfirst]
    rfl

theorem combine_any (results : List (Except Unavailable Bool)) :
    combine .any results = .ok ((·.any id) <$> Formula.firstFailure results) := by
  rw [combine]
  obtain ⟨hnone, hvalues⟩ | ⟨failure, hfind, hfirst⟩ := find?_or_firstFailure results
  · rw [hnone, hvalues]
    simp only [Functor.map, Except.map, List.any_map]
    rfl
  · rw [hfind, hfirst]
    rfl

theorem combine_not (result : Except Unavailable Bool) :
    combine .not [result] = .ok ((!·) <$> result) := by
  cases result with
  | error failure => rfl
  | ok value => cases value <;> rfl

theorem evaluateNode_logical {node : Datum} {path operator : Text} {logical : Logical}
    {children : List Datum} (hoperator : conditionOperator calendar node = .ok operator)
    (hlogical : logical? operator = some logical)
    (hchildren : conditionChildren node = .array children) :
    evaluateNode calendar attributes node path = (do
      let (results, evidence) ← evaluateChildren calendar attributes children path 0
      return (← combine logical results, evidence)) := by
  rw [evaluateNode, hoperator, ok_bind, hlogical]
  dsimp only
  split
  · next found hfound =>
    rw [hchildren, Datum.array.injEq] at hfound
    rw [hfound]
  · next hnone => exact absurd hchildren (hnone children)

theorem evaluateChildren_eq {parts : List (Formula Leaf)} (ih : ∀ part ∈ parts,
    ∀ {node : Datum} {path : Text}, Shows calendar node path part →
      evaluateNode calendar attributes node path = part.evaluate (Leaf.run calendar attributes))
    {children : List Datum} {path : Text} {index : ℕ}
    (h : ShowsChildren calendar children path index parts) :
    evaluateChildren calendar attributes children path index =
      Formula.evaluateParts (Leaf.run calendar attributes) parts := by
  induction parts generalizing children index with
  | nil =>
    cases h
    rw [evaluateChildren, Formula.evaluateParts]
  | cons part parts ihparts =>
    cases h with
    | cons hpart hparts =>
      rw [List.forall_mem_cons] at ih
      rw [evaluateChildren, Formula.evaluateParts, ih.1 hpart, ihparts ih.2 hparts]

theorem evaluateNode_eq {node : Datum} {path : Text} {tree : Formula Leaf}
    (h : Shows calendar node path tree) :
    evaluateNode calendar attributes node path = tree.evaluate (Leaf.run calendar attributes) := by
  induction tree using Formula.inductionOn generalizing node path with
  | leaf leaf =>
    cases h with
    | leaf hoperator hlogical hcomparison hnode hname =>
      rw [evaluateNode, hoperator, ok_bind, hlogical, hnode, Formula.evaluate, Leaf.run,
        evaluateComparison, hname, hcomparison]
      rfl
  | all parts ih =>
    cases h with
    | all hoperator hlogical hchildren hparts =>
      rw [evaluateNode_logical hoperator hlogical hchildren, evaluateChildren_eq ih hparts,
        Formula.evaluate]
      simp only [combine_all, ok_bind]
  | any parts ih =>
    cases h with
    | any hoperator hlogical hchildren hparts =>
      rw [evaluateNode_logical hoperator hlogical hchildren, evaluateChildren_eq ih hparts,
        Formula.evaluate]
      simp only [combine_any, ok_bind]
  | not part ih =>
    cases h with
    | not hoperator hlogical hchildren hparts =>
      have hpart : ∀ other ∈ [part], ∀ {node : Datum} {path : Text}, Shows calendar node path other →
          evaluateNode calendar attributes node path =
            other.evaluate (Leaf.run calendar attributes) := by
        intro other hother
        rw [List.mem_singleton.mp hother]
        exact ih
      rw [evaluateNode_logical hoperator hlogical hchildren, evaluateChildren_eq hpart hparts,
        Formula.evaluate, Formula.evaluateParts, Formula.evaluateParts]
      cases part.evaluate (Leaf.run calendar attributes) with
      | error failure => rfl
      | ok report =>
        show (do return (← combine .not [report.1], report.2 ++ [])) = _
        rw [combine_not, List.append_nil]
        rfl

theorem isOk_bind {α β : Type} {x : Attempt α} {f : α → Attempt β}
    (h : ∀ a, (f a).isOk = true) : (x >>= f).isOk = x.isOk := by
  cases x with
  | error failure => rfl
  | ok a => exact h a

theorem isOk_orThrow {α : Type} {failure : Failure} {o : Option α} :
    (orThrow failure o).isOk = o.isSome := by
  cases o <;> rfl

theorem isOk_timeOf (value : Datum) :
    (timeOf calendar value).isOk = value.isPrintable calendar := by
  rw [timeOf, isOk_orThrow, Datum.isSome_time?]

private theorem isOk_times {left right : Datum} {f : Option ℤ → Option ℤ → Bool}
    (hright : right.isPrintable calendar = true) : (do
      let time ← timeOf calendar left
      let other ← timeOf calendar right
      return f time other : Attempt Bool).isOk = left.isPrintable calendar := by
  rw [isOk_bind, isOk_timeOf]
  intro time
  rw [isOk_bind fun _ => rfl, isOk_timeOf, hright]

theorem isOk_same {left right : Datum} (valueType : ValueType)
    (hright : right.isPrintable calendar = true) :
    (same calendar left right valueType).isOk =
      !(valueType == .date && !left.isPrintable calendar) := by
  rw [same]
  by_cases hdate : valueType = .date
  · subst hdate
    rw [if_pos rfl, isOk_times hright]
    simp
  · rw [if_neg hdate, beq_eq_false_iff_ne.mpr hdate]
    rfl

theorem isOk_sameAsSome {actual : Datum} (valueType : ValueType) {items : List Datum}
    (h : ∀ item ∈ items, item.isPrintable calendar = true) :
    (sameAsSome calendar actual valueType items).isOk =
      !(valueType == .date && !items.isEmpty && !actual.isPrintable calendar) := by
  induction items with
  | nil => simp [sameAsSome]; rfl
  | cons item items ih =>
    rw [List.forall_mem_cons] at h
    have hfirst := @isOk_same calendar actual item valueType h.1
    rw [sameAsSome]
    cases hsame : same calendar actual item valueType with
    | error failure =>
      rw [hsame] at hfirst
      have hthrows : (valueType == .date && !actual.isPrintable calendar) = true :=
        (Bool.not_eq_false' _).mp hfirst.symm
      rw [List.isEmpty_cons, Bool.not_false, Bool.and_true, hthrows]
      rfl
    | ok matched =>
      rw [hsame] at hfirst
      have hquiet : (valueType == .date && !actual.isPrintable calendar) = false :=
        (Bool.not_eq_true' _).mp hfirst.symm
      rw [List.isEmpty_cons, Bool.not_false, Bool.and_true, hquiet, ok_bind]
      cases matched with
      | true => rfl
      | false =>
        rw [if_neg Bool.false_ne_true, ih h.2]
        rw [Bool.and_eq_false_iff] at hquiet
        cases hquiet with
        | inl h => simp [h]
        | inr h => simp [h]

theorem isOk_ordered {left right : Datum} {valueType : ValueType} {times : ℤ → ℤ → Bool}
    {values : Datum.Primitive → Datum.Primitive → Bool}
    (hright : right.isPrintable calendar = true) :
    (ordered calendar left right valueType times values).isOk = left.isPrintable calendar := by
  rw [ordered]
  by_cases hdate : valueType = .date
  · rw [if_pos hdate, isOk_times hright]
  · rw [if_neg hdate, isOk_bind, isOk_orThrow, Datum.isSome_primitive?]
    intro value
    rw [isOk_bind fun _ => rfl, isOk_orThrow, Datum.isSome_primitive?, hright]

theorem isOk_textTest {actual expected : Datum} {test : Text → Text → Bool}
    (h : expected.isPrintable calendar = true) :
    (textTest calendar actual expected test).isOk = true := by
  cases actual with
  | string text =>
    rw [textTest, isOk_bind fun _ => rfl, isOk_orThrow]
    exact h
  | _ => rfl

theorem isPrintable_items {items : List Datum}
    (h : (Datum.array items).isPrintable calendar = true) :
    ∀ item ∈ items, item.isPrintable calendar = true := by
  rw [Datum.isPrintable, Datum.toText?] at h
  induction items with
  | nil => exact fun item hitem => absurd hitem List.not_mem_nil
  | cons item items ih =>
    have hfirst : item.isPrintable calendar = true := by
      rw [Datum.isPrintable]
      cases htext : item.toText? calendar with
      | some text => rfl
      | none =>
        have hnullish : item.isNullish = false := by
          cases item with
          | undefined | null => cases htext
          | _ => rfl
        rw [Datum.joinTexts?, hnullish, htext] at h
        cases h
    have hrest : (Datum.joinTexts? calendar items).isSome = true := by
      cases hrest : Datum.joinTexts? calendar items with
      | some rest => rfl
      | none =>
        rw [Datum.joinTexts?, hrest] at h
        obtain ⟨text, htext⟩ := Option.isSome_iff_exists.mp hfirst
        rw [htext] at h
        cases hnullish : item.isNullish <;> rw [hnullish] at h <;> cases h
    exact List.forall_mem_cons.mpr ⟨hfirst, ih hrest⟩

theorem isOk_compare {leaf : Leaf} (h : leaf.Accepted calendar) (actual : Datum)
    (valueType : ValueType) : (compare calendar (some leaf.comparison) actual leaf.expected
      valueType).isOk =
        !(!actual.isNullish && leaf.isOrdering valueType && !actual.isPrintable calendar) := by
  obtain ⟨path, name, operator, comparison, expected⟩ := leaf
  obtain ⟨hprintable, hlisted⟩ := h
  dsimp only [Leaf.isExistence] at hprintable hlisted
  cases hnullish : actual.isNullish with
  | true =>
    cases comparison <;> simp [compare, hnullish] <;> rfl
  | false =>
    cases comparison with
    | «exists» | notExists => rfl
    | equals =>
      simp [compare, hnullish, Leaf.isOrdering, isOk_same valueType (hprintable rfl)]
    | notEquals =>
      simp [compare, hnullish, Leaf.isOrdering, Formula.isOk_map,
        isOk_same valueType (hprintable rfl)]
    | «in» =>
      obtain ⟨items, rfl⟩ := hlisted (.inl rfl)
      simp [compare, hnullish, Leaf.isOrdering, isAmong,
        isOk_sameAsSome valueType (isPrintable_items (hprintable rfl))]
    | notIn =>
      obtain ⟨items, rfl⟩ := hlisted (.inr rfl)
      simp [compare, hnullish, Leaf.isOrdering, isAmong, Formula.isOk_map,
        isOk_sameAsSome valueType (isPrintable_items (hprintable rfl))]
    | contains => simp [compare, hnullish, Leaf.isOrdering]; rfl
    | startsWith | endsWith =>
      simp [compare, hnullish, Leaf.isOrdering, isOk_textTest (hprintable rfl)]
    | lessThan | lessThanOrEqual | greaterThan | greaterThanOrEqual =>
      simp [compare, hnullish, Leaf.isOrdering, isOk_ordered (hprintable rfl)]

namespace Leaf

def outcome (calendar : Calendar) (attributes : Datum) (leaf : Leaf) : Except Unavailable Bool :=
  if leaf.isUnavailable attributes then .error ⟨leaf.name⟩ else .ok (leaf.holds calendar attributes)

def record (calendar : Calendar) (attributes : Datum) (leaf : Leaf) : List Evidence :=
  if leaf.isUnavailable attributes then [] else [leaf.evidence calendar attributes]

theorem run_eq {leaf : Leaf} (h : leaf.Accepted calendar)
    (hthrows : leaf.throws calendar attributes = false) :
    leaf.run calendar attributes =
      .ok (leaf.outcome calendar attributes, leaf.record calendar attributes) := by
  unfold run outcome record isUnavailable isUnresolved
  cases hdefinition : leaf.definition? with
  | none => rfl
  | some definition =>
    dsimp only
    rw [Option.isNone_some, Bool.false_or]
    by_cases hmissing : ((definition.resolver attributes).isUndefined && !leaf.isExistence) = true
    · rw [if_pos hmissing, if_pos hmissing, if_pos hmissing]
      rfl
    · rw [if_neg hmissing, if_neg hmissing, if_neg hmissing]
      have hok := isOk_compare h (definition.resolver attributes) definition.valueType
      rw [throws, hdefinition] at hthrows
      dsimp only at hthrows
      rw [hthrows] at hok
      obtain ⟨matched, hmatched⟩ := exists_of_isOk hok
      have hholds : leaf.holds calendar attributes = matched := by
        rw [holds, hdefinition]
        dsimp only
        rw [hmatched]
        rfl
      rw [hmatched, evidence, hholds, hdefinition]
      rfl

theorem run_throws {leaf : Leaf} (h : leaf.Accepted calendar)
    (hthrows : leaf.throws calendar attributes = true) (report : Report) :
    leaf.run calendar attributes ≠ .ok report := by
  unfold throws at hthrows
  unfold run
  cases hdefinition : leaf.definition? with
  | none =>
    rw [hdefinition] at hthrows
    cases hthrows
  | some definition =>
    rw [hdefinition] at hthrows
    dsimp only at hthrows ⊢
    have hok := isOk_compare h (definition.resolver attributes) definition.valueType
    rw [hthrows] at hok
    have hdefined : (definition.resolver attributes).isUndefined = false := by
      cases hactual : definition.resolver attributes with
      | undefined =>
        rw [hactual] at hthrows
        cases hthrows
      | _ => rfl
    rw [hdefined, Bool.false_and, if_neg Bool.false_ne_true]
    cases hcompare : compare calendar (some leaf.comparison) (definition.resolver attributes)
        leaf.expected definition.valueType with
    | ok matched =>
      rw [hcompare] at hok
      cases hok
    | error failure => exact fun hreport => nomatch hreport

end Leaf

theorem issueWhen_eq_nil {condition : Bool} {issue : Issue} :
    issueWhen condition issue = [] ↔ condition = false := by
  cases condition <;> simp [issueWhen]

theorem isPrintable_of_typeIssue {item : Datum} {valueType : ValueType} {path : Text}
    (h : typeIssue calendar item valueType path = []) :
    item.isPrintable calendar = true ∧ ∀ items, item ≠ .array items := by
  cases valueType <;> cases item <;> first | exact ⟨rfl, fun _ hitem => nomatch hitem⟩ | cases h

theorem isPrintable_of_validateTypedValue {value : Datum} {valueType : ValueType} {path : Text}
    (h : validateTypedValue calendar value valueType path = []) :
    value.isPrintable calendar = true := by
  rw [validateTypedValue, List.flatMap_eq_nil_iff] at h
  have hitems : ∀ item ∈ comparisonValues value, item.isPrintable calendar = true :=
    fun item hitem => (isPrintable_of_typeIssue (List.append_eq_nil_iff.mp (h item hitem)).1).1
  cases value with
  | array items =>
    rw [Datum.isPrintable, Datum.toText?]
    have hjoin (list : List Datum) (hlist : ∀ item ∈ list, item.isPrintable calendar = true) :
        (Datum.joinTexts? calendar list).isSome = true := by
      induction list with
      | nil => rfl
      | cons item list ih =>
        rw [List.forall_mem_cons] at hlist
        obtain ⟨text, htext⟩ := Option.isSome_iff_exists.mp hlist.1
        obtain ⟨rest, hrest⟩ := Option.isSome_iff_exists.mp (ih hlist.2)
        rw [Datum.joinTexts?, htext, hrest]
        cases item.isNullish <;> rfl
    exact hjoin items hitems
  | _ => exact hitems _ (List.mem_singleton.mpr rfl)

theorem shows_of_comparisonIssues {node : Datum} {operator path : Text} {comparison : Comparison}
    (hoperator : conditionOperator calendar node = .ok operator)
    (hlogical : logical? operator = none) (hcomparison : comparison? operator = some comparison)
    (hnode : node.isNode = true)
    (h : comparisonIssues calendar node comparison path = .ok []) (place : Text) :
    ∃ leaf, Shows calendar node place (.leaf leaf) ∧ leaf.Accepted calendar := by
  rw [comparisonIssues] at h
  obtain ⟨attributeId, hattribute, h⟩ := bind_ok.mp h
  rw [orThrow_ok] at hattribute
  cases hdefinition : getAttributeDefinition (Text.trimmed attributeId) with
  | none =>
    rw [hdefinition] at h
    cases h
  | some definition =>
    rw [hdefinition] at h
    replace h := pure_ok.mp h
    simp only [List.append_eq_nil_iff, issueWhen_eq_nil] at h
    obtain ⟨⟨-, hrequired⟩, hvalue⟩ := h
    have hname : (nodeAttribute node).toText? calendar = some attributeId := by
      rw [Datum.orElse] at hattribute
      split at hattribute
      · exact hattribute
      · have hempty : attributeId = [] := (Option.some.inj hattribute).symm
        rw [hempty] at hdefinition
        cases hdefinition
    have hnullish : node.isNullish = false := by
      cases node <;> first | rfl | cases hnode
    refine ⟨_, .leaf hoperator hlogical hcomparison hnullish hname, ?_, ?_⟩
    · intro hneeds
      replace hneeds : comparison.doesNotNeedValue = false := hneeds
      rw [hneeds, Bool.not_false, Bool.true_and, Bool.not_eq_false'] at hrequired
      rw [if_pos hrequired, List.append_eq_nil_iff] at hvalue
      exact isPrintable_of_validateTypedValue hvalue.2
    · intro hlisted
      replace hlisted : comparison = .in ∨ comparison = .notIn := hlisted
      have hneeds : comparison.doesNotNeedValue = false := by
        cases hlisted with
        | inl h => rw [h]; rfl
        | inr h => rw [h]; rfl
      rw [hneeds, Bool.not_false, Bool.true_and, Bool.not_eq_false'] at hrequired
      rw [if_pos hrequired, List.append_eq_nil_iff] at hvalue
      show ∃ items, node.field (ascii "value") = .array items
      cases hfield : node.field (ascii "value") with
      | array items => exact ⟨items, rfl⟩
      | _ =>
        rw [hfield] at hvalue
        have hnotListed := issueWhen_eq_nil.mp hvalue.1
        cases hlisted with
        | inl h => rw [h] at hnotListed; cases hnotListed
        | inr h => rw [h] at hnotListed; cases hnotListed

private theorem shows_children {room : ℕ} {path : Text} (place : Text)
    (ih : ∀ {node : Datum} {path : Text} {walk walk' : Walk},
      validateNode calendar room node path walk = .ok walk' → walk'.issues = [] →
        walk.issues = [] ∧ ∀ place, ∃ tree, Shows calendar node place tree ∧
          ∀ leaf ∈ tree.leaves, leaf.Accepted calendar)
    {children : List Datum} {index : ℕ} {walk walk' : Walk}
    (h : (children.zipIdx index).foldlM (fun walk child =>
      validateNode calendar room child.1 (childPath path child.2) walk) walk = .ok walk')
    (hissues : walk'.issues = []) : walk.issues = [] ∧
      ∃ parts, ShowsChildren calendar children place index parts ∧
        parts.length = children.length ∧
        ∀ leaf ∈ Formula.leavesOf parts, leaf.Accepted calendar := by
  induction children generalizing index walk with
  | nil =>
    rw [List.zipIdx_nil, List.foldlM_nil] at h
    rw [pure_ok.mp h]
    exact ⟨hissues, [], .nil, rfl, fun leaf hleaf => nomatch hleaf⟩
  | cons child children ihchildren =>
    rw [List.zipIdx_cons, List.foldlM_cons] at h
    obtain ⟨next, hnext, h⟩ := bind_ok.mp h
    obtain ⟨hquiet, parts, hparts, hlength, hrest⟩ := ihchildren h
    obtain ⟨hstart, hchild⟩ := ih hnext hquiet
    obtain ⟨part, hpart, hleaves⟩ := hchild (place ++ 0x2e :: decimalDigits index)
    refine ⟨hstart, part :: parts, .cons hpart hparts, congrArg (· + 1) hlength, ?_⟩
    rw [Formula.leavesOf]
    intro leaf hleaf
    cases List.mem_append.mp hleaf with
    | inl hleaf => exact hleaves leaf hleaf
    | inr hleaf => exact hrest leaf hleaf

theorem childrenIssues_eq_nil {logical : Logical} {children : List Datum} {path : Text}
    (h : childrenIssues logical children path = []) :
    children.length ≤ PolicyLimits.maxArrayItems ∧ (logical = .not → children.length = 1) := by
  simp only [childrenIssues, List.append_eq_nil_iff, issueWhen_eq_nil] at h
  obtain ⟨⟨hlength, harity⟩, -⟩ := h
  rw [decide_eq_false_iff_not, not_lt] at hlength
  apply And.intro hlength
  intro hnot
  rw [hnot] at harity
  simpa using harity

theorem shows_of_validateNode {room : ℕ} {node : Datum} {path : Text} {walk walk' : Walk}
    (h : validateNode calendar room node path walk = .ok walk') (hissues : walk'.issues = []) :
    walk.issues = [] ∧ ∀ place, ∃ tree, Shows calendar node place tree ∧
      ∀ leaf ∈ tree.leaves, leaf.Accepted calendar := by
  have hreported {walk walk' : Walk} {issues : List Issue}
      (h : (pure (walk.report issues) : Attempt Walk) = .ok walk') (hissues : walk'.issues = []) :
      walk.issues = [] ∧ issues = [] := by
    rw [← pure_ok.mp h] at hissues
    exact List.append_eq_nil_iff.mp hissues
  induction room generalizing node path walk walk' with
  | zero =>
    rw [validateNode] at h
    split at h
    · cases (hreported h hissues).2
    · cases (hreported h hissues).2
  | succ room ih =>
    rw [validateNode] at h
    split at h
    · cases (hreported h hissues).2
    · dsimp only at h
      split at h
      · cases (hreported h hissues).2
      · next hnode =>
        rw [Bool.not_eq_true', Bool.not_eq_false] at hnode
        obtain ⟨operator, hoperator, h⟩ := bind_ok.mp h
        cases hlogical : logical? operator with
        | some logical =>
          rw [hlogical] at h
          cases hchildren : conditionChildren node with
          | array children =>
            rw [hchildren] at h
            dsimp only at h
            have hquiet := (shows_children path ih h hissues).1
            obtain ⟨hstart, hchecks⟩ := List.append_eq_nil_iff.mp hquiet
            obtain ⟨hlength, harity⟩ := childrenIssues_eq_nil hchecks
            apply And.intro hstart
            intro place
            rw [List.take_of_length_le hlength] at h
            obtain ⟨-, parts, hparts, hcount, hleaves⟩ :=
              shows_children place ih h hissues
            cases logical with
            | all => exact ⟨.all parts, .all hoperator hlogical hchildren hparts, hleaves⟩
            | any => exact ⟨.any parts, .any hoperator hlogical hchildren hparts, hleaves⟩
            | not =>
              rw [harity rfl] at hcount
              obtain ⟨part, rfl⟩ := List.length_eq_one_iff.mp hcount
              refine ⟨.not part, .not hoperator hlogical hchildren hparts, ?_⟩
              intro leaf hleaf
              exact hleaves leaf (List.mem_append_left _ hleaf)
          | _ =>
            rw [hchildren] at h
            cases (hreported h hissues).2
        | none =>
          rw [hlogical] at h
          cases hcomparison : comparison? operator with
          | none =>
            rw [hcomparison] at h
            cases (hreported h hissues).2
          | some comparison =>
            rw [hcomparison] at h
            obtain ⟨issues, hnode', h⟩ := bind_ok.mp h
            obtain ⟨hstart, rfl⟩ := hreported h hissues
            apply And.intro hstart
            intro place
            obtain ⟨leaf, hleaf, haccepted⟩ :=
              shows_of_comparisonIssues hoperator hlogical hcomparison hnode hnode' place
            refine ⟨.leaf leaf, hleaf, ?_⟩
            intro other hother
            rw [List.mem_singleton.mp hother]
            exact haccepted

theorem compare_complement {actual : Datum} (h : actual.isNullish = false) (expected : Datum)
    (valueType : ValueType) :
    compare calendar (some .notEquals) actual expected valueType =
        (!·) <$> compare calendar (some .equals) actual expected valueType ∧
      compare calendar (some .notIn) actual expected valueType =
        (!·) <$> compare calendar (some .in) actual expected valueType := by
  simp only [compare, h, Bool.false_eq_true, if_false, and_self]

/-- An evaluation without validation that does what a condition means: it reports an error where an
attribute that a comparison needs is unresolved, and otherwise gives the value of the formula with
an entry of evidence for each comparison. -/
def EvaluatesAs (calendar : Calendar) (attributes : Datum) (tree : Formula Leaf)
    (evaluation : Attempt Evaluation) : Prop :=
  ∃ result evidence, evaluation = .ok (.evaluated (result, evidence)) ∧
    (result.isOk = false ↔
      ∃ leaf ∈ tree.leaves, leaf.isExistence = false ∧ leaf.isUnresolved attributes = true) ∧
    ∀ matched, result = .ok matched → matched = tree.holds (Leaf.holds calendar attributes) ∧
      evidence = tree.leaves.map (Leaf.evidence calendar attributes)

theorem Leaf.isOk_outcome (leaf : Leaf) :
    (leaf.outcome calendar attributes).isOk = !leaf.isUnavailable attributes := by
  unfold outcome
  cases leaf.isUnavailable attributes <;> rfl

theorem Leaf.isUnavailable_iff {leaf : Leaf} : leaf.isUnavailable attributes = true ↔
    leaf.isExistence = true ∧ leaf.definition? = none ∨
      leaf.isExistence = false ∧ leaf.isUnresolved attributes = true := by
  unfold isUnavailable isUnresolved
  cases leaf.definition? <;> cases leaf.isExistence <;> simp

theorem evaluate_of_not_throws {tree : Formula Leaf}
    (haccepted : ∀ leaf ∈ tree.leaves, leaf.Accepted calendar)
    (h : ∀ leaf ∈ tree.leaves, leaf.throws calendar attributes = false) :
    tree.evaluate (Leaf.run calendar attributes) =
      .ok (tree.verdict (Leaf.outcome calendar attributes),
        tree.leaves.flatMap (Leaf.record calendar attributes)) :=
  Formula.evaluate_eq _ fun leaf hleaf => Leaf.run_eq (haccepted leaf hleaf) (h leaf hleaf)

theorem condition_law (calendar : Calendar) (condition attributes : Datum) (walk : Walk)
    (hwalk : validateConditionTree calendar condition = .ok walk) (hvalid : walk.valid = true) :
    ∃ tree, Shows calendar condition (ascii "condition") tree ∧
      (EvaluatesAs calendar attributes tree
          (evaluateCondition calendar attributes condition true) ↔
        (∀ leaf ∈ tree.leaves, leaf.throws calendar attributes = false) ∧
          ((∃ leaf ∈ tree.leaves, leaf.isExistence = true ∧ leaf.definition? = none) →
            ∃ leaf ∈ tree.leaves, leaf.isExistence = false ∧
              leaf.isUnresolved attributes = true)) ∧
      ∀ actual expected : Datum, ∀ valueType, actual.isNullish = false →
        compare calendar (some .notEquals) actual expected valueType =
            (!·) <$> compare calendar (some .equals) actual expected valueType ∧
          compare calendar (some .notIn) actual expected valueType =
            (!·) <$> compare calendar (some .in) actual expected valueType := by
  obtain ⟨-, hshows⟩ := shows_of_validateNode hwalk (List.isEmpty_iff.mp hvalid)
  obtain ⟨tree, hshows, haccepted⟩ := hshows (ascii "condition")
  refine ⟨tree, hshows, ?_, fun actual expected valueType h =>
    compare_complement h expected valueType⟩
  have hrun : evaluateCondition calendar attributes condition true =
      Evaluation.evaluated <$> tree.evaluate (Leaf.run calendar attributes) := by
    rw [← evaluateNode_eq hshows, evaluateCondition]
    rfl
  rw [hrun]
  constructor
  · rintro ⟨result, evidence, hok, herror, -⟩
    obtain ⟨report, hreport, heq⟩ := map_ok.mp hok
    have hquiet : ∀ leaf ∈ tree.leaves, leaf.throws calendar attributes = false := by
      intro leaf hleaf
      by_contra hthrows
      obtain ⟨single, hsingle⟩ := Formula.run_ok_of_evaluate _ hreport leaf hleaf
      exact Leaf.run_throws (haccepted leaf hleaf) ((Bool.not_eq_false _).mp hthrows) single hsingle
    apply And.intro hquiet
    rintro ⟨leaf, hleaf, hexistence, hunknown⟩
    rw [evaluate_of_not_throws haccepted hquiet] at hreport
    apply herror.mp
    have hresult : result = tree.verdict (Leaf.outcome calendar attributes) := by
      rw [← Except.ok.inj hreport] at heq
      exact (Prod.mk.inj (Evaluation.evaluated.inj heq)).1.symm
    rw [hresult, Formula.isOk_verdict, List.all_eq_false]
    refine ⟨leaf, hleaf, ?_⟩
    rw [Leaf.isOk_outcome, Leaf.isUnavailable_iff.mpr (.inl ⟨hexistence, hunknown⟩)]
    exact Bool.false_ne_true
  · rintro ⟨hquiet, hpadded⟩
    refine ⟨tree.verdict (Leaf.outcome calendar attributes),
      tree.leaves.flatMap (Leaf.record calendar attributes), ?_, ?_, ?_⟩
    · rw [evaluate_of_not_throws haccepted hquiet]
      rfl
    · rw [Formula.isOk_verdict, List.all_eq_false]
      constructor
      · rintro ⟨leaf, hleaf, hnot⟩
        rw [Leaf.isOk_outcome, Bool.not_eq_true', Bool.not_eq_false] at hnot
        cases Leaf.isUnavailable_iff.mp hnot with
        | inl h => exact hpadded ⟨leaf, hleaf, h⟩
        | inr h => exact ⟨leaf, hleaf, h⟩
      · rintro ⟨leaf, hleaf, h⟩
        refine ⟨leaf, hleaf, ?_⟩
        rw [Leaf.isOk_outcome, Leaf.isUnavailable_iff.mpr (.inr h)]
        exact Bool.false_ne_true
    · intro matched hmatched
      have hok : ∀ leaf ∈ tree.leaves, leaf.isUnavailable attributes = false := by
        have hverdict : (tree.verdict (Leaf.outcome calendar attributes)).isOk = true := by
          rw [hmatched]
          rfl
        rw [Formula.isOk_verdict, List.all_eq_true] at hverdict
        intro leaf hleaf
        have hleaf := hverdict leaf hleaf
        rw [Leaf.isOk_outcome, Bool.not_eq_true'] at hleaf
        exact hleaf
      have houtcome : ∀ leaf ∈ tree.leaves, leaf.outcome calendar attributes =
          .ok (leaf.holds calendar attributes) := by
        intro leaf hleaf
        rw [Leaf.outcome, hok leaf hleaf, if_neg Bool.false_ne_true]
      constructor
      · rw [Formula.verdict_eq_holds _ houtcome] at hmatched
        exact (Except.ok.inj hmatched).symm
      · rw [List.map_eq_flatMap]
        apply List.flatMap_congr
        intro leaf hleaf
        rw [Leaf.record, hok leaf hleaf, if_neg Bool.false_ne_true]

def flatCalendar : Calendar := ⟨fun _ => some 0, fun _ => []⟩

/-- `{ operator, attribute }` and `{ operator, attribute, value }`. -/
def existenceNode (id : String) : Datum :=
  .object [(ascii "operator", .string (ascii "EXISTS")),
    (ascii "attribute", .string (ascii id))]

def timestampNode : Datum :=
  .object [(ascii "operator", .string (ascii "EQUALS")),
    (ascii "attribute", .string (ascii "request.timestamp")), (ascii "value", .string [])]

theorem condition_law_existence :
    ∃ tree, Shows flatCalendar (existenceNode "actor.type") (ascii "condition") tree ∧
      (EvaluatesAs flatCalendar (.object []) tree
          (evaluateCondition flatCalendar (.object []) (existenceNode "actor.type") true) ↔
        (∀ leaf ∈ tree.leaves, leaf.throws flatCalendar (.object []) = false) ∧
          ((∃ leaf ∈ tree.leaves, leaf.isExistence = true ∧ leaf.definition? = none) →
            ∃ leaf ∈ tree.leaves, leaf.isExistence = false ∧
              leaf.isUnresolved (.object []) = true)) ∧
      ∀ actual expected : Datum, ∀ valueType, actual.isNullish = false →
        compare flatCalendar (some .notEquals) actual expected valueType =
            (!·) <$> compare flatCalendar (some .equals) actual expected valueType ∧
          compare flatCalendar (some .notIn) actual expected valueType =
            (!·) <$> compare flatCalendar (some .in) actual expected valueType :=
  condition_law flatCalendar (existenceNode "actor.type") (.object []) ⟨[], 1⟩ rfl rfl

/-- `EXISTS` of ` actor.type` is accepted and then reports an error. The comparison of a timestamp
whose `toString` is shadowed throws. -/
theorem accepted_conditions_fail :
    (validateConditionTree flatCalendar (existenceNode " actor.type") = .ok ⟨[], 1⟩ ∧
      ∃ tree, Shows flatCalendar (existenceNode " actor.type") (ascii "condition") tree ∧
        ¬EvaluatesAs flatCalendar (.object []) tree
          (evaluateCondition flatCalendar (.object []) (existenceNode " actor.type") true)) ∧
    (validateConditionTree flatCalendar timestampNode = .ok ⟨[], 1⟩ ∧
      evaluateCondition flatCalendar (.object [(ascii "request", .object [(ascii "timestamp",
        .object [(ascii "toString", .bool true)])])]) timestampNode true =
          .error .typeError) := by
  have hpadded (path : Text) : Shows flatCalendar (existenceNode " actor.type") path
      (.leaf ⟨path, ascii " actor.type", ascii "EXISTS", .exists, .undefined⟩) :=
    .leaf rfl rfl rfl rfl rfl
  have htimestamp : Shows flatCalendar timestampNode (ascii "condition")
      (.leaf ⟨ascii "condition", ascii "request.timestamp", ascii "EQUALS", .equals, .string []⟩) :=
    .leaf rfl rfl rfl rfl rfl
  refine ⟨⟨rfl, _, hpadded _, ?_⟩, rfl, ?_⟩
  · rintro ⟨result, evidence, hok, herror, -⟩
    have hrun : evaluateCondition flatCalendar (.object []) (existenceNode " actor.type") true =
        .ok (.evaluated (.error ⟨ascii " actor.type"⟩, [])) := by
      rw [evaluateCondition, evaluateNode_eq (hpadded _)]
      rfl
    rw [hrun, Except.ok.injEq, Evaluation.evaluated.injEq, Prod.mk.injEq] at hok
    obtain ⟨leaf, hleaf, hordinary, -⟩ := herror.mp (by rw [← hok.1]; rfl)
    rw [List.mem_singleton.mp hleaf] at hordinary
    cases hordinary
  · rw [evaluateCondition, evaluateNode_eq htimestamp]
    rfl

end GhostBridge.Policies
