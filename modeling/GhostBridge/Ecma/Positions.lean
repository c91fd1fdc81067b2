import GhostBridge.Ecma.MemberOrder

/-!
# Positions

A position leads into a value by members and items.
-/

namespace Ecma

inductive Step where
  | member (name : Text)
  | item (index : Nat)
deriving DecidableEq

abbrev Position := List Step

namespace Position

def names (q : Position) : List Text :=
  q.filterMap fun
    | .member name => some name
    | .item _ => none

def ofNames (names : List Text) : Position := names.map .member

def spells : Position → List Text → Bool
  | [], [] => true
  | .item _ :: q, name :: names => spells q (name :: names)
  | .member k :: q, name :: names => k == name && spells q names
  | _, _ => false

def passes : Position → List Text → Bool
  | _, [] => true
  | .item _ :: q, name :: names => passes q (name :: names)
  | .member k :: q, name :: names => k == name && passes q names
  | [], _ :: _ => false

def isNamed (q : Position) : Bool :=
  q.all fun
    | .member _ => true
    | .item _ => false

@[simp] theorem names_nil : names [] = [] := rfl

@[simp] theorem names_member (name : Text) (q : Position) :
    names (.member name :: q) = name :: names q := rfl

@[simp] theorem names_item (index : Nat) (q : Position) : names (.item index :: q) = names q := rfl

@[simp] theorem names_ofNames (list : List Text) : names (ofNames list) = list := by
  induction list with
  | nil => rfl
  | cons name list ih => exact congrArg (name :: ·) ih

theorem ofNames_injective {list other : List Text} (h : ofNames list = ofNames other) :
    list = other := by
  rw [← names_ofNames list, h, names_ofNames]

@[simp] theorem spells_ofNames (list : List Text) : spells (ofNames list) list = true := by
  induction list with
  | nil => rfl
  | cons name list ih =>
    show (name == name && spells (ofNames list) list) = true
    simp [ih]

theorem passes_ofNames_append (list : List Text) (q : Position) :
    passes (ofNames list ++ q) list = true := by
  induction list with
  | nil => cases q <;> rfl
  | cons name list ih =>
    show (name == name && passes (ofNames list ++ q) list) = true
    simp [ih]

theorem eq_ofNames_of_spells {q : Position} {list : List Text} (h : q.spells list = true)
    (hnamed : q.isNamed = true) : q = ofNames list := by
  induction q generalizing list with
  | nil =>
    cases list with
    | nil => rfl
    | cons name list => cases h
  | cons step q ih =>
    cases step with
    | item index => cases hnamed
    | member k =>
      cases list with
      | nil => cases h
      | cons name list =>
        have hparts : k = name ∧ spells q list = true := by simpa [spells] using h
        have hq : isNamed q = true := by simpa [isNamed] using hnamed
        rw [hparts.1, ih hparts.2 hq]
        rfl

end Position

inductive Shape where
  | leaf (value : Value)
  | array (length : Nat)
  | object
deriving DecidableEq

namespace Value

def shape : Value → Shape
  | .array items => .array items.length
  | .object _ => .object
  | v => .leaf v

def at? : Value → Position → Option Value
  | .undefined, [] => none
  | v, [] => some v
  | .object members, .member name :: q => (members.lookup name).bind fun w => at? w q
  | .array items, .item index :: q => items[index]?.bind fun w => at? w q
  | _, _ :: _ => none

def shapeAt (v : Value) (q : Position) : Option Shape := (v.at? q).map shape

@[simp] theorem at?_nil (v : Value) : v.at? [] = if v.isUndefined then none else some v := by
  cases v <;> rfl

@[simp] theorem at?_object (members : List (Text × Value)) (name : Text) (q : Position) :
    (Value.object members).at? (.member name :: q) = (members.lookup name).bind fun w => w.at? q := by
  rw [at?]

@[simp] theorem at?_object_item (members : List (Text × Value)) (index : Nat) (q : Position) :
    (Value.object members).at? (.item index :: q) = none := by
  rw [at?] <;> simp

@[simp] theorem at?_array (items : List Value) (index : Nat) (q : Position) :
    (Value.array items).at? (.item index :: q) = items[index]?.bind fun w => w.at? q := by
  rw [at?]

@[simp] theorem at?_array_member (items : List Value) (name : Text) (q : Position) :
    (Value.array items).at? (.member name :: q) = none := by
  rw [at?] <;> simp

theorem at?_cons_of_leaf {v : Value} (h : v.isObjectLike = false) (step : Step) (q : Position) :
    v.at? (step :: q) = none := by
  cases v with
  | array items => cases h
  | object members => cases h
  | _ => rfl

theorem at?_append (v : Value) (q r : Position) (hv : v.isUndefined = false) :
    v.at? (q ++ r) = (v.at? q).bind fun w => w.at? r := by
  induction q generalizing v with
  | nil => simp [hv]
  | cons step q ih =>
    have hundefined (w : Value) (h : w.isUndefined = true) (p : Position) : w.at? p = none := by
      cases w with
      | undefined => cases p <;> rfl
      | _ => cases h
    have hrest (w : Value) : w.at? (q ++ r) = (w.at? q).bind fun x => x.at? r := by
      cases hw : w.isUndefined with
      | true => rw [hundefined w hw, hundefined w hw]; rfl
      | false => exact ih w hw
    cases v with
    | object members =>
      cases step with
      | member name =>
        rw [List.cons_append, at?_object, at?_object]
        cases members.lookup name with
        | none => rfl
        | some w => exact hrest w
      | item index => rw [List.cons_append, at?_object_item, at?_object_item]; rfl
    | array items =>
      cases step with
      | member name => rw [List.cons_append, at?_array_member, at?_array_member]; rfl
      | item index =>
        rw [List.cons_append, at?_array, at?_array]
        cases items[index]? with
        | none => rfl
        | some w => exact hrest w
    | _ => rfl

theorem at?_ofNames_of_item {v : Value} {q : Position} {names : List Text}
    (hspells : Position.spells q names = true) (hitem : Position.isNamed q = false)
    (h : v.at? q ≠ none) : v.at? (.ofNames names) = none := by
  induction q generalizing v names with
  | nil => cases hitem
  | cons step q ih =>
    cases names with
    | nil => cases step <;> cases hspells
    | cons name names =>
      show v.at? (.member name :: Position.ofNames names) = none
      cases step with
      | item index =>
        cases v with
        | array items => exact at?_array_member items name _
        | object members => exact absurd (at?_object_item members index q) h
        | _ => rfl
      | member k =>
        have hparts : k = name ∧ Position.spells q names = true := by
          simpa [Position.spells] using hspells
        obtain ⟨rfl, hrest⟩ := hparts
        cases v with
        | object members =>
          rw [at?_object] at h ⊢
          cases hlookup : members.lookup k with
          | none => rfl
          | some w =>
            rw [hlookup] at h
            exact ih hrest hitem h
        | array items => exact at?_array_member items k _
        | _ => rfl

end Value

end Ecma
