import GhostBridge.Ecma.Json

/-!
# Syntax trees of JSON texts

A tree keeps the members of an object as the text has them, where `JSON.parse` keeps the last member
of a name.
-/

namespace Ecma

inductive JsonTree where
  | null
  | bool (b : Bool)
  | number (n : Number)
  | string (s : Text)
  | array (items : List JsonTree)
  | object (members : List (Text × JsonTree))

namespace JsonTree

mutual
/-- The value that `JSON.parse` makes of the tree. -/
def value : JsonTree → Value
  | .null => .null
  | .bool b => .bool b
  | .number n => .number n
  | .string s => .string s
  | .array items => .array (itemValues items)
  | .object members => .object (fromEntries (memberValues members))
def itemValues : List JsonTree → List Value
  | [] => []
  | item :: items => item.value :: itemValues items
def memberValues : List (Text × JsonTree) → List (Text × Value)
  | [] => []
  | (name, tree) :: members => (name, tree.value) :: memberValues members
end

inductive Holds : JsonTree → ℕ → JsonTree → Prop where
  | here (tree : JsonTree) : Holds tree 0 tree
  | item {items : List JsonTree} {item node : JsonTree} {depth : ℕ} (hitem : item ∈ items)
      (hnode : Holds item depth node) : Holds (.array items) (depth + 1) node
  | member {members : List (Text × JsonTree)} {m : Text × JsonTree} {node : JsonTree} {depth : ℕ}
      (hmember : m ∈ members) (hnode : Holds m.2 depth node) :
      Holds (.object members) (depth + 1) node

/-- A property of all nodes, with their depths. -/
def All (P : ℕ → JsonTree → Prop) (tree : JsonTree) : Prop :=
  ∀ depth node, Holds tree depth node → P depth node

theorem all_array {P : ℕ → JsonTree → Prop} (items : List JsonTree) :
    All P (.array items) ↔
      P 0 (.array items) ∧ ∀ item ∈ items, All (fun depth => P (depth + 1)) item := by
  constructor
  · intro hall
    refine ⟨hall 0 _ (.here _), ?_⟩
    intro item hitem depth node hnode
    exact hall (depth + 1) node (.item hitem hnode)
  · rintro ⟨hroot, hitems⟩ depth node hnode
    cases hnode with
    | here => exact hroot
    | item hitem hnode => exact hitems _ hitem _ node hnode

theorem all_object {P : ℕ → JsonTree → Prop} (members : List (Text × JsonTree)) :
    All P (.object members) ↔
      P 0 (.object members) ∧ ∀ m ∈ members, All (fun depth => P (depth + 1)) m.2 := by
  constructor
  · intro hall
    refine ⟨hall 0 _ (.here _), ?_⟩
    intro m hmember depth node hnode
    exact hall (depth + 1) node (.member hmember hnode)
  · rintro ⟨hroot, hmembers⟩ depth node hnode
    cases hnode with
    | here => exact hroot
    | member hmember hnode => exact hmembers _ hmember _ node hnode

def isLeaf : JsonTree → Bool
  | .array _ => false
  | .object _ => false
  | _ => true

theorem all_leaf {P : ℕ → JsonTree → Prop} {tree : JsonTree} (h : tree.isLeaf = true) :
    All P tree ↔ P 0 tree := by
  constructor
  · intro hall
    exact hall 0 tree (.here tree)
  · intro hroot depth node hnode
    cases hnode with
    | here => exact hroot
    | item => cases h
    | member => cases h

@[elab_as_elim]
theorem inductionOn {motive : JsonTree → Prop} (null : motive .null) (bool : ∀ b, motive (.bool b))
    (number : ∀ n, motive (.number n)) (string : ∀ s, motive (.string s))
    (array : ∀ items, (∀ item ∈ items, motive item) → motive (.array items))
    (object : ∀ members, (∀ m ∈ members, motive m.2) → motive (.object members))
    (tree : JsonTree) : motive tree :=
  @JsonTree.rec motive (fun items => ∀ item ∈ items, motive item)
    (fun members => ∀ m ∈ members, motive m.2) (fun m => motive m.2)
    null bool number string array object
    (fun _ h => absurd h List.not_mem_nil)
    (fun _ _ hv hvs _ h => (List.mem_cons.mp h).elim (fun e => e ▸ hv) (hvs _))
    (fun _ h => absurd h List.not_mem_nil)
    (fun _ _ hm hms _ h => (List.mem_cons.mp h).elim (fun e => e ▸ hm) (hms _))
    (fun _ _ h => h) tree

def readLiteral (text : Text) : Option (JsonTree × Text) :=
  match Json.stripPrefix? (ascii "null") text with
  | some rest => some (.null, rest)
  | none =>
    match Json.stripPrefix? (ascii "true") text with
    | some rest => some (.bool true, rest)
    | none =>
      match Json.stripPrefix? (ascii "false") text with
      | some rest => some (.bool false, rest)
      | none => (scanNumber text).map fun p => (.number p.1, p.2)

mutual
/-- A tree and what follows it, by the grammar of `Json.readValue`. -/
def readTree : ℕ → Text → Option (JsonTree × Text)
  | 0, _ => none
  | fuel + 1, text =>
    match Json.skipSpace text with
    | [] => none
    | u :: rest =>
      if u = 0x22 then (Json.readString rest).map fun p => (.string p.1, p.2)
      else if u = 0x5b then
        if (Json.skipSpace rest).head? = some 0x5d then
          some (.array [], (Json.skipSpace rest).tail)
        else (readItems fuel rest).map fun p => (.array p.1, p.2)
      else if u = 0x7b then
        if (Json.skipSpace rest).head? = some 0x7d then
          some (.object [], (Json.skipSpace rest).tail)
        else (readMembers fuel rest).map fun p => (.object p.1, p.2)
      else readLiteral (u :: rest)
def readItems : ℕ → Text → Option (List JsonTree × Text)
  | 0, _ => none
  | fuel + 1, text => do
    let (item, rest) ← readTree fuel text
    match Json.skipSpace rest with
    | [] => none
    | u :: rest =>
      if u = 0x2c then (readItems fuel rest).map fun p => (item :: p.1, p.2)
      else if u = 0x5d then some ([item], rest)
      else none
def readMembers : ℕ → Text → Option (List (Text × JsonTree) × Text)
  | 0, _ => none
  | fuel + 1, text =>
    if (Json.skipSpace text).head? = some 0x22 then do
      let (name, rest) ← Json.readString (Json.skipSpace text).tail
      if (Json.skipSpace rest).head? = some 0x3a then do
        let (tree, rest) ← readTree fuel (Json.skipSpace rest).tail
        match Json.skipSpace rest with
        | [] => none
        | u :: rest =>
          if u = 0x2c then (readMembers fuel rest).map fun p => ((name, tree) :: p.1, p.2)
          else if u = 0x7d then some ([(name, tree)], rest)
          else none
      else none
    else none
end

def parse (text : Text) : Option JsonTree := do
  let (tree, rest) ← readTree (text.length + 1) text
  if (Json.skipSpace rest).isEmpty then some tree else none

theorem itemValues_eq (items : List JsonTree) : itemValues items = items.map value := by
  induction items with
  | nil => rfl
  | cons item items ih => rw [itemValues, ih, List.map_cons]

theorem memberValues_eq (members : List (Text × JsonTree)) :
    memberValues members = members.map fun m => (m.1, m.2.value) := by
  induction members with
  | nil => rfl
  | cons m members ih => rw [memberValues, ih, List.map_cons]

theorem names_memberValues (members : List (Text × JsonTree)) :
    (memberValues members).map Prod.fst = members.map Prod.fst := by
  rw [memberValues_eq, List.map_map]
  rfl

theorem readLiteral_value (text : Text) :
    Json.readLiteral text = (readLiteral text).map fun p => (p.1.value, p.2) := by
  unfold Json.readLiteral readLiteral
  cases Json.stripPrefix? (ascii "null") text with
  | some rest => rfl
  | none =>
    cases Json.stripPrefix? (ascii "true") text with
    | some rest => rfl
    | none =>
      cases Json.stripPrefix? (ascii "false") text with
      | some rest => rfl
      | none => cases scanNumber text <;> rfl

structure Agrees (fuel : ℕ) : Prop where
  tree : ∀ text, Json.readValue fuel text = (readTree fuel text).map fun p => (p.1.value, p.2)
  items : ∀ text, Json.readItems fuel text =
    (readItems fuel text).map fun p => (itemValues p.1, p.2)
  members : ∀ text, Json.readMembers fuel text =
    (readMembers fuel text).map fun p => (memberValues p.1, p.2)

theorem agrees (fuel : ℕ) : Agrees fuel := by
  induction fuel with
  | zero => exact ⟨fun _ => rfl, fun _ => rfl, fun _ => rfl⟩
  | succ fuel ih =>
    have hempty : fromEntries ([] : List (Text × Value)) = [] := rfl
    constructor
    · intro text
      rw [Json.readValue, readTree]
      cases Json.skipSpace text with
      | nil => rfl
      | cons u rest =>
        simp only [ih.items, ih.members, readLiteral_value]
        split_ifs
        all_goals simp [Function.comp_def, value, itemValues, memberValues, hempty]
    · intro text
      rw [Json.readItems, readItems, ih.tree]
      cases readTree fuel text with
      | none => rfl
      | some p =>
        simp only [Option.map_some, Option.bind_eq_bind, Option.bind_some]
        cases Json.skipSpace p.2 with
        | nil => rfl
        | cons u rest =>
          simp only [ih.items]
          split_ifs
          all_goals simp [Function.comp_def, itemValues]
    · intro text
      rw [Json.readMembers, readMembers]
      split_ifs
      · cases Json.readString (Json.skipSpace text).tail with
        | none => rfl
        | some p =>
          simp only [Option.bind_eq_bind, Option.bind_some, ih.tree]
          split_ifs
          · cases readTree fuel (Json.skipSpace p.2).tail with
            | none => rfl
            | some q =>
              simp only [Option.map_some, Option.bind_some]
              cases Json.skipSpace q.2 with
              | nil => rfl
              | cons u rest =>
                simp only [ih.members]
                split_ifs
                all_goals simp [Function.comp_def, memberValues]
          · rfl
      · rfl

theorem parse_eq (text : Text) : Json.parse text = (parse text).map value := by
  rw [Json.parse, parse, (agrees _).tree]
  cases readTree (text.length + 1) text with
  | none => rfl
  | some p =>
    simp only [Option.map_some, Option.bind_eq_bind, Option.bind_some]
    split_ifs
    · rfl
    · rfl

end JsonTree

end Ecma
