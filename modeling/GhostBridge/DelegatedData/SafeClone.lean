import GhostBridge.DelegatedData.PathLaws
import GhostBridge.Ecma.Json
import GhostBridge.Ecma.Utf8

/-!
# Copies of delegated data

The walk that every piece of delegated data goes through.
-/

namespace GhostBridge.DelegatedData

open Ecma Delegation

structure LimitOptions where
  maximumPayloadBytes : Option Nat := none
  maximumArrayItems : Option Nat := none
  maximumStringLength : Option Nat := none
  maximumObjectDepth : Option Nat := none
deriving DecidableEq

structure Limits where
  maximumPayloadBytes : Nat
  maximumArrayItems : Nat
  maximumStringLength : Nat
  maximumObjectDepth : Nat
deriving DecidableEq

def boundedLimit (value : Option Nat) (fallback maximum : Nat) : Nat :=
  match value with
  | none => min maximum fallback
  | some 0 => fallback
  | some n => min maximum n

def normalizedLimits (input : LimitOptions) : Limits where
  maximumPayloadBytes := boundedLimit input.maximumPayloadBytes
    InterAgentLimits.maximumPayloadBytes InterAgentLimits.maximumPayloadBytes
  maximumArrayItems := boundedLimit input.maximumArrayItems
    InterAgentLimits.maximumArrayItems InterAgentLimits.maximumArrayItems
  maximumStringLength := boundedLimit input.maximumStringLength
    InterAgentLimits.maximumStringLength InterAgentLimits.maximumStringLength
  maximumObjectDepth := boundedLimit input.maximumObjectDepth
    InterAgentLimits.maximumObjectDepth InterAgentLimits.maximumObjectDepth

def pathDepth (path : Text) : Nat := path.count 0x2e

def childPath (path key : Text) : Text := path ++ 0x2e :: key

def isFinite : Number → Bool
  | .finite _ => true
  | _ => false

def collectMembers : List (Text × Attempt (Option Value)) → Attempt (List (Text × Value))
  | [] => return []
  | (key, child) :: rest => do
    match ← child with
    | some value => return (key, value) :: (← collectMembers rest)
    | none => collectMembers rest

def withinBytes (limits : Limits) (path : Text) (result : Value) : Attempt Value := do
  throwWhen (limits.maximumPayloadBytes < Utf8.byteLength (Json.write result))
    (failure "INTER_AGENT_PAYLOAD_TOO_LARGE" "Delegated payload exceeds the configured byte limit."
      path)
  return result

mutual
def cloneValue (limits : Limits) (path : Text) (value : Value) : Attempt Value := do
  throwWhen (limits.maximumObjectDepth < pathDepth path)
    (failure "INTER_AGENT_DATA_DEPTH_EXCEEDED" "Delegated data exceeds the object-depth limit." path)
  match value with
  | .undefined => return .undefined
  | .null => return .null
  | .bool b => return .bool b
  | .number n => do
    throwWhen (!isFinite n)
      (failure "INTER_AGENT_DATA_TYPE_REJECTED" "Non-finite numbers are forbidden." path)
    return .number n
  | .string s => do
    throwWhen (limits.maximumStringLength < s.length)
      (failure "INTER_AGENT_STRING_LIMIT_EXCEEDED" "Delegated string exceeds the configured limit."
        path)
    return .string s
  | .array items => do
    throwWhen (limits.maximumArrayItems < items.length)
      (failure "INTER_AGENT_ARRAY_LIMIT_EXCEEDED" "Delegated array exceeds the configured limit."
        path)
    withinBytes limits path (.array (← cloneItems limits path 0 items))
  | .object members => do
    let copied ← collectMembers (Reordering.byName.order (cloneMembers limits path members))
    withinBytes limits path (.object copied)
def cloneItems (limits : Limits) (path : Text) (index : Nat) : List Value → Attempt (List Value)
  | [] => return []
  | item :: items => do
    let itemPath := childPath path (decimalDigits index)
    let cloned ← cloneValue limits itemPath item
    throwWhen cloned.isUndefined
      (failure "INTER_AGENT_DATA_TYPE_REJECTED" "Undefined array values are forbidden." itemPath)
    return cloned :: (← cloneItems limits path (index + 1) items)
def cloneMembers (limits : Limits) (path : Text) :
    List (Text × Value) → List (Text × Attempt (Option Value))
  | [] => []
  | (key, value) :: members =>
    (key, do
      throwWhen (dangerousKeys.contains key || !isSafeSegment key)
        (failure "INTER_AGENT_DANGEROUS_PATH" "A protected delegated-data field was rejected."
          (childPath path key))
      if hiddenFields.contains key || value.isUndefined then return none
      else return some (← cloneValue limits (childPath path key) value)) ::
      cloneMembers limits path members
end

def safeClone (value : Value) (limits : LimitOptions) (path : Text := ascii "$") : Attempt Value :=
  cloneValue (normalizedLimits limits) path value

def isKept (m : Text × Value) : Bool := !hiddenFields.contains m.1 && !m.2.isUndefined

mutual
def copyOf : Value → Value
  | .array items => .array (copyItems items)
  | .object members =>
    .object ((Reordering.byName.order (copyMembers members)).filterMap fun m => m.2.map (m.1, ·))
  | v => v
def copyItems : List Value → List Value
  | [] => []
  | item :: items => copyOf item :: copyItems items
def copyMembers : List (Text × Value) → List (Text × Option Value)
  | [] => []
  | (key, v) :: members =>
    (key, if isKept (key, v) then some (copyOf v) else none) :: copyMembers members
end

theorem copyOf_array (items : List Value) : copyOf (.array items) = .array (items.map copyOf) := by
  have hitems (list : List Value) : copyItems list = list.map copyOf := by
    induction list with
    | nil => rfl
    | cons item list ih => rw [copyItems, ih, List.map_cons]
  rw [copyOf, hitems]

def copiedMembers (members : List (Text × Value)) : List (Text × Value) :=
  ((Reordering.byName.order members).filter isKept).map (Prod.map id copyOf)

theorem copyOf_object (members : List (Text × Value)) :
    copyOf (.object members) = .object (copiedMembers members) := by
  have hmembers (list : List (Text × Value)) : copyMembers list =
      list.map fun m => (m.1, if isKept (m.1, m.2) then some (copyOf m.2) else none) := by
    induction list with
    | nil => rfl
    | cons m list ih => rw [copyMembers, ih, List.map_cons]
  rw [copyOf, hmembers, Reordering.order_map_named _
    (fun key v => if isKept (key, v) then some (copyOf v) else none), copiedMembers,
    List.filterMap_map, ← List.filterMap_eq_filter, List.map_filterMap]
  congr 1
  apply List.filterMap_congr
  intro m _
  by_cases hm : isKept m = true
  · simp [Option.guard, hm]
    rfl
  · simp [Option.guard, hm]

variable {limits : Limits} {path : Text} {value copy : Value}

def memberClone (limits : Limits) (path key : Text) (value : Value) : Attempt (Option Value) := do
  throwWhen (dangerousKeys.contains key || !isSafeSegment key)
    (failure "INTER_AGENT_DANGEROUS_PATH" "A protected delegated-data field was rejected."
      (childPath path key))
  if hiddenFields.contains key || value.isUndefined then return none
  else return some (← cloneValue limits (childPath path key) value)

theorem cloneMembers_eq (limits : Limits) (path : Text) (members : List (Text × Value)) :
    cloneMembers limits path members = members.map fun m => (m.1, memberClone limits path m.1 m.2) := by
  induction members with
  | nil => rfl
  | cons m members ih => rw [cloneMembers, ih]; rfl

theorem memberClone_ok {key : Text} {result : Option Value}
    (h : memberClone limits path key value = .ok result) :
    dangerousKeys.contains key = false ∧ isSafeSegment key = true ∧
      (isKept (key, value) = false ∧ result = none ∨ isKept (key, value) = true ∧
        ∃ copy, cloneValue limits (childPath path key) value = .ok copy ∧ result = some copy) := by
  unfold memberClone at h
  obtain ⟨_, hname, h⟩ := bind_ok.mp h
  rw [throwWhen_ok, Bool.or_eq_false_iff, Bool.not_eq_false'] at hname
  apply And.intro hname.1
  apply And.intro hname.2
  unfold isKept
  split at h
  · next hskip =>
    apply Or.inl
    rw [← Bool.not_or, hskip]
    exact ⟨rfl, (pure_ok.mp h).symm⟩
  · next hskip =>
    apply Or.inr
    rw [← Bool.not_or, Bool.eq_false_iff.mpr hskip]
    obtain ⟨copy, hcopy, hresult⟩ := bind_ok.mp h
    exact ⟨rfl, copy, hcopy, (pure_ok.mp hresult).symm⟩

theorem withinBytes_ok {result : Value} : withinBytes limits path result = .ok copy ↔
    Utf8.byteLength (Json.write result) ≤ limits.maximumPayloadBytes ∧ copy = result := by
  unfold withinBytes
  simp only [bind_ok, throwWhen_ok, exists_unit, decide_eq_false_iff_not, not_lt, pure_ok]
  exact and_congr_right fun _ => eq_comm

theorem cloneItems_ok {items copied : List Value} {index : Nat}
    (h : cloneItems limits path index items = .ok copied) :
    List.Forall₂ (fun item copy =>
      (∃ itemPath, cloneValue limits itemPath item = .ok copy) ∧ copy.isUndefined = false)
      items copied := by
  induction items generalizing copied index with
  | nil =>
    obtain rfl : [] = copied := pure_ok.mp h
    exact .nil
  | cons item items ih =>
    rw [cloneItems] at h
    obtain ⟨copy, hcopy, h⟩ := bind_ok.mp h
    obtain ⟨_, hdefined, h⟩ := bind_ok.mp h
    obtain ⟨rest, hrest, h⟩ := bind_ok.mp h
    obtain rfl := pure_ok.mp h
    exact .cons ⟨⟨_, hcopy⟩, throwWhen_ok.mp hdefined⟩ (ih hrest)

private theorem items_eq_map {items copied : List Value}
    (h : List.Forall₂ (fun item copy =>
      (∃ itemPath, cloneValue limits itemPath item = .ok copy) ∧ copy.isUndefined = false)
      items copied)
    (hcopies : ∀ item ∈ items, ∀ {path : Text} {copy : Value},
      cloneValue limits path item = .ok copy → copy = copyOf item) :
    copied = items.map copyOf := by
  induction h with
  | nil => rfl
  | cons hitem _ ih =>
    obtain ⟨⟨itemPath, hclone⟩, -⟩ := hitem
    rw [List.map_cons, hcopies _ List.mem_cons_self hclone,
      ih fun item hi => hcopies item (List.mem_cons_of_mem _ hi)]

theorem collectMembers_ok {list copied : List (Text × Value)}
    (h : collectMembers (list.map fun m => (m.1, memberClone limits path m.1 m.2)) = .ok copied)
    (hcopies : ∀ m ∈ list, ∀ copy,
      cloneValue limits (childPath path m.1) m.2 = .ok copy → copy = copyOf m.2) :
    copied = (list.filter isKept).map (Prod.map id copyOf) := by
  induction list generalizing copied with
  | nil => exact (pure_ok.mp h).symm
  | cons m list ih =>
    rw [List.map_cons, collectMembers] at h
    obtain ⟨result, hresult, h⟩ := bind_ok.mp h
    have hcollect {rest : List (Text × Value)}
        (h : collectMembers (list.map fun m => (m.1, memberClone limits path m.1 m.2)) = .ok rest) :
        rest = (list.filter isKept).map (Prod.map id copyOf) :=
      ih h fun n hn => hcopies n (List.mem_cons_of_mem m hn)
    obtain ⟨-, -, ⟨hskip, rfl⟩ | ⟨hkeep, copy, hcopy, rfl⟩⟩ := memberClone_ok hresult
    · have hskip' : isKept m = false := hskip
      rw [List.filter_cons_of_neg (Bool.eq_false_iff.mp hskip')]
      exact hcollect h
    · have hkeep' : isKept m = true := hkeep
      rw [List.filter_cons_of_pos hkeep', List.map_cons]
      obtain ⟨rest, hrest, hcopied⟩ := bind_ok.mp h
      rw [← hcollect hrest, ← pure_ok.mp hcopied, hcopies m List.mem_cons_self copy hcopy]
      rfl

theorem cloneValue_ok (h : cloneValue limits path value = .ok copy) : copy = copyOf value := by
  induction value using Value.inductionOn generalizing path copy with
  | array items ih =>
    rw [cloneValue] at h
    obtain ⟨_, -, h⟩ := bind_ok.mp h
    obtain ⟨_, -, h⟩ := bind_ok.mp h
    obtain ⟨copied, hcopied, h⟩ := bind_ok.mp h
    rw [(withinBytes_ok.mp h).2, copyOf_array]
    exact congrArg Value.array (items_eq_map (cloneItems_ok hcopied) fun item hi => ih item hi)
  | object members ih =>
    rw [cloneValue] at h
    obtain ⟨_, -, h⟩ := bind_ok.mp h
    obtain ⟨copied, hcopied, h⟩ := bind_ok.mp h
    rw [cloneMembers_eq, Reordering.order_map_named] at hcopied
    have hmembers := collectMembers_ok hcopied fun m hm copy hcopy =>
      ih m ((Reordering.byName.perm members).mem_iff.mp hm) hcopy
    rw [(withinBytes_ok.mp h).2, copyOf_object, hmembers]
    rfl
  | undefined | null | bool =>
    rw [cloneValue] at h
    obtain ⟨_, -, h⟩ := bind_ok.mp h
    exact (pure_ok.mp h).symm
  | number | string =>
    rw [cloneValue] at h
    obtain ⟨_, -, h⟩ := bind_ok.mp h
    obtain ⟨_, -, h⟩ := bind_ok.mp h
    exact (pure_ok.mp h).symm

theorem safeClone_ok {options : LimitOptions} (h : safeClone value options path = .ok copy) :
    copy = copyOf value := cloneValue_ok h

def isHidden (q : Position) : Bool := q.names.any hiddenFields.contains

theorem isUndefined_copyOf (v : Value) : (copyOf v).isUndefined = v.isUndefined := by
  cases v with
  | array items => rw [copyOf_array]; rfl
  | object members => rw [copyOf_object]; rfl
  | _ => rfl

theorem lookup_copiedMembers {members : List (Text × Value)} (h : (members.map Prod.fst).Nodup)
    (key : Text) :
    (copiedMembers members).lookup key =
      ((members.lookup key).filter fun v => isKept (key, v)).map copyOf := by
  have hperm := Reordering.byName.perm members
  have hkept : (copiedMembers members).map Prod.fst =
      ((Reordering.byName.order members).filter isKept).map Prod.fst := by
    unfold copiedMembers
    rw [List.map_map]
    rfl
  have hnodup : ((copiedMembers members).map Prod.fst).Nodup := by
    rw [hkept]
    exact ((hperm.map Prod.fst).nodup_iff.mpr h).sublist (List.filter_sublist.map Prod.fst)
  apply Option.ext
  intro copy
  rw [lookup_eq_some_iff hnodup]
  simp only [Option.map_eq_some_iff, Option.filter_eq_some_iff, lookup_eq_some_iff h]
  unfold copiedMembers
  simp only [List.mem_map, List.mem_filter, hperm.mem_iff]
  constructor
  · rintro ⟨⟨k, v⟩, ⟨hm, hkeep⟩, heq⟩
    obtain ⟨rfl, rfl⟩ := Prod.mk.inj heq
    exact ⟨v, ⟨hm, hkeep⟩, rfl⟩
  · rintro ⟨v, ⟨hm, hkeep⟩, rfl⟩
    exact ⟨(key, v), ⟨hm, hkeep⟩, rfl⟩

theorem at?_copyOf {v : Value} (hv : v.uniqueKeys = true) (q : Position) :
    (copyOf v).at? q = if isHidden q then none else (v.at? q).map copyOf := by
  induction q generalizing v with
  | nil =>
    show _ = (v.at? []).map copyOf
    rw [Value.at?_nil, Value.at?_nil, isUndefined_copyOf]
    split <;> rfl
  | cons step q ih =>
    have hleaf (h : v.isObjectLike = false) (hcopy : copyOf v = v) :
        (copyOf v).at? (step :: q) =
          if isHidden (step :: q) then none else (v.at? (step :: q)).map copyOf := by
      rw [hcopy, Value.at?_cons_of_leaf h]
      split <;> rfl
    cases v with
    | array items =>
      rw [copyOf_array]
      cases step with
      | member name =>
        rw [Value.at?_array_member, Value.at?_array_member]
        split <;> rfl
      | item index =>
        rw [Value.at?_array, Value.at?_array, List.getElem?_map]
        show _ = if isHidden q then none else _
        cases hitem : items[index]? with
        | none => split <;> rfl
        | some item =>
          exact ih ((Value.uniqueKeys_array items).mp hv item (List.mem_of_getElem? hitem))
    | object members =>
      rw [copyOf_object]
      obtain ⟨hnodup, hmembers⟩ := (Value.uniqueKeys_object members).mp hv
      cases step with
      | item index =>
        rw [Value.at?_object_item, Value.at?_object_item]
        split <;> rfl
      | member name =>
        rw [Value.at?_object, Value.at?_object, lookup_copiedMembers hnodup]
        have hcons : isHidden (.member name :: q) = (hiddenFields.contains name || isHidden q) := rfl
        rw [hcons]
        cases hlookup : members.lookup name with
        | none => split <;> rfl
        | some v =>
          have hunique := hmembers (name, v) ((lookup_eq_some_iff hnodup name v).mp hlookup)
          have hstep := ih hunique
          rw [Option.filter_some]
          unfold isKept
          cases hhidden : hiddenFields.contains name with
          | true => rfl
          | false =>
            cases hdefined : v.isUndefined with
            | true =>
              cases v with
              | undefined =>
                show none = if isHidden q then none else (Value.undefined.at? q).map copyOf
                cases q <;> split <;> rfl
              | _ => cases hdefined
            | false => exact hstep
    | _ => exact hleaf rfl rfl

theorem shape_copyOf (v : Value) : (copyOf v).shape = v.shape := by
  cases v with
  | array items =>
    rw [copyOf_array]
    exact congrArg Shape.array (List.length_map copyOf)
  | object members => rw [copyOf_object]; rfl
  | _ => rfl

theorem shapeAt_copyOf {v : Value} (hv : v.uniqueKeys = true) {q : Position}
    (hq : isHidden q = false) : (copyOf v).shapeAt q = v.shapeAt q := by
  unfold Value.shapeAt
  rw [at?_copyOf hv, hq]
  cases v.at? q with
  | none => rfl
  | some w => exact congrArg some (shape_copyOf w)

theorem uniqueKeys_copyOf {v : Value} (hv : v.uniqueKeys = true) : (copyOf v).uniqueKeys = true := by
  induction v using Value.inductionOn with
  | array items ih =>
    rw [copyOf_array, Value.uniqueKeys_array]
    rw [Value.uniqueKeys_array] at hv
    intro copy hcopy
    obtain ⟨item, hitem, rfl⟩ := List.mem_map.mp hcopy
    exact ih item hitem (hv item hitem)
  | object members ih =>
    obtain ⟨hnodup, hmembers⟩ := (Value.uniqueKeys_object members).mp hv
    have hperm := Reordering.byName.perm members
    rw [copyOf_object, Value.uniqueKeys_object]
    constructor
    · unfold copiedMembers
      rw [List.map_map]
      exact ((hperm.map Prod.fst).nodup_iff.mpr hnodup).sublist (List.filter_sublist.map Prod.fst)
    · intro m hm
      obtain ⟨n, hn, rfl⟩ := List.mem_map.mp hm
      have hn' := hperm.mem_iff.mp (List.mem_filter.mp hn).1
      exact ih n hn' (hmembers n hn')
  | _ => exact hv

end GhostBridge.DelegatedData
