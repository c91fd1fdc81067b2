import GhostBridge.Ecma.Regex
import GhostBridge.ProtocolCore.PlainData

/-!
# Secret fields

Public documents are refused when the dotted path of one of their leaves looks like a secret, and
public data is redacted key by key.
-/

namespace GhostBridge.ProtocolCore

open Ecma

/-- `[-_]?`. -/
private def joint : Regex := .option (.oneOf (ascii "-_"))

def secretKeyPattern : Regex :=
  .anyOf [
    .caseless (ascii "authorization"),
    .caseless (ascii "cookie"),
    .sequence [.caseless (ascii "api"), joint, .caseless (ascii "key")],
    .sequence [.caseless (ascii "access"), joint, .caseless (ascii "token")],
    .sequence [.caseless (ascii "refresh"), joint, .caseless (ascii "token")],
    .caseless (ascii "bearer"),
    .caseless (ascii "password"),
    .caseless (ascii "secret"),
    .sequence [.caseless (ascii "database"), joint, .caseless (ascii "uri")],
    .sequence [.caseless (ascii "mongo"), .option (.caseless (ascii "db")), joint,
      .caseless (ascii "uri")],
    .sequence [.caseless (ascii "system"), joint, .caseless (ascii "prompt")],
    .sequence [.caseless (ascii "chain"), joint, .caseless (ascii "of"), joint,
      .caseless (ascii "thought")],
    .sequence [.caseless (ascii "hidden"), joint, .caseless (ascii "reasoning")],
    .sequence [.caseless (ascii "private"), joint, .caseless (ascii "memory")],
    .sequence [.caseless (ascii "source"), joint, .caseless (ascii "code")]]

/-- `SECRET_KEY_PATTERN.test(text)`. -/
def isSecret (text : Text) : Bool := secretKeyPattern.test text

/-- `prefix ? prefix.key : key`. -/
def childPath (parent key : Text) : Text :=
  if parent.isEmpty then key else parent ++ 0x2e :: key

mutual
def collectLeafPaths : Value → Text → List Text
  | .object members, parent => collectMemberPaths members parent
  | _, parent => if parent.isEmpty then [] else [parent]
def collectMemberPaths : List (Text × Value) → Text → List Text
  | [], _ => []
  | (key, child) :: members, parent =>
    (match child with
      | .object _ => collectLeafPaths child (childPath parent key)
      | _ => [childPath parent key]) ++ collectMemberPaths members parent
end

def assertNoSecretFields (value : Value) (errorCode : ProtocolErrorCode) (message : String) :
    Checked Unit := do
  let prohibited := (collectLeafPaths value []).filter isSecret
  throwWhen (!prohibited.isEmpty)
    (protocolError errorCode message { prohibitedPaths := prohibited.take 20 })

mutual
def removeUndefined : Value → Value
  | .array items => .array (removeUndefinedItems items)
  | .object members => .object (fromEntries (removeUndefinedMembers members))
  | v => v
def removeUndefinedItems : List Value → List Value
  | [] => []
  | item :: items =>
    if item.isUndefined then removeUndefinedItems items
    else removeUndefined item :: removeUndefinedItems items
def removeUndefinedMembers : List (Text × Value) → List (Text × Value)
  | [] => []
  | (key, child) :: members =>
    if child.isUndefined then removeUndefinedMembers members
    else (key, removeUndefined child) :: removeUndefinedMembers members
end

private theorem removeUndefinedMembers_eq (members : List (Text × Value)) :
    removeUndefinedMembers members =
      (members.filter fun m => !m.2.isUndefined).map (Prod.map id removeUndefined) := by
  induction members with
  | nil => rfl
  | cons m members ih =>
    obtain ⟨key, child⟩ := m
    cases h : child.isUndefined <;> simp [removeUndefinedMembers, h, ih]

private theorem removeUndefinedItems_eq (items : List Value) :
    removeUndefinedItems items =
      (items.filter fun item => !item.isUndefined).map removeUndefined := by
  induction items with
  | nil => rfl
  | cons item items ih => cases h : item.isUndefined <;> simp [removeUndefinedItems, h, ih]

private theorem nodup_removeUndefined {members : List (Text × Value)}
    (h : (members.map Prod.fst).Nodup) :
    ((removeUndefinedMembers members).map Prod.fst).Nodup := by
  rw [removeUndefinedMembers_eq, List.map_map]
  exact h.sublist (List.filter_sublist.map Prod.fst)

theorem uniqueKeys_removeUndefined {value : Value} (h : value.uniqueKeys = true) :
    (removeUndefined value).uniqueKeys = true := by
  induction value using Value.inductionOn with
  | array items ih =>
    rw [Value.uniqueKeys_array] at h
    rw [removeUndefined, removeUndefinedItems_eq, Value.uniqueKeys_array, List.forall_mem_map]
    intro item hi
    have hi := List.mem_of_mem_filter hi
    exact ih item hi (h item hi)
  | object members ih =>
    obtain ⟨hnames, h⟩ := (Value.uniqueKeys_object members).mp h
    rw [removeUndefined, Value.uniqueKeys_object]
    refine ⟨nodup_fromEntries (nodup_removeUndefined hnames), fun m hm => ?_⟩
    have hm := mem_of_mem_fromEntries hm
    rw [removeUndefinedMembers_eq] at hm
    obtain ⟨n, hn, rfl⟩ := List.mem_map.mp hm
    have hn := List.mem_of_mem_filter hn
    exact ih n hn (h n hn)
  | _ => rfl

theorem field_removeUndefined {value : Value} (h : value.uniqueKeys = true) {name s : Text}
    (hs : value.field name = .string s) : (removeUndefined value).field name = .string s := by
  cases value with
  | object members =>
    have hnames := ((Value.uniqueKeys_object members).mp h).1
    cases hlookup : members.lookup name with
    | none => simp [Value.field, hlookup] at hs
    | some child =>
      obtain rfl : child = .string s := by simpa [Value.field, hlookup] using hs
      have hm := (lookup_eq_some_iff hnames name _).mp hlookup
      have hkept : (removeUndefinedMembers members).lookup name = some (.string s) := by
        rw [lookup_eq_some_iff (nodup_removeUndefined hnames), removeUndefinedMembers_eq]
        exact List.mem_map.mpr ⟨_, List.mem_filter.mpr ⟨hm, rfl⟩, rfl⟩
      rw [removeUndefined, Value.field, lookup_fromEntries (nodup_removeUndefined hnames), hkept]
      rfl
  | _ => cases hs

/-- `'[REDACTED]'`. -/
def redactedText : Value := .string (ascii "[REDACTED]")

mutual
def redactWalk : Value → Value
  | .array items => .array (redactItems items)
  | .object members => .object (fromEntries (redactMembers members))
  | v => v
def redactItems : List Value → List Value
  | [] => []
  | item :: items => redactWalk item :: redactItems items
def redactMembers : List (Text × Value) → List (Text × Value)
  | [] => []
  | (key, child) :: members =>
    (key, if isSecret key then redactedText else redactWalk child) :: redactMembers members
end

def redactPublicData (value : Value) : Checked Value := do
  let cleaned ← assertPlainData (removeUndefined value) defaultLimits
  pure (redactWalk cleaned)

mutual
def hasSecretKey : Value → Bool
  | .array items => hasSecretItem items
  | .object members => hasSecretMember members
  | _ => false
def hasSecretItem : List Value → Bool
  | [] => false
  | item :: items => hasSecretKey item || hasSecretItem items
def hasSecretMember : List (Text × Value) → Bool
  | [] => false
  | (key, child) :: members => isSecret key || hasSecretKey child || hasSecretMember members
end

mutual
def hasLeaf : Value → Bool
  | .object members => hasLeafMember members
  | _ => true
def hasLeafMember : List (Text × Value) → Bool
  | [] => false
  | (_, child) :: members => hasLeaf child || hasLeafMember members
end

mutual
def hasSecretLeaf : Value → Bool
  | .object members => hasSecretLeafMember members
  | _ => false
def hasSecretLeafMember : List (Text × Value) → Bool
  | [] => false
  | (key, child) :: members =>
    (isSecret key && hasLeaf child) || hasSecretLeaf child || hasSecretLeafMember members
end

mutual
def allRedacted : Value → Bool
  | .array items => allRedactedItems items
  | .object members => allRedactedMembers members
  | _ => true
def allRedactedItems : List Value → Bool
  | [] => true
  | item :: items => allRedacted item && allRedactedItems items
def allRedactedMembers : List (Text × Value) → Bool
  | [] => true
  | (key, child) :: members =>
    (if isSecret key then child == redactedText else allRedacted child) && allRedactedMembers members
end

theorem allRedacted_array (items : List Value) :
    allRedacted (.array items) = true ↔ ∀ item ∈ items, allRedacted item = true := by
  rw [allRedacted]
  induction items with
  | nil => simp [allRedactedItems]
  | cons item items ih => simp [allRedactedItems, ih]

theorem allRedacted_object (members : List (Text × Value)) :
    allRedacted (.object members) = true ↔
      ∀ m ∈ members, if isSecret m.1 then m.2 = redactedText else allRedacted m.2 = true := by
  rw [allRedacted]
  induction members with
  | nil => simp [allRedactedMembers]
  | cons m members ih =>
    simp only [allRedactedMembers, Bool.and_eq_true, ih, List.forall_mem_cons]
    refine and_congr_left fun _ => ?_
    split <;> simp

private theorem redactItems_eq (items : List Value) : redactItems items = items.map redactWalk := by
  induction items with
  | nil => rfl
  | cons item items ih => rw [redactItems, ih, List.map_cons]

private theorem redactMembers_eq (members : List (Text × Value)) :
    redactMembers members =
      members.map fun m => (m.1, if isSecret m.1 then redactedText else redactWalk m.2) := by
  induction members with
  | nil => rfl
  | cons m members ih => rw [redactMembers, ih, List.map_cons]

theorem allRedacted_redactWalk (value : Value) : allRedacted (redactWalk value) = true := by
  induction value using Value.inductionOn with
  | array items ih =>
    rw [redactWalk, redactItems_eq, allRedacted_array, List.forall_mem_map]
    exact ih
  | object members ih =>
    rw [redactWalk, allRedacted_object]
    intro m hm
    have hm := mem_of_mem_fromEntries hm
    rw [redactMembers_eq] at hm
    obtain ⟨n, hn, rfl⟩ := List.mem_map.mp hm
    dsimp only
    split
    · rfl
    · exact ih n hn
  | _ => rfl

theorem redactPublicData_redacted {value result : Value} (h : redactPublicData value = .ok result) :
    allRedacted result = true := by
  simp only [redactPublicData, bind_ok, pure_ok] at h
  obtain ⟨cleaned, _, rfl⟩ := h
  exact allRedacted_redactWalk cleaned

private theorem isSecret_nil : isSecret [] = false := by
  decide

theorem isSecret_childPath (parent key : Text) :
    isSecret (childPath parent key) = (isSecret parent || isSecret key) := by
  unfold childPath
  split
  · next h => rw [List.isEmpty_iff.mp h, isSecret_nil, Bool.false_or]
  · exact Regex.test_append_cons (by decide) parent key

private theorem memberPaths_cons {key parent : Text} {child : Value} (members : List (Text × Value))
    (h : ∀ parent, (collectLeafPaths child parent).any isSecret =
      (hasSecretLeaf child || (isSecret parent && hasLeaf child))) :
    (collectMemberPaths ((key, child) :: members) parent).any isSecret =
      (hasSecretLeaf child || (isSecret (childPath parent key) && hasLeaf child) ||
        (collectMemberPaths members parent).any isSecret) := by
  cases child with
  | object _ => rw [collectMemberPaths, List.any_append, h]
  | _ => simp [collectMemberPaths, hasSecretLeaf, hasLeaf]

private theorem memberPaths_any {members : List (Text × Value)}
    (h : ∀ m ∈ members, ∀ parent, (collectLeafPaths m.2 parent).any isSecret =
      (hasSecretLeaf m.2 || (isSecret parent && hasLeaf m.2))) (parent : Text) :
    (collectMemberPaths members parent).any isSecret =
      (hasSecretLeafMember members || (isSecret parent && hasLeafMember members)) := by
  induction members with
  | nil => simp [collectMemberPaths, hasSecretLeafMember, hasLeafMember]
  | cons m members ih =>
    obtain ⟨key, child⟩ := m
    rw [List.forall_mem_cons] at h
    rw [memberPaths_cons members h.1, ih h.2, isSecret_childPath, hasSecretLeafMember,
      hasLeafMember]
    cases isSecret parent <;> cases isSecret key <;> cases hasLeaf child <;> simp [Bool.or_assoc]

theorem collectLeafPaths_any (value : Value) (parent : Text) :
    (collectLeafPaths value parent).any isSecret =
      (hasSecretLeaf value || (isSecret parent && hasLeaf value)) := by
  induction value using Value.inductionOn generalizing parent with
  | object members ih =>
    rw [collectLeafPaths, memberPaths_any ih, hasSecretLeaf, hasLeaf]
  | _ =>
    unfold collectLeafPaths hasSecretLeaf hasLeaf
    split
    · next h => simp [List.isEmpty_iff.mp h, isSecret_nil]
    · simp

theorem assertNoSecretFields_ok {value : Value} {errorCode : ProtocolErrorCode} {message : String} :
    assertNoSecretFields value errorCode message = .ok () ↔ hasSecretLeaf value = false := by
  have hany := collectLeafPaths_any value []
  rw [isSecret_nil, Bool.false_and, Bool.or_false] at hany
  rw [← hany]
  simp [assertNoSecretFields]

end GhostBridge.ProtocolCore
