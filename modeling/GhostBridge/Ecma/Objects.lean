import GhostBridge.Ecma.MemberOrder

/-!
# Objects

Objects as literals and spreads build them, and the `includes` of arrays and texts.
-/

namespace Ecma.Value

def record (members : List (String × Value)) : Value :=
  .object (members.map fun m => (ascii m.1, m.2))

/-- `...(condition ? { name: value } : {})` of an object literal. -/
def optional (condition : Bool) (name : String) (value : Value) : List (String × Value) :=
  if condition then [(name, value)] else []

def members : Value → List (Text × Value)
  | .object members => members
  | _ => []

/-- `{ ...value, ...additions }`. -/
def spread (value : Value) (additions : List (String × Value)) : Value :=
  .object (additions.foldl (fun own m => defineMember own (ascii m.1) m.2) value.members)

/-- `value.includes(item)`; other values have no such method. -/
def includes : Value → Value → Option Bool
  | .array items, item => some (items.any (·.sameValueZero item))
  | .string s, item => item.toText?.map fun text => decide (text <:+: s)
  | _, _ => none

theorem eq_or_falsy_of_strictEq {a b : Value} (h : a.strictEq b = true) :
    a = b ∨ (a.isTruthy = false ∧ b.isTruthy = false) := by
  cases a with
  | number m =>
    cases b with
    | number n =>
      cases m with
      | finite x =>
        cases n with
        | finite y =>
          rcases Bool.or_eq_true_iff.mp h with heq | hzero
          · exact .inl (by rw [eq_of_beq heq])
          · rw [Bool.and_eq_true] at hzero
            exact .inr ⟨by rw [isTruthy, hzero.1]; rfl, by rw [isTruthy, hzero.2]; rfl⟩
        | _ => cases h
      | infinity s =>
        cases n with
        | infinity t => exact .inl (by rw [eq_of_beq (show (s == t) = true from h)])
        | _ => cases h
      | nan => cases n <;> cases h
    | _ => cases h
  | string s =>
    rw [string_strictEq] at h
    exact .inl h.symm
  | _ => cases b <;> simp_all [strictEq]

theorem field_eq_lookup (value : Value) (name : Text) :
    value.field name = (value.members.lookup name).getD .undefined := by
  cases value <;> rfl

theorem field_record (members : List (String × Value)) (name : Text) :
    (record members).field name =
      ((members.find? fun m => ascii m.1 == name).map Prod.snd).getD .undefined := by
  have hlookup : (members.map fun m => (ascii m.1, m.2)).lookup name =
      (members.find? fun m => ascii m.1 == name).map Prod.snd := by
    induction members with
    | nil => rfl
    | cons m members ih =>
      rw [List.map_cons, List.lookup_cons, List.find?_cons, ih, Bool.beq_comm]
      cases ascii m.1 == name <;> rfl
  rw [record, field, hlookup]

theorem find?_optional_of_ne {condition : Bool} {name : String} {value : Value} {other : Text}
    (h : ascii name ≠ other) :
    (optional condition name value).find? (fun m => ascii m.1 == other) = none := by
  unfold optional
  split <;> simp [h]

theorem orElse_find?_optional (name : String) (value : Value) :
    ((((optional value.isTruthy name value).find? fun m => ascii m.1 == ascii name).map
      Prod.snd).getD .undefined).orElse .undefined = value.orElse .undefined := by
  cases htruthy : value.isTruthy with
  | true => simp [optional]
  | false => simp [optional, orElse, htruthy]

theorem lookup_defineMember_self {α : Type} (members : List (Text × α)) (name : Text) (value : α) :
    (defineMember members name value).lookup name = some value := by
  induction members with
  | nil => simp [defineMember]
  | cons m members ih =>
    obtain ⟨key, old⟩ := m
    rw [defineMember]
    split
    · exact List.lookup_cons_self
    · next hkey =>
      have hname : (name == key) = false := beq_eq_false_iff_ne.mpr fun h => hkey h.symm
      simp only [List.lookup_cons, hname, ih]

private theorem lookup_define (additions : List (String × Value)) (own : List (Text × Value))
    (name : Text) :
    (additions.foldl (fun own m => defineMember own (ascii m.1) m.2) own).lookup name =
      ((additions.reverse.find? fun m => ascii m.1 == name).map Prod.snd).or (own.lookup name) := by
  induction additions generalizing own with
  | nil => rfl
  | cons m additions ih =>
    rw [List.foldl_cons, ih, List.reverse_cons, List.find?_append]
    cases hfind : additions.reverse.find? fun m => ascii m.1 == name with
    | some found => rfl
    | none =>
      by_cases hname : ascii m.1 = name
      · subst hname
        simp [lookup_defineMember_self]
      · simp [lookup_defineMember_of_ne (Ne.symm hname), hname]

theorem field_spread (value : Value) (additions : List (String × Value)) (name : Text) :
    (value.spread additions).field name =
      ((additions.reverse.find? fun m => ascii m.1 == name).map Prod.snd).getD (value.field name) := by
  rw [field_eq_lookup value, spread, field, lookup_define]
  cases additions.reverse.find? fun m => ascii m.1 == name <;> rfl

theorem field_spread_of_ne {value : Value} {additions : List (String × Value)} {name : Text}
    (h : ∀ m ∈ additions, ascii m.1 ≠ name) : (value.spread additions).field name = value.field name := by
  have hnone : (additions.reverse.find? fun m => ascii m.1 == name) = none := by simpa using h
  rw [field_spread, hnone]
  rfl

@[simp] theorem field_spread_single (value : Value) (name : String) (addition : Value) :
    (value.spread [(name, addition)]).field (ascii name) = addition := by
  rw [field_spread]
  simp

end Ecma.Value

namespace Ecma

/-- `items.includes(item)`. -/
def listed (items : List Value) (item : Value) : Bool := items.any (·.sameValueZero item)

/-- `set.add(item)`, where a set lists its items in the order they were added. -/
def addItem (set : List Value) (item : Value) : List Value :=
  if listed set item then set else set ++ [item]

/-- `[...new Set(items)]`. -/
def distinctValues (items : List Value) : List Value := items.foldl addItem []

variable {items : List Value} {item other : Value}

theorem listed_congr (h : item.sameValueZero other = true) : listed items item = listed items other := by
  have hother : other.sameValueZero item = true := by rw [Value.sameValueZero_comm]; exact h
  rw [Bool.eq_iff_iff]
  simp only [listed, List.any_eq_true]
  constructor
  · rintro ⟨a, ha, hsame⟩
    exact ⟨a, ha, Value.sameValueZero_trans hsame h⟩
  · rintro ⟨a, ha, hsame⟩
    exact ⟨a, ha, Value.sameValueZero_trans hsame hother⟩

private theorem forall_foldl {P : Value → Prop} (hP : ∀ a b, a.sameValueZero b = true → P a → P b)
    (items set : List Value) :
    (∀ a ∈ items.foldl addItem set, P a) ↔ (∀ a ∈ set, P a) ∧ ∀ a ∈ items, P a := by
  induction items generalizing set with
  | nil => simp
  | cons added items ih =>
    have hadd : (∀ a ∈ addItem set added, P a) ↔ (∀ a ∈ set, P a) ∧ P added := by
      unfold addItem
      split
      · next hlisted =>
        obtain ⟨a, ha, hsame⟩ := List.any_eq_true.mp hlisted
        exact ⟨fun h => ⟨h, hP a added hsame (h a ha)⟩, fun h => h.1⟩
      · simp [or_imp, forall_and]
    rw [List.foldl_cons, ih, hadd, List.forall_mem_cons, and_assoc]

theorem forall_distinctValues {allowed : List Value} :
    (∀ key ∈ distinctValues items, listed allowed key = true) ↔
      ∀ key ∈ items, listed allowed key = true := by
  rw [distinctValues, forall_foldl (P := fun key => listed allowed key = true)
    fun a b hsame ha => by rwa [← listed_congr hsame]]
  simp

theorem distinctValues_ne_nil (h : items ≠ []) : distinctValues items ≠ [] := by
  have hgrows (items set : List Value) (hset : set ≠ []) : items.foldl addItem set ≠ [] := by
    induction items generalizing set with
    | nil => exact hset
    | cons added items ih =>
      refine ih _ ?_
      unfold addItem
      split
      · exact hset
      · simp
  cases items with
  | nil => exact absurd rfl h
  | cons added items => exact hgrows items [added] (by simp)

def Distinct (items : List Value) : Prop := items.Pairwise fun a b => a.sameValueZero b = false

instance (items : List Value) : Decidable (Distinct items) :=
  inferInstanceAs (Decidable (List.Pairwise _ _))

private theorem distinct_foldl (items set : List Value) (h : Distinct set) :
    Distinct (items.foldl addItem set) := by
  induction items generalizing set with
  | nil => exact h
  | cons added items ih =>
    refine ih _ ?_
    unfold addItem
    split
    · exact h
    · next hnew =>
      simp only [listed, List.any_eq_true, not_exists, not_and, Bool.not_eq_true] at hnew
      refine List.pairwise_append.mpr ⟨h, List.pairwise_singleton _ _, fun a ha b hb => ?_⟩
      obtain rfl := List.mem_singleton.mp hb
      exact hnew a ha

theorem distinct_distinctValues (items : List Value) : Distinct (distinctValues items) :=
  distinct_foldl items [] .nil

theorem distinctValues_of_distinct (h : Distinct items) : distinctValues items = items := by
  have hfold (set : List Value) (hall : Distinct (set ++ items)) :
      items.foldl addItem set = set ++ items := by
    clear h
    induction items generalizing set with
    | nil => simp
    | cons added items ih =>
      have hnew : listed set added = false := by
        simp only [listed, List.any_eq_false, Bool.not_eq_true]
        exact fun a ha => (List.pairwise_append.mp hall).2.2 a ha added (by simp)
      have happ : set ++ [added] ++ items = set ++ added :: items := by simp
      rw [List.foldl_cons, addItem, hnew, if_neg (by simp), ih _ (by rwa [happ]), happ]
  exact hfold [] h

end Ecma
