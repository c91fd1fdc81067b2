import GhostBridge.Ecma.Decimal
import Mathlib.Data.List.Perm.Subperm

/-!
# Values

Plain data as the runtime holds it.
-/

namespace Ecma

inductive Value where
  | undefined
  | null
  | bool (b : Bool)
  | number (n : Number)
  | string (s : Text)
  | array (items : List Value)
  | object (members : List (Text × Value))

namespace Value

@[elab_as_elim]
theorem inductionOn {motive : Value → Prop} (undefined : motive .undefined) (null : motive .null)
    (bool : ∀ b, motive (.bool b)) (number : ∀ n, motive (.number n))
    (string : ∀ s, motive (.string s))
    (array : ∀ items, (∀ item ∈ items, motive item) → motive (.array items))
    (object : ∀ members, (∀ m ∈ members, motive m.2) → motive (.object members))
    (v : Value) : motive v :=
  @Value.rec motive (fun items => ∀ item ∈ items, motive item)
    (fun members => ∀ m ∈ members, motive m.2) (fun m => motive m.2)
    undefined null bool number string array object
    (fun _ h => nomatch h)
    (fun _ _ hv hvs _ h => (List.mem_cons.mp h).elim (fun e => e ▸ hv) (hvs _))
    (fun _ h => nomatch h)
    (fun _ _ hm hms _ h => (List.mem_cons.mp h).elim (fun e => e ▸ hm) (hms _))
    (fun _ _ h => h) v

mutual
def beq : Value → Value → Bool
  | .undefined, .undefined => true
  | .null, .null => true
  | .bool a, .bool b => a == b
  | .number a, .number b => a == b
  | .string a, .string b => a == b
  | .array xs, .array ys => beqItems xs ys
  | .object ms, .object ns => beqMembers ms ns
  | _, _ => false
def beqItems : List Value → List Value → Bool
  | [], [] => true
  | x :: xs, y :: ys => beq x y && beqItems xs ys
  | _, _ => false
def beqMembers : List (Text × Value) → List (Text × Value) → Bool
  | [], [] => true
  | (k, v) :: ms, (l, w) :: ns => k == l && beq v w && beqMembers ms ns
  | _, _ => false
end

private theorem beqItems_iff {xs : List Value}
    (ih : ∀ x ∈ xs, ∀ y, beq x y = true ↔ x = y) (ys : List Value) :
    beqItems xs ys = true ↔ xs = ys := by
  induction xs generalizing ys with
  | nil => cases ys <;> simp [beqItems]
  | cons x xs ihx =>
    cases ys with
    | nil => simp [beqItems]
    | cons y ys =>
      simp only [beqItems, Bool.and_eq_true, List.cons.injEq, ih x List.mem_cons_self,
        ihx (fun z hz => ih z (List.mem_cons_of_mem _ hz))]

private theorem beqMembers_iff {ms : List (Text × Value)}
    (ih : ∀ m ∈ ms, ∀ y, beq m.2 y = true ↔ m.2 = y) (ns : List (Text × Value)) :
    beqMembers ms ns = true ↔ ms = ns := by
  induction ms generalizing ns with
  | nil => cases ns <;> simp [beqMembers]
  | cons m ms ihm =>
    obtain ⟨k, v⟩ := m
    cases ns with
    | nil => simp [beqMembers]
    | cons n ns =>
      have hv := ih (k, v) List.mem_cons_self
      simp only [beqMembers, Bool.and_eq_true, List.cons.injEq, beq_iff_eq, Prod.ext_iff, hv,
        ihm (fun z hz => ih z (List.mem_cons_of_mem _ hz))]

theorem beq_iff (v w : Value) : beq v w = true ↔ v = w := by
  induction v using inductionOn generalizing w with
  | undefined => cases w <;> simp [beq]
  | null => cases w <;> simp [beq]
  | bool b => cases w <;> simp [beq]
  | number n => cases w <;> simp [beq]
  | string s => cases w <;> simp [beq]
  | array items ih =>
    cases w with
    | array ys => simp only [beq, beqItems_iff ih, Value.array.injEq]
    | _ => simp [beq]
  | object members ih =>
    cases w with
    | object ns => simp only [beq, beqMembers_iff ih, Value.object.injEq]
    | _ => simp [beq]

instance : DecidableEq Value := fun v w => decidable_of_iff _ (beq_iff v w)

end Value

/-- `===` on numbers. -/
def Number.strictEq : Number → Number → Bool
  | .finite x, .finite y => x.same y
  | .infinity a, .infinity b => a == b
  | _, _ => false

/-- SameValueZero on numbers: `NaN` is itself. -/
def Number.sameValueZero : Number → Number → Bool
  | .nan, .nan => true
  | a, b => a.strictEq b

namespace Value

/-- `===`. Arrays and objects are compared by reference, and distinct positions never share
one. -/
def strictEq : Value → Value → Bool
  | .undefined, .undefined => true
  | .null, .null => true
  | .bool a, .bool b => a == b
  | .number a, .number b => a.strictEq b
  | .string a, .string b => a == b
  | _, _ => false

/-- The equality of `Array.prototype.includes`, `Set` and `Map`. -/
def sameValueZero : Value → Value → Bool
  | .number a, .number b => a.sameValueZero b
  | v, w => v.strictEq w

theorem strictEq_comm (v w : Value) : v.strictEq w = w.strictEq v := by
  cases v <;> cases w <;> simp [strictEq, Bool.beq_comm]
  next a b =>
    cases a <;> cases b <;> simp [Number.strictEq, Bool.beq_comm]
    next x y => rw [Bool.eq_iff_iff, Finite64.same_iff, Finite64.same_iff, eq_comm]

theorem strictEq_trans {u v w : Value} (huv : u.strictEq v = true) (hvw : v.strictEq w = true) :
    u.strictEq w = true := by
  cases u <;> cases v <;> simp [strictEq] at huv <;> cases w <;> simp [strictEq] at hvw ⊢ <;>
    try simp_all
  next a b c =>
    cases a <;> cases b <;> simp [Number.strictEq] at huv <;> cases c <;>
      simp [Number.strictEq] at hvw ⊢ <;> try simp_all
    next x y z => rw [Finite64.same_iff] at huv hvw ⊢; exact huv.trans hvw

@[simp] theorem strictEq_string (v : Value) (s : Text) :
    v.strictEq (.string s) = true ↔ v = .string s := by
  cases v <;> simp [strictEq]

@[simp] theorem string_strictEq (v : Value) (s : Text) :
    (Value.string s).strictEq v = true ↔ v = .string s := by
  rw [strictEq_comm, strictEq_string]

/-- The number zero and `NaN` are the falsy numbers. -/
def isTruthy : Value → Bool
  | .undefined => false
  | .null => false
  | .bool b => b
  | .number .nan => false
  | .number (.infinity _) => true
  | .number (.finite x) => !x.isZero
  | .string s => !s.isEmpty
  | .array _ => true
  | .object _ => true

/-- `a || b`. -/
def orElse (a b : Value) : Value := if a.isTruthy then a else b

theorem orElse_eq (a b : Value) : a.orElse b = a ∨ a.orElse b = b :=
  ite_eq_or_eq _ a b

/-- An own member; `undefined` when there is none. -/
def field (v : Value) (name : Text) : Value :=
  match v with
  | .object members => (members.lookup name).getD .undefined
  | _ => .undefined

/-- Property access, which throws a TypeError on `undefined` and `null`. -/
def get (v : Value) (name : Text) : Option Value :=
  match v with
  | .undefined => none
  | .null => none
  | v => some (v.field name)

theorem field_eq_of_get {v value : Value} {name : Text} (h : v.get name = some value) :
    v.field name = value := by
  cases v <;> simp_all [get]

def hasOwn (v : Value) (name : Text) : Bool :=
  match v with
  | .object members => (members.lookup name).isSome
  | _ => false

/-- `Object.keys(v)`, which throws a TypeError on `undefined` and `null`. -/
def keys? : Value → Option (List Text)
  | .undefined => none
  | .null => none
  | .object members => some (members.map Prod.fst)
  | .array items => some ((List.range items.length).map decimalDigits)
  | .string s => some ((List.range s.length).map decimalDigits)
  | _ => some []

def isArray : Value → Bool
  | .array _ => true
  | _ => false

/-- `typeof v === 'object'` and `v` is not null. -/
def isObjectLike : Value → Bool
  | .array _ => true
  | .object _ => true
  | _ => false

def isUndefined : Value → Bool
  | .undefined => true
  | _ => false

def isNullish : Value → Bool
  | .undefined => true
  | .null => true
  | _ => false

def isString : Value → Bool
  | .string _ => true
  | _ => false

end Value

def Number.toText : Number → Text
  | .nan => ascii "NaN"
  | .infinity negative => (if negative then [0x2d] else []) ++ ascii "Infinity"
  | .finite x => x.toText

namespace Value

mutual
/-- `String(v)`. An object that shadows `toString` with data has no primitive form, which is a
TypeError. -/
def toText? : Value → Option Text
  | .undefined => some (ascii "undefined")
  | .null => some (ascii "null")
  | .bool b => some (if b then ascii "true" else ascii "false")
  | .number n => some n.toText
  | .string s => some s
  | .array items => joinTexts? items
  | .object members =>
    if (members.lookup (ascii "toString")).isSome then none else some (ascii "[object Object]")
/-- `items.join(',')`, where null and undefined are written as nothing. -/
def joinTexts? : List Value → Option Text
  | [] => some []
  | item :: items => do
    let first ← if item.isNullish then some [] else item.toText?
    let rest ← joinTexts? items
    pure (if items.isEmpty then first else first ++ 0x2c :: rest)
end

mutual
def uniqueKeys : Value → Bool
  | .array items => uniqueKeysItems items
  | .object members => decide (members.map Prod.fst).Nodup && uniqueKeysMembers members
  | _ => true
def uniqueKeysItems : List Value → Bool
  | [] => true
  | item :: items => uniqueKeys item && uniqueKeysItems items
def uniqueKeysMembers : List (Text × Value) → Bool
  | [] => true
  | (_, v) :: members => uniqueKeys v && uniqueKeysMembers members
end

mutual
/-- The same data, whatever the order of object members, `-0` being `0`. -/
def sameUpToOrder : Value → Value → Bool
  | .undefined, .undefined => true
  | .null, .null => true
  | .bool a, .bool b => a == b
  | .number a, .number b => a.sameValueZero b
  | .string a, .string b => a == b
  | .array xs, .array ys => sameItems xs ys
  | .object ms, .object ns => ms.length == ns.length && sameMembers ms ns
  | _, _ => false
def sameItems : List Value → List Value → Bool
  | [], [] => true
  | x :: xs, y :: ys => sameUpToOrder x y && sameItems xs ys
  | _, _ => false
def sameMembers : List (Text × Value) → List (Text × Value) → Bool
  | [], _ => true
  | (k, v) :: ms, ns =>
    (match ns.lookup k with
      | some w => sameUpToOrder v w
      | none => false) && sameMembers ms ns
end

theorem uniqueKeys_array (items : List Value) :
    (Value.array items).uniqueKeys = true ↔ ∀ item ∈ items, item.uniqueKeys = true := by
  rw [uniqueKeys]
  induction items with
  | nil => simp [uniqueKeysItems]
  | cons item items ih => simp [uniqueKeysItems, ih]

theorem uniqueKeys_object (members : List (Text × Value)) :
    (Value.object members).uniqueKeys = true ↔
      (members.map Prod.fst).Nodup ∧ ∀ m ∈ members, m.2.uniqueKeys = true := by
  have hmembers : uniqueKeysMembers members = true ↔ ∀ m ∈ members, m.2.uniqueKeys = true := by
    induction members with
    | nil => simp [uniqueKeysMembers]
    | cons m members ih => simp [uniqueKeysMembers, ih]
  simp [uniqueKeys, hmembers]

theorem sameItems_iff (xs ys : List Value) :
    sameItems xs ys = true ↔ List.Forall₂ (fun x y => x.sameUpToOrder y = true) xs ys := by
  induction xs generalizing ys with
  | nil => cases ys <;> simp [sameItems]
  | cons x xs ih => cases ys <;> simp [sameItems, ih]

theorem sameMembers_iff (ms ns : List (Text × Value)) :
    sameMembers ms ns = true ↔
      ∀ m ∈ ms, ∃ w, ns.lookup m.1 = some w ∧ m.2.sameUpToOrder w = true := by
  induction ms with
  | nil => simp [sameMembers]
  | cons m ms ih =>
    obtain ⟨k, v⟩ := m
    simp only [sameMembers, Bool.and_eq_true, ih, List.forall_mem_cons]
    refine and_congr_left fun _ => ?_
    cases ns.lookup k <;> simp

end Value

/-- Data the runtime can hold: an object has one member of each name. -/
abbrev PlainValue := { v : Value // v.uniqueKeys = true }

theorem lookup_eq_some_iff {α : Type} {members : List (Text × α)}
    (h : (members.map Prod.fst).Nodup) (k : Text) (v : α) :
    members.lookup k = some v ↔ (k, v) ∈ members := by
  induction members with
  | nil => simp
  | cons m members ih =>
    obtain ⟨l, w⟩ := m
    simp only [List.map_cons, List.nodup_cons, List.mem_map, not_exists, not_and] at h
    simp only [List.lookup_cons, List.mem_cons, Prod.mk.injEq]
    by_cases hk : k = l
    · subst hk
      simp only [beq_self_eq_true, Option.some.injEq, true_and]
      refine ⟨fun e => Or.inl e.symm, fun e => e.elim (·.symm) fun hm => ?_⟩
      exact absurd rfl (h.1 (k, v) hm)
    · have hb : (k == l) = false := beq_eq_false_iff_ne.mpr hk
      simp only [hb, hk, false_and, false_or, ih h.2]

namespace Value

theorem uniqueKeys_field {v : Value} (h : v.uniqueKeys = true) (name : Text) :
    (v.field name).uniqueKeys = true := by
  cases v with
  | object members =>
    obtain ⟨hnames, hmembers⟩ := (uniqueKeys_object members).mp h
    cases hlookup : members.lookup name with
    | none => rw [field, hlookup]; rfl
    | some w =>
      rw [field, hlookup]
      exact hmembers _ ((lookup_eq_some_iff hnames name w).mp hlookup)
  | _ => rfl

end Value

end Ecma

/-!
## Integers

The safe integers are those below `2^53` in magnitude, which a double holds exactly. `-0` is the integer 0.
-/

namespace Ecma

/-- The integer, when `Number.isInteger(v)`. -/
def Value.integer? : Value → Option Int
  | .number (.finite x) =>
    if x.units % unitsPerOne = 0 then
      some (if x.negative then -((x.units / unitsPerOne : Nat) : Int) else (x.units / unitsPerOne : Nat))
    else none
  | _ => none

/-- The integer, when `Number.isSafeInteger(n)`. -/
def Number.safeInteger? : Number → Option Int
  | .finite x =>
    if x.units % unitsPerOne = 0 ∧ x.units / unitsPerOne < 2 ^ 53 then
      some (if x.negative then -((x.units / unitsPerOne : Nat) : Int) else (x.units / unitsPerOne : Nat))
    else none
  | _ => none

/-- The integer, when `Number.isSafeInteger(v)`. -/
def Value.safeInteger? : Value → Option Int
  | .number n => n.safeInteger?
  | _ => none

private theorem unitsPerOne_pos : 0 < unitsPerOne := Nat.two_pow_pos 1074

private theorem safeInteger?_spec {n : Number} {m : Int} (h : n.safeInteger? = some m) :
    ∃ (x : Finite64) (q : Nat), n = .finite x ∧ x.units = q * unitsPerOne ∧
      m = if x.negative then -(q : Int) else q := by
  cases n with
  | finite x =>
    simp only [Number.safeInteger?, Option.ite_none_right_eq_some, Option.some.injEq] at h
    exact ⟨x, x.units / unitsPerOne, rfl, (Nat.div_mul_cancel (Nat.dvd_of_mod_eq_zero h.1.1)).symm,
      h.2.symm⟩
  | _ => cases h

private theorem Finite64.eq_iff {x y : Finite64} :
    x = y ↔ x.negative = y.negative ∧ x.units = y.units := by
  cases x; cases y; simp

theorem Number.strictEq_iff_of_safeInteger {a b : Number} {m n : Int}
    (ha : a.safeInteger? = some m) (hb : b.safeInteger? = some n) :
    a.strictEq b = true ↔ m = n := by
  obtain ⟨x, p, rfl, hx, rfl⟩ := safeInteger?_spec ha
  obtain ⟨y, q, rfl, hy, rfl⟩ := safeInteger?_spec hb
  have hzero {z : Finite64} {r : Nat} (hz : z.units = r * unitsPerOne) :
      z.isZero = true ↔ r = 0 := by
    rw [Finite64.isZero, beq_iff_eq, hz, Nat.mul_eq_zero]
    simp [unitsPerOne_pos.ne']
  have hunits : x.units = y.units ↔ p = q := by
    rw [hx, hy]
    exact Nat.mul_left_inj unitsPerOne_pos.ne'
  simp only [Number.strictEq, Finite64.same, Bool.or_eq_true, Bool.and_eq_true, beq_iff_eq,
    Finite64.eq_iff, hzero hx, hzero hy, hunits]
  cases x.negative <;> cases y.negative <;> simp <;> omega

theorem Value.strictEq_iff_of_safeInteger {a b : Value} {m n : Int}
    (ha : a.safeInteger? = some m) (hb : b.safeInteger? = some n) :
    a.strictEq b = true ↔ m = n := by
  cases a with
  | number x =>
    cases b with
    | number y => exact Number.strictEq_iff_of_safeInteger ha hb
    | _ => cases hb
  | _ => cases ha

theorem Value.safeInteger?_lt {v : Value} {m : Int} (h : v.safeInteger? = some m) :
    m < 2 ^ 53 := by
  cases v with
  | number n =>
    cases n with
    | finite x =>
      simp only [Value.safeInteger?, Number.safeInteger?, Option.ite_none_right_eq_some,
        Option.some.injEq] at h
      generalize x.units / unitsPerOne = q at h
      obtain ⟨⟨-, hlt⟩, rfl⟩ := h
      split <;> omega
    | _ => cases h
  | _ => cases h

theorem representable_mul_unitsPerOne {n : Nat} (hn : n < 2 ^ 53) :
    Representable (n * unitsPerOne) := by
  obtain ⟨k, hunits, hk⟩ : ∃ k, unitsPerOne = 2 ^ k ∧ k = 1074 := ⟨1074, rfl, rfl⟩
  obtain ⟨limit, hlimit, hle⟩ : ∃ limit, unitsLimit = 2 ^ limit ∧ limit = 2098 := ⟨2098, rfl, rfl⟩
  have hlt : n * unitsPerOne < 2 ^ (53 + k) := by
    rw [Nat.pow_add, ← hunits]
    exact Nat.mul_lt_mul_of_pos_right hn unitsPerOne_pos
  constructor
  · by_cases hzero : n = 0
    · rw [hzero, Nat.zero_mul, Nat.zero_mod]
    · have hne : n * unitsPerOne ≠ 0 := Nat.mul_ne_zero hzero unitsPerOne_pos.ne'
      have hlog := (Nat.log2_lt hne).mpr hlt
      have hdropped : droppedBits (n * unitsPerOne) ≤ k := by
        rw [droppedBits]
        omega
      apply Nat.mod_eq_zero_of_dvd
      have hpower := (Nat.pow_dvd_pow 2 hdropped).trans (Nat.dvd_mul_left (2 ^ k) n)
      rwa [← hunits] at hpower
  · rw [hlimit]
    exact hlt.trans_le (Nat.pow_le_pow_right (by omega) (by omega))

theorem Number.safeInteger?_ofNat {n : Nat} (hn : n < 2 ^ 53) :
    (Number.ofNat n).safeInteger? = some (n : Int) := by
  have hrepresentable := representable_mul_unitsPerOne hn
  have hround : roundUnits (n * 10 ^ (0 : Int).toNat * unitsPerOne) (10 ^ (-(0 : Int)).toNat) =
      n * unitsPerOne := by
    have hrounded := roundUnits_mul hrepresentable Nat.one_pos
    simpa only [Int.toNat_zero, Int.neg_zero, Nat.pow_zero, Nat.mul_one] using hrounded
  have hmod : n * unitsPerOne % unitsPerOne = 0 := Nat.mul_mod_left _ _
  have hdiv : n * unitsPerOne / unitsPerOne = n := Nat.mul_div_cancel _ unitsPerOne_pos
  rw [Number.ofNat, Number.ofDecimal, hround, Number.ofUnits, dif_pos hrepresentable]
  simp only [Number.safeInteger?, hmod, hdiv, true_and, if_pos hn]
  rfl

theorem Number.safeInteger?_ofNat_limit : (Number.ofNat (2 ^ 53)).safeInteger? = none := by
  decide +kernel

end Ecma
