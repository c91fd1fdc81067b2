import GhostBridge.Ecma.Text
import GhostBridge.Ecma.Value

/-!
# Numeric values

`Number(v)`, the few functions of `Math` that the sources use, and the index arguments of `slice`.
-/

namespace Ecma

def digitValue? (u : UInt16) : Option Nat :=
  if isDigit u then some (digitOf u)
  else if 0x61 ≤ u && u ≤ 0x66 then some (u.toNat - 87)
  else if 0x41 ≤ u && u ≤ 0x46 then some (u.toNat - 55)
  else none

def radixNumber (base : Nat) (ds : Text) : Number :=
  match ds.mapM digitValue? with
  | some (d :: values) =>
    if (d :: values).all (· < base) then .ofDecimal false ((d :: values).foldl (· * base + ·) 0) 0
    else .nan
  | _ => .nan

def decimalNumber (negative : Bool) (text : Text) : Number :=
  let whole := text.takeWhile isDigit
  let (fraction, rest) :=
    match text.dropWhile isDigit with
    | 0x2e :: rest => (rest.takeWhile isDigit, rest.dropWhile isDigit)
    | rest => ([], rest)
  if text = ascii "Infinity" then .infinity negative
  else if whole.isEmpty && fraction.isEmpty then .nan
  else
    match scanExponent rest with
    | some (exponent, []) =>
      .ofDecimal negative (digitsValue (whole ++ fraction)) (exponent - fraction.length)
    | _ => .nan

/-- `Number(text)`. -/
def Text.toNumber (text : Text) : Number :=
  match text.trimmed with
  | [] => .finite (.zero false)
  | 0x30 :: u :: rest =>
    if u = 0x78 ∨ u = 0x58 then radixNumber 16 rest
    else if u = 0x6f ∨ u = 0x4f then radixNumber 8 rest
    else if u = 0x62 ∨ u = 0x42 then radixNumber 2 rest
    else decimalNumber false (0x30 :: u :: rest)
  | 0x2d :: rest => decimalNumber true rest
  | 0x2b :: rest => decimalNumber false rest
  | rest => decimalNumber false rest

namespace Value

/-- `Number(v)`, which throws a TypeError on an object that has no primitive form. -/
def toNumber? : Value → Option Number
  | .undefined => some .nan
  | .null => some (.finite (.zero false))
  | .bool b => some (.ofNat b.toNat)
  | .number n => some n
  | .string s => some s.toNumber
  | v => v.toText?.map Text.toNumber

end Value

namespace Number

def isNegative : Number → Bool
  | .nan => false
  | .infinity negative => negative
  | .finite x => x.negative

/-- `a` comes before `b` on the line, where `-0` comes before `0`. -/
def below (a b : Number) : Bool := a.le b && (!b.le a || a.isNegative || !b.isNegative)

def min (a b : Number) : Number :=
  if a = .nan ∨ b = .nan then .nan else if a.below b then a else b

def max (a b : Number) : Number :=
  if a = .nan ∨ b = .nan then .nan else if a.below b then b else a

/-- `-a`. -/
def neg : Number → Number
  | .nan => .nan
  | .infinity negative => .infinity !negative
  | .finite x => .finite { x with negative := !x.negative }

def ofSignedUnits (negativeZero : Bool) (units : Int) : Number :=
  .ofUnits (if units = 0 then negativeZero else units < 0) (roundUnits units.natAbs 1)

/-- `a + b`. -/
def add : Number → Number → Number
  | .finite x, .finite y =>
    .ofSignedUnits (x.negative && y.negative) (x.signedUnits + y.signedUnits)
  | .finite _, b => b
  | a, .finite _ => a
  | .infinity a, .infinity b => if a = b then .infinity a else .nan
  | _, _ => .nan

/-- `a - b`. -/
def sub (a b : Number) : Number := a.add b.neg

def wholePart : Number → Int
  | .finite x => if x.negative then -((x.units / unitsPerOne : Nat) : Int) else (x.units / unitsPerOne : Nat)
  | _ => 0

/-- The position that an argument of `slice` stands for in a list of this length. -/
def sliceIndex (n : Number) (length : Nat) : Nat :=
  match n with
  | .infinity true => 0
  | .infinity false => length
  | n => if n.wholePart < 0 then (length + n.wholePart).toNat else Nat.min n.wholePart.toNat length

theorem sliceIndex_le (n : Number) (length : Nat) : n.sliceIndex length ≤ length := by
  unfold sliceIndex
  split
  · exact Nat.zero_le _
  · exact le_refl _
  · split
    · omega
    · exact Nat.min_le_right _ _

def NotNegative (n : Number) : Prop :=
  n ≠ .infinity true ∧ ∀ x, n = .finite x → x.negative = true → x.units = 0

variable {a b : Number}

theorem unitsPerOne_pos : 0 < unitsPerOne := Nat.two_pow_pos 1074

theorem signedUnits_of_not_negative {x : Finite64} (h : x.negative = true → x.units = 0) :
    x.signedUnits = x.units := by
  unfold Finite64.signedUnits
  split
  · next hneg => rw [h hneg]; rfl
  · rfl

theorem wholePart_of_not_negative {x : Finite64} (h : x.negative = true → x.units = 0) :
    (Number.finite x).wholePart = (x.units / unitsPerOne : Nat) := by
  show (if x.negative then _ else _) = _
  split
  · next hneg => rw [h hneg]; simp
  · rfl

theorem sliceIndex_of_not_negative {x : Finite64} (h : x.negative = true → x.units = 0)
    (length : Nat) : (Number.finite x).sliceIndex length = Nat.min (x.units / unitsPerOne) length := by
  show (if (Number.finite x).wholePart < 0 then _ else _) = _
  rw [wholePart_of_not_negative h, if_neg (Int.not_lt.mpr (Int.natCast_nonneg _))]
  rfl

theorem le_of_below (h : a.below b = true) : a.le b = true := by
  unfold below at h
  rw [Bool.and_eq_true] at h
  exact h.1

theorem le_refl_of_ne_nan (h : a ≠ .nan) : a.le a = true := by
  cases a with
  | nan => exact absurd rfl h
  | infinity negative => cases negative <;> rfl
  | finite x => exact decide_eq_true (Int.le_refl _)

theorem le_total_of_ne_nan (ha : a ≠ .nan) (hb : b ≠ .nan) : a.le b = true ∨ b.le a = true := by
  cases a with
  | nan => exact absurd rfl ha
  | infinity s =>
    cases b with
    | nan => exact absurd rfl hb
    | infinity t => cases s <;> cases t <;> simp [Number.le]
    | finite y => cases s <;> simp [Number.le]
  | finite x =>
    cases b with
    | nan => exact absurd rfl hb
    | infinity t => cases t <;> simp [Number.le]
    | finite y => simpa [Number.le] using Int.le_total x.signedUnits y.signedUnits

theorem eq_infinity_of_le (h : (Number.infinity false).le b = true) : b = .infinity false := by
  cases b with
  | infinity negative => cases negative with
    | true => cases h
    | false => rfl
  | _ => cases h

theorem le_trans {c : Number} (hab : a.le b = true) (hbc : b.le c = true) : a.le c = true := by
  cases a with
  | nan => cases hab
  | infinity s =>
    cases s with
    | true =>
      cases c with
      | nan =>
        cases b with
        | infinity t => cases t <;> cases hbc
        | _ => cases hbc
      | infinity t => cases t <;> rfl
      | finite z => rfl
    | false =>
      rw [eq_infinity_of_le hab] at hbc
      exact hbc
  | finite x =>
    cases b with
    | nan => cases hab
    | infinity t =>
      cases t with
      | true => cases hab
      | false =>
        rw [eq_infinity_of_le hbc]
        rfl
    | finite y =>
      cases c with
      | nan => cases hbc
      | infinity t =>
        cases t with
        | true => cases hbc
        | false => rfl
      | finite z => exact decide_eq_true (Int.le_trans (of_decide_eq_true hab) (of_decide_eq_true hbc))

theorem le_of_not_below (ha : a ≠ .nan) (hb : b ≠ .nan) (h : ¬a.below b = true) :
    b.le a = true := by
  unfold below at h
  rw [Bool.and_eq_true] at h
  rcases le_total_of_ne_nan ha hb with hab | hba
  · by_contra hba
    exact h ⟨hab, by simp [hba]⟩
  · exact hba

theorem min_cases (ha : a ≠ .nan) (hb : b ≠ .nan) :
    a.min b = a ∧ a.le b = true ∨ a.min b = b ∧ b.le a = true := by
  unfold min
  rw [if_neg (not_or.mpr ⟨ha, hb⟩)]
  split
  · next h => exact .inl ⟨rfl, le_of_below h⟩
  · next h => exact .inr ⟨rfl, le_of_not_below ha hb h⟩

theorem max_cases (ha : a ≠ .nan) (hb : b ≠ .nan) :
    a.max b = b ∧ a.le b = true ∨ a.max b = a ∧ b.le a = true := by
  unfold max
  rw [if_neg (not_or.mpr ⟨ha, hb⟩)]
  split
  · next h => exact .inl ⟨rfl, le_of_below h⟩
  · next h => exact .inr ⟨rfl, le_of_not_below ha hb h⟩

theorem notNegative_ofUnits (units : Nat) : NotNegative (.ofUnits false units) := by
  unfold ofUnits
  split
  · constructor
    · exact Number.noConfusion
    · intro x hx hneg
      rw [← Number.finite.inj hx] at hneg
      cases hneg
  · constructor
    · intro h
      cases Number.infinity.inj h
    · intro x hx
      cases hx

theorem notNegative_ofNat (n : Nat) : NotNegative (.ofNat n) := notNegative_ofUnits _

theorem ofNat_ne_nan (n : Nat) : Number.ofNat n ≠ .nan := by
  unfold ofNat ofDecimal ofUnits
  split <;> simp

@[simp] theorem nan_min (b : Number) : Number.nan.min b = .nan := if_pos (.inl rfl)

@[simp] theorem max_nan (a : Number) : a.max .nan = .nan := if_pos (.inr rfl)

theorem ofNat_zero : Number.ofNat 0 = .finite (.zero false) := ofDecimal_zero false 0

theorem zero_le (h : NotNegative a) (ha : a ≠ .nan) : (Number.ofNat 0).le a = true := by
  rw [ofNat_zero]
  cases a with
  | nan => exact absurd rfl ha
  | infinity negative =>
    cases negative with
    | true => exact absurd rfl h.1
    | false => rfl
  | finite x =>
    apply decide_eq_true
    rw [signedUnits_of_not_negative (h.2 x rfl)]
    exact Int.natCast_nonneg _

theorem notNegative_nan : NotNegative .nan := ⟨Number.noConfusion, fun _ h => nomatch h⟩

@[simp] theorem sub_nan (a : Number) : a.sub .nan = .nan := by
  cases a <;> rfl

theorem notNegative_sub (h : b.le a = true) (hb : ∀ negative, b ≠ .infinity negative) :
    NotNegative (a.sub b) := by
  cases b with
  | nan => cases a <;> cases h
  | infinity negative => exact absurd rfl (hb negative)
  | finite y =>
    cases a with
    | nan => cases h
    | infinity negative =>
      cases negative with
      | true => cases h
      | false =>
        show NotNegative (.infinity false)
        constructor
        · intro h
          cases Number.infinity.inj h
        · intro x hx
          cases hx
    | finite x =>
      have hle : y.signedUnits ≤ x.signedUnits := of_decide_eq_true h
      have hneg : (Finite64.signedUnits { y with negative := !y.negative }) = -y.signedUnits := by
        unfold Finite64.signedUnits
        cases y.negative <;> simp
      show NotNegative (ofSignedUnits _ _)
      rw [hneg]
      unfold ofSignedUnits
      by_cases hzero : x.signedUnits + -y.signedUnits = 0
      · rw [hzero]
        have hround : roundUnits (0 : Int).natAbs 1 = 0 := by simp [roundUnits, divideToEven]
        rw [hround]
        unfold ofUnits
        rw [dif_pos representable_zero]
        constructor
        · exact Number.noConfusion
        · intro z hz _
          rw [← Number.finite.inj hz]
      · have hsign : decide (x.signedUnits + -y.signedUnits < 0) = false := by
          rw [decide_eq_false_iff_not]
          omega
        rw [if_neg hzero, hsign]
        exact notNegative_ofUnits _

end Number

end Ecma
