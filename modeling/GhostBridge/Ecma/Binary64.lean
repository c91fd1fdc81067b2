import Mathlib.Data.Nat.Log
import Mathlib.Tactic.Ring
import Mathlib.Tactic.Linarith

/-!
# Binary64 magnitudes

A finite double is a sign and a whole number of units of `2^-1074`.
-/

namespace Ecma

def droppedBits (units : Nat) : Nat := units.log2 - 52

/-- One past the largest finite magnitude, `2^1024`, in units. -/
def unitsLimit : Nat := 2 ^ 2098

def unitsPerOne : Nat := 2 ^ 1074

def Representable (units : Nat) : Prop :=
  units % 2 ^ droppedBits units = 0 ∧ units < unitsLimit

instance (units : Nat) : Decidable (Representable units) :=
  inferInstanceAs (Decidable (_ ∧ _))

def divideToEven (num den : Nat) : Nat :=
  let quotient := num / den
  let remainder := num % den
  if 2 * remainder < den ∨ (2 * remainder = den ∧ quotient % 2 = 0) then quotient
  else quotient + 1

/-- The magnitude nearest to `num / den` units, before the overflow check. -/
def roundUnits (num den : Nat) : Nat :=
  let dropped := droppedBits (num / den)
  divideToEven num (den * 2 ^ dropped) * 2 ^ dropped

theorem divideToEven_mul {den : Nat} (n : Nat) (hden : 0 < den) :
    divideToEven (n * den) den = n := by
  unfold divideToEven
  rw [Nat.mul_div_cancel _ hden, Nat.mul_mod_left]
  simp [hden]

theorem roundUnits_mul {units den : Nat} (h : Representable units) (hden : 0 < den) :
    roundUnits (units * den) den = units := by
  obtain ⟨k, hk⟩ := Nat.dvd_of_mod_eq_zero h.1
  have hstep : 0 < 2 ^ droppedBits units := Nat.two_pow_pos _
  have he : units * den = k * (den * 2 ^ droppedBits units) := by
    conv_lhs => rw [hk]
    ring
  simp only [roundUnits, Nat.mul_div_cancel _ hden]
  rw [he, divideToEven_mul k (Nat.mul_pos hden hstep), Nat.mul_comm]
  exact hk.symm

theorem unitsLimit_pos : 0 < unitsLimit := by
  unfold unitsLimit
  positivity

theorem representable_zero : Representable 0 := ⟨rfl, unitsLimit_pos⟩

structure Finite64 where
  negative : Bool
  units : Nat
  representable : Representable units
deriving DecidableEq

inductive Number where
  | nan
  | infinity (negative : Bool)
  | finite (value : Finite64)
deriving DecidableEq

namespace Finite64

def zero (negative : Bool) : Finite64 := ⟨negative, 0, representable_zero⟩

def isZero (x : Finite64) : Bool := x.units == 0

/-- Equality of numbers: `-0` and `0` are one number. -/
def same (x y : Finite64) : Bool := x == y || (x.isZero && y.isZero)

def unsignedZero (x : Finite64) : Finite64 := if x.isZero then zero false else x

theorem same_iff (x y : Finite64) : x.same y = true ↔ x.unsignedZero = y.unsignedZero := by
  rcases x with ⟨nx, ux, hx⟩
  rcases y with ⟨ny, uy, hy⟩
  by_cases h : ux = 0 <;> by_cases h' : uy = 0 <;>
    simp [same, unsignedZero, isZero, zero, h, h']
  · omega

@[simp] theorem unsignedZero_unsignedZero (x : Finite64) :
    x.unsignedZero.unsignedZero = x.unsignedZero := by
  unfold unsignedZero
  split <;> simp_all [isZero, zero]

end Finite64

def Number.ofUnits (negative : Bool) (units : Nat) : Number :=
  if h : Representable units then .finite ⟨negative, units, h⟩ else .infinity negative

/-- The number nearest to `coefficient * 10 ^ exponent`. -/
def Number.ofDecimal (negative : Bool) (coefficient : Nat) (exponent : Int) : Number :=
  .ofUnits negative
    (roundUnits (coefficient * 10 ^ exponent.toNat * unitsPerOne) (10 ^ (-exponent).toNat))

theorem Number.ofDecimal_zero (negative : Bool) (exponent : Int) :
    Number.ofDecimal negative 0 exponent = .finite (.zero negative) := by
  have hround (den : Nat) : roundUnits 0 den = 0 := by
    simp [roundUnits, divideToEven]
  simp only [Number.ofDecimal, Nat.zero_mul, hround, Number.ofUnits, representable_zero,
    dif_pos, Finite64.zero]

theorem Number.ofDecimal_shift (negative : Bool) (coefficient m : Nat) :
    Number.ofDecimal negative (coefficient * 10 ^ m) 0 =
      Number.ofDecimal negative coefficient m := by
  simp only [Number.ofDecimal, Int.toNat_natCast, Int.toNat_zero, Int.neg_zero, Nat.pow_zero,
    Nat.mul_one, Int.toNat_neg_natCast]

def Number.ofNat (n : Nat) : Number := .ofDecimal false n 0

def Finite64.signedUnits (x : Finite64) : Int := if x.negative then -x.units else x.units

/-- `a <= b`. -/
def Number.le : Number → Number → Bool
  | .finite x, .finite y => x.signedUnits ≤ y.signedUnits
  | .infinity true, .finite _ => true
  | .finite _, .infinity false => true
  | .infinity a, .infinity b => a || !b
  | _, _ => false

end Ecma
