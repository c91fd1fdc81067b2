import GhostBridge.Ecma.Rounding
import Mathlib.Data.List.Forall2

/-!
# Products and quotients of Numbers

Multiplication, division and rounding to an integer.
-/

namespace Ecma

theorem divideToEven_mono {num den num' den' : ℕ} (hden : 0 < den) (hden' : 0 < den')
    (h : num * den' ≤ num' * den) : divideToEven num den ≤ divideToEven num' den' := by
  have hquotient : num / den ≤ num' / den' := by
    rw [Nat.le_div_iff_mul_le hden']
    apply Nat.le_of_mul_le_mul_right _ hden
    calc num / den * den' * den = num / den * den * den' := by ring
      _ ≤ num * den' := Nat.mul_le_mul_right _ (Nat.div_mul_le_self num den)
      _ ≤ num' * den := h
  by_cases hlt : num / den < num' / den'
  · calc divideToEven num den ≤ num / den + 1 := divideToEven_le num den
      _ ≤ num' / den' := hlt
      _ ≤ divideToEven num' den' := div_le_divideToEven num' den'
  · have heq : num / den = num' / den' := by omega
    have hsplit := Nat.div_add_mod num den
    have hsplit' := Nat.div_add_mod num' den'
    have hremainder : (num % den) * den' ≤ (num' % den') * den := by
      rw [← heq] at hsplit'
      rw [← hsplit, ← hsplit'] at h
      generalize num / den = q at h
      generalize num % den = r at h
      generalize num' % den' = r' at h
      have hexpand : q * (den * den') + r * den' ≤ q * (den * den') + r' * den := by
        calc q * (den * den') + r * den' = (den * q + r) * den' := by ring
          _ ≤ (den' * q + r') * den := h
          _ = q * (den * den') + r' * den := by ring
      omega
    simp only [divideToEven, ← heq]
    generalize num % den = r at hremainder
    generalize num' % den' = r' at hremainder
    by_cases hdown : 2 * r < den ∨ (2 * r = den ∧ num / den % 2 = 0)
    · rw [if_pos hdown]
      split <;> omega
    · rw [if_neg hdown, if_neg]
      -- the first quotient is rounded up, so the second is at least as far from the whole number
      have hhalf : den ≤ 2 * r := by omega
      have hscaled : den * den' ≤ 2 * r' * den := by
        calc den * den' ≤ 2 * r * den' := Nat.mul_le_mul_right _ hhalf
          _ = 2 * (r * den') := by ring
          _ ≤ 2 * (r' * den) := Nat.mul_le_mul_left _ hremainder
          _ = 2 * r' * den := by ring
      have hhalf' : den' ≤ 2 * r' := by
        apply Nat.le_of_mul_le_mul_right _ hden
        rwa [Nat.mul_comm den' den]
      rintro (hless | ⟨htie, heven⟩)
      · omega
      · have htied : 2 * r ≤ den := by
          apply Nat.le_of_mul_le_mul_right _ hden'
          calc 2 * r * den' = 2 * (r * den') := by ring
            _ ≤ 2 * (r' * den) := Nat.mul_le_mul_left _ hremainder
            _ = 2 * r' * den := by ring
            _ = den * den' := by rw [htie, Nat.mul_comm]
        exact hdown (Or.inr ⟨by omega, heven⟩)

theorem roundUnits_mono {num den num' den' : ℕ} (hden : 0 < den) (hden' : 0 < den')
    (h : num * den' ≤ num' * den) : roundUnits num den ≤ roundUnits num' den' := by
  have hquotient : num / den ≤ num' / den' := by
    rw [Nat.le_div_iff_mul_le hden']
    apply Nat.le_of_mul_le_mul_right _ hden
    calc num / den * den' * den = num / den * den * den' := by ring
      _ ≤ num * den' := Nat.mul_le_mul_right _ (Nat.div_mul_le_self num den)
      _ ≤ num' * den := h
  have hlog : (num / den).log2 ≤ (num' / den').log2 := by
    by_cases hzero : num / den = 0
    · rw [hzero]
      exact Nat.zero_le _
    · have hpositive : 0 < num / den := Nat.pos_of_ne_zero hzero
      exact (Nat.le_log2 (hpositive.trans_le hquotient).ne').mpr
        ((Nat.log2_self_le hzero).trans hquotient)
  by_cases hsame : droppedBits (num / den) = droppedBits (num' / den')
  · simp only [roundUnits, hsame]
    apply Nat.mul_le_mul_right
    apply divideToEven_mono (Nat.mul_pos hden (Nat.two_pow_pos _))
      (Nat.mul_pos hden' (Nat.two_pow_pos _))
    calc num * (den' * 2 ^ droppedBits (num' / den'))
        = num * den' * 2 ^ droppedBits (num' / den') := by ring
      _ ≤ num' * den * 2 ^ droppedBits (num' / den') := Nat.mul_le_mul_right _ h
      _ = num' * (den * 2 ^ droppedBits (num' / den')) := by ring
  · -- a power of two stands between the two quotients
    have hfar : (num / den).log2 < (num' / den').log2 ∧ 53 ≤ (num' / den').log2 := by
      unfold droppedBits at hsame
      omega
    have hne : num' / den' ≠ 0 := by
      intro hzero
      rw [hzero, Nat.log2_zero] at hfar
      omega
    have hbelow : num / den < 2 ^ (num' / den').log2 := by
      by_cases hzero : num / den = 0
      · rw [hzero]
        exact Nat.two_pow_pos _
      · exact (Nat.log2_lt hzero).mp hfar.1
    exact (roundUnits_le_pow hfar.2 hbelow).trans (pow_le_roundUnits (Nat.log2_self_le hne))

theorem roundUnits_le {num den bound : ℕ} (hden : 0 < den) (hbound : Representable bound)
    (h : num ≤ bound * den) : roundUnits num den ≤ bound := by
  have hmono : roundUnits num den ≤ roundUnits bound 1 :=
    roundUnits_mono hden Nat.one_pos (by rwa [Nat.mul_one])
  rwa [Number.roundUnits_one hbound] at hmono

namespace Number

/-- `a * b`. -/
def mul : Number → Number → Number
  | .finite x, .finite y =>
    .ofUnits (x.negative != y.negative) (roundUnits (x.units * y.units) unitsPerOne)
  | .infinity a, .finite y => if y.isZero then .nan else .infinity (a != y.negative)
  | .finite x, .infinity b => if x.isZero then .nan else .infinity (x.negative != b)
  | .infinity a, .infinity b => .infinity (a != b)
  | _, _ => .nan

/-- `a / b`. -/
def div : Number → Number → Number
  | .finite x, .finite y =>
    if y.isZero then if x.isZero then .nan else .infinity (x.negative != y.negative)
    else .ofUnits (x.negative != y.negative) (roundUnits (x.units * unitsPerOne) y.units)
  | .infinity a, .finite y => .infinity (a != y.negative)
  | .finite x, .infinity b => .finite (.zero (x.negative != b))
  | _, _ => .nan

def floor : Number → Number
  | .finite x => .ofSignedUnits x.negative (x.signedUnits / unitsPerOne * unitsPerOne)
  | a => a

def round : Number → Number
  | .finite x =>
    .ofSignedUnits x.negative ((2 * x.signedUnits + unitsPerOne) / (2 * unitsPerOne) * unitsPerOne)
  | a => a

def sign : Number → Ordering
  | .nan => .eq
  | .infinity negative => if negative then .lt else .gt
  | .finite x => compare x.signedUnits 0

theorem sign_of_isInt {a : Number} {m : ℤ} (h : IsInt a m) : a.sign = compare m 0 := by
  obtain ⟨x, rfl, hx⟩ := h
  have hpos : (0 : ℤ) < unitsPerOne := by exact_mod_cast unitsPerOne_pos
  show compare x.signedUnits 0 = compare m 0
  rw [hx]
  rcases Int.lt_trichotomy m 0 with hneg | rfl | hm
  · rw [compare_lt_iff_lt.mpr hneg, compare_lt_iff_lt.mpr (Int.mul_neg_of_neg_of_pos hneg hpos)]
  · rw [Int.zero_mul]
  · rw [compare_gt_iff_gt.mpr hm, compare_gt_iff_gt.mpr (Int.mul_pos hm hpos)]

/-- The double is not below zero and has this many units. -/
def HasUnits (a : Number) (units : ℕ) : Prop := ∃ x, a = .finite x ∧ x.signedUnits = units

variable {a b c : Number} {u v bound : ℕ}

theorem HasUnits.le_iff (ha : HasUnits a u) (hb : HasUnits b v) : a.le b = true ↔ u ≤ v := by
  obtain ⟨x, rfl, hx⟩ := ha
  obtain ⟨y, rfl, hy⟩ := hb
  show decide (x.signedUnits ≤ y.signedUnits) = true ↔ u ≤ v
  rw [decide_eq_true_iff, hx, hy, Nat.cast_le]

theorem hasUnits_of_isInt {n : ℕ} (h : IsInt a n) : HasUnits a (n * unitsPerOne) := by
  obtain ⟨x, ha, hx⟩ := h
  exact ⟨x, ha, by rw [hx]; push_cast; rfl⟩

theorem hasUnits_ofNat {n : ℕ} (h : n < 2 ^ 53) : HasUnits (.ofNat n) (n * unitsPerOne) :=
  hasUnits_of_isInt (isInt_ofNat h)

theorem hasUnits_of_le (h0 : (Number.ofNat 0).le a = true) (hc : HasUnits c bound)
    (h : a.le c = true) : ∃ u, HasUnits a u ∧ u ≤ bound := by
  obtain ⟨z, hz, hzero⟩ := hasUnits_ofNat (n := 0) (by decide)
  obtain ⟨y, rfl, hy⟩ := hc
  rw [hz] at h0
  cases a with
  | nan => cases h0
  | infinity negative =>
    cases negative with
    | true => cases h0
    | false => exact absurd h Bool.false_ne_true
  | finite x =>
    have hlow : (0 : ℤ) ≤ x.signedUnits := by
      have hle : z.signedUnits ≤ x.signedUnits := of_decide_eq_true h0
      rw [hzero] at hle
      simpa using hle
    have hhigh : x.signedUnits ≤ y.signedUnits := of_decide_eq_true h
    exact ⟨x.signedUnits.toNat, ⟨x, rfl, (Int.toNat_of_nonneg hlow).symm⟩, by omega⟩

private theorem units_of_signedUnits {x : Finite64} (h : x.signedUnits = u) :
    x.units = u ∧ (x.negative = true → u = 0) := by
  unfold Finite64.signedUnits at h
  cases hnegative : x.negative with
  | true =>
    rw [hnegative, if_pos rfl] at h
    exact ⟨by omega, fun _ => by omega⟩
  | false =>
    rw [hnegative, if_neg Bool.false_ne_true] at h
    exact ⟨by omega, nofun⟩

private theorem hasUnits_ofUnits {negative : Bool} (h : Representable u)
    (hzero : negative = true → u = 0) : HasUnits (.ofUnits negative u) u := by
  rw [Number.ofUnits, dif_pos h]
  refine ⟨_, rfl, ?_⟩
  unfold Finite64.signedUnits
  cases negative with
  | true => simp [hzero rfl]
  | false => simp

private theorem representable_of_le {num den : ℕ} (hden : 0 < den) (hbound : Representable bound)
    (h : num ≤ bound * den) : Representable (roundUnits num den) :=
  representable_roundUnits (Nat.lt_of_le_of_lt (roundUnits_le hden hbound h) hbound.2)

theorem hasUnits_mul (ha : HasUnits a u) (hb : HasUnits b v) (hbound : Representable bound)
    (h : u * v ≤ bound * unitsPerOne) : HasUnits (a.mul b) (roundUnits (u * v) unitsPerOne) := by
  obtain ⟨x, rfl, hx⟩ := ha
  obtain ⟨y, rfl, hy⟩ := hb
  obtain ⟨hunits, hsign⟩ := units_of_signedUnits hx
  obtain ⟨hunits', hsign'⟩ := units_of_signedUnits hy
  show HasUnits (.ofUnits (x.negative != y.negative) (roundUnits (x.units * y.units) unitsPerOne)) _
  rw [hunits, hunits']
  apply hasUnits_ofUnits (representable_of_le unitsPerOne_pos hbound h)
  intro hdiffer
  have hzero : u * v = 0 := by
    cases hnegative : x.negative with
    | true => rw [hsign hnegative, Nat.zero_mul]
    | false =>
      rw [hnegative, Bool.false_bne] at hdiffer
      rw [hsign' hdiffer, Nat.mul_zero]
  have hround : roundUnits (u * v) unitsPerOne ≤ 0 :=
    roundUnits_le unitsPerOne_pos representable_zero (by omega)
  omega

private theorem hasUnits_ofSignedUnits (negativeZero : Bool) (hbound : Representable bound)
    (h : u ≤ bound) : HasUnits (.ofSignedUnits negativeZero u) (roundUnits u 1) := by
  unfold ofSignedUnits
  rw [Int.natAbs_natCast]
  apply hasUnits_ofUnits (representable_of_le Nat.one_pos hbound (by omega))
  intro hnegative
  have hzero : u = 0 := by
    by_contra hne
    rw [if_neg (by exact_mod_cast hne), decide_eq_true_iff] at hnegative
    omega
  rw [hzero]
  exact roundUnits_one representable_zero

theorem hasUnits_add (ha : HasUnits a u) (hb : HasUnits b v) (hbound : Representable bound)
    (h : u + v ≤ bound) : HasUnits (a.add b) (roundUnits (u + v) 1) := by
  obtain ⟨x, rfl, hx⟩ := ha
  obtain ⟨y, rfl, hy⟩ := hb
  show HasUnits (.ofSignedUnits _ (x.signedUnits + y.signedUnits)) _
  rw [hx, hy, ← Nat.cast_add]
  exact hasUnits_ofSignedUnits _ hbound h

theorem hasUnits_div (ha : HasUnits a u) (hb : HasUnits b v) (hv : 0 < v)
    (hbound : Representable bound) (h : u * unitsPerOne ≤ bound * v) :
    HasUnits (a.div b) (roundUnits (u * unitsPerOne) v) := by
  obtain ⟨x, rfl, hx⟩ := ha
  obtain ⟨y, rfl, hy⟩ := hb
  obtain ⟨hunits, hsign⟩ := units_of_signedUnits hx
  obtain ⟨hunits', hsign'⟩ := units_of_signedUnits hy
  have hnonzero : y.isZero = false := by
    rw [Finite64.isZero, hunits']
    exact beq_eq_false_iff_ne.mpr hv.ne'
  have hpositive : y.negative = false := by
    cases hnegative : y.negative with
    | true => exact absurd (hsign' hnegative) hv.ne'
    | false => rfl
  show HasUnits (if y.isZero = true then _ else _) _
  rw [hnonzero, if_neg Bool.false_ne_true, hunits, hunits']
  apply hasUnits_ofUnits (representable_of_le hv hbound h)
  intro hdiffer
  rw [hpositive, Bool.bne_false] at hdiffer
  have hround : roundUnits (u * unitsPerOne) v ≤ 0 :=
    roundUnits_le hv representable_zero (by rw [hsign hdiffer]; omega)
  omega

theorem isInt_floor (ha : HasUnits a u) (h : u / unitsPerOne < 2 ^ 53) :
    IsInt a.floor (u / unitsPerOne : ℕ) := by
  obtain ⟨x, rfl, hx⟩ := ha
  show IsInt (.ofSignedUnits x.negative (x.signedUnits / unitsPerOne * unitsPerOne)) _
  rw [hx, ← Int.natCast_ediv]
  exact isInt_ofSignedUnits _ (by rwa [Int.natAbs_natCast])

theorem isInt_round (ha : HasUnits a u)
    (h : (2 * u + unitsPerOne) / (2 * unitsPerOne) < 2 ^ 53) :
    IsInt a.round ((2 * u + unitsPerOne) / (2 * unitsPerOne) : ℕ) := by
  obtain ⟨x, rfl, hx⟩ := ha
  show IsInt (.ofSignedUnits x.negative
    ((2 * x.signedUnits + unitsPerOne) / (2 * unitsPerOne) * unitsPerOne)) _
  rw [hx]
  have hcast : (2 * (u : ℤ) + unitsPerOne) / (2 * unitsPerOne) =
      (((2 * u + unitsPerOne) / (2 * unitsPerOne) : ℕ) : ℤ) := by push_cast; rfl
  rw [hcast]
  exact isInt_ofSignedUnits _ (by rwa [Int.natAbs_natCast])

end Number

end Ecma
