import GhostBridge.Ecma.Numeric
import GhostBridge.Ecma.Value

/-!
# Bounds of rounding

Rounding keeps powers of two apart: what is not below one is not rounded below it, and what is below
one is not rounded above it.
-/

namespace Ecma

theorem div_le_divideToEven (num den : ℕ) : num / den ≤ divideToEven num den := by
  simp only [divideToEven]
  split
  · exact Nat.le_refl _
  · exact Nat.le_succ _

theorem divideToEven_le (num den : ℕ) : divideToEven num den ≤ num / den + 1 := by
  simp only [divideToEven]
  split
  · exact Nat.le_succ _
  · exact Nat.le_refl _

private theorem quotient_lt {q : ℕ} : q / 2 ^ droppedBits q < 2 ^ 53 := by
  rw [Nat.div_lt_iff_lt_mul (Nat.two_pow_pos _), ← Nat.pow_add]
  apply Nat.lt_of_lt_of_le Nat.lt_log2_self
  apply Nat.pow_le_pow_right (by decide)
  unfold droppedBits
  omega

theorem pow_le_roundUnits {num den k : ℕ} (h : 2 ^ k ≤ num / den) : 2 ^ k ≤ roundUnits num den := by
  have hne : num / den ≠ 0 := Nat.ne_of_gt (Nat.lt_of_lt_of_le (Nat.two_pow_pos k) h)
  have hlog : k ≤ (num / den).log2 := (Nat.le_log2 hne).mpr h
  have hdropped : droppedBits (num / den) ≤ (num / den).log2 := Nat.sub_le _ _
  have hkept : 2 ^ ((num / den).log2 - droppedBits (num / den)) ≤
      num / (den * 2 ^ droppedBits (num / den)) := by
    rw [← Nat.div_div_eq_div_mul, Nat.le_div_iff_mul_le (Nat.two_pow_pos _), ← Nat.pow_add,
      Nat.sub_add_cancel hdropped]
    exact Nat.log2_self_le hne
  calc 2 ^ k ≤ 2 ^ (num / den).log2 := Nat.pow_le_pow_right (by decide) hlog
    _ = 2 ^ ((num / den).log2 - droppedBits (num / den)) * 2 ^ droppedBits (num / den) := by
      rw [← Nat.pow_add, Nat.sub_add_cancel hdropped]
    _ ≤ roundUnits num den :=
      Nat.mul_le_mul_right _ (hkept.trans (div_le_divideToEven _ _))

theorem roundUnits_le_pow {num den k : ℕ} (hk : 53 ≤ k) (h : num / den < 2 ^ k) :
    roundUnits num den ≤ 2 ^ k := by
  have hdropped : droppedBits (num / den) + 53 ≤ k := by
    by_cases hzero : num / den = 0
    · rw [hzero]
      simpa [droppedBits] using hk
    · have hlog := (Nat.log2_lt hzero).mpr h
      unfold droppedBits
      omega
  have hrounded : divideToEven num (den * 2 ^ droppedBits (num / den)) ≤ 2 ^ 53 := by
    have hup := divideToEven_le num (den * 2 ^ droppedBits (num / den))
    have hlt := @quotient_lt (num / den)
    rw [Nat.div_div_eq_div_mul] at hlt
    omega
  calc roundUnits num den ≤ 2 ^ 53 * 2 ^ droppedBits (num / den) :=
      Nat.mul_le_mul_right _ hrounded
    _ = 2 ^ (droppedBits (num / den) + 53) := by rw [← Nat.pow_add, Nat.add_comm]
    _ ≤ 2 ^ k := Nat.pow_le_pow_right (by decide) hdropped

theorem representable_roundUnits {num den : ℕ} (h : roundUnits num den < unitsLimit) :
    Representable (roundUnits num den) := by
  refine ⟨?_, h⟩
  apply Nat.mod_eq_zero_of_dvd
  have hup := divideToEven_le num (den * 2 ^ droppedBits (num / den))
  have hlt := @quotient_lt (num / den)
  rw [Nat.div_div_eq_div_mul] at hlt
  have hrounded : roundUnits num den = divideToEven num (den * 2 ^ droppedBits (num / den)) *
      2 ^ droppedBits (num / den) := rfl
  rw [hrounded]
  generalize divideToEven num (den * 2 ^ droppedBits (num / den)) = kept at hup
  generalize droppedBits (num / den) = dropped at hup hlt
  by_cases hzero : kept = 0
  · rw [hzero, Nat.zero_mul]
    exact Nat.dvd_zero _
  · by_cases hfull : kept = 2 ^ 53
    · rw [hfull, ← Nat.pow_add]
      apply Nat.pow_dvd_pow
      rw [droppedBits, Nat.log2_two_pow]
      omega
    · have hne : kept * 2 ^ dropped ≠ 0 := Nat.mul_ne_zero hzero (Nat.two_pow_pos _).ne'
      have hlog : (kept * 2 ^ dropped).log2 < 53 + dropped := by
        rw [Nat.log2_lt hne, Nat.pow_add]
        exact Nat.mul_lt_mul_of_pos_right (by omega) (Nat.two_pow_pos _)
      apply Dvd.dvd.mul_left
      apply Nat.pow_dvd_pow
      rw [droppedBits]
      omega

namespace Number

def IsInt (n : Number) (m : ℤ) : Prop :=
  ∃ x, n = .finite x ∧ x.signedUnits = m * unitsPerOne

def AtLeast (k : ℕ) (n : Number) : Prop :=
  n = .infinity false ∨ ∃ x, n = .finite x ∧ (2 ^ k * unitsPerOne : ℤ) ≤ x.signedUnits

/-- The double is not above a negative power of two. -/
def AtMost (k : ℕ) (n : Number) : Prop :=
  n = .infinity true ∨ ∃ x, n = .finite x ∧ x.signedUnits ≤ -(2 ^ k * unitsPerOne : ℤ)

variable {a b : Number} {m n : ℤ}

private theorem units_pos : (0 : ℤ) < unitsPerOne := by
  exact_mod_cast unitsPerOne_pos

theorem roundUnits_one {units : ℕ} (h : Representable units) : roundUnits units 1 = units := by
  have hround := roundUnits_mul h Nat.one_pos
  rwa [Nat.mul_one] at hround

theorem isInt_ofUnits (negative : Bool) {k : ℕ} (h : k < 2 ^ 53) :
    IsInt (.ofUnits negative (roundUnits (k * unitsPerOne) 1)) (if negative then -k else k) := by
  have hrepresentable := representable_mul_unitsPerOne h
  rw [roundUnits_one hrepresentable, Number.ofUnits, dif_pos hrepresentable]
  refine ⟨_, rfl, ?_⟩
  cases negative with
  | false =>
    simp only [Finite64.signedUnits, Bool.false_eq_true, if_false]
    exact Nat.cast_mul k unitsPerOne
  | true =>
    simp only [Finite64.signedUnits, if_true]
    rw [Nat.cast_mul, Int.neg_mul]

private theorem ofUnits_cases (negative : Bool) (units : ℕ) :
    Number.ofUnits negative units = .infinity negative ∨
      ∃ x, Number.ofUnits negative units = .finite x ∧
        x.signedUnits = if negative then -(units : ℤ) else units := by
  by_cases h : Representable units
  · rw [Number.ofUnits, dif_pos h]
    exact .inr ⟨_, rfl, rfl⟩
  · rw [Number.ofUnits, dif_neg h]
    exact .inl rfl

private theorem le_roundUnits_one {k units : ℕ} (h : 2 ^ k * unitsPerOne ≤ units) :
    2 ^ k * unitsPerOne ≤ roundUnits units 1 := by
  obtain ⟨shift, hshift⟩ : ∃ shift, unitsPerOne = 2 ^ shift := ⟨_, rfl⟩
  rw [hshift, ← Nat.pow_add] at h ⊢
  exact pow_le_roundUnits (by rwa [Nat.div_one])

theorem atLeast_ofUnits {k units : ℕ} (h : 2 ^ k * unitsPerOne ≤ units) :
    AtLeast k (.ofUnits false (roundUnits units 1)) := by
  rcases ofUnits_cases false (roundUnits units 1) with hinfinite | ⟨x, hfinite, hx⟩
  · exact .inl hinfinite
  · refine .inr ⟨x, hfinite, ?_⟩
    rw [hx, if_neg Bool.false_ne_true]
    exact_mod_cast le_roundUnits_one h

theorem atMost_ofUnits {k units : ℕ} (h : 2 ^ k * unitsPerOne ≤ units) :
    AtMost k (.ofUnits true (roundUnits units 1)) := by
  rcases ofUnits_cases true (roundUnits units 1) with hinfinite | ⟨x, hfinite, hx⟩
  · exact .inl hinfinite
  · refine .inr ⟨x, hfinite, ?_⟩
    rw [hx, if_pos rfl]
    exact Int.neg_le_neg (by exact_mod_cast le_roundUnits_one h)

theorem isInt_ofSignedUnits (negativeZero : Bool) (h : m.natAbs < 2 ^ 53) :
    IsInt (.ofSignedUnits negativeZero (m * unitsPerOne)) m := by
  have hround (negative : Bool) := isInt_ofUnits negative h
  rw [ofSignedUnits, Int.natAbs_mul, Int.natAbs_natCast]
  rcases Int.lt_trichotomy m 0 with hneg | rfl | hpos
  · have hunits : m * unitsPerOne < 0 := Int.mul_neg_of_neg_of_pos hneg units_pos
    rw [if_neg hunits.ne, decide_eq_true hunits]
    have hvalue := hround true
    rwa [if_pos rfl, Int.ofNat_natAbs_of_nonpos hneg.le, Int.neg_neg] at hvalue
  · rw [Int.zero_mul, if_pos rfl]
    have hvalue := hround negativeZero
    simpa using hvalue
  · have hunits : 0 < m * unitsPerOne := Int.mul_pos hpos units_pos
    rw [if_neg hunits.ne', decide_eq_false hunits.le.not_gt]
    have hvalue := hround false
    rwa [if_neg Bool.false_ne_true, Int.natAbs_of_nonneg hpos.le] at hvalue

private theorem two_pow_units_pos (k : ℕ) : (0 : ℤ) < 2 ^ k * unitsPerOne :=
  Int.mul_pos (by positivity) units_pos

theorem atLeast_ofSignedUnits (negativeZero : Bool) {k : ℕ} {units : ℤ}
    (h : (2 ^ k * unitsPerOne : ℤ) ≤ units) : AtLeast k (.ofSignedUnits negativeZero units) := by
  have hpos : 0 < units := Int.lt_of_lt_of_le (two_pow_units_pos k) h
  rw [ofSignedUnits, if_neg hpos.ne', decide_eq_false hpos.le.not_gt]
  apply atLeast_ofUnits
  rw [← Int.ofNat_le, Int.natCast_mul, Int.natCast_pow, Int.natAbs_of_nonneg hpos.le]
  exact h

theorem atMost_ofSignedUnits (negativeZero : Bool) {k : ℕ} {units : ℤ}
    (h : units ≤ -(2 ^ k * unitsPerOne : ℤ)) : AtMost k (.ofSignedUnits negativeZero units) := by
  have hpos := two_pow_units_pos k
  have hneg : units < 0 := Int.lt_of_le_of_lt h (Int.neg_neg_of_pos hpos)
  rw [ofSignedUnits, if_neg hneg.ne, decide_eq_true hneg]
  apply atMost_ofUnits
  rw [← Int.ofNat_le, Int.natCast_mul, Int.natCast_pow, Int.ofNat_natAbs_of_nonpos hneg.le]
  exact le_neg.mp h

theorem isInt_neg (h : IsInt a m) : IsInt a.neg (-m) := by
  obtain ⟨x, rfl, hx⟩ := h
  refine ⟨_, rfl, ?_⟩
  rw [Int.neg_mul, ← hx]
  simp only [Finite64.signedUnits]
  cases x.negative with
  | false => simp
  | true => simp

theorem isInt_add (ha : IsInt a m) (hb : IsInt b n) (h : (m + n).natAbs < 2 ^ 53) :
    IsInt (a.add b) (m + n) := by
  obtain ⟨x, rfl, hx⟩ := ha
  obtain ⟨y, rfl, hy⟩ := hb
  rw [add, hx, hy, ← Int.add_mul]
  exact isInt_ofSignedUnits _ h

theorem sub_eq_ofSignedUnits (x : Finite64) (hb : IsInt b n) :
    ∃ negativeZero, (Number.finite x).sub b =
      .ofSignedUnits negativeZero (x.signedUnits - n * unitsPerOne) := by
  obtain ⟨y, hy, hunits⟩ := isInt_neg hb
  rw [sub, hy, add, hunits, Int.neg_mul, ← Int.sub_eq_add_neg]
  exact ⟨_, rfl⟩

theorem isInt_sub (ha : IsInt a m) (hb : IsInt b n) (h : (m - n).natAbs < 2 ^ 53) :
    IsInt (a.sub b) (m - n) := by
  rw [Int.sub_eq_add_neg] at h ⊢
  exact isInt_add ha (isInt_neg hb) h

theorem atMost_sub {k : ℕ} {x : Finite64} (hb : IsInt b n)
    (h : x.signedUnits - n * unitsPerOne ≤ -(2 ^ k * unitsPerOne : ℤ)) :
    AtMost k ((Number.finite x).sub b) := by
  obtain ⟨negativeZero, hsub⟩ := sub_eq_ofSignedUnits x hb
  rw [hsub]
  exact atMost_ofSignedUnits negativeZero h

theorem atLeast_sub {k : ℕ} {x : Finite64} (hb : IsInt b n)
    (h : (2 ^ k * unitsPerOne : ℤ) ≤ x.signedUnits - n * unitsPerOne) :
    AtLeast k ((Number.finite x).sub b) := by
  obtain ⟨negativeZero, hsub⟩ := sub_eq_ofSignedUnits x hb
  rw [hsub]
  exact atLeast_ofSignedUnits negativeZero h

theorem atLeast_ofDecimal {k n : ℕ} (h : 2 ^ k ≤ n) : AtLeast k (.ofDecimal false n 0) := by
  have hle : 2 ^ k * unitsPerOne ≤ n * unitsPerOne := Nat.mul_le_mul_right _ h
  have hround := atLeast_ofUnits hle
  simpa only [ofDecimal, Int.toNat_zero, Int.neg_zero, Nat.pow_zero, Nat.mul_one] using hround

theorem atMost_ofDecimal {k n : ℕ} (h : 2 ^ k ≤ n) : AtMost k (.ofDecimal true n 0) := by
  have hle : 2 ^ k * unitsPerOne ≤ n * unitsPerOne := Nat.mul_le_mul_right _ h
  have hround := atMost_ofUnits hle
  simpa only [ofDecimal, Int.toNat_zero, Int.neg_zero, Nat.pow_zero, Nat.mul_one] using hround

theorem isInt_ofDecimal (negative : Bool) {k : ℕ} (h : k < 2 ^ 53) :
    IsInt (.ofDecimal negative k 0) (if negative then -k else k) := by
  have hint := isInt_ofUnits negative h
  simpa only [ofDecimal, Int.toNat_zero, Int.neg_zero, Nat.pow_zero, Nat.mul_one] using hint

theorem isInt_ofNat {k : ℕ} (h : k < 2 ^ 53) : IsInt (.ofNat k) k := isInt_ofDecimal false h

theorem le_iff_of_isInt (ha : IsInt a m) (hb : IsInt b n) : a.le b = true ↔ m ≤ n := by
  obtain ⟨x, rfl, hx⟩ := ha
  obtain ⟨y, rfl, hy⟩ := hb
  rw [le, hx, hy, decide_eq_true_eq]
  exact Int.mul_le_mul_right units_pos

theorem wholePart_of_isInt (h : IsInt a m) : a.wholePart = m := by
  obtain ⟨x, rfl, hx⟩ := h
  simp only [wholePart, Finite64.signedUnits] at hx ⊢
  cases hnegative : x.negative with
  | false =>
    rw [hnegative] at hx
    simp only [Bool.false_eq_true, if_false] at hx ⊢
    rw [Int.natCast_ediv, hx, Int.mul_ediv_cancel _ units_pos.ne']
  | true =>
    rw [hnegative] at hx
    simp only [if_true] at hx ⊢
    have hunits : (x.units : ℤ) = -m * unitsPerOne := by
      rw [Int.neg_mul, ← hx, Int.neg_neg]
    rw [Int.natCast_ediv, hunits, Int.mul_ediv_cancel _ units_pos.ne', Int.neg_neg]

theorem AtLeast.pow_le_wholePart {k : ℕ} (h : AtLeast k a) (hfinite : a ≠ .infinity false) :
    (2 ^ k : ℤ) ≤ a.wholePart := by
  rcases h with hinfinite | ⟨x, rfl, hx⟩
  · exact absurd hinfinite hfinite
  · have hpos := two_pow_units_pos k
    cases hnegative : x.negative with
    | true =>
      rw [Finite64.signedUnits, if_pos hnegative] at hx
      have hunits : (0 : ℤ) ≤ x.units := Int.natCast_nonneg _
      exact absurd (hpos.trans_le hx) (Int.not_lt.mpr (Int.neg_nonpos_of_nonneg hunits))
    | false =>
      rw [Finite64.signedUnits, if_neg (by rw [hnegative]; exact Bool.false_ne_true)] at hx
      rw [wholePart, if_neg (by rw [hnegative]; exact Bool.false_ne_true), Int.natCast_ediv]
      rw [Int.le_ediv_iff_mul_le units_pos]
      exact hx

theorem exists_finite_ofDecimal (negative : Bool) {k : ℕ} (h : k < 2 ^ 54) :
    ∃ x, Number.ofDecimal negative k 0 = .finite x := by
  obtain ⟨shift, hunits, hshift⟩ : ∃ shift, unitsPerOne = 2 ^ shift ∧ shift = 1074 := ⟨_, rfl, rfl⟩
  obtain ⟨limit, hlimits, hlimit⟩ : ∃ limit, unitsLimit = 2 ^ limit ∧ limit = 2098 := ⟨_, rfl, rfl⟩
  have hbound : k * unitsPerOne / 1 < 2 ^ (54 + shift) := by
    rw [Nat.div_one, Nat.pow_add, ← hunits]
    exact Nat.mul_lt_mul_of_pos_right h unitsPerOne_pos
  have hround := roundUnits_le_pow (by omega) hbound
  have hlimit : roundUnits (k * unitsPerOne) 1 < unitsLimit := by
    rw [hlimits]
    exact Nat.lt_of_le_of_lt hround (Nat.pow_lt_pow_right (by decide) (by omega))
  have hrepresentable := representable_roundUnits hlimit
  refine ⟨⟨negative, _, hrepresentable⟩, ?_⟩
  simp only [ofDecimal, Int.toNat_zero, Int.neg_zero, Nat.pow_zero, Nat.mul_one]
  rw [Number.ofUnits, dif_pos hrepresentable]

/-- A decimal from `2 ^ 1024` on overflows. -/
theorem ofDecimal_infinity (negative : Bool) {coefficient : ℕ} {exponent : ℤ} {k : ℕ}
    (hk : k = 1024)
    (h : 2 ^ k * 10 ^ (-exponent).toNat ≤ coefficient * 10 ^ exponent.toNat) :
    Number.ofDecimal negative coefficient exponent = .infinity negative := by
  obtain ⟨limit, hlimit⟩ : ∃ limit, unitsLimit = 2 ^ limit := ⟨_, rfl⟩
  have hbound : 2 ^ limit ≤ coefficient * 10 ^ exponent.toNat * unitsPerOne /
      10 ^ (-exponent).toNat := by
    have hunits : unitsLimit = 2 ^ k * unitsPerOne := by
      rw [unitsPerOne, ← Nat.pow_add, hk]
      rfl
    rw [Nat.le_div_iff_mul_le (by positivity), ← hlimit, hunits, Nat.mul_right_comm]
    exact Nat.mul_le_mul_right _ h
  have hround := pow_le_roundUnits hbound
  rw [← hlimit] at hround
  rw [ofDecimal, Number.ofUnits, dif_neg]
  intro hrepresentable
  exact absurd hrepresentable.2 (Nat.not_lt.mpr hround)

theorem AtMost.not_le {k : ℕ} (h : AtMost k a) : (Number.ofNat 0).le a = false := by
  have hzero := ofNat_zero
  rw [hzero]
  rcases h with rfl | ⟨x, rfl, hx⟩
  · rfl
  · have hneg : x.signedUnits < 0 :=
      Int.lt_of_le_of_lt hx (Int.neg_neg_of_pos (two_pow_units_pos k))
    rw [le, decide_eq_false_iff_not]
    exact Int.not_le.mpr hneg

theorem AtMost.neg_not_le {k length : ℕ} (h : AtMost k a) (hlength : length < 2 ^ k)
    (hsmall : length < 2 ^ 53) : a.neg.le (.ofNat length) = false := by
  obtain ⟨y, hy, hunits⟩ := isInt_ofNat hsmall
  rw [hy]
  rcases h with rfl | ⟨x, rfl, hx⟩
  · rfl
  · have hlt : (length * unitsPerOne : ℤ) < 2 ^ k * unitsPerOne :=
      Int.mul_lt_mul_of_pos_right (by exact_mod_cast hlength) units_pos
    have hneg : Finite64.signedUnits { x with negative := !x.negative } = -x.signedUnits := by
      simp only [Finite64.signedUnits]
      cases x.negative with
      | false => simp
      | true => simp
    rw [neg, le, decide_eq_false_iff_not, hneg, hunits]
    exact Int.not_le.mpr (Int.lt_of_lt_of_le hlt (Int.le_neg_of_le_neg hx))

theorem AtLeast.le {k : ℕ} (h : AtLeast k a) : (Number.ofNat 0).le a = true := by
  rw [ofNat_zero]
  rcases h with rfl | ⟨x, rfl, hx⟩
  · rfl
  · rw [Number.le, decide_eq_true_eq]
    exact Int.le_trans (two_pow_units_pos k).le hx

end Number

end Ecma
