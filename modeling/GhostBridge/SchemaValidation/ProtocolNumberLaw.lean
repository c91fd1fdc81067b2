import GhostBridge.SchemaValidation.ProtocolNumbers

/-!
# What `assertProtocolNumber` accepts

The shift of the decimal point is computed in doubles.
-/

namespace GhostBridge.SchemaValidation

open Ecma

theorem decimalNumber_digits (negative : Bool) {digits : Text} (h : AreDigits digits)
    (hne : digits ≠ []) :
    decimalNumber negative digits = .ofDecimal negative (digitsValue digits) 0 := by
  have hparts : (digits ++ []).takeWhile isDigit = digits ∧
      (digits ++ []).dropWhile isDigit = [] := takeWhile_digits h (by simp)
  rw [List.append_nil] at hparts
  have hinfinity : digits ≠ ascii "Infinity" := by
    rintro rfl
    have hletter := h 0x49 List.mem_cons_self
    revert hletter
    decide
  rw [decimalNumber, hparts.1, hparts.2]
  simp only [if_neg hinfinity]
  rw [if_neg (by simp [hne]), List.append_nil]
  rfl

theorem ExponentToken.toNumber_eq (exponent : ExponentToken) :
    (exponent.sign ++ exponent.digits).toNumber =
      .ofDecimal (exponent.sign == [0x2d]) (digitsValue exponent.digits) 0 := by
  have hspace : ∀ u ∈ exponent.digits, isWhitespace u = false :=
    fun u hu => (isDigit_units (exponent.areDigits u hu)).2.2.2
  have hnumber (negative : Bool) :=
    decimalNumber_digits negative exponent.areDigits exponent.nonempty
  have hsigned {u : UInt16} (hu : isWhitespace u = false) :
      ∀ v ∈ u :: exponent.digits, isWhitespace v = false := by
    intro v hv
    rcases List.mem_cons.mp hv with rfl | hv
    · exact hu
    · exact hspace v hv
  rcases exponent.isSign with hsign | hsign | hsign
  · rw [hsign, List.nil_append]
    rw [toNumber_of_digit hspace exponent.head_digits]
    · exact hnumber false
    · intro u us h
      refine .inl (exponent.areDigits u ?_)
      rw [h]
      exact List.mem_cons_of_mem _ List.mem_cons_self
  · rw [hsign]
    show Text.toNumber (0x2b :: exponent.digits) = _
    rw [Text.toNumber, Text.trimmed_of_forall (hsigned (by decide))]
    exact hnumber false
  · rw [hsign]
    show Text.toNumber (0x2d :: exponent.digits) = _
    rw [Text.toNumber, Text.trimmed_of_forall (hsigned (by decide))]
    exact hnumber true

namespace NumberToken

variable (token : NumberToken)

def fractionLength : ℕ := (token.fraction.getD []).length

/-- The integer of the exponent, as the double that it is read as. -/
structure ExponentRead (negative : Bool) (n count : ℕ) : Prop where
  number : token.found.exponentNumber = .ofDecimal negative n 0
  value : token.exponent.elim 0 ExponentToken.value = if negative then -(n : ℤ) else n
  lt : n < 10 ^ count
  room : token.fractionLength + count < token.text.length

theorem length_text : token.text.length =
    (if token.negative then 1 else 0) + token.whole.length + token.fractionText.length +
      token.exponentText.length := by
  rw [text_eq, unsigned]
  cases token.negative with
  | true =>
    simp
    omega
  | false =>
    simp
    omega

theorem fractionLength_le : token.fractionLength ≤ token.fractionText.length := by
  unfold fractionLength fractionText
  cases token.fraction with
  | none => exact Nat.le_refl 0
  | some digits => exact Nat.le_succ _

theorem exists_exponentRead : ∃ negative n count, token.ExponentRead negative n count := by
  have hlength := token.length_text
  have hfraction := token.fractionLength_le
  have hwhole := List.length_pos_iff.mpr token.nonempty
  cases hexponent : token.exponent with
  | none =>
    refine ⟨false, 0, 0, ?_, ?_, by decide, by omega⟩
    · rw [NumberMatch.exponentNumber, found, hexponent]
      show Text.toNumber (ascii "0") = .ofDecimal false 0 0
      decide +kernel
    · rw [hexponent]
      rfl
  | some exponent =>
    refine ⟨exponent.sign == [0x2d], digitsValue exponent.digits, exponent.digits.length,
      ?_, ?_, digitsValue_lt exponent.areDigits, ?_⟩
    · rw [NumberMatch.exponentNumber, found, hexponent]
      exact exponent.toNumber_eq
    · rw [hexponent]
      show exponent.value = _
      rw [ExponentToken.value]
      by_cases hsign : exponent.sign = [0x2d]
      · simp [hsign]
      · simp [hsign]
    · have htext : token.exponentText = exponent.text := by
        rw [exponentText, hexponent]
        rfl
      rw [htext, ExponentToken.text, List.length_cons, List.length_append] at hlength
      omega

inductive ShiftRead (shift : Number) (scale : ℤ) : Prop where
  | exact (hint : shift.IsInt scale) (hsmall : scale.natAbs < 2 ^ 53)
  | low (hlow : shift.AtMost 53) (hscale : scale ≤ -2 ^ 53)
  | high (hhigh : shift.AtLeast 4) (hscale : 16 ≤ scale)

private theorem pow_of_lt {n count : ℕ} (h : n < 10 ^ count) (hn : 2 ^ 53 ≤ n) : 16 ≤ count := by
  by_contra hshort
  have hpow : 10 ^ count ≤ 10 ^ 15 := Nat.pow_le_pow_right (by decide) (by omega)
  omega

private theorem units_le {a b c : ℤ} (h : a ≤ b) (hc : b * unitsPerOne ≤ c) :
    a * unitsPerOne ≤ c := by
  have hunits : (0 : ℤ) ≤ unitsPerOne := Int.natCast_nonneg _
  exact Int.le_trans (Int.mul_le_mul_of_nonneg_right h hunits) hc

theorem shiftRead (hlength : token.text.length < 2 ^ 53)
    (hfinite : isFiniteNumber token.found.exponentNumber = true) :
    ShiftRead token.found.decimalShift token.scale := by
  obtain ⟨negative, n, count, hread⟩ := token.exists_exponentRead
  have hroom := hread.room
  have hfraction : token.fractionLength < 2 ^ 53 := by omega
  have hint := Number.isInt_ofNat hfraction
  have hscale : token.scale = (if negative then -(n : ℤ) else n) - token.fractionLength := by
    rw [scale, hread.value]
    rfl
  have hshift : token.found.decimalShift =
      token.found.exponentNumber.sub (.ofNat token.fractionLength) := rfl
  obtain ⟨x, hx⟩ : ∃ x, token.found.exponentNumber = .finite x := by
    cases hnumber : token.found.exponentNumber with
    | finite x => exact ⟨x, rfl⟩
    | nan =>
      rw [hnumber] at hfinite
      cases hfinite
    | infinity negative =>
      rw [hnumber] at hfinite
      cases hfinite
  have hnumber := hread.number
  rw [hshift, hscale]
  rw [hx] at hnumber ⊢
  have hzero : (0 : ℤ) ≤ token.fractionLength := Int.natCast_nonneg _
  by_cases hsmall : n < 2 ^ 53
  · have hexponent := Number.isInt_ofDecimal negative hsmall
    rw [← hnumber] at hexponent
    generalize hvalue : (if negative then -(n : ℤ) else n) = value at hexponent ⊢
    have hbound : value < 2 ^ 53 := by
      rw [← hvalue]
      cases negative with
      | true =>
        simp only [if_true]
        omega
      | false =>
        simp only [Bool.false_eq_true, if_false]
        omega
    by_cases hexact : (value - token.fractionLength).natAbs < 2 ^ 53
    · exact .exact (Number.isInt_sub hexponent hint hexact) hexact
    · have hlow : value - token.fractionLength ≤ -2 ^ 53 := by omega
      obtain ⟨y, hy, hunits⟩ := hexponent
      cases hy
      refine .low (Number.atMost_sub hint ?_) hlow
      rw [hunits, ← Int.sub_mul, ← Int.neg_mul]
      exact units_le hlow (Int.le_refl _)
  · have hlarge : 2 ^ 53 ≤ n := Nat.le_of_not_lt hsmall
    cases negative with
    | true =>
      rcases Number.atMost_ofDecimal hlarge with hinfinite | ⟨y, hy, hunits⟩
      · rw [hinfinite] at hnumber
        cases hnumber
      · rw [hy] at hnumber
        cases hnumber
        have hscaled : (0 : ℤ) ≤ token.fractionLength * unitsPerOne :=
          Int.mul_nonneg hzero (Int.natCast_nonneg _)
        refine .low (Number.atMost_sub hint (by linarith)) ?_
        simp only [if_true]
        omega
    | false =>
      have hcount := pow_of_lt hread.lt hlarge
      rcases Number.atLeast_ofDecimal hlarge with hinfinite | ⟨y, hy, hunits⟩
      · rw [hinfinite] at hnumber
        cases hnumber
      · rw [hy] at hnumber
        cases hnumber
        refine .high (Number.atLeast_sub hint ?_) ?_
        · have hgap : (2 ^ 4 + token.fractionLength : ℤ) ≤ 2 ^ 53 := by omega
          have hsum := units_le hgap hunits
          rw [Int.add_mul] at hsum
          linarith
        · simp only [Bool.false_eq_true, if_false]
          omega

end NumberToken

def DenotesMagnitude (coefficient : ℕ) (scale : ℤ) (m : ℕ) : Prop :=
  coefficient * 10 ^ scale.toNat = m * 10 ^ (-scale).toNat

structure IsNumeral (text : Text) : Prop where
  areDigits : AreDigits text
  head : ∃ u us, text = u :: us ∧ u ≠ 48

variable {text : Text}

theorem stripZeros_of_isNumeral (h : IsNumeral text) : stripZeros text = text := by
  obtain ⟨u, us, rfl, hu⟩ := h.head
  have hdrop : (u :: us).dropWhile (· == 0x30) = u :: us :=
    List.dropWhile_cons_of_neg (by simpa using hu)
  rw [stripZeros, hdrop]

theorem isNumeral_stripZeros (h : AreDigits text) (hvalue : digitsValue text ≠ 0) :
    IsNumeral (stripZeros text) ∧ digitsValue (stripZeros text) = digitsValue text ∧
      (stripZeros text).length ≤ text.length := by
  have hdropped := digitsValue_dropZeros text
  have hsublist : List.Sublist (text.dropWhile (· == 48)) text := List.dropWhile_sublist _
  unfold stripZeros
  split
  next hnil =>
    rw [hnil] at hdropped
    exact absurd hdropped.symm hvalue
  next hne =>
    refine ⟨⟨fun u hu => h u (hsublist.subset hu), ?_⟩, hdropped, hsublist.length_le⟩
    cases hcase : text.dropWhile (· == 48) with
    | nil => exact absurd hcase (by simpa using hne)
    | cons u us =>
      refine ⟨u, us, rfl, ?_⟩
      rintro rfl
      have hhead := List.head?_dropWhile_not (· == 48) text
      rw [hcase] at hhead
      simp at hhead

theorem stripZeros_zero (h : AreDigits text) (hvalue : digitsValue text = 0) :
    stripZeros text = ascii "0" := by
  have hzeros := (digitsValue_eq_zero_iff h).mp hvalue
  have hdrop : text.dropWhile (· == 0x30) = [] := by
    rw [List.eq_replicate_iff.mpr ⟨rfl, hzeros⟩, List.dropWhile_replicate]
    rfl
  rw [stripZeros, hdrop]
  rfl

theorem IsNumeral.pow_le (h : IsNumeral text) : 10 ^ (text.length - 1) ≤ digitsValue text := by
  obtain ⟨u, us, rfl, hu⟩ := h.head
  exact pow_le_digitsValue h.areDigits hu

theorem IsNumeral.pos (h : IsNumeral text) : 0 < digitsValue text :=
  Nat.lt_of_lt_of_le (by positivity) h.pow_le

theorem IsNumeral.ne_zero (h : IsNumeral text) : text ≠ ascii "0" := by
  rintro rfl
  obtain ⟨u, us, htext, hu⟩ := h.head
  exact hu (List.cons.inj htext).1.symm

theorem isUnsafeMagnitude_iff (h : IsNumeral text) :
    isUnsafeMagnitude text = true ↔ 9007199254740991 < digitsValue text := by
  have hmaximum : AreDigits maximumMagnitude :=
    List.all_eq_true.mp (rfl : maximumMagnitude.all isDigit = true)
  have hvalue : digitsValue maximumMagnitude = 9007199254740991 := by decide
  have hlength : maximumMagnitude.length = 16 := by decide
  have hlow := h.pow_le
  have hhigh := digitsValue_lt h.areDigits
  simp only [isUnsafeMagnitude, Bool.or_eq_true, Bool.and_eq_true, decide_eq_true_eq, beq_iff_eq,
    Bool.not_eq_true', hlength]
  rcases Nat.lt_trichotomy text.length 16 with hshort | hsame | hlong
  · have hpow : 10 ^ text.length ≤ 10 ^ 15 := Nat.pow_le_pow_right (by decide) (by omega)
    omega
  · have horder := le_iff_digitsValue_le h.areDigits hmaximum (hsame.trans hlength.symm)
    rw [hvalue] at horder
    rw [← Bool.not_eq_true, horder]
    omega
  · have hpow : 10 ^ 16 ≤ 10 ^ (text.length - 1) := Nat.pow_le_pow_right (by decide) (by omega)
    omega

theorem repeatZero_of_isInt {count : Number} {k : ℕ} (h : count.IsInt k) :
    repeatZero count = .ok (List.replicate k 0x30) := by
  have hwhole := Number.wholePart_of_isInt h
  obtain ⟨x, rfl, -⟩ := h
  rw [repeatZero, hwhole, if_neg (by omega), Int.toNat_natCast]
  intro negative hinfinite
  cases hinfinite

theorem sliceIndex_of_isInt {last : Number} {k length : ℕ} (h : last.IsInt k)
    (hk : k ≤ length) : last.sliceIndex length = k := by
  have hwhole := Number.wholePart_of_isInt h
  obtain ⟨x, rfl, -⟩ := h
  rw [Number.sliceIndex, hwhole, if_neg (by omega), Int.toNat_natCast]
  · exact Nat.min_eq_left hk
  · intro hinfinite
    cases hinfinite
  · intro hinfinite
    cases hinfinite

def IntegerChecked (token : Text) : Prop :=
  ∃ isInteger, sourceNumberIsMathematicalInteger token = .ok isInteger ∧
    (isInteger = true → ∃ magnitude, sourceIntegerMagnitude token = .ok magnitude ∧
      isUnsafeMagnitude magnitude = false)

theorem integerChecked_of_integer {token magnitude : Text}
    (hinteger : sourceNumberIsMathematicalInteger token = .ok true)
    (hmagnitude : sourceIntegerMagnitude token = .ok magnitude) :
    IntegerChecked token ↔ isUnsafeMagnitude magnitude = false := by
  constructor
  · rintro ⟨isInteger, hchecked, hsafe⟩
    rw [hinteger] at hchecked
    cases hchecked
    obtain ⟨other, hother, hunsafe⟩ := hsafe rfl
    rw [hmagnitude] at hother
    cases hother
    exact hunsafe
  · intro hunsafe
    exact ⟨true, hinteger, fun _ => ⟨magnitude, hmagnitude, hunsafe⟩⟩

theorem integerChecked_of_not_integer {token : Text}
    (h : sourceNumberIsMathematicalInteger token = .ok false) : IntegerChecked token :=
  ⟨false, h, fun hfalse => absurd hfalse Bool.false_ne_true⟩

def IsSafeMagnitude (coefficient : ℕ) (scale : ℤ) : Prop :=
  ∀ m, DenotesMagnitude coefficient scale m → m ≤ 9007199254740991

theorem isSafeMagnitude_of_denotes {coefficient m : ℕ} {scale : ℤ}
    (h : DenotesMagnitude coefficient scale m) :
    IsSafeMagnitude coefficient scale ↔ ¬9007199254740991 < m := by
  constructor
  · intro hsafe
    exact Nat.not_lt.mpr (hsafe m h)
  · intro hle other hother
    have hsame : other * 10 ^ (-scale).toNat = m * 10 ^ (-scale).toNat := hother.symm.trans h
    rw [Nat.eq_of_mul_eq_mul_right (by positivity) hsame]
    exact Nat.not_lt.mp hle

section decision

variable {token : Text} {found : NumberMatch} {scale : ℤ}
  (hmatch : matchNumber token = some found)
  (hfinite : isFiniteNumber found.exponentNumber = true) (hnumeral : IsNumeral found.coefficient)
include hmatch hfinite hnumeral

theorem integerChecked_of_nonneg {k : ℕ} (hshift : found.decimalShift.IsInt k) :
    IntegerChecked token ↔ IsSafeMagnitude (digitsValue found.coefficient) k := by
  have hle : (Number.ofNat 0).le found.decimalShift = true :=
    (Number.le_iff_of_isInt (Number.isInt_ofNat (by decide)) hshift).mpr (Int.natCast_nonneg k)
  have hinteger : sourceNumberIsMathematicalInteger token = .ok true := by
    simp only [sourceNumberIsMathematicalInteger, hmatch, hfinite, hle, if_neg hnumeral.ne_zero]
    rfl
  obtain ⟨u, us, hcoefficient, hu⟩ := hnumeral.head
  have hzeros : IsNumeral (found.coefficient ++ List.replicate k 0x30) := by
    refine ⟨?_, u, us ++ List.replicate k 0x30, by rw [hcoefficient]; rfl, hu⟩
    intro v hv
    rcases List.mem_append.mp hv with hv | hv
    · exact hnumeral.areDigits v hv
    · rw [List.eq_of_mem_replicate hv]
      rfl
  have hmagnitude : sourceIntegerMagnitude token =
      .ok (found.coefficient ++ List.replicate k 0x30) := by
    simp only [sourceIntegerMagnitude, hmatch, hle, if_neg hnumeral.ne_zero, if_true,
      repeatZero_of_isInt hshift]
    rw [← stripZeros_of_isNumeral hzeros]
    rfl
  have hvalue : DenotesMagnitude (digitsValue found.coefficient) k
      (digitsValue (found.coefficient ++ List.replicate k 0x30)) := by
    rw [DenotesMagnitude, digitsValue_append_zeros]
    simp
  rw [integerChecked_of_integer hinteger hmagnitude, isSafeMagnitude_of_denotes hvalue,
    ← isUnsafeMagnitude_iff hzeros, Bool.not_eq_true]

theorem integerChecked_of_neg {k : ℕ} (hk : 0 < k)
    (hlength : found.coefficient.length < 2 ^ 53) (hshift : found.decimalShift.IsInt (-k)) :
    IntegerChecked token ↔ IsSafeMagnitude (digitsValue found.coefficient) (-k) := by
  have hnle : (Number.ofNat 0).le found.decimalShift = false := by
    rw [← Bool.not_eq_true, Number.le_iff_of_isInt (Number.isInt_ofNat (by decide)) hshift]
    omega
  have hrequired : found.decimalShift.neg.IsInt k := by
    have hneg := Number.isInt_neg hshift
    rwa [Int.neg_neg] at hneg
  have hfits := Number.le_iff_of_isInt hrequired (Number.isInt_ofNat hlength)
  have hsource (hle : found.decimalShift.neg.le (.ofNat found.coefficient.length) = true) :
      sourceNumberIsMathematicalInteger token =
        .ok ((List.replicate k 0x30).isSuffixOf found.coefficient) := by
    simp only [sourceNumberIsMathematicalInteger, hmatch, hfinite, hnle, hle,
      if_neg hnumeral.ne_zero, repeatZero_of_isInt hrequired]
    rfl
  by_cases hdvd : 10 ^ k ∣ digitsValue found.coefficient
  · have hlow := hnumeral.pos
    have hhigh := digitsValue_lt hnumeral.areDigits
    have hshort : k < found.coefficient.length := by
      by_contra hlong
      have hpow := Nat.pow_le_pow_right (show 0 < 10 by decide) (Nat.le_of_not_lt hlong)
      have hle := Nat.le_of_dvd hlow hdvd
      omega
    have hzeros := (zeros_isSuffixOf_iff hnumeral.areDigits hshort.le).mpr hdvd
    have hle : found.decimalShift.neg.le (.ofNat found.coefficient.length) = true :=
      hfits.mpr (by omega)
    have hinteger : sourceNumberIsMathematicalInteger token = .ok true := by
      rw [hsource hle, hzeros]
    have hlast : ((Number.ofNat found.coefficient.length).add found.decimalShift).IsInt
        ((found.coefficient.length - k : ℕ) : ℤ) := by
      have hadd := Number.isInt_add (Number.isInt_ofNat hlength) hshift (by omega)
      rwa [← Int.sub_eq_add_neg, ← Int.ofNat_sub hshort.le] at hadd
    obtain ⟨u, us, hcoefficient, hu⟩ := hnumeral.head
    have htaken : IsNumeral (found.coefficient.take (found.coefficient.length - k)) := by
      refine ⟨fun v hv => hnumeral.areDigits v (List.mem_of_mem_take hv), u,
        us.take (found.coefficient.length - k - 1), ?_, hu⟩
      rw [hcoefficient]
      exact List.take_cons (by rw [← hcoefficient]; omega)
    have hmagnitude : sourceIntegerMagnitude token =
        .ok (found.coefficient.take (found.coefficient.length - k)) := by
      simp only [sourceIntegerMagnitude, hmatch, hnle, if_neg hnumeral.ne_zero,
        sliceIndex_of_isInt hlast (Nat.sub_le _ _), stripZeros_of_isNumeral htaken]
      rfl
    have hvalue : DenotesMagnitude (digitsValue found.coefficient) (-k)
        (digitsValue (found.coefficient.take (found.coefficient.length - k))) := by
      rw [DenotesMagnitude, digitsValue_take hnumeral.areDigits hshort.le, Int.neg_neg,
        Int.toNat_natCast, Nat.div_mul_cancel hdvd]
      simp
    rw [integerChecked_of_integer hinteger hmagnitude, isSafeMagnitude_of_denotes hvalue,
      ← isUnsafeMagnitude_iff htaken, Bool.not_eq_true]
  · have hsafe : IsSafeMagnitude (digitsValue found.coefficient) (-k) := by
      intro m hm
      rw [DenotesMagnitude, Int.neg_neg, Int.toNat_natCast] at hm
      have hm' : digitsValue found.coefficient = m * 10 ^ k := by simpa using hm
      exact absurd ⟨m, hm'.trans (Nat.mul_comm _ _)⟩ hdvd
    refine iff_of_true (integerChecked_of_not_integer ?_) hsafe
    by_cases hle : k ≤ found.coefficient.length
    · have hzeros : (List.replicate k 0x30).isSuffixOf found.coefficient = false := by
        rw [← Bool.not_eq_true, zeros_isSuffixOf_iff hnumeral.areDigits hle]
        exact hdvd
      have hfitting : found.decimalShift.neg.le (.ofNat found.coefficient.length) = true :=
        hfits.mpr (by omega)
      rw [hsource hfitting, hzeros]
    · have hfitting : found.decimalShift.neg.le (.ofNat found.coefficient.length) = false := by
        rw [← Bool.not_eq_true, hfits]
        omega
      simp only [sourceNumberIsMathematicalInteger, hmatch, hfinite, hnle, hfitting,
        if_neg hnumeral.ne_zero]
      rfl

omit hmatch hfinite in
theorem isSafeMagnitude_of_low (hlength : found.coefficient.length < 2 ^ 53)
    (hscale : scale ≤ -2 ^ 53) : IsSafeMagnitude (digitsValue found.coefficient) scale := by
  intro m hm
  have hlow := hnumeral.pos
  have hhigh := digitsValue_lt hnumeral.areDigits
  have hzero : scale.toNat = 0 := by omega
  have hpow : 10 ^ found.coefficient.length ≤ 10 ^ (-scale).toNat :=
    Nat.pow_le_pow_right (by decide) (by omega)
  rw [DenotesMagnitude, hzero, Nat.pow_zero, Nat.mul_one] at hm
  rcases Nat.eq_zero_or_pos m with rfl | hpos
  · exact Nat.zero_le _
  · have hle : 1 * 10 ^ (-scale).toNat ≤ m * 10 ^ (-scale).toNat := Nat.mul_le_mul_right _ hpos
    omega

theorem integerChecked_of_low (hlength : found.coefficient.length < 2 ^ 53)
    (hshift : found.decimalShift.AtMost 53) (hscale : scale ≤ -2 ^ 53) :
    IntegerChecked token ↔ IsSafeMagnitude (digitsValue found.coefficient) scale := by
  refine iff_of_true (integerChecked_of_not_integer ?_)
    (isSafeMagnitude_of_low hnumeral hlength hscale)
  simp only [sourceNumberIsMathematicalInteger, hmatch, hfinite, hshift.not_le,
    hshift.neg_not_le hlength hlength, if_neg hnumeral.ne_zero]
  rfl

theorem integerChecked_of_high (hshift : found.decimalShift.AtLeast 4) (hscale : 16 ≤ scale) :
    IntegerChecked token ↔ IsSafeMagnitude (digitsValue found.coefficient) scale := by
  have hinteger : sourceNumberIsMathematicalInteger token = .ok true := by
    simp only [sourceNumberIsMathematicalInteger, hmatch, hfinite, hshift.le,
      if_neg hnumeral.ne_zero]
    rfl
  have hpos := hnumeral.pos
  apply iff_of_false
  · rintro ⟨isInteger, hchecked, hsafe⟩
    rw [hinteger] at hchecked
    cases hchecked
    obtain ⟨magnitude, hmagnitude, hunsafe⟩ := hsafe rfl
    simp only [sourceIntegerMagnitude, hmatch, hshift.le, if_neg hnumeral.ne_zero, if_true,
      bind_ok, pure_ok] at hmagnitude
    obtain ⟨zeros, hzeros, rfl⟩ := hmagnitude
    have hmany : ∃ k, 16 ≤ k ∧ zeros = List.replicate k 0x30 := by
      have hfar := hshift.pow_le_wholePart
      unfold repeatZero at hzeros
      split at hzeros
      next => cases hzeros
      next hinfinite =>
        have hwhole := hfar (hinfinite false)
        rw [if_neg (by omega)] at hzeros
        cases hzeros
        exact ⟨_, by omega, rfl⟩
    obtain ⟨k, hk, rfl⟩ := hmany
    obtain ⟨u, us, hcoefficient, hu⟩ := hnumeral.head
    have hlonger : IsNumeral (found.coefficient ++ List.replicate k 0x30) := by
      refine ⟨?_, u, us ++ List.replicate k 0x30, by rw [hcoefficient]; rfl, hu⟩
      intro v hv
      rcases List.mem_append.mp hv with hv | hv
      · exact hnumeral.areDigits v hv
      · rw [List.eq_of_mem_replicate hv]
        rfl
    rw [stripZeros_of_isNumeral hlonger] at hunsafe
    rw [← Bool.not_eq_true, isUnsafeMagnitude_iff hlonger, digitsValue_append_zeros] at hunsafe
    have hpow : 10 ^ 16 ≤ 10 ^ k := Nat.pow_le_pow_right (by decide) hk
    have hmul := Nat.mul_le_mul hpos hpow
    omega
  · intro hsafe
    have hzero : (-scale).toNat = 0 := by omega
    have hdenotes : DenotesMagnitude (digitsValue found.coefficient) scale
        (digitsValue found.coefficient * 10 ^ scale.toNat) := by
      rw [DenotesMagnitude, hzero, Nat.pow_zero, Nat.mul_one]
    have hle := hsafe _ hdenotes
    have hpow : 10 ^ 16 ≤ 10 ^ scale.toNat := Nat.pow_le_pow_right (by decide) (by omega)
    have hmul := Nat.mul_le_mul hpos hpow
    omega

end decision

theorem denotesMagnitude_iff {coefficient m : ℕ} {scale : ℤ} :
    DenotesMagnitude coefficient scale m ↔ (coefficient * 10 ^ scale : ℚ) = m := by
  unfold DenotesMagnitude
  rcases Int.eq_nat_or_neg scale with ⟨k, rfl | rfl⟩
  · have hzero : (-(k : ℤ)).toNat = 0 := by omega
    rw [hzero, Int.toNat_natCast, zpow_natCast, Nat.pow_zero, Nat.mul_one]
    exact_mod_cast Iff.rfl
  · have hzero : (-(k : ℤ)).toNat = 0 := by omega
    have hpow : (10 ^ k : ℚ) ≠ 0 := by positivity
    rw [hzero, Int.neg_neg, Int.toNat_natCast, zpow_neg, zpow_natCast, Nat.pow_zero, Nat.mul_one,
      ← div_eq_mul_inv, div_eq_iff hpow]
    exact_mod_cast Iff.rfl

namespace NumberToken

variable (token : NumberToken)

theorem abs_rational : |token.rational| = token.coefficient * 10 ^ token.scale := by
  have hpos : (0 : ℚ) ≤ token.coefficient * 10 ^ token.scale := by positivity
  rw [rational]
  cases token.negative with
  | true => rw [if_pos rfl, neg_one_mul, neg_mul, abs_neg, abs_of_nonneg hpos]
  | false => rw [if_neg Bool.false_ne_true, one_mul, abs_of_nonneg hpos]

theorem rational_eq_zero_iff : token.rational = 0 ↔ token.coefficient = 0 := by
  have hpow : (10 ^ token.scale : ℚ) ≠ 0 := by positivity
  rw [← abs_eq_zero, abs_rational, mul_eq_zero, or_iff_left hpow, Nat.cast_eq_zero]

theorem isSafeMagnitude_iff : IsSafeMagnitude token.coefficient token.scale ↔
    ∀ n : ℤ, token.rational = n → |n| ≤ 9007199254740991 := by
  constructor
  · intro hsafe n hn
    have hdenotes : DenotesMagnitude token.coefficient token.scale n.natAbs := by
      rw [denotesMagnitude_iff, ← abs_rational, hn, Nat.cast_natAbs, Int.cast_abs]
    have hle := hsafe n.natAbs hdenotes
    rw [Int.abs_eq_natAbs]
    omega
  · intro hall m hm
    rw [denotesMagnitude_iff, ← abs_rational] at hm
    rcases abs_choice token.rational with hsign | hsign
    · have hle := hall m (by rw [← hsign, hm]; simp)
      rw [abs_of_nonneg (Int.natCast_nonneg m)] at hle
      omega
    · have hle := hall (-m) (by rw [Int.cast_neg, Int.cast_natCast, ← hm, hsign, neg_neg])
      rw [abs_neg, abs_of_nonneg (Int.natCast_nonneg m)] at hle
      omega

theorem areDigits_coefficient : AreDigits (token.whole ++ token.fraction.getD []) := by
  intro u hu
  rcases List.mem_append.mp hu with hwhole | hfraction
  · exact token.areDigits u hwhole
  · cases hcase : token.fraction with
    | none =>
      rw [hcase] at hfraction
      cases hfraction
    | some digits =>
      rw [hcase] at hfraction
      exact (token.isFraction digits hcase).1 u hfraction

theorem length_coefficient_le :
    (token.whole ++ token.fraction.getD []).length ≤ token.text.length := by
  have hlength := token.length_text
  have hfraction := token.fractionLength_le
  unfold fractionLength at hfraction
  rw [List.length_append]
  omega

theorem integerChecked_of_zero (h : token.coefficient = 0) : IntegerChecked token.text := by
  have hzero : token.found.coefficient = ascii "0" := stripZeros_zero token.areDigits_coefficient h
  cases hfinite : isFiniteNumber token.found.exponentNumber with
  | false =>
    apply integerChecked_of_not_integer
    simp only [sourceNumberIsMathematicalInteger, token.matchNumber_text, hfinite]
    rfl
  | true =>
    have hinteger : sourceNumberIsMathematicalInteger token.text = .ok true := by
      simp only [sourceNumberIsMathematicalInteger, token.matchNumber_text, hfinite, if_pos hzero]
      rfl
    have hmagnitude : sourceIntegerMagnitude token.text = .ok (ascii "0") := by
      simp only [sourceIntegerMagnitude, token.matchNumber_text, hzero]
      rfl
    rw [integerChecked_of_integer hinteger hmagnitude]
    decide

theorem scale_of_not_finite (hlength : token.text.length < 2 ^ 53)
    (hrounded : isFiniteNumber token.rounded = true) (hzero : token.coefficient ≠ 0)
    (hfinite : isFiniteNumber token.found.exponentNumber = false) : token.scale ≤ -2 ^ 53 := by
  obtain ⟨negative, n, count, hread⟩ := token.exists_exponentRead
  have hroom := hread.room
  have hscale : token.scale = (if negative then -(n : ℤ) else n) - token.fractionLength := by
    rw [scale, hread.value]
    rfl
  have hlarge : 2 ^ 54 ≤ n := by
    by_contra hsmall
    obtain ⟨x, hx⟩ := Number.exists_finite_ofDecimal negative (Nat.lt_of_not_le hsmall)
    rw [hread.number, hx] at hfinite
    cases hfinite
  cases negative with
  | true =>
    rw [hscale, if_pos rfl]
    omega
  | false =>
    exfalso
    rw [if_neg Bool.false_ne_true] at hscale
    have hzeroScale : (-token.scale).toNat = 0 := by omega
    have hinfinite : token.rounded = .infinity token.negative := by
      obtain ⟨limit, hlimit⟩ : ∃ limit, limit = 1024 := ⟨_, rfl⟩
      apply Number.ofDecimal_infinity token.negative hlimit
      have hpos : 1 ≤ token.coefficient := Nat.one_le_iff_ne_zero.mpr hzero
      rw [hzeroScale, Nat.pow_zero, Nat.mul_one]
      calc 2 ^ limit ≤ 10 ^ limit := Nat.pow_le_pow_left (by decide) limit
        _ ≤ 10 ^ token.scale.toNat := Nat.pow_le_pow_right (by decide) (by omega)
        _ = 1 * 10 ^ token.scale.toNat := (Nat.one_mul _).symm
        _ ≤ token.coefficient * 10 ^ token.scale.toNat := Nat.mul_le_mul_right _ hpos
    rw [hinfinite] at hrounded
    cases hrounded

theorem integerChecked_iff_safe (hlength : token.text.length < 2 ^ 53)
    (hrounded : isFiniteNumber token.rounded = true) :
    IntegerChecked token.text ↔ IsSafeMagnitude token.coefficient token.scale := by
  by_cases hzero : token.coefficient = 0
  · refine iff_of_true (token.integerChecked_of_zero hzero) ?_
    intro m hm
    rw [DenotesMagnitude, hzero, Nat.zero_mul, eq_comm, Nat.mul_eq_zero] at hm
    rcases hm with rfl | hpow
    · exact Nat.zero_le _
    · exact absurd hpow (by positivity)
  · obtain ⟨hnumeral, hvalue, hshort⟩ := isNumeral_stripZeros token.areDigits_coefficient hzero
    have hbound : token.found.coefficient.length < 2 ^ 53 :=
      Nat.lt_of_le_of_lt (hshort.trans token.length_coefficient_le) hlength
    have hcoefficient : digitsValue token.found.coefficient = token.coefficient := hvalue
    rw [← hcoefficient]
    cases hfinite : isFiniteNumber token.found.exponentNumber with
    | true =>
      rcases token.shiftRead hlength hfinite with ⟨hint, hsmall⟩ | ⟨hlow, hscale⟩ | ⟨hhigh, hscale⟩
      · rcases Int.eq_nat_or_neg token.scale with ⟨k, hk | hk⟩
        · rw [hk] at hint ⊢
          exact integerChecked_of_nonneg token.matchNumber_text hfinite hnumeral hint
        · rcases Nat.eq_zero_or_pos k with rfl | hpos
          · rw [hk] at hint ⊢
            exact integerChecked_of_nonneg token.matchNumber_text hfinite hnumeral hint
          · rw [hk] at hint ⊢
            exact integerChecked_of_neg token.matchNumber_text hfinite hnumeral hpos hbound hint
      · exact integerChecked_of_low token.matchNumber_text hfinite hnumeral hbound hlow hscale
      · exact integerChecked_of_high token.matchNumber_text hfinite hnumeral hhigh hscale
    | false =>
      have hfar := token.scale_of_not_finite hlength hrounded hzero hfinite
      apply iff_of_true
      · apply integerChecked_of_not_integer
        simp only [sourceNumberIsMathematicalInteger, token.matchNumber_text, hfinite]
        rfl
      · exact isSafeMagnitude_of_low hnumeral hbound hfar

theorem spellsZero_text :
    spellsZero token.text = .ok (decide (token.coefficient = 0)) := by
  rw [spellsZero, matchCoefficient_text]
  show Except.ok _ = Except.ok _
  congr 1
  rw [Bool.eq_iff_iff, decide_eq_true_eq, coefficient,
    digitsValue_eq_zero_iff token.areDigits_coefficient, List.all_eq_true]
  simp

theorem isPrefixOf_text : (ascii "-").isPrefixOf token.text = token.negative := by
  have hminus : ascii "-" = [0x2d] := by decide
  rw [hminus, text_eq]
  cases token.negative with
  | true => simp
  | false =>
    obtain ⟨u, us, hwhole, hu⟩ := token.head_whole
    have hne := (isDigit_units hu).2.2.1
    rw [unsigned, hwhole, ← Bool.not_eq_true, List.isPrefixOf_iff_prefix]
    rintro ⟨rest, hrest⟩
    exact hne (List.cons.inj hrest).1.symm

/-- A token is accepted if its double is finite, if it is no negative zero before or behind the
rounding, and if it is safe as far as it is an integer. -/
theorem assertProtocolNumber_iff (source : Text) (offset : ℕ)
    (hlength : token.text.length < 2 ^ 53) :
    assertProtocolNumber token.text source offset = .ok () ↔ token.IsProtocolNumber := by
  have haccepted : assertProtocolNumber token.text source offset = .ok () ↔
      (token.negative = true → token.coefficient ≠ 0) ∧
        isFiniteNumber token.rounded = true ∧ token.rounded ≠ .finite (.zero true) ∧
          IntegerChecked token.text := by
    simp [assertProtocolNumber, token.isPrefixOf_text, token.spellsZero_text, token.toNumber_text,
      IntegerChecked]
  rw [haccepted]
  constructor
  · rintro ⟨hspelled, hfinite, hrounded, hchecked⟩
    refine ⟨hfinite, ?_, hrounded, ?_⟩
    · rintro ⟨hnegative, hzero⟩
      exact hspelled hnegative (token.rational_eq_zero_iff.mp hzero)
    · rw [← isSafeMagnitude_iff]
      exact (token.integerChecked_iff_safe hlength hfinite).mp hchecked
  · intro h
    refine ⟨?_, h.finite, h.not_rounded_to_negative_zero, ?_⟩
    · intro hnegative hzero
      exact h.not_negative_zero ⟨hnegative, token.rational_eq_zero_iff.mpr hzero⟩
    · rw [token.integerChecked_iff_safe hlength h.finite, isSafeMagnitude_iff]
      exact h.safe

private def fifteen : NumberToken where
  negative := false
  whole := ascii "1"
  areDigits := List.all_eq_true.mp (rfl : (ascii "1").all isDigit = true)
  nonempty := by decide
  noLeadingZero := by decide
  fraction := some (ascii "50")
  isFraction := by
    intro digits hdigits
    cases hdigits
    exact ⟨List.all_eq_true.mp (rfl : (ascii "50").all isDigit = true), by decide⟩
  exponent := some
    { marker := 0x65
      isMarker := by decide
      sign := ascii "+"
      isSign := by decide
      digits := ascii "01"
      areDigits := List.all_eq_true.mp (rfl : (ascii "01").all isDigit = true)
      nonempty := by decide }

theorem assertProtocolNumber_iff_fifteen :
    assertProtocolNumber fifteen.text [] 0 = .ok () ↔ fifteen.IsProtocolNumber :=
  assertProtocolNumber_iff fifteen [] 0 (by decide)

end NumberToken

end GhostBridge.SchemaValidation
