import GhostBridge.Ecma.Decimal
import GhostBridge.Ecma.Outcome
import GhostBridge.Ecma.Rounding
import Mathlib.Algebra.Order.Field.Power
import Mathlib.Data.Rat.Cast.Order

/-!
# Numbers of protocol documents

`assertProtocolNumber` looks at the source text of a number: what is an integer is decided from
its digits, and not from the double it is rounded to.
-/

namespace GhostBridge.SchemaValidation

open Ecma

structure Diagnostic where
  code : String
  message : String
  source : Text
  offset : ℕ

inductive NumberFailure where
  | diagnostic (diagnostic : Diagnostic)
  | typeError
  | rangeError

/-- The groups of the expression that `token` is matched against. -/
structure NumberMatch where
  whole : Text
  fraction : Option Text
  exponent : Option Text

/-- `(?:\.([0-9]+))?`, and what follows. -/
def matchFraction : Text → Option Text × Text
  | 0x2e :: rest =>
    if rest.takeWhile isDigit = [] then (none, 0x2e :: rest)
    else (some (rest.takeWhile isDigit), rest.dropWhile isDigit)
  | rest => (none, rest)

/-- `[+-]?`, and what follows. -/
def matchSign : Text → Text × Text
  | 0x2b :: rest => ([0x2b], rest)
  | 0x2d :: rest => ([0x2d], rest)
  | rest => ([], rest)

/-- `(?:[eE]([+-]?[0-9]+))?`, and what follows. -/
def matchExponent : Text → Option Text × Text
  | u :: rest =>
    if (u = 0x65 ∨ u = 0x45) ∧ (matchSign rest).2.takeWhile isDigit ≠ [] then
      (some ((matchSign rest).1 ++ (matchSign rest).2.takeWhile isDigit),
        (matchSign rest).2.dropWhile isDigit)
    else (none, u :: rest)
  | [] => (none, [])

/-- `-?`, and what follows. -/
def withoutMinus : Text → Text
  | 0x2d :: rest => rest
  | token => token

/-- `token.match(/^-?([0-9]+)(?:\.([0-9]+))?/u)`, and what follows. -/
def matchCoefficient (token : Text) : Option (Text × Option Text × Text) :=
  let whole := (withoutMinus token).takeWhile isDigit
  if whole = [] then none
  else
    let (fraction, rest) := matchFraction ((withoutMinus token).dropWhile isDigit)
    some (whole, fraction, rest)

/-- `token.match(/^-?([0-9]+)(?:\.([0-9]+))?(?:[eE]([+-]?[0-9]+))?$/u)`. -/
def matchNumber (token : Text) : Option NumberMatch :=
  match matchCoefficient token with
  | none => none
  | some (whole, fraction, rest) =>
    let (exponent, rest) := matchExponent rest
    if rest = [] then some ⟨whole, fraction, exponent⟩ else none

def isFiniteNumber : Number → Bool
  | .finite _ => true
  | _ => false

/-- `text.replace(/^0+/u, '') || '0'`. -/
def stripZeros (text : Text) : Text :=
  match text.dropWhile (· == 0x30) with
  | [] => [0x30]
  | text => text

/-- `'0'.repeat(count)`. -/
def repeatZero (count : Number) : Except NumberFailure Text :=
  match count with
  | .infinity _ => .error .rangeError
  | count =>
    if count.wholePart < 0 then .error .rangeError
    else .ok (List.replicate count.wholePart.toNat 0x30)

/-- `Number(match[3] ?? '0')`. -/
def NumberMatch.exponentNumber (found : NumberMatch) : Number :=
  (found.exponent.getD (ascii "0")).toNumber

/-- ``` `${match[1]}${fraction}`.replace(/^0+/u, '') || '0' ```. -/
def NumberMatch.coefficient (found : NumberMatch) : Text :=
  stripZeros (found.whole ++ found.fraction.getD [])

/-- `exponent - fraction.length`. -/
def NumberMatch.decimalShift (found : NumberMatch) : Number :=
  found.exponentNumber.sub (.ofNat (found.fraction.getD []).length)

def sourceNumberIsMathematicalInteger (token : Text) : Except NumberFailure Bool :=
  match matchNumber token with
  | none => .ok false
  | some found =>
    if !isFiniteNumber found.exponentNumber then .ok false
    else if found.coefficient = ascii "0" then .ok true
    else if (Number.ofNat 0).le found.decimalShift then .ok true
    else if found.decimalShift.neg.le (.ofNat found.coefficient.length) then do
      let zeros ← repeatZero found.decimalShift.neg
      return zeros.isSuffixOf found.coefficient
    else .ok false

def sourceIntegerMagnitude (token : Text) : Except NumberFailure Text :=
  match matchNumber token with
  | none => .error .typeError
  | some found =>
    if found.coefficient = ascii "0" then .ok found.coefficient
    else if (Number.ofNat 0).le found.decimalShift then do
      let zeros ← repeatZero found.decimalShift
      return stripZeros (found.coefficient ++ zeros)
    else
      let last := (Number.ofNat found.coefficient.length).add found.decimalShift
      .ok (stripZeros (found.coefficient.take (last.sliceIndex found.coefficient.length)))

def maximumMagnitude : Text := ascii "9007199254740991"

/-- `magnitude.length > maximum.length || (magnitude.length === maximum.length && magnitude >
maximum)`. -/
def isUnsafeMagnitude (magnitude : Text) : Bool :=
  decide (maximumMagnitude.length < magnitude.length) ||
    (magnitude.length == maximumMagnitude.length && !Text.le magnitude maximumMagnitude)

def spellsZero (token : Text) : Except NumberFailure Bool :=
  match matchCoefficient token with
  | none => .error .typeError
  | some (whole, fraction, _) => .ok ((whole ++ fraction.getD []).all (· == 0x30))

def assertProtocolNumber (token source : Text) (offset : ℕ) : Except NumberFailure Unit := do
  let diagnostic (code message : String) : NumberFailure :=
    .diagnostic ⟨code, message, source, offset⟩
  stepWhen ((ascii "-").isPrefixOf token) do
    let zero ← spellsZero token
    throwWhen zero
      (diagnostic "NUMBER_NEGATIVE_ZERO" "negative-zero source number is prohibited")
  let value := token.toNumber
  throwWhen (!isFiniteNumber value)
    (diagnostic "NUMBER_NONFINITE" "JSON number is not finite binary64")
  throwWhen (value == .finite (.zero true))
    (diagnostic "NUMBER_NEGATIVE_ZERO" "negative-zero binary64 result is prohibited")
  let isInteger ← sourceNumberIsMathematicalInteger token
  stepWhen isInteger do
    let magnitude ← sourceIntegerMagnitude token
    throwWhen (isUnsafeMagnitude magnitude)
      (diagnostic "NUMBER_UNSAFE_INTEGER"
        "mathematical integer exceeds the exact safe-integer range")

structure ExponentToken where
  marker : UInt16
  isMarker : marker = 0x65 ∨ marker = 0x45
  sign : Text
  isSign : sign = [] ∨ sign = [0x2b] ∨ sign = [0x2d]
  digits : Text
  areDigits : AreDigits digits
  nonempty : digits ≠ []

structure NumberToken where
  negative : Bool
  whole : Text
  areDigits : AreDigits whole
  nonempty : whole ≠ []
  noLeadingZero : whole.head? = some 0x30 → whole = [0x30]
  fraction : Option Text
  isFraction : ∀ digits, fraction = some digits → AreDigits digits ∧ digits ≠ []
  exponent : Option ExponentToken

def ExponentToken.text (exponent : ExponentToken) : Text :=
  exponent.marker :: (exponent.sign ++ exponent.digits)

def ExponentToken.value (exponent : ExponentToken) : ℤ :=
  if exponent.sign = [0x2d] then -digitsValue exponent.digits else digitsValue exponent.digits

namespace NumberToken

def text (token : NumberToken) : Text :=
  (if token.negative then [0x2d] else []) ++ token.whole ++
    token.fraction.elim [] (0x2e :: ·) ++ token.exponent.elim [] ExponentToken.text

def coefficient (token : NumberToken) : ℕ :=
  digitsValue (token.whole ++ token.fraction.getD [])

def scale (token : NumberToken) : ℤ :=
  token.exponent.elim 0 ExponentToken.value - (token.fraction.getD []).length

def rational (token : NumberToken) : ℚ :=
  (if token.negative then -1 else 1) * token.coefficient * 10 ^ token.scale

def rounded (token : NumberToken) : Number :=
  .ofDecimal token.negative token.coefficient token.scale

/-- Finite, no negative zero, and safe if it is an integer. -/
structure IsProtocolNumber (token : NumberToken) : Prop where
  finite : isFiniteNumber token.rounded = true
  not_negative_zero : ¬(token.negative = true ∧ token.rational = 0)
  not_rounded_to_negative_zero : token.rounded ≠ .finite (.zero true)
  safe : ∀ n : ℤ, token.rational = n → |n| ≤ 9007199254740991

end NumberToken

end GhostBridge.SchemaValidation

/-!
## Tokens of numbers

The matches of a token are its parts, and its double is the rounded rational number.
-/

namespace GhostBridge.SchemaValidation

open Ecma

theorem isDigit_units {u : UInt16} (h : isDigit u = true) :
    u ≠ 0x2e ∧ u ≠ 0x2b ∧ u ≠ 0x2d ∧ isWhitespace u = false := by
  have hle : ∀ n < 58, 48 ≤ n → UInt16.ofNat n ≠ 0x2e ∧ UInt16.ofNat n ≠ 0x2b ∧
      UInt16.ofNat n ≠ 0x2d ∧ isWhitespace (UInt16.ofNat n) = false := by decide
  simp only [isDigit, Bool.and_eq_true, decide_eq_true_eq] at h
  have hlow : 48 ≤ u.toNat := UInt16.le_iff_toNat_le.mp h.1
  have hhigh : u.toNat ≤ 57 := UInt16.le_iff_toNat_le.mp h.2
  have hu := hle u.toNat (by omega) hlow
  rwa [UInt16.ofNat_toNat] at hu

theorem toNumber_of_digit {text : Text} (hspace : ∀ u ∈ text, isWhitespace u = false)
    (hhead : ∃ u us, text = u :: us ∧ isDigit u = true)
    (hbase : ∀ u us, text = 0x30 :: u :: us → isDigit u = true ∨ u = 0x2e ∨ u = 0x65 ∨ u = 0x45) :
    text.toNumber = decimalNumber false text := by
  rw [Text.toNumber, Text.trimmed_of_forall hspace]
  obtain ⟨u, us, rfl, hu⟩ := hhead
  obtain ⟨-, hplus, hminus, -⟩ := isDigit_units hu
  split
  next h => cases h
  next v rest h =>
    have hv := hbase v rest h
    have hletters : ¬(v = 0x78 ∨ v = 0x58) ∧ ¬(v = 0x6f ∨ v = 0x4f) ∧ ¬(v = 0x62 ∨ v = 0x42) := by
      rcases hv with hv | rfl | rfl | rfl
      · refine ⟨?_, ?_, ?_⟩
        all_goals
          rintro (rfl | rfl)
          all_goals
            revert hv
            decide
      all_goals decide
    rw [if_neg hletters.1, if_neg hletters.2.1, if_neg hletters.2.2, h]
  next h => exact absurd (List.cons.inj h).1 hminus
  next h => exact absurd (List.cons.inj h).1 hplus
  next => rfl

namespace ExponentToken

variable (exponent : ExponentToken)

theorem head_digits : ∃ u us, exponent.digits = u :: us ∧ isDigit u = true := by
  cases hdigits : exponent.digits with
  | nil => exact absurd hdigits exponent.nonempty
  | cons u us =>
    refine ⟨u, us, rfl, exponent.areDigits u ?_⟩
    rw [hdigits]
    exact List.mem_cons_self

theorem matchSign_eq : matchSign (exponent.sign ++ exponent.digits) =
    (exponent.sign, exponent.digits) := by
  obtain ⟨u, us, hdigits, hu⟩ := exponent.head_digits
  obtain ⟨-, hplus, hminus, -⟩ := isDigit_units hu
  rcases exponent.isSign with hsign | hsign | hsign
  · rw [hsign, hdigits, List.nil_append]
    unfold matchSign
    split
    next h => exact absurd (List.cons.inj h).1 hplus
    next h => exact absurd (List.cons.inj h).1 hminus
    next => rfl
  · rw [hsign]
    rfl
  · rw [hsign]
    rfl

theorem takeWhile_digits_eq :
    exponent.digits.takeWhile isDigit = exponent.digits ∧
      exponent.digits.dropWhile isDigit = [] := by
  have h : (exponent.digits ++ []).takeWhile isDigit = exponent.digits ∧
      (exponent.digits ++ []).dropWhile isDigit = [] :=
    takeWhile_digits exponent.areDigits (by simp)
  rwa [List.append_nil] at h

theorem matchExponent_text :
    matchExponent exponent.text = (some (exponent.sign ++ exponent.digits), []) := by
  obtain ⟨htake, hdrop⟩ := exponent.takeWhile_digits_eq
  rw [text, matchExponent, matchSign_eq, htake, hdrop, if_pos]
  exact ⟨exponent.isMarker, exponent.nonempty⟩

theorem scanExponent_text : scanExponent exponent.text = some (exponent.value, []) := by
  obtain ⟨htake, hdrop⟩ := exponent.takeWhile_digits_eq
  obtain ⟨u, us, hdigits, hu⟩ := exponent.head_digits
  obtain ⟨-, hplus, hminus, -⟩ := isDigit_units hu
  have hscan (negative : Bool) : scanExponentDigits negative exponent.digits =
      some (if negative then -(digitsValue exponent.digits : ℤ) else digitsValue exponent.digits,
        []) := by
    rw [scanExponentDigits, htake, hdrop, if_neg]
    rw [List.isEmpty_iff]
    exact exponent.nonempty
  rw [text, value]
  rcases exponent.isSign with hsign | hsign | hsign
  · have hplain := hscan false
    rw [hsign, List.nil_append]
    rw [hdigits] at hplain ⊢
    unfold scanExponent
    simp only [if_pos exponent.isMarker]
    split
    next h => exact absurd (List.cons.inj h).1 hplus
    next h => exact absurd (List.cons.inj h).1 hminus
    next => exact hplain
  · rw [hsign]
    show scanExponent (exponent.marker :: 0x2b :: exponent.digits) = _
    simp only [scanExponent, if_pos exponent.isMarker]
    exact hscan false
  · rw [hsign]
    show scanExponent (exponent.marker :: 0x2d :: exponent.digits) = _
    simp only [scanExponent, if_pos exponent.isMarker]
    exact hscan true

theorem not_whitespace_text : ∀ u ∈ exponent.text, isWhitespace u = false := by
  intro u hu
  rcases List.mem_cons.mp hu with rfl | hu
  · rcases exponent.isMarker with hmarker | hmarker
    · rw [hmarker]
      decide
    · rw [hmarker]
      decide
  · rcases List.mem_append.mp hu with hsign | hdigit
    · rcases exponent.isSign with hempty | hplus | hminus
      · rw [hempty] at hsign
        cases hsign
      · rw [hplus] at hsign
        rw [List.mem_singleton.mp hsign]
        decide
      · rw [hminus] at hsign
        rw [List.mem_singleton.mp hsign]
        decide
    · exact (isDigit_units (exponent.areDigits u hdigit)).2.2.2

end ExponentToken

namespace NumberToken

variable (token : NumberToken)

def fractionText : Text := token.fraction.elim [] (0x2e :: ·)
def exponentText : Text := token.exponent.elim [] ExponentToken.text

theorem head_whole : ∃ u us, token.whole = u :: us ∧ isDigit u = true := by
  cases hwhole : token.whole with
  | nil => exact absurd hwhole token.nonempty
  | cons u us =>
    refine ⟨u, us, rfl, token.areDigits u ?_⟩
    rw [hwhole]
    exact List.mem_cons_self

theorem exponentText_head {u : UInt16} (h : token.exponentText.head? = some u) :
    isDigit u = false ∧ u ≠ 0x2e := by
  unfold exponentText at h
  cases hexponent : token.exponent with
  | none =>
    rw [hexponent] at h
    cases h
  | some exponent =>
    rw [hexponent] at h
    cases h
    rcases exponent.isMarker with hmarker | hmarker
    · rw [hmarker]
      decide
    · rw [hmarker]
      decide

theorem behind_head {u : UInt16} (h : (token.fractionText ++ token.exponentText).head? = some u) :
    isDigit u = false := by
  unfold fractionText at h
  cases hfraction : token.fraction with
  | none =>
    rw [hfraction] at h
    exact (token.exponentText_head h).1
  | some digits =>
    rw [hfraction] at h
    cases h
    decide

theorem behind_unit {u : UInt16} {us : Text}
    (h : token.fractionText ++ token.exponentText = u :: us) :
    isDigit u = true ∨ u = 0x2e ∨ u = 0x65 ∨ u = 0x45 := by
  cases hfraction : token.fraction with
  | some digits =>
    rw [fractionText, hfraction] at h
    exact .inr (.inl (List.cons.inj h).1.symm)
  | none =>
    rw [fractionText, hfraction, exponentText] at h
    cases hexponent : token.exponent with
    | none =>
      rw [hexponent] at h
      cases h
    | some exponent =>
      rw [hexponent] at h
      have hmarker : exponent.marker = u := (List.cons.inj h).1
      rw [← hmarker]
      exact .inr (.inr exponent.isMarker)

theorem matchFraction_eq : matchFraction (token.fractionText ++ token.exponentText) =
    (token.fraction, token.exponentText) := by
  unfold fractionText
  cases hfraction : token.fraction with
  | none =>
    show matchFraction token.exponentText = _
    cases hexponent : token.exponentText with
    | nil => rfl
    | cons u us =>
      have hu := (token.exponentText_head (by rw [hexponent]; rfl)).2
      unfold matchFraction
      split
      next h => exact absurd (List.cons.inj h).1 hu
      next => rfl
  | some digits =>
    obtain ⟨hdigits, hne⟩ := token.isFraction digits hfraction
    obtain ⟨htake, hdrop⟩ := takeWhile_digits hdigits fun u hu => (token.exponentText_head hu).1
    show matchFraction (0x2e :: (digits ++ token.exponentText)) = _
    rw [matchFraction, htake, hdrop, if_neg hne]

def unsigned : Text := token.whole ++ (token.fractionText ++ token.exponentText)

theorem text_eq : token.text = (if token.negative then [0x2d] else []) ++ token.unsigned := by
  simp [text, unsigned, fractionText, exponentText]

theorem withoutMinus_text : withoutMinus token.text = token.unsigned := by
  rw [text_eq]
  cases token.negative with
  | true => rfl
  | false =>
    obtain ⟨u, us, hwhole, hu⟩ := token.head_whole
    have hminus := (isDigit_units hu).2.2.1
    show withoutMinus token.unsigned = token.unsigned
    rw [unsigned, hwhole, List.cons_append]
    unfold withoutMinus
    split
    next h => exact absurd (List.cons.inj h).1 hminus
    next => rfl

theorem takeWhile_unsigned : token.unsigned.takeWhile isDigit = token.whole ∧
    token.unsigned.dropWhile isDigit = token.fractionText ++ token.exponentText :=
  takeWhile_digits token.areDigits fun _ hu => token.behind_head hu

theorem matchCoefficient_text :
    matchCoefficient token.text = some (token.whole, token.fraction, token.exponentText) := by
  obtain ⟨htake, hdrop⟩ := token.takeWhile_unsigned
  rw [matchCoefficient, withoutMinus_text, htake, hdrop, if_neg token.nonempty, matchFraction_eq]

def found : NumberMatch :=
  ⟨token.whole, token.fraction, token.exponent.map fun exponent => exponent.sign ++ exponent.digits⟩

theorem matchNumber_text : matchNumber token.text = some token.found := by
  have hexponent : matchExponent token.exponentText =
      (token.exponent.map fun exponent => exponent.sign ++ exponent.digits, []) := by
    unfold exponentText
    cases token.exponent with
    | none => rfl
    | some exponent => exact exponent.matchExponent_text
  rw [matchNumber, matchCoefficient_text]
  simp only [hexponent]
  rfl

theorem scanExponent_exponentText :
    scanExponent token.exponentText = some (token.exponent.elim 0 ExponentToken.value, []) := by
  unfold exponentText
  cases token.exponent with
  | none => rfl
  | some exponent => exact exponent.scanExponent_text

def exponentNumber (negative : Bool) (whole fraction : Text) : Option (Int × Text) → Number
  | some (exponent, []) =>
    .ofDecimal negative (digitsValue (whole ++ fraction)) (exponent - fraction.length)
  | _ => .nan

theorem decimalNumber_unsigned (negative : Bool) :
    decimalNumber negative token.unsigned =
      .ofDecimal negative token.coefficient token.scale := by
  obtain ⟨htake, hdrop⟩ := token.takeWhile_unsigned
  have hscan := token.scanExponent_exponentText
  have hinfinity : token.unsigned ≠ ascii "Infinity" := by
    obtain ⟨u, us, hwhole, hu⟩ := token.head_whole
    rw [unsigned, hwhole]
    intro h
    have hhead : u = 0x49 := (List.cons.inj h).1
    rw [hhead] at hu
    revert hu
    decide
  have hwhole : (token.whole.isEmpty && (token.fraction.getD []).isEmpty) = false := by
    simp [token.nonempty]
  have hresult : decimalNumber negative token.unsigned =
      if token.unsigned = ascii "Infinity" then .infinity negative
      else if token.whole.isEmpty && (token.fraction.getD []).isEmpty then .nan
      else exponentNumber negative token.whole (token.fraction.getD [])
        (scanExponent token.exponentText) := by
    rw [decimalNumber, htake, hdrop]
    cases hfraction : token.fraction with
    | none =>
      have hbehind : token.fractionText ++ token.exponentText = token.exponentText := by
        rw [fractionText, hfraction]
        rfl
      rw [hbehind]
      split
      next h =>
        split at h
        next rest hrest =>
          have hdot := (token.exponentText_head (by rw [hrest]; rfl)).2
          exact absurd rfl hdot
        next =>
          cases h
          rfl
    | some digits =>
      obtain ⟨hdigits, -⟩ := token.isFraction digits hfraction
      obtain ⟨htake, hdrop⟩ := takeWhile_digits hdigits fun u hu => (token.exponentText_head hu).1
      have hbehind : token.fractionText ++ token.exponentText =
          0x2e :: (digits ++ token.exponentText) := by
        rw [fractionText, hfraction]
        rfl
      rw [hbehind]
      simp only [htake, hdrop]
      rfl
  rw [hresult, if_neg hinfinity, if_neg (by rw [hwhole]; exact Bool.false_ne_true), hscan]
  rfl

theorem not_whitespace_text : ∀ u ∈ token.text, isWhitespace u = false := by
  have hdigits {ds : Text} (h : AreDigits ds) : ∀ u ∈ ds, isWhitespace u = false :=
    fun u hu => (isDigit_units (h u hu)).2.2.2
  intro u hu
  rw [text_eq, unsigned] at hu
  rcases List.mem_append.mp hu with hsign | hu
  · cases hnegative : token.negative with
    | false => simp [hnegative] at hsign
    | true =>
      rw [hnegative] at hsign
      rw [List.mem_singleton.mp hsign]
      decide
  · rcases List.mem_append.mp hu with hwhole | hu
    · exact hdigits token.areDigits u hwhole
    · rcases List.mem_append.mp hu with hfraction | hexponent
      · rw [fractionText] at hfraction
        cases hcase : token.fraction with
        | none =>
          rw [hcase] at hfraction
          cases hfraction
        | some digits =>
          rw [hcase] at hfraction
          rcases List.mem_cons.mp hfraction with rfl | hmem
          · decide
          · exact hdigits (token.isFraction digits hcase).1 u hmem
      · rw [exponentText] at hexponent
        cases hcase : token.exponent with
        | none =>
          rw [hcase] at hexponent
          cases hexponent
        | some exponent =>
          rw [hcase] at hexponent
          exact exponent.not_whitespace_text u hexponent

theorem toNumber_text : token.text.toNumber = token.rounded := by
  have hspace := token.not_whitespace_text
  rw [text_eq] at hspace ⊢
  rw [rounded]
  cases hnegative : token.negative with
  | true =>
    rw [hnegative] at hspace
    rw [Text.toNumber, Text.trimmed_of_forall hspace]
    exact token.decimalNumber_unsigned true
  | false =>
    rw [hnegative] at hspace
    rw [← decimalNumber_unsigned]
    obtain ⟨u, us, hwhole, hu⟩ := token.head_whole
    apply toNumber_of_digit hspace
    · exact ⟨u, _, by rw [unsigned, hwhole]; rfl, hu⟩
    · intro v rest h
      have hzero : u = 0x30 := by
        rw [unsigned, hwhole] at h
        exact (List.cons.inj h).1
      have halone := token.noLeadingZero (by rw [hwhole, hzero]; rfl)
      rw [unsigned, halone] at h
      have hbehind : token.fractionText ++ token.exponentText = v :: rest := (List.cons.inj h).2
      exact token.behind_unit hbehind

end NumberToken

end GhostBridge.SchemaValidation
