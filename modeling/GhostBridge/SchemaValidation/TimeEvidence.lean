import GhostBridge.Ecma.HexNumbers
import GhostBridge.Ecma.Value
import Mathlib.Algebra.Order.BigOperators.Group.Finset
import Mathlib.Algebra.Order.Field.Rat
import Mathlib.Tactic.Linarith

/-!
# Timestamps and time evidence

A canonical timestamp names a millisecond of the years 1 to 9999.
-/

namespace GhostBridge.SchemaValidation

open Ecma Finset

namespace TimestampPattern

def digit : Regex := .unit (Regex.range 0x30 0x39)

def digits (count : ℕ) : Regex := .sequence (List.replicate count digit)

def pair (low high low' high' : UInt16) : Regex :=
  .seq (.unit (Regex.range low high)) (.unit (Regex.range low' high'))

/-- `0[1-9]|1[0-2]`. -/
def month : Regex := .alt (pair 0x30 0x30 0x31 0x39) (pair 0x31 0x31 0x30 0x32)

/-- `0[1-9]|[12][0-9]|3[01]`. -/
def day : Regex :=
  .alt (pair 0x30 0x30 0x31 0x39) (.alt (pair 0x31 0x32 0x30 0x39) (pair 0x33 0x33 0x30 0x31))

/-- `[01][0-9]|2[0-3]`. -/
def hour : Regex := .alt (pair 0x30 0x31 0x30 0x39) (pair 0x32 0x32 0x30 0x33)

/-- `[0-5][0-9]`. -/
def sixty : Regex := pair 0x30 0x35 0x30 0x39

def mark (u : UInt16) : Regex := .unit (· == u)

end TimestampPattern

open TimestampPattern in
def timestampPattern : Regex :=
  .sequence [digits 4, mark 0x2d, month, mark 0x2d, day, mark 0x54, hour, mark 0x3a, sixty,
    mark 0x3a, sixty, mark 0x2e, digits 3, mark 0x5a]

def isLeap (year : ℕ) : Bool := year % 4 == 0 && (year % 100 != 0 || year % 400 == 0)

/-- `days`. -/
def monthDays (year : ℕ) : List ℕ :=
  [31, if isLeap year then 29 else 28, 31, 30, 31, 30, 31, 31, 30, 31, 30, 31]

/-- `canonicalTimestamp(value)`; the groups of the pattern stand at fixed places. -/
def canonicalTimestamp : Value → Bool
  | .string text =>
    let year := digitsValue (text.take 4)
    let month := digitsValue ((text.drop 5).take 2)
    let day := digitsValue ((text.drop 8).take 2)
    timestampPattern.accepts text && !(year < 1 || 9999 < year) &&
      day ≤ (monthDays year).getD (month - 1) 0
  | _ => false

/-- `left < right` of strings. -/
def stringLt : Value → Value → Bool
  | .string left, .string right => !Text.le right left
  | _, _ => false

def compareCanonicalTimestamps (left right : Value) : Except String Int :=
  if !canonicalTimestamp left || !canonicalTimestamp right then
    throw "Timestamp comparison requires two canonical timestamps"
  else if stringLt left right then return -1
  else if stringLt right left then return 1
  else return 0

structure Timestamp where
  year : ℕ
  month : ℕ
  day : ℕ
  hour : ℕ
  minute : ℕ
  second : ℕ
  millisecond : ℕ
  year_range : 1 ≤ year ∧ year ≤ 9999
  month_range : 1 ≤ month ∧ month ≤ 12
  day_range : 1 ≤ day ∧ day ≤ (monthDays year).getD (month - 1) 0
  hour_lt : hour < 24
  minute_lt : minute < 60
  second_lt : second < 60
  millisecond_lt : millisecond < 1000

def padded : ℕ → ℕ → Text
  | 0, _ => []
  | width + 1, n => padded width (n / 10) ++ [digitUnit (n % 10)]

def yearLength (year : ℕ) : ℕ := if isLeap year then 366 else 365

namespace Timestamp

theorem day_le (t : Timestamp) : t.day ≤ 31 := by
  have hlength : (monthDays t.year).getD (t.month - 1) 0 ≤ 31 := by
    have := t.month_range
    have : t.month - 1 < 12 := by omega
    unfold monthDays
    split <;> interval_cases t.month - 1 <;> decide
  exact t.day_range.2.trans hlength

def write (t : Timestamp) : Text :=
  padded 4 t.year ++ 0x2d :: (padded 2 t.month ++ 0x2d :: (padded 2 t.day ++ 0x54 ::
    (padded 2 t.hour ++ 0x3a :: (padded 2 t.minute ++ 0x3a :: (padded 2 t.second ++ 0x2e ::
      (padded 3 t.millisecond ++ [0x5a]))))))

def dayOfYear (t : Timestamp) : ℕ :=
  ∑ i ∈ range (t.month - 1), (monthDays t.year).getD i 0 + (t.day - 1)

def instant (t : Timestamp) : ℕ :=
  ((((∑ year ∈ range t.year, yearLength year + t.dayOfYear) * 24 + t.hour) * 60 + t.minute) * 60 +
    t.second) * 1000 + t.millisecond

end Timestamp

/-- Parts of some lengths, one after the other: places are in the order of their parts. -/
theorem sum_add_le_iff {len : ℕ → ℕ} {m n r s : ℕ} (hr : r < len m) (hs : s < len n) :
    ∑ i ∈ range m, len i + r ≤ ∑ i ∈ range n, len i + s ↔ m < n ∨ (m = n ∧ r ≤ s) := by
  have hstep {m n r : ℕ} (hr : r < len m) (hlt : m < n) :
      ∑ i ∈ range m, len i + r < ∑ i ∈ range n, len i :=
    calc ∑ i ∈ range m, len i + r
        < ∑ i ∈ range m, len i + len m := Nat.add_lt_add_left hr _
      _ = ∑ i ∈ range (m + 1), len i := (sum_range_succ len m).symm
      _ ≤ ∑ i ∈ range n, len i := sum_le_sum_of_subset (range_mono (Nat.succ_le_of_lt hlt))
  rcases Nat.lt_trichotomy m n with hlt | rfl | hgt
  · have := hstep hr hlt
    omega
  · omega
  · have := hstep hs hgt
    omega

theorem dayOfYear_lt (t : Timestamp) : t.dayOfYear < yearLength t.year := by
  have hyear : ∑ i ∈ range 12, (monthDays t.year).getD i 0 = yearLength t.year := by
    unfold yearLength monthDays
    cases isLeap t.year <;> rfl
  have hday := t.day_range
  calc t.dayOfYear
      < ∑ i ∈ range (t.month - 1), (monthDays t.year).getD i 0 +
          (monthDays t.year).getD (t.month - 1) 0 := by
        unfold Timestamp.dayOfYear
        omega
    _ = ∑ i ∈ range (t.month - 1 + 1), (monthDays t.year).getD i 0 := (sum_range_succ _ _).symm
    _ ≤ ∑ i ∈ range 12, (monthDays t.year).getD i 0 := by
        apply sum_le_sum_of_subset
        apply range_mono
        have := t.month_range
        omega
    _ = yearLength t.year := hyear

/-- The parts of a timestamp, from the year on, are in order. -/
def Timestamp.LexLe (t u : Timestamp) : Prop :=
  t.year < u.year ∨ t.year = u.year ∧ (t.month < u.month ∨ t.month = u.month ∧
    (t.day < u.day ∨ t.day = u.day ∧ (t.hour < u.hour ∨ t.hour = u.hour ∧
      (t.minute < u.minute ∨ t.minute = u.minute ∧ (t.second < u.second ∨ t.second = u.second ∧
        t.millisecond ≤ u.millisecond)))))

theorem instant_le_iff (t u : Timestamp) : t.instant ≤ u.instant ↔ t.LexLe u := by
  have hdays {t u : Timestamp} : ∑ year ∈ range t.year, yearLength year + t.dayOfYear ≤
      ∑ year ∈ range u.year, yearLength year + u.dayOfYear ↔
        t.year < u.year ∨ t.year = u.year ∧
          (t.month < u.month ∨ t.month = u.month ∧ t.day ≤ u.day) := by
    rw [sum_add_le_iff (dayOfYear_lt t) (dayOfYear_lt u)]
    apply or_congr_right
    apply and_congr_right
    intro hyear
    have ht := t.day_range
    have hu := u.day_range
    rw [hyear] at ht
    have hmonth := t.month_range
    have hmonth' := u.month_range
    rw [Timestamp.dayOfYear, Timestamp.dayOfYear, hyear, sum_add_le_iff (by omega) (by omega)]
    omega
  have hle := hdays (t := t) (u := u)
  have hge := hdays (t := u) (u := t)
  have := t.hour_lt
  have := u.hour_lt
  have := t.minute_lt
  have := u.minute_lt
  have := t.second_lt
  have := u.second_lt
  have := t.millisecond_lt
  have := u.millisecond_lt
  unfold Timestamp.instant Timestamp.LexLe
  generalize ∑ year ∈ range t.year, yearLength year + t.dayOfYear = d at *
  generalize ∑ year ∈ range u.year, yearLength year + u.dayOfYear = e at *
  rcases Nat.lt_trichotomy d e with hlt | heq | hgt
  · omega
  · omega
  · omega

theorem length_padded (width n : ℕ) : (padded width n).length = width := by
  induction width generalizing n with
  | zero => rfl
  | succ width ih => simp [padded, ih]

theorem areDigits_padded (width n : ℕ) : AreDigits (padded width n) := by
  induction width generalizing n with
  | zero =>
    intro u hu
    cases hu
  | succ width ih =>
    intro u hu
    rcases List.mem_append.mp hu with hu | hu
    · exact ih (n / 10) u hu
    · rw [List.mem_singleton.mp hu]
      exact isDigit_digitUnit (Nat.mod_lt n (by decide))

theorem digitsValue_padded {width n : ℕ} (h : n < 10 ^ width) :
    digitsValue (padded width n) = n := by
  induction width generalizing n with
  | zero =>
    rw [Nat.pow_zero] at h
    rw [Nat.lt_one_iff.mp h]
    rfl
  | succ width ih =>
    have hdigit : digitsValue [digitUnit (n % 10)] = n % 10 := by
      simp [digitsValue, digitOf_digitUnit (Nat.mod_lt n (by decide : 0 < 10))]
    have hrest : n / 10 < 10 ^ width := by
      rw [Nat.pow_succ] at h
      omega
    rw [padded, digitsValue_append, ih hrest, hdigit, List.length_singleton, Nat.pow_one]
    exact Nat.div_add_mod' n 10

theorem eq_of_digitsValue_eq {a b : Text} (ha : AreDigits a) (hb : AreDigits b)
    (hlength : a.length = b.length) (hvalue : digitsValue a = digitsValue b) : a = b :=
  Text.le_antisymm ((le_iff_digitsValue_le ha hb hlength).mpr hvalue.le)
    ((le_iff_digitsValue_le hb ha hlength.symm).mpr hvalue.ge)

/-- Digits of a width are the number that they write. -/
theorem eq_padded {a : Text} (ha : AreDigits a) : a = padded a.length (digitsValue a) := by
  apply eq_of_digitsValue_eq ha (areDigits_padded _ _) (length_padded _ _).symm
  rw [digitsValue_padded (digitsValue_lt ha)]

theorem le_append_iff {a b x y : Text} (hlength : a.length = b.length) :
    Text.le (a ++ x) (b ++ y) = true ↔
      Text.le a b = true ∧ a ≠ b ∨ a = b ∧ Text.le x y = true := by
  induction a generalizing b with
  | nil =>
    cases b with
    | nil => simp
    | cons v b => cases hlength
  | cons u a ih =>
    cases b with
    | nil => cases hlength
    | cons v b =>
      have hrest := ih (Nat.succ.inj hlength)
      simp only [List.cons_append, Text.le, Bool.or_eq_true, decide_eq_true_eq, Bool.and_eq_true,
        beq_iff_eq, hrest, ne_eq, List.cons.injEq]
      by_cases huv : u = v
      · subst huv
        simp [UInt16.lt_irrefl]
      · simp [huv]

theorem le_padded_iff {width m n : ℕ} {x y : Text} (u : UInt16) (hm : m < 10 ^ width)
    (hn : n < 10 ^ width) : Text.le (padded width m ++ u :: x) (padded width n ++ u :: y) = true ↔
      m < n ∨ m = n ∧ Text.le x y = true := by
  have hsame : padded width m = padded width n ↔ m = n := by
    constructor
    · intro h
      rw [← digitsValue_padded hm, h, digitsValue_padded hn]
    · intro h
      rw [h]
  rw [le_append_iff (by rw [length_padded, length_padded]),
    le_iff_digitsValue_le (areDigits_padded _ _) (areDigits_padded _ _)
      (by rw [length_padded, length_padded]),
    digitsValue_padded hm, digitsValue_padded hn, ne_eq, hsame, ← ne_eq, ← Nat.lt_iff_le_and_ne]
  simp only [Text.le, UInt16.lt_irrefl, decide_false, beq_self_eq_true, Bool.true_and,
    Bool.false_or]

theorem write_le_iff (t u : Timestamp) : Text.le t.write u.write = true ↔ t.instant ≤ u.instant := by
  have hbounds (t : Timestamp) : t.year < 10 ^ 4 ∧ t.month < 10 ^ 2 ∧ t.day < 10 ^ 2 ∧
      t.hour < 10 ^ 2 ∧ t.minute < 10 ^ 2 ∧ t.second < 10 ^ 2 ∧ t.millisecond < 10 ^ 3 := by
    have hyear := t.year_range
    have hmonth := t.month_range
    have hday := t.day_range
    have := t.day_le
    have := t.hour_lt
    have := t.minute_lt
    have := t.second_lt
    have := t.millisecond_lt
    omega
  obtain ⟨hy, hmo, hd, hh, hmi, hs, hms⟩ := hbounds t
  obtain ⟨hy', hmo', hd', hh', hmi', hs', hms'⟩ := hbounds u
  rw [instant_le_iff, Timestamp.LexLe, Timestamp.write, Timestamp.write, le_padded_iff _ hy hy',
    le_padded_iff _ hmo hmo', le_padded_iff _ hd hd', le_padded_iff _ hh hh',
    le_padded_iff _ hmi hmi', le_padded_iff _ hs hs', le_padded_iff _ hms hms']
  simp only [Text.le, and_true, Nat.le_iff_lt_or_eq]

/-- The expression matches the numbers of some kind, in a width. -/
def Writes (r : Regex) (width : ℕ) (P : ℕ → Prop) : Prop :=
  ∀ a, r.Language a ↔ ∃ n, P n ∧ a = padded width n

section Pattern

open TimestampPattern

theorem writes_digits (width : ℕ) : Writes (digits width) width (· < 10 ^ width) := by
  intro a
  rw [digits, digit, Regex.language_replicate_iff]
  constructor
  · intro h
    obtain ⟨ha, rfl⟩ := h
    exact ⟨digitsValue a, digitsValue_lt ha, eq_padded ha⟩
  · intro h
    obtain ⟨n, _, rfl⟩ := h
    exact ⟨areDigits_padded width n, length_padded width n⟩

/-- The expression matches pairs of digits only. -/
def IsPair (r : Regex) : Prop := ∀ a, r.Language a → AreDigits a ∧ a.length = 2

theorem isPair_pair {low high low' high' : UInt16} (h : 48 ≤ low ∧ high ≤ 57)
    (h' : 48 ≤ low' ∧ high' ≤ 57) : IsPair (pair low high low' high') := by
  have hdigit {low high u : UInt16} (h : 48 ≤ low ∧ high ≤ 57)
      (hu : Regex.range low high u = true) : isDigit u = true := by
    simp only [Regex.range, Bool.and_eq_true, decide_eq_true_eq] at hu
    simp only [isDigit, Bool.and_eq_true, decide_eq_true_eq]
    exact ⟨UInt16.le_trans h.1 hu.1, UInt16.le_trans hu.2 h.2⟩
  intro a ha
  obtain ⟨_, _, rfl, ⟨u, hu, rfl⟩, v, hv, rfl⟩ := ha
  refine ⟨?_, rfl⟩
  intro w hw
  simp only [List.cons_append, List.nil_append, List.mem_cons, List.not_mem_nil, or_false] at hw
  rcases hw with rfl | rfl
  · exact hdigit h hu
  · exact hdigit h' hv

theorem IsPair.alt {r s : Regex} (hr : IsPair r) (hs : IsPair s) : IsPair (.alt r s) := by
  intro a ha
  exact ha.elim (hr a) (hs a)

theorem IsPair.writes {r : Regex} {P : ℕ → Prop} (h : IsPair r)
    (hall : ∀ n < 100, r.accepts (padded 2 n) = true ↔ P n) (hlt : ∀ n, P n → n < 100) :
    Writes r 2 P := by
  intro a
  constructor
  · intro ha
    obtain ⟨hdigits, hlength⟩ := h a ha
    have hvalue : digitsValue a < 100 := by
      have := digitsValue_lt hdigits
      rwa [hlength] at this
    have hwritten : a = padded 2 (digitsValue a) := hlength ▸ eq_padded hdigits
    refine ⟨digitsValue a, (hall _ hvalue).mp ?_, hwritten⟩
    rw [← hwritten]
    exact (Regex.accepts_iff r a).mpr ha
  · intro ha
    obtain ⟨n, hn, rfl⟩ := ha
    exact (Regex.accepts_iff _ _).mp ((hall n (hlt n hn)).mpr hn)

private theorem accepts_pairs :
    (∀ n < 100, month.accepts (padded 2 n) = true ↔ 1 ≤ n ∧ n ≤ 12) ∧
      (∀ n < 100, day.accepts (padded 2 n) = true ↔ 1 ≤ n ∧ n ≤ 31) ∧
      (∀ n < 100, hour.accepts (padded 2 n) = true ↔ n < 24) ∧
      ∀ n < 100, sixty.accepts (padded 2 n) = true ↔ n < 60 := by
  decide +kernel

theorem writes_month : Writes month 2 fun n => 1 ≤ n ∧ n ≤ 12 := by
  apply (IsPair.alt (isPair_pair (by decide) (by decide))
    (isPair_pair (by decide) (by decide))).writes
  · exact accepts_pairs.1
  · omega

theorem writes_day : Writes day 2 fun n => 1 ≤ n ∧ n ≤ 31 := by
  apply (IsPair.alt (isPair_pair (by decide) (by decide)) (IsPair.alt
    (isPair_pair (by decide) (by decide)) (isPair_pair (by decide) (by decide)))).writes
  · exact accepts_pairs.2.1
  · omega

theorem writes_hour : Writes hour 2 (· < 24) := by
  apply (IsPair.alt (isPair_pair (by decide) (by decide))
    (isPair_pair (by decide) (by decide))).writes
  · exact accepts_pairs.2.2.1
  · omega

theorem writes_sixty : Writes sixty 2 (· < 60) := by
  apply (isPair_pair (by decide) (by decide)).writes
  · exact accepts_pairs.2.2.2
  · omega

theorem language_marked {r s : Regex} {width : ℕ} {P : ℕ → Prop} (h : Writes r width P)
    (u : UInt16) (text : Text) : (Regex.seq r (Regex.seq (mark u) s)).Language text ↔
      ∃ n, P n ∧ ∃ x, s.Language x ∧ text = padded width n ++ u :: x := by
  simp only [Regex.Language, mark, h _]
  constructor
  · intro ht
    obtain ⟨_, _, rfl, ⟨n, hn, rfl⟩, _, x, rfl, ⟨v, hv, rfl⟩, hx⟩ := ht
    rw [beq_iff_eq.mp hv]
    exact ⟨n, hn, x, hx, rfl⟩
  · intro ht
    obtain ⟨n, hn, x, hx, rfl⟩ := ht
    exact ⟨_, _, rfl, ⟨n, hn, rfl⟩, [u], x, rfl, ⟨u, beq_self_eq_true u, rfl⟩, hx⟩

end Pattern

/-- A text is a canonical timestamp if it writes a day of the calendar and a time. -/
theorem canonicalTimestamp_iff (text : Text) :
    canonicalTimestamp (.string text) = true ↔ ∃ t : Timestamp, text = t.write := by
  have hlast (x : Text) : (Regex.seq (TimestampPattern.digits 3) (TimestampPattern.mark 0x5a)).Language
      x ↔ ∃ n, n < 10 ^ 3 ∧ x = padded 3 n ++ [0x5a] := by
    simp only [Regex.Language, TimestampPattern.mark, writes_digits 3 _]
    constructor
    · intro h
      obtain ⟨_, _, rfl, ⟨n, hn, rfl⟩, v, hv, rfl⟩ := h
      rw [beq_iff_eq.mp hv]
      exact ⟨n, hn, rfl⟩
    · intro h
      obtain ⟨n, hn, rfl⟩ := h
      exact ⟨_, _, rfl, ⟨n, hn, rfl⟩, 0x5a, rfl, rfl⟩
  have hpattern : timestampPattern.Language text ↔ ∃ y, y < 10 ^ 4 ∧ ∃ x₁, (∃ mo, (1 ≤ mo ∧ mo ≤ 12) ∧
      ∃ x₂, (∃ d, (1 ≤ d ∧ d ≤ 31) ∧ ∃ x₃, (∃ h, h < 24 ∧ ∃ x₄, (∃ mi, mi < 60 ∧ ∃ x₅,
        (∃ s, s < 60 ∧ ∃ x₆, (∃ ms, ms < 10 ^ 3 ∧ x₆ = padded 3 ms ++ [0x5a]) ∧
          x₅ = padded 2 s ++ 0x2e :: x₆) ∧ x₄ = padded 2 mi ++ 0x3a :: x₅) ∧
            x₃ = padded 2 h ++ 0x3a :: x₄) ∧ x₂ = padded 2 d ++ 0x54 :: x₃) ∧
              x₁ = padded 2 mo ++ 0x2d :: x₂) ∧ text = padded 4 y ++ 0x2d :: x₁ := by
    simp only [timestampPattern, Regex.sequence, language_marked (writes_digits 4),
      language_marked writes_month, language_marked writes_day, language_marked writes_hour,
      language_marked writes_sixty, hlast]
  have hgroups (y mo d : ℕ) (x : Text) (hy : y < 10 ^ 4) (hmo : mo < 10 ^ 2) (hd : d < 10 ^ 2)
      (ht : text = padded 4 y ++ 0x2d :: (padded 2 mo ++ 0x2d :: (padded 2 d ++ 0x54 :: x))) :
      digitsValue (text.take 4) = y ∧ digitsValue ((text.drop 5).take 2) = mo ∧
        digitsValue ((text.drop 8).take 2) = d := by
    have hmonth : text = (padded 4 y ++ [0x2d]) ++ (padded 2 mo ++ 0x2d :: (padded 2 d ++ 0x54 :: x)) := by
      simp [ht]
    have hday : text = (padded 4 y ++ 0x2d :: (padded 2 mo ++ [0x2d])) ++ (padded 2 d ++ 0x54 :: x) := by
      simp [ht]
    refine ⟨?_, ?_, ?_⟩
    · rw [ht, List.take_left' (length_padded 4 y), digitsValue_padded hy]
    · rw [hmonth, List.drop_left' (by simp [length_padded]), List.take_left' (length_padded 2 mo),
        digitsValue_padded hmo]
    · rw [hday, List.drop_left' (by simp [length_padded]), List.take_left' (length_padded 2 d),
        digitsValue_padded hd]
  simp only [canonicalTimestamp, Bool.and_eq_true, Regex.accepts_iff, hpattern, Bool.not_eq_true',
    Bool.or_eq_false_iff, decide_eq_false_iff_not, decide_eq_true_eq]
  constructor
  · intro h
    obtain ⟨⟨⟨y, hy, _, ⟨mo, hmo, _, ⟨d, hd, _, ⟨h, hh, _, ⟨mi, hmi, _, ⟨s, hs, _, ⟨ms, hms, rfl⟩,
      rfl⟩, rfl⟩, rfl⟩, rfl⟩, rfl⟩, ht⟩, hyear⟩, hlength⟩ := h
    obtain ⟨hy', hmo', hd'⟩ := hgroups y mo d _ hy (by omega) (by omega) ht
    rw [hy'] at hyear hlength
    rw [hmo', hd'] at hlength
    exact ⟨⟨y, mo, d, h, mi, s, ms, by omega, hmo, ⟨hd.1, hlength⟩, hh, hmi, hs, hms⟩, ht⟩
  · intro h
    obtain ⟨t, ht⟩ := h
    have hyear := t.year_range
    have hmonth := t.month_range
    have hday := t.day_range
    have hday31 := t.day_le
    obtain ⟨hy', hmo', hd'⟩ := hgroups t.year t.month t.day _ (by omega) (by omega) (by omega) ht
    rw [hy', hmo', hd']
    refine ⟨⟨⟨t.year, by omega, _, ⟨t.month, hmonth, _, ⟨t.day, ⟨hday.1, hday31⟩, _, ⟨t.hour, t.hour_lt,
      _, ⟨t.minute, t.minute_lt, _, ⟨t.second, t.second_lt, _, ⟨t.millisecond, t.millisecond_lt, rfl⟩,
        rfl⟩, rfl⟩, rfl⟩, rfl⟩, rfl⟩, ht⟩, by omega⟩, hday.2⟩

def semanticTimeEvidence (value : Value) : Bool :=
  let lower := value.field (ascii "lower")
  let upper := value.field (ascii "upper")
  if (value.field (ascii "kind")).strictEq (.string (ascii "exact")) then
    canonicalTimestamp (value.field (ascii "at"))
  else if !(value.field (ascii "kind")).strictEq (.string (ascii "interval")) ||
      !lower.isTruthy || !upper.isTruthy then false
  else if !canonicalTimestamp (lower.field (ascii "at")) ||
      !canonicalTimestamp (upper.field (ascii "at")) then false
  else
    isNonempty (compareCanonicalTimestamps (lower.field (ascii "at")) (upper.field (ascii "at")))
      (isInclusive lower) (isInclusive upper)
where
  isInclusive (bound : Value) : Bool := (bound.field (ascii "inclusive")).strictEq (.bool true)
  isNonempty : Except String Int → Bool → Bool → Bool
    | .error _, _, _ => false
    | .ok comparison, fromLower, toUpper =>
      comparison < 0 || comparison == 0 && fromLower && toUpper

/-- The instant lies between two timestamps, each of which counts or not. -/
def Within (lower upper : Timestamp) (fromLower toUpper : Bool) (x : ℚ) : Prop :=
  (if fromLower then (lower.instant : ℚ) ≤ x else (lower.instant : ℚ) < x) ∧
    if toUpper then x ≤ upper.instant else x < upper.instant

theorem exists_within_iff (lower upper : Timestamp) (fromLower toUpper : Bool) :
    (∃ x, Within lower upper fromLower toUpper x) ↔ lower.instant < upper.instant ∨
      lower.instant = upper.instant ∧ fromLower = true ∧ toUpper = true := by
  constructor
  · intro h
    obtain ⟨x, hlower, hupper⟩ := h
    by_cases hboth : fromLower = true ∧ toUpper = true
    · simp only [hboth.1, hboth.2, if_true] at hlower hupper
      have hle : lower.instant ≤ upper.instant := Nat.cast_le.mp (hlower.trans hupper)
      rcases hle.lt_or_eq with hlt | heq
      · exact Or.inl hlt
      · exact Or.inr ⟨heq, hboth⟩
    · refine Or.inl (Nat.cast_lt (α := ℚ).mp ?_)
      cases fromLower with
      | false =>
        have hle : x ≤ upper.instant := by
          cases toUpper with
          | false => exact le_of_lt hupper
          | true => exact hupper
        exact lt_of_lt_of_le hlower hle
      | true =>
        cases toUpper with
        | false => exact lt_of_le_of_lt hlower hupper
        | true => exact absurd ⟨rfl, rfl⟩ hboth
  · intro h
    rcases h with hlt | ⟨heq, rfl, rfl⟩
    · have hlt : (lower.instant : ℚ) < upper.instant := Nat.cast_lt.mpr hlt
      have hmiddle : (lower.instant : ℚ) < (lower.instant + upper.instant) / 2 ∧
          ((lower.instant : ℚ) + upper.instant) / 2 < upper.instant := by
        constructor <;> linarith
      refine ⟨((lower.instant : ℚ) + upper.instant) / 2, ?_, ?_⟩
      · cases fromLower with
        | false => exact hmiddle.1
        | true => exact hmiddle.1.le
      · cases toUpper with
        | false => exact hmiddle.2
        | true => exact hmiddle.2.le
    · refine ⟨lower.instant, ?_, ?_⟩
      · simp
      · simp [heq]

/-- What a value says of time: a timestamp, or bounds that an instant lies between. -/
inductive SaysTime (value : Value) : Prop
  | exact (t : Timestamp) (kind : value.field (ascii "kind") = .string (ascii "exact"))
      (written : value.field (ascii "at") = .string t.write)
  | interval (lower upper : Timestamp) (x : ℚ)
      (kind : value.field (ascii "kind") = .string (ascii "interval"))
      (lower_written : (value.field (ascii "lower")).field (ascii "at") = .string lower.write)
      (upper_written : (value.field (ascii "upper")).field (ascii "at") = .string upper.write)
      (within : Within lower upper
        (semanticTimeEvidence.isInclusive (value.field (ascii "lower")))
        (semanticTimeEvidence.isInclusive (value.field (ascii "upper"))) x)

theorem compareCanonicalTimestamps_write (t u : Timestamp) :
    compareCanonicalTimestamps (.string t.write) (.string u.write) =
      .ok (if t.instant < u.instant then -1 else if u.instant < t.instant then 1 else 0) := by
  have hwritten (t : Timestamp) : canonicalTimestamp (.string t.write) = true :=
    (canonicalTimestamp_iff t.write).mpr ⟨t, rfl⟩
  have hlt (t u : Timestamp) : stringLt (.string t.write) (.string u.write) =
      decide (t.instant < u.instant) := by
    have hle := write_le_iff u t
    cases hcompare : Text.le u.write t.write with
    | false =>
      rw [hcompare] at hle
      simp only [Bool.false_eq_true, false_iff] at hle
      simp [stringLt, hcompare, Nat.lt_of_not_le hle]
    | true =>
      rw [hcompare] at hle
      simp [stringLt, hcompare, hle.mp rfl]
  simp only [compareCanonicalTimestamps, hwritten, hlt, Bool.not_true, Bool.or_self,
    Bool.false_eq_true, if_false, decide_eq_true_eq]
  split
  · rfl
  · split
    · rfl
    · rfl

theorem exists_write {value : Value} (h : canonicalTimestamp value = true) :
    ∃ t : Timestamp, value = .string t.write := by
  cases value with
  | string text =>
    obtain ⟨t, rfl⟩ := (canonicalTimestamp_iff text).mp h
    exact ⟨t, rfl⟩
  | _ => cases h

/-- The texts of timestamps are those of the calendar, and they are in the order of time. -/
theorem canonical_timestamp_law :
    (∀ value, canonicalTimestamp value = true ↔ ∃ t : Timestamp, value = .string t.write) ∧
      (∀ left right, (compareCanonicalTimestamps left right).isOk =
        (canonicalTimestamp left && canonicalTimestamp right)) ∧
      ∀ t u : Timestamp, compareCanonicalTimestamps (.string t.write) (.string u.write) =
        .ok (if t.instant < u.instant then -1 else if u.instant < t.instant then 1 else 0) := by
  refine ⟨?_, ?_, compareCanonicalTimestamps_write⟩
  · intro value
    constructor
    · exact exists_write
    · intro h
      obtain ⟨t, rfl⟩ := h
      exact (canonicalTimestamp_iff t.write).mpr ⟨t, rfl⟩
  · intro left right
    unfold compareCanonicalTimestamps
    cases canonicalTimestamp left with
    | false => rfl
    | true =>
      cases canonicalTimestamp right with
      | false => rfl
      | true =>
        simp only [Bool.not_true, Bool.or_self, Bool.false_eq_true, if_false, Bool.and_self]
        split
        · rfl
        · split
          · rfl
          · rfl

theorem isNonempty_iff (lower upper : Timestamp) (fromLower toUpper : Bool) :
    semanticTimeEvidence.isNonempty
        (compareCanonicalTimestamps (.string lower.write) (.string upper.write)) fromLower toUpper =
      true ↔ ∃ x, Within lower upper fromLower toUpper x := by
  rw [exists_within_iff, compareCanonicalTimestamps_write]
  rcases Nat.lt_trichotomy lower.instant upper.instant with hlt | heq | hgt
  · simp [semanticTimeEvidence.isNonempty, hlt]
  · simp [semanticTimeEvidence.isNonempty, heq]
  · simp [semanticTimeEvidence.isNonempty, hgt, hgt.not_gt, hgt.ne']

/-- Evidence of time is accepted if some instant agrees with it. -/
theorem semantic_time_evidence_law (value : Value) :
    semanticTimeEvidence value = true ↔ SaysTime value := by
  have hne : ascii "interval" ≠ ascii "exact" := by decide
  constructor
  · intro h
    unfold semanticTimeEvidence at h
    simp only [Value.strictEq_string, Bool.or_eq_true, Bool.not_eq_true'] at h
    split at h
    · next hkind =>
      obtain ⟨t, ht⟩ := exists_write h
      exact .exact t hkind ht
    · split at h
      · cases h
      · next hinterval =>
        split at h
        · cases h
        · next hcanonical =>
          simp only [not_or, Bool.not_eq_false] at hinterval hcanonical
          obtain ⟨lower, hlower⟩ := exists_write hcanonical.1
          obtain ⟨upper, hupper⟩ := exists_write hcanonical.2
          rw [hlower, hupper, isNonempty_iff] at h
          obtain ⟨x, hx⟩ := h
          have hkind := (Value.strictEq_string _ _).mp hinterval.1.1
          exact .interval lower upper x hkind hlower hupper hx
  · intro h
    have hwritten (t : Timestamp) : canonicalTimestamp (.string t.write) = true :=
      (canonicalTimestamp_iff t.write).mpr ⟨t, rfl⟩
    unfold semanticTimeEvidence
    cases h with
    | exact t kind written => simp [kind, written, hwritten]
    | interval lower upper x kind lower_written upper_written within =>
      have htruthy {bound : Value} {t : Timestamp}
          (h : bound.field (ascii "at") = .string t.write) : bound.isTruthy = true := by
        cases bound with
        | object members => rfl
        | _ => cases h
      simp only [kind, lower_written, upper_written, hwritten, htruthy lower_written,
        htruthy upper_written, (isNonempty_iff lower upper _ _).mpr ⟨x, within⟩]
      simp [hne]

end GhostBridge.SchemaValidation
