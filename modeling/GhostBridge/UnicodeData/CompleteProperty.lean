import GhostBridge.Ecma.Outcome
import GhostBridge.Ranges.RunLengths
import Mathlib.Data.List.Nodup
import Mathlib.Data.Nat.Digits.Defs

/-!
# Complete properties of code points

`buildCompleteProperty` lays explicit ranges over `@missing` rules, counts the code points of each
value and compresses the table to runs.
-/

namespace GhostBridge.UnicodeData

open Ecma Ranges

def maxCodePoint : ℕ := 0x10ffff

def codePointCount : ℕ := maxCodePoint + 1

structure PropertyRange where
  start : ℕ
  last : ℕ
  value : String
  lineNumber : ℕ
deriving DecidableEq

namespace PropertyRange

def span (range : PropertyRange) : Span String := ⟨range.start, range.last, range.value⟩

def Contains (range : PropertyRange) (codePoint : ℕ) : Prop := range.span.Contains codePoint

instance (range : PropertyRange) (codePoint : ℕ) : Decidable (range.Contains codePoint) :=
  inferInstanceAs (Decidable (range.span.Contains codePoint))

end PropertyRange

/-- `codePoint.toString(16).toUpperCase().padStart(4, '0')`. -/
def codePointText (codePoint : ℕ) : String :=
  let digits := (Nat.toDigits 16 codePoint).map Char.toUpper
  String.ofList (List.replicate (4 - digits.length) '0' ++ digits)

def checkSorted (allowed : List String) (label : String) :
    Option PropertyRange → List PropertyRange → Except String Unit
  | _, [] => .ok ()
  | previous, range :: rest => do
    throwWhen (!allowed.contains range.value)
      (label ++ ":" ++ toString range.lineNumber ++ " unknown property value: " ++ range.value)
    throwWhen (previous.any fun previous => decide (range.start ≤ previous.last))
      (label ++ " overlapping ranges at U+" ++ codePointText range.start)
    checkSorted allowed label (some range) rest

/-- `left.start - right.start || left.end - right.end` is not positive. -/
def comesFirst (left right : PropertyRange) : Bool :=
  left.start < right.start || (left.start == right.start && left.last ≤ right.last)

def validateExplicitRanges (ranges : List PropertyRange) (allowed : List String) (label : String) :
    Except String (List PropertyRange) := do
  let sorted := ranges.mergeSort comesFirst
  checkSorted allowed label none sorted
  return sorted

def checkMissing (allowed : List String) (label : String) : List PropertyRange → Except String Unit
  | [] => .ok ()
  | rule :: rest => do
    throwWhen (!allowed.contains rule.value)
      (label ++ ":" ++ toString rule.lineNumber ++ " unknown @missing value: " ++ rule.value)
    checkMissing allowed label rest

def checkComplete (allowed : List String) (label : String) : ℕ → List (Span String) → Except String Unit
  | next, [] =>
    throwWhen (next != codePointCount)
      (label ++ " generated coverage stops at " ++ toString ((next : ℤ) - 1))
  | next, range :: rest => do
    throwWhen (range.start != next || range.last < range.start || maxCodePoint < range.last)
      (label ++ " generated coverage is malformed at [" ++ toString range.start ++ "," ++
        toString range.last ++ "," ++ range.value.quote ++ "]")
    throwWhen (!allowed.contains range.value)
      (label ++ " has unknown generated value: " ++ range.value)
    checkComplete allowed label (range.last + 1) rest

def assertCompleteRangeTable (ranges : List (Span String)) (allowedValues : List String)
    (label : String) : Except String Unit := do
  throwWhen ranges.isEmpty (label ++ " is empty")
  checkComplete allowedValues label 0 ranges

/-- What an element of an `Int16Array` keeps of a number. -/
def toInt16 (n : ℕ) : ℤ := Int.bmod n 65536

def entrySpan (allowedValues : List String) (range : PropertyRange) : Span ℤ :=
  ⟨range.start, range.last, toInt16 (allowedValues.idxOf range.value)⟩

def buildTable (allowedValues : List String) (missing sortedRanges : List PropertyRange) : ℕ → ℤ :=
  (sortedRanges.map (entrySpan allowedValues)).foldl fill <|
    (missing.map (entrySpan allowedValues)).foldl fill fun _ => -1

/-- How many code points, and how many scalar values among them, have a value. -/
structure Counts where
  counts : String → ℕ
  scalarCounts : String → ℕ

def isSurrogate (codePoint : ℕ) : Bool := 0xd800 ≤ codePoint && codePoint ≤ 0xdfff

/-- `counts[value] += 1`. -/
def increment (counts : String → ℕ) (value : String) : String → ℕ :=
  Function.update counts value (counts value + 1)

def Counts.add (counts : Counts) (codePoint : ℕ) (value : String) : Counts where
  counts := increment counts.counts value
  scalarCounts :=
    if isSurrogate codePoint then counts.scalarCounts else increment counts.scalarCounts value

def valueOf (allowedValues : List String) (entry : ℤ) : String :=
  (allowedValues[entry.toNat]?).getD "undefined"

def countFrom (allowedValues : List String) (label : String) (table : ℕ → ℤ) :
    ℕ → ℕ → Counts → Except String Counts
  | 0, _, counts => .ok counts
  | remaining + 1, codePoint, counts => do
    throwWhen (table codePoint < 0) (label ++ " does not cover U+" ++ codePointText codePoint)
    countFrom allowedValues label table remaining (codePoint + 1)
      (counts.add codePoint (valueOf allowedValues (table codePoint)))

def nextEntry (table : ℕ → ℤ) (codePoint : ℕ) : ℤ :=
  if codePoint < codePointCount then table codePoint else -2

def completeRanges (allowedValues : List String) (table : ℕ → ℤ) : List (Span String) :=
  (runsFrom (nextEntry table) codePointCount 1 0 (table 0)).map (Span.map (valueOf allowedValues))

structure CompleteProperty where
  table : ℕ → ℤ
  ranges : List (Span String)
  explicitRangeCount : ℕ
  missingRuleCount : ℕ
  counts : String → ℕ
  scalarCounts : String → ℕ

def buildCompleteProperty (ranges missing : List PropertyRange) (allowedValues : List String)
    (label : String) : Except String CompleteProperty := do
  throwWhen (allowedValues.isEmpty || decide (¬allowedValues.Nodup))
    (label ++ " must declare a closed value set")
  let sortedRanges ← validateExplicitRanges ranges allowedValues label
  throwWhen missing.isEmpty (label ++ " has no @missing/default rule")
  checkMissing allowedValues label missing
  let table := buildTable allowedValues missing sortedRanges
  let counts ← countFrom allowedValues label table codePointCount 0 ⟨fun _ => 0, fun _ => 0⟩
  let complete := completeRanges allowedValues table
  assertCompleteRangeTable complete allowedValues label
  return ⟨table, complete, sortedRanges.length, missing.length, counts.counts, counts.scalarCounts⟩

end GhostBridge.UnicodeData

/-!
## What a complete property says

The table gives each code point the value of its explicit range, or of the last rule for it where
no range contains it. Entries have sixteen bits, so this holds for closed sets of at most 65536
values.
-/

namespace GhostBridge.UnicodeData

open Ecma Ranges

theorem codePointCount_eq : codePointCount = maxCodePoint + 1 := rfl

theorem codePointCount_pos : 0 < codePointCount := Nat.succ_pos _

theorem pairwise_comesFirst (ranges : List PropertyRange) :
    (ranges.mergeSort comesFirst).Pairwise fun left right => left.start ≤ right.start := by
  have htrans (a b c : PropertyRange) (hab : comesFirst a b = true) (hbc : comesFirst b c = true) :
      comesFirst a c = true := by
    simp only [comesFirst, Bool.or_eq_true, Bool.and_eq_true, decide_eq_true_eq, beq_iff_eq] at *
    omega
  have htotal (a b : PropertyRange) : (comesFirst a b || comesFirst b a) = true := by
    simp only [comesFirst, Bool.or_eq_true, Bool.and_eq_true, decide_eq_true_eq, beq_iff_eq]
    omega
  apply (List.pairwise_mergeSort htrans htotal ranges).imp
  intro left right h
  simp only [comesFirst, Bool.or_eq_true, Bool.and_eq_true, decide_eq_true_eq, beq_iff_eq] at h
  omega

theorem checkSorted_ok {allowed : List String} {label : String} {previous : Option PropertyRange}
    {sorted : List PropertyRange}
    (hsorted : sorted.Pairwise fun left right => left.start ≤ right.start)
    (h : checkSorted allowed label previous sorted = .ok ()) :
    (∀ range ∈ sorted, range.value ∈ allowed) ∧
      (∀ before ∈ previous, ∀ range ∈ sorted, before.last < range.start) ∧
      sorted.Pairwise fun left right => left.last < right.start := by
  induction sorted generalizing previous with
  | nil => exact ⟨by simp, by simp, List.Pairwise.nil⟩
  | cons range rest ih =>
    rw [List.pairwise_cons] at hsorted
    simp only [checkSorted, bind_ok, throwWhen_ok, exists_unit, Bool.not_eq_false',
      List.contains_eq_mem, decide_eq_true_eq] at h
    obtain ⟨hvalue, hoverlap, hrest⟩ := h
    obtain ⟨hvalues, hbehind, hpairwise⟩ := ih hsorted.2 hrest
    have hbehind := hbehind range rfl
    refine ⟨?_, ?_, List.pairwise_cons.mpr ⟨hbehind, hpairwise⟩⟩
    · intro other hother
      rcases List.mem_cons.mp hother with rfl | hother
      · exact hvalue
      · exact hvalues other hother
    · intro before hbefore other hother
      rw [Option.mem_def.mp hbefore] at hoverlap
      simp only [Option.any_some, decide_eq_false_iff_not, Nat.not_le] at hoverlap
      rcases List.mem_cons.mp hother with rfl | hother
      · exact hoverlap
      · exact Nat.lt_of_lt_of_le hoverlap (hsorted.1 other hother)

def hits (ranges : List PropertyRange) (codePoint : ℕ) : List PropertyRange :=
  ranges.filter fun range => decide (range.Contains codePoint)

def NoOverlap (ranges : List PropertyRange) : Prop :=
  ranges.Pairwise fun left right => ∀ codePoint,
    ¬(left.Contains codePoint ∧ right.Contains codePoint)

theorem validateExplicitRanges_ok {ranges sorted : List PropertyRange} {allowed : List String}
    {label : String} (h : validateExplicitRanges ranges allowed label = .ok sorted) :
    sorted.Perm ranges ∧ (∀ range ∈ sorted, range.value ∈ allowed) ∧ NoOverlap sorted := by
  simp only [validateExplicitRanges, bind_ok, pure_ok, exists_unit] at h
  obtain ⟨hcheck, rfl⟩ := h
  obtain ⟨hvalues, _, hpairwise⟩ := checkSorted_ok (pairwise_comesFirst ranges) hcheck
  refine ⟨List.mergeSort_perm ranges comesFirst, hvalues, hpairwise.imp ?_⟩
  intro left right hbehind codePoint hboth
  obtain ⟨⟨_, hlast⟩, hstart, _⟩ := hboth
  have hle : codePoint ≤ left.last := hlast
  have hge : right.start ≤ codePoint := hstart
  omega

theorem NoOverlap.perm {ranges sorted : List PropertyRange} (hperm : sorted.Perm ranges)
    (h : NoOverlap sorted) : NoOverlap ranges := by
  apply hperm.pairwise h
  intro left right hnot codePoint hboth
  exact hnot codePoint hboth.symm

theorem NoOverlap.hits {ranges : List PropertyRange} (h : NoOverlap ranges) (codePoint : ℕ) :
    hits ranges codePoint = [] ∨ ∃ range, hits ranges codePoint = [range] := by
  apply filter_of_pairwise
  apply h.imp
  intro left right hnot hboth
  exact hnot codePoint ⟨of_decide_eq_true hboth.1, of_decide_eq_true hboth.2⟩

theorem entrySpan_contains (allowedValues : List String) (range : PropertyRange) (codePoint : ℕ) :
    (entrySpan allowedValues range).Contains codePoint ↔ range.Contains codePoint := by
  rw [PropertyRange.Contains, Span.Contains, Span.Contains, entrySpan, PropertyRange.span]

theorem entrySpan_value (allowedValues : List String) (range : PropertyRange) :
    (entrySpan allowedValues range).value = toInt16 (allowedValues.idxOf range.value) := by
  rw [entrySpan]

theorem foldl_entrySpan (allowedValues : List String) (ranges : List PropertyRange)
    (table : ℕ → ℤ) (codePoint : ℕ) :
    (ranges.map (entrySpan allowedValues)).foldl fill table codePoint =
      (((hits ranges codePoint).getLast?).map fun range =>
        (entrySpan allowedValues range).value).getD (table codePoint) := by
  have hcontains : (ranges.filter ((fun span => decide (span.Contains codePoint)) ∘
      entrySpan allowedValues)) = hits ranges codePoint := by
    apply List.filter_congr
    intro range _
    exact decide_eq_decide.mpr (entrySpan_contains allowedValues range codePoint)
  rw [foldl_fill, containing, List.filter_map, hcontains, List.getLast?_map, Option.map_map,
    Function.comp_def]

def deciding (missing ranges : List PropertyRange) (codePoint : ℕ) : Option PropertyRange :=
  (hits ranges codePoint).getLast?.or (hits missing codePoint).getLast?

theorem buildTable_eq (allowedValues : List String) (missing sorted : List PropertyRange)
    (codePoint : ℕ) :
    buildTable allowedValues missing sorted codePoint =
      ((deciding missing sorted codePoint).map fun range =>
        (entrySpan allowedValues range).value).getD (-1) := by
  rw [buildTable, foldl_entrySpan, foldl_entrySpan, deciding]
  cases (hits sorted codePoint).getLast? with
  | none => rw [Option.none_or, Option.map_none, Option.getD_none]
  | some range => rw [Option.some_or, Option.map_some, Option.getD_some, Option.getD_some]

/-- The unique explicit range that contains a code point, or else the last rule that does, has the
value. -/
def Decides (missing ranges : List PropertyRange) (codePoint : ℕ) (value : String) : Prop :=
  (∃ range, hits ranges codePoint = [range] ∧ range.value = value) ∨
    hits ranges codePoint = [] ∧
      ∃ rule, (hits missing codePoint).getLast? = some rule ∧ rule.value = value

theorem decides_of_deciding {missing ranges sorted : List PropertyRange} {codePoint : ℕ}
    {range : PropertyRange} (hperm : sorted.Perm ranges) (hsorted : NoOverlap sorted)
    (h : deciding missing sorted codePoint = some range) :
    Decides missing ranges codePoint range.value := by
  have hhits : (hits sorted codePoint).Perm (hits ranges codePoint) := hperm.filter _
  rw [deciding] at h
  rcases hsorted.hits codePoint with hnone | ⟨found, hone⟩
  · rw [hnone] at h hhits
    exact Or.inr ⟨List.nil_perm.mp hhits, range, h, rfl⟩
  · rw [hone] at h hhits
    obtain rfl := Option.some.inj h
    exact Or.inl ⟨_, List.singleton_perm.mp hhits |>.symm, rfl⟩

theorem checkMissing_ok {allowed : List String} {label : String} {missing : List PropertyRange}
    (h : checkMissing allowed label missing = .ok ()) : ∀ rule ∈ missing, rule.value ∈ allowed := by
  induction missing with
  | nil => simp
  | cons rule rest ih =>
    simp only [checkMissing, bind_ok, throwWhen_ok, exists_unit, Bool.not_eq_false',
      List.contains_eq_mem, decide_eq_true_eq] at h
    exact List.forall_mem_cons.mpr ⟨h.1, ih h.2⟩

theorem bmod_of_lt {n m : ℕ} (h : n < m) (hnonneg : 0 ≤ Int.bmod n m) : Int.bmod n m = n := by
  have hmod : (n : ℤ) % (m : ℤ) = n :=
    Int.emod_eq_of_lt (Int.natCast_nonneg n) (Int.ofNat_lt.mpr h)
  rw [Int.bmod_eq_emod, hmod] at hnonneg ⊢
  by_cases hlow : (n : ℤ) ≥ ((m : ℤ) + 1) / 2
  · rw [if_pos hlow] at hnonneg
    omega
  · rw [if_neg hlow, Nat.cast_zero, sub_zero]

theorem toInt16_of_lt {n : ℕ} (h : n < 65536) (hnonneg : 0 ≤ toInt16 n) : toInt16 n = n :=
  bmod_of_lt h hnonneg

def scalarsBelow (bound : ℕ) : ℕ := bound - (min bound 0xe000 - min bound 0xd800)

theorem sum_increment {allowedValues : List String} (hnodup : allowedValues.Nodup) {value : String}
    (hvalue : value ∈ allowedValues) (counts : String → ℕ) :
    (allowedValues.map (increment counts value)).sum = (allowedValues.map counts).sum + 1 := by
  induction allowedValues with
  | nil => cases hvalue
  | cons first rest ih =>
    rw [List.nodup_cons] at hnodup
    rw [List.map_cons, List.map_cons, List.sum_cons, List.sum_cons]
    by_cases hfirst : first = value
    · subst hfirst
      have hrest : rest.map (increment counts first) = rest.map counts := by
        apply List.map_congr_left
        intro other hother
        have hne : other ≠ first := fun heq => hnodup.1 (heq ▸ hother)
        rw [increment, Function.update_of_ne hne]
      rw [hrest, increment, Function.update_self]
      omega
    · have hmem := (List.mem_cons.mp hvalue).resolve_left (Ne.symm hfirst)
      rw [ih hnodup.2 hmem, increment, Function.update_of_ne hfirst]
      omega

structure Counted (allowedValues : List String) (bound : ℕ) (counts : Counts) : Prop where
  counts_sum : (allowedValues.map counts.counts).sum = bound
  scalarCounts_sum : (allowedValues.map counts.scalarCounts).sum = scalarsBelow bound

theorem Counted.add {allowedValues : List String} (hnodup : allowedValues.Nodup) {bound : ℕ}
    {counts : Counts} (h : Counted allowedValues bound counts) {value : String}
    (hvalue : value ∈ allowedValues) :
    Counted allowedValues (bound + 1) (counts.add bound value) := by
  refine ⟨?_, ?_⟩
  · rw [Counts.add, sum_increment hnodup hvalue, h.counts_sum]
  · rw [Counts.add]
    by_cases hsurrogate : isSurrogate bound = true
    · rw [if_pos hsurrogate, h.scalarCounts_sum]
      simp only [isSurrogate, Bool.and_eq_true, decide_eq_true_eq] at hsurrogate
      unfold scalarsBelow
      omega
    · rw [if_neg hsurrogate, sum_increment hnodup hvalue, h.scalarCounts_sum]
      simp only [isSurrogate, Bool.and_eq_true, decide_eq_true_eq] at hsurrogate
      unfold scalarsBelow
      omega

theorem countFrom_ok {allowedValues : List String} {label : String} {table : ℕ → ℤ}
    (remaining : ℕ) {codePoint : ℕ} {counts result : Counts}
    (h : countFrom allowedValues label table remaining codePoint counts = .ok result) :
    ∀ c, codePoint ≤ c → c < codePoint + remaining → 0 ≤ table c := by
  induction remaining generalizing codePoint counts with
  | zero =>
    intro c hle hlt
    omega
  | succ remaining ih =>
    simp only [countFrom, bind_ok, throwWhen_ok, exists_unit, decide_eq_false_iff_not,
      not_lt] at h
    intro c hle hlt
    by_cases hc : c = codePoint
    · rw [hc]
      exact h.1
    · exact ih h.2 c (by omega) (by omega)

theorem countFrom_counted {allowedValues : List String} (hnodup : allowedValues.Nodup)
    (label : String) {table : ℕ → ℤ} (remaining : ℕ) {codePoint : ℕ} {counts : Counts}
    (hcounts : Counted allowedValues codePoint counts)
    (htable : ∀ c, codePoint ≤ c → c < codePoint + remaining →
      0 ≤ table c ∧ valueOf allowedValues (table c) ∈ allowedValues) :
    ∃ result, countFrom allowedValues label table remaining codePoint counts = .ok result ∧
      Counted allowedValues (codePoint + remaining) result := by
  induction remaining generalizing codePoint counts with
  | zero => exact ⟨counts, rfl, hcounts⟩
  | succ remaining ih =>
    obtain ⟨hnonneg, hvalue⟩ := htable codePoint (Nat.le_refl _) (by omega)
    obtain ⟨result, hresult, hcounted⟩ := ih (hcounts.add hnodup hvalue) (by
      intro c hle hlt
      exact htable c (by omega) (by omega))
    refine ⟨result, ?_, ?_⟩
    · rw [countFrom, decide_eq_false (by omega), throwWhen, if_neg Bool.false_ne_true, ok_bind,
        hresult]
    · rw [Nat.add_right_comm] at hcounted
      exact hcounted

theorem checkComplete_of_areRuns {allowed : List String} {label : String} {entry : ℕ → String}
    {low : ℕ} {runs : List (Span String)} (h : AreRuns entry low codePointCount runs)
    (hvalues : ∀ run ∈ runs, run.value ∈ allowed) : checkComplete allowed label low runs = .ok () := by
  induction runs generalizing low with
  | nil =>
    have hend : low = codePointCount := h
    rw [checkComplete, hend, throwWhen_ok]
    exact bne_self_eq_false _
  | cons run runs ih =>
    obtain ⟨hstart, hle, hlast, _, _, hrest⟩ := h
    rw [List.forall_mem_cons] at hvalues
    simp only [checkComplete, bind_ok, throwWhen_ok, exists_unit, Bool.not_eq_false',
      List.contains_eq_mem, decide_eq_true_eq, Bool.or_eq_false_iff, decide_eq_false_iff_not,
      not_lt, bne_eq_false_iff_eq]
    exact ⟨⟨⟨hstart, hle⟩, Nat.lt_succ_iff.mp hlast⟩, hvalues.1, ih hrest hvalues.2⟩

theorem areRuns_completeRanges {allowedValues : List String} (hnodup : allowedValues.Nodup)
    {table : ℕ → ℤ}
    (htable : ∀ c < codePointCount, 0 ≤ table c ∧ (table c).toNat < allowedValues.length) :
    AreRuns (fun c => valueOf allowedValues (table c)) 0 codePointCount
      (completeRanges allowedValues table) := by
  have hnext {c : ℕ} (hc : c < codePointCount) : nextEntry table c = table c := if_pos hc
  have hbehind : nextEntry table codePointCount = -2 := if_neg (Nat.lt_irrefl _)
  have hcongr (c : ℕ) (hc : c < codePointCount) :
      valueOf allowedValues (nextEntry table c) = valueOf allowedValues (table c) := by
    rw [hnext hc]
  apply AreRuns.congr _ hcongr
  apply AreRuns.map
  · apply areRuns_runsFrom
    · intro c hc
      have hentry := htable c hc
      rw [hnext hc, hbehind]
      omega
    · exact Nat.add_comm 1 codePointCount
    · exact Nat.zero_lt_one
    · exact Nat.succ_le_succ (Nat.zero_le _)
    · intro c _ hc
      have hzero : c = 0 := by omega
      rw [hzero, hnext (Nat.succ_pos _)]
  · intro p q hp hq hsame
    obtain ⟨hp0, hpl⟩ := htable p hp
    obtain ⟨hq0, hql⟩ := htable q hq
    rw [hnext hp, hnext hq] at hsame ⊢
    simp only [valueOf, List.getElem?_eq_getElem hpl, List.getElem?_eq_getElem hql,
      Option.getD_some] at hsame
    have hindex := (hnodup.getElem_inj_iff).mp hsame
    omega

def CompleteProperty.valueAt (property : CompleteProperty) (allowedValues : List String)
    (codePoint : ℕ) : String := valueOf allowedValues (property.table codePoint)

/-- What a property says of the ranges and rules it is built from. -/
structure IsComplete (allowedValues : List String) (ranges missing : List PropertyRange)
    (property : CompleteProperty) : Prop where
  decides : ∀ codePoint < codePointCount,
    Decides missing ranges codePoint (property.valueAt allowedValues codePoint)
  runs : AreRuns (property.valueAt allowedValues) 0 codePointCount property.ranges
  counts_sum : (allowedValues.map property.counts).sum = codePointCount
  scalarCounts_sum : (allowedValues.map property.scalarCounts).sum = codePointCount - 0x800

structure Built (ranges missing : List PropertyRange) (allowedValues : List String)
    (property : CompleteProperty) : Prop where
  nodup : allowedValues.Nodup
  built : ∃ sorted, sorted.Perm ranges ∧ (∀ range ∈ sorted, range.value ∈ allowedValues) ∧
    NoOverlap sorted ∧ (∀ rule ∈ missing, rule.value ∈ allowedValues) ∧
    property.table = buildTable allowedValues missing sorted
  covered : ∀ codePoint < codePointCount, 0 ≤ property.table codePoint
  ranges_eq : property.ranges = completeRanges allowedValues property.table
  counts_eq : ∃ label, countFrom allowedValues label property.table codePointCount 0
    ⟨fun _ => 0, fun _ => 0⟩ = .ok ⟨property.counts, property.scalarCounts⟩

theorem buildCompleteProperty_ok {ranges missing : List PropertyRange} {allowedValues : List String}
    {label : String} {property : CompleteProperty}
    (h : buildCompleteProperty ranges missing allowedValues label = .ok property) :
    Built ranges missing allowedValues property := by
  simp only [buildCompleteProperty, bind_ok, throwWhen_ok, exists_unit, pure_ok,
    Bool.or_eq_false_iff, decide_eq_false_iff_not, not_not] at h
  obtain ⟨⟨_, hnodup⟩, sorted, hsorted, _, hmissing, counts, hcounts, _, rfl⟩ := h
  obtain ⟨hperm, hvalues, hoverlap⟩ := validateExplicitRanges_ok hsorted
  refine ⟨hnodup, ⟨sorted, hperm, hvalues, hoverlap, checkMissing_ok hmissing, rfl⟩, ?_, rfl,
    label, hcounts⟩
  intro codePoint hlt
  exact countFrom_ok codePointCount hcounts codePoint (Nat.zero_le _) (by omega)

theorem Built.exists_deciding {ranges missing sorted : List PropertyRange} {allowedValues : List String}
    {property : CompleteProperty} (h : Built ranges missing allowedValues property)
    (htable : property.table = buildTable allowedValues missing sorted) {codePoint : ℕ}
    (hlt : codePoint < codePointCount) :
    ∃ range, deciding missing sorted codePoint = some range ∧
      property.table codePoint = (entrySpan allowedValues range).value := by
  have hcovered := h.covered codePoint hlt
  rw [htable, buildTable_eq] at hcovered
  cases hdeciding : deciding missing sorted codePoint with
  | none =>
    rw [hdeciding, Option.map_none, Option.getD_none] at hcovered
    omega
  | some range =>
    refine ⟨range, rfl, ?_⟩
    rw [htable, buildTable_eq, hdeciding, Option.map_some, Option.getD_some]

theorem mem_of_deciding {missing sorted : List PropertyRange} {codePoint : ℕ} {range : PropertyRange}
    (h : deciding missing sorted codePoint = some range) : range ∈ sorted ∨ range ∈ missing := by
  rw [deciding, Option.or_eq_some_iff] at h
  rcases h with h | ⟨_, h⟩
  · exact Or.inl (List.mem_of_mem_filter (List.mem_of_getLast? h))
  · exact Or.inr (List.mem_of_mem_filter (List.mem_of_getLast? h))

theorem Built.isComplete {ranges missing : List PropertyRange} {allowedValues : List String}
    {property : CompleteProperty} (h : Built ranges missing allowedValues property)
    (hsize : allowedValues.length ≤ 65536) : IsComplete allowedValues ranges missing property := by
  obtain ⟨sorted, hperm, hvalues, hoverlap, hrules, htable⟩ := h.built
  have hentry {codePoint : ℕ} (hlt : codePoint < codePointCount) :
      ∃ range, deciding missing sorted codePoint = some range ∧ range.value ∈ allowedValues ∧
        property.table codePoint = (allowedValues.idxOf range.value : ℕ) := by
    obtain ⟨range, hdeciding, hvalue⟩ := h.exists_deciding htable hlt
    have hmem : range.value ∈ allowedValues :=
      (mem_of_deciding hdeciding).elim (hvalues range) (hrules range)
    have hindex := Nat.lt_of_lt_of_le (List.idxOf_lt_length_of_mem hmem) hsize
    have hcovered := h.covered codePoint hlt
    rw [hvalue, entrySpan_value] at hcovered
    rw [hvalue, entrySpan_value]
    exact ⟨range, hdeciding, hmem, toInt16_of_lt hindex hcovered⟩
  have hvalueOf {codePoint : ℕ} (hlt : codePoint < codePointCount) :
      ∃ range, deciding missing sorted codePoint = some range ∧ range.value ∈ allowedValues ∧
        property.valueAt allowedValues codePoint = range.value := by
    obtain ⟨range, hdeciding, hmem, hvalue⟩ := hentry hlt
    refine ⟨range, hdeciding, hmem, ?_⟩
    rw [CompleteProperty.valueAt, valueOf, hvalue, Int.toNat_natCast,
      List.getElem?_eq_getElem (List.idxOf_lt_length_of_mem hmem), List.getElem_idxOf]
    rfl
  have hbounds {codePoint : ℕ} (hlt : codePoint < codePointCount) :
      0 ≤ property.table codePoint ∧ (property.table codePoint).toNat < allowedValues.length := by
    obtain ⟨range, _, hmem, hvalue⟩ := hentry hlt
    rw [hvalue, Int.toNat_natCast]
    exact ⟨Int.natCast_nonneg _, List.idxOf_lt_length_of_mem hmem⟩
  obtain ⟨label, hcounts⟩ := h.counts_eq
  have hstart : Counted allowedValues 0 ⟨fun _ => 0, fun _ => 0⟩ := ⟨by simp, by simp [scalarsBelow]⟩
  obtain ⟨result, hresult, hcounted⟩ := countFrom_counted h.nodup label codePointCount
    hstart fun c _ hc => by
      rw [Nat.zero_add] at hc
      obtain ⟨range, _, hmem, hvalue⟩ := hvalueOf hc
      refine ⟨(hbounds hc).1, ?_⟩
      rw [CompleteProperty.valueAt] at hvalue
      rw [hvalue]
      exact hmem
  rw [hcounts] at hresult
  obtain rfl := Except.ok.inj hresult
  rw [Nat.zero_add] at hcounted
  refine ⟨?_, ?_, hcounted.counts_sum, ?_⟩
  · intro codePoint hlt
    obtain ⟨range, hdeciding, _, hvalue⟩ := hvalueOf hlt
    rw [hvalue]
    exact decides_of_deciding hperm hoverlap hdeciding
  · rw [h.ranges_eq]
    exact areRuns_completeRanges h.nodup fun c hc => hbounds hc
  · rw [hcounted.scalarCounts_sum]
    rfl

attribute [local irreducible] codePointCount

def wholeRule (value : String) : PropertyRange := ⟨0, maxCodePoint, value, 1⟩

theorem deciding_wholeRule (value : String) {codePoint : ℕ} (hlt : codePoint < codePointCount) :
    deciding [wholeRule value] [] codePoint = some (wholeRule value) := by
  have hcontains : (wholeRule value).Contains codePoint :=
    ⟨Nat.zero_le _, Nat.lt_succ_iff.mp (Nat.lt_of_lt_of_eq hlt codePointCount_eq)⟩
  rw [deciding, hits, hits, List.filter_nil, List.filter_cons, if_pos (decide_eq_true hcontains),
    List.filter_nil]
  rfl

theorem buildCompleteProperty_wraps {allowedValues : List String} (label : String)
    (hnodup : allowedValues.Nodup) {i : ℕ} (hi : i < allowedValues.length) (hwrap : toInt16 i = 0) :
    ∃ property, buildCompleteProperty [] [wholeRule allowedValues[i]] allowedValues label =
      .ok property ∧ ∀ codePoint < codePointCount, property.table codePoint = 0 := by
  obtain ⟨table, htableEq⟩ :
      ∃ table, table = buildTable allowedValues [wholeRule allowedValues[i]] [] := ⟨_, rfl⟩
  have htable {codePoint : ℕ} (hlt : codePoint < codePointCount) : table codePoint = 0 := by
    rw [htableEq, buildTable_eq, deciding_wholeRule _ hlt, Option.map_some, Option.getD_some,
      entrySpan_value, wholeRule, hnodup.idxOf_getElem, hwrap]
  have hpositive : 0 < allowedValues.length := Nat.zero_lt_of_lt hi
  have hfirst : valueOf allowedValues 0 ∈ allowedValues := by
    rw [valueOf, Int.toNat_zero, List.getElem?_eq_getElem hpositive, Option.getD_some]
    exact List.getElem_mem hpositive
  have hstart : Counted allowedValues 0 ⟨fun _ => 0, fun _ => 0⟩ :=
    ⟨by simp, by simp [scalarsBelow]⟩
  have hentries (c : ℕ) (_ : 0 ≤ c) (hc : c < 0 + codePointCount) :
      0 ≤ table c ∧ valueOf allowedValues (table c) ∈ allowedValues := by
    rw [Nat.zero_add] at hc
    rw [htable hc]
    exact ⟨Int.le_refl 0, hfirst⟩
  obtain ⟨counts, hcounts, _⟩ := countFrom_counted hnodup label codePointCount hstart
    hentries
  have hruns : AreRuns (fun c => valueOf allowedValues (table c)) 0 codePointCount
      (completeRanges allowedValues table) := by
    apply areRuns_completeRanges hnodup
    intro c hc
    rw [htable hc]
    exact ⟨Int.le_refl 0, hpositive⟩
  have hvalues : ∀ run ∈ completeRanges allowedValues table, run.value ∈ allowedValues := by
    intro run hrun
    obtain ⟨hlt, hvalue⟩ := hruns.entry_start hrun
    rw [htable hlt] at hvalue
    rw [← hvalue]
    exact hfirst
  refine ⟨⟨table, completeRanges allowedValues table, 0, 1, counts.counts, counts.scalarCounts⟩, ?_,
    fun c hc => htable hc⟩
  have hnonempty : allowedValues.isEmpty = false := by
    rw [List.isEmpty_eq_false_iff]
    exact List.ne_nil_of_length_pos hpositive
  have hsorted : validateExplicitRanges [] allowedValues label = .ok [] := by
    rw [validateExplicitRanges, List.mergeSort_nil]
    rfl
  have hmissing : checkMissing allowedValues label [wholeRule allowedValues[i]] = .ok () := by
    simp only [checkMissing, bind_ok, throwWhen_ok, exists_unit, Bool.not_eq_false',
      List.contains_eq_mem, decide_eq_true_eq]
    exact ⟨List.getElem_mem hi, trivial⟩
  have hassert :
      assertCompleteRangeTable (completeRanges allowedValues table) allowedValues label = .ok () := by
    simp only [assertCompleteRangeTable, bind_ok, throwWhen_ok, exists_unit]
    refine ⟨?_, checkComplete_of_areRuns hruns hvalues⟩
    rw [List.isEmpty_eq_false_iff]
    intro hempty
    rw [hempty] at hruns
    exact absurd hruns (Nat.ne_of_lt codePointCount_pos)
  simp only [buildCompleteProperty, bind_ok, throwWhen_ok, exists_unit, pure_ok,
    Bool.or_eq_false_iff, decide_eq_false_iff_not, not_not]
  exact ⟨⟨hnonempty, hnodup⟩, [], hsorted, rfl, hmissing, counts, htableEq ▸ hcounts,
    htableEq ▸ hassert, by rw [htableEq]; rfl⟩

/-- An accepted build is complete; uncovered code points and overlapping ranges are refused. -/
def BuildsComplete (allowedValues : List String) (label : String) : Prop :=
  (∀ ranges missing property,
    buildCompleteProperty ranges missing allowedValues label = .ok property →
    IsComplete allowedValues ranges missing property) ∧
  (∀ ranges missing codePoint, codePoint < codePointCount → hits ranges codePoint = [] →
    hits missing codePoint = [] → ∀ property,
    buildCompleteProperty ranges missing allowedValues label ≠ .ok property) ∧
  ∀ ranges missing, ¬NoOverlap ranges → ∀ property,
    buildCompleteProperty ranges missing allowedValues label ≠ .ok property

theorem Built.covers {ranges missing : List PropertyRange} {allowedValues : List String}
    {property : CompleteProperty} (h : Built ranges missing allowedValues property) {codePoint : ℕ}
    (hlt : codePoint < codePointCount) (hranges : hits ranges codePoint = []) :
    hits missing codePoint ≠ [] := by
  obtain ⟨sorted, hperm, _, _, _, htable⟩ := h.built
  obtain ⟨range, hdeciding, _⟩ := h.exists_deciding htable hlt
  intro hmissing
  have hhits : (hits sorted codePoint).Perm (hits ranges codePoint) := hperm.filter _
  rw [hranges, List.perm_nil] at hhits
  rw [deciding, hhits, hmissing] at hdeciding
  cases hdeciding

theorem not_decides_first {allowedValues : List String} (hnodup : allowedValues.Nodup) {i : ℕ}
    (hi : i < allowedValues.length) (hne : i ≠ 0) {codePoint : ℕ} (hlt : codePoint < codePointCount) :
    ¬Decides [wholeRule allowedValues[i]] [] codePoint (valueOf allowedValues 0) := by
  have hpositive : 0 < allowedValues.length := Nat.zero_lt_of_lt hi
  intro h
  rcases h with ⟨range, hrange, _⟩ | ⟨_, rule, hrule, hvalue⟩
  · cases hrange
  · have hdeciding := deciding_wholeRule allowedValues[i] hlt
    have hempty : hits [] codePoint = [] := rfl
    rw [deciding, hempty, List.getLast?_nil, Option.none_or, hrule, Option.some.injEq] at hdeciding
    rw [hdeciding, wholeRule, valueOf, Int.toNat_zero, List.getElem?_eq_getElem hpositive,
      Option.getD_some] at hvalue
    exact hne ((hnodup.getElem_inj_iff).mp hvalue)

theorem not_buildsComplete {allowedValues : List String} (label : String)
    (hnodup : allowedValues.Nodup) (hsize : 65536 < allowedValues.length) :
    ¬BuildsComplete allowedValues label := by
  intro h
  have hwrap : toInt16 65536 = 0 := Int.bmod_self
  obtain ⟨property, hproperty, htable⟩ := buildCompleteProperty_wraps label hnodup hsize hwrap
  have hvalue := (h.1 _ _ _ hproperty).decides 0 codePointCount_pos
  rw [CompleteProperty.valueAt, htable 0 codePointCount_pos] at hvalue
  exact not_decides_first hnodup hsize (by decide) codePointCount_pos hvalue

/-- Values are told apart by sixteen bits. -/
theorem complete_property_law (allowedValues : List String) (label : String) :
    BuildsComplete allowedValues label ↔ (allowedValues.Nodup → allowedValues.length ≤ 65536) := by
  constructor
  · intro h hnodup
    by_contra hsize
    exact not_buildsComplete label hnodup (Nat.lt_of_not_le hsize) h
  · intro hsize
    refine ⟨?_, ?_, ?_⟩
    · intro ranges missing property hproperty
      have hbuilt := buildCompleteProperty_ok hproperty
      exact hbuilt.isComplete (hsize hbuilt.nodup)
    · intro ranges missing codePoint hlt hranges hmissing property hproperty
      exact (buildCompleteProperty_ok hproperty).covers hlt hranges hmissing
    · intro ranges missing hoverlap property hproperty
      obtain ⟨sorted, hperm, _, hsorted, _⟩ := (buildCompleteProperty_ok hproperty).built
      exact hoverlap (hsorted.perm hperm)

def manyValues (n : ℕ) : List String :=
  (List.range n).map fun i => String.ofList (List.replicate i 'v')

theorem nodup_manyValues (n : ℕ) : (manyValues n).Nodup := by
  apply List.Nodup.map _ List.nodup_range
  intro i j h
  have hlists := String.ofList_injective h
  rw [← List.length_replicate (n := i) (a := 'v'), hlists, List.length_replicate]

theorem many_values_not_complete : ¬BuildsComplete (manyValues 65537) "property" := by
  apply not_buildsComplete "property" (nodup_manyValues _)
  rw [manyValues, List.length_map, List.length_range]
  decide

end GhostBridge.UnicodeData
