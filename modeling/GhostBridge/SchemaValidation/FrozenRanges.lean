import GhostBridge.Ecma.Outcome
import GhostBridge.Ecma.Value

/-!
# Frozen range tables

The generated tables of Unicode properties are lists of ranges, each an array of a first code point,
a last one and perhaps a value.
-/

namespace GhostBridge.SchemaValidation

open Ecma

namespace FrozenRanges

def maxCodePoint : ℤ := 0x10ffff

def codePointCount : ℤ := maxCodePoint + 1

/-- `range.length` of an array; what is no array has no elements. -/
def items : Value → List Value
  | .array items => items
  | _ => []

def item (range : Value) (index : ℕ) : Value := ((items range)[index]?).getD .undefined

/-- `range[0]` and `range[1]`, where both are integers. -/
def bounds (range : Value) : Option (ℤ × ℤ) := do
  let start ← (item range 0).integer?
  let last ← (item range 1).integer?
  return (start, last)

def valueOf (range : Value) : Value :=
  if (items range).length = 2 then .bool true else item range 2

/-- The conditions of `assertCompleteRanges` on one range. -/
def continues (allowed : List Text) (next : ℤ) (range : Value) : Bool :=
  range.isArray && (items range).length == 3 &&
    (bounds range).any (fun b => b.1 == next && b.1 ≤ b.2 && b.2 ≤ maxCodePoint) &&
    allowed.any (fun value => item range 2 == .string value)

/-- The conditions of `assertSparseRanges` on one range. -/
def follows (validateValue : Value → Bool) (previousEnd : ℤ) (range : Value) : Bool :=
  range.isArray && 2 ≤ (items range).length && (items range).length ≤ 3 &&
    (bounds range).any (fun b => previousEnd < b.1 && b.1 ≤ b.2 && b.2 ≤ maxCodePoint) &&
    validateValue (item range 2)

/-- `range[1]`, of a range that passed. -/
def lastOf (range : Value) : ℤ := ((bounds range).map Prod.snd).getD 0

def checkComplete (allowed : List Text) (label : String) : ℤ → List Value → Except String Unit
  | next, [] =>
    throwWhen (next != codePointCount) (label ++ " does not cover every Unicode code point")
  | next, range :: rest => do
    throwWhen (!continues allowed next range) (label ++ " is not a complete ordered range table")
    checkComplete allowed label (lastOf range + 1) rest

def assertCompleteRanges (ranges : Value) (allowedValues : List Text) (label : String) :
    Except String Unit := do
  throwWhen (!ranges.isArray || (items ranges).isEmpty) (label ++ " is empty")
  checkComplete allowedValues label 0 (items ranges)

def checkSparse (validateValue : Value → Bool) (label : String) :
    ℤ → List Value → Except String Unit
  | _, [] => .ok ()
  | previousEnd, range :: rest => do
    throwWhen (!follows validateValue previousEnd range)
      (label ++ " is not an ordered non-overlapping range table")
    checkSparse validateValue label (lastOf range) rest

def assertSparseRanges (ranges : Value) (label : String) (validateValue : Value → Bool) :
    Except String Unit := do
  throwWhen (!ranges.isArray) (label ++ " is not an array")
  checkSparse validateValue label (-1) (items ranges)

/-- `n >> 1`, on the 32 bits that the operator keeps of a number. -/
def shiftRightOne (n : ℤ) : ℤ := n.bmod (2 ^ 32) / 2

inductive SearchFailure where
  | unfinished
  /-- It read an element that the table does not have, or bounds that are no integers. -/
  | unreadable
deriving DecidableEq

def rangeAt (ranges : List Value) (position : ℤ) : Option Value :=
  if position < 0 then none else ranges[position.toNat]?

/-- The loop of `rangeValue`, for so many tests of its condition. -/
def search (ranges : List Value) (codePoint : ℤ) (fallback : Value) :
    ℕ → ℤ → ℤ → Except SearchFailure Value
  | 0, _, _ => .error .unfinished
  | steps + 1, lower, upper =>
    if lower ≤ upper then do
      let middle := shiftRightOne (lower + upper)
      let range ← orThrow .unreadable (rangeAt ranges middle)
      let (start, last) ← orThrow .unreadable (bounds range)
      if codePoint < start then search ranges codePoint fallback steps lower (middle - 1)
      else if last < codePoint then search ranges codePoint fallback steps (middle + 1) upper
      else .ok (valueOf range)
    else .ok fallback

def rangeValue (ranges : Value) (codePoint : ℤ) (fallback : Value) (steps : ℕ) :
    Except SearchFailure Value :=
  search (items ranges) codePoint fallback steps 0 ((items ranges).length - 1)

/-- A range holds the code points from its first to its last. -/
def Holds (range : Value) (codePoint : ℤ) : Prop :=
  ∃ b ∈ bounds range, b.1 ≤ codePoint ∧ codePoint ≤ b.2

/-- Ranges behind a code point, each behind the one before it, up to the last code point. -/
def Ordered : ℤ → List Value → Prop
  | _, [] => True
  | previousEnd, range :: rest =>
    ∃ start last, bounds range = some (start, last) ∧ previousEnd < start ∧ start ≤ last ∧
      last ≤ maxCodePoint ∧ Ordered last rest

theorem lastOf_eq {range : Value} {start last : ℤ} (h : bounds range = some (start, last)) :
    lastOf range = last := by
  simp [lastOf, h]

theorem follows_bounds {validateValue : Value → Bool} {previousEnd : ℤ} {range : Value}
    (h : follows validateValue previousEnd range = true) :
    ∃ start last, bounds range = some (start, last) ∧ previousEnd < start ∧ start ≤ last ∧
      last ≤ maxCodePoint := by
  simp only [follows, Bool.and_eq_true, Option.any_eq_true, decide_eq_true_eq] at h
  obtain ⟨⟨-, ⟨start, last⟩, hbounds, ⟨hstart, hle⟩, hlast⟩, -⟩ := h
  exact ⟨start, last, hbounds, hstart, hle, hlast⟩

theorem continues_bounds {allowed : List Text} {next : ℤ} {range : Value}
    (h : continues allowed next range = true) :
    ∃ last, bounds range = some (next, last) ∧ next ≤ last ∧ last ≤ maxCodePoint := by
  simp only [continues, Bool.and_eq_true, Option.any_eq_true, decide_eq_true_eq, beq_iff_eq] at h
  obtain ⟨⟨-, ⟨start, last⟩, hbounds, ⟨hstart, hle⟩, hlast⟩, -⟩ := h
  simp only at hstart hle hlast
  subst hstart
  exact ⟨last, hbounds, hle, hlast⟩

theorem checkSparse_ordered {validateValue : Value → Bool} {label : String} {previousEnd : ℤ}
    {ranges : List Value} (h : checkSparse validateValue label previousEnd ranges = .ok ()) :
    Ordered previousEnd ranges := by
  induction ranges generalizing previousEnd with
  | nil => trivial
  | cons range rest ih =>
    simp only [checkSparse, bind_ok, throwWhen_ok, exists_unit, Bool.not_eq_false'] at h
    obtain ⟨start, last, hbounds, hstart, hle, hlast⟩ := follows_bounds h.1
    have hrest := ih h.2
    rw [lastOf_eq hbounds] at hrest
    exact ⟨start, last, hbounds, hstart, hle, hlast, hrest⟩

theorem checkComplete_ordered {allowed : List Text} {label : String} {next : ℤ}
    {ranges : List Value} (h : checkComplete allowed label next ranges = .ok ()) :
    Ordered (next - 1) ranges ∧
      ∀ codePoint, next ≤ codePoint → codePoint ≤ maxCodePoint →
        ∃ range ∈ ranges, Holds range codePoint := by
  induction ranges generalizing next with
  | nil =>
    simp only [checkComplete, throwWhen_ok, bne_eq_false_iff_eq] at h
    refine ⟨trivial, ?_⟩
    intro codePoint hnext hmax
    simp only [codePointCount] at h
    omega
  | cons range rest ih =>
    simp only [checkComplete, bind_ok, throwWhen_ok, exists_unit, Bool.not_eq_false'] at h
    obtain ⟨last, hbounds, hle, hlast⟩ := continues_bounds h.1
    have hrest := ih h.2
    rw [lastOf_eq hbounds, Int.add_sub_cancel] at hrest
    refine ⟨⟨next, last, hbounds, by omega, hle, hlast, hrest.1⟩, ?_⟩
    intro codePoint hnext hmax
    by_cases hcode : codePoint ≤ last
    · exact ⟨range, List.mem_cons_self, (next, last), hbounds, hnext, hcode⟩
    · obtain ⟨found, hmem, hholds⟩ := hrest.2 codePoint (by omega) hmax
      exact ⟨found, List.mem_cons_of_mem _ hmem, hholds⟩

theorem Ordered.length_le {previousEnd : ℤ} {ranges : List Value} (h : Ordered previousEnd ranges)
    (hlow : previousEnd ≤ maxCodePoint) : ranges.length ≤ maxCodePoint - previousEnd := by
  induction ranges generalizing previousEnd with
  | nil => simpa using hlow
  | cons range rest ih =>
    obtain ⟨start, last, -, hstart, hle, hlast, hrest⟩ := h
    have := ih hrest hlast
    simp only [List.length_cons, Nat.cast_add, Nat.cast_one]
    omega

theorem Ordered.getElem_bounds {previousEnd : ℤ} {ranges : List Value}
    (h : Ordered previousEnd ranges) {i : ℕ} (hi : i < ranges.length) :
    ∃ start last, bounds ranges[i] = some (start, last) ∧ previousEnd < start ∧ start ≤ last := by
  induction ranges generalizing previousEnd i with
  | nil => cases hi
  | cons range rest ih =>
    obtain ⟨start, last, hbounds, hstart, hle, -, hrest⟩ := h
    cases i with
    | zero => exact ⟨start, last, hbounds, hstart, hle⟩
    | succ i =>
      obtain ⟨start', last', hbounds', hstart', hle'⟩ := ih hrest (Nat.lt_of_succ_lt_succ hi)
      exact ⟨start', last', hbounds', by omega, hle'⟩

theorem Ordered.lt_start {previousEnd : ℤ} {ranges : List Value} (h : Ordered previousEnd ranges)
    {i j : ℕ} (hij : i < j) (hj : j < ranges.length) {start last start' last' : ℤ}
    (hi : bounds ranges[i] = some (start, last)) (hj' : bounds ranges[j] = some (start', last')) :
    last < start' := by
  induction ranges generalizing previousEnd i j with
  | nil => cases hj
  | cons range rest ih =>
    obtain ⟨first, final, hbounds, -, -, -, hrest⟩ := h
    cases j with
    | zero => cases hij
    | succ j =>
      have hj := Nat.lt_of_succ_lt_succ hj
      simp only [List.getElem_cons_succ] at hj'
      cases i with
      | zero =>
        obtain ⟨s, l, hsl, hlt, -⟩ := hrest.getElem_bounds hj
        simp only [List.getElem_cons_zero, hbounds, Option.some.injEq, Prod.mk.injEq] at hi
        rw [hsl, Option.some.injEq, Prod.mk.injEq] at hj'
        omega
      | succ i => exact ih hrest (Nat.lt_of_succ_lt_succ hij) hj hi hj'

/-- The value of the only range that holds the code point, or the fallback where none does. -/
def Finds (ranges : List Value) (codePoint : ℤ) (fallback value : Value) : Prop :=
  (∃ (i : ℕ) (h : i < ranges.length), Holds ranges[i] codePoint ∧
    (∀ (j : ℕ) (hj : j < ranges.length), Holds ranges[j] codePoint → j = i) ∧
      value = valueOf ranges[i]) ∨
    (∀ range ∈ ranges, ¬Holds range codePoint) ∧ value = fallback

theorem Ordered.finds {previousEnd codePoint : ℤ} {ranges : List Value} {fallback : Value}
    (h : Ordered previousEnd ranges) {i : ℕ} (hi : i < ranges.length)
    (hholds : Holds ranges[i] codePoint) :
    Finds ranges codePoint fallback (valueOf ranges[i]) := by
  left
  refine ⟨i, hi, hholds, ?_, rfl⟩
  intro j hj hholds'
  obtain ⟨⟨start, last⟩, hbounds, hstart, hlast⟩ := hholds
  obtain ⟨⟨start', last'⟩, hbounds', hstart', hlast'⟩ := hholds'
  by_contra hne
  rcases Nat.lt_or_gt_of_ne hne with hlt | hgt
  · have := h.lt_start hlt hi hbounds' hbounds
    simp only at hstart hlast'
    omega
  · have := h.lt_start hgt hj hbounds hbounds'
    simp only at hstart' hlast
    omega

theorem shiftRightOne_eq {n : ℤ} (hn : 0 ≤ n) (hlt : n < 2 ^ 31) : shiftRightOne n = n / 2 := by
  have hbmod : n.bmod (2 ^ 32) = n := by
    apply Int.bmod_eq_of_le <;> omega
  rw [shiftRightOne, hbmod]

/-- Outside the window all ranges lie before or behind the code point. -/
structure Window (ranges : List Value) (codePoint lower upper : ℤ) : Prop where
  nonneg : 0 ≤ lower
  close : lower ≤ upper + 1
  bounded : upper < ranges.length
  before : ∀ (i : ℕ) (h : i < ranges.length) (start last : ℤ),
    bounds ranges[i] = some (start, last) → i < lower → last < codePoint
  behind : ∀ (i : ℕ) (h : i < ranges.length) (start last : ℤ),
    bounds ranges[i] = some (start, last) → upper < i → codePoint < start

theorem Window.not_holds {ranges : List Value} {codePoint lower upper : ℤ}
    (h : Window ranges codePoint lower upper) (hempty : upper < lower) :
    ∀ range ∈ ranges, ¬Holds range codePoint := by
  intro range hmem hholds
  obtain ⟨i, hi, rfl⟩ := List.mem_iff_getElem.mp hmem
  obtain ⟨⟨start, last⟩, hbounds, hstart, hlast⟩ := hholds
  simp only at hstart hlast
  by_cases hlt : (i : ℤ) < lower
  · have := h.before i hi start last hbounds hlt
    omega
  · have := h.behind i hi start last hbounds (by omega)
    omega

theorem search_finds {previousEnd codePoint : ℤ} {ranges : List Value} (fallback : Value)
    (hordered : Ordered previousEnd ranges) (hlength : (ranges.length : ℤ) < 2 ^ 30) (steps : ℕ)
    {lower upper : ℤ} (hwindow : Window ranges codePoint lower upper)
    (hsteps : upper + 1 < lower + steps) :
    ∃ value, search ranges codePoint fallback steps lower upper = .ok value ∧
      Finds ranges codePoint fallback value := by
  induction steps generalizing lower upper with
  | zero =>
    have hclose := hwindow.close
    omega
  | succ steps ih =>
    have hlow := hwindow.nonneg
    have hupp := hwindow.bounded
    unfold search
    by_cases hle : lower ≤ upper
    · have hshift : shiftRightOne (lower + upper) = (lower + upper) / 2 :=
        shiftRightOne_eq (by omega) (by omega)
      obtain ⟨middle, hmiddle⟩ : ∃ middle : ℕ, (lower + upper) / 2 = (middle : ℤ) :=
        ⟨((lower + upper) / 2).toNat, by omega⟩
      have hlt : middle < ranges.length := by omega
      obtain ⟨start, last, hbounds, -, -⟩ := hordered.getElem_bounds hlt
      have hat : rangeAt ranges (middle : ℤ) = some ranges[middle] := by
        simp [rangeAt, hlt]
      simp only [if_pos hle, hshift, hmiddle, hat, orThrow, ok_bind, hbounds]
      split
      next hbefore =>
        apply ih _ (by push_cast at hsteps ⊢; omega)
        refine ⟨hlow, by omega, by omega, hwindow.before, ?_⟩
        intro i hi start' last' hbounds' hlt'
        by_cases heq : i = middle
        · subst heq
          rw [hbounds, Option.some.injEq, Prod.mk.injEq] at hbounds'
          omega
        · have hlast := hordered.lt_start (by omega) hi hbounds hbounds'
          obtain ⟨s, l, hsl, -, hsle⟩ := hordered.getElem_bounds hlt
          rw [hbounds, Option.some.injEq, Prod.mk.injEq] at hsl
          omega
      next hbefore =>
        split
        next hbehind =>
          apply ih _ (by push_cast at hsteps ⊢; omega)
          refine ⟨by omega, by omega, hupp, ?_, hwindow.behind⟩
          intro i hi start' last' hbounds' hlt'
          by_cases heq : i = middle
          · subst heq
            rw [hbounds, Option.some.injEq, Prod.mk.injEq] at hbounds'
            omega
          · have hstart := hordered.lt_start (by omega) hlt hbounds' hbounds
            obtain ⟨s, l, hsl, -, hsle⟩ := hordered.getElem_bounds hlt
            rw [hbounds, Option.some.injEq, Prod.mk.injEq] at hsl
            omega
        next hbehind =>
          have hholds : Holds ranges[middle] codePoint :=
            ⟨(start, last), hbounds, by simp only; omega, by simp only; omega⟩
          exact ⟨valueOf ranges[middle], rfl, hordered.finds hlt hholds⟩
    · rw [if_neg hle]
      exact ⟨fallback, rfl, .inr ⟨hwindow.not_holds (by omega), rfl⟩⟩

theorem window_whole (ranges : List Value) (codePoint : ℤ) :
    Window ranges codePoint 0 (ranges.length - 1) where
  nonneg := le_refl 0
  close := by omega
  bounded := by omega
  before := by omega
  behind := by omega

theorem Ordered.rangeValue {ranges : Value} (h : Ordered (-1) (items ranges)) (codePoint : ℤ)
    (fallback : Value) {steps : ℕ} (hsteps : (items ranges).length < steps) :
    ∃ value, rangeValue ranges codePoint fallback steps = .ok value ∧
      Finds (items ranges) codePoint fallback value := by
  have hlength := h.length_le (by decide)
  apply search_finds fallback h _ steps (window_whole _ codePoint) (by omega)
  simp only [maxCodePoint] at hlength
  omega

theorem assertSparseRanges_ordered {ranges : Value} {label : String} {validateValue : Value → Bool}
    (h : assertSparseRanges ranges label validateValue = .ok ()) : Ordered (-1) (items ranges) := by
  simp only [assertSparseRanges, bind_ok, throwWhen_ok, exists_unit] at h
  exact checkSparse_ordered h.2

theorem assertCompleteRanges_ordered {ranges : Value} {allowedValues : List Text} {label : String}
    (h : assertCompleteRanges ranges allowedValues label = .ok ()) :
    Ordered (-1) (items ranges) ∧
      ∀ codePoint, 0 ≤ codePoint → codePoint ≤ maxCodePoint →
        ∃ range ∈ items ranges, Holds range codePoint := by
  simp only [assertCompleteRanges, bind_ok, throwWhen_ok, exists_unit] at h
  exact checkComplete_ordered h.2

/-- The search of an accepted table ends with the value of the range that holds the code point, or
with the fallback where no range does. A complete table has a range for every code point. -/
theorem range_search_law (ranges : Value) (label : String) (validateValue : Value → Bool)
    (allowedValues : List Text) (fallback : Value) (codePoint : ℕ) (steps : ℕ)
    (hcodePoint : codePoint ≤ maxCodePoint) (hsteps : (items ranges).length < steps) :
    (assertSparseRanges ranges label validateValue = .ok () →
      ∃ value, rangeValue ranges codePoint fallback steps = .ok value ∧
        Finds (items ranges) codePoint fallback value) ∧
    (assertCompleteRanges ranges allowedValues label = .ok () →
      ∃ value, rangeValue ranges codePoint fallback steps = .ok value ∧
        Finds (items ranges) codePoint fallback value ∧
        ∃ range ∈ items ranges, Holds range codePoint ∧ value = valueOf range) := by
  constructor
  · intro h
    exact (assertSparseRanges_ordered h).rangeValue codePoint fallback hsteps
  · intro h
    obtain ⟨hordered, hall⟩ := assertCompleteRanges_ordered h
    obtain ⟨value, hvalue, hfinds⟩ := hordered.rangeValue codePoint fallback hsteps
    refine ⟨value, hvalue, hfinds, ?_⟩
    obtain ⟨range, hmem, hholds⟩ := hall codePoint (by omega) hcodePoint
    rcases hfinds with ⟨i, hi, hholds', -, rfl⟩ | ⟨hnone, -⟩
    · exact ⟨(items ranges)[i], List.getElem_mem hi, hholds', rfl⟩
    · exact absurd hholds (hnone range hmem)

theorem integer?_of_safeInteger? {n : Number} {m : ℤ} (h : n.safeInteger? = some m) :
    (Value.number n).integer? = some m := by
  cases n with
  | finite x =>
    simp only [Number.safeInteger?, Option.ite_none_right_eq_some] at h
    rw [Value.integer?, if_pos h.1.1]
    exact h.2
  | _ => cases h

private def wholeRange : Value :=
  .array [.number (.ofNat 0), .number (.ofNat 0x10ffff), .string (ascii "PVALID")]

private theorem bounds_wholeRange : bounds wholeRange = some (0, 0x10ffff) := by
  have hfirst := integer?_of_safeInteger? (Number.safeInteger?_ofNat (show 0 < 2 ^ 53 by decide))
  have hlast :=
    integer?_of_safeInteger? (Number.safeInteger?_ofNat (show 0x10ffff < 2 ^ 53 by decide))
  change ((Value.number (.ofNat 0)).integer? >>= fun start =>
    (Value.number (.ofNat 0x10ffff)).integer? >>= fun last => some (start, last)) = _
  rw [hfirst, hlast]
  rfl

private theorem sparse_wholeRange :
    assertSparseRanges (.array [wholeRange]) "PVALID" (fun _ => true) = .ok () := by
  have hfollows : follows (fun _ => true) (-1) wholeRange = true := by
    rw [follows, bounds_wholeRange]
    rfl
  simp only [assertSparseRanges, items, checkSparse, hfollows]
  rfl

private theorem complete_wholeRange :
    assertCompleteRanges (.array [wholeRange]) [ascii "PVALID"] "PVALID" = .ok () := by
  have hcontinues : continues [ascii "PVALID"] 0 wholeRange = true := by
    rw [continues, bounds_wholeRange]
    decide
  simp only [assertCompleteRanges, items, checkComplete, hcontinues, lastOf, bounds_wholeRange]
  rfl

theorem range_search_law_whole :
    (∃ value, rangeValue (.array [wholeRange]) 65 .undefined 2 = .ok value ∧
      Finds [wholeRange] 65 .undefined value) ∧
    ∃ value, rangeValue (.array [wholeRange]) 65 .undefined 2 = .ok value ∧
      Finds [wholeRange] 65 .undefined value ∧
      ∃ range ∈ [wholeRange], Holds range 65 ∧ value = valueOf range :=
  ⟨(range_search_law (.array [wholeRange]) "PVALID" (fun _ => true) [ascii "PVALID"] .undefined 65 2
      (by decide) (by decide)).1 sparse_wholeRange,
    (range_search_law (.array [wholeRange]) "PVALID" (fun _ => true) [ascii "PVALID"] .undefined 65
      2 (by decide) (by decide)).2 complete_wholeRange⟩

end FrozenRanges

end GhostBridge.SchemaValidation
