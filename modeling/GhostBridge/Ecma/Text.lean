import Mathlib.Data.List.Basic
import Mathlib.Data.List.Sort
import Mathlib.Tactic.Common

/-!
# UTF-16 text

A JavaScript string is a sequence of UTF-16 code units, which may hold unpaired surrogates.
-/

namespace Ecma

abbrev Text := List UInt16

instance : LawfulBEq Text := inferInstance

def ascii (s : String) : Text := s.toByteArray.data.toList.map UInt8.toUInt16

def isHighSurrogate (u : UInt16) : Bool := 0xd800 ≤ u && u ≤ 0xdbff
def isLowSurrogate (u : UInt16) : Bool := 0xdc00 ≤ u && u ≤ 0xdfff

def Text.isWellFormed : Text → Bool
  | [] => true
  | [a] => !isHighSurrogate a && !isLowSurrogate a
  | a :: b :: rest =>
    if isHighSurrogate a then isLowSurrogate b && Text.isWellFormed rest
    else !isLowSurrogate a && Text.isWellFormed (b :: rest)

def Text.le : Text → Text → Bool
  | [], _ => true
  | _ :: _, [] => false
  | a :: as, b :: bs => a < b || (a == b && Text.le as bs)

theorem Text.le_total (a b : Text) : Text.le a b = true ∨ Text.le b a = true := by
  induction a generalizing b with
  | nil => exact Or.inl rfl
  | cons x xs ih =>
    cases b with
    | nil => exact Or.inr rfl
    | cons y ys =>
      simp only [Text.le, Bool.or_eq_true, decide_eq_true_eq, Bool.and_eq_true, beq_iff_eq]
      have h := ih ys
      by_cases hxy : x = y
      · subst hxy
        exact h.imp (fun h => Or.inr ⟨rfl, h⟩) (fun h => Or.inr ⟨rfl, h⟩)
      · exact (UInt16.lt_or_lt_of_ne hxy).imp Or.inl Or.inl

theorem Text.le_antisymm {a b : Text} (hab : Text.le a b = true) (hba : Text.le b a = true) :
    a = b := by
  induction a generalizing b with
  | nil =>
    cases b with
    | nil => rfl
    | cons y ys => simp [Text.le] at hba
  | cons x xs ih =>
    cases b with
    | nil => simp [Text.le] at hab
    | cons y ys =>
      simp only [Text.le, Bool.or_eq_true, decide_eq_true_eq, Bool.and_eq_true,
        beq_iff_eq] at hab hba
      rcases hab with h | ⟨rfl, h⟩
      · rcases hba with h' | ⟨rfl, _⟩
        · exact absurd h' (UInt16.lt_asymm h)
        · exact absurd h (UInt16.lt_irrefl y)
      · rcases hba with h' | ⟨_, h'⟩
        · exact absurd h' (UInt16.lt_irrefl x)
        · rw [ih h h']

theorem Text.le_trans {a b c : Text} (hab : Text.le a b = true) (hbc : Text.le b c = true) :
    Text.le a c = true := by
  induction a generalizing b c with
  | nil => rfl
  | cons x xs ih =>
    cases b with
    | nil => simp [Text.le] at hab
    | cons y ys =>
      cases c with
      | nil => simp [Text.le] at hbc
      | cons z zs =>
        simp only [Text.le, Bool.or_eq_true, decide_eq_true_eq, Bool.and_eq_true,
          beq_iff_eq] at hab hbc ⊢
        rcases hab with h | ⟨rfl, h⟩
        · rcases hbc with h' | ⟨rfl, _⟩
          · exact Or.inl (UInt16.lt_trans h h')
          · exact Or.inl h
        · rcases hbc with h' | ⟨rfl, h'⟩
          · exact Or.inl h'
          · exact Or.inr ⟨rfl, ih h h'⟩

/-- WhiteSpace and LineTerminator, which `trim` removes. -/
def isWhitespace (u : UInt16) : Bool :=
  (0x09 ≤ u && u ≤ 0x0d) || u == 0x20 || u == 0xa0 || u == 0x1680 || (0x2000 ≤ u && u ≤ 0x200a) ||
    u == 0x2028 || u == 0x2029 || u == 0x202f || u == 0x205f || u == 0x3000 || u == 0xfeff

/-- `!text.trim()`. -/
def Text.isBlank (text : Text) : Bool := text.all isWhitespace

theorem Text.append_cons_inj {separator : UInt16} {a b x y : Text} (ha : separator ∉ a)
    (hb : separator ∉ b) : a ++ separator :: x = b ++ separator :: y ↔ a = b ∧ x = y := by
  induction a generalizing b with
  | nil =>
    cases b with
    | nil => simp
    | cons v b =>
      simp only [List.mem_cons, not_or] at hb
      simp [hb.1]
  | cons u a ih =>
    cases b with
    | nil =>
      simp only [List.mem_cons, not_or] at ha
      simp [Ne.symm ha.1]
    | cons v b =>
      simp only [List.mem_cons, not_or] at ha hb
      simp only [List.cons_append, List.cons.injEq, ih ha.2 hb.2, and_assoc]

end Ecma

/-!
## Capital and small letters

`toUpperCase` and `toLowerCase` as far as a comparison with ASCII text can tell: a unit is mapped
to its capital where the capital has an ASCII letter, and to its small letter likewise. All other
units are mapped outside ASCII, and stay.
-/

namespace Ecma

def upperUnit (u : UInt16) : Text :=
  if 0x61 ≤ u && u ≤ 0x7a then [u - 0x20]
  else
    match u with
    | 0x00df => ascii "SS"
    | 0x0131 => ascii "I"
    | 0x0149 => 0x02bc :: ascii "N"
    | 0x017f => ascii "S"
    | 0x01f0 => [0x4a, 0x030c]
    | 0x1e96 => [0x48, 0x0331]
    | 0x1e97 => [0x54, 0x0308]
    | 0x1e98 => [0x57, 0x030a]
    | 0x1e99 => [0x59, 0x030a]
    | 0x1e9a => [0x41, 0x02be]
    | 0xfb00 => ascii "FF"
    | 0xfb01 => ascii "FI"
    | 0xfb02 => ascii "FL"
    | 0xfb03 => ascii "FFI"
    | 0xfb04 => ascii "FFL"
    | 0xfb05 => ascii "ST"
    | 0xfb06 => ascii "ST"
    | _ => [u]

def Text.toUpperCase (text : Text) : Text := text.flatMap upperUnit

def lowerUnit (u : UInt16) : Text :=
  if 0x41 ≤ u && u ≤ 0x5a then [u + 0x20]
  else
    match u with
    | 0x0130 => [0x69, 0x0307]
    | 0x212a => ascii "k"
    | _ => [u]

def Text.toLowerCase (text : Text) : Text := text.flatMap lowerUnit

/-- `text.trim()`. -/
def Text.trimmed (text : Text) : Text :=
  ((text.dropWhile isWhitespace).reverse.dropWhile isWhitespace).reverse

theorem Text.trimmed_of_forall {text : Text} (h : ∀ u ∈ text, isWhitespace u = false) :
    text.trimmed = text := by
  have hdrop (t : Text) (ht : ∀ u ∈ t, isWhitespace u = false) : t.dropWhile isWhitespace = t := by
    cases t with
    | nil => rfl
    | cons u t => rw [List.dropWhile_cons_of_neg (by simp [ht u List.mem_cons_self])]
  unfold trimmed
  rw [hdrop text h, hdrop text.reverse fun u hu => h u (List.mem_reverse.mp hu), List.reverse_reverse]

theorem upperUnit_of_lt {u : UInt16} (h : u < 0x61) : upperUnit u = [u] := by
  have hnot : ¬(0x61 ≤ u && u ≤ 0x7a) = true := by
    simp only [Bool.and_eq_true, decide_eq_true_eq, not_and]
    intro hle
    exact absurd hle (UInt16.not_le.mpr h)
  unfold upperUnit
  rw [if_neg hnot]
  split <;> first | rfl | exact absurd h (by decide)

theorem Text.toUpperCase_of_forall {text : Text} (h : ∀ u ∈ text, u < 0x61) :
    text.toUpperCase = text := by
  induction text with
  | nil => rfl
  | cons u text ih =>
    have hrest := ih fun v hv => h v (List.mem_cons_of_mem u hv)
    unfold toUpperCase at hrest ⊢
    rw [List.flatMap_cons, hrest, upperUnit_of_lt (h u List.mem_cons_self)]
    rfl

end Ecma

/-!
## Searching texts

`indexOf`, `lastIndexOf` and `split` of `String.prototype`, for a pattern that is not empty. A
pattern that occurs once splits a text into two parts.
-/

namespace Ecma

/-- `text.indexOf(pattern)`, with `none` for -1. -/
def Text.indexOf? (pattern : Text) : Text → Option ℕ
  | [] => none
  | u :: rest =>
    if pattern.isPrefixOf (u :: rest) then some 0 else (Text.indexOf? pattern rest).map (· + 1)

/-- `text.lastIndexOf(pattern)`, with `none` for -1. -/
def Text.lastIndexOf? (pattern : Text) : Text → Option ℕ
  | [] => none
  | u :: rest =>
    match Text.lastIndexOf? pattern rest with
    | some i => some (i + 1)
    | none => if pattern.isPrefixOf (u :: rest) then some 0 else none

def Text.includes (pattern text : Text) : Bool := (Text.indexOf? pattern text).isSome

private def splitWithin (separator : Text) : ℕ → Text → List Text
  | 0, text => [text]
  | fuel + 1, text =>
    match Text.indexOf? separator text with
    | none => [text]
    | some i => text.take i :: splitWithin separator fuel (text.drop (i + separator.length))

/-- `text.split(separator)`. Each part uses up a unit of the text. -/
def Text.splitAround (separator text : Text) : List Text := splitWithin separator text.length text

variable {pattern text : Text}

theorem indexOf?_none_iff :
    Text.indexOf? pattern text = none ↔ Text.lastIndexOf? pattern text = none := by
  induction text with
  | nil => simp [Text.indexOf?, Text.lastIndexOf?]
  | cons u rest ih =>
    unfold Text.indexOf? Text.lastIndexOf?
    by_cases h : pattern.isPrefixOf (u :: rest) = true
    · rw [if_pos h]
      cases Text.lastIndexOf? pattern rest with
      | none => simp [h]
      | some i => simp
    · rw [if_neg h, Option.map_eq_none_iff, ih]
      cases Text.lastIndexOf? pattern rest with
      | none => simp [h]
      | some i => simp

theorem split_of_indexOf? {i : ℕ} (h : Text.indexOf? pattern text = some i) :
    text = text.take i ++ pattern ++ text.drop (i + pattern.length) := by
  induction text generalizing i with
  | nil => cases h
  | cons u rest ih =>
    unfold Text.indexOf? at h
    split at h
    next hprefix =>
      cases h
      obtain ⟨behind, hbehind⟩ := List.isPrefixOf_iff_prefix.mp hprefix
      rw [← hbehind]
      simp
    next =>
      obtain ⟨j, hj, rfl⟩ := Option.map_eq_some_iff.mp h
      have hrest := ih hj
      rw [List.take_succ_cons, Nat.add_right_comm, List.drop_succ_cons, List.cons_append,
        List.cons_append, ← hrest]

theorem lastIndexOf?_append_of_some (before : Text) {i : ℕ}
    (h : Text.lastIndexOf? pattern text = some i) :
    Text.lastIndexOf? pattern (before ++ text) = some (before.length + i) := by
  induction before with
  | nil => simpa using h
  | cons u before ih =>
    rw [List.cons_append, Text.lastIndexOf?, ih]
    simp only [List.length_cons]
    congr 1
    omega

theorem indexOf?_drop_of_last (hpattern : pattern ≠ []) {i : ℕ}
    (hfirst : Text.indexOf? pattern text = some i)
    (hlast : Text.lastIndexOf? pattern text = some i) :
    Text.indexOf? pattern (text.drop (i + pattern.length)) = none := by
  rw [indexOf?_none_iff]
  cases hbehind : Text.lastIndexOf? pattern (text.drop (i + pattern.length)) with
  | none => rfl
  | some j =>
    have hsplit := split_of_indexOf? hfirst
    have hlater := lastIndexOf?_append_of_some (text.take i ++ pattern) hbehind
    rw [← hsplit, hlast, List.length_append] at hlater
    have hpos := List.length_pos_iff.mpr hpattern
    have hlength := congrArg List.length hsplit
    simp only [List.length_append, List.length_take, List.length_drop] at hlength
    simp only [Option.some.injEq, List.length_take] at hlater
    omega

theorem splitAround_of_once (hpattern : pattern ≠ []) {i : ℕ}
    (hfirst : Text.indexOf? pattern text = some i)
    (hlast : Text.lastIndexOf? pattern text = some i) :
    Text.splitAround pattern text = [text.take i, text.drop (i + pattern.length)] := by
  have hbehind := indexOf?_drop_of_last hpattern hfirst hlast
  cases text with
  | nil => cases hfirst
  | cons u rest =>
    rw [Text.splitAround, List.length_cons, splitWithin, hfirst]
    cases hlength : rest.length with
    | zero => rfl
    | succ n => simp only [splitWithin, hbehind]

end Ecma
