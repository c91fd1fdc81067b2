import GhostBridge.Ecma.Text
import Mathlib.Logic.Basic

/-!
# Regular expressions

The regular fragment of RegExp over code units, matched by derivatives.
-/

namespace Ecma

inductive Regex where
  | none
  | empty
  | unit (p : UInt16 → Bool)
  | seq (r s : Regex)
  | alt (r s : Regex)
  | star (r : Regex)

namespace Regex

def Language : Regex → Text → Prop
  | .none, _ => False
  | .empty, text => text = []
  | .unit p, text => ∃ u, p u = true ∧ text = [u]
  | .seq r s, text => ∃ a b, text = a ++ b ∧ Language r a ∧ Language s b
  | .alt r s, text => Language r text ∨ Language s text
  | .star r, text => ∃ parts : List Text, (∀ part ∈ parts, Language r part) ∧ text = parts.flatten

def nullable : Regex → Bool
  | .none => false
  | .empty => true
  | .unit _ => false
  | .seq r s => r.nullable && s.nullable
  | .alt r s => r.nullable || s.nullable
  | .star _ => true

/-- `seq`, without the sequences that a part makes trivial. -/
def thenMatch (r s : Regex) : Regex :=
  match r with
  | .none => .none
  | .empty => s
  | r => .seq r s

/-- `alt`, without the alternative that matches nothing. -/
def orMatch (r s : Regex) : Regex :=
  match r, s with
  | .none, s => s
  | r, .none => r
  | r, s => .alt r s

def deriv (u : UInt16) : Regex → Regex
  | .none => .none
  | .empty => .none
  | .unit p => if p u then .empty else .none
  | .seq r s =>
    if r.nullable then orMatch (thenMatch (r.deriv u) s) (s.deriv u) else thenMatch (r.deriv u) s
  | .alt r s => orMatch (r.deriv u) (s.deriv u)
  | .star r => thenMatch (r.deriv u) (.star r)

def accepts (r : Regex) : Text → Bool
  | [] => r.nullable
  | u :: rest => accepts (r.deriv u) rest

def startsMatch (r : Regex) : Text → Bool
  | [] => r.nullable
  | u :: rest => r.nullable || startsMatch (r.deriv u) rest

/-- `pattern.test(text)` for a pattern without anchors. -/
def test (r : Regex) : Text → Bool
  | [] => r.nullable
  | u :: rest => startsMatch r (u :: rest) || test r rest

def range (low high : UInt16) (u : UInt16) : Bool := low ≤ u && u ≤ high

def oneOf (units : Text) : Regex := .unit units.contains

def literal : Text → Regex
  | [] => .empty
  | [u] => .unit (· == u)
  | u :: rest => .seq (.unit (· == u)) (literal rest)

def lowerAscii (u : UInt16) : UInt16 := if 0x41 ≤ u && u ≤ 0x5a then u + 0x20 else u

/-- A literal under the flag `i`, for units of ASCII. -/
def caseless : Text → Regex
  | [] => .empty
  | [u] => .unit fun v => lowerAscii v == lowerAscii u
  | u :: rest => .seq (.unit fun v => lowerAscii v == lowerAscii u) (caseless rest)

def option (r : Regex) : Regex := .alt .empty r
def plus (r : Regex) : Regex := .seq r (.star r)

/-- At most `count` times. -/
def upTo (r : Regex) : Nat → Regex
  | 0 => .empty
  | count + 1 => .alt .empty (.seq r (upTo r count))

def sequence : List Regex → Regex
  | [] => .empty
  | [r] => r
  | r :: rest => .seq r (sequence rest)

def anyOf : List Regex → Regex
  | [] => .none
  | [r] => r
  | r :: rest => .alt r (anyOf rest)

section

attribute [local simp] Language

theorem language_thenMatch (r s : Regex) (text : Text) :
    (thenMatch r s).Language text ↔ (Regex.seq r s).Language text := by
  cases r with
  | none => simp [thenMatch]
  | empty => simp [thenMatch]
  | _ => rfl

theorem language_orMatch (r s : Regex) (text : Text) :
    (orMatch r s).Language text ↔ r.Language text ∨ s.Language text := by
  cases r <;> cases s <;> simp [orMatch]

theorem nullable_iff (r : Regex) : r.nullable = true ↔ r.Language [] := by
  induction r with
  | none => simp [nullable]
  | empty => simp [nullable]
  | unit p => simp [nullable]
  | seq r s ihr ihs => simp [nullable, ihr, ihs]
  | alt r s ihr ihs => simp [nullable, ihr, ihs]
  | star r _ =>
    simp only [nullable, Language, true_iff]
    exact ⟨[], by simp⟩

end

private theorem star_cons (r : Regex) (u : UInt16) (rest : Text) :
    (Regex.star r).Language (u :: rest) ↔
      ∃ a b, rest = a ++ b ∧ r.Language (u :: a) ∧ (Regex.star r).Language b := by
  simp only [Language]
  constructor
  · rintro ⟨parts, hparts, he⟩
    induction parts with
    | nil => cases he
    | cons part parts ih =>
      rw [List.forall_mem_cons] at hparts
      cases part with
      | nil => exact ih hparts.2 (by simpa using he)
      | cons v a =>
        rw [List.flatten_cons, List.cons_append, List.cons.injEq] at he
        obtain ⟨rfl, rfl⟩ := he
        exact ⟨a, parts.flatten, rfl, hparts.1, parts, hparts.2, rfl⟩
  · rintro ⟨a, b, rfl, hr, parts, hparts, rfl⟩
    exact ⟨(u :: a) :: parts, List.forall_mem_cons.mpr ⟨hr, hparts⟩, rfl⟩

theorem deriv_iff (r : Regex) (u : UInt16) (rest : Text) :
    (r.deriv u).Language rest ↔ r.Language (u :: rest) := by
  induction r generalizing rest with
  | none => simp [deriv, Language]
  | empty => simp [deriv, Language]
  | unit p =>
    unfold deriv
    split <;> simp [Language, *]
  | alt r s ihr ihs => rw [deriv, language_orMatch, ihr, ihs, Language]
  | star r ih =>
    rw [deriv, language_thenMatch, star_cons]
    simp only [Language.eq_4, ih]
  | seq r s ihr ihs =>
    have hsplit : (Regex.seq r s).Language (u :: rest) ↔
        (∃ a b, rest = a ++ b ∧ r.Language (u :: a) ∧ s.Language b) ∨
          (r.Language [] ∧ s.Language (u :: rest)) := by
      simp only [Language]
      constructor
      · rintro ⟨a, b, he, hr, hs⟩
        cases a with
        | nil => exact Or.inr ⟨hr, he ▸ hs⟩
        | cons v a =>
          rw [List.cons_append, List.cons.injEq] at he
          obtain ⟨rfl, rfl⟩ := he
          exact Or.inl ⟨a, b, rfl, hr, hs⟩
      · rintro (⟨a, b, rfl, hr, hs⟩ | ⟨hr, hs⟩)
        · exact ⟨u :: a, b, rfl, hr, hs⟩
        · exact ⟨[], u :: rest, rfl, hr, hs⟩
    rw [hsplit, ← nullable_iff, deriv]
    split
    · next h =>
      rw [language_orMatch, language_thenMatch, Language.eq_4, ihs]
      simp only [ihr, h, true_and]
    · next h =>
      rw [language_thenMatch, Language.eq_4]
      simp only [ihr, h, false_and, or_false, Bool.false_eq_true]

theorem accepts_iff (r : Regex) (text : Text) : r.accepts text = true ↔ r.Language text := by
  induction text generalizing r with
  | nil => exact nullable_iff r
  | cons u rest ih => rw [accepts, ih, deriv_iff]

theorem startsMatch_iff (r : Regex) (text : Text) :
    r.startsMatch text = true ↔ ∃ w after, text = w ++ after ∧ r.Language w := by
  induction text generalizing r with
  | nil => simp [startsMatch, nullable_iff]
  | cons u rest ih =>
    rw [startsMatch, Bool.or_eq_true, nullable_iff, ih]
    constructor
    · rintro (h | ⟨w, after, rfl, h⟩)
      · exact ⟨[], u :: rest, rfl, h⟩
      · exact ⟨u :: w, after, rfl, (deriv_iff r u w).mp h⟩
    · rintro ⟨w, after, he, h⟩
      cases w with
      | nil => exact Or.inl h
      | cons v w =>
        rw [List.cons_append, List.cons.injEq] at he
        obtain ⟨rfl, rfl⟩ := he
        exact Or.inr ⟨w, after, rfl, (deriv_iff r u w).mpr h⟩

theorem test_iff (r : Regex) (text : Text) :
    r.test text = true ↔ ∃ w, r.Language w ∧ w <:+: text := by
  induction text with
  | nil => simp [test, nullable_iff]
  | cons u rest ih =>
    rw [test, Bool.or_eq_true, ih, startsMatch_iff]
    constructor
    · rintro (⟨w, after, he, h⟩ | ⟨w, h, hw⟩)
      · exact ⟨w, h, [], after, by simp [he]⟩
      · exact ⟨w, h, List.infix_cons hw⟩
    · rintro ⟨w, h, hw⟩
      rcases List.infix_cons_iff.mp hw with ⟨after, he⟩ | hw
      · exact Or.inl ⟨w, after, he.symm, h⟩
      · exact Or.inr ⟨w, h, hw⟩

def avoids (u : UInt16) : Regex → Bool
  | .none => true
  | .empty => true
  | .unit p => !p u
  | .seq r s => r.avoids u && s.avoids u
  | .alt r s => r.avoids u && s.avoids u
  | .star r => r.avoids u

theorem not_mem_of_avoids {u : UInt16} {r : Regex} (h : r.avoids u = true) {text : Text}
    (ht : r.Language text) : u ∉ text := by
  induction r generalizing text with
  | none => exact ht.elim
  | empty => simp [show text = [] from ht]
  | unit p =>
    obtain ⟨v, hv, rfl⟩ := ht
    simp only [avoids, Bool.not_eq_true'] at h
    rintro hm
    rw [List.mem_singleton.mp hm] at h
    exact absurd hv (by simp [h])
  | seq r s ihr ihs =>
    obtain ⟨a, b, rfl, ha, hb⟩ := ht
    obtain ⟨hr, hs⟩ := Bool.and_eq_true_iff.mp h
    simp [ihr hr ha, ihs hs hb]
  | alt r s ihr ihs =>
    obtain ⟨hr, hs⟩ := Bool.and_eq_true_iff.mp h
    exact ht.elim (ihr hr) (ihs hs)
  | star r ih =>
    obtain ⟨parts, hparts, rfl⟩ := ht
    simp only [List.mem_flatten, not_exists, not_and]
    exact fun part hp => ih h (hparts part hp)

theorem test_append_cons {u : UInt16} {r : Regex} (h : r.avoids u = true) (a b : Text) :
    r.test (a ++ u :: b) = (r.test a || r.test b) := by
  rw [Bool.eq_iff_iff, Bool.or_eq_true, test_iff, test_iff, test_iff]
  have hempty {w after : Text} (hw : u ∉ w) (he : u :: b = w ++ after) : w = [] := by
    cases w with
    | nil => rfl
    | cons v w =>
      rw [List.cons_append, List.cons.injEq] at he
      exact absurd (by simp [he.1]) hw
  constructor
  · rintro ⟨w, hw, before, after, he⟩
    have hu := not_mem_of_avoids h hw
    rw [List.append_assoc, List.append_eq_append_iff] at he
    rcases he with ⟨c, rfl, he⟩ | ⟨c, rfl, he⟩
    · rcases List.append_eq_append_iff.mp he with ⟨d, rfl, _⟩ | ⟨d, rfl, hd⟩
      · exact Or.inl ⟨w, hw, before, d, by simp⟩
      · rw [hempty (fun hm => hu (List.mem_append_right _ hm)) hd, List.append_nil] at hw
        exact Or.inl ⟨c, hw, before, [], by simp⟩
    · cases c with
      | nil =>
        rw [hempty hu he] at hw
        exact Or.inl ⟨[], hw, [], a, by simp⟩
      | cons v c =>
        rw [List.cons_append, List.cons.injEq] at he
        exact Or.inr ⟨w, hw, c, after, by rw [he.2, List.append_assoc]⟩
  · rintro (⟨w, hw, hi⟩ | ⟨w, hw, hi⟩)
    · exact ⟨w, hw, hi.trans (List.infix_append' [] a (u :: b))⟩
    · exact ⟨w, hw, hi.trans ⟨a ++ [u], [], by simp⟩⟩

end Regex

end Ecma
