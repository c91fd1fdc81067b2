import GhostBridge.SchemaValidation.DnsNames
import Mathlib.Computability.Language
import Mathlib.Data.List.TakeWhile

/-!
# Joiners in a label

`contextJValid` scans a label in both directions from a zero-width joiner.
-/

namespace GhostBridge.SchemaValidation

open Ecma Computability

namespace JoiningContexts

def zwnj : ℕ := 0x200c

def zwj : ℕ := 0x200d

variable (unicode : FrozenUnicode)

/-- `while (before >= 0 && joiningType(codePoints[before]) === 'T') before -= 1`, from the index
before the given one; none is an index below zero. -/
def scanBefore (codePoints : List ℕ) : ℕ → Option ℕ
  | 0 => none
  | before + 1 =>
    if (codePoints[before]?).any (isTransparent unicode) then scanBefore codePoints before
    else some before

/-- `while (after < codePoints.length && joiningType(codePoints[after]) === 'T') after += 1`. -/
def scanAfter (codePoints : List ℕ) (after : ℕ) : ℕ :=
  if h : after < codePoints.length then
    if isTransparent unicode codePoints[after] then scanAfter codePoints (after + 1) else after
  else after
termination_by codePoints.length - after

def hasType (types : List JoiningType) (codePoint : ℕ) : Bool :=
  (unicode.joiningType codePoint).any types.contains

def contextJValid (codePoints : List ℕ) (index : ℕ) : Bool :=
  if index = 0 then false
  else if (codePoints[index - 1]?).bind unicode.canonicalCombiningClass = some 9 then true
  else if codePoints[index]? = some zwj then false
  else if codePoints[index]? ≠ some zwnj then false
  else
    match scanBefore unicode codePoints index with
    | none => false
    | some before =>
      if (codePoints[before]?).any (hasType unicode [.L, .D]) then
        (codePoints[scanAfter unicode codePoints (index + 1)]?).any (hasType unicode [.R, .D])
      else false

def joining (types : List JoiningType) : Language ℕ :=
  {word | ∃ codePoint, hasType unicode types codePoint = true ∧ word = [codePoint]}

/-- `(Joining_Type:{L,D})(Joining_Type:T)*`. -/
def leftContext : Language ℕ := joining unicode [.L, .D] * (joining unicode [.T])∗

/-- `(Joining_Type:T)*(Joining_Type:{R,D})`. -/
def rightContext : Language ℕ := (joining unicode [.T])∗ * joining unicode [.R, .D]

def MatchesAround (codePoints : List ℕ) (index : ℕ) : Prop :=
  ∃ before left right after, codePoints = before ++ left ++ [zwnj] ++ right ++ after ∧
    (before ++ left).length = index ∧ left ∈ leftContext unicode ∧ right ∈ rightContext unicode

def ViramaBefore (codePoints : List ℕ) (index : ℕ) : Prop :=
  ∃ before codePoint after, codePoints = before ++ [codePoint] ++ after ∧
    before.length + 1 = index ∧ unicode.canonicalCombiningClass codePoint = some 9

variable {unicode : FrozenUnicode}

theorem hasType_transparent (codePoint : ℕ) :
    hasType unicode [.T] codePoint = isTransparent unicode codePoint := by
  unfold hasType isTransparent
  cases unicode.joiningType codePoint with
  | none => rfl
  | some type => cases type <;> rfl

theorem hasType_pair (side : JoiningType) (codePoint : ℕ) :
    hasType unicode [side, .D] codePoint =
      (unicode.joiningType codePoint == some side || unicode.joiningType codePoint == some .D) := by
  unfold hasType
  cases unicode.joiningType codePoint with
  | none => rfl
  | some type => cases type <;> cases side <;> rfl

theorem scanBefore_eq (codePoints : List ℕ) {index : ℕ} (h : index ≤ codePoints.length) :
    ((codePoints.take index).reverse.dropWhile (isTransparent unicode)).head? =
      (scanBefore unicode codePoints index).bind (codePoints[·]?) := by
  induction index with
  | zero => rfl
  | succ before ih =>
    have hlt : before < codePoints.length := h
    have htake : (codePoints.take (before + 1)).reverse =
        codePoints[before] :: (codePoints.take before).reverse := by
      rw [List.take_succ_eq_append_getElem hlt, List.reverse_append]
      rfl
    rw [htake, scanBefore, List.getElem?_eq_getElem hlt, Option.any_some]
    by_cases htransparent : isTransparent unicode codePoints[before] = true
    · rw [List.dropWhile_cons_of_pos htransparent, if_pos htransparent]
      exact ih hlt.le
    · rw [List.dropWhile_cons_of_neg htransparent, if_neg htransparent, Option.bind_some,
        List.getElem?_eq_getElem hlt]
      rfl

theorem scanAfter_eq (codePoints : List ℕ) (after : ℕ) :
    ((codePoints.drop after).dropWhile (isTransparent unicode)).head? =
      codePoints[scanAfter unicode codePoints after]? := by
  fun_induction scanAfter unicode codePoints after with
  | case1 after hlt htransparent ih =>
    rw [List.drop_eq_getElem_cons hlt, List.dropWhile_cons_of_pos htransparent, ih]
  | case2 after hlt htransparent =>
    rw [List.drop_eq_getElem_cons hlt, List.dropWhile_cons_of_neg htransparent,
      List.getElem?_eq_getElem hlt]
    rfl
  | case3 after hlt =>
    rw [List.drop_eq_nil_of_le (Nat.le_of_not_lt hlt), List.getElem?_eq_none (Nat.le_of_not_lt hlt)]
    rfl

theorem joins_eq (codePoints : List ℕ) (side : JoiningType) :
    joins unicode codePoints side =
      ((codePoints.dropWhile (isTransparent unicode)).head?).any (hasType unicode [side, .D]) := by
  unfold joins
  cases (codePoints.dropWhile (isTransparent unicode)).head? with
  | none => rfl
  | some codePoint => exact (hasType_pair side codePoint).symm

theorem contextJValid_eq (codePoints : List ℕ) {index : ℕ} (h : index ≤ codePoints.length) :
    contextJValid unicode codePoints index =
      SchemaValidation.contextJValid unicode codePoints index := by
  unfold contextJValid SchemaValidation.contextJValid
  simp only [joins_eq, scanBefore_eq codePoints h, scanAfter_eq]
  cases scanBefore unicode codePoints index with
  | none => simp only [Option.bind_none, Option.any_none, Bool.false_and, ite_self]
  | some before =>
    simp only [Option.bind_some, zwj, zwnj]
    cases (codePoints[before]?).any (hasType unicode [.L, .D]) <;> simp

theorem mem_joining_star {word : List ℕ} :
    word ∈ (joining unicode [.T])∗ ↔ ∀ codePoint ∈ word, isTransparent unicode codePoint = true := by
  constructor
  · intro h
    obtain ⟨words, rfl, hwords⟩ := Language.mem_kstar.mp h
    intro codePoint hmem
    obtain ⟨part, hpart, hmem⟩ := List.mem_flatten.mp hmem
    obtain ⟨only, hony, rfl⟩ := hwords part hpart
    rw [List.mem_singleton.mp hmem, ← hasType_transparent]
    exact hony
  · intro h
    apply Language.mem_kstar.mpr
    refine ⟨word.map fun codePoint => [codePoint], ?_, ?_⟩
    · rw [← List.flatMap_def, List.flatMap_singleton']
    · intro part hpart
      obtain ⟨codePoint, hmem, rfl⟩ := List.mem_map.mp hpart
      exact ⟨codePoint, (hasType_transparent codePoint).trans (h codePoint hmem), rfl⟩

theorem mem_leftContext {word : List ℕ} :
    word ∈ leftContext unicode ↔ ∃ codePoint transparent, word = codePoint :: transparent ∧
      hasType unicode [.L, .D] codePoint = true ∧
        ∀ t ∈ transparent, isTransparent unicode t = true := by
  constructor
  · intro h
    obtain ⟨-, ⟨codePoint, htype, rfl⟩, transparent, hstar, rfl⟩ := Language.mem_mul.mp h
    exact ⟨codePoint, transparent, rfl, htype, mem_joining_star.mp hstar⟩
  · intro h
    obtain ⟨codePoint, transparent, rfl, htype, hall⟩ := h
    exact Language.mem_mul.mpr
      ⟨[codePoint], ⟨codePoint, htype, rfl⟩, transparent, mem_joining_star.mpr hall, rfl⟩

theorem mem_rightContext {word : List ℕ} :
    word ∈ rightContext unicode ↔ ∃ transparent codePoint, word = transparent ++ [codePoint] ∧
      (∀ t ∈ transparent, isTransparent unicode t = true) ∧
        hasType unicode [.R, .D] codePoint = true := by
  constructor
  · intro h
    obtain ⟨transparent, hstar, -, ⟨codePoint, htype, rfl⟩, rfl⟩ := Language.mem_mul.mp h
    exact ⟨transparent, codePoint, rfl, mem_joining_star.mp hstar, htype⟩
  · intro h
    obtain ⟨transparent, codePoint, rfl, hall, htype⟩ := h
    exact Language.mem_mul.mpr
      ⟨transparent, mem_joining_star.mpr hall, [codePoint], ⟨codePoint, htype, rfl⟩, rfl⟩

theorem joins_iff {codePoints : List ℕ} {side : JoiningType} (hside : side ≠ .T) :
    joins unicode codePoints side = true ↔
      ∃ transparent codePoint rest, codePoints = transparent ++ codePoint :: rest ∧
        (∀ t ∈ transparent, isTransparent unicode t = true) ∧
          hasType unicode [side, .D] codePoint = true := by
  rw [joins_eq]
  constructor
  · intro h
    obtain ⟨codePoint, hhead, htype⟩ := (Option.any_eq_true _ _).mp h
    obtain ⟨rest, hrest⟩ := List.head?_eq_some_iff.mp hhead
    refine ⟨codePoints.takeWhile (isTransparent unicode), codePoint, rest, ?_, ?_, htype⟩
    · rw [← hrest, List.takeWhile_append_dropWhile]
    · intro t ht
      exact List.mem_takeWhile_imp ht
  · intro h
    obtain ⟨transparent, codePoint, rest, rfl, hall, htype⟩ := h
    have hstop : isTransparent unicode codePoint = false := by
      rw [hasType_pair] at htype
      unfold isTransparent
      cases htype' : unicode.joiningType codePoint with
      | none => rfl
      | some type => cases type <;> simp_all
    rw [List.dropWhile_append_of_pos hall, List.dropWhile_cons_of_neg (by simp [hstop])]
    exact htype

theorem matchesAround_iff {codePoints : List ℕ} {index : ℕ}
    (h : codePoints[index]? = some zwnj) :
    MatchesAround unicode codePoints index ↔
      joins unicode (codePoints.take index).reverse .L = true ∧
        joins unicode (codePoints.drop (index + 1)) .R = true := by
  obtain ⟨hlt, hget⟩ := List.getElem?_eq_some_iff.mp h
  have hsplit : codePoints = codePoints.take index ++ [zwnj] ++ codePoints.drop (index + 1) := by
    rw [← hget, List.append_assoc, List.singleton_append, ← List.drop_eq_getElem_cons hlt,
      List.take_append_drop]
  rw [joins_iff (by decide), joins_iff (by decide)]
  constructor
  · intro hmatch
    obtain ⟨before, left, right, after, hall, hlength, hleft, hright⟩ := hmatch
    obtain ⟨first, ts, rfl, hfirst, hts⟩ := mem_leftContext.mp hleft
    obtain ⟨ts', final, rfl, hts', hfinal⟩ := mem_rightContext.mp hright
    have htake : codePoints.take index = before ++ first :: ts := by
      rw [hall, ← hlength]
      simp only [List.append_assoc]
      rw [← List.append_assoc before, List.take_left']
      rfl
    have hdrop : codePoints.drop (index + 1) = ts' ++ final :: after := by
      have hsame := hsplit.symm.trans hall
      rw [htake] at hsame
      simpa using hsame
    constructor
    · refine ⟨ts.reverse, first, before.reverse, by rw [htake]; simp, ?_, hfirst⟩
      intro t ht
      exact hts t (List.mem_reverse.mp ht)
    · exact ⟨ts', final, after, hdrop, hts', hfinal⟩
  · intro hjoins
    obtain ⟨⟨ts, first, before, hbefore, hts, hfirst⟩, ts', final, after, hafter, hts', hfinal⟩ :=
      hjoins
    have htake : codePoints.take index = before.reverse ++ (first :: ts.reverse) := by
      rw [← List.reverse_reverse (codePoints.take index), hbefore]
      simp
    refine ⟨before.reverse, first :: ts.reverse, ts' ++ [final], after, ?_, ?_, ?_, ?_⟩
    · rw [← htake]
      conv_lhs => rw [hsplit, hafter]
      simp
    · rw [← htake, List.length_take, Nat.min_eq_left hlt.le]
    · apply mem_leftContext.mpr
      refine ⟨first, ts.reverse, rfl, hfirst, ?_⟩
      intro t ht
      exact hts t (List.mem_reverse.mp ht)
    · exact mem_rightContext.mpr ⟨ts', final, rfl, hts', hfinal⟩

theorem viramaBefore_iff {codePoints : List ℕ} {index : ℕ} (h : index < codePoints.length) :
    ViramaBefore unicode codePoints index ↔
      index ≠ 0 ∧ (codePoints[index - 1]?).bind unicode.canonicalCombiningClass = some 9 := by
  constructor
  · intro hvirama
    obtain ⟨before, codePoint, after, rfl, rfl, hclass⟩ := hvirama
    refine ⟨Nat.succ_ne_zero _, ?_⟩
    simpa using hclass
  · intro hvirama
    obtain ⟨hne, hclass⟩ := hvirama
    have hlt : index - 1 < codePoints.length := by omega
    rw [List.getElem?_eq_getElem hlt, Option.bind_some] at hclass
    refine ⟨codePoints.take (index - 1), codePoints[index - 1], codePoints.drop index, ?_, ?_,
      hclass⟩
    · have hdrop := List.drop_eq_getElem_cons hlt
      rw [Nat.sub_add_cancel (Nat.pos_of_ne_zero hne)] at hdrop
      rw [List.append_assoc, List.singleton_append, ← hdrop, List.take_append_drop]
    · rw [List.length_take]
      omega

/-- The contextual rules of the two joiners. -/
theorem context_j_law (unicode : FrozenUnicode) (codePoints : List ℕ) (index : ℕ) :
    (codePoints[index]? = some zwnj →
      (contextJValid unicode codePoints index = true ↔
        ViramaBefore unicode codePoints index ∨ MatchesAround unicode codePoints index)) ∧
    (codePoints[index]? = some zwj →
      (contextJValid unicode codePoints index = true ↔ ViramaBefore unicode codePoints index)) := by
  constructor
  · intro h
    obtain ⟨hlt, -⟩ := List.getElem?_eq_some_iff.mp h
    rw [contextJValid_eq codePoints hlt.le, viramaBefore_iff hlt, matchesAround_iff h,
      SchemaValidation.contextJValid, h]
    by_cases hzero : index = 0
    · subst hzero
      simp [joins]
    · by_cases hclass : (codePoints[index - 1]?).bind unicode.canonicalCombiningClass = some 9
      · simp [hzero, hclass]
      · simp [hzero, hclass, zwnj]
  · intro h
    obtain ⟨hlt, -⟩ := List.getElem?_eq_some_iff.mp h
    rw [contextJValid_eq codePoints hlt.le, viramaBefore_iff hlt, SchemaValidation.contextJValid, h]
    by_cases hzero : index = 0
    · simp [hzero]
    · by_cases hclass : (codePoints[index - 1]?).bind unicode.canonicalCombiningClass = some 9
      · simp [hzero, hclass]
      · simp [hzero, hclass, zwj]

private def arabicUnicode : FrozenUnicode where
  idna2008Category _ := none
  canonicalCombiningClass _ := some 0
  isCombiningMark _ := false
  joiningType codePoint := some (if codePoint = 0x0628 then .D else .U)
  bidiClass _ := none
  isScript _ _ := false
  isNfcCodePoints _ := .ok true

theorem context_j_law_between :
    (contextJValid arabicUnicode [0x0628, zwnj, 0x0628] 1 = true ↔
      ViramaBefore arabicUnicode [0x0628, zwnj, 0x0628] 1 ∨
        MatchesAround arabicUnicode [0x0628, zwnj, 0x0628] 1) ∧
    (contextJValid arabicUnicode [0x0628, zwj, 0x0628] 1 = true ↔
      ViramaBefore arabicUnicode [0x0628, zwj, 0x0628] 1) :=
  ⟨(context_j_law arabicUnicode [0x0628, zwnj, 0x0628] 1).1 rfl,
    (context_j_law arabicUnicode [0x0628, zwj, 0x0628] 1).2 rfl⟩

end JoiningContexts

end GhostBridge.SchemaValidation
