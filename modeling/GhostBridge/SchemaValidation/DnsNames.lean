import GhostBridge.Ecma.Outcome
import GhostBridge.Ecma.Utf8
import GhostBridge.Ecma.Value

/-!
# Domain names

`canonicalDnsName` takes a name apart into labels, decodes each label to code points and checks them
against the rules of IDNA 2008.
-/

namespace GhostBridge.SchemaValidation

open Ecma

inductive IdnaCategory where
  | pvalid
  | contextj
  | contexto
  | disallowed
  | unassigned
deriving DecidableEq

/-- `JOINING_TYPES`. -/
inductive JoiningType where
  | U
  | R
  | L
  | D
  | C
  | T
deriving DecidableEq

/-- `BIDI_CLASSES`. -/
inductive BidiClass where
  | L
  | R
  | AL
  | EN
  | ES
  | ET
  | AN
  | CS
  | B
  | S
  | WS
  | ON
  | LRE
  | LRO
  | RLE
  | RLO
  | PDF
  | NSM
  | BN
  | FSI
  | LRI
  | RLI
  | PDI
deriving DecidableEq

inductive Script where
  | greek
  | han
  | hebrew
  | hiragana
  | katakana
deriving DecidableEq

/-- The frozen tables. What is undefined outside the scalar values is none there, and
`isNfcCodePoints` may fail. -/
structure FrozenUnicode where
  idna2008Category : ℕ → Option IdnaCategory
  canonicalCombiningClass : ℕ → Option ℕ
  isCombiningMark : ℕ → Bool
  joiningType : ℕ → Option JoiningType
  bidiClass : ℕ → Option BidiClass
  isScript : ℕ → Script → Bool
  isNfcCodePoints : List ℕ → Except String Bool

structure Punycode where
  encode : Text → Option Text
  decode : Text → Option Text

def unicodeScalarValues : Text → Option (List ℕ)
  | [] => some []
  | [first] => if isHighSurrogate first || isLowSurrogate first then none else some [first.toNat]
  | first :: second :: rest =>
    if isHighSurrogate first then
      if isLowSurrogate second then
        let codePoint := 0x10000 + (first.toNat - 0xd800) * 1024 + (second.toNat - 0xdc00)
        (unicodeScalarValues rest).map (codePoint :: ·)
      else none
    else if isLowSurrogate first then none
    else (unicodeScalarValues (second :: rest)).map (first.toNat :: ·)

section Labels

variable (unicode : FrozenUnicode)

def validHyphenPositions (codePoints : List ℕ) : Bool :=
  codePoints != [] && codePoints[0]? != some 0x2d && codePoints.getLast? != some 0x2d &&
    !(codePoints[2]? == some 0x2d && codePoints[3]? == some 0x2d)

def isTransparent (codePoint : ℕ) : Bool := unicode.joiningType codePoint == some .T

def joins (codePoints : List ℕ) (side : JoiningType) : Bool :=
  match (codePoints.dropWhile (isTransparent unicode)).head? with
  | none => false
  | some codePoint =>
    unicode.joiningType codePoint == some side || unicode.joiningType codePoint == some .D

def contextJValid (codePoints : List ℕ) (index : ℕ) : Bool :=
  if index = 0 then false
  else if (codePoints[index - 1]?).bind unicode.canonicalCombiningClass = some 9 then true
  else if codePoints[index]? = some 0x200d then false
  else if codePoints[index]? ≠ some 0x200c then false
  else
    joins unicode (codePoints.take index).reverse .L && joins unicode (codePoints.drop (index + 1)) .R

def contextOValid (codePoints : List ℕ) (index : ℕ) : Bool :=
  match codePoints[index]? with
  | none => false
  | some codePoint =>
    -- MIDDLE DOT
    if codePoint = 0x00b7 then
      decide (0 < index) && codePoints[index - 1]? == some 0x006c &&
        codePoints[index + 1]? == some 0x006c
    -- GREEK LOWER NUMERAL SIGN
    else if codePoint = 0x0375 then
      (codePoints[index + 1]?).any (unicode.isScript · .greek)
    -- HEBREW PUNCTUATION GERESH and GERSHAYIM
    else if codePoint = 0x05f3 ∨ codePoint = 0x05f4 then
      decide (0 < index) && (codePoints[index - 1]?).any (unicode.isScript · .hebrew)
    -- KATAKANA MIDDLE DOT
    else if codePoint = 0x30fb then
      codePoints.any fun candidate =>
        [Script.hiragana, .katakana, .han].any (unicode.isScript candidate)
    else if 0x0660 ≤ codePoint ∧ codePoint ≤ 0x0669 then
      !codePoints.any fun candidate => decide (0x06f0 ≤ candidate ∧ candidate ≤ 0x06f9)
    else if 0x06f0 ≤ codePoint ∧ codePoint ≤ 0x06f9 then
      !codePoints.any fun candidate => decide (0x0660 ≤ candidate ∧ candidate ≤ 0x0669)
    else false

def codePointValid (codePoints : List ℕ) (index : ℕ) : Bool :=
  match (codePoints[index]?).bind unicode.idna2008Category with
  | some .pvalid => true
  | some .contextj => contextJValid unicode codePoints index
  | some .contexto => contextOValid unicode codePoints index
  | _ => false

def frozenIdnaLabelValid (codePoints : List ℕ) : Bool :=
  validHyphenPositions codePoints && !(codePoints[0]?).any unicode.isCombiningMark &&
    (List.range codePoints.length).all (codePointValid unicode codePoints)

/-- `[a-z0-9]`. -/
def isLabelEnd (u : UInt16) : Bool := (0x61 ≤ u && u ≤ 0x7a) || (0x30 ≤ u && u ≤ 0x39)

/-- `[a-z0-9-]`. -/
def isLabelUnit (u : UInt16) : Bool := isLabelEnd u || u == 0x2d

/-- `/^[a-z0-9-]+$/u` and `/^(?:[a-z0-9]|[a-z0-9][a-z0-9-]*[a-z0-9])$/u`. -/
def isWireLabel (label : Text) : Bool :=
  label != [] && label.all isLabelUnit && label.head?.any isLabelEnd && label.getLast?.any isLabelEnd

def maximumLabelOctets : ℕ := 63

def maximumNameOctets : ℕ := 253

variable (punycode : Punycode)

def checkDecoded (label decoded : Text) : Except String (Option (List ℕ)) :=
  match unicodeScalarValues decoded with
  | none => .ok none
  | some codePoints =>
    if codePoints = [] ∨ (codePoints.all fun codePoint => decide (codePoint ≤ 0x7f)) = true then
      .ok none
    else do
      let normalized ← unicode.isNfcCodePoints codePoints
      if !normalized || !frozenIdnaLabelValid unicode codePoints then .ok none
      else if (punycode.encode decoded).map (ascii "xn--" ++ ·) = some label then
        .ok (some codePoints)
      else .ok none

def decodeWireLabel (label : Text) : Except String (Option (List ℕ)) :=
  if maximumLabelOctets < label.length || !isWireLabel label then .ok none
  else if !(ascii "xn--").isPrefixOf label then
    let codePoints := label.map UInt16.toNat
    .ok (if frozenIdnaLabelValid unicode codePoints then some codePoints else none)
  else if label.drop 4 = [] then .ok none
  else
    match punycode.decode (label.drop 4) with
    | none => .ok none
    | some decoded => checkDecoded unicode punycode label decoded

def decodeLabels : List Text → Except String (Option (List (List ℕ)))
  | [] => .ok (some [])
  | label :: labels => do
    match ← decodeWireLabel unicode punycode label with
    | none => .ok none
    | some codePoints => return (← decodeLabels labels).map (codePoints :: ·)

/-- `new Set(classes).has(value)`. -/
def hasClass (classes : List BidiClass) (value : Option BidiClass) : Bool :=
  value.any fun c => decide (c ∈ classes)

def bidiLabelValid (codePoints : List ℕ) : Bool :=
  let classes := codePoints.map unicode.bidiClass
  match (classes.reverse.dropWhile (· == some .NSM)).head? with
  | none => false
  | some last =>
    match classes.head?.join with
    | some .R | some .AL =>
      classes.all (hasClass [.R, .AL, .AN, .EN, .ES, .CS, .ET, .ON, .BN, .NSM]) &&
        hasClass [.R, .AL, .EN, .AN] last &&
        !(classes.contains (some .EN) && classes.contains (some .AN))
    | some .L =>
      classes.all (hasClass [.L, .EN, .ES, .CS, .ET, .ON, .BN, .NSM]) && hasClass [.L, .EN] last
    | _ => false

def isBidiDomain (labels : List (List ℕ)) : Bool :=
  labels.any fun label => label.any fun codePoint =>
    hasClass [.R, .AL, .AN] (unicode.bidiClass codePoint)

/-- `/^[a-z0-9.-]+$/u`, a bounded length and no dot at the end. -/
def isNameText (value : Text) : Bool :=
  1 ≤ value.length && value.length ≤ maximumNameOctets && value.getLast? != some 0x2e &&
    value.all fun u => isLabelUnit u || u == 0x2e

def decodedName (value : Text) : Except String (Option (List (List ℕ))) :=
  decodeLabels unicode punycode (value.splitOn 0x2e)

def canonicalDnsName : Value → Except String Bool
  | .string value =>
    if !isNameText value then .ok false
    else do
      match ← decodedName unicode punycode value with
      | none => return false
      | some labels => return !isBidiDomain unicode labels || labels.all (bidiLabelValid unicode)
  | _ => .ok false

end Labels

end GhostBridge.SchemaValidation

/-!
## Spellings of a domain

A label is determined by its code points: an ASCII label is them, and any other is what Punycode
writes for them. So a domain has one canonical name. The directions of its labels obey the Bidi
rule.
-/

namespace GhostBridge.SchemaValidation

open Ecma

theorem unicodeScalarValues_spec {text : Text} {codePoints : List ℕ}
    (h : unicodeScalarValues text = some codePoints) :
    text.isWellFormed = true ∧ Utf8.scalars text = codePoints := by
  induction text using unicodeScalarValues.induct generalizing codePoints with
  | case1 =>
    obtain rfl := Option.some.inj h
    exact ⟨rfl, rfl⟩
  | case2 first hsurrogate =>
    rw [unicodeScalarValues, if_pos hsurrogate] at h
    cases h
  | case3 first hplain =>
    rw [unicodeScalarValues, if_neg hplain] at h
    obtain rfl := Option.some.inj h
    rw [Bool.not_eq_true, Bool.or_eq_false_iff] at hplain
    refine ⟨?_, ?_⟩
    · rw [Text.isWellFormed, hplain.1, hplain.2]
      rfl
    · rw [Utf8.scalars, Utf8.unitScalar, hplain.1, hplain.2]
      rfl
  | case4 first second rest hhigh hlow ih =>
    rw [unicodeScalarValues, if_pos hhigh, if_pos hlow] at h
    obtain ⟨values, hvalues, rfl⟩ := Option.map_eq_some_iff.mp h
    obtain ⟨hformed, hscalars⟩ := ih hvalues
    refine ⟨?_, ?_⟩
    · rw [Text.isWellFormed, if_pos hhigh, hlow, hformed]
      rfl
    · rw [Utf8.scalars, hhigh, hlow, Bool.and_self, if_pos rfl, hscalars]
  | case5 first second rest hhigh hlow =>
    rw [unicodeScalarValues, if_pos hhigh, if_neg hlow] at h
    cases h
  | case6 first second rest hhigh hlow =>
    rw [unicodeScalarValues, if_neg hhigh, if_pos hlow] at h
    cases h
  | case7 first second rest hhigh hlow ih =>
    rw [unicodeScalarValues, if_neg hhigh, if_neg hlow] at h
    obtain ⟨values, hvalues, rfl⟩ := Option.map_eq_some_iff.mp h
    obtain ⟨hformed, hscalars⟩ := ih hvalues
    rw [Bool.not_eq_true] at hhigh hlow
    refine ⟨?_, ?_⟩
    · rw [Text.isWellFormed, hhigh, if_neg Bool.false_ne_true, hlow, hformed]
      rfl
    · rw [Utf8.scalars, hhigh, Bool.false_and, if_neg Bool.false_ne_true, hscalars, Utf8.unitScalar,
        hhigh, hlow]
      rfl

theorem unicodeScalarValues_inj {left right : Text} {codePoints : List ℕ}
    (hleft : unicodeScalarValues left = some codePoints)
    (hright : unicodeScalarValues right = some codePoints) : left = right := by
  obtain ⟨hformed, hscalars⟩ := unicodeScalarValues_spec hleft
  obtain ⟨hformed', hscalars'⟩ := unicodeScalarValues_spec hright
  rw [← Utf8.units_scalars hformed, ← Utf8.units_scalars hformed', hscalars, hscalars']

theorem toNat_le_of_isLabelUnit {u : UInt16} (h : isLabelUnit u = true) : u.toNat ≤ 0x7f := by
  simp only [isLabelUnit, isLabelEnd, Bool.or_eq_true, Bool.and_eq_true, decide_eq_true_eq,
    beq_iff_eq, UInt16.le_iff_toNat_le] at h
  rcases h with (⟨_, h⟩ | ⟨_, h⟩) | rfl
  · exact h.trans (by decide)
  · exact h.trans (by decide)
  · decide

section Labels

variable {unicode : FrozenUnicode} {punycode : Punycode}

/-- Where the code points of an accepted label come from. -/
inductive LabelSource (punycode : Punycode) (label : Text) (codePoints : List ℕ) : Prop where
  | plain (hascii : ∀ codePoint ∈ codePoints, codePoint ≤ 0x7f)
      (hlabel : codePoints = label.map UInt16.toNat)
  | encoded (decoded : Text) (hother : ∃ codePoint ∈ codePoints, 0x7f < codePoint)
      (hdecoded : unicodeScalarValues decoded = some codePoints)
      (hlabel : (punycode.encode decoded).map (ascii "xn--" ++ ·) = some label)

theorem checkDecoded_ok {label decoded : Text} {codePoints : List ℕ}
    (h : checkDecoded unicode punycode label decoded = .ok (some codePoints)) :
    LabelSource punycode label codePoints := by
  rw [checkDecoded] at h
  cases hvalues : unicodeScalarValues decoded with
  | none =>
    rw [hvalues] at h
    cases h
  | some values =>
    simp only [hvalues] at h
    by_cases hplain : values = [] ∨ (values.all fun codePoint => decide (codePoint ≤ 0x7f)) = true
    · rw [if_pos hplain] at h
      cases h
    · rw [if_neg hplain, bind_ok] at h
      obtain ⟨normalized, _, h⟩ := h
      by_cases hrefused : (!normalized || !frozenIdnaLabelValid unicode values) = true
      · rw [if_pos hrefused] at h
        cases h
      · rw [if_neg hrefused] at h
        by_cases hencoded : (punycode.encode decoded).map (ascii "xn--" ++ ·) = some label
        · rw [if_pos hencoded] at h
          obtain rfl := Option.some.inj (Except.ok.inj h)
          apply LabelSource.encoded decoded _ hvalues hencoded
          have hnot := (not_or.mp hplain).2
          simpa using hnot
        · rw [if_neg hencoded] at h
          cases h

theorem decodeWireLabel_ok {label : Text} {codePoints : List ℕ}
    (h : decodeWireLabel unicode punycode label = .ok (some codePoints)) :
    LabelSource punycode label codePoints := by
  rw [decodeWireLabel] at h
  by_cases hrefused : (decide (maximumLabelOctets < label.length) || !isWireLabel label) = true
  · rw [if_pos hrefused] at h
    cases h
  · rw [if_neg hrefused] at h
    by_cases hplain : (!(ascii "xn--").isPrefixOf label) = true
    · rw [if_pos hplain] at h
      by_cases hvalid : frozenIdnaLabelValid unicode (label.map UInt16.toNat) = true
      · simp only [hvalid, if_true] at h
        obtain rfl := Option.some.inj (Except.ok.inj h)
        apply LabelSource.plain _ rfl
        intro codePoint hmem
        obtain ⟨u, hu, rfl⟩ := List.mem_map.mp hmem
        simp only [Bool.or_eq_true, not_or, Bool.not_eq_true', Bool.not_eq_false, isWireLabel,
          Bool.and_eq_true] at hrefused
        exact toNat_le_of_isLabelUnit (List.all_eq_true.mp hrefused.2.1.1.2 u hu)
      · simp only [hvalid] at h
        cases h
    · rw [if_neg hplain] at h
      by_cases hempty : label.drop 4 = []
      · rw [if_pos hempty] at h
        cases h
      · rw [if_neg hempty] at h
        cases hdecode : punycode.decode (label.drop 4) with
        | none =>
          rw [hdecode] at h
          cases h
        | some decoded =>
          rw [hdecode] at h
          exact checkDecoded_ok h

theorem LabelSource.label_eq {left right : Text} {codePoints : List ℕ}
    (hleft : LabelSource punycode left codePoints) (hright : LabelSource punycode right codePoints) :
    left = right := by
  cases hleft with
  | plain hascii hlabel =>
    cases hright with
    | plain _ hlabel' =>
      exact List.map_injective_iff.mpr (fun _ _ => UInt16.toNat_inj.mp) (hlabel.symm.trans hlabel')
    | encoded _ hother _ _ =>
      obtain ⟨codePoint, hmem, hlarge⟩ := hother
      exact absurd (hascii codePoint hmem) (Nat.not_le.mpr hlarge)
  | encoded decoded hother hdecoded hlabel =>
    cases hright with
    | plain hascii _ =>
      obtain ⟨codePoint, hmem, hlarge⟩ := hother
      exact absurd (hascii codePoint hmem) (Nat.not_le.mpr hlarge)
    | encoded _ _ hdecoded' hlabel' =>
      obtain rfl := unicodeScalarValues_inj hdecoded hdecoded'
      exact Option.some.inj (hlabel.symm.trans hlabel')

theorem decodeLabels_cons {label : Text} {labels : List Text} {decoded : List (List ℕ)} :
    decodeLabels unicode punycode (label :: labels) = .ok (some decoded) ↔
      ∃ codePoints rest, decodeWireLabel unicode punycode label = .ok (some codePoints) ∧
        decodeLabels unicode punycode labels = .ok (some rest) ∧ decoded = codePoints :: rest := by
  rw [decodeLabels, bind_ok]
  constructor
  · intro h
    obtain ⟨first, hfirst, h⟩ := h
    cases first with
    | none => cases h
    | some codePoints =>
      simp only [bind_ok, pure_ok, Option.map_eq_some_iff] at h
      obtain ⟨_, hrest, rest, rfl, heq⟩ := h
      exact ⟨codePoints, rest, hfirst, hrest, heq.symm⟩
  · intro h
    obtain ⟨codePoints, rest, hfirst, hrest, rfl⟩ := h
    refine ⟨_, hfirst, ?_⟩
    simp only [bind_ok, pure_ok]
    exact ⟨_, hrest, rfl⟩

theorem decodeLabels_inj {left right : List Text} {decoded : List (List ℕ)}
    (hleft : decodeLabels unicode punycode left = .ok (some decoded))
    (hright : decodeLabels unicode punycode right = .ok (some decoded)) : left = right := by
  induction left generalizing right decoded with
  | nil =>
    cases hleft
    cases right with
    | nil => rfl
    | cons label labels =>
      obtain ⟨_, _, _, _, heq⟩ := decodeLabels_cons.mp hright
      cases heq
  | cons label labels ih =>
    obtain ⟨codePoints, rest, hlabel, hlabels, rfl⟩ := decodeLabels_cons.mp hleft
    cases right with
    | nil => cases hright
    | cons label' labels' =>
      obtain ⟨_, _, hlabel', hlabels', heq⟩ := decodeLabels_cons.mp hright
      cases heq
      rw [(decodeWireLabel_ok hlabel).label_eq (decodeWireLabel_ok hlabel'), ih hlabels hlabels']

theorem decodedName_inj {left right : Text} {decoded : List (List ℕ)}
    (hleft : decodedName unicode punycode left = .ok (some decoded))
    (hright : decodedName unicode punycode right = .ok (some decoded)) : left = right := by
  have hsplit := decodeLabels_inj hleft hright
  have hrebuilt : [0x2e].intercalate (left.splitOn 0x2e) = left := List.intercalate_splitOn 0x2e
  rw [← hrebuilt, hsplit, List.intercalate_splitOn]

end Labels

theorem hasClass_iff {classes : List BidiClass} {value : Option BidiClass} :
    hasClass classes value = true ↔ ∃ c ∈ classes, value = some c := by
  cases value with
  | none => simp [hasClass]
  | some c => simp [hasClass]

/-- The last class that is not a mark is one of `ends`. -/
def EndsIn (ends : List BidiClass) (classes : List (Option BidiClass)) : Prop :=
  ∃ before last marks, classes = before ++ some last :: marks ∧ last ∈ ends ∧
    ∀ mark ∈ marks, mark = some .NSM

/-- The Bidi rule on the classes of a label: how it starts, what each direction allows, and how it
ends. -/
structure BidiRule (classes : List (Option BidiClass)) : Prop where
  starts : ∃ first ∈ [BidiClass.L, .R, .AL], classes.head? = some (some first)
  rightToLeft : classes.head? = some (some .R) ∨ classes.head? = some (some .AL) →
    (∀ value ∈ classes, ∃ c ∈ [BidiClass.R, .AL, .AN, .EN, .ES, .CS, .ET, .ON, .BN, .NSM],
      value = some c) ∧
    EndsIn [.R, .AL, .EN, .AN] classes ∧ ¬(some .EN ∈ classes ∧ some .AN ∈ classes)
  leftToRight : classes.head? = some (some .L) →
    (∀ value ∈ classes, ∃ c ∈ [BidiClass.L, .EN, .ES, .CS, .ET, .ON, .BN, .NSM],
      value = some c) ∧
    EndsIn [.L, .EN] classes

theorem endsIn_of_dropWhile {ends : List BidiClass} {classes : List (Option BidiClass)}
    {last : BidiClass} (hlast : last ∈ ends)
    (h : (classes.reverse.dropWhile (· == some .NSM)).head? = some (some last)) :
    EndsIn ends classes := by
  obtain ⟨rest, hrest⟩ := List.head?_eq_some_iff.mp h
  have hsplit := List.takeWhile_append_dropWhile (p := (· == some .NSM)) (l := classes.reverse)
  rw [hrest] at hsplit
  refine ⟨rest.reverse, last, (classes.reverse.takeWhile (· == some .NSM)).reverse, ?_, hlast, ?_⟩
  · have hreverse := congrArg List.reverse hsplit
    rw [List.reverse_reverse, List.reverse_append, List.reverse_cons, List.append_assoc,
      List.singleton_append] at hreverse
    exact hreverse.symm
  · intro mark hmark
    exact beq_iff_eq.mp (List.all_eq_true.mp List.all_takeWhile mark (List.mem_reverse.mp hmark))

theorem bidiLabelValid_rule {unicode : FrozenUnicode} {codePoints : List ℕ}
    (h : bidiLabelValid unicode codePoints = true) :
    BidiRule (codePoints.map unicode.bidiClass) := by
  rw [bidiLabelValid] at h
  generalize codePoints.map unicode.bidiClass = classes at h ⊢
  cases hend : (classes.reverse.dropWhile (· == some .NSM)).head? with
  | none =>
    simp only [hend] at h
    cases h
  | some last =>
    simp only [hend] at h
    cases hhead : classes.head? with
    | none =>
      rw [hhead] at h
      cases h
    | some value =>
      rw [hhead, Option.join_some] at h
      cases value with
      | none => cases h
      | some first =>
        cases first with
        | R | AL =>
          simp only [Bool.and_eq_true, List.all_eq_true, hasClass_iff, Bool.not_eq_true',
            Bool.and_eq_false_iff, List.contains_eq_mem, decide_eq_false_iff_not] at h
          obtain ⟨⟨hall, final, hfinal, rfl⟩, hdigits⟩ := h
          refine ⟨⟨_, by decide, hhead⟩, ?_, ?_⟩
          · intro _
            refine ⟨hall, endsIn_of_dropWhile hfinal hend, ?_⟩
            rintro ⟨heuropean, harabic⟩
            exact hdigits.elim (· heuropean) (· harabic)
          · intro hleft
            rw [hhead] at hleft
            cases hleft
        | L =>
          simp only [Bool.and_eq_true, List.all_eq_true, hasClass_iff] at h
          obtain ⟨hall, final, hfinal, rfl⟩ := h
          refine ⟨⟨_, by decide, hhead⟩, ?_, ?_⟩
          · intro hright
            rw [hhead] at hright
            rcases hright with hright | hright <;> cases hright
          · intro _
            exact ⟨hall, endsIn_of_dropWhile hfinal hend⟩
        | EN | ES | ET | AN | CS | B | S | WS | ON | LRE | LRO | RLE | RLO | PDF | NSM | BN | FSI |
          LRI | RLI | PDI => cases h

theorem canonicalDnsName_ok {unicode : FrozenUnicode} {punycode : Punycode} {value : Value}
    (h : canonicalDnsName unicode punycode value = .ok true) :
    ∃ name labels, value = .string name ∧ decodedName unicode punycode name = .ok (some labels) ∧
      (!isBidiDomain unicode labels || labels.all (bidiLabelValid unicode)) = true := by
  cases value with
  | string name =>
    rw [canonicalDnsName] at h
    by_cases hrefused : (!isNameText name) = true
    · rw [if_pos hrefused] at h
      cases h
    · rw [if_neg hrefused, bind_ok] at h
      obtain ⟨decoded, hdecoded, h⟩ := h
      cases decoded with
      | none => cases h
      | some labels => exact ⟨name, labels, rfl, hdecoded, pure_ok.mp h⟩
  | undefined | null | bool | number | array | object => cases h

/-- Two accepted names decode to different labels, and a name with a label from right to left has
only labels that obey the Bidi rule. -/
theorem canonical_dns_name_law (unicode : FrozenUnicode) (punycode : Punycode) :
    (∀ left right, canonicalDnsName unicode punycode (.string left) = .ok true →
      canonicalDnsName unicode punycode (.string right) = .ok true → left ≠ right →
      ∃ labels labels', decodedName unicode punycode left = .ok (some labels) ∧
        decodedName unicode punycode right = .ok (some labels') ∧ labels ≠ labels') ∧
    ∀ name, canonicalDnsName unicode punycode (.string name) = .ok true →
      ∃ labels, decodedName unicode punycode name = .ok (some labels) ∧
        ((∀ label ∈ labels, ∀ codePoint ∈ label, ∀ c ∈ [BidiClass.R, .AL, .AN],
            unicode.bidiClass codePoint ≠ some c) ∨
          ∀ label ∈ labels, BidiRule (label.map unicode.bidiClass)) := by
  refine ⟨?_, ?_⟩
  · intro left right hleft hright hne
    obtain ⟨_, labels, heq, hlabels, _⟩ := canonicalDnsName_ok hleft
    obtain ⟨_, labels', heq', hlabels', _⟩ := canonicalDnsName_ok hright
    cases heq
    cases heq'
    refine ⟨labels, labels', hlabels, hlabels', ?_⟩
    rintro rfl
    exact hne (decodedName_inj hlabels hlabels')
  · intro name h
    obtain ⟨_, labels, heq, hlabels, hbidi⟩ := canonicalDnsName_ok h
    cases heq
    refine ⟨labels, hlabels, ?_⟩
    rw [Bool.or_eq_true, Bool.not_eq_true'] at hbidi
    rcases hbidi with hplain | hall
    · apply Or.inl
      intro label hlabel codePoint hmem c hc hclass
      have hdomain : isBidiDomain unicode labels = true :=
        List.any_eq_true.mpr ⟨label, hlabel, List.any_eq_true.mpr ⟨codePoint, hmem,
          hasClass_iff.mpr ⟨c, hc, hclass⟩⟩⟩
      rw [hdomain] at hplain
      cases hplain
    · apply Or.inr
      intro label hlabel
      exact bidiLabelValid_rule (List.all_eq_true.mp hall label hlabel)

end GhostBridge.SchemaValidation
