import GhostBridge.DelegatedData.Rules

/-!
# What redactions conceal

A redaction is to be applied wherever its path leads, into the items of arrays as well, and what it
found is not to be shown afterwards.
-/

namespace GhostBridge.DelegatedData

open Ecma Delegation

/-- The mask covers nothing that tells the text from its mask: it hides at most twelve units, and
all of them are asterisks. -/
def maskExposes (text : Text) (cut : Number) : Prop :=
  cut.sliceIndex text.length ≤ 12 ∧ ∀ u ∈ text.take (cut.sliceIndex text.length), u = 0x2a

def maskLength (cut : Number) : Nat :=
  (Number.min (.ofNat 12) (Number.max (.ofNat 4) cut)).wholePart.toNat

private theorem ofNat_four : Number.ofNat 4 = .finite ⟨false, 4 * unitsPerOne, by decide +kernel⟩ := by
  decide +kernel

private theorem ofNat_twelve :
    Number.ofNat 12 = .finite ⟨false, 12 * unitsPerOne, by decide +kernel⟩ := by
  decide +kernel

private theorem maskLength_finite {x : Finite64} (h : x.negative = true → x.units = 0) :
    maskLength (.finite x) = min 12 (max 4 (x.units / unitsPerOne)) := by
  have hsigned := Number.signedUnits_of_not_negative h
  have hwhole := Number.wholePart_of_not_negative h
  have hfour : 4 ≤ x.units / unitsPerOne ↔ 4 * unitsPerOne ≤ x.units :=
    Nat.le_div_iff_mul_le Number.unitsPerOne_pos
  have htwelve : 12 ≤ x.units / unitsPerOne ↔ 12 * unitsPerOne ≤ x.units :=
    Nat.le_div_iff_mul_le Number.unitsPerOne_pos
  have hfour_whole : (Number.ofNat 4).wholePart = 4 := by decide +kernel
  have htwelve_whole : (Number.ofNat 12).wholePart = 12 := by decide +kernel
  have hmin_four : (Number.ofNat 12).min (.ofNat 4) = .ofNat 4 := by decide +kernel
  have hle_of (hle : (Number.ofNat 4).le (.finite x) = true) : 4 * unitsPerOne ≤ x.units := by
    rw [ofNat_four] at hle
    have hint : ((4 * unitsPerOne : Nat) : Int) ≤ x.signedUnits := of_decide_eq_true hle
    omega
  have hle_twelve (hle : (Number.ofNat 12).le (.finite x) = true) : 12 * unitsPerOne ≤ x.units := by
    rw [ofNat_twelve] at hle
    have hint : ((12 * unitsPerOne : Nat) : Int) ≤ x.signedUnits := of_decide_eq_true hle
    omega
  have hge_twelve (hle : (Number.finite x).le (.ofNat 12) = true) : x.units ≤ 12 * unitsPerOne := by
    rw [ofNat_twelve] at hle
    have hint : x.signedUnits ≤ ((12 * unitsPerOne : Nat) : Int) := of_decide_eq_true hle
    omega
  have hge_four (hle : (Number.finite x).le (.ofNat 4) = true) : x.units ≤ 4 * unitsPerOne := by
    rw [ofNat_four] at hle
    have hint : x.signedUnits ≤ ((4 * unitsPerOne : Nat) : Int) := of_decide_eq_true hle
    omega
  have hunit := Number.unitsPerOne_pos
  have hx : Number.finite x ≠ .nan := Number.noConfusion
  unfold maskLength
  rcases Number.max_cases (Number.ofNat_ne_nan 4) hx with ⟨hmax, hle⟩ | ⟨hmax, hle⟩
  · rw [hmax]
    have hle' := hle_of hle
    rcases Number.min_cases (Number.ofNat_ne_nan 12) hx with ⟨hmin, hle⟩ | ⟨hmin, hle⟩
    · have := hle_twelve hle
      rw [hmin, htwelve_whole]
      omega
    · have := hge_twelve hle
      have hquotient : x.units / unitsPerOne ≤ 12 := Nat.div_le_of_le_mul (by omega)
      rw [hmin, hwhole]
      omega
  · have := hge_four hle
    have hquotient : x.units / unitsPerOne ≤ 4 := Nat.div_le_of_le_mul (by omega)
    rw [hmax, hmin_four, hfour_whole]
    omega

theorem maskLength_iff {cut : Number} (h : cut.NotNegative) (length : Nat) :
    cut.sliceIndex length ≤ maskLength cut ↔ cut.sliceIndex length ≤ 12 := by
  cases cut with
  | nan =>
    have hzero : Number.nan.sliceIndex length = 0 := Nat.zero_min length
    rw [hzero]
    exact iff_of_true (Nat.zero_le _) (Nat.zero_le _)
  | infinity negative =>
    cases negative with
    | true => exact absurd rfl h.1
    | false =>
      have htwelve : maskLength (.infinity false) = 12 := by decide +kernel
      rw [htwelve]
  | finite x =>
    have hindex : (Number.finite x).sliceIndex length = min (x.units / unitsPerOne) length :=
      Number.sliceIndex_of_not_negative (h.2 x rfl) length
    rw [hindex, maskLength_finite (h.2 x rfl)]
    omega

theorem notNegative_maskCut (length : Nat) (visibleSuffix : Number) :
    (maskCut length visibleSuffix).NotNegative := by
  have hlength := Number.ofNat_ne_nan length
  have hpositive := Number.notNegative_ofNat length
  unfold maskCut
  generalize Number.ofNat length = total at hlength hpositive
  by_cases hsuffix : visibleSuffix = .nan
  · simp only [hsuffix, Number.nan_min, Number.max_nan, Number.sub_nan]
    exact Number.notNegative_nan
  have hsixteen : Number.ofNat 16 ≠ .infinity false := by decide +kernel
  have hbounded : visibleSuffix.min (.ofNat 16) ≠ .nan ∧
      visibleSuffix.min (.ofNat 16) ≠ .infinity false := by
    rcases Number.min_cases hsuffix (Number.ofNat_ne_nan 16) with ⟨hmin, hle⟩ | ⟨hmin, -⟩
    · rw [hmin]
      refine ⟨hsuffix, fun h => ?_⟩
      rw [h] at hle
      exact hsixteen (Number.eq_infinity_of_le hle)
    · rw [hmin]
      exact ⟨Number.ofNat_ne_nan 16, hsixteen⟩
  generalize visibleSuffix.min (.ofNat 16) = bounded at hbounded
  have hinside : bounded.min total ≠ .nan ∧ bounded.min total ≠ .infinity false ∧
      (bounded.min total).le total = true := by
    rcases Number.min_cases hbounded.1 hlength with ⟨hmin, hle⟩ | ⟨hmin, hle⟩
    · rw [hmin]
      exact ⟨hbounded.1, hbounded.2, hle⟩
    · rw [hmin]
      refine ⟨hlength, fun h => ?_, Number.le_refl_of_ne_nan hlength⟩
      rw [h] at hle
      exact hbounded.2 (Number.eq_infinity_of_le hle)
  generalize bounded.min total = inside at hinside
  rcases Number.max_cases (Number.ofNat_ne_nan 0) hinside.1 with ⟨hmax, hle⟩ | ⟨hmax, -⟩
  · rw [hmax]
    refine Number.notNegative_sub hinside.2.2 fun negative h => ?_
    cases negative with
    | false => exact hinside.2.1 h
    | true =>
      rw [h, Number.ofNat_zero] at hle
      cases hle
  · rw [hmax]
    refine Number.notNegative_sub (Number.zero_le hpositive hlength) fun negative h => ?_
    rw [Number.ofNat_zero] at h
    cases h

theorem infix_covered_iff {text : Text} {covered : Nat} (hcovered : covered ≤ text.length) (count : Nat) :
    text <:+: List.replicate count 0x2a ++ text.drop covered ↔
      covered ≤ count ∧ ∀ u ∈ text.take covered, u = 0x2a := by
  constructor
  · rintro ⟨before, after, h⟩
    have hlength := congrArg List.length h
    simp only [List.length_append, List.length_replicate, List.length_drop] at hlength
    refine ⟨by omega, fun u hu => ?_⟩
    obtain ⟨i, hi, rfl⟩ := List.getElem_of_mem hu
    rw [List.length_take] at hi
    have hat : (before ++ text ++ after)[before.length + i]? =
        (List.replicate count 0x2a ++ text.drop covered)[before.length + i]? := by rw [h]
    rw [List.append_assoc, List.getElem?_append_right (Nat.le_add_right _ _), Nat.add_sub_cancel_left,
      List.getElem?_append_left (by omega), List.getElem?_append_left (by simp; omega),
      List.getElem?_replicate, if_pos (by omega), List.getElem?_eq_getElem (by omega)] at hat
    rw [List.getElem_take]
    exact Option.some.inj hat
  · rintro ⟨hcount, hall⟩
    have htake : text.take covered = List.replicate covered 0x2a := by
      rw [List.eq_replicate_iff]
      exact ⟨List.length_take_of_le hcovered, hall⟩
    refine ⟨List.replicate (count - covered) 0x2a, [], ?_⟩
    have hsplit : count = (count - covered) + covered := by omega
    rw [List.append_nil]
    conv_rhs => rw [hsplit, ← List.replicate_append_replicate, List.append_assoc, ← htake,
      List.take_append_drop]

def Conceals (action : RedactionAction) : Prop := action ≠ .truncate

instance (action : RedactionAction) : Decidable (Conceals action) :=
  inferInstanceAs (Decidable (_ ≠ _))

/-- A value is still shown: in full, or as a part of a masked text. -/
def Shows (action : RedactionAction) (value : Value) : Option Value → Prop
  | none => False
  | some shown =>
    match action with
    | .mask => ∃ text masked, value.toText? = some text ∧ shown = .string masked ∧ text <:+: masked
    | _ => shown = value

/-- What is asked of one rule: it is applied at every position that its path spells, does not show
what it found there, and leaves all others as they are. -/
structure RuleLaw (runtime : Runtime) (raw found left : Value) (action : RedactionAction)
    (segments : List Text) : Prop where
  applied : ∀ q value, Position.spells q segments = true → found.at? q = some value →
    ∃ written, redactedValue runtime (copyOf raw) action value = .ok written ∧ left.at? q = written
  concealed : Conceals action → ∀ q value, Position.spells q segments = true →
    found.at? q = some value → ¬Shows action value (left.at? q)
  unchanged : ∀ q, Position.passes q segments = false → left.shapeAt q = found.shapeAt q

def HiddenBy (runtime : Runtime) (raw : Value) (action : RedactionAction) (value : Value) : Prop :=
  match action with
  | .remove => True
  | .truncate => True
  | .replace => ∀ marker, replacementText (copyOf raw) = .ok marker → value ≠ .string marker
  | .mask => ∀ text suffix, value.toText? = some text →
      visibleUnits ((copyOf raw).field (ascii "visibleSuffix")) = .ok suffix →
      ¬maskExposes text (maskCut text.length suffix)
  | .sha256 => ∀ text purpose, value = .string text →
      textOf ((copyOf raw).field (ascii "ruleId")) = .ok purpose →
      digestText runtime purpose false text ≠ text
  | .pseudonymize => ∀ text purpose, value = .string text →
      textOf ((copyOf raw).field (ascii "ruleId")) = .ok purpose →
      digestText runtime purpose true text ≠ text

/-- The condition on the payload that a rule finds: its path leads to no value inside an array, a
short enough text under a truncation apart, and what it finds is hidden. -/
structure SafeFor (runtime : Runtime) (raw found : Value) (action : RedactionAction)
    (segments : List Text) : Prop where
  inItems : ∀ q value, Position.spells q segments = true → Position.isNamed q = false →
    found.at? q = some value → action = .truncate ∧
      ∃ text, value = .string text ∧ truncatedLength (copyOf raw) text.length = .ok text.length
  hidden : ∀ value, found.at? (.ofNames segments) = some value →
    HiddenBy runtime raw action value

variable {runtime : Runtime} {raw payload left found value : Value} {index : Nat} {changed : Bool}
  {segments : List Text} {action : RedactionAction} {q : Position}

def redactionAction (raw : Value) : Option RedactionAction :=
  RedactionAction.ofValue? ((copyOf raw).field (ascii "action"))

def redactionPath (raw : Value) : Attempt (List Text) :=
  pathSegments ((copyOf raw).field (ascii "path"))

theorem normalizeRule_ok {rule : Value} {kind : RuleKind} (h : normalizeRule raw index kind = .ok rule) :
    rule = copyOf raw ∧ ∃ purpose, textOf (rule.field (ascii "ruleId")) = .ok purpose := by
  unfold normalizeRule at h
  obtain ⟨_, -, h⟩ := bind_ok.mp h
  obtain ⟨copy, hcopy, h⟩ := bind_ok.mp h
  obtain ⟨_, -, h⟩ := bind_ok.mp h
  obtain ⟨purpose, hpurpose, h⟩ := bind_ok.mp h
  obtain ⟨_, -, h⟩ := bind_ok.mp h
  obtain rfl := pure_ok.mp h
  exact ⟨safeClone_ok hcopy, purpose, hpurpose⟩

theorem redactedValue_text {rule written : Value}
    (h : redactedValue runtime rule action value = .ok (some written)) :
    ∃ text, written = .string text := by
  unfold redactedValue at h
  obtain ⟨purpose, -, h⟩ := bind_ok.mp h
  cases action with
  | remove => cases pure_ok.mp h
  | truncate =>
    obtain ⟨text, -, h⟩ := bind_ok.mp h
    obtain ⟨kept, -, h⟩ := bind_ok.mp h
    exact ⟨_, (Option.some.inj (pure_ok.mp h)).symm⟩
  | _ =>
    obtain ⟨text, -, h⟩ := bind_ok.mp h
    exact ⟨_, (Option.some.inj (pure_ok.mp h)).symm⟩

structure Redaction (runtime : Runtime) (raw found left : Value) (action : RedactionAction)
    (segments : List Text) : Prop where
  purpose : ∃ purpose, textOf ((copyOf raw).field (ascii "ruleId")) = .ok purpose
  absent : found.at? (.ofNames segments) = none → left = found
  present : ∀ value, found.at? (.ofNames segments) = some value →
    ∃ written, redactedValue runtime (copyOf raw) action value = .ok written ∧
      (∀ q, left.at? (Position.ofNames segments ++ q) = written.bind fun w => w.at? q) ∧
      (∀ q, ¬Position.ofNames segments <+: q → ¬q <+: Position.ofNames segments →
        left.at? q = found.at? q) ∧
      ∀ q, q <+: Position.ofNames segments → q ≠ Position.ofNames segments →
        left.shapeAt q = found.shapeAt q
  unique : found.uniqueKeys = true → left.uniqueKeys = true

theorem applyRedaction_ok (h : applyRedaction runtime raw index found = .ok (left, changed)) :
    ∃ action segments, redactionAction raw = some action ∧ redactionPath raw = .ok segments ∧
      Redaction runtime raw found left action segments := by
  unfold applyRedaction at h
  obtain ⟨rule, hrule, h⟩ := bind_ok.mp h
  obtain ⟨action, haction, h⟩ := bind_ok.mp h
  obtain ⟨rfl, hpurpose⟩ := normalizeRule_ok hrule
  unfold replacePath at h
  obtain ⟨segments, hsegments, h⟩ := bind_ok.mp h
  have hsafe := safePath_of_pathSegments hsegments
  refine ⟨action, segments, orThrow_ok.mp haction, hsegments, ?_⟩
  rw [readOwn_eq_at found hsafe.ne_nil hsafe.safe] at h
  cases hread : found.at? (.ofNames segments) with
  | none =>
    rw [hread] at h
    obtain rfl : found = left := congrArg Prod.fst (pure_ok.mp h)
    exact ⟨hpurpose, fun _ => rfl, fun value hvalue => (nomatch hread.symm.trans hvalue), id⟩
  | some value =>
    rw [hread] at h
    obtain ⟨written, hwritten, h⟩ := bind_ok.mp h
    have habsent : found.at? (.ofNames segments) = none → left = found := by
      intro hnone
      cases hread.symm.trans hnone
    cases written with
    | none =>
      obtain rfl : deleteSegments found segments = left := congrArg Prod.fst (pure_ok.mp h)
      refine ⟨hpurpose, habsent, fun other hother => ?_, fun hunique => uniqueKeys_deleteSegments hunique segments⟩
      obtain rfl : value = other := Option.some.inj (hread.symm.trans hother)
      exact ⟨none, hwritten, at?_deleteSegments hsafe.ne_nil found,
        fun q => at?_deleteSegments_beside hsafe.ne_nil found,
        fun q => shapeAt_deleteSegments_above hsafe.ne_nil found⟩
    | some next =>
      obtain ⟨assigned, hassigned, h⟩ := bind_ok.mp h
      obtain rfl : assigned = left := congrArg Prod.fst (pure_ok.mp h)
      have hroot : ([] : Position) ≠ Position.ofNames segments := by
        intro e
        exact hsafe.ne_nil (List.map_eq_nil_iff.mp e.symm)
      obtain ⟨members, hmembers⟩ := at?_above hread List.nil_prefix hroot
      have hobject : found = .object members := by
        rw [Value.at?_nil] at hmembers
        split at hmembers
        · cases hmembers
        · exact Option.some.inj hmembers
      subst hobject
      obtain ⟨assignedMembers, hassign, hassigned⟩ := bind_ok.mp hassigned
      obtain rfl := pure_ok.mp hassigned
      obtain ⟨text, rfl⟩ := redactedValue_text hwritten
      refine ⟨hpurpose, habsent, fun other hother => ?_, fun hunique =>
        uniqueKeys_assignMembers hassign hunique rfl⟩
      obtain rfl : value = other := Option.some.inj (hread.symm.trans hother)
      refine ⟨some (.string text), hwritten, at?_assignMembers hsafe.ne_nil hassign,
        fun q => at?_assignMembers_beside hsafe.ne_nil hassign, fun q habove hq => ?_⟩
      obtain ⟨inner, hinner⟩ := at?_assignMembers_above hsafe.ne_nil hassign habove hq
      obtain ⟨outer, houter⟩ := at?_above hread habove hq
      unfold Value.shapeAt
      rw [hinner, houter]
      rfl

theorem Redaction.shapeAt_of_not_passes (h : Redaction runtime raw found left action segments)
    (hpasses : Position.passes q segments = false) : left.shapeAt q = found.shapeAt q := by
  have hbelow : ¬Position.ofNames segments <+: q := by
    rintro ⟨rest, rfl⟩
    rw [Position.passes_ofNames_append] at hpasses
    cases hpasses
  cases hvalue : found.at? (.ofNames segments) with
  | none => rw [h.absent hvalue]
  | some value =>
    obtain ⟨written, -, -, hbeside, habove⟩ := h.present value hvalue
    by_cases hway : q <+: Position.ofNames segments
    · apply habove q hway
      rintro rfl
      exact hbelow List.prefix_rfl
    · unfold Value.shapeAt
      rw [hbeside q hbelow hway]

private theorem not_shows_digest {purpose digest : Text} {pseudonymized : Bool}
    (h : hashValue runtime value purpose pseudonymized = .ok digest)
    (hpurpose : textOf ((copyOf raw).field (ascii "ruleId")) = .ok purpose) :
    ¬Value.string digest = value ↔ ∀ text purpose, value = .string text →
      textOf ((copyOf raw).field (ascii "ruleId")) = .ok purpose →
      digestText runtime purpose pseudonymized text ≠ text := by
  unfold hashValue at h
  obtain ⟨text, htext, h⟩ := bind_ok.mp h
  obtain ⟨_, -, h⟩ := bind_ok.mp h
  obtain rfl := pure_ok.mp h
  constructor
  · rintro hnot other otherPurpose rfl hother hfixed
    obtain rfl : purpose = otherPurpose := Except.ok.inj (hpurpose.symm.trans hother)
    obtain rfl : other = text := Except.ok.inj htext
    exact hnot (congrArg Value.string hfixed)
  · rintro hhidden rfl
    have hfixed : digestText runtime purpose pseudonymized text = text := Except.ok.inj htext
    exact hhidden text purpose (congrArg Value.string hfixed) hpurpose hfixed

theorem not_shows_iff {written : Option Value}
    (h : redactedValue runtime (copyOf raw) action value = .ok written) (hconceals : Conceals action) :
    ¬Shows action value written ↔ HiddenBy runtime raw action value := by
  unfold redactedValue at h
  obtain ⟨purpose, hpurpose, h⟩ := bind_ok.mp h
  cases action with
  | remove =>
    obtain rfl : none = written := pure_ok.mp h
    exact iff_of_true id trivial
  | truncate => exact absurd rfl hconceals
  | replace =>
    obtain ⟨marker, hmarker, h⟩ := bind_ok.mp h
    obtain rfl : some (.string marker) = written := pure_ok.mp h
    constructor
    · intro hnot other hother heq
      obtain rfl : marker = other := Except.ok.inj (hmarker.symm.trans hother)
      exact hnot heq.symm
    · intro hhidden hshows
      exact hhidden marker hmarker hshows.symm
  | mask =>
    obtain ⟨masked, hmasked, h⟩ := bind_ok.mp h
    obtain rfl : some (.string masked) = written := pure_ok.mp h
    unfold mask at hmasked
    obtain ⟨text, htext, hmasked⟩ := bind_ok.mp hmasked
    obtain ⟨suffix, hsuffix, hmasked⟩ := bind_ok.mp hmasked
    obtain rfl := pure_ok.mp hmasked
    have htext' := orThrow_ok.mp htext
    have hcut := notNegative_maskCut text.length suffix
    have hexposes : text <:+: maskFrom text (maskCut text.length suffix) ↔
        maskExposes text (maskCut text.length suffix) := by
      unfold maskExposes
      rw [← maskLength_iff hcut]
      exact infix_covered_iff (Number.sliceIndex_le _ _) _
    constructor
    · intro hnot other otherSuffix hother hotherSuffix hexposed
      obtain rfl : text = other := Option.some.inj (htext'.symm.trans hother)
      obtain rfl : suffix = otherSuffix := Except.ok.inj (hsuffix.symm.trans hotherSuffix)
      exact hnot ⟨text, _, htext', rfl, hexposes.mpr hexposed⟩
    · rintro hhidden ⟨other, masked, hother, hmasked, hinfix⟩
      obtain rfl : text = other := Option.some.inj (htext'.symm.trans hother)
      obtain rfl := Value.string.inj hmasked
      exact hhidden text suffix htext' hsuffix (hexposes.mp hinfix)
  | sha256 =>
    obtain ⟨digest, hdigest, h⟩ := bind_ok.mp h
    obtain rfl : some (.string digest) = written := pure_ok.mp h
    exact not_shows_digest hdigest hpurpose
  | pseudonymize =>
    obtain ⟨digest, hdigest, h⟩ := bind_ok.mp h
    obtain rfl : some (.string digest) = written := pure_ok.mp h
    exact not_shows_digest hdigest hpurpose

theorem kept_iff {left : Option Value} (hleft : left = some value)
    (hpurpose : ∃ purpose, textOf ((copyOf raw).field (ascii "ruleId")) = .ok purpose) :
    ((∃ written, redactedValue runtime (copyOf raw) action value = .ok written ∧ left = written) ∧
        (Conceals action → ¬Shows action value left)) ↔
      action = .truncate ∧ ∃ text, value = .string text ∧
        truncatedLength (copyOf raw) text.length = .ok text.length := by
  subst hleft
  constructor
  · rintro ⟨⟨written, hwritten, rfl⟩, hconcealed⟩
    obtain ⟨text, rfl⟩ := redactedValue_text hwritten
    have htruncate : action = .truncate := by
      by_contra hconceals
      apply hconcealed hconceals
      cases action with
      | mask => exact ⟨text, text, rfl, rfl, List.infix_rfl⟩
      | _ => exact rfl
    subst htruncate
    refine ⟨rfl, text, rfl, ?_⟩
    unfold redactedValue at hwritten
    obtain ⟨purpose, -, hwritten⟩ := bind_ok.mp hwritten
    obtain ⟨other, hother, hwritten⟩ := bind_ok.mp hwritten
    obtain ⟨kept, hkept, hwritten⟩ := bind_ok.mp hwritten
    obtain rfl : text = other := Option.some.inj (orThrow_ok.mp hother)
    have htake : text.take kept = text := Value.string.inj (Option.some.inj (pure_ok.mp hwritten))
    have hlength : text.length ≤ kept := List.take_eq_self_iff _ |>.mp htake
    have hbound : kept ≤ text.length := by
      unfold truncatedLength at hkept
      obtain ⟨maximum, -, hkept⟩ := bind_ok.mp hkept
      rw [← pure_ok.mp hkept]
      exact Number.sliceIndex_le _ _
    rw [hkept, Nat.le_antisymm hbound hlength]
  · rintro ⟨rfl, text, rfl, hlength⟩
    refine ⟨⟨some (.string text), ?_, rfl⟩, fun hconceals => absurd rfl hconceals⟩
    obtain ⟨purpose, hpurpose⟩ := hpurpose
    unfold redactedValue
    rw [hpurpose]
    show (textOf (Value.string text) >>= fun text => truncatedLength (copyOf raw) text.length >>=
      fun kept => pure (some (Value.string (text.take kept)))) = _
    have htext : textOf (Value.string text) = .ok text := rfl
    rw [htext, ok_bind, hlength, ok_bind, List.take_length]
    rfl

theorem ruleLaw_iff (h : Redaction runtime raw found left action segments) :
    RuleLaw runtime raw found left action segments ↔ SafeFor runtime raw found action segments := by
  have hitems {q : Position} {value : Value} (hspells : Position.spells q segments = true)
      (hitem : Position.isNamed q = false) (hvalue : found.at? q = some value) :
      left.at? q = some value := by
    rw [h.absent (Value.at?_ofNames_of_item hspells hitem (by rw [hvalue]; exact Option.some_ne_none _))]
    exact hvalue
  have hnamed {value : Value} (hvalue : found.at? (.ofNames segments) = some value) :
      ∃ written, redactedValue runtime (copyOf raw) action value = .ok written ∧
        left.at? (.ofNames segments) = written := by
    obtain ⟨written, hwritten, hat, -⟩ := h.present value hvalue
    refine ⟨written, hwritten, ?_⟩
    have hroot := hat []
    rw [List.append_nil] at hroot
    rw [hroot]
    cases written with
    | none => rfl
    | some w =>
      obtain ⟨text, rfl⟩ := redactedValue_text hwritten
      rfl
  constructor
  · intro hlaw
    constructor
    · intro q value hspells hitem hvalue
      exact (kept_iff (hitems hspells hitem hvalue) h.purpose).mp ⟨hlaw.applied q value hspells hvalue,
        fun hconceals => hlaw.concealed hconceals q value hspells hvalue⟩
    · intro value hvalue
      by_cases hconceals : Conceals action
      · obtain ⟨written, hwritten, hleft⟩ := hnamed hvalue
        rw [← not_shows_iff hwritten hconceals, ← hleft]
        exact hlaw.concealed hconceals _ value (Position.spells_ofNames segments) hvalue
      · obtain rfl : action = .truncate := not_not.mp hconceals
        trivial
  · intro hsafe
    have hcase {q : Position} {value : Value} (hspells : Position.spells q segments = true)
        (hvalue : found.at? q = some value) :
        (∃ written, redactedValue runtime (copyOf raw) action value = .ok written ∧
          left.at? q = written) ∧ (Conceals action → ¬Shows action value (left.at? q)) := by
      cases hitem : Position.isNamed q with
      | false =>
        exact (kept_iff (hitems hspells hitem hvalue) h.purpose).mpr
          (hsafe.inItems q value hspells hitem hvalue)
      | true =>
        obtain rfl := Position.eq_ofNames_of_spells hspells hitem
        obtain ⟨written, hwritten, hleft⟩ := hnamed hvalue
        refine ⟨⟨written, hwritten, hleft⟩, fun hconceals => ?_⟩
        rw [hleft, not_shows_iff hwritten hconceals]
        exact hsafe.hidden value hvalue
    constructor
    · intro q value hspells hvalue
      exact (hcase hspells hvalue).1
    · intro hconceals q value hspells hvalue
      exact (hcase hspells hvalue).2 hconceals
    · intro q hpasses
      exact h.shapeAt_of_not_passes hpasses

end GhostBridge.DelegatedData
