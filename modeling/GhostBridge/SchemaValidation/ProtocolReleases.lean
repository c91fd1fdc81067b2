import GhostBridge.Ecma.Decimal
import GhostBridge.Ecma.Json
import GhostBridge.Ecma.Outcome

/-!
# Protocol releases

A release is named by an epoch, a revision and, before it is final, a stage and an iteration.
-/

namespace GhostBridge.SchemaValidation

open Ecma

inductive ReleaseStage where
  | experimental
  | draft
  | alpha
  | beta
  | rc
  | final
deriving DecidableEq

namespace ReleaseStage

def text : ReleaseStage → Text
  | experimental => ascii "experimental"
  | draft => ascii "draft"
  | alpha => ascii "alpha"
  | beta => ascii "beta"
  | rc => ascii "rc"
  | final => ascii "final"

/-- `PROTOCOL_RELEASE_STAGE_RANK`. -/
def rank : ReleaseStage → ℕ
  | experimental => 0
  | draft => 1
  | alpha => 2
  | beta => 3
  | rc => 4
  | final => 5

def named : List ReleaseStage := [experimental, draft, alpha, beta, rc]

theorem rank_injective : Function.Injective rank := by
  intro a b h
  cases a <;> cases b <;> first | rfl | cases h

theorem mem_named {stage : ReleaseStage} : stage ∈ named ↔ stage ≠ final := by
  cases stage <;> decide

end ReleaseStage

/-- A `ProtocolReleaseValidationError`. -/
structure ReleaseError where
  code : String
  message : String
deriving DecidableEq

/-- `PROTOCOL_RELEASE_MAXIMUM_COMPONENT`. -/
def maximumComponent : ℕ := 2147483647

/-- `PROTOCOL_RELEASE_MAXIMUM_LENGTH`. -/
def maximumReleaseLength : ℕ := 59

/-- `0|[1-9][0-9]{0,9}` at the start of a text, and what follows. -/
def scanComponent : Text → Option (Text × Text)
  | [] => none
  | u :: rest =>
    if u = 0x30 then some ([u], rest)
    else if isDigit u then
      let digits := (rest.takeWhile isDigit).take 9
      some (u :: digits, rest.drop digits.length)
    else none

def scanStage (text : Text) : Option (ReleaseStage × Text) :=
  ReleaseStage.named.findSome? fun stage =>
    (Json.stripPrefix? stage.text text).map fun rest => (stage, rest)

structure ReleaseMatch where
  epoch : Text
  revision : Text
  prerelease : Option (ReleaseStage × Text)

def scanPrerelease (text : Text) : Option (ReleaseStage × Text) := do
  let rest ← Json.stripPrefix? (ascii "-") text
  let (stage, rest) ← scanStage rest
  let rest ← Json.stripPrefix? (ascii ".") rest
  let (iteration, rest) ← scanComponent rest
  if rest = [] then some (stage, iteration) else none

/-- `PROTOCOL_RELEASE_PATTERN.exec(value)`. Where a digit follows a run of digits nothing else of the
pattern matches, so shorter runs need not be tried. -/
def matchRelease (text : Text) : Option ReleaseMatch := do
  let rest ← Json.stripPrefix? (ascii "ghostbridge/e") text
  let (epoch, rest) ← scanComponent rest
  let rest ← Json.stripPrefix? (ascii ".r") rest
  let (revision, rest) ← scanComponent rest
  if rest = [] then some ⟨epoch, revision, none⟩
  else (scanPrerelease rest).map fun prerelease => ⟨epoch, revision, some prerelease⟩

def rangeError (componentName : String) : ReleaseError :=
  ⟨"FND-PROTOCOL-RELEASE-RANGE", componentName ++ " exceeds 2147483647"⟩

/-- `parseBoundedDecimal(component, componentName)`, from an accumulator on. -/
def parseDecimalFrom (componentName : String) (value : ℕ) : Text → Except ReleaseError ℕ
  | [] => .ok value
  | u :: rest => do
    throwWhen (!isDigit u)
      ⟨"FND-PROTOCOL-RELEASE-LEXICAL", componentName ++ " contains a non-ASCII decimal digit"⟩
    throwWhen ((maximumComponent - digitOf u) / 10 < value) (rangeError componentName)
    parseDecimalFrom componentName (value * 10 + digitOf u) rest

def parseBoundedDecimal (component : Text) (componentName : String) : Except ReleaseError ℕ :=
  parseDecimalFrom componentName 0 component

structure ProtocolRelease where
  value : Text
  epoch : ℕ
  revision : ℕ
  stage : ReleaseStage
  stageRank : ℕ
  iteration : Option ℕ
deriving DecidableEq

def parseIteration : Option (ReleaseStage × Text) → Except ReleaseError (Option ℕ)
  | none => .ok none
  | some (_, iteration) => some <$> parseBoundedDecimal iteration "iteration"

def parseProtocolRelease (value : Value) : Except ReleaseError ProtocolRelease :=
  match value with
  | .string text => do
    throwWhen (maximumReleaseLength < text.length)
      ⟨"FND-PROTOCOL-RELEASE-LENGTH", "ProtocolRelease exceeds 59 characters"⟩
    let groups ← orThrow
      ⟨"FND-PROTOCOL-RELEASE-LEXICAL", "ProtocolRelease is not canonical"⟩ (matchRelease text)
    let epoch ← parseBoundedDecimal groups.epoch "epoch"
    let revision ← parseBoundedDecimal groups.revision "revision"
    let stage := (groups.prerelease.map Prod.fst).getD .final
    let iteration ← parseIteration groups.prerelease
    return ⟨text, epoch, revision, stage, stage.rank, iteration⟩
  | _ => throw ⟨"FND-PROTOCOL-RELEASE-TYPE", "ProtocolRelease must be a string"⟩

/-- `LESS`, `EQUAL` or `GREATER`. -/
def compareIntegers (left right : ℕ) : Ordering := compare left right

def compareReleases (left right : ProtocolRelease) : Ordering :=
  (compareIntegers left.epoch right.epoch).then <|
  (compareIntegers left.revision right.revision).then <|
  (compareIntegers left.stageRank right.stageRank).then <|
  if left.stage ≠ .final then
    compareIntegers (left.iteration.getD 0) (right.iteration.getD 0)
  else .eq

def compareProtocolReleases (left right : Value) : Except ReleaseError Ordering := do
  let parsedLeft ← parseProtocolRelease left
  let parsedRight ← parseProtocolRelease right
  return compareReleases parsedLeft parsedRight

/-- The numbers and the stage of a release; only a final release has no iteration. -/
structure ReleaseParts where
  epoch : ℕ
  revision : ℕ
  stage : ReleaseStage
  iteration : Option ℕ
  final_iff : stage = .final ↔ iteration = none

namespace ReleaseParts

variable (parts : ReleaseParts)

def suffix : Text :=
  match parts.iteration with
  | none => []
  | some iteration => ascii "-" ++ parts.stage.text ++ ascii "." ++ decimalDigits iteration

def write : Text :=
  ascii "ghostbridge/e" ++ decimalDigits parts.epoch ++ ascii ".r" ++
    decimalDigits parts.revision ++ parts.suffix

def release : ProtocolRelease :=
  ⟨parts.write, parts.epoch, parts.revision, parts.stage, parts.stage.rank, parts.iteration⟩

def Bounded : Prop :=
  parts.epoch ≤ maximumComponent ∧ parts.revision ≤ maximumComponent ∧
    ∀ iteration ∈ parts.iteration, iteration ≤ maximumComponent

end ReleaseParts

end GhostBridge.SchemaValidation

/-!
## The order of protocol releases

The parser accepts the canonical texts of bounded numbers and no others, so a release is the same
as its text, and the comparison of releases is a total order of their texts.
-/

namespace GhostBridge.SchemaValidation

open Ecma

theorem stripPrefix?_eq_some {p text rest : Text} :
    Json.stripPrefix? p text = some rest ↔ text = p ++ rest := by
  constructor
  · intro h
    induction p generalizing text with
    | nil => exact Option.some.inj h
    | cons u us ih =>
      cases text with
      | nil => cases h
      | cons v vs =>
        rw [Json.stripPrefix?] at h
        by_cases huv : u = v
        · rw [if_pos huv] at h
          rw [huv, ih h, List.cons_append]
        · rw [if_neg huv] at h
          cases h
  · intro h
    rw [h, Json.stripPrefix?_append]

def IsCanonical (ds : Text) : Prop :=
  ds = [0x30] ∨ ∃ u us, ds = u :: us ∧ u ≠ 0x30 ∧ AreDigits ds

theorem isCanonical_decimalDigits (n : ℕ) : IsCanonical (decimalDigits n) := by
  by_cases hn : n = 0
  · subst hn
    exact Or.inl rfl
  · obtain ⟨u, us, hdigits, hu⟩ := decimalDigits_head (Nat.pos_of_ne_zero hn)
    exact Or.inr ⟨u, us, hdigits, hu, decimalDigits_isDigit n⟩

theorem IsCanonical.areDigits {ds : Text} (h : IsCanonical ds) : AreDigits ds := by
  rcases h with rfl | ⟨u, us, rfl, _, hdigits⟩
  · intro u hu
    rw [List.mem_singleton.mp hu]
    rfl
  · exact hdigits

theorem IsCanonical.eq_of_value {as bs : Text} (ha : IsCanonical as) (hb : IsCanonical bs)
    (h : digitsValue as = digitsValue bs) : as = bs := by
  have hzero : digitsValue [0x30] = 0 := rfl
  have hpositive {u : UInt16} {us : Text} (hu : u ≠ 0x30) (hdigits : AreDigits (u :: us)) :
      0 < digitsValue (u :: us) :=
    Nat.lt_of_lt_of_le (Nat.pow_pos (by decide)) (pow_le_digitsValue hdigits hu)
  rcases ha with rfl | ⟨u, us, rfl, hu, hus⟩
  · rcases hb with rfl | ⟨v, vs, rfl, hv, hvs⟩
    · rfl
    · have hvalue := hpositive hv hvs
      omega
  · rcases hb with rfl | ⟨v, vs, rfl, hv, hvs⟩
    · have hvalue := hpositive hu hus
      omega
    · have hlength : us.length = vs.length := by
        have hlow := pow_le_digitsValue hus hu
        have hhigh := digitsValue_lt hus
        have hlow' := pow_le_digitsValue hvs hv
        have hhigh' := digitsValue_lt hvs
        rw [List.length_cons] at hhigh hhigh'
        have hle : us.length < vs.length + 1 :=
          (Nat.pow_lt_pow_iff_right (by decide : 1 < 10)).mp (by omega)
        have hge : vs.length < us.length + 1 :=
          (Nat.pow_lt_pow_iff_right (by decide : 1 < 10)).mp (by omega)
        omega
      have hlengths : (u :: us).length = (v :: vs).length := congrArg (· + 1) hlength
      apply Text.le_antisymm
      · exact (le_iff_digitsValue_le hus hvs hlengths).mpr h.le
      · exact (le_iff_digitsValue_le hvs hus hlengths.symm).mpr h.ge

theorem IsCanonical.eq_decimalDigits {ds : Text} (h : IsCanonical ds) :
    ds = decimalDigits (digitsValue ds) :=
  h.eq_of_value (isCanonical_decimalDigits _) (digitsValue_decimalDigits _).symm

theorem length_decimalDigits_le {n : ℕ} (h : n < 10 ^ 10) : (decimalDigits n).length ≤ 10 := by
  by_cases hn : n = 0
  · subst hn
    decide
  · obtain ⟨u, us, hdigits, hu⟩ := decimalDigits_head (Nat.pos_of_ne_zero hn)
    have hare : AreDigits (u :: us) := by
      rw [← hdigits]
      exact decimalDigits_isDigit n
    have hlow := pow_le_digitsValue hare hu
    rw [← hdigits, digitsValue_decimalDigits] at hlow
    have hlength : us.length < 10 :=
      (Nat.pow_lt_pow_iff_right (by decide : 1 < 10)).mp (Nat.lt_of_le_of_lt hlow h)
    rw [hdigits, List.length_cons]
    omega

def EndsDigits (rest : Text) : Prop := ∀ u, rest.head? = some u → isDigit u = false

theorem scanComponent_decimalDigits {n : ℕ} (h : n < 10 ^ 10) {rest : Text}
    (hrest : EndsDigits rest) :
    scanComponent (decimalDigits n ++ rest) = some (decimalDigits n, rest) := by
  by_cases hn : n = 0
  · subst hn
    rfl
  · obtain ⟨u, us, hdigits, hu⟩ := decimalDigits_head (Nat.pos_of_ne_zero hn)
    have hall := decimalDigits_isDigit n
    have hlength := length_decimalDigits_le h
    rw [hdigits] at hall hlength ⊢
    rw [List.length_cons] at hlength
    have htake := (takeWhile_digits (fun v hv => hall v (List.mem_cons_of_mem _ hv)) hrest).1
    rw [List.cons_append, scanComponent, if_neg hu, if_pos (hall u List.mem_cons_self)]
    simp only [htake, List.take_of_length_le (Nat.le_of_succ_le_succ hlength), List.drop_left]

theorem scanComponent_spec {text digits rest : Text} (h : scanComponent text = some (digits, rest)) :
    text = digits ++ rest ∧ IsCanonical digits := by
  cases text with
  | nil => cases h
  | cons u us =>
    rw [scanComponent] at h
    by_cases hzero : u = 0x30
    · rw [if_pos hzero] at h
      cases h
      exact ⟨rfl, Or.inl (by rw [hzero])⟩
    · rw [if_neg hzero] at h
      by_cases hdigit : isDigit u = true
      · rw [if_pos hdigit] at h
        cases h
        have htaken : (us.takeWhile isDigit).take 9 =
            us.take ((us.takeWhile isDigit).take 9).length := by
          have hprefix : (us.takeWhile isDigit).take 9 <+: us :=
            (List.take_prefix _ _).trans (List.takeWhile_prefix _)
          exact List.prefix_iff_eq_take.mp hprefix
        refine ⟨?_, Or.inr ⟨u, _, rfl, hzero, ?_⟩⟩
        · rw [List.cons_append]
          conv_lhs => rw [← List.take_append_drop ((us.takeWhile isDigit).take 9).length us]
          rw [← htaken]
        · intro v hv
          rcases List.mem_cons.mp hv with rfl | hv
          · exact hdigit
          · exact (List.all_eq_true.mp List.all_takeWhile) v (List.mem_of_mem_take hv)
      · rw [if_neg hdigit] at h
        cases h

theorem parseDecimalFrom_ok {componentName : String} {digits : Text} (hdigits : AreDigits digits)
    {start value : ℕ} (hstart : start ≤ maximumComponent) :
    parseDecimalFrom componentName start digits = .ok value ↔
      value = start * 10 ^ digits.length + digitsValue digits ∧ value ≤ maximumComponent := by
  induction digits generalizing start with
  | nil =>
    have hempty : digitsValue [] = 0 := rfl
    rw [parseDecimalFrom, List.length_nil, Nat.pow_zero, Nat.mul_one, hempty, Nat.add_zero]
    constructor
    · intro h
      obtain rfl := Except.ok.inj h
      exact ⟨rfl, hstart⟩
    · rintro ⟨rfl, _⟩
      rfl
  | cons u us ih =>
    have hdigit := hdigits u List.mem_cons_self
    have hbound := digitOf_lt hdigit
    have hvalue : start * 10 ^ (u :: us).length + digitsValue (u :: us) =
        (start * 10 + digitOf u) * 10 ^ us.length + digitsValue us := by
      rw [digitsValue_cons, List.length_cons, Nat.pow_succ]
      ring
    rw [parseDecimalFrom, hvalue]
    simp only [bind_ok, throwWhen_ok, exists_unit, hdigit, Bool.not_true, true_and,
      decide_eq_false_iff_not, Nat.not_lt]
    have hguard : start ≤ (maximumComponent - digitOf u) / 10 ↔
        start * 10 + digitOf u ≤ maximumComponent := by
      unfold maximumComponent
      omega
    rw [hguard]
    constructor
    · rintro ⟨hnext, h⟩
      exact (ih hdigits.tail hnext).mp h
    · rintro ⟨rfl, hle⟩
      have hpow : 1 ≤ 10 ^ us.length := Nat.pow_pos (by decide)
      have hscaled := Nat.mul_le_mul_left (start * 10 + digitOf u) hpow
      have hnext : start * 10 + digitOf u ≤ maximumComponent := by omega
      exact ⟨hnext, (ih hdigits.tail hnext).mpr ⟨rfl, hle⟩⟩

theorem parseBoundedDecimal_ok {componentName : String} {digits : Text} (hdigits : AreDigits digits)
    {value : ℕ} :
    parseBoundedDecimal digits componentName = .ok value ↔
      value = digitsValue digits ∧ value ≤ maximumComponent := by
  rw [parseBoundedDecimal, parseDecimalFrom_ok hdigits (Nat.zero_le _), Nat.zero_mul, Nat.zero_add]

theorem parseDecimalFrom_le {componentName : String} {text : Text} {start value : ℕ}
    (hstart : start ≤ maximumComponent)
    (h : parseDecimalFrom componentName start text = .ok value) : value ≤ maximumComponent := by
  induction text generalizing start with
  | nil =>
    obtain rfl := Except.ok.inj h
    exact hstart
  | cons u us ih =>
    rw [parseDecimalFrom] at h
    simp only [bind_ok, throwWhen_ok, exists_unit, Bool.not_eq_false', decide_eq_false_iff_not,
      Nat.not_lt] at h
    obtain ⟨hdigit, hguard, hrest⟩ := h
    have hbound := digitOf_lt hdigit
    apply ih _ hrest
    unfold maximumComponent at hguard ⊢
    omega

theorem stripPrefix?_stage (stage other : ReleaseStage) (rest : Text) :
    Json.stripPrefix? other.text (stage.text ++ rest) = if other = stage then some rest else none := by
  by_cases h : other = stage
  · rw [if_pos h, h, Json.stripPrefix?_append]
  · rw [if_neg h]
    cases stage <;> cases other <;> first | rfl | exact absurd rfl h

theorem scanStage_text {stage : ReleaseStage} (hstage : stage ≠ .final) (rest : Text) :
    scanStage (stage.text ++ rest) = some (stage, rest) := by
  simp only [scanStage, ReleaseStage.named, List.findSome?_cons, stripPrefix?_stage]
  cases stage with
  | final => exact absurd rfl hstage
  | experimental | draft | alpha | beta | rc => rfl

theorem scanStage_spec {text rest : Text} {stage : ReleaseStage}
    (h : scanStage text = some (stage, rest)) : text = stage.text ++ rest ∧ stage ≠ .final := by
  obtain ⟨other, hmem, hother⟩ := List.exists_of_findSome?_eq_some h
  obtain ⟨behind, hstrip, heq⟩ := Option.map_eq_some_iff.mp hother
  cases heq
  exact ⟨stripPrefix?_eq_some.mp hstrip, ReleaseStage.mem_named.mp hmem⟩

structure ReleaseMatch.Reads (groups : ReleaseMatch) (text : Text) : Prop where
  epoch : IsCanonical groups.epoch
  revision : IsCanonical groups.revision
  prerelease : ∀ stage iteration, groups.prerelease = some (stage, iteration) →
    stage ≠ .final ∧ IsCanonical iteration
  text_eq : text = ascii "ghostbridge/e" ++ groups.epoch ++ ascii ".r" ++ groups.revision ++
    match groups.prerelease with
    | none => []
    | some (stage, iteration) => ascii "-" ++ stage.text ++ ascii "." ++ iteration

theorem scanPrerelease_spec {text iteration : Text} {stage : ReleaseStage}
    (h : scanPrerelease text = some (stage, iteration)) :
    text = ascii "-" ++ stage.text ++ ascii "." ++ iteration ∧ stage ≠ .final ∧
      IsCanonical iteration := by
  simp only [scanPrerelease, Option.bind_eq_bind, Option.bind_eq_some_iff, Prod.exists,
    Option.ite_none_right_eq_some, Option.some.injEq, Prod.mk.injEq] at h
  obtain ⟨named, hdash, stage', behind, hstage, numbered, hdot, digits, rest, hscan, hend, rfl,
    rfl⟩ := h
  obtain ⟨hbehind, hfinal⟩ := scanStage_spec hstage
  obtain ⟨hnumbered, hcanonical⟩ := scanComponent_spec hscan
  refine ⟨?_, hfinal, hcanonical⟩
  rw [stripPrefix?_eq_some.mp hdash, hbehind, stripPrefix?_eq_some.mp hdot, hnumbered, hend]
  simp

theorem matchRelease_spec {text : Text} {groups : ReleaseMatch} (h : matchRelease text = some groups) :
    groups.Reads text := by
  simp only [matchRelease, Option.bind_eq_bind, Option.bind_eq_some_iff, Prod.exists] at h
  obtain ⟨named, hname, epoch, behind, hepoch, revised, hdot, revision, rest, hrevision, h⟩ := h
  obtain ⟨hnamed, hcanonical⟩ := scanComponent_spec hepoch
  obtain ⟨hrevised, hcanonical'⟩ := scanComponent_spec hrevision
  have htext : text = ascii "ghostbridge/e" ++ epoch ++ ascii ".r" ++ revision ++ rest := by
    rw [stripPrefix?_eq_some.mp hname, hnamed, stripPrefix?_eq_some.mp hdot, hrevised]
    simp
  by_cases hend : rest = []
  · rw [if_pos hend] at h
    obtain rfl := Option.some.inj h
    refine ⟨hcanonical, hcanonical', nofun, ?_⟩
    rw [htext, hend]
  · rw [if_neg hend] at h
    obtain ⟨⟨stage, iteration⟩, hprerelease, rfl⟩ := Option.map_eq_some_iff.mp h
    obtain ⟨hrest, hfinal, hiteration⟩ := scanPrerelease_spec hprerelease
    refine ⟨hcanonical, hcanonical', ?_, ?_⟩
    · intro stage' iteration' heq
      cases heq
      exact ⟨hfinal, hiteration⟩
    · rw [htext, hrest]

def ReleaseParts.groups (parts : ReleaseParts) : ReleaseMatch where
  epoch := decimalDigits parts.epoch
  revision := decimalDigits parts.revision
  prerelease := parts.iteration.map fun iteration => (parts.stage, decimalDigits iteration)

private theorem small_of_le {n : ℕ} (h : n ≤ maximumComponent) : n < 10 ^ 10 :=
  Nat.lt_of_le_of_lt h (by decide)

private theorem endsDigits_of_ascii {text : Text} {u : UInt16} (hu : isDigit u = false) :
    EndsDigits (u :: text) := by
  intro v hv
  obtain rfl := Option.some.inj hv
  exact hu

theorem matchRelease_write {parts : ReleaseParts} (h : parts.Bounded) :
    matchRelease parts.write = some parts.groups := by
  have hdash : ascii "-" = [0x2d] := rfl
  have hdot : ascii ".r" = [0x2e, 0x72] := rfl
  have hepoch (rest : Text) : scanComponent (decimalDigits parts.epoch ++ (ascii ".r" ++ rest)) =
      some (decimalDigits parts.epoch, ascii ".r" ++ rest) :=
    scanComponent_decimalDigits (small_of_le h.1) (endsDigits_of_ascii rfl)
  rw [ReleaseParts.write, matchRelease, ReleaseParts.groups, ReleaseParts.suffix]
  simp only [List.append_assoc, Json.stripPrefix?_append, Option.bind_eq_bind, Option.bind_some,
    hepoch]
  cases hiteration : parts.iteration with
  | none =>
    have hends : EndsDigits [] := nofun
    have hrevision := scanComponent_decimalDigits (small_of_le h.2.1) hends
    simp only [hrevision, Option.bind_some, Option.map_none, if_true]
  | some iteration =>
    have hstage : parts.stage ≠ .final := by
      intro hfinal
      rw [parts.final_iff.mp hfinal] at hiteration
      cases hiteration
    have hrevision (rest : Text) :
        scanComponent (decimalDigits parts.revision ++ (ascii "-" ++ rest)) =
          some (decimalDigits parts.revision, ascii "-" ++ rest) :=
      scanComponent_decimalDigits (small_of_le h.2.1) (endsDigits_of_ascii rfl)
    have hends : EndsDigits [] := nofun
    have hnumber := scanComponent_decimalDigits (small_of_le (h.2.2 iteration hiteration)) hends
    rw [List.append_nil] at hnumber
    have hnonempty (rest : Text) : ascii "-" ++ rest ≠ [] := by simp [hdash]
    simp only [hrevision, Option.bind_some, hnonempty, if_false, scanPrerelease,
      Json.stripPrefix?_append, Option.bind_eq_bind, scanStage_text hstage, hnumber, if_true,
      Option.map_some]

theorem ReleaseParts.length_write_le {parts : ReleaseParts} (h : parts.Bounded) :
    parts.write.length ≤ maximumReleaseLength := by
  have hepoch := length_decimalDigits_le (small_of_le h.1)
  have hrevision := length_decimalDigits_le (small_of_le h.2.1)
  have hname : (ascii "ghostbridge/e").length = 13 := by decide
  have hdot : (ascii ".r").length = 2 := by decide
  have hdash : (ascii "-").length = 1 := by decide
  have hpoint : (ascii ".").length = 1 := by decide
  have hstage : parts.stage.text.length ≤ 12 := by
    cases parts.stage <;> decide
  rw [ReleaseParts.write, ReleaseParts.suffix, maximumReleaseLength]
  cases hiteration : parts.iteration with
  | none =>
    simp only [List.length_append, List.length_nil]
    omega
  | some iteration =>
    have hnumber := length_decimalDigits_le (small_of_le (h.2.2 iteration hiteration))
    simp only [List.length_append]
    omega

theorem parseProtocolRelease_write {parts : ReleaseParts} (h : parts.Bounded) :
    parseProtocolRelease (.string parts.write) = .ok parts.release := by
  have hdigits (n : ℕ) : AreDigits (decimalDigits n) := decimalDigits_isDigit n
  have hparse {n : ℕ} (hn : n ≤ maximumComponent) (name : String) :
      parseBoundedDecimal (decimalDigits n) name = .ok n :=
    (parseBoundedDecimal_ok (hdigits n)).mpr ⟨(digitsValue_decimalDigits n).symm, hn⟩
  have hlength : decide (maximumReleaseLength < parts.write.length) = false :=
    decide_eq_false (Nat.not_lt.mpr (ReleaseParts.length_write_le h))
  have hiteration : parseIteration parts.groups.prerelease = .ok parts.iteration := by
    cases hiteration : parts.iteration with
    | none => simp only [ReleaseParts.groups, hiteration, Option.map_none, parseIteration]
    | some iteration =>
      simp only [ReleaseParts.groups, hiteration, Option.map_some, parseIteration,
        hparse (h.2.2 iteration hiteration)]
      rfl
  have hstage : (parts.groups.prerelease.map Prod.fst).getD .final = parts.stage := by
    cases hiteration : parts.iteration with
    | none =>
      simp only [ReleaseParts.groups, hiteration, Option.map_none, Option.getD_none]
      exact (parts.final_iff.mpr hiteration).symm
    | some iteration =>
      simp only [ReleaseParts.groups, hiteration, Option.map_some, Option.getD_some]
  unfold parseProtocolRelease
  simp only [bind_ok, throwWhen_ok, exists_unit, orThrow_ok, pure_ok]
  refine ⟨hlength, _, matchRelease_write h, _, hparse h.1 _, _, hparse h.2.1 _, _, hiteration, ?_⟩
  rw [hstage]
  rfl

theorem parts_of_parseProtocolRelease {value : Value} {release : ProtocolRelease}
    (h : parseProtocolRelease value = .ok release) :
    ∃ parts : ReleaseParts, parts.Bounded ∧ value = .string parts.write ∧
      release = parts.release := by
  unfold parseProtocolRelease at h
  cases value with
  | string text =>
    simp only [bind_ok, throwWhen_ok, exists_unit, orThrow_ok, pure_ok] at h
    obtain ⟨_, groups, hgroups, epoch, hepoch, revision, hrevision, iteration, hiteration, rfl⟩ := h
    have hreads := matchRelease_spec hgroups
    obtain ⟨hepochValue, hepochLe⟩ := (parseBoundedDecimal_ok hreads.epoch.areDigits).mp hepoch
    obtain ⟨hrevisionValue, hrevisionLe⟩ :=
      (parseBoundedDecimal_ok hreads.revision.areDigits).mp hrevision
    have hepochText : groups.epoch = decimalDigits epoch := by
      rw [hepochValue]
      exact hreads.epoch.eq_decimalDigits
    have hrevisionText : groups.revision = decimalDigits revision := by
      rw [hrevisionValue]
      exact hreads.revision.eq_decimalDigits
    cases hprerelease : groups.prerelease with
    | none =>
      rw [hprerelease] at hiteration
      obtain rfl := Except.ok.inj hiteration
      have htext : text = (⟨epoch, revision, .final, none, by simp⟩ : ReleaseParts).write := by
        have heq := hreads.text_eq
        rwa [hprerelease, hepochText, hrevisionText] at heq
      refine ⟨⟨epoch, revision, .final, none, by simp⟩, ⟨hepochLe, hrevisionLe, ?_⟩,
        congrArg Value.string htext, ?_⟩
      · intro n hn
        cases hn
      · rw [ReleaseParts.release, ← htext]
        rfl
    | some pair =>
      obtain ⟨stage, digits⟩ := pair
      obtain ⟨hstage, hcanonical⟩ := hreads.prerelease stage digits hprerelease
      rw [hprerelease] at hiteration
      obtain ⟨n, hn, rfl⟩ := map_ok.mp hiteration
      obtain ⟨hvalue, hle⟩ := (parseBoundedDecimal_ok hcanonical.areDigits).mp hn
      have hdigits : digits = decimalDigits n := by
        rw [hvalue]
        exact hcanonical.eq_decimalDigits
      have htext : text = (⟨epoch, revision, stage, some n, by simp [hstage]⟩ : ReleaseParts).write := by
        have heq := hreads.text_eq
        rwa [hprerelease, hepochText, hrevisionText, hdigits] at heq
      refine ⟨⟨epoch, revision, stage, some n, by simp [hstage]⟩, ⟨hepochLe, hrevisionLe, ?_⟩,
        congrArg Value.string htext, ?_⟩
      · intro m hm
        obtain rfl := Option.some.inj hm
        exact hle
      · rw [ReleaseParts.release, ← htext]
        rfl
  | undefined | null | bool | number | array | object => cases h

theorem digits_append_inj {as bs rest rest' : Text} (ha : AreDigits as) (hb : AreDigits bs)
    (hrest : EndsDigits rest) (hrest' : EndsDigits rest') (h : as ++ rest = bs ++ rest') :
    as = bs ∧ rest = rest' := by
  obtain ⟨htake, hdrop⟩ := takeWhile_digits ha hrest
  obtain ⟨htake', hdrop'⟩ := takeWhile_digits hb hrest'
  rw [h] at htake hdrop
  exact ⟨htake.symm.trans htake', hdrop.symm.trans hdrop'⟩

theorem decimalDigits_append_inj {m n : ℕ} {rest rest' : Text} (hrest : EndsDigits rest)
    (hrest' : EndsDigits rest') (h : decimalDigits m ++ rest = decimalDigits n ++ rest') :
    m = n ∧ rest = rest' := by
  obtain ⟨hdigits, hsame⟩ :=
    digits_append_inj (decimalDigits_isDigit m) (decimalDigits_isDigit n) hrest hrest' h
  have hvalue := congrArg digitsValue hdigits
  rw [digitsValue_decimalDigits, digitsValue_decimalDigits] at hvalue
  exact ⟨hvalue, hsame⟩

theorem ReleaseParts.endsDigits_suffix (parts : ReleaseParts) : EndsDigits parts.suffix := by
  rw [ReleaseParts.suffix]
  cases parts.iteration with
  | none => exact nofun
  | some iteration => exact endsDigits_of_ascii rfl

theorem ReleaseParts.suffix_injective {parts other : ReleaseParts}
    (h : parts.suffix = other.suffix) :
    parts.stage = other.stage ∧ parts.iteration = other.iteration := by
  have hdash (rest : Text) : ascii "-" ++ rest ≠ [] := by
    have hdash : ascii "-" = [0x2d] := rfl
    simp [hdash]
  have hstage {parts : ReleaseParts} {iteration : ℕ} (h : parts.iteration = some iteration) :
      parts.stage ≠ .final := by
    intro hfinal
    rw [parts.final_iff.mp hfinal] at h
    cases h
  rw [ReleaseParts.suffix, ReleaseParts.suffix] at h
  cases hiteration : parts.iteration with
  | none =>
    cases hother : other.iteration with
    | none => exact ⟨(parts.final_iff.mpr hiteration).trans (other.final_iff.mpr hother).symm, rfl⟩
    | some n =>
      simp only [hiteration, hother, List.append_assoc] at h
      exact absurd h.symm (hdash _)
  | some m =>
    cases hother : other.iteration with
    | none =>
      simp only [hiteration, hother, List.append_assoc] at h
      exact absurd h (hdash _)
    | some n =>
      simp only [hiteration, hother, List.append_assoc, List.append_cancel_left_eq] at h
      have hscan := congrArg scanStage h
      rw [scanStage_text (hstage hiteration), scanStage_text (hstage hother)] at hscan
      obtain ⟨hsame, hrest⟩ := Prod.mk.inj (Option.some.inj hscan)
      have hends : EndsDigits [] := nofun
      have hdigits := List.append_cancel_left hrest
      rw [← List.append_nil (decimalDigits m), ← List.append_nil (decimalDigits n)] at hdigits
      exact ⟨hsame, congrArg some (decimalDigits_append_inj hends hends hdigits).1⟩

theorem ReleaseParts.write_injective : Function.Injective ReleaseParts.write := by
  intro parts other h
  simp only [ReleaseParts.write, List.append_assoc, List.append_cancel_left_eq] at h
  have hends (rest : Text) : EndsDigits (ascii ".r" ++ rest) := endsDigits_of_ascii rfl
  obtain ⟨hepoch, hrest⟩ := decimalDigits_append_inj (hends _) (hends _) h
  obtain ⟨hrevision, hsuffix⟩ :=
    decimalDigits_append_inj parts.endsDigits_suffix other.endsDigits_suffix
      (List.append_cancel_left hrest)
  obtain ⟨hstage, hiteration⟩ := ReleaseParts.suffix_injective hsuffix
  cases parts
  cases other
  simp only [ReleaseParts.mk.injEq]
  exact ⟨hepoch, hrevision, hstage, hiteration⟩

theorem parseProtocolRelease_unbounded {parts : ReleaseParts} (h : ¬parts.Bounded)
    (release : ProtocolRelease) : parseProtocolRelease (.string parts.write) ≠ .ok release := by
  intro hparse
  obtain ⟨other, hbounded, htext, _⟩ := parts_of_parseProtocolRelease hparse
  rw [ReleaseParts.write_injective (Value.string.inj htext)] at h
  exact h hbounded

namespace ReleaseParts

def order : ReleaseParts → ReleaseParts → Ordering :=
  compareLex (compareOn epoch) <|
  compareLex (compareOn revision) <|
  compareLex (compareOn fun parts => parts.stage.rank) <|
  compareOn fun parts => parts.iteration.getD 0

instance : Std.TransCmp order :=
  inferInstanceAs <| Std.TransCmp <| compareLex _ <| compareLex _ <| compareLex _ (compareOn _)

theorem compareReleases_release (parts other : ReleaseParts) :
    compareReleases parts.release other.release = order parts other := by
  have hlast : ((compare parts.stage.rank other.stage.rank).then <|
      if parts.stage ≠ .final then
        compare (parts.iteration.getD 0) (other.iteration.getD 0)
      else .eq) =
      (compare parts.stage.rank other.stage.rank).then
        (compare (parts.iteration.getD 0) (other.iteration.getD 0)) := by
    by_cases hfinal : parts.stage = .final
    · by_cases hother : other.stage = .final
      · rw [if_neg (not_not.mpr hfinal), parts.final_iff.mp hfinal, other.final_iff.mp hother]
        rfl
      · have hrank : compare parts.stage.rank other.stage.rank ≠ .eq := by
          intro heq
          apply hother
          rw [← hfinal]
          exact (ReleaseStage.rank_injective (Nat.compare_eq_eq.mp heq)).symm
        cases hcompare : compare parts.stage.rank other.stage.rank with
        | eq => exact absurd hcompare hrank
        | lt | gt => rfl
    · rw [if_pos hfinal]
  change _ = (compare parts.epoch other.epoch).then ((compare parts.revision other.revision).then _)
  rw [compareReleases]
  exact congrArg _ (congrArg _ hlast)

theorem order_eq_iff {parts other : ReleaseParts} : order parts other = .eq ↔ parts = other := by
  constructor
  · intro h
    simp only [order, compareLex_eq_eq, compareOn, Nat.compare_eq_eq] at h
    obtain ⟨hepoch, hrevision, hrank, hiteration⟩ := h
    have hstage := ReleaseStage.rank_injective hrank
    have hsame : parts.iteration = other.iteration := by
      by_cases hfinal : parts.stage = .final
      · rw [parts.final_iff.mp hfinal, other.final_iff.mp (hstage ▸ hfinal)]
      · cases hparts : parts.iteration with
        | none => exact absurd (parts.final_iff.mpr hparts) hfinal
        | some m =>
          cases hother : other.iteration with
          | none => exact absurd (hstage.trans (other.final_iff.mpr hother)) hfinal
          | some n =>
            rw [hparts, hother] at hiteration
            exact congrArg some hiteration
    cases parts
    cases other
    simp only [ReleaseParts.mk.injEq]
    exact ⟨hepoch, hrevision, hstage, hsame⟩
  · rintro rfl
    exact Std.ReflCmp.compare_self

end ReleaseParts

theorem compareProtocolReleases_ok {left right : Value} {answer : Ordering} :
    compareProtocolReleases left right = .ok answer ↔
      ∃ parts other : ReleaseParts, parts.Bounded ∧ other.Bounded ∧
        left = .string parts.write ∧ right = .string other.write ∧
        answer = parts.order other := by
  rw [compareProtocolReleases]
  simp only [bind_ok, pure_ok]
  constructor
  · rintro ⟨parsedLeft, hleft, parsedRight, hright, rfl⟩
    obtain ⟨parts, hbounded, htext, rfl⟩ := parts_of_parseProtocolRelease hleft
    obtain ⟨other, hbounded', htext', rfl⟩ := parts_of_parseProtocolRelease hright
    exact ⟨parts, other, hbounded, hbounded', htext, htext',
      ReleaseParts.compareReleases_release parts other⟩
  · rintro ⟨parts, other, hbounded, hbounded', rfl, rfl, rfl⟩
    exact ⟨_, parseProtocolRelease_write hbounded, _, parseProtocolRelease_write hbounded',
      ReleaseParts.compareReleases_release parts other⟩

theorem parseDecimalFrom_append {componentName : String} {before rest : Text} {start : ℕ} :
    parseDecimalFrom componentName start (before ++ rest) =
      parseDecimalFrom componentName start before >>= fun value =>
        parseDecimalFrom componentName value rest := by
  induction before generalizing start with
  | nil => rfl
  | cons u us ih =>
    rw [List.cons_append, parseDecimalFrom, parseDecimalFrom]
    simp only [bind_assoc, ih]

/-- Releases are totally ordered as their texts; bounded parts are written, accepted and read back,
nothing else is accepted; no accumulator passes the maximum. -/
theorem protocol_release_law :
    (∀ left right parsedLeft parsedRight,
      parseProtocolRelease left = .ok parsedLeft → parseProtocolRelease right = .ok parsedRight →
      ∃ answer, compareProtocolReleases left right = .ok answer ∧
        compareProtocolReleases right left = .ok answer.swap ∧ (answer = .eq ↔ left = right)) ∧
    (∀ left middle right,
      compareProtocolReleases left middle = .ok .lt →
      compareProtocolReleases middle right = .ok .lt →
      compareProtocolReleases left right = .ok .lt) ∧
    (∀ parts : ReleaseParts, parts.Bounded →
      parts.write.length ≤ maximumReleaseLength ∧
        parseProtocolRelease (.string parts.write) = .ok parts.release) ∧
    (∀ parts : ReleaseParts, ¬parts.Bounded → ∀ release,
      parseProtocolRelease (.string parts.write) ≠ .ok release) ∧
    (∀ value release, parseProtocolRelease value = .ok release →
      ∃ parts : ReleaseParts, parts.Bounded ∧ value = .string parts.write ∧
        release = parts.release) ∧
    (∀ componentName before rest,
      parseBoundedDecimal (before ++ rest) componentName =
        parseBoundedDecimal before componentName >>= fun accumulator =>
          parseDecimalFrom componentName accumulator rest) ∧
    ∀ componentName before accumulator,
      parseBoundedDecimal before componentName = .ok accumulator →
      accumulator ≤ maximumComponent := by
  refine ⟨?_, ?_, ?_, ?_, ?_, ?_, ?_⟩
  · intro left right parsedLeft parsedRight hleft hright
    obtain ⟨parts, hbounded, rfl, _⟩ := parts_of_parseProtocolRelease hleft
    obtain ⟨other, hbounded', rfl, _⟩ := parts_of_parseProtocolRelease hright
    refine ⟨parts.order other, ?_, ?_, ?_⟩
    · exact compareProtocolReleases_ok.mpr ⟨parts, other, hbounded, hbounded', rfl, rfl, rfl⟩
    · exact compareProtocolReleases_ok.mpr ⟨other, parts, hbounded', hbounded, rfl, rfl,
        Std.OrientedCmp.eq_swap.symm⟩
    · rw [ReleaseParts.order_eq_iff, Value.string.injEq]
      exact ReleaseParts.write_injective.eq_iff.symm
  · intro left middle right hleft hright
    obtain ⟨first, second, hfirst, _, rfl, hsecond, hless⟩ := compareProtocolReleases_ok.mp hleft
    obtain ⟨second', third, _, hthird, hsecond', rfl, hless'⟩ := compareProtocolReleases_ok.mp hright
    rw [hsecond, Value.string.injEq] at hsecond'
    obtain rfl := ReleaseParts.write_injective hsecond'
    exact compareProtocolReleases_ok.mpr ⟨first, third, hfirst, hthird, rfl, rfl,
      (Std.TransCmp.lt_trans hless.symm hless'.symm).symm⟩
  · intro parts hbounded
    exact ⟨ReleaseParts.length_write_le hbounded, parseProtocolRelease_write hbounded⟩
  · intro parts hunbounded release
    exact parseProtocolRelease_unbounded hunbounded release
  · intro value release h
    exact parts_of_parseProtocolRelease h
  · intro componentName before rest
    exact parseDecimalFrom_append
  · intro componentName before accumulator h
    exact parseDecimalFrom_le (Nat.zero_le _) h

end GhostBridge.SchemaValidation
