import GhostBridge.AgentSelection.Filter
import GhostBridge.Ecma.Arithmetic
import Mathlib.Data.List.Sort

/-!
# Scores and ranking of candidates

The candidates that pass the filter are scored by a weighted mean of nine components, rounded down,
and ranked by their scores, their classes and their identifiers.
-/

namespace GhostBridge.AgentSelection

open Ecma

/-- `SCORE_COMPONENTS`. -/
inductive ScoreComponent where
  | schemaCompatibility
  | trust
  | health
  | readiness
  | latency
  | cost
  | publisherVerification
  | administrativePreference
  | recentReliability
deriving DecidableEq

namespace ScoreComponent

def all : List ScoreComponent :=
  [schemaCompatibility, trust, health, readiness, latency, cost, publisherVerification,
    administrativePreference, recentReliability]

def key : ScoreComponent → String
  | schemaCompatibility => "schemaCompatibility"
  | trust => "trust"
  | health => "health"
  | readiness => "readiness"
  | latency => "latency"
  | cost => "cost"
  | publisherVerification => "publisherVerification"
  | administrativePreference => "administrativePreference"
  | recentReliability => "recentReliability"

/-- `DEFAULT_SCORE_WEIGHTS`. -/
def defaultWeight : ScoreComponent → ℕ
  | schemaCompatibility => 25
  | trust => 20
  | health | readiness | latency | cost => 10
  | publisherVerification | administrativePreference | recentReliability => 5

end ScoreComponent

def maximumScoreWeight : ℕ := 1000

def maximumScoreWeightTotal : ℕ := 10000

def weightTotal (weight : ScoreComponent → ℕ) : ℕ := (ScoreComponent.all.map weight).sum

/-- Weights that `normalizeScoreWeights` accepts. -/
structure ScoreWeights where
  weight : ScoreComponent → ℕ
  weight_le : ∀ component, weight component ≤ maximumScoreWeight
  total_pos : 1 ≤ weightTotal weight
  total_le : weightTotal weight ≤ maximumScoreWeightTotal

def ScoreWeights.total (weights : ScoreWeights) : ℕ := weightTotal weights.weight

/-- What `Number` makes of each weight, where there is one. -/
abbrev WeightInput := ScoreComponent → Option Number

def acceptedWeight (input : WeightInput) (component : ScoreComponent) : Option ℕ :=
  match input component with
  | none => some component.defaultWeight
  | some value => (value.safeInteger?.filter fun n : ℤ => 0 ≤ n ∧ n ≤ maximumScoreWeight).map Int.toNat

theorem acceptedWeight_le {input : WeightInput} {component : ScoreComponent} {weight : ℕ}
    (h : acceptedWeight input component = some weight) : weight ≤ maximumScoreWeight := by
  unfold acceptedWeight at h
  cases hinput : input component with
  | none =>
    rw [hinput] at h
    obtain rfl := Option.some.inj h
    cases component <;> decide
  | some value =>
    rw [hinput] at h
    obtain ⟨n, hn, rfl⟩ := Option.map_eq_some_iff.mp h
    have hbounds := of_decide_eq_true (Option.filter_eq_some_iff.mp hn).2
    omega

def normalizeScoreWeights (input : WeightInput) : Checked ScoreWeights :=
  match ScoreComponent.all.find? fun component => (acceptedWeight input component).isNone with
  | some component =>
    throw ⟨"AGENT_SELECTION_SCORE_WEIGHT_INVALID", "Selection score weight is invalid.",
      [("scoreWeights." ++ component.key, "WEIGHT_OUT_OF_RANGE",
        "Weight must be a bounded non-negative integer.")]⟩
  | none =>
    let weight component := (acceptedWeight input component).getD 0
    if h : 1 ≤ weightTotal weight ∧ weightTotal weight ≤ maximumScoreWeightTotal then
      return {
        weight
        weight_le component := by
          cases haccepted : acceptedWeight input component with
          | none => simp [weight, haccepted]
          | some value => simpa [weight, haccepted] using acceptedWeight_le haccepted
        total_pos := h.1
        total_le := h.2 }
    else
      throw ⟨"AGENT_SELECTION_SCORE_WEIGHT_INVALID", "Selection score-weight total is invalid.", []⟩

/-- An entry of the catalog, with the fields that only the score and the ranking read. -/
structure CatalogCandidate (Schema : Type) extends Candidate Schema where
  connectionId : Text
  administrativelyPreferred : Bool := false
  reliabilityScore : Number := .ofNat 0

variable {Schema : Type}

/-- `Math.round((numerator / Math.max(1, ranked.length - 1)) * 10_000)`. -/
def classScore (value : Text) (values : List Text) (reverse : Bool := false) : Number :=
  let ranked := values.filter (· ≠ unknownClass)
  match ranked.idxOf? value with
  | none => .ofNat 0
  | some index =>
    let numerator := if reverse then ranked.length - 1 - index else index
    (((Number.ofNat numerator).div (.ofNat (max 1 (ranked.length - 1)))).mul (.ofNat 10000)).round

/-- `value || 0`. -/
def orZero (value : Number) : Number := if value = .nan then .ofNat 0 else value

def componentScores (candidate : CatalogCandidate Schema) (compatibility : Option Compatibility)
    (preferred : Bool) : ScoreComponent → Number
  | .schemaCompatibility => if compatibility = some .compatible then .ofNat 10000 else .ofNat 5000
  | .trust => classScore candidate.trustTier trustTiers
  | .health =>
    if candidate.healthSnapshotStale then .ofNat 0
    else if candidate.healthStatus = ascii "healthy" then .ofNat 10000
    else if candidate.healthStatus = ascii "degraded" then .ofNat 5000
    else .ofNat 0
  | .readiness => if candidate.readinessStatus = ascii "ready" then .ofNat 10000 else .ofNat 0
  | .latency => classScore candidate.estimatedLatencyClass latencyClasses true
  | .cost => classScore candidate.estimatedCostClass costClasses true
  | .publisherVerification => classScore candidate.verificationStatus verificationStatuses
  | .administrativePreference =>
    if preferred || candidate.administrativelyPreferred then .ofNat 10000 else .ofNat 5000
  | .recentReliability =>
    (Number.ofNat 0).max ((Number.ofNat 10000).min (orZero candidate.reliabilityScore))

def addWeighted (weights : ScoreWeights) (components : ScoreComponent → Number) (sum : Number)
    (keys : List ScoreComponent) : Number :=
  keys.foldl (fun sum key => sum.add ((components key).mul (.ofNat (weights.weight key)))) sum

/-- `Math.floor(weighted / normalized.total)`. -/
def weightedScore (weights : ScoreWeights) (components : ScoreComponent → Number) : Number :=
  ((addWeighted weights components (.ofNat 0) ScoreComponent.all).div (.ofNat weights.total)).floor

structure Score where
  score : Number
  components : ScoreComponent → Number

def scoreCandidate (candidate : CatalogCandidate Schema) (compatibility : Option Compatibility)
    (input : WeightInput) (preferred : Bool := false) : Checked Score := do
  let weights ← normalizeScoreWeights input
  let components := componentScores candidate compatibility preferred
  return ⟨weightedScore weights components, components⟩

def IsScore (score : Number) : Prop := ∃ k : ℕ, k ≤ 10000 ∧ score.IsInt k

structure ScoredCandidate (Schema : Type) extends CatalogCandidate Schema where
  score : Number
  scored : IsScore score

def verificationRank : Text → Int := rankOf verificationStatuses

def idOf (value : Text) : Text := value.trimmed

/-- The sign of what `compareCandidates` returns, `localeCompare` being a parameter. -/
def compareCandidates (localeCompare : Text → Text → Ordering)
    (left right : ScoredCandidate Schema) : Ordering :=
  (right.score.sub left.score).sign.then <|
  (compare (trustRank right.trustTier) (trustRank left.trustTier)).then <|
  (compare (verificationRank right.verificationStatus)
    (verificationRank left.verificationStatus)).then <|
  (localeCompare (idOf left.passportId) (idOf right.passportId)).then <|
  localeCompare (idOf left.connectionId) (idOf right.connectionId)

/-- `candidates.sort(compareCandidates)`. -/
def ranking (localeCompare : Text → Text → Ordering) (candidates : List (ScoredCandidate Schema)) :
    List (ScoredCandidate Schema) :=
  candidates.insertionSort fun left right => compareCandidates localeCompare left right ≠ .gt

attribute [local irreducible] unitsPerOne

def InRange (value : Number) : Prop :=
  (Number.ofNat 0).le value = true ∧ value.le (.ofNat 10000) = true

theorem inRange_of_hasUnits {value : Number} {u : ℕ} (h : value.HasUnits u)
    (hle : u ≤ 10000 * unitsPerOne) : InRange value :=
  ⟨((Number.hasUnits_ofNat (n := 0) (by decide)).le_iff h).mpr (by omega),
    (h.le_iff (Number.hasUnits_ofNat (n := 10000) (by decide))).mpr hle⟩

theorem InRange.hasUnits {value : Number} (h : InRange value) :
    ∃ u, value.HasUnits u ∧ u ≤ 10000 * unitsPerOne :=
  Number.hasUnits_of_le h.1 (Number.hasUnits_ofNat (n := 10000) (by decide)) h.2

theorem inRange_ofNat {n : ℕ} (h : n ≤ 10000) : InRange (.ofNat n) := by
  have hsmall : n < 2 ^ 53 := Nat.lt_of_le_of_lt h (by decide)
  exact inRange_of_hasUnits (Number.hasUnits_ofNat hsmall) (Nat.mul_le_mul_right _ h)

theorem inRange_classScore (value : Text) (values : List Text) (reverse : Bool)
    (hlength : values.length < 2 ^ 53) : InRange (classScore value values reverse) := by
  unfold classScore
  have hranked := List.length_filter_le (· ≠ unknownClass) values
  generalize values.filter (· ≠ unknownClass) = ranked at hranked
  cases hindex : ranked.idxOf? value with
  | none =>
    simp only [hindex]
    exact inRange_ofNat (Nat.zero_le _)
  | some index =>
    have hindexed : index < ranked.length := by
      rw [List.idxOf?_eq_some_iff] at hindex
      exact hindex.1
    simp only [hindex]
    have hnumerator : (if reverse then ranked.length - 1 - index else index) ≤
        max 1 (ranked.length - 1) := by
      split <;> omega
    have hdenominator : max 1 (ranked.length - 1) < 2 ^ 53 := by omega
    generalize (if reverse then ranked.length - 1 - index else index) = numerator at hnumerator
    have hpositive : 0 < max 1 (ranked.length - 1) := by omega
    generalize max 1 (ranked.length - 1) = denominator at hnumerator hdenominator hpositive
    have hunits := Number.unitsPerOne_pos
    have hone : Representable unitsPerOne := by
      simpa using representable_mul_unitsPerOne (n := 1) (by decide)
    have hmaximum := representable_mul_unitsPerOne (n := 10000) (by decide)
    -- the fraction is at most one
    have hfraction : numerator * unitsPerOne * unitsPerOne ≤
        unitsPerOne * (denominator * unitsPerOne) := by
      calc numerator * unitsPerOne * unitsPerOne
          ≤ denominator * unitsPerOne * unitsPerOne := by gcongr
        _ = unitsPerOne * (denominator * unitsPerOne) := by ring
    have hdivided := Number.hasUnits_div
      (Number.hasUnits_ofNat (Nat.lt_of_le_of_lt hnumerator hdenominator))
      (Number.hasUnits_ofNat hdenominator) (Nat.mul_pos hpositive hunits) hone hfraction
    have hquotient := roundUnits_le (Nat.mul_pos hpositive hunits) hone hfraction
    generalize roundUnits (numerator * unitsPerOne * unitsPerOne) (denominator * unitsPerOne) = q
      at hdivided hquotient
    have hscaled : q * (10000 * unitsPerOne) ≤ 10000 * unitsPerOne * unitsPerOne := by
      calc q * (10000 * unitsPerOne) ≤ unitsPerOne * (10000 * unitsPerOne) := by gcongr
        _ = 10000 * unitsPerOne * unitsPerOne := by ring
    have hproduct := Number.hasUnits_mul hdivided (Number.hasUnits_ofNat (n := 10000) (by decide)) hmaximum
      hscaled
    have hbound := roundUnits_le hunits hmaximum hscaled
    generalize roundUnits (q * (10000 * unitsPerOne)) unitsPerOne = p at hproduct hbound
    have hrounded : (2 * p + unitsPerOne) / (2 * unitsPerOne) ≤ 10000 := by
      rw [← Nat.lt_succ_iff, Nat.div_lt_iff_lt_mul (by omega)]
      omega
    have hint := Number.isInt_round hproduct (Nat.lt_of_le_of_lt hrounded (by decide))
    exact inRange_of_hasUnits (Number.hasUnits_of_isInt hint) (Nat.mul_le_mul_right _ hrounded)

theorem inRange_clamped (value : Number) :
    InRange ((Number.ofNat 0).max ((Number.ofNat 10000).min (orZero value))) := by
  have hzero : Number.ofNat 0 ≠ .nan := Number.ofNat_ne_nan 0
  have hvalue : orZero value ≠ .nan := by
    unfold orZero
    split
    · exact hzero
    · next h => exact h
  have hmaximum := inRange_ofNat (n := 10000) (le_refl _)
  have hminimum := inRange_ofNat (n := 0) (Nat.zero_le _)
  obtain ⟨hmin, hcapped⟩ | ⟨hmin, hcapped⟩ := Number.min_cases (Number.ofNat_ne_nan 10000) hvalue
  · rw [hmin]
    obtain ⟨hmax, -⟩ | ⟨hmax, -⟩ := Number.max_cases hzero (Number.ofNat_ne_nan 10000)
    · rw [hmax]
      exact hmaximum
    · rw [hmax]
      exact hminimum
  · rw [hmin]
    obtain ⟨hmax, hfloored⟩ | ⟨hmax, -⟩ := Number.max_cases hzero hvalue
    · rw [hmax]
      exact ⟨hfloored, hcapped⟩
    · rw [hmax]
      exact hminimum

theorem inRange_componentScores (candidate : CatalogCandidate Schema)
    (compatibility : Option Compatibility) (preferred : Bool) (component : ScoreComponent) :
    InRange (componentScores candidate compatibility preferred component) := by
  have hzero := inRange_ofNat (n := 0) (Nat.zero_le _)
  have hhalf := inRange_ofNat (n := 5000) (by decide)
  have hfull := inRange_ofNat (n := 10000) (le_refl _)
  cases component with
  | trust | latency | cost | publisherVerification =>
    apply inRange_classScore
    decide
  | recentReliability => exact inRange_clamped _
  | schemaCompatibility | health | readiness | administrativePreference =>
    simp only [componentScores]
    repeat' split
    all_goals assumption

theorem addWeighted_mono (weights : ScoreWeights) {components components' : ScoreComponent → Number}
    (hrange : ∀ key, InRange (components' key))
    (hle : ∀ key, (Number.ofNat 0).le (components key) = true ∧
      (components key).le (components' key) = true)
    (keys : List ScoreComponent) {sum sum' : Number} {s s' t : ℕ} (hsum : sum.HasUnits s)
    (hsum' : sum'.HasUnits s') (hs : s ≤ s') (hs' : s' ≤ t * 10000 * unitsPerOne)
    (hsmall : (t + (keys.map weights.weight).sum) * 10000 < 2 ^ 53) :
    ∃ r r', (addWeighted weights components sum keys).HasUnits r ∧
      (addWeighted weights components' sum' keys).HasUnits r' ∧ r ≤ r' ∧
        r' ≤ (t + (keys.map weights.weight).sum) * 10000 * unitsPerOne := by
  induction keys generalizing sum sum' s s' t with
  | nil => exact ⟨s, s', hsum, hsum', hs, by simpa using hs'⟩
  | cons key keys ih =>
    rw [List.map_cons, List.sum_cons, ← Nat.add_assoc] at hsmall ⊢
    have hunits := Number.unitsPerOne_pos
    obtain ⟨u', hu', hbound⟩ := (hrange key).hasUnits
    obtain ⟨u, hu, hgrown⟩ := Number.hasUnits_of_le (hle key).1 hu' (hle key).2
    have hweighted : weights.weight key < 2 ^ 53 :=
      Nat.lt_of_le_of_lt (weights.weight_le key) (by decide)
    have hweight := Number.hasUnits_ofNat hweighted
    have htotal : (t + weights.weight key) * 10000 < 2 ^ 53 :=
      Nat.lt_of_le_of_lt (Nat.mul_le_mul_right _ (Nat.le_add_right _ _)) hsmall
    have hpart : weights.weight key * 10000 < 2 ^ 53 :=
      Nat.lt_of_le_of_lt (Nat.mul_le_mul_right _ (Nat.le_add_left _ _)) htotal
    have hrepresentable := representable_mul_unitsPerOne hpart
    have hproduct' : u' * (weights.weight key * unitsPerOne) ≤
        weights.weight key * 10000 * unitsPerOne * unitsPerOne := by
      calc u' * (weights.weight key * unitsPerOne)
          ≤ 10000 * unitsPerOne * (weights.weight key * unitsPerOne) := by gcongr
        _ = weights.weight key * 10000 * unitsPerOne * unitsPerOne := by ring
    have hproduct : u * (weights.weight key * unitsPerOne) ≤
        u' * (weights.weight key * unitsPerOne) := Nat.mul_le_mul_right _ hgrown
    have hterm := Number.hasUnits_mul hu hweight hrepresentable (hproduct.trans hproduct')
    have hterm' := Number.hasUnits_mul hu' hweight hrepresentable hproduct'
    have hterms := roundUnits_mono hunits hunits (Nat.mul_le_mul_right unitsPerOne hproduct)
    have hlimit := roundUnits_le hunits hrepresentable hproduct'
    generalize roundUnits (u * (weights.weight key * unitsPerOne)) unitsPerOne = p at hterm hterms
    generalize roundUnits (u' * (weights.weight key * unitsPerOne)) unitsPerOne = p'
      at hterm' hterms hlimit
    have hsums' : s' + p' ≤ (t + weights.weight key) * 10000 * unitsPerOne := by
      calc s' + p' ≤ t * 10000 * unitsPerOne + weights.weight key * 10000 * unitsPerOne :=
            Nat.add_le_add hs' hlimit
        _ = (t + weights.weight key) * 10000 * unitsPerOne := by ring
    have hsums : s + p ≤ s' + p' := Nat.add_le_add hs hterms
    have htop := representable_mul_unitsPerOne htotal
    exact ih (Number.hasUnits_add hsum hterm htop (hsums.trans hsums'))
      (Number.hasUnits_add hsum' hterm' htop hsums')
      (roundUnits_mono Nat.one_pos Nat.one_pos (Nat.mul_le_mul_right 1 hsums))
      (roundUnits_le Nat.one_pos htop (by rwa [Nat.mul_one])) hsmall

theorem weightedScore_mono (weights : ScoreWeights) {components components' : ScoreComponent → Number}
    (hrange : ∀ key, InRange (components' key))
    (hle : ∀ key, (Number.ofNat 0).le (components key) = true ∧
      (components key).le (components' key) = true) :
    ∃ k k' : ℕ, (weightedScore weights components).IsInt k ∧
      (weightedScore weights components').IsInt k' ∧ k ≤ k' ∧ k' ≤ 10000 := by
  have hzero := Number.hasUnits_ofNat (n := 0) (by decide)
  have htotal : (0 + (ScoreComponent.all.map weights.weight).sum) * 10000 < 2 ^ 53 := by
    have hle := weights.total_le
    unfold weightTotal maximumScoreWeightTotal at hle
    omega
  obtain ⟨r, r', hr, hr', hgrown, hbound⟩ := addWeighted_mono weights hrange hle ScoreComponent.all
    (t := 0) hzero hzero (le_refl _) (by omega) htotal
  have hunits := Number.unitsPerOne_pos
  have hpositive : 0 < weights.total := weights.total_pos
  have hsmall : weights.total < 2 ^ 53 := Nat.lt_of_le_of_lt weights.total_le (by decide)
  have hweights := Number.hasUnits_ofNat hsmall
  have hdenominator := Nat.mul_pos hpositive hunits
  have hmaximum := representable_mul_unitsPerOne (n := 10000) (by decide)
  have hscaled' : r' * unitsPerOne ≤ 10000 * unitsPerOne * (weights.total * unitsPerOne) := by
    calc r' * unitsPerOne
        ≤ (0 + (ScoreComponent.all.map weights.weight).sum) * 10000 * unitsPerOne * unitsPerOne := by
          gcongr
      _ = weights.total * 10000 * unitsPerOne * unitsPerOne := by rw [Nat.zero_add]; rfl
      _ = 10000 * unitsPerOne * (weights.total * unitsPerOne) := by ring
  have hscaled : r * unitsPerOne ≤ r' * unitsPerOne := Nat.mul_le_mul_right _ hgrown
  have hmean := Number.hasUnits_div hr hweights hdenominator hmaximum (hscaled.trans hscaled')
  have hmean' := Number.hasUnits_div hr' hweights hdenominator hmaximum hscaled'
  have hmeans := roundUnits_mono hdenominator hdenominator
    (Nat.mul_le_mul_right (weights.total * unitsPerOne) hscaled)
  have hlimit := roundUnits_le hdenominator hmaximum hscaled'
  generalize roundUnits (r * unitsPerOne) (weights.total * unitsPerOne) = q at hmean hmeans
  generalize roundUnits (r' * unitsPerOne) (weights.total * unitsPerOne) = q'
    at hmean' hmeans hlimit
  have hfloor : q / unitsPerOne ≤ q' / unitsPerOne := Nat.div_le_div_right hmeans
  have htop : q' / unitsPerOne ≤ 10000 := by
    calc q' / unitsPerOne ≤ 10000 * unitsPerOne / unitsPerOne := Nat.div_le_div_right hlimit
      _ = 10000 := Nat.mul_div_cancel _ hunits
  exact ⟨_, _, Number.isInt_floor hmean (by omega), Number.isInt_floor hmean' (by omega), hfloor,
    htop⟩

theorem isScore_weightedScore (weights : ScoreWeights) {components : ScoreComponent → Number}
    (hrange : ∀ key, InRange (components key)) : IsScore (weightedScore weights components) := by
  have hle : ∀ key, (Number.ofNat 0).le (components key) = true ∧
      (components key).le (components key) = true := by
    intro key
    obtain ⟨u, hu, -⟩ := (hrange key).hasUnits
    exact ⟨(hrange key).1, (hu.le_iff hu).mpr (le_refl _)⟩
  obtain ⟨k, _, hk, _, hkk, hk'⟩ := weightedScore_mono weights hrange hle
  exact ⟨k, hkk.trans hk', hk⟩

theorem isScore_scoreCandidate {candidate : CatalogCandidate Schema}
    {compatibility : Option Compatibility} {input : WeightInput} {preferred : Bool} {result : Score}
    (h : scoreCandidate candidate compatibility input preferred = .ok result) :
    IsScore result.score := by
  obtain ⟨weights, _, hresult⟩ := bind_ok.mp h
  obtain rfl := pure_ok.mp hresult
  exact isScore_weightedScore weights (inRange_componentScores candidate compatibility preferred)

section Order

variable {localeCompare : Text → Text → Ordering}

structure RankingKey where
  score : ℤ
  trust : ℤ
  verification : ℤ
  passportId : Text
  connectionId : Text

noncomputable def rankingKey (candidate : ScoredCandidate Schema) : RankingKey where
  score := -(candidate.scored.choose : ℤ)
  trust := -trustRank candidate.trustTier
  verification := -verificationRank candidate.verificationStatus
  passportId := idOf candidate.passportId
  connectionId := idOf candidate.connectionId

def compareKeys (localeCompare : Text → Text → Ordering) : RankingKey → RankingKey → Ordering :=
  compareLex (compareOn (·.score)) <| compareLex (compareOn (·.trust)) <|
    compareLex (compareOn (·.verification)) <|
      compareLex (fun left right => localeCompare left.passportId right.passportId)
        fun left right => localeCompare left.connectionId right.connectionId

private theorem compare_neg (m n : ℤ) : compare (-m) (-n) = compare n m := by
  rcases Int.lt_trichotomy m n with hlt | rfl | hgt
  · rw [compare_gt_iff_gt.mpr hlt, compare_gt_iff_gt.mpr (Int.neg_lt_neg hlt)]
  · simp
  · rw [compare_lt_iff_lt.mpr hgt, compare_lt_iff_lt.mpr (Int.neg_lt_neg hgt)]

private theorem compare_sub (m n : ℤ) : compare (m - n) 0 = compare m n := by
  rcases Int.lt_trichotomy m n with hlt | rfl | hgt
  · rw [compare_lt_iff_lt.mpr hlt, compare_lt_iff_lt.mpr (Int.sub_neg_of_lt hlt)]
  · simp
  · rw [compare_gt_iff_gt.mpr hgt, compare_gt_iff_gt.mpr (Int.sub_pos_of_lt hgt)]

theorem compareCandidates_eq (left right : ScoredCandidate Schema) :
    compareCandidates localeCompare left right =
      compareKeys localeCompare (rankingKey left) (rankingKey right) := by
  have hleft := left.scored.choose_spec
  have hright := right.scored.choose_spec
  have hdifference := Number.isInt_sub hright.2 hleft.2 (by omega)
  have hscore : (right.score.sub left.score).sign =
      compare (-(left.scored.choose : ℤ)) (-(right.scored.choose : ℤ)) := by
    rw [Number.sign_of_isInt hdifference, compare_sub, compare_neg]
  simp only [compareCandidates, compareKeys, compareLex, compareOn, rankingKey, hscore, compare_neg]

instance [Std.TransCmp localeCompare] : Std.TransCmp (compareKeys localeCompare) := by
  have hpassport : Std.TransCmp fun left right : RankingKey =>
      localeCompare left.passportId right.passportId :=
    { eq_swap := Std.OrientedCmp.eq_swap
      isLE_trans := Std.TransCmp.isLE_trans }
  have hconnection : Std.TransCmp fun left right : RankingKey =>
      localeCompare left.connectionId right.connectionId :=
    { eq_swap := Std.OrientedCmp.eq_swap
      isLE_trans := Std.TransCmp.isLE_trans }
  unfold compareKeys
  infer_instance

/-- `left` is not put behind `right`. -/
def NotBehind (localeCompare : Text → Text → Ordering) (left right : ScoredCandidate Schema) : Prop :=
  compareCandidates localeCompare left right ≠ .gt

instance : DecidableRel (α := ScoredCandidate Schema) (NotBehind localeCompare) := fun _ _ =>
  inferInstanceAs (Decidable (_ ≠ _))

theorem notBehind_iff {left right : ScoredCandidate Schema} :
    NotBehind localeCompare left right ↔
      (compareKeys localeCompare (rankingKey left) (rankingKey right)).isLE = true := by
  rw [NotBehind, compareCandidates_eq, Ordering.isLE_iff_ne_gt]

instance [Std.TransCmp localeCompare] :
    IsTrans (ScoredCandidate Schema) (NotBehind localeCompare) where
  trans _ _ _ hab hbc := notBehind_iff.mpr
    (Std.TransCmp.isLE_trans (notBehind_iff.mp hab) (notBehind_iff.mp hbc))

instance [Std.TransCmp localeCompare] :
    Std.Total (α := ScoredCandidate Schema) (NotBehind localeCompare) where
  total a b := by
    have hswap : compareKeys localeCompare (rankingKey b) (rankingKey a) =
        (compareKeys localeCompare (rankingKey a) (rankingKey b)).swap := Std.OrientedCmp.eq_swap
    rw [NotBehind, NotBehind, compareCandidates_eq, compareCandidates_eq, hswap]
    cases compareKeys localeCompare (rankingKey a) (rankingKey b) <;> simp [Ordering.swap]

theorem ids_eq_of_notBehind [Std.TransCmp localeCompare] [Std.LawfulEqCmp localeCompare]
    {left right : ScoredCandidate Schema} (h : NotBehind localeCompare left right)
    (h' : NotBehind localeCompare right left) :
    idOf left.passportId = idOf right.passportId ∧
      idOf left.connectionId = idOf right.connectionId := by
  have heq : compareKeys localeCompare (rankingKey left) (rankingKey right) = .eq := by
    rw [NotBehind, compareCandidates_eq] at h h'
    have hswap : compareKeys localeCompare (rankingKey right) (rankingKey left) =
        (compareKeys localeCompare (rankingKey left) (rankingKey right)).swap :=
      Std.OrientedCmp.eq_swap
    rw [hswap] at h'
    cases hcompare : compareKeys localeCompare (rankingKey left) (rankingKey right) with
    | eq => rfl
    | gt => exact absurd hcompare h
    | lt =>
      rw [hcompare] at h'
      exact absurd rfl h'
  simp only [compareKeys, compareLex, Ordering.then_eq_eq] at heq
  exact ⟨Std.LawfulEqCmp.eq_of_compare heq.2.2.2.1, Std.LawfulEqCmp.eq_of_compare heq.2.2.2.2⟩

def candidateIds (candidate : ScoredCandidate Schema) : Text × Text :=
  (idOf candidate.passportId, idOf candidate.connectionId)

theorem ranking_perm [Std.TransCmp localeCompare] [Std.LawfulEqCmp localeCompare]
    {candidates permuted : List (ScoredCandidate Schema)}
    (hids : (candidates.map candidateIds).Nodup) (hperm : permuted.Perm candidates) :
    ranking localeCompare permuted = ranking localeCompare candidates := by
  have hsorted (list : List (ScoredCandidate Schema)) :
      (list.insertionSort (NotBehind localeCompare)).Pairwise (NotBehind localeCompare) :=
    List.pairwise_insertionSort _ list
  have hsame : (permuted.insertionSort (NotBehind localeCompare)).Perm
      (candidates.insertionSort (NotBehind localeCompare)) :=
    (List.perm_insertionSort _ _).trans (hperm.trans (List.perm_insertionSort _ _).symm)
  apply hsame.eq_of_pairwise _ (hsorted permuted) (hsorted candidates)
  intro left right hleft hright hle hge
  have hmem : left ∈ candidates := hperm.subset ((List.mem_insertionSort _).mp hleft)
  have hmem' : right ∈ candidates := (List.mem_insertionSort _).mp hright
  obtain ⟨hpassport, hconnection⟩ := ids_eq_of_notBehind hle hge
  exact List.inj_on_of_nodup_map hids hmem hmem' (Prod.ext hpassport hconnection)

end Order

/-- Scores are integers from 0 to 10000 and grow with every component, and the ranking of candidates
with distinct identifiers does not depend on their order. -/
theorem scores_and_ranking (localeCompare : Text → Text → Ordering) [Std.TransCmp localeCompare]
    [Std.LawfulEqCmp localeCompare] :
    (∀ (candidate : CatalogCandidate Schema) compatibility input preferred result,
      scoreCandidate candidate compatibility input preferred = .ok result →
        IsScore result.score) ∧
    (∀ (weights : ScoreWeights) components key value, (∀ other, InRange (components other)) →
      InRange value → (components key).le value = true →
        (weightedScore weights components).le
          (weightedScore weights (Function.update components key value)) = true) ∧
    ∀ candidates permuted : List (ScoredCandidate Schema), (candidates.map candidateIds).Nodup →
      permuted.Perm candidates → ranking localeCompare permuted = ranking localeCompare candidates := by
  refine ⟨?_, ?_, ?_⟩
  · intro candidate compatibility input preferred result h
    exact isScore_scoreCandidate h
  · intro weights components key value hrange hvalue hle
    have hupdated : ∀ other, InRange (Function.update components key value other) := by
      intro other
      by_cases hkey : other = key
      · subst hkey
        rwa [Function.update_self]
      · rw [Function.update_of_ne hkey]
        exact hrange other
    have hgrown : ∀ other, (Number.ofNat 0).le (components other) = true ∧
        (components other).le (Function.update components key value other) = true := by
      intro other
      refine ⟨(hrange other).1, ?_⟩
      by_cases hkey : other = key
      · subst hkey
        rwa [Function.update_self]
      · rw [Function.update_of_ne hkey]
        obtain ⟨u, hu, -⟩ := (hrange other).hasUnits
        exact (hu.le_iff hu).mpr (le_refl _)
    obtain ⟨k, k', hk, hk', hkk, -⟩ := weightedScore_mono weights hupdated hgrown
    exact (Number.le_iff_of_isInt hk hk').mpr (by exact_mod_cast hkk)
  · intro candidates permuted hids hperm
    exact ranking_perm hids hperm

def scoredCandidate (passportId : Text) (trustTier : Text) : ScoredCandidate Unit where
  passportId
  availabilityStatus := ascii "available"
  lifecycleStatus := ascii "active"
  connectionStatus := ascii "active"
  verificationStatus := ascii "passport_validated"
  trustTier
  estimatedCostClass := ascii "low"
  estimatedLatencyClass := ascii "fast"
  healthSnapshotStale := false
  healthStatus := ascii "healthy"
  readinessStatus := ascii "ready"
  circuitState := ascii "closed"
  connectionId := ascii "c1"
  score := .ofNat 7000
  scored := ⟨7000, by decide, Number.isInt_ofNat (by decide)⟩

def tiedCandidates : List (ScoredCandidate Unit) :=
  [scoredCandidate (ascii "p1") (ascii "registered"), scoredCandidate (ascii "p2") (ascii "registered"),
    scoredCandidate (ascii "p3") (ascii "platform_verified")]

/-- With the order of the units in place of that of a locale. -/
theorem scores_and_ranking_tied :
    ranking compare tiedCandidates.reverse = ranking compare tiedCandidates ∧
      ∀ (candidate : CatalogCandidate Unit) compatibility result,
        scoreCandidate candidate compatibility (fun _ => none) = .ok result →
          IsScore result.score := by
  refine ⟨(scores_and_ranking compare).2.2 tiedCandidates _ (by decide) (List.reverse_perm _), ?_⟩
  intro candidate compatibility result h
  exact (scores_and_ranking compare).1 candidate compatibility _ _ result h

end GhostBridge.AgentSelection
