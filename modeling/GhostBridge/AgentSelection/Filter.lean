import GhostBridge.AgentSelection.Policy

/-!
# Constraints of a selection

A request carries constraints of its own, which are merged with those of the policy before the
candidates are filtered.
-/

namespace GhostBridge.AgentSelection

open Ecma

/-- `request.constraints`. A member that is missing is absent. -/
structure Constraints where
  minimumTrustTier : Option Text := none
  maximumCostClass : Option Text := none
  maximumLatencyClass : Option Text := none
  allowedRegions : List Text := []
  requiredResidencyRegions : List Text := []
  dataClassification : Option Text := none
  requireHealthy : Option Bool := none
  requireReady : Option Bool := none
  allowOpenCircuit : Option Bool := none
  allowRateLimitedCandidate : Option Bool := none

structure EffectiveConstraints where
  minimumTrustTier : Member trustTiers
  maximumCostClass : Member costClasses
  maximumLatencyClass : Member latencyClasses
  allowedRegions : List Text
  regionConstraintUnsatisfiable : Bool
  requiredResidencyRegions : List Text
  dataClassification : Member dataClassifications
  dataClassificationAllowed : Bool
  requireHealthy : Bool
  requireReady : Bool
  allowOpenCircuit : Bool
  allowRateLimitedCandidate : Bool
  allowUncertainSchemaCompatibility : Bool

def unknownClass : Text := ascii "unknown"

def safeMaximumClass {values : List Text} (left right : Member values) (rank : Text → Int) :
    Member values :=
  if left.val = unknownClass then right
  else if right.val = unknownClass then left
  else if rank left.val ≤ rank right.val then left
  else right

def policyRegions (policy : Policy) : List Text :=
  distinct (policy.allowedRegions.val.map Subtype.val)

def effectiveRegions (policy : Policy) (requestRegions : List Text) : List Text :=
  if policyRegions policy ≠ [] ∧ requestRegions ≠ [] then
    requestRegions.filter (· ∈ policyRegions policy)
  else if policyRegions policy ≠ [] then
    (policyRegions policy).insertionSort fun a b => Text.le a b = true
  else requestRegions

def effectiveConstraints (policy : Policy) (constraints : Constraints) :
    Checked EffectiveConstraints := do
  let requestTrust ← validateEnum constraints.minimumTrustTier trustTiers
    "constraints.minimumTrustTier" (some policy.minimumTrustTier.val)
  let requestCost ← validateEnum constraints.maximumCostClass costClasses
    "constraints.maximumCostClass" (some policy.maximumCostClass.val)
  let requestLatency ← validateEnum constraints.maximumLatencyClass latencyClasses
    "constraints.maximumLatencyClass" (some policy.maximumLatencyClass.val)
  let requestRegions := upperList (← stableList constraints.allowedRegions)
  let requiredResidencyRegions := upperList (← stableList
    (policy.requiredResidencyRegions.val.map Subtype.val ++ constraints.requiredResidencyRegions))
  throwWhen ((requestRegions.val ++ requiredResidencyRegions.val).any fun value => !isRegion value)
    ⟨"AGENT_SELECTION_CONSTRAINT_INVALID", "Selection request regions are invalid.", []⟩
  let allowedRegions := effectiveRegions policy requestRegions.val
  let dataClassification ← validateEnum constraints.dataClassification dataClassifications
    "constraints.dataClassification" (some (ascii "public"))
  return {
    minimumTrustTier :=
      if trustRank policy.minimumTrustTier.val < trustRank requestTrust.val then requestTrust
      else policy.minimumTrustTier
    maximumCostClass := safeMaximumClass policy.maximumCostClass requestCost costRank
    maximumLatencyClass := safeMaximumClass policy.maximumLatencyClass requestLatency latencyRank
    allowedRegions
    regionConstraintUnsatisfiable :=
      policyRegions policy ≠ [] ∧ requestRegions.val ≠ [] ∧ allowedRegions = []
    requiredResidencyRegions := requiredResidencyRegions.val
    dataClassification
    dataClassificationAllowed := dataClassification ∈ policy.allowedDataClassifications
    requireHealthy := policy.requireHealthy || constraints.requireHealthy = some true
    requireReady := policy.requireReady || constraints.requireReady = some true
    allowOpenCircuit := policy.allowOpenCircuit && constraints.allowOpenCircuit ≠ some false
    allowRateLimitedCandidate :=
      policy.allowRateLimitedCandidate && constraints.allowRateLimitedCandidate ≠ some false
    allowUncertainSchemaCompatibility := policy.allowUncertainSchemaCompatibility }

inductive Compatibility where
  | compatible
  | incompatible
  | uncertain
deriving DecidableEq

structure Capability (Schema : Type) where
  capabilityKey : Text
  operationKeys : List Text
  categories : List Text := []
  inputSchema : Schema
  outputSchema : Schema

structure Candidate (Schema : Type) where
  passportId : Text
  publisherName : Text := []
  capabilities : List (Capability Schema) := []
  availabilityStatus : Text
  lifecycleStatus : Text
  connectionStatus : Text
  verificationStatus : Text
  trustTier : Text
  dataClassificationsAllowed : List Text := []
  supportedRegions : List Text := []
  residencyRegions : List Text := []
  estimatedCostClass : Text
  estimatedLatencyClass : Text
  healthSnapshotStale : Bool
  healthStatus : Text
  readinessStatus : Text
  circuitState : Text
  rateLimitedUntil : Option Int := none

structure Request (Schema : Type) where
  capability : Text
  operation : Text
  excludedPassportIds : List Text := []
  inputSchema : Schema
  requiredOutputSchema : Schema

/-- What the filter calls: `String.prototype.toLowerCase` for names of publishers, and the
comparison of schemas. -/
structure Runtime (Schema : Type) where
  toLowerCase : Text → Text
  checkSchemaCompatibility : Schema → Schema → Schema → Schema → Compatibility

variable {Schema : Type}

def exceedsClass (value maximum : Text) (rank : Text → Int) : Bool :=
  if value = unknownClass then maximum ∉ ["unknown", "high", "slow"].map ascii
  else if maximum = unknownClass then false
  else rank maximum < rank value

def intersects (left right : List Text) : Bool :=
  right.any fun value => value.toLowerCase ∈ left.map Text.toLowerCase

def containsAll (values required : List Text) : Bool :=
  required.all fun value => value.toUpperCase ∈ values.map Text.toUpperCase

def candidateCapability (candidate : Candidate Schema) (capability operation : Text) :
    Option (Capability Schema) :=
  candidate.capabilities.find? fun item =>
    item.capabilityKey = capability ∧ operation ∈ item.operationKeys

def reasonWhen (condition : Bool) (reason : String) : List Text :=
  if condition then [ascii reason] else []

def standingReasons (runtime : Runtime Schema) (candidate : Candidate Schema)
    (request : Request Schema) (policy : Policy) (policyDenied : Bool)
    (capability : Option (Capability Schema)) : List Text :=
  let passportId := candidate.passportId.trimmed
  let denied := (policy.deniedPassportIds ++ request.excludedPassportIds).map Text.trimmed
  let allowed := policy.allowedPassportIds.map Text.trimmed
  let publisher := runtime.toLowerCase candidate.publisherName
  let deniedPublishers := policy.deniedPublishers.map runtime.toLowerCase
  let allowedPublishers := policy.allowedPublishers.map runtime.toLowerCase
  (if passportId ∈ denied then [ascii "ADMINISTRATIVELY_DENIED"]
    else reasonWhen (allowed ≠ [] ∧ passportId ∉ allowed) "NOT_ADMINISTRATIVELY_ALLOWED") ++
  (if publisher ∈ deniedPublishers then [ascii "PUBLISHER_DENIED"]
    else reasonWhen (allowedPublishers ≠ [] ∧ publisher ∉ allowedPublishers)
      "PUBLISHER_NOT_ALLOWED") ++
  reasonWhen (candidate.availabilityStatus ≠ ascii "available" ∨
    candidate.lifecycleStatus ≠ ascii "valid") "PASSPORT_UNAVAILABLE" ++
  reasonWhen (candidate.connectionStatus ≠ ascii "connected") "CONNECTION_UNAVAILABLE" ++
  reasonWhen capability.isNone "CAPABILITY_OR_OPERATION_UNAVAILABLE" ++
  reasonWhen (capability.any fun item => policy.allowedCapabilityCategories ≠ [] ∧
    !intersects item.categories policy.allowedCapabilityCategories) "CAPABILITY_CATEGORY_DENIED" ++
  reasonWhen policyDenied "POLICY_DENIED" ++
  reasonWhen (policy.requiredVerificationStatuses ≠ [] ∧
    candidate.verificationStatus ∉ policy.requiredVerificationStatuses.map Subtype.val)
    "VERIFICATION_REQUIREMENT_NOT_MET"

def constraintReasons (candidate : Candidate Schema) (constraints : EffectiveConstraints)
    (now : Int) (compatibility : Option Compatibility) : List Text :=
  reasonWhen (trustRank candidate.trustTier < trustRank constraints.minimumTrustTier.val)
    "TRUST_REQUIREMENT_NOT_MET" ++
  reasonWhen (!constraints.dataClassificationAllowed ∨
    constraints.dataClassification.val ∉ candidate.dataClassificationsAllowed)
    "DATA_CLASSIFICATION_UNSUPPORTED" ++
  reasonWhen (constraints.regionConstraintUnsatisfiable ∨ constraints.allowedRegions ≠ [] ∧
    !intersects candidate.supportedRegions constraints.allowedRegions) "REGION_NOT_ALLOWED" ++
  reasonWhen (!containsAll candidate.residencyRegions constraints.requiredResidencyRegions)
    "RESIDENCY_REQUIREMENT_UNMET" ++
  reasonWhen (exceedsClass candidate.estimatedCostClass constraints.maximumCostClass.val costRank)
    "COST_LIMIT_EXCEEDED" ++
  reasonWhen (exceedsClass candidate.estimatedLatencyClass constraints.maximumLatencyClass.val
    latencyRank) "LATENCY_LIMIT_EXCEEDED" ++
  (if constraints.requireHealthy ∧ candidate.healthSnapshotStale then
      [ascii "STALE_HEALTH_SNAPSHOT"]
    else reasonWhen (constraints.requireHealthy ∧ candidate.healthStatus ≠ ascii "healthy")
      "HEALTH_REQUIREMENT_NOT_MET") ++
  reasonWhen (constraints.requireReady ∧ candidate.readinessStatus ≠ ascii "ready")
    "READINESS_REQUIREMENT_NOT_MET" ++
  reasonWhen (!constraints.allowOpenCircuit ∧ candidate.circuitState = ascii "open")
    "CIRCUIT_OPEN" ++
  reasonWhen (!constraints.allowRateLimitedCandidate ∧ candidate.rateLimitedUntil.any (now < ·))
    "RATE_LIMITED" ++
  reasonWhen (compatibility = some .incompatible) "SCHEMA_INCOMPATIBLE" ++
  reasonWhen (compatibility = some .uncertain ∧ !constraints.allowUncertainSchemaCompatibility)
    "SCHEMA_COMPATIBILITY_UNCERTAIN"

structure FilterResult (Schema : Type) where
  eligible : Bool
  reasons : List Text
  compatibility : Option Compatibility
  capability : Option (Capability Schema)

structure FilterOptions where
  constraints : EffectiveConstraints
  policyDenied : Bool
  now : Int

def mandatoryFilter (runtime : Runtime Schema) (candidate : Candidate Schema)
    (request : Request Schema) (policy : Policy) (options : FilterOptions) : FilterResult Schema :=
  let capability := candidateCapability candidate request.capability request.operation
  let compatibility := capability.map fun item => runtime.checkSchemaCompatibility
    request.inputSchema item.inputSchema item.outputSchema request.requiredOutputSchema
  let reasons := standingReasons runtime candidate request policy options.policyDenied capability ++
    constraintReasons candidate options.constraints options.now compatibility
  { eligible := reasons = []
    reasons := (distinct reasons).insertionSort fun a b => Text.le a b = true
    compatibility
    capability }

@[simp] theorem reasonWhen_eq_nil {condition : Bool} {reason : String} :
    reasonWhen condition reason = [] ↔ condition = false := by
  cases condition <;> simp [reasonWhen]

structure KeepsTo (candidate : Candidate Schema) (constraints : EffectiveConstraints) (now : Int)
    (compatibility : Option Compatibility) : Prop where
  trust : trustRank constraints.minimumTrustTier.val ≤ trustRank candidate.trustTier
  classification : constraints.dataClassificationAllowed = true ∧
    constraints.dataClassification.val ∈ candidate.dataClassificationsAllowed
  region : constraints.regionConstraintUnsatisfiable = false ∧ (constraints.allowedRegions ≠ [] →
    intersects candidate.supportedRegions constraints.allowedRegions = true)
  residency : containsAll candidate.residencyRegions constraints.requiredResidencyRegions = true
  cost : exceedsClass candidate.estimatedCostClass constraints.maximumCostClass.val costRank = false
  latency : exceedsClass candidate.estimatedLatencyClass constraints.maximumLatencyClass.val
    latencyRank = false
  health : constraints.requireHealthy = true →
    candidate.healthSnapshotStale = false ∧ candidate.healthStatus = ascii "healthy"
  readiness : constraints.requireReady = true → candidate.readinessStatus = ascii "ready"
  circuit : constraints.allowOpenCircuit = false → candidate.circuitState ≠ ascii "open"
  rateLimit : constraints.allowRateLimitedCandidate = false →
    ∀ rateLimitedUntil ∈ candidate.rateLimitedUntil, rateLimitedUntil ≤ now
  compatible : compatibility ≠ some .incompatible ∧ (compatibility = some .uncertain →
    constraints.allowUncertainSchemaCompatibility = true)

theorem constraintReasons_eq_nil {candidate : Candidate Schema} {constraints : EffectiveConstraints}
    {now : Int} {compatibility : Option Compatibility} :
    constraintReasons candidate constraints now compatibility = [] ↔
      KeepsTo candidate constraints now compatibility := by
  have hhealth : (if constraints.requireHealthy = true ∧ candidate.healthSnapshotStale = true then
      [ascii "STALE_HEALTH_SNAPSHOT"]
      else reasonWhen (constraints.requireHealthy ∧ candidate.healthStatus ≠ ascii "healthy")
        "HEALTH_REQUIREMENT_NOT_MET") = [] ↔ (constraints.requireHealthy = true →
          candidate.healthSnapshotStale = false ∧ candidate.healthStatus = ascii "healthy") := by
    cases constraints.requireHealthy <;> cases candidate.healthSnapshotStale <;> simp
  have hrate : (!constraints.allowRateLimitedCandidate) = true ∧
      candidate.rateLimitedUntil.any (now < ·) = true ↔
        ¬(constraints.allowRateLimitedCandidate = false →
          ∀ rateLimitedUntil ∈ candidate.rateLimitedUntil, rateLimitedUntil ≤ now) := by
    cases candidate.rateLimitedUntil <;> simp
  unfold constraintReasons
  simp only [List.append_eq_nil_iff, reasonWhen_eq_nil, hhealth, decide_eq_false_iff_not, hrate,
    not_not]
  constructor
  · intro h
    obtain ⟨⟨⟨⟨⟨⟨⟨⟨⟨⟨⟨h1, h2⟩, h3⟩, h4⟩, h5⟩, h6⟩, h7⟩, h8⟩, h9⟩, h10⟩, h11⟩, h12⟩ := h
    constructor <;> grind
  · intro h
    obtain ⟨h1, h2, h3, h4, h5, h6, h7, h8, h9, h10, h11⟩ := h
    grind

theorem mandatoryFilter_eligible {runtime : Runtime Schema} {candidate : Candidate Schema}
    {request : Request Schema} {policy : Policy} {options : FilterOptions} :
    (mandatoryFilter runtime candidate request policy options).eligible = true ↔
      standingReasons runtime candidate request policy options.policyDenied
        (mandatoryFilter runtime candidate request policy options).capability = [] ∧
      KeepsTo candidate options.constraints options.now
        (mandatoryFilter runtime candidate request policy options).compatibility := by
  simp only [mandatoryFilter, decide_eq_true_eq, List.append_eq_nil_iff, constraintReasons_eq_nil]

/-- One class is within another: what does not exceed it does not exceed the other. -/
def ClassWithin (rank : Text → Int) (inner outer : Text) : Prop :=
  ∀ value, exceedsClass value inner rank = false → exceedsClass value outer rank = false

structure Narrower (inner outer : EffectiveConstraints) : Prop where
  trust : trustRank outer.minimumTrustTier.val ≤ trustRank inner.minimumTrustTier.val
  cost : ClassWithin costRank inner.maximumCostClass.val outer.maximumCostClass.val
  latency : ClassWithin latencyRank inner.maximumLatencyClass.val outer.maximumLatencyClass.val
  region : inner.regionConstraintUnsatisfiable = false →
    outer.regionConstraintUnsatisfiable = false ∧ (outer.allowedRegions ≠ [] →
      inner.allowedRegions ≠ [] ∧ inner.allowedRegions ⊆ outer.allowedRegions)
  residency : outer.requiredResidencyRegions ⊆ inner.requiredResidencyRegions
  classification : outer.dataClassification = inner.dataClassification ∧
    outer.dataClassificationAllowed = inner.dataClassificationAllowed
  health : outer.requireHealthy = true → inner.requireHealthy = true
  readiness : outer.requireReady = true → inner.requireReady = true
  circuit : outer.allowOpenCircuit = false → inner.allowOpenCircuit = false
  rateLimit : outer.allowRateLimitedCandidate = false → inner.allowRateLimitedCandidate = false
  compatible : outer.allowUncertainSchemaCompatibility = inner.allowUncertainSchemaCompatibility

theorem intersects_mono {left inner outer : List Text} (hsubset : inner ⊆ outer)
    (h : intersects left inner = true) : intersects left outer = true := by
  obtain ⟨value, hmem, hvalue⟩ := List.any_eq_true.mp h
  exact List.any_eq_true.mpr ⟨value, hsubset hmem, hvalue⟩

theorem containsAll_anti {values inner outer : List Text} (hsubset : outer ⊆ inner)
    (h : containsAll values inner = true) : containsAll values outer = true := by
  rw [containsAll, List.all_eq_true] at h ⊢
  exact fun value hmem => h value (hsubset hmem)

theorem KeepsTo.widen {candidate : Candidate Schema} {inner outer : EffectiveConstraints} {now : Int}
    {compatibility : Option Compatibility} (hnarrower : Narrower inner outer)
    (h : KeepsTo candidate inner now compatibility) : KeepsTo candidate outer now compatibility where
  trust := hnarrower.trust.trans h.trust
  classification := by
    rw [hnarrower.classification.1, hnarrower.classification.2]
    exact h.classification
  region := by
    obtain ⟨houter, hregions⟩ := hnarrower.region h.region.1
    refine ⟨houter, fun hne => ?_⟩
    obtain ⟨hinner, hsubset⟩ := hregions hne
    exact intersects_mono hsubset (h.region.2 hinner)
  residency := containsAll_anti hnarrower.residency h.residency
  cost := hnarrower.cost _ h.cost
  latency := hnarrower.latency _ h.latency
  health houter := h.health (hnarrower.health houter)
  readiness houter := h.readiness (hnarrower.readiness houter)
  circuit houter := h.circuit (hnarrower.circuit houter)
  rateLimit houter := h.rateLimit (hnarrower.rateLimit houter)
  compatible := by
    rw [hnarrower.compatible]
    exact h.compatible

def Broadest (rank : Text → Int) (values : List Text) : Prop :=
  ∀ value ∈ values, value ∈ ["unknown", "high", "slow"].map ascii → value ≠ unknownClass →
    ∀ other ∈ values, rank other ≤ rank value

theorem broadest_cost : Broadest costRank costClasses := by
  unfold Broadest
  decide

theorem broadest_latency : Broadest latencyRank latencyClasses := by
  unfold Broadest
  decide

theorem classWithin_safeMaximumClass {rank : Text → Int} {values : List Text}
    (hbroadest : Broadest rank values) (left right : Member values) :
    ClassWithin rank (safeMaximumClass left right rank).val left.val := by
  intro value h
  unfold safeMaximumClass at h
  by_cases hleft : left.val = unknownClass
  · rw [hleft]
    unfold exceedsClass
    by_cases hvalue : value = unknownClass
    · rw [if_pos hvalue]
      decide
    · rw [if_neg hvalue, if_pos rfl]
  rw [if_neg hleft] at h
  by_cases hright : right.val = unknownClass
  · rwa [if_pos hright] at h
  rw [if_neg hright] at h
  by_cases hrank : rank left.val ≤ rank right.val
  · rwa [if_pos hrank] at h
  rw [if_neg hrank] at h
  unfold exceedsClass at h ⊢
  by_cases hvalue : value = unknownClass
  · rw [if_pos hvalue] at h
    simp only [decide_eq_false_iff_not, not_not] at h
    exact absurd (hbroadest right.val right.property h hright left.val left.property) hrank
  · rw [if_neg hvalue, if_neg hright] at h
    rw [if_neg hvalue, if_neg hleft]
    simp only [decide_eq_false_iff_not, not_lt] at h ⊢
    omega

def regionTexts (regions : Bounded Region) : List Text := regions.val.map Subtype.val

theorem mem_policyRegions {policy : Policy} {text : Text} :
    text ∈ policyRegions policy ↔ text ∈ regionTexts policy.allowedRegions := by
  simp only [policyRegions, mem_distinct, regionTexts]

def policyConstraints (policy : Policy) (dataClassification : Member dataClassifications) :
    EffectiveConstraints where
  minimumTrustTier := policy.minimumTrustTier
  maximumCostClass := policy.maximumCostClass
  maximumLatencyClass := policy.maximumLatencyClass
  allowedRegions := effectiveRegions policy []
  regionConstraintUnsatisfiable := false
  requiredResidencyRegions :=
    (normalizedTexts (regionTexts policy.requiredResidencyRegions)).map Text.toUpperCase
  dataClassification
  dataClassificationAllowed := dataClassification ∈ policy.allowedDataClassifications
  requireHealthy := policy.requireHealthy
  requireReady := policy.requireReady
  allowOpenCircuit := policy.allowOpenCircuit
  allowRateLimitedCandidate := policy.allowRateLimitedCandidate
  allowUncertainSchemaCompatibility := policy.allowUncertainSchemaCompatibility

theorem mem_normalized_regions {regions : Bounded Region} (more : List Text) {text : Text}
    (h : text ∈ regionTexts regions) :
    text ∈ (normalizedTexts (regionTexts regions ++ more)).map Text.toUpperCase := by
  obtain ⟨region, hmem, rfl⟩ := List.mem_map.mp h
  refine List.mem_map.mpr ⟨region.val, mem_normalizedTexts.mpr ⟨Region.ne_nil region, ?_⟩,
    Region.toUpperCase region⟩
  exact ⟨region.val, List.mem_append_left _ h, Region.trimmed region⟩

theorem mem_regionTexts_of_normalized {regions : Bounded Region} {text : Text}
    (h : text ∈ (normalizedTexts (regionTexts regions)).map Text.toUpperCase) :
    text ∈ regionTexts regions := by
  obtain ⟨value, hvalue, rfl⟩ := List.mem_map.mp h
  obtain ⟨-, original, horiginal, rfl⟩ := mem_normalizedTexts.mp hvalue
  obtain ⟨region, hmem, rfl⟩ := List.mem_map.mp horiginal
  rw [Region.trimmed region, Region.toUpperCase region]
  exact horiginal

theorem safeMaximumClass_self {values : List Text} (value : Member values) (rank : Text → Int) :
    safeMaximumClass value value rank = value := by
  unfold safeMaximumClass
  split
  · rfl
  · split <;> rfl

theorem effectiveConstraints_alone (policy : Policy) {given : Option Text}
    {dataClassification : Member dataClassifications}
    (h : validateEnum given dataClassifications "constraints.dataClassification"
      (some (ascii "public")) = .ok dataClassification) :
    effectiveConstraints policy { dataClassification := given } =
      .ok (policyConstraints policy dataClassification) := by
  have hempty : stableList [] = .ok ⟨[], by decide⟩ := rfl
  have hlength : (normalizedTexts (regionTexts policy.requiredResidencyRegions ++ [])).length ≤
      maximumArrayItems := by
    apply (length_normalizedTexts_le _).trans
    rw [List.append_nil, regionTexts, List.length_map]
    exact policy.requiredResidencyRegions.property
  have hresidency : stableList (regionTexts policy.requiredResidencyRegions ++ []) = .ok
      ⟨normalizedTexts (regionTexts policy.requiredResidencyRegions ++ []), hlength⟩ := by
    refine stableList_ok.mpr ⟨rfl, fun value hvalue => ?_⟩
    change value ∈ normalizedTexts (regionTexts policy.requiredResidencyRegions ++ []) at hvalue
    rw [List.append_nil] at hvalue
    obtain ⟨-, original, horiginal, rfl⟩ := mem_normalizedTexts.mp hvalue
    obtain ⟨region, -, rfl⟩ := List.mem_map.mp horiginal
    rw [Region.trimmed region]
    exact (Region.length region).2.trans (by decide)
  have hregions : ((normalizedTexts (regionTexts policy.requiredResidencyRegions)).map
      Text.toUpperCase).any (fun value => !isRegion value) = false := by
    rw [List.any_eq_false]
    intro value hvalue
    obtain ⟨region, -, rfl⟩ := List.mem_map.mp (mem_regionTexts_of_normalized hvalue)
    simp [region.property]
  unfold effectiveConstraints
  rw [validateEnum_fallback policy.minimumTrustTier (by decide),
    validateEnum_fallback policy.maximumCostClass (by decide),
    validateEnum_fallback policy.maximumLatencyClass (by decide), hempty]
  change (do
    let list ← stableList (regionTexts policy.requiredResidencyRegions ++ [])
    _ : Checked EffectiveConstraints) = _
  rw [hresidency]
  simp only [ok_bind, upperList, List.map_nil, List.nil_append, List.append_nil, hregions,
    throwWhen, Bool.false_eq_true, if_false, h]
  simp [policyConstraints, safeMaximumClass_self, pure, Except.pure]

theorem narrower_policyConstraints {policy : Policy} {constraints : Constraints}
    {inner : EffectiveConstraints} (h : effectiveConstraints policy constraints = .ok inner) :
    Narrower inner (policyConstraints policy inner.dataClassification) := by
  unfold effectiveConstraints at h
  obtain ⟨requestTrust, -, h⟩ := bind_ok.mp h
  obtain ⟨requestCost, -, h⟩ := bind_ok.mp h
  obtain ⟨requestLatency, -, h⟩ := bind_ok.mp h
  obtain ⟨requestRegions, -, h⟩ := bind_ok.mp h
  obtain ⟨residencyRegions, hresidency, h⟩ := bind_ok.mp h
  obtain ⟨-, -, h⟩ := bind_ok.mp h
  obtain ⟨dataClassification, -, h⟩ := bind_ok.mp h
  obtain rfl := pure_ok.mp h
  constructor
  case trust =>
    change trustRank policy.minimumTrustTier.val ≤ trustRank (ite _ _ _ : Member trustTiers).val
    split
    · next hlt => exact hlt.le
    · exact le_rfl
  case cost => exact classWithin_safeMaximumClass broadest_cost _ _
  case latency => exact classWithin_safeMaximumClass broadest_latency _ _
  case region =>
    intro hsatisfiable
    refine ⟨rfl, fun houter => ?_⟩
    have hpolicy : policyRegions policy ≠ [] := by
      intro hnil
      exact houter (by simp [policyConstraints, effectiveRegions, hnil])
    have houterRegions : effectiveRegions policy [] =
        (policyRegions policy).insertionSort fun a b => Text.le a b = true := by
      simp [effectiveRegions, hpolicy]
    change effectiveRegions policy (upperList requestRegions).val ≠ [] ∧
      effectiveRegions policy (upperList requestRegions).val ⊆ effectiveRegions policy []
    have hsatisfiable : ¬(policyRegions policy ≠ [] ∧ (upperList requestRegions).val ≠ [] ∧
        effectiveRegions policy (upperList requestRegions).val = []) := by
      simpa using hsatisfiable
    rw [houterRegions]
    by_cases hrequest : (upperList requestRegions).val = []
    · rw [hrequest, houterRegions]
      exact ⟨by rw [← houterRegions]; exact houter, List.Subset.refl _⟩
    · refine ⟨fun hnil => hsatisfiable ⟨hpolicy, hrequest, hnil⟩, fun text htext => ?_⟩
      rw [effectiveRegions, if_pos ⟨hpolicy, hrequest⟩] at htext
      apply (List.mem_insertionSort _).mpr
      simpa using (List.mem_filter.mp htext).2
  case residency =>
    intro text htext
    have hmem := mem_normalized_regions constraints.requiredResidencyRegions
      (mem_regionTexts_of_normalized htext)
    rwa [show regionTexts policy.requiredResidencyRegions =
      policy.requiredResidencyRegions.val.map Subtype.val from rfl,
      ← (stableList_ok.mp hresidency).1] at hmem
  case classification => exact ⟨rfl, rfl⟩
  case health =>
    intro hrequired
    exact Bool.or_eq_true_iff.mpr (.inl hrequired)
  case readiness =>
    intro hrequired
    exact Bool.or_eq_true_iff.mpr (.inl hrequired)
  case circuit =>
    intro hdenied
    change (policy.allowOpenCircuit && _) = false
    rw [show policy.allowOpenCircuit = false from hdenied, Bool.false_and]
  case rateLimit =>
    intro hdenied
    change (policy.allowRateLimitedCandidate && _) = false
    rw [show policy.allowRateLimitedCandidate = false from hdenied, Bool.false_and]
  case compatible => rfl

structure KeepsToPolicy (candidate : Candidate Schema) (policy : Policy) (now : Int) : Prop where
  trust : trustRank policy.minimumTrustTier.val ≤ trustRank candidate.trustTier
  cost : exceedsClass candidate.estimatedCostClass policy.maximumCostClass.val costRank = false
  latency : exceedsClass candidate.estimatedLatencyClass policy.maximumLatencyClass.val
    latencyRank = false
  region : policy.allowedRegions.val ≠ [] →
    intersects candidate.supportedRegions (regionTexts policy.allowedRegions) = true
  residency : containsAll candidate.residencyRegions
    (regionTexts policy.requiredResidencyRegions) = true
  health : policy.requireHealthy = true →
    candidate.healthSnapshotStale = false ∧ candidate.healthStatus = ascii "healthy"
  readiness : policy.requireReady = true → candidate.readinessStatus = ascii "ready"
  circuit : policy.allowOpenCircuit = false → candidate.circuitState ≠ ascii "open"
  rateLimit : policy.allowRateLimitedCandidate = false →
    ∀ rateLimitedUntil ∈ candidate.rateLimitedUntil, rateLimitedUntil ≤ now

theorem KeepsTo.policy {candidate : Candidate Schema} {policy : Policy}
    {dataClassification : Member dataClassifications} {now : Int}
    {compatibility : Option Compatibility}
    (h : KeepsTo candidate (policyConstraints policy dataClassification) now compatibility) :
    KeepsToPolicy candidate policy now where
  trust := h.trust
  cost := h.cost
  latency := h.latency
  region := by
    intro hne
    obtain ⟨region, hregion⟩ := List.exists_mem_of_ne_nil _ hne
    have hpolicy : policyRegions policy ≠ [] :=
      List.ne_nil_of_mem (mem_policyRegions.mpr (List.mem_map_of_mem hregion))
    have hregions : effectiveRegions policy [] =
        (policyRegions policy).insertionSort fun a b => Text.le a b = true := by
      simp [effectiveRegions, hpolicy]
    have hsubset : effectiveRegions policy [] ⊆ regionTexts policy.allowedRegions := by
      intro text htext
      rw [hregions] at htext
      exact mem_policyRegions.mp ((List.mem_insertionSort _).mp htext)
    apply intersects_mono hsubset
    apply h.region.2
    change effectiveRegions policy [] ≠ []
    rw [hregions]
    apply List.ne_nil_of_mem
    exact (List.mem_insertionSort _).mpr (mem_policyRegions.mpr (List.mem_map_of_mem hregion))
  residency := by
    have hsubset : regionTexts policy.requiredResidencyRegions ⊆
        (normalizedTexts (regionTexts policy.requiredResidencyRegions)).map Text.toUpperCase := by
      intro text htext
      have hmem := mem_normalized_regions [] htext
      rwa [List.append_nil] at hmem
    exact containsAll_anti hsubset h.residency
  health := h.health
  readiness := h.readiness
  circuit := h.circuit
  rateLimit := h.rateLimit

/-- Constraints only narrow: a candidate that passes under those of a request passes under the
request without them, and keeps to the limits of the policy. -/
theorem constraints_narrow (runtime : Runtime Schema) (candidate : Candidate Schema)
    (request : Request Schema) (policy : Policy) (constraints : Constraints) (policyDenied : Bool)
    (now : Int) (inner : EffectiveConstraints)
    (h : effectiveConstraints policy constraints = .ok inner)
    (hpass : (mandatoryFilter runtime candidate request policy
      ⟨inner, policyDenied, now⟩).eligible = true) :
    (∃ outer, effectiveConstraints policy { dataClassification := constraints.dataClassification } =
        .ok outer ∧
      (mandatoryFilter runtime candidate request policy
        ⟨outer, policyDenied, now⟩).eligible = true) ∧
    KeepsToPolicy candidate policy now := by
  obtain ⟨hstanding, hkeeps⟩ := mandatoryFilter_eligible.mp hpass
  have houter := hkeeps.widen (narrower_policyConstraints h)
  refine ⟨⟨policyConstraints policy inner.dataClassification, ?_, ?_⟩, houter.policy⟩
  · apply effectiveConstraints_alone
    unfold effectiveConstraints at h
    obtain ⟨_, _, h⟩ := bind_ok.mp h
    obtain ⟨_, _, h⟩ := bind_ok.mp h
    obtain ⟨_, _, h⟩ := bind_ok.mp h
    obtain ⟨_, _, h⟩ := bind_ok.mp h
    obtain ⟨_, _, h⟩ := bind_ok.mp h
    obtain ⟨_, _, h⟩ := bind_ok.mp h
    obtain ⟨dataClassification, hclassification, h⟩ := bind_ok.mp h
    obtain rfl := pure_ok.mp h
    exact hclassification
  · exact mandatoryFilter_eligible.mpr ⟨hstanding, houter⟩

/-- A policy for agents in `EU` or `US`. -/
def regionalPolicy : Policy where
  allowedCapabilityCategories := []
  allowedPassportIds := []
  deniedPassportIds := []
  allowedPublishers := []
  deniedPublishers := []
  minimumTrustTier := ⟨ascii "registered", by decide⟩
  requiredVerificationStatuses := []
  allowedRegions := ⟨[⟨ascii "EU", by decide⟩, ⟨ascii "US", by decide⟩], by decide⟩
  requiredResidencyRegions := ⟨[], by decide⟩
  allowedDataClassifications := [⟨ascii "public", by decide⟩]
  maximumCostClass := ⟨ascii "high", by decide⟩
  maximumLatencyClass := ⟨ascii "slow", by decide⟩
  requireHealthy := true
  requireReady := true
  allowOpenCircuit := false
  allowRateLimitedCandidate := false
  allowUncertainSchemaCompatibility := false

/-- A candidate of `EU` that is in order. -/
def regionalCandidate : Candidate Unit where
  passportId := ascii "p"
  capabilities := [⟨ascii "c", [ascii "o"], [], (), ()⟩]
  availabilityStatus := ascii "available"
  lifecycleStatus := ascii "valid"
  connectionStatus := ascii "connected"
  verificationStatus := ascii "unverified"
  trustTier := ascii "registered"
  dataClassificationsAllowed := [ascii "public"]
  supportedRegions := [ascii "EU"]
  estimatedCostClass := ascii "low"
  estimatedLatencyClass := ascii "fast"
  healthSnapshotStale := false
  healthStatus := ascii "healthy"
  readinessStatus := ascii "ready"
  circuitState := ascii "closed"

/-- What is left of `regionalPolicy` for a request that asks for `EU` and a medium cost. -/
def regionalConstraints : EffectiveConstraints where
  minimumTrustTier := ⟨ascii "registered", by decide⟩
  maximumCostClass := ⟨ascii "medium", by decide⟩
  maximumLatencyClass := ⟨ascii "slow", by decide⟩
  allowedRegions := [ascii "EU"]
  regionConstraintUnsatisfiable := false
  requiredResidencyRegions := []
  dataClassification := ⟨ascii "public", by decide⟩
  dataClassificationAllowed := true
  requireHealthy := true
  requireReady := true
  allowOpenCircuit := false
  allowRateLimitedCandidate := false
  allowUncertainSchemaCompatibility := false

theorem constraints_narrow_regional :
    KeepsToPolicy regionalCandidate regionalPolicy 0 :=
  (constraints_narrow ⟨id, fun _ _ _ _ => .compatible⟩ regionalCandidate
    ⟨ascii "c", ascii "o", [], (), ()⟩ regionalPolicy
    { maximumCostClass := ascii "medium", allowedRegions := [ascii "eu"] } false 0
    regionalConstraints (by rfl) (by decide)).2

end GhostBridge.AgentSelection
