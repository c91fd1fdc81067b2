import GhostBridge.Ecma.Numeric
import GhostBridge.RegionalResilience.Authority

/-!
# Regional routing and admission

Which region serves a request, and whether a region accepts an operation, each as a function of
the configuration and of the state that the caller read.
-/

namespace GhostBridge.RegionalResilience

open Ecma

/-- A region of a `RegionalDeploymentConfiguration`. -/
structure Region where
  regionId : Text
  state : Text
  enabled : Bool
  supportsReadOnlyTraffic : Bool
  dataResidencyTags : List Text := []
  allowedDataClassifications : List Text := []
  /-- `Number(region.maximumStalenessMs || 0)`. -/
  maximumStalenessMs : Number := .ofNat 0
deriving DecidableEq

/-- The fields of a request that say what data it is about. A classification that is missing is
empty. -/
structure DataPlacement where
  residencyTags : List Text := []
  dataClassification : Text := []
deriving DecidableEq

structure RoutingAuthority where
  activeRegionId : Text
  status : Text
  /-- `Number(authority.authorityEpoch || 0)`. -/
  authorityEpoch : Number
deriving DecidableEq

/-- A text that is missing is empty, a region that is missing is absent. -/
structure RoutingInput extends DataPlacement where
  regions : List Region
  consistencyClass : Text := []
  requestedRegionId : Option Text := none
  homeRegionId : Option Text := none
  authority : Option RoutingAuthority := none
  allowQueueForPrimary : Bool := false
  /-- `Number(input.projectionStalenessMs || 0)`. -/
  projectionStalenessMs : Number := .ofNat 0
  degradedMode : Text := []
  generatedAt : Option Int := none
  /-- `assertNoSensitiveData` refuses the input. -/
  sensitive : Bool := false

inductive RoutingOutcome where
  | routePrimary
  | queueForPrimary
  | routeReadReplica
  | routeHomeRegion
  | degradedReadOnly
  | rejectWriteFenced
  | rejectResidency
  | rejectRegionUnavailable
deriving DecidableEq

structure ReadFreshness where
  generatedAt : Int
  sourceRegion : Text
  stalenessCategory : String
  maximumExpectedStalenessMs : Number
deriving DecidableEq

structure Routing where
  outcome : RoutingOutcome
  selectedRegionId : Option Text
  activeWriteRegionId : Option Text
  authorityEpoch : Number
  safeReasonCodes : List String
  freshness : Option ReadFreshness := none
deriving DecidableEq

structure ResidencyDecision where
  allowed : Bool
  code : String
deriving DecidableEq

def residencyDecision (input : DataPlacement) (region : Region) : ResidencyDecision :=
  if input.residencyTags.any fun tag => !region.dataResidencyTags.contains tag then
    ⟨false, "REGION_RESIDENCY_DENIED"⟩
  else
    let classification :=
      if input.dataClassification = [] then ascii "internal" else input.dataClassification
    if !region.allowedDataClassifications.contains classification then
      ⟨false, "REGION_CLASSIFICATION_DENIED"⟩
    else ⟨true, "REGION_RESIDENCY_ALLOWED"⟩

def consistencyClasses : List Text :=
  ["strong_authority", "versioned_immutable", "eventual_projection"].map ascii

def strongAuthority : Text := ascii "strong_authority"

/-- `enumValue(input.consistencyClass, …, STRONG_AUTHORITY)`. -/
def consistencyClassOf (value : Text) : Checked Text := do
  let candidate := if value = [] then strongAuthority else value.trimmed
  throwWhen (!consistencyClasses.contains candidate)
    (validationError "consistencyClass" "consistencyClass is not supported.")
  return candidate

namespace RoutingInput

variable (input : RoutingInput)

/-- `configuration.regions.find((region) => region.regionId === id)`. -/
def region? (id : Option Text) : Option Region :=
  id.bind fun text => input.regions.find? fun region => region.regionId == text

def requested : Option Region := input.region? input.requestedRegionId

def active : Option Region := input.region? (input.authority.map (·.activeRegionId))

def home : Option Region := input.region? input.homeRegionId

/-- `Number(input.authority?.authorityEpoch || 0)`. -/
def authorityEpoch : Number := (input.authority.map (·.authorityEpoch)).getD (.ofNat 0)

/-- `input.authority?.status === 'active'`. -/
def authorityActive : Bool :=
  (input.authority.map (·.status)) == some (ascii "active")

/-- `[requested, home, active].filter(Boolean)`. -/
def candidates : List Region := [input.requested, input.home, input.active].filterMap id

end RoutingInput

/-- `a > b`. -/
def exceeds (a b : Number) : Bool := b.le a && !a.le b

def unavailableStates : List Text := ["unavailable", "isolated", "disabled"].map ascii

def writableStates : List Text := ["healthy", "elevated", "degraded", "promoted"].map ascii

def servesRead (input : RoutingInput) (candidate : Region) : Bool :=
  candidate.enabled && candidate.supportsReadOnlyTraffic &&
    !unavailableStates.contains candidate.state &&
    (residencyDecision input.toDataPlacement candidate).allowed &&
    !exceeds input.projectionStalenessMs candidate.maximumStalenessMs

def readFreshness (input : RoutingInput) (now : Int) (region : Region) (category : String) :
    ReadFreshness :=
  ⟨input.generatedAt.getD now, region.regionId, category, region.maximumStalenessMs⟩

def routeStrong (input : RoutingInput) : Routing :=
  let epoch := input.authorityEpoch
  match input.active with
  | none => ⟨.rejectWriteFenced, none, none, epoch, ["REGION_WRITE_FROZEN"], none⟩
  | some active =>
    let residency := residencyDecision input.toDataPlacement active
    if !input.authorityActive then
      ⟨.rejectWriteFenced, none, some active.regionId, epoch, ["REGION_WRITE_FROZEN"], none⟩
    else if !residency.allowed then
      ⟨.rejectResidency, none, some active.regionId, epoch, [residency.code], none⟩
    else if !writableStates.contains active.state then
      ⟨.rejectRegionUnavailable, none, some active.regionId, epoch, ["REGION_UNAVAILABLE"], none⟩
    else
      let elsewhere := input.requested.any fun requested => requested.regionId != active.regionId
      ⟨if elsewhere && input.allowQueueForPrimary then .queueForPrimary else .routePrimary,
        some active.regionId, some active.regionId, epoch, ["STRONG_AUTHORITY_ROUTED"], none⟩

def routeRead (input : RoutingInput) (now : Int) : Routing :=
  let activeId := input.active.map (·.regionId)
  match input.candidates.find? (servesRead input) with
  | some candidate =>
    let outcome :=
      if input.requested = some candidate then .routeReadReplica
      else if input.home = some candidate then .routeHomeRegion
      else .routePrimary
    ⟨outcome, some candidate.regionId, activeId, input.authorityEpoch, ["EVENTUAL_READ_ROUTED"],
      some (readFreshness input now candidate "bounded")⟩
  | none =>
    match input.requested with
    | none =>
      ⟨.rejectRegionUnavailable, none, activeId, input.authorityEpoch,
        ["REGION_READ_UNAVAILABLE"], none⟩
    | some requested =>
      let residency := residencyDecision input.toDataPlacement requested
      if input.degradedMode = ascii "read_only" && requested.supportsReadOnlyTraffic &&
          residency.allowed then
        ⟨.degradedReadOnly, some requested.regionId, activeId, input.authorityEpoch,
          ["DEGRADED_READ_ONLY"], some (readFreshness input now requested "stale")⟩
      else if !residency.allowed then
        ⟨.rejectResidency, none, activeId, input.authorityEpoch, [residency.code], none⟩
      else
        ⟨.rejectRegionUnavailable, none, activeId, input.authorityEpoch,
          ["REGION_READ_UNAVAILABLE"], none⟩

def evaluateRegionalRouting (input : RoutingInput) (now : Int) : Checked Routing := do
  assertNoSensitiveData input.sensitive
  throwWhen input.regions.isEmpty
    (validationError "configuration" "An active regional configuration is required.")
  let consistencyClass ← consistencyClassOf input.consistencyClass
  return if consistencyClass = strongAuthority then routeStrong input else routeRead input now

structure AdmissionInput extends DataPlacement where
  /-- `input.authority?.status`. -/
  authorityStatus : Option Text := none
  degradedMode : Text := []
  /-- `input.durablePrimaryStorageAvailable === true`. -/
  durablePrimaryStorageAvailable : Bool := false
  failoverInProgress : Bool := false
  protectedOperation : Bool := false
  targetRegion : Option Region := none
  regionHealthStatus : Text := []
  replicationStatus : Text := []
  regionalBackpressure : Text := []
  workerCapacityAvailable : Option Bool := none

inductive AdmissionDecision where
  | acceptedPrimary
  | acceptedDeferred
  | acceptedDegraded
  | approvalRequired
  | rejectedNoWriteAuthority
  | rejectedFailoverInProgress
  | rejectedResidency
  | rejectedRegionUnavailable
deriving DecidableEq

structure Admission where
  decision : AdmissionDecision
  safeReasonCodes : List String
deriving DecidableEq

namespace AdmissionInput

variable (input : AdmissionInput)

/-- `residencyDecision(input, input.targetRegion || {})`. -/
def residency : ResidencyDecision :=
  residencyDecision input.toDataPlacement
    (input.targetRegion.getD ⟨[], [], false, false, [], [], .ofNat 0⟩)

def authorityActive : Bool := input.authorityStatus == some (ascii "active")

def queueOnly : Bool :=
  input.degradedMode = ascii "queue_only" && input.durablePrimaryStorageAvailable

end AdmissionInput

def evaluateRegionalAdmission (input : AdmissionInput) : Admission :=
  let queued : Admission := ⟨.acceptedDeferred, ["REGION_QUEUE_ONLY_DEGRADED"]⟩
  if !input.authorityActive then
    if input.queueOnly then queued
    else ⟨.rejectedNoWriteAuthority, ["REGION_WRITE_FROZEN"]⟩
  else if input.failoverInProgress && !input.protectedOperation then
    ⟨.rejectedFailoverInProgress, ["REGION_FAILOVER_IN_PROGRESS"]⟩
  else if !input.residency.allowed then
    ⟨.rejectedResidency, [input.residency.code]⟩
  else if (["unavailable", "isolated", "unknown"].map ascii).contains input.regionHealthStatus then
    if input.queueOnly then queued
    else ⟨.rejectedRegionUnavailable, ["REGION_UNAVAILABLE"]⟩
  else if input.replicationStatus = ascii "unknown" && input.failoverInProgress then
    ⟨.approvalRequired, ["REPLICATION_LAG_UNKNOWN"]⟩
  else if input.regionalBackpressure = ascii "shedding" ||
      input.workerCapacityAvailable = some false then
    ⟨.acceptedDeferred, ["REGIONAL_CAPACITY_DEFERRED"]⟩
  else
    let degraded := input.degradedMode ≠ [] && input.degradedMode ≠ ascii "disabled"
    ⟨if degraded then .acceptedDegraded else .acceptedPrimary, ["REGIONAL_ADMISSION_ACCEPTED"]⟩

def Serviceable (region : Region) : Prop :=
  region.enabled = true ∧ region.state ∉ unavailableStates

instance (region : Region) : Decidable (Serviceable region) :=
  inferInstanceAs (Decidable (_ ∧ _))

def Allows (input : DataPlacement) (region : Region) : Prop :=
  (residencyDecision input region).allowed = true

instance (input : DataPlacement) (region : Region) : Decidable (Allows input region) :=
  inferInstanceAs (Decidable (_ = _))

/-- The region that was selected, if any, takes traffic and may hold the data. -/
def Placed (input : RoutingInput) (routing : Routing) : Prop :=
  ∀ id, routing.selectedRegionId = some id → ∃ region, input.region? (some id) = some region ∧
    Serviceable region ∧ Allows input.toDataPlacement region

def AdmissionDecision.Accepts (decision : AdmissionDecision) : Prop :=
  decision = .acceptedPrimary ∨ decision = .acceptedDeferred ∨ decision = .acceptedDegraded

variable {input : RoutingInput}

theorem region?_regionId {id : Option Text} {region : Region} (h : input.region? id = some region) :
    input.region? (some region.regionId) = some region := by
  obtain ⟨text, rfl, hfind⟩ := Option.bind_eq_some_iff.mp h
  have hid : region.regionId = text := by simpa using List.find?_some hfind
  rw [hid]
  exact h

theorem servesRead_spec {candidate : Region} (h : servesRead input candidate = true) :
    Serviceable candidate ∧ Allows input.toDataPlacement candidate := by
  simp only [servesRead, Bool.and_eq_true, Bool.not_eq_true', List.contains_eq_mem,
    decide_eq_false_iff_not] at h
  exact ⟨⟨h.1.1.1.1, h.1.1.2⟩, h.1.2⟩

theorem region?_candidate {candidate : Region} (h : candidate ∈ input.candidates) :
    input.region? (some candidate.regionId) = some candidate := by
  obtain ⟨o, ho, hcandidate⟩ := List.mem_filterMap.mp h
  have hsome : o = some candidate := hcandidate
  subst hsome
  simp only [List.mem_cons, List.not_mem_nil, or_false] at ho
  rcases ho with h | h | h <;> exact region?_regionId h.symm

theorem not_unavailable_of_writable {state : Text} (h : state ∈ writableStates) :
    state ∉ unavailableStates := by
  simp only [writableStates, List.map_cons, List.map_nil, List.mem_cons, List.not_mem_nil,
    or_false] at h
  rcases h with rfl | rfl | rfl | rfl <;> decide

theorem placed_routeStrong :
    Placed input (routeStrong input) ↔
      ∀ active, input.active = some active → input.authorityActive = true →
        Allows input.toDataPlacement active → active.state ∈ writableStates →
          active.enabled = true := by
  unfold routeStrong
  cases hactive : input.active with
  | none => simp [Placed]
  | some active =>
    have hfound : input.region? (some active.regionId) = some active := region?_regionId hactive
    simp only [Option.some.injEq, forall_eq']
    by_cases hauthority : input.authorityActive = true
    · by_cases hallows : Allows input.toDataPlacement active
      · have hresidency : (residencyDecision input.toDataPlacement active).allowed = true := hallows
        by_cases hstate : active.state ∈ writableStates
        · simp only [hauthority, hresidency, hstate, Placed, Bool.not_true, Bool.false_eq_true,
            if_false, List.contains_eq_mem, decide_true, Option.some.injEq, forall_eq', hfound,
            exists_eq_left', hallows, and_true, true_implies, Serviceable]
          exact ⟨fun h => h.1, fun h => ⟨h, not_unavailable_of_writable hstate⟩⟩
        · simp [hauthority, hresidency, hstate, Placed]
      · have hresidency : (residencyDecision input.toDataPlacement active).allowed = false := by
          simpa [Allows] using hallows
        simp [hauthority, hresidency, hallows, Placed]
    · simp [hauthority, Placed]

theorem placed_routeRead (now : Int) :
    Placed input (routeRead input now) ↔
      ∀ requested, input.requested = some requested →
        (∀ candidate ∈ input.candidates, servesRead input candidate = false) →
        input.degradedMode = ascii "read_only" → requested.supportsReadOnlyTraffic = true →
        Allows input.toDataPlacement requested → Serviceable requested := by
  unfold routeRead
  cases hserves : input.candidates.find? (servesRead input) with
  | some candidate =>
    have hmem := List.mem_of_find?_eq_some hserves
    have hcandidate : servesRead input candidate = true := List.find?_some hserves
    have hplaced : ∃ region, input.region? (some candidate.regionId) = some region ∧
        Serviceable region ∧ Allows input.toDataPlacement region :=
      ⟨candidate, region?_candidate hmem, servesRead_spec hcandidate⟩
    constructor
    · intro _ requested _ hnone
      rw [hnone candidate hmem] at hcandidate
      cases hcandidate
    · intro _ id hid
      obtain rfl : candidate.regionId = id := Option.some.inj hid
      exact hplaced
  | none =>
    have hnone : ∀ candidate ∈ input.candidates, servesRead input candidate = false := by
      simpa using hserves
    cases hrequested : input.requested with
    | none => simp [Placed]
    | some requested =>
      have hfound : input.region? (some requested.regionId) = some requested :=
        region?_regionId hrequested
      simp only [Option.some.injEq, forall_eq']
      by_cases hallows : Allows input.toDataPlacement requested
      · have hresidency : (residencyDecision input.toDataPlacement requested).allowed = true :=
          hallows
        by_cases hdegraded : input.degradedMode = ascii "read_only" ∧
            requested.supportsReadOnlyTraffic = true
        · simp only [hdegraded.1, hdegraded.2, hresidency, hallows, Placed, decide_true,
            Bool.and_self, if_true, Option.some.injEq, forall_eq', hfound, exists_eq_left',
            and_true, true_implies]
          exact ⟨fun h _ => h, fun h => h hnone⟩
        · have hplain : (decide (input.degradedMode = ascii "read_only") &&
              requested.supportsReadOnlyTraffic) = false := by
            rw [Bool.and_eq_false_iff, decide_eq_false_iff_not]
            by_cases hmode : input.degradedMode = ascii "read_only"
            · exact Or.inr (Bool.eq_false_iff.mpr fun h => hdegraded ⟨hmode, h⟩)
            · exact Or.inl hmode
          simp only [hplain, hresidency, Bool.false_and, Bool.false_eq_true, if_false,
            Bool.not_true]
          constructor
          · intro _ _ hmode hsupports
            exact absurd ⟨hmode, hsupports⟩ hdegraded
          · intro _ id hid
            cases hid
      · have hresidency : (residencyDecision input.toDataPlacement requested).allowed = false := by
          simpa [Allows] using hallows
        simp [hresidency, hallows, Placed]

theorem evaluateRegionalRouting_ok {now : Int} {routing : Routing} :
    evaluateRegionalRouting input now = .ok routing ↔
      input.sensitive = false ∧ input.regions ≠ [] ∧
        ∃ consistencyClass, consistencyClassOf input.consistencyClass = .ok consistencyClass ∧
          (if consistencyClass = strongAuthority then routeStrong input
            else routeRead input now) = routing := by
  simp only [evaluateRegionalRouting, assertNoSensitiveData, bind_ok, throwWhen_ok, exists_unit,
    pure_ok, List.isEmpty_eq_false_iff]

/-- The branches that look at less than the loop over the candidates do not select a region that is
out of service. -/
structure RoutingGuarded (input : RoutingInput) : Prop where
  write : consistencyClassOf input.consistencyClass = .ok strongAuthority →
    ∀ active, input.active = some active → input.authorityActive = true →
      Allows input.toDataPlacement active → active.state ∈ writableStates → active.enabled = true
  read : ∀ consistencyClass, consistencyClassOf input.consistencyClass = .ok consistencyClass →
    consistencyClass ≠ strongAuthority → ∀ requested, input.requested = some requested →
      (∀ candidate ∈ input.candidates, servesRead input candidate = false) →
      input.degradedMode = ascii "read_only" → requested.supportsReadOnlyTraffic = true →
      Allows input.toDataPlacement requested → Serviceable requested

theorem placed_iff (now : Int) (hsensitive : input.sensitive = false) (hregions : input.regions ≠ []) :
    (∀ routing, evaluateRegionalRouting input now = .ok routing → Placed input routing) ↔
      RoutingGuarded input := by
  constructor
  · intro h
    constructor
    · intro hclass
      have hrouting : evaluateRegionalRouting input now = .ok (routeStrong input) :=
        evaluateRegionalRouting_ok.mpr ⟨hsensitive, hregions, _, hclass, if_pos rfl⟩
      exact placed_routeStrong.mp (h _ hrouting)
    · intro consistencyClass hclass hread
      have hrouting : evaluateRegionalRouting input now = .ok (routeRead input now) :=
        evaluateRegionalRouting_ok.mpr ⟨hsensitive, hregions, _, hclass, if_neg hread⟩
      exact (placed_routeRead now).mp (h _ hrouting)
  · intro h routing hrouting
    obtain ⟨_, _, consistencyClass, hclass, hroute⟩ := evaluateRegionalRouting_ok.mp hrouting
    subst hroute
    by_cases hstrong : consistencyClass = strongAuthority
    · rw [if_pos hstrong]
      exact placed_routeStrong.mpr (h.write (hstrong ▸ hclass))
    · rw [if_neg hstrong]
      exact (placed_routeRead now).mpr (h.read consistencyClass hclass hstrong)

theorem accepts_iff (input : AdmissionInput) :
    ((evaluateRegionalAdmission input).decision.Accepts → input.residency.allowed = true) ↔
      (input.authorityActive = false → input.queueOnly = true →
        input.residency.allowed = true) := by
  cases hallowed : input.residency.allowed with
  | true => simp
  | false =>
    simp only [Bool.false_eq_true, imp_false]
    by_cases hauthority : input.authorityActive = true
    · rw [evaluateRegionalAdmission]
      by_cases hfailover : (input.failoverInProgress && !input.protectedOperation) = true
      · simp [hauthority, hfailover, AdmissionDecision.Accepts]
      · simp [hauthority, hfailover, hallowed, AdmissionDecision.Accepts]
    · rw [evaluateRegionalAdmission]
      by_cases hqueue : input.queueOnly = true
      · simp [hauthority, hqueue, AdmissionDecision.Accepts]
      · simp [hauthority, hqueue, AdmissionDecision.Accepts]

/-- Where the two decisions keep to regions that take traffic and may hold the data. -/
theorem regional_placement_law (input : RoutingInput) (now : Int) (admission : AdmissionInput) :
    ((∀ routing, evaluateRegionalRouting input now = .ok routing → Placed input routing) ↔
      (input.sensitive = false → input.regions ≠ [] → RoutingGuarded input)) ∧
    (((evaluateRegionalAdmission admission).decision.Accepts →
        admission.residency.allowed = true) ↔
      (admission.authorityActive = false → admission.queueOnly = true →
        admission.residency.allowed = true)) := by
  refine ⟨?_, accepts_iff admission⟩
  constructor
  · intro h hsensitive hregions
    exact (placed_iff now hsensitive hregions).mp h
  · intro h routing hrouting
    obtain ⟨hsensitive, hregions, _⟩ := evaluateRegionalRouting_ok.mp hrouting
    exact (placed_iff now hsensitive hregions).mpr (h hsensitive hregions) routing hrouting

def primaryRegion : Region where
  regionId := ascii "primary"
  state := ascii "healthy"
  enabled := false
  supportsReadOnlyTraffic := true
  allowedDataClassifications := [ascii "internal"]

def isolatedRegion : Region where
  regionId := ascii "standby"
  state := ascii "isolated"
  enabled := true
  supportsReadOnlyTraffic := true
  allowedDataClassifications := [ascii "internal"]

def placementRegions : List Region := [primaryRegion, isolatedRegion]

def placementAuthority : RoutingAuthority := ⟨ascii "primary", ascii "active", .ofNat 1⟩

def strongInput : RoutingInput where
  regions := placementRegions
  authority := some placementAuthority

def degradedInput : RoutingInput where
  regions := placementRegions
  consistencyClass := ascii "eventual_projection"
  requestedRegionId := some (ascii "standby")
  authority := some placementAuthority
  degradedMode := ascii "read_only"

def queuedInput : AdmissionInput where
  residencyTags := [ascii "eu"]
  degradedMode := ascii "queue_only"
  durablePrimaryStorageAvailable := true
  targetRegion := some primaryRegion

/-- A write goes to a region that is switched off, a read to one that is isolated, and an operation
is queued for a region that may not hold its data. -/
theorem placement_ignores_guards :
    (∃ routing, evaluateRegionalRouting strongInput 0 = .ok routing ∧
      routing.selectedRegionId = some primaryRegion.regionId ∧ ¬ Serviceable primaryRegion) ∧
    (∃ routing, evaluateRegionalRouting degradedInput 0 = .ok routing ∧
      routing.selectedRegionId = some isolatedRegion.regionId ∧ ¬ Serviceable isolatedRegion) ∧
    (evaluateRegionalAdmission queuedInput).decision.Accepts ∧
      queuedInput.residency.allowed = false := by
  refine ⟨⟨routeStrong strongInput, ?_, by decide, by decide⟩,
    ⟨routeRead degradedInput 0, ?_, by decide, by decide⟩, Or.inr (Or.inl ?_), by decide⟩
  · exact evaluateRegionalRouting_ok.mpr ⟨rfl, by decide, strongAuthority, by decide, if_pos rfl⟩
  · exact evaluateRegionalRouting_ok.mpr
      ⟨rfl, by decide, ascii "eventual_projection", by decide, if_neg (by decide)⟩
  · decide

end GhostBridge.RegionalResilience
