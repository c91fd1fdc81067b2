import GhostBridge.Ecma.Arrays
import GhostBridge.ProductionScale.Routing

/-!
# Evolution of routing

Along accepted configurations a version keeps its counts, so that a workload keeps its partition,
and the active version rises.
-/

namespace GhostBridge.ProductionScale

open Ecma

theorem counts_ext {a b : PartitionCounts} (h : ∀ category ∈ WorkloadCategory.all,
    a category = b category) : a = b :=
  funext fun category => h category (WorkloadCategory.mem_all category)

theorem countsDiffer_eq_false {a b : PartitionCounts} : countsDiffer a b = false ↔ a = b := by
  unfold countsDiffer
  constructor
  · intro h
    apply counts_ext
    intro category hmem
    simpa using List.any_eq_false.mp h category hmem
  · rintro rfl
    simp

section Active

variable {c : ScaleConfiguration} {route : RoutingVersion}

theorem activeRoutingVersion_spec (c : ScaleConfiguration) :
    activeRoutingVersion c ∈ c.routingVersions ∧ (activeRoutingVersion c).isActive = true := by
  obtain ⟨route, hroute⟩ := List.length_eq_one_iff.mp c.wellFormed.oneActive
  have hfind : c.routingVersions.find? RoutingVersion.isActive = some route := by
    rw [← List.head?_filter, hroute]
    rfl
  have hactive : activeRoutingVersion c = route := by
    unfold activeRoutingVersion
    rw [hfind]
    rfl
  rw [hactive]
  exact ⟨List.mem_of_find?_eq_some hfind, List.find?_some hfind⟩

theorem eq_activeRoutingVersion (hroute : route ∈ c.routingVersions)
    (hactive : route.isActive = true) : route = activeRoutingVersion c := by
  obtain ⟨only, honly⟩ := List.length_eq_one_iff.mp c.wellFormed.oneActive
  have hspec := activeRoutingVersion_spec c
  have hmem {r : RoutingVersion} (hr : r ∈ c.routingVersions) (ha : r.isActive = true) :
      r = only := by
    have hfilter : r ∈ c.routingVersions.filter RoutingVersion.isActive :=
      List.mem_filter.mpr ⟨hr, ha⟩
    rw [honly] at hfilter
    exact List.mem_singleton.mp hfilter
  exact (hmem hroute hactive).trans (hmem hspec.1 hspec.2).symm

theorem counts_activeRoutingVersion (c : ScaleConfiguration) :
    (activeRoutingVersion c).partitionCountByCategory = c.partitionCountByCategory :=
  have hspec := activeRoutingVersion_spec c
  counts_ext (c.wellFormed.activeCounts _ hspec.1 hspec.2)

theorem findVersion_of_mem (hroute : route ∈ c.routingVersions) :
    findVersion c route.version = some route :=
  find?_key_of_mem c.wellFormed.unique hroute

theorem route_ext {r : RoutingVersion} (hroute : route ∈ c.routingVersions)
    (hr : r ∈ c.routingVersions) (h : r.version = route.version) : r = route := by
  have hfind := findVersion_of_mem hr
  rw [h, findVersion_of_mem hroute] at hfind
  exact (Option.some.inj hfind).symm

end Active

/-- The candidate has all versions of the previous configuration with their counts, and its active
version is no older. -/
structure Evolves (previous candidate : ScaleConfiguration) : Prop where
  retained : ∀ route ∈ previous.routingVersions, ∃ current ∈ candidate.routingVersions,
    current.version = route.version ∧
      current.partitionCountByCategory = route.partitionCountByCategory
  rising : (activeRoutingVersion previous).version.val ≤ (activeRoutingVersion candidate).version.val

theorem Evolves.refl (c : ScaleConfiguration) : Evolves c c where
  retained := fun route hroute => ⟨route, hroute, rfl, rfl⟩
  rising := Nat.le_refl _

theorem Evolves.trans {a b c : ScaleConfiguration} (hab : Evolves a b) (hbc : Evolves b c) :
    Evolves a c := by
  constructor
  · intro route hroute
    obtain ⟨current, hcurrent, hversion, hcounts⟩ := hab.retained route hroute
    obtain ⟨latest, hlatest, hversion', hcounts'⟩ := hbc.retained current hcurrent
    exact ⟨latest, hlatest, hversion'.trans hversion, hcounts'.trans hcounts⟩
  · exact hab.rising.trans hbc.rising

instance Evolves.isTrans : IsTrans ScaleConfiguration Evolves := ⟨fun _ _ _ => Evolves.trans⟩

variable {previous candidate : ScaleConfiguration}

theorem checkRetained_ok {route : RoutingVersion} :
    checkRetained candidate route = .ok () ↔ ∃ current ∈ candidate.routingVersions,
      current.version = route.version ∧
        current.partitionCountByCategory = route.partitionCountByCategory := by
  unfold checkRetained
  cases hfind : findVersion candidate route.version with
  | none =>
    constructor
    · intro h
      cases h
    · rintro ⟨current, hcurrent, hversion, -⟩
      rw [← hversion, findVersion_of_mem hcurrent] at hfind
      cases hfind
  | some current =>
    have hfound := find?_key_some hfind
    simp only [throwWhen_ok, countsDiffer_eq_false]
    constructor
    · intro hcounts
      exact ⟨current, hfound.1, hfound.2, hcounts⟩
    · rintro ⟨other, hother, hversion, hcounts⟩
      have hsame : other = current :=
        route_ext hfound.1 hother (hversion.trans hfound.2.symm)
      rw [← hsame]
      exact hcounts

theorem checkActive_ok
    (hretained : ∀ route ∈ previous.routingVersions, ∃ current ∈ candidate.routingVersions,
      current.version = route.version ∧
        current.partitionCountByCategory = route.partitionCountByCategory) :
    checkActive candidate previous = .ok () ↔
      (activeRoutingVersion previous).version.val ≤
        (activeRoutingVersion candidate).version.val := by
  have hprevious := activeRoutingVersion_spec previous
  have hcandidate := activeRoutingVersion_spec candidate
  obtain ⟨kept, hkept, hkeptVersion, hkeptCounts⟩ := hretained _ hprevious.1
  unfold checkActive
  by_cases hsame : (activeRoutingVersion candidate).version =
      (activeRoutingVersion previous).version
  · -- The counts of the configuration are those of the active version, which is retained.
    have hactive : kept = activeRoutingVersion candidate :=
      route_ext hcandidate.1 hkept (hkeptVersion.trans hsame.symm)
    have hcounts : candidate.partitionCountByCategory = previous.partitionCountByCategory := by
      rw [← counts_activeRoutingVersion candidate, ← counts_activeRoutingVersion previous, ← hactive]
      exact hkeptCounts
    have hunchanged : countsDiffer candidate.partitionCountByCategory
        previous.partitionCountByCategory = false := countsDiffer_eq_false.mpr hcounts
    simp [hsame, hunchanged]
  · have hfind : findVersion candidate (activeRoutingVersion previous).version = some kept := by
      rw [← hkeptVersion]
      exact findVersion_of_mem hkept
    have hretiring : kept.isActive = false := by
      by_contra hactive
      have := eq_activeRoutingVersion hkept (Bool.not_eq_false _ ▸ hactive)
      exact hsame (this ▸ hkeptVersion)
    have hvalues : (activeRoutingVersion candidate).version.val ≠
        (activeRoutingVersion previous).version.val := fun h => hsame (Subtype.ext h)
    simp only [checkRetiring, hfind, hretiring, beq_eq_false_iff_ne.mpr hsame, Bool.and_false,
      bind_ok, throwWhen_ok, exists_unit, decide_eq_false_iff_not, true_and, and_true,
      Bool.false_eq_true, if_false]
    omega

theorem assertRoutingEvolution_ok {candidateInput previousInput : ScaleInput} :
    assertRoutingEvolution candidateInput (some previousInput) = .ok () ↔
      ∃ candidate previous, normalizeScaleConfiguration candidateInput = .ok candidate ∧
        normalizeScaleConfiguration previousInput = .ok previous ∧ Evolves previous candidate := by
  unfold assertRoutingEvolution
  simp only [bind_ok, exists_unit]
  constructor
  · rintro ⟨candidate, hcandidate, previous, hprevious, hretained, hactive⟩
    have hkept := fun route hroute => checkRetained_ok.mp (forM_ok.mp hretained route hroute)
    exact ⟨candidate, previous, hcandidate, hprevious, hkept, (checkActive_ok hkept).mp hactive⟩
  · rintro ⟨candidate, previous, hcandidate, hprevious, hevolves⟩
    refine ⟨candidate, hcandidate, previous, hprevious, ?_, ?_⟩
    · exact forM_ok.mpr fun route hroute => checkRetained_ok.mpr (hevolves.retained route hroute)
    · exact (checkActive_ok hevolves.retained).mpr hevolves.rising

theorem boundedInteger_self {minimum maximum : ℕ} (n : Bounded minimum maximum) (path : String)
    (fallback : Option ℕ) :
    boundedInteger (some (some (n.val : Int))) path minimum maximum fallback = .ok n := by
  have hbounds : minimum ≤ (n.val : Int).toNat ∧ (n.val : Int).toNat ≤ maximum ∧
      (0 : Int) ≤ (n.val : Int) := ⟨n.property.1, n.property.2, Int.natCast_nonneg _⟩
  unfold boundedInteger
  simp only
  rw [dif_pos hbounds]
  rfl

theorem normalizeCategoryMap_self (counts : PartitionCounts) (field : String)
    (fallback : PartitionCounts) :
    normalizeCategoryMap (ScaleConfiguration.toInput.countsInput counts) field fallback =
      .ok counts := by
  have hselector (category : WorkloadCategory) : normalizeCategoryMap.selector
      (ScaleConfiguration.toInput.countsInput counts) field fallback category =
        .ok (counts category) := boundedInteger_self _ _ _
  unfold normalizeCategoryMap
  have hloop : (WorkloadCategory.all.forM fun category => discard (normalizeCategoryMap.selector
      (ScaleConfiguration.toInput.countsInput counts) field fallback category)) = .ok () := by
    apply forM_ok.mpr
    intro category hcategory
    rw [hselector]
    rfl
  rw [hloop, ok_bind]
  simp only [hselector]
  rfl

theorem enumValue_status (status : RoutingStatus) (path : String) :
    enumValue routingStatuses (.string (ascii status.name)) path (ascii "draining") =
      .ok status := by
  have hlookup : routingStatuses.lookup (ascii status.name).trimmed = some status := by
    cases status <;> decide
  have htext : (Value.string (ascii status.name)).orElse (.string (ascii "draining")) =
      .string (ascii status.name) := by
    cases status <;> decide
  unfold enumValue
  rw [htext]
  simp only [Value.toText?, orThrow, ok_bind, hlookup]

def RoutingVersion.toInput (route : RoutingVersion) : RouteInput where
  version := some (some route.version.val)
  status := .string (ascii route.status.name)
  partitionCountByCategory := some
    (ScaleConfiguration.toInput.countsInput route.partitionCountByCategory)

theorem normalizeRoutes_self (counts : PartitionCounts) (routes : List RoutingVersion) (index : ℕ)
    (seenVersions : List RoutingVersionNumber) (hunique : (routes.map RoutingVersion.version).Nodup)
    (hfresh : ∀ route ∈ routes, route.version ∉ seenVersions) :
    normalizeRoutes counts index (routes.map RoutingVersion.toInput) seenVersions = .ok routes := by
  induction routes generalizing index seenVersions with
  | nil => rfl
  | cons route routes ih =>
    rw [List.map_cons, List.nodup_cons] at hunique
    have hnew : seenVersions.contains route.version = false := by
      simpa using hfresh route (List.mem_cons_self ..)
    have hroute : normalizeRoute counts index route.toInput seenVersions = .ok route := by
      have hversion : boundedInteger route.toInput.version (routePath index "version") 1 1000 none =
          .ok route.version := boundedInteger_self _ _ _
      have hstatus : enumValue routingStatuses route.toInput.status (routePath index "status")
          (ascii "draining") = .ok route.status := enumValue_status _ _
      have hcounts : normalizeCategoryMap (submittedCounts route.toInput route.status counts)
          (routePath index "partitionCountByCategory") counts =
            .ok route.partitionCountByCategory := normalizeCategoryMap_self _ _ _
      unfold normalizeRoute
      rw [hversion, ok_bind, hnew]
      simp only [throwWhen, Bool.false_eq_true, if_false, ok_bind, hstatus, hcounts]
    have hrest := ih (index + 1) (route.version :: seenVersions) hunique.2 (by
      intro other hother hseen
      rcases List.mem_cons.mp hseen with hsame | hseen
      · exact hunique.1 (hsame ▸ List.mem_map_of_mem hother)
      · exact hfresh other (List.mem_cons_of_mem _ hother) hseen)
    rw [List.map_cons, normalizeRoutes, hroute, ok_bind, hrest]
    rfl

theorem normalizeScaleConfiguration_toInput (c : ScaleConfiguration) :
    normalizeScaleConfiguration c.toInput = .ok c := by
  have htop : normalizeCategoryMap c.toInput.partitionCountByCategory "partitionCountByCategory"
      defaultPartitionCounts = .ok c.partitionCountByCategory := normalizeCategoryMap_self _ _ _
  have hroutes : normalizeRoutes c.partitionCountByCategory 0
      (c.toInput.routingVersions.getD defaultRoutes) [] = .ok c.routingVersions :=
    normalizeRoutes_self _ _ _ _ c.wellFormed.unique fun _ _ hseen => List.not_mem_nil hseen
  have hlength : (c.toInput.routingVersions.getD defaultRoutes).length =
      c.routingVersions.length := List.length_map _
  have hcount : ((c.toInput.routingVersions.getD defaultRoutes).isEmpty ||
      decide (maximumRoutingVersions < (c.toInput.routingVersions.getD defaultRoutes).length)) =
        false := by
    have hbounded := c.wellFormed.bounded
    have hpositive := List.length_pos_iff.mpr c.wellFormed.inhabited
    rw [Bool.or_eq_false_iff, List.isEmpty_eq_false_iff, decide_eq_false_iff_not]
    constructor
    · exact List.ne_nil_of_length_pos (hlength ▸ hpositive)
    · omega
  have hchecked : checkRoutes c.routingVersions c.partitionCountByCategory = .ok c := by
    unfold checkRoutes
    rw [dif_pos c.wellFormed]
  unfold normalizeScaleConfiguration
  have hsensitive : c.toInput.sensitive = .ok () := rfl
  have hothers : c.toInput.others = .ok () := rfl
  rw [hsensitive, ok_bind, htop, ok_bind]
  simp only [hcount, throwWhen, Bool.false_eq_true, if_false, ok_bind, hroutes, hchecked, hothers]

theorem assertRoutingEvolution_toInput :
    assertRoutingEvolution candidate.toInput (some previous.toInput) = .ok () ↔
      Evolves previous candidate := by
  rw [assertRoutingEvolution_ok]
  simp only [normalizeScaleConfiguration_toInput, Except.ok.injEq]
  constructor
  · rintro ⟨_, _, rfl, rfl, hevolves⟩
    exact hevolves
  · intro hevolves
    exact ⟨_, _, rfl, rfl, hevolves⟩

def routeBy (input : WorkloadInput) (version : ℕ) (counts : PartitionCounts) :
    Except ScaleFailure RoutedWorkload := do
  let category ← enumValue workloadCategories input.workloadCategory "workloadCategory" []
  let hashed ← routingInput input category version
  let partitionNumber := stableHashInteger hashed % (counts category).val
  .ok {
    workloadCategory := category
    routingVersion := version
    partitionCount := (counts category).val
    partitionNumber := partitionNumber
    partitionKey := partitionKey category version partitionNumber
    workerPool := category.workerPool }

def Available (c : ScaleConfiguration) (version : RoutingVersionNumber) : Prop :=
  ∃ route ∈ c.routingVersions, route.version = version ∧ route.status ≠ .retired

theorem requestedRoute_of_mem {c : ScaleConfiguration} {route : RoutingVersion}
    (hroute : route ∈ c.routingVersions) :
    requestedRoute c (some (some (route.version.val : Int))) = some route := by
  have hsame : (fun r : RoutingVersion =>
      (some (route.version.val : Int) : Numeral) == some (r.version.val : Int)) =
        fun r => r.version == route.version := by
    funext r
    rw [Bool.eq_iff_iff, beq_iff_eq, beq_iff_eq, Option.some.injEq, Int.natCast_inj,
      Subtype.ext_iff]
    exact eq_comm
  change c.routingVersions.find? (fun r : RoutingVersion =>
    (some (route.version.val : Int) : Numeral) == some (r.version.val : Int)) = some route
  rw [hsame]
  exact find?_key_of_mem c.wellFormed.unique hroute

theorem routeWorkload_of_mem {c : ScaleConfiguration} {route : RoutingVersion}
    (hroute : route ∈ c.routingVersions) (havailable : route.status ≠ .retired)
    {input : WorkloadInput} (hinput : input.routingVersion = some (some (route.version.val : Int))) :
    routeWorkload input c = routeBy input route.version.val route.partitionCountByCategory := by
  have hrequested : (requestedRoute c input.routingVersion).filter
      (fun route => route.status != .retired) = some route := by
    rw [hinput, requestedRoute_of_mem hroute]
    simp [Option.filter, havailable]
  unfold routeWorkload routeBy
  rw [hrequested]
  rfl

theorem routeWorkload_stable (hevolves : Evolves previous candidate)
    {version : RoutingVersionNumber} (hprevious : Available previous version)
    (hcandidate : Available candidate version) {input : WorkloadInput}
    (hinput : input.routingVersion = some (some (version.val : Int))) :
    routeWorkload input previous = routeWorkload input candidate := by
  obtain ⟨route, hroute, rfl, havailable⟩ := hprevious
  obtain ⟨current, hcurrent, hversion, havailable'⟩ := hcandidate
  obtain ⟨kept, hkept, hkeptVersion, hcounts⟩ := hevolves.retained route hroute
  obtain rfl : kept = current := route_ext hcurrent hkept (hkeptVersion.trans hversion.symm)
  rw [routeWorkload_of_mem hroute havailable hinput,
    routeWorkload_of_mem hkept havailable' (hversion ▸ hinput), hversion, hcounts]

theorem requestedRoute_mem {c : ScaleConfiguration} {requested : Option Numeral}
    {route : RoutingVersion} (h : requestedRoute c requested = some route) :
    route ∈ c.routingVersions := by
  cases requested with
  | none =>
    obtain rfl := Option.some.inj h
    exact (activeRoutingVersion_spec c).1
  | some number => exact List.mem_of_find?_eq_some h

theorem routeWorkload_bounded {c : ScaleConfiguration} {input : WorkloadInput}
    {routed : RoutedWorkload} (h : routeWorkload input c = .ok routed) :
    ∃ route ∈ c.routingVersions, route.version.val = routed.routingVersion ∧
      routed.partitionNumber < (route.partitionCountByCategory routed.workloadCategory).val := by
  unfold routeWorkload at h
  simp only [bind_ok, orThrow_ok, Option.filter_eq_some_iff, Except.ok.injEq] at h
  obtain ⟨category, -, route, ⟨hroute, -⟩, hashed, -, rfl⟩ := h
  refine ⟨route, requestedRoute_mem hroute, rfl, ?_⟩
  apply Nat.mod_lt
  exact (route.partitionCountByCategory category).property.1

def HasRetired (c : ScaleConfiguration) : Prop :=
  ∃ route ∈ c.routingVersions, route.status = .retired

def Progresses (c : ScaleConfiguration) : Prop :=
  ∃ input next, assertRoutingEvolution input (some c.toInput) = .ok () ∧
    normalizeScaleConfiguration input = .ok next ∧
      (activeRoutingVersion next).version ≠ (activeRoutingVersion c).version

/-- There is room for one more version, or a version that was not reached yet. -/
def Roomy (c : ScaleConfiguration) : Prop :=
  c.routingVersions.length < maximumRoutingVersions ∨
    ∃ route ∈ c.routingVersions, (activeRoutingVersion c).version.val < route.version.val

theorem progresses_iff {c : ScaleConfiguration} :
    Progresses c ↔ ∃ next, Evolves c next ∧
      (activeRoutingVersion next).version ≠ (activeRoutingVersion c).version := by
  constructor
  · rintro ⟨input, next, haccepted, hnext, hnew⟩
    obtain ⟨candidate, previous, hcandidate, hprevious, hevolves⟩ :=
      assertRoutingEvolution_ok.mp haccepted
    obtain rfl := Except.ok.inj (hcandidate.symm.trans hnext)
    obtain rfl := Except.ok.inj (hprevious.symm.trans (normalizeScaleConfiguration_toInput c))
    exact ⟨candidate, hevolves, hnew⟩
  · rintro ⟨next, hevolves, hnew⟩
    exact ⟨next.toInput, next, assertRoutingEvolution_toInput.mpr hevolves,
      normalizeScaleConfiguration_toInput next, hnew⟩

def promote (version : RoutingVersionNumber) (route : RoutingVersion) : RoutingVersion :=
  { route with status :=
      if route.version = version then .active
      else if route.status = .active then .draining
      else route.status }

theorem promote_isActive (version : RoutingVersionNumber) (route : RoutingVersion) :
    (promote version route).isActive = (route.version == version) := by
  by_cases hversion : route.version = version
  · have hstatus : (promote version route).status = .active := if_pos hversion
    rw [RoutingVersion.isActive, hstatus, beq_iff_eq.mpr hversion]
    rfl
  · rw [beq_eq_false_iff_ne.mpr hversion, RoutingVersion.isActive, promote, if_neg hversion]
    by_cases hactive : route.status = .active
    · rw [if_pos hactive]
      rfl
    · rw [if_neg hactive]
      exact beq_eq_false_iff_ne.mpr hactive

theorem wellFormed_promote {routes : List RoutingVersion} {route : RoutingVersion}
    (hunique : (routes.map RoutingVersion.version).Nodup) (hroute : route ∈ routes)
    (hbounded : routes.length ≤ maximumRoutingVersions) :
    WellFormed (routes.map (promote route.version)) route.partitionCountByCategory := by
  have hversions : (routes.map (promote route.version)).map RoutingVersion.version =
      routes.map RoutingVersion.version := by
    rw [List.map_map]
    rfl
  constructor
  · intro hempty
    rw [List.map_eq_nil_iff] at hempty
    rw [hempty] at hroute
    cases hroute
  · rw [List.length_map]
    exact hbounded
  · rw [hversions]
    exact hunique
  · -- The active routes are those of the promoted version, which is there once.
    have hcount : (routes.map RoutingVersion.version).count route.version = 1 :=
      List.count_eq_one_of_mem hunique (List.mem_map_of_mem hroute)
    rw [← List.countP_eq_length_filter, List.countP_map, ← hcount, List.count, List.countP_map]
    congr 1
    funext r
    exact promote_isActive route.version r
  · intro promoted hpromoted hactive category _
    obtain ⟨r, hr, rfl⟩ := List.mem_map.mp hpromoted
    rw [promote_isActive, beq_iff_eq] at hactive
    have hfind := find?_key_of_mem hunique hr
    rw [hactive, find?_key_of_mem hunique hroute] at hfind
    obtain rfl := Option.some.inj hfind
    rfl

theorem exists_promoted {c : ScaleConfiguration} {routes : List RoutingVersion}
    {route : RoutingVersion} (hkept : ∀ r ∈ c.routingVersions, r ∈ routes)
    (hunique : (routes.map RoutingVersion.version).Nodup) (hroute : route ∈ routes)
    (hbounded : routes.length ≤ maximumRoutingVersions)
    (hlater : (activeRoutingVersion c).version.val < route.version.val) :
    ∃ next, Evolves c next ∧
      (activeRoutingVersion next).version ≠ (activeRoutingVersion c).version := by
  let next : ScaleConfiguration :=
    ⟨routes.map (promote route.version), route.partitionCountByCategory,
      wellFormed_promote hunique hroute hbounded⟩
  have hpromoted : promote route.version route ∈ next.routingVersions := List.mem_map_of_mem hroute
  have hactive : promote route.version route = activeRoutingVersion next := by
    apply eq_activeRoutingVersion hpromoted
    rw [promote_isActive]
    exact beq_self_eq_true _
  have hversion : (activeRoutingVersion next).version = route.version := by
    rw [← hactive]
    rfl
  refine ⟨next, ⟨?_, ?_⟩, ?_⟩
  · intro r hr
    exact ⟨promote route.version r, List.mem_map_of_mem (hkept r hr), rfl, rfl⟩
  · rw [hversion]
    exact hlater.le
  · rw [hversion]
    intro hsame
    exact hlater.ne (congrArg Subtype.val hsame.symm)

theorem progresses_iff_roomy {c : ScaleConfiguration}
    (hactive : (activeRoutingVersion c).version.val < 1000) : Progresses c ↔ Roomy c := by
  rw [progresses_iff]
  constructor
  · rintro ⟨next, hevolves, hnew⟩
    by_contra hfull
    rw [Roomy, not_or, not_lt] at hfull
    obtain ⟨hlength, holder⟩ := hfull
    have hsubset : c.routingVersions.map RoutingVersion.version ⊆
        next.routingVersions.map RoutingVersion.version := by
      intro version hversion
      obtain ⟨route, hroute, rfl⟩ := List.mem_map.mp hversion
      obtain ⟨current, hcurrent, hsame, -⟩ := hevolves.retained route hroute
      exact hsame ▸ List.mem_map_of_mem hcurrent
    have hlengths : (next.routingVersions.map RoutingVersion.version).length ≤
        (c.routingVersions.map RoutingVersion.version).length := by
      rw [List.length_map, List.length_map]
      exact next.wellFormed.bounded.trans hlength
    have hsame := (c.wellFormed.unique.subperm hsubset).perm_of_length_le hlengths
    have hmem : (activeRoutingVersion next).version ∈
        c.routingVersions.map RoutingVersion.version :=
      hsame.mem_iff.mpr (List.mem_map_of_mem (activeRoutingVersion_spec next).1)
    obtain ⟨route, hroute, hversion⟩ := List.mem_map.mp hmem
    apply holder
    refine ⟨route, hroute, ?_⟩
    rw [hversion]
    exact lt_of_le_of_ne hevolves.rising fun h => hnew (Subtype.ext h.symm)
  · intro hroomy
    by_cases hlater : ∃ route ∈ c.routingVersions,
        (activeRoutingVersion c).version.val < route.version.val
    · obtain ⟨route, hroute, hlater⟩ := hlater
      exact exists_promoted (fun r hr => hr) c.wellFormed.unique hroute c.wellFormed.bounded hlater
    · -- No version is above the active one: the next number is new.
      have hlength := hroomy.resolve_right hlater
      let route : RoutingVersion :=
        ⟨⟨(activeRoutingVersion c).version.val + 1, by omega, by omega⟩, .draining,
          c.partitionCountByCategory⟩
      have hfresh : route.version ∉ c.routingVersions.map RoutingVersion.version := by
        intro hmem
        obtain ⟨r, hr, hversion⟩ := List.mem_map.mp hmem
        apply hlater
        refine ⟨r, hr, ?_⟩
        rw [hversion]
        exact Nat.lt_succ_self _
      have hunique : ((c.routingVersions ++ [route]).map RoutingVersion.version).Nodup := by
        rw [List.map_append, List.nodup_append]
        refine ⟨c.wellFormed.unique, List.nodup_singleton _, ?_⟩
        intro version hversion other hother heq
        rw [List.map_singleton, List.mem_singleton] at hother
        exact hfresh (hother ▸ heq ▸ hversion)
      have hkept : ∀ r ∈ c.routingVersions, r ∈ c.routingVersions ++ [route] :=
        fun r hr => List.mem_append_left _ hr
      have hroute : route ∈ c.routingVersions ++ [route] :=
        List.mem_append_right _ (List.mem_singleton_self _)
      have hbounded : (c.routingVersions ++ [route]).length ≤ maximumRoutingVersions := by
        rw [List.length_append]
        exact hlength
      exact exists_promoted hkept hunique hroute hbounded (Nat.lt_succ_self _)

structure EvolvesWell (forms : List ScaleConfiguration) : Prop where
  /-- A workload with an explicit version gets the same partition wherever it is available. -/
  stable : ∀ form ∈ forms, ∀ form' ∈ forms, ∀ version, Available form version →
    Available form' version → ∀ input : WorkloadInput,
      input.routingVersion = some (some (version.val : Int)) →
        routeWorkload input form = routeWorkload input form'
  rising : forms.Pairwise fun form form' =>
    (activeRoutingVersion form).version.val ≤ (activeRoutingVersion form').version.val
  bounded : ∀ form ∈ forms, ∀ input routed, routeWorkload input form = .ok routed →
    ∃ route ∈ form.routingVersions, route.version.val = routed.routingVersion ∧
      routed.partitionNumber < (route.partitionCountByCategory routed.workloadCategory).val
  progresses : ∀ form ∈ forms, HasRetired form →
    (activeRoutingVersion form).version.val < 1000 → Progresses form

theorem evolves_of_accepted {inputs : List ScaleInput} {forms : List ScaleConfiguration}
    (hforms : List.Forall₂ (fun input form => normalizeScaleConfiguration input = .ok form)
      inputs forms)
    (haccepted : inputs.IsChain fun previous candidate =>
      assertRoutingEvolution candidate (some previous) = .ok ()) :
    forms.Pairwise Evolves := by
  rw [← List.isChain_iff_pairwise]
  induction hforms with
  | nil => exact .nil
  | @cons input form inputs forms hform hrest ih =>
    cases hrest with
    | nil => exact .singleton _
    | @cons input' form' inputs' forms' hform' hrest' =>
      rw [List.isChain_cons_cons] at haccepted ⊢
      refine ⟨?_, ih haccepted.2⟩
      obtain ⟨candidate, previous, hcandidate, hprevious, hevolves⟩ :=
        assertRoutingEvolution_ok.mp haccepted.1
      obtain rfl := Except.ok.inj (hcandidate.symm.trans hform')
      obtain rfl := Except.ok.inj (hprevious.symm.trans hform)
      exact hevolves

/-- Accepted configurations evolve well, if and only if those that hold a retired version have
room for another one. -/
theorem routing_evolution_iff {inputs : List ScaleInput} {forms : List ScaleConfiguration}
    (hforms : List.Forall₂ (fun input form => normalizeScaleConfiguration input = .ok form)
      inputs forms)
    (haccepted : inputs.IsChain fun previous candidate =>
      assertRoutingEvolution candidate (some previous) = .ok ()) :
    EvolvesWell forms ↔ ∀ form ∈ forms, HasRetired form →
      (activeRoutingVersion form).version.val < 1000 → Roomy form := by
  have hevolves := evolves_of_accepted hforms haccepted
  constructor
  · intro h form hform hretired hactive
    exact (progresses_iff_roomy hactive).mp (h.progresses form hform hretired hactive)
  · intro hroomy
    constructor
    · intro form hform form' hform' version havailable havailable' input hinput
      have heither : forms.Pairwise fun a b => Evolves a b ∨ Evolves b a :=
        hevolves.imp Or.inl
      have hself : ∀ c ∈ forms, Evolves c c ∨ Evolves c c := fun c _ => .inl (Evolves.refl c)
      have hback : forms.Pairwise (flip fun a b => Evolves a b ∨ Evolves b a) :=
        hevolves.imp Or.inr
      rcases heither.forall_of_forall_of_flip hself hback hform hform' with h | h
      · exact routeWorkload_stable h havailable havailable' hinput
      · exact (routeWorkload_stable h havailable' havailable hinput).symm
    · exact hevolves.imp Evolves.rising
    · intro form _ input routed hrouted
      exact routeWorkload_bounded hrouted
    · intro form hform hretired hactive
      exact (progresses_iff_roomy hactive).mpr (hroomy form hform hretired hactive)

private def stageRoutes (stage : Fin 8) : List RoutingVersion :=
  ((List.finRange 8).filter (· ≤ stage)).map fun k =>
    ⟨⟨k.val + 1, by omega, by omega⟩, if k = stage then .active else .retired,
      defaultPartitionCounts⟩

private theorem stageRoutes_wellFormed :
    ∀ stage : Fin 8, WellFormed (stageRoutes stage) defaultPartitionCounts := by
  decide

private def stage (k : Fin 8) : ScaleConfiguration :=
  ⟨stageRoutes k, defaultPartitionCounts, stageRoutes_wellFormed k⟩

private theorem stage_accepted : ∀ k : Fin 7,
    assertRoutingEvolution (stage k.succ).toInput (some (stage k.castSucc).toInput) = .ok () := by
  decide +kernel

private def stages : List ScaleConfiguration := (List.finRange 8).map stage

private theorem stages_normalized :
    List.Forall₂ (fun input form => normalizeScaleConfiguration input = .ok form)
      (stages.map ScaleConfiguration.toInput) stages := by
  rw [List.forall₂_map_left_iff]
  exact List.forall₂_same.mpr fun c _ => normalizeScaleConfiguration_toInput c

private theorem stages_accepted :
    (stages.map ScaleConfiguration.toInput).IsChain fun previous candidate =>
      assertRoutingEvolution candidate (some previous) = .ok () := by
  have hstages : stages = List.ofFn stage := by
    rw [List.ofFn_eq_map]
    rfl
  rw [hstages, List.map_ofFn, List.isChain_iff_getElem]
  intro k hk
  rw [List.length_ofFn] at hk
  rw [List.getElem_ofFn, List.getElem_ofFn]
  exact stage_accepted ⟨k, by omega⟩

theorem routing_evolution_iff_stages : EvolvesWell stages ↔ ∀ form ∈ stages, HasRetired form →
    (activeRoutingVersion form).version.val < 1000 → Roomy form :=
  routing_evolution_iff stages_normalized stages_accepted

/-- After seven changes no version is left for an eighth, though seven are retired. -/
theorem routing_evolution_stuck :
    ¬∀ (inputs : List ScaleInput) (forms : List ScaleConfiguration),
      List.Forall₂ (fun input form => normalizeScaleConfiguration input = .ok form) inputs forms →
        (inputs.IsChain fun previous candidate =>
          assertRoutingEvolution candidate (some previous) = .ok ()) → EvolvesWell forms := by
  intro h
  have hwell := h _ _ stages_normalized stages_accepted
  have hlast : stage 7 ∈ stages := List.mem_map_of_mem (List.mem_finRange 7)
  have hretired : HasRetired (stage 7) := by
    refine ⟨⟨⟨1, by decide⟩, .retired, defaultPartitionCounts⟩, ?_, rfl⟩
    exact List.mem_map.mpr ⟨0, by decide, rfl⟩
  have hactive : (activeRoutingVersion (stage 7)).version.val < 1000 := by decide
  have hroomy := (progresses_iff_roomy hactive).mp (hwell.progresses _ hlast hretired hactive)
  rcases hroomy with hroom | ⟨route, hroute, hlater⟩
  · exact absurd hroom (by decide)
  · have hnone : ∀ route ∈ (stage 7).routingVersions,
        ¬(activeRoutingVersion (stage 7)).version.val < route.version.val := by decide
    exact hnone route hroute hlater

end GhostBridge.ProductionScale
