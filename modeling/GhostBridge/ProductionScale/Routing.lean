import GhostBridge.Ecma.Sha256
import GhostBridge.Ecma.Utf8
import GhostBridge.ProductionScale.Admission

/-!
# Routing of workloads to partitions

A scale configuration holds the routing versions of its scope, each with the number of partitions of
every workload category.
-/

namespace GhostBridge.ProductionScale

open Ecma

/-- `WORKLOAD_CATEGORIES`. -/
inductive WorkloadCategory where
  | orchestrationNode
  | orchestrationRetry
  | orchestrationRecovery
  | orchestrationCompensation
  | interventionExpiry
  | approvalResume
  | checkpoint
  | timelineProjection
  | traceProjection
  | sloEvaluation
  | alertEvaluation
  | retentionCleanup
deriving DecidableEq

inductive WorkerPool where
  | execution
  | recovery
  | controlPlane
  | evaluation
  | maintenance
deriving DecidableEq

namespace WorkloadCategory

def all : List WorkloadCategory :=
  [orchestrationNode, orchestrationRetry, orchestrationRecovery, orchestrationCompensation,
    interventionExpiry, approvalResume, checkpoint, timelineProjection, traceProjection,
    sloEvaluation, alertEvaluation, retentionCleanup]

theorem mem_all (category : WorkloadCategory) : category ∈ all := by
  cases category <;> decide

def name : WorkloadCategory → String
  | orchestrationNode => "orchestration_node"
  | orchestrationRetry => "orchestration_retry"
  | orchestrationRecovery => "orchestration_recovery"
  | orchestrationCompensation => "orchestration_compensation"
  | interventionExpiry => "intervention_expiry"
  | approvalResume => "approval_resume"
  | checkpoint => "checkpoint"
  | timelineProjection => "timeline_projection"
  | traceProjection => "trace_projection"
  | sloEvaluation => "slo_evaluation"
  | alertEvaluation => "alert_evaluation"
  | retentionCleanup => "retention_cleanup"

def workerPool : WorkloadCategory → WorkerPool
  | orchestrationNode | orchestrationRetry => .execution
  | orchestrationRecovery | orchestrationCompensation | interventionExpiry | approvalResume
  | checkpoint => .recovery
  | timelineProjection | traceProjection => .controlPlane
  | sloEvaluation | alertEvaluation => .evaluation
  | retentionCleanup => .maintenance

end WorkloadCategory

def workloadCategories : List (Text × WorkloadCategory) :=
  WorkloadCategory.all.map fun category => (ascii category.name, category)

/-- `Number(value)`: an integer, or nothing when it is not one. -/
abbrev Numeral := Option Int

abbrev Bounded (minimum maximum : ℕ) := { n : ℕ // minimum ≤ n ∧ n ≤ maximum }

abbrev RoutingVersionNumber := Bounded 1 1000

/-- At most `maximumPartitionsPerCategory`. -/
abbrev PartitionCount := Bounded 1 256

abbrev PartitionCounts := WorkloadCategory → PartitionCount

def maximumRoutingVersions : ℕ := 8

/-- `boundedInteger`; `undefined`, `null` and the empty text are `none`. -/
def boundedInteger (value : Option Numeral) (path : String) (minimum maximum : ℕ)
    (fallback : Option ℕ) : Except ScaleFailure (Bounded minimum maximum) :=
  let candidate : Numeral :=
    match value with
    | none => fallback.map Int.ofNat
    | some number => number
  let failure : ScaleFailure :=
    .validation path s!"{path} must be an integer between {minimum} and {maximum}."
  match candidate with
  | none => .error failure
  | some n =>
    if h : minimum ≤ n.toNat ∧ n.toNat ≤ maximum ∧ 0 ≤ n then .ok ⟨n.toNat, h.1, h.2.1⟩
    else .error failure

/-- `WORKLOAD_DEFINITIONS[category].partitionCount`. -/
def defaultPartitionCounts : PartitionCounts
  | .orchestrationNode | .orchestrationRetry => ⟨8, by decide⟩
  | .sloEvaluation | .alertEvaluation | .retentionCleanup => ⟨2, by decide⟩
  | _ => ⟨4, by decide⟩

inductive RoutingStatus where
  | active
  | draining
  | retired
deriving DecidableEq

def RoutingStatus.name : RoutingStatus → String
  | active => "active"
  | draining => "draining"
  | retired => "retired"

def routingStatuses : List (Text × RoutingStatus) :=
  [(ascii "active", .active), (ascii "draining", .draining), (ascii "retired", .retired)]

/-- Counts as they are submitted, and the first key that names no category. What is not an object
has no counts. -/
structure CountsInput where
  counts : WorkloadCategory → Option Numeral := fun _ => none
  unknown : Option String := none

/-- An entry of `routingVersions` as it is submitted. -/
structure RouteInput where
  version : Option Numeral
  status : Value
  partitionCountByCategory : Option CountsInput

/-- What a submitted configuration says about routing, and what the checks answer that read the
rest of it, before and after. -/
structure ScaleInput where
  partitionCountByCategory : CountsInput := {}
  /-- `none` for what is not an array. -/
  routingVersions : Option (List RouteInput) := none
  /-- `assertNoSensitiveData(input)`. -/
  sensitive : Except ScaleFailure Unit := .ok ()
  others : Except ScaleFailure Unit := .ok ()

structure RoutingVersion where
  version : RoutingVersionNumber
  status : RoutingStatus
  partitionCountByCategory : PartitionCounts

def RoutingVersion.isActive (route : RoutingVersion) : Bool := route.status == .active

/-- Versions are unique, one is active, and its counts are those of the configuration. -/
structure WellFormed (routes : List RoutingVersion) (counts : PartitionCounts) : Prop where
  inhabited : routes ≠ []
  bounded : routes.length ≤ maximumRoutingVersions
  unique : (routes.map RoutingVersion.version).Nodup
  oneActive : (routes.filter RoutingVersion.isActive).length = 1
  activeCounts : ∀ route ∈ routes, route.isActive = true → ∀ category ∈ WorkloadCategory.all,
    route.partitionCountByCategory category = counts category

instance WellFormed.decidable (routes : List RoutingVersion) (counts : PartitionCounts) :
    Decidable (WellFormed routes counts) :=
  decidable_of_iff (routes ≠ [] ∧ routes.length ≤ maximumRoutingVersions ∧
      (routes.map RoutingVersion.version).Nodup ∧
      (routes.filter RoutingVersion.isActive).length = 1 ∧
      ∀ route ∈ routes, route.isActive = true → ∀ category ∈ WorkloadCategory.all,
        route.partitionCountByCategory category = counts category)
    ⟨fun ⟨inhabited, bounded, unique, oneActive, activeCounts⟩ =>
        ⟨inhabited, bounded, unique, oneActive, activeCounts⟩,
      fun h => ⟨h.inhabited, h.bounded, h.unique, h.oneActive, h.activeCounts⟩⟩

structure ScaleConfiguration where
  routingVersions : List RoutingVersion
  partitionCountByCategory : PartitionCounts
  wellFormed : WellFormed routingVersions partitionCountByCategory

/-- `normalizeCategoryMap`, with a selector that bounds partition counts. -/
def normalizeCategoryMap (input : CountsInput) (field : String) (fallback : PartitionCounts) :
    Except ScaleFailure PartitionCounts := do
  WorkloadCategory.all.forM fun category => discard (selector category)
  match input.unknown with
  | some key => .error (.validation (field ++ "." ++ key)
      (key ++ " is not a supported workload category."))
  | none => .ok fun category => (selector category).toOption.getD (fallback category)
where
  selector (category : WorkloadCategory) : Except ScaleFailure PartitionCount :=
    boundedInteger (input.counts category) (field ++ "." ++ category.name) 1 256
      (some (fallback category).val)

def routePath (index : ℕ) (key : String) : String := s!"routingVersions.{index}.{key}"

def submittedCounts (entry : RouteInput) (status : RoutingStatus) (counts : PartitionCounts) :
    CountsInput :=
  match entry.partitionCountByCategory with
  | some submitted => submitted
  | none =>
    if status = .active then { counts := fun category => some (some (counts category).val) } else {}

def normalizeRoute (counts : PartitionCounts) (index : ℕ) (entry : RouteInput)
    (seenVersions : List RoutingVersionNumber) : Except ScaleFailure RoutingVersion := do
  let version ← boundedInteger entry.version (routePath index "version") 1 1000 none
  throwWhen (seenVersions.contains version)
    (.validation (routePath index "version") "Routing versions must be unique.")
  let status ← enumValue routingStatuses entry.status (routePath index "status") (ascii "draining")
  let partitionCounts ← normalizeCategoryMap (submittedCounts entry status counts)
    (routePath index "partitionCountByCategory") counts
  .ok ⟨version, status, partitionCounts⟩

def normalizeRoutes (counts : PartitionCounts) :
    ℕ → List RouteInput → List RoutingVersionNumber → Except ScaleFailure (List RoutingVersion)
  | _, [], _ => .ok []
  | index, entry :: entries, seenVersions => do
    let route ← normalizeRoute counts index entry seenVersions
    let routes ← normalizeRoutes counts (index + 1) entries (route.version :: seenVersions)
    .ok (route :: routes)

/-- `defaults.routingVersions`. -/
def defaultRoutes : List RouteInput :=
  [{ version := some (some 1)
     status := .string (ascii "active")
     partitionCountByCategory := some
       { counts := fun category => some (some (defaultPartitionCounts category).val) } }]

def mismatchPath (routes : List RoutingVersion) (counts : PartitionCounts) : String :=
  let index := routes.findIdx RoutingVersion.isActive
  let mismatch := routes.find? RoutingVersion.isActive >>= fun route =>
    WorkloadCategory.all.find? fun category =>
      route.partitionCountByCategory category != counts category
  routePath index ("partitionCountByCategory." ++ (mismatch.map WorkloadCategory.name).getD "")

def checkRoutes (routes : List RoutingVersion) (counts : PartitionCounts) :
    Except ScaleFailure ScaleConfiguration :=
  if h : WellFormed routes counts then .ok ⟨routes, counts, h⟩
  else if (routes.filter RoutingVersion.isActive).length ≠ 1 then
    .error (.validation "routingVersions" "Exactly one routing version must be active.")
  else .error (.validation (mismatchPath routes counts)
    "Active routing-version partition counts must match the top-level category counts.")

def normalizeScaleConfiguration (input : ScaleInput) : Except ScaleFailure ScaleConfiguration := do
  input.sensitive
  let topPartitions ← normalizeCategoryMap input.partitionCountByCategory
    "partitionCountByCategory" defaultPartitionCounts
  let rawRoutingVersions := input.routingVersions.getD defaultRoutes
  throwWhen (rawRoutingVersions.isEmpty || maximumRoutingVersions < rawRoutingVersions.length)
    (.validation "routingVersions" "routingVersions must contain between 1 and 8 entries.")
  let routes ← normalizeRoutes topPartitions 0 rawRoutingVersions []
  let configuration ← checkRoutes routes topPartitions
  input.others
  .ok configuration

def ScaleConfiguration.toInput (configuration : ScaleConfiguration) : ScaleInput where
  partitionCountByCategory := countsInput configuration.partitionCountByCategory
  routingVersions := some (configuration.routingVersions.map fun route =>
    { version := some (some route.version.val)
      status := .string (ascii route.status.name)
      partitionCountByCategory := some (countsInput route.partitionCountByCategory) })
where
  countsInput (counts : PartitionCounts) : CountsInput :=
    { counts := fun category => some (some (counts category).val) }

def findVersion (configuration : ScaleConfiguration) (version : RoutingVersionNumber) :
    Option RoutingVersion :=
  configuration.routingVersions.find? (·.version == version)

def activeRoutingVersion (configuration : ScaleConfiguration) : RoutingVersion :=
  (configuration.routingVersions.find? RoutingVersion.isActive).getD
    ⟨⟨1, by decide⟩, .active, configuration.partitionCountByCategory⟩

def countsDiffer (a b : PartitionCounts) : Bool :=
  WorkloadCategory.all.any fun category => a category != b category

def checkRetained (candidate : ScaleConfiguration) (previousRoute : RoutingVersion) :
    Except ScaleFailure Unit :=
  let version := previousRoute.version.val
  match findVersion candidate previousRoute.version with
  | none => .error (.validation "routingVersions"
      s!"Routing version {version} must be retained until explicitly retired.")
  | some currentRoute =>
    throwWhen (countsDiffer currentRoute.partitionCountByCategory
        previousRoute.partitionCountByCategory)
      (.validation "routingVersions" s!"Routing version {version} partition counts are immutable.")

def checkRetiring (candidate : ScaleConfiguration) (previousActive : RoutingVersion) :
    Except ScaleFailure Unit :=
  match findVersion candidate previousActive.version with
  | none => .error .typeError
  | some retainedPrevious => throwWhen retainedPrevious.isActive
      (.validation "routingVersions"
        "The previous active routing version must become draining or retired.")

def checkActive (candidate previous : ScaleConfiguration) : Except ScaleFailure Unit := do
  let previousActive := activeRoutingVersion previous
  let candidateActive := activeRoutingVersion candidate
  let partitionCountsChanged :=
    countsDiffer candidate.partitionCountByCategory previous.partitionCountByCategory
  throwWhen (partitionCountsChanged && candidateActive.version == previousActive.version)
    (.validation "routingVersions" "Partition-count changes require a new active routing version.")
  if candidateActive.version == previousActive.version then .ok () else do
    throwWhen (candidateActive.version.val ≤ previousActive.version.val)
      (.validation "routingVersions" "A new active routing version must increase monotonically.")
    checkRetiring candidate previousActive

def assertRoutingEvolution (candidateInput : ScaleInput) (previousInput : Option ScaleInput) :
    Except ScaleFailure Unit :=
  match previousInput with
  | none => .ok ()
  | some previousInput => do
    let candidate ← normalizeScaleConfiguration candidateInput
    let previous ← normalizeScaleConfiguration previousInput
    previous.routingVersions.forM (checkRetained candidate)
    checkActive candidate previous

structure WorkloadInput where
  organizationId : Value
  workspaceId : Value
  routingKey : Value
  workloadCategory : Value
  /-- `none` for what is not truthy. -/
  routingVersion : Option Numeral := none

/-- `/^[A-Za-z0-9][A-Za-z0-9._:-]{0,199}$/`. -/
def isSafeIdentifier (text : Text) : Bool :=
  match text with
  | [] => false
  | first :: rest => isAlphanumeric first && rest.length ≤ 199 &&
      rest.all fun u => isAlphanumeric u || u == 0x2e || u == 0x5f || u == 0x3a || u == 0x2d
where
  isAlphanumeric (u : UInt16) : Bool :=
    isDigit u || (0x41 ≤ u && u ≤ 0x5a) || (0x61 ≤ u && u ≤ 0x7a)

def safeIdentifier (value : Value) (path : String) : Except ScaleFailure Text := do
  throwWhen (value.isNullish || value == .string []) (.validation path (path ++ " is required."))
  let text ← orThrow .typeError value.toText?
  throwWhen (!isSafeIdentifier text.trimmed)
    (.validation path (path ++ " must be a safe identifier."))
  .ok text.trimmed

/-- `BigInt('0x' + stableHash(value).slice(0, 16))`. -/
def stableHashInteger (value : Text) : ℕ :=
  ((sha256Hex value).take 16).foldl (fun n u => n * 16 + (digitValue? u).getD 0) 0

def routingInput (input : WorkloadInput) (category : WorkloadCategory) (routingVersion : ℕ) :
    Except ScaleFailure Text := do
  let organizationId ← safeIdentifier input.organizationId "organizationId"
  let workspaceId ← safeIdentifier input.workspaceId "workspaceId"
  let routingKey ← safeIdentifier input.routingKey "routingKey"
  let values :=
    [organizationId, workspaceId, routingKey, ascii category.name, decimalDigits routingVersion]
  .ok ([0x7c].intercalate
    (values.map fun value => decimalDigits (Utf8.byteLength value) ++ 0x3a :: value))

def partitionKey (category : WorkloadCategory) (routingVersion partitionNumber : ℕ) : Text :=
  ascii category.name ++ ascii ":v" ++ decimalDigits routingVersion ++ ascii ":p" ++
    decimalDigits partitionNumber

structure RoutedWorkload where
  workloadCategory : WorkloadCategory
  routingVersion : ℕ
  partitionCount : ℕ
  partitionNumber : ℕ
  partitionKey : Text
  workerPool : WorkerPool
deriving DecidableEq

def requestedRoute (configuration : ScaleConfiguration) :
    Option Numeral → Option RoutingVersion
  | none => some (activeRoutingVersion configuration)
  | some requested => configuration.routingVersions.find? fun route =>
      requested == some (route.version.val : Int)

def routeWorkload (input : WorkloadInput) (configuration : ScaleConfiguration) :
    Except ScaleFailure RoutedWorkload := do
  let category ← enumValue workloadCategories input.workloadCategory "workloadCategory" []
  let route ← orThrow unavailable ((requestedRoute configuration input.routingVersion).filter
    fun route => route.status != .retired)
  let partitionCount := (route.partitionCountByCategory category).val
  let hashed ← routingInput input category route.version.val
  let partitionNumber := stableHashInteger hashed % partitionCount
  .ok {
    workloadCategory := category
    routingVersion := route.version.val
    partitionCount := partitionCount
    partitionNumber := partitionNumber
    partitionKey := partitionKey category route.version.val partitionNumber
    workerPool := category.workerPool }
where
  unavailable : ScaleFailure :=
    .app 409 "INVALID_ROUTING_VERSION" "The requested routing version is unavailable."

end GhostBridge.ProductionScale
