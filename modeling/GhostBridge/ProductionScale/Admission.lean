import GhostBridge.Ecma.Text
import GhostBridge.Ecma.Numeric
import GhostBridge.Ecma.Outcome

/-!
# Admission of work under load

Signals of load fold into a backpressure state, and an admission is decided by quotas, the pressure
on the database and that state.
-/

namespace GhostBridge.ProductionScale

open Ecma

/-- `PRIORITY_CLASSES`. -/
inductive PriorityClass where
  | criticalRecovery
  | high
  | standard
  | low
  | maintenance
deriving DecidableEq

/-- `ADMISSION_CLASSES`. -/
inductive AdmissionClass where
  | protectedClass
  | interactive
  | standard
  | deferred
  | optional
deriving DecidableEq

/-- `BACKPRESSURE_STATES`. -/
inductive BackpressureState where
  | normal
  | elevated
  | saturated
  | shedding
  | paused
deriving DecidableEq

/-- `DATABASE_PRESSURE_CATEGORIES`. Any other value counts as healthy. -/
inductive DatabasePressureCategory where
  | healthy
  | elevated
  | degraded
  | unavailable
deriving DecidableEq

/-- `policy.overloadBehavior`; an absent one rejects. -/
inductive OverloadBehavior where
  | reject
  | defer
  | approvalRequired
deriving DecidableEq

/-- `AppError`. -/
inductive ScaleFailure where
  | validation (path message : String)
  | app (status : ℕ) (code message : String)
  | typeError
deriving DecidableEq

def priorityClasses : List (Text × PriorityClass) :=
  [(ascii "critical_recovery", .criticalRecovery), (ascii "high", .high),
    (ascii "standard", .standard), (ascii "low", .low), (ascii "maintenance", .maintenance)]

def admissionClasses : List (Text × AdmissionClass) :=
  [(ascii "protected", .protectedClass), (ascii "interactive", .interactive),
    (ascii "standard", .standard), (ascii "deferred", .deferred), (ascii "optional", .optional)]

def enumValue {α : Type} (values : List (Text × α)) (value : Value) (path : String)
    (fallback : Text) : Except ScaleFailure α := do
  let text ← orThrow .typeError (value.orElse (.string fallback)).toText?
  orThrow (.validation path (path ++ " is not supported.")) (values.lookup text.trimmed)

/-- `a || b` for numbers. -/
def numberOr (a b : Number) : Number := if (Value.number a).isTruthy then a else b

/-- `a < b`. -/
def numberLt (a b : Number) : Bool := a.le b && !b.le a

structure Thresholds where
  elevated : Number
  saturated : Number
  shedding : Number

def severityForThreshold (value : Number) (thresholds : Thresholds) : ℕ :=
  if thresholds.shedding.le value then 4
  else if thresholds.saturated.le value then 3
  else if thresholds.elevated.le value then 2
  else 1

structure BackpressureSignals where
  paused : Bool
  queueDepth : Number
  oldestQueueAgeMs : Number
  workerUtilizationBasisPoints : Number
  leaseExpiryRateBasisPoints : Number
  databasePressureCategory : DatabasePressureCategory

/-- `{ ...DEFAULT_BACKPRESSURE_THRESHOLDS, ...thresholdInput }`, signal by signal. -/
structure BackpressureThresholds where
  queueDepth : Thresholds := ⟨.ofNat 100, .ofNat 500, .ofNat 1000⟩
  oldestAgeMs : Thresholds := ⟨.ofNat 60000, .ofNat 300000, .ofNat 900000⟩
  utilizationBasisPoints : Thresholds := ⟨.ofNat 7500, .ofNat 9000, .ofNat 9800⟩
  leaseExpiryRateBasisPoints : Thresholds := ⟨.ofNat 500, .ofNat 1500, .ofNat 3000⟩

/-- `Math.max(0, Number(signal || 0))`. -/
def loadOf (signal : Number) : Number := (Number.ofNat 0).max (numberOr signal (.ofNat 0))

def severityOfDatabase : DatabasePressureCategory → ℕ
  | .unavailable => 4
  | .degraded => 3
  | .elevated => 2
  | .healthy => 1

/-- The severity that `calculateBackpressure` reaches. -/
def severity (signals : BackpressureSignals) (thresholds : BackpressureThresholds) : ℕ :=
  max (max (max (max
    (severityForThreshold (loadOf signals.queueDepth) thresholds.queueDepth)
    (severityForThreshold (loadOf signals.oldestQueueAgeMs) thresholds.oldestAgeMs))
    (severityForThreshold (loadOf signals.workerUtilizationBasisPoints)
      thresholds.utilizationBasisPoints))
    (severityForThreshold (loadOf signals.leaseExpiryRateBasisPoints)
      thresholds.leaseExpiryRateBasisPoints))
    (severityOfDatabase signals.databasePressureCategory)

def calculateBackpressure (signals : BackpressureSignals) (thresholds : BackpressureThresholds) :
    BackpressureState :=
  if signals.paused then .paused
  else
    match severity signals thresholds with
    | 4 => .shedding
    | 3 => .saturated
    | 2 => .elevated
    | _ => .normal

inductive SheddingAction where
  | accept
  | acceptReserved
  | defer
  | approvalRequired
  | reject
deriving DecidableEq

structure SheddingDecision where
  action : SheddingAction
  code : String
  httpStatus : Option ℕ := none
  retryable : Bool := false
deriving DecidableEq

/-- `admissionClass === 'protected' || priorityClass === 'critical_recovery'`. -/
def protectedWork (priorityClass : PriorityClass) (admissionClass : AdmissionClass) : Bool :=
  admissionClass == .protectedClass || priorityClass == .criticalRecovery

def loadSheddingDecision (backpressureState : BackpressureState) (priorityClass : PriorityClass)
    (admissionClass : AdmissionClass) (overloadBehavior : OverloadBehavior)
    (controlOperation : Bool) : SheddingDecision :=
  let guarded := protectedWork priorityClass admissionClass
  match backpressureState with
  | .paused =>
    if guarded && controlOperation then { action := .acceptReserved, code := "PROTECTED_CONTROL_CAPACITY" }
    else ⟨.reject, "SYSTEM_CAPACITY_PAUSED", some 503, true⟩
  | .shedding =>
    if guarded then { action := .acceptReserved, code := "PROTECTED_CAPACITY_USED" }
    else ⟨.reject, "SYSTEM_OVER_CAPACITY", some 503, true⟩
  | .saturated =>
    if guarded then { action := .acceptReserved, code := "PROTECTED_CAPACITY_USED" }
    else if priorityClass = .maintenance then ⟨.reject, "WORKER_POOL_SATURATED", some 503, true⟩
    else if priorityClass = .low ∨ overloadBehavior = .defer then
      ⟨.defer, "ORCHESTRATION_ADMISSION_DEFERRED", some 202, true⟩
    else if overloadBehavior = .approvalRequired then
      ⟨.approvalRequired, "OVERLOAD_BYPASS_APPROVAL_REQUIRED", some 202, false⟩
    else ⟨.reject, "WORKER_POOL_SATURATED", some 503, true⟩
  | .elevated =>
    -- Protected work is not asked about here.
    if priorityClass = .maintenance then ⟨.reject, "OPTIONAL_MAINTENANCE_PAUSED", some 503, true⟩
    else if priorityClass = .low then ⟨.defer, "ORCHESTRATION_ADMISSION_DEFERRED", some 202, true⟩
    else ⟨.accept, "CAPACITY_AVAILABLE", some 201, false⟩
  | .normal => ⟨.accept, "CAPACITY_AVAILABLE", some 201, false⟩

/-- The limits of `policy` that an admission reads; absent ones are `NaN`. -/
structure AdmissionPolicy where
  maximumPayloadBytesPerJob : Number := .nan
  maximumQueuedRuns : Number := .nan
  maximumActiveRuns : Number := .nan
  overloadBehavior : OverloadBehavior := .reject

structure AdmissionInput where
  priorityClass : Value := .undefined
  admissionClass : Value := .undefined
  failoverInProgress : Bool := false
  controlOperation : Bool := false
  /-- `input.operationalAllowed !== false`. -/
  operationalAllowed : Bool := true
  operationalReasonCode : Text := []
  policy : AdmissionPolicy := {}
  payloadBytesEstimate : Number := .nan
  tenantQueuedCount : Number := .nan
  tenantMaximumQueuedRuns : Number := .nan
  workspaceQueuedCount : Number := .nan
  workspaceMaximumQueuedRuns : Number := .nan
  tenantActiveCount : Number := .nan
  tenantMaximumActiveRuns : Number := .nan
  workspaceActiveCount : Number := .nan
  workspaceMaximumActiveRuns : Number := .nan
  databasePressureCategory : DatabasePressureCategory := .healthy
  /-- `input.protectedCapacityAvailable !== false`. -/
  protectedCapacityAvailable : Bool := true
  backpressureState : BackpressureState := .normal

inductive AdmissionDecision where
  | accepted
  | acceptedDeferred
  | approvalRequired
  | rejectedFailoverInProgress
  | rejectedOperationalState
  | rejectedQuota
  | rejectedCapacity
deriving DecidableEq

structure AdmissionOutcome where
  decision : AdmissionDecision
  safeReasonCode : Text
  httpStatus : Option ℕ
  protectedCapacityUsed : Bool := false
deriving DecidableEq

/-- `/^[A-Z][A-Z0-9_]{0,127}$/`. -/
def isSafeCode (text : Text) : Bool :=
  match text with
  | [] => false
  | first :: rest => isCapital first && rest.length ≤ 127 &&
      rest.all fun u => isCapital u || isDigit u || u == 0x5f
where
  isCapital (u : UInt16) : Bool := 0x41 ≤ u && u ≤ 0x5a

def safeReasonCode (value fallback : Text) : Text :=
  let candidate := (if value.isEmpty then fallback else value).trimmed.toUpperCase
  if isSafeCode candidate then candidate else fallback

/-- `Number(count || 0)`. -/
def countOf (count : Number) : Number := numberOr count (.ofNat 0)

def payloadLimit (input : AdmissionInput) : Number :=
  numberOr input.policy.maximumPayloadBytesPerJob (.ofNat 1000000)

/-- `Number(maximum || input.policy?.maximumQueuedRuns || DEFAULT_QUOTA_POLICY.maximumQueuedRuns)`. -/
def queuedLimit (input : AdmissionInput) (maximum : Number) : Number :=
  numberOr maximum (numberOr input.policy.maximumQueuedRuns (.ofNat 1000))

def activeLimit (input : AdmissionInput) (maximum : Number) : Number :=
  numberOr maximum (numberOr input.policy.maximumActiveRuns (.ofNat 200))

def refusal (input : AdmissionInput) : Option AdmissionOutcome :=
  if input.failoverInProgress && !input.controlOperation then
    some ⟨.rejectedFailoverInProgress, ascii "REGION_FAILOVER_IN_PROGRESS", some 409, false⟩
  else if !input.operationalAllowed then
    some ⟨.rejectedOperationalState,
      safeReasonCode input.operationalReasonCode (ascii "OPERATIONAL_STATE_BLOCKED"), some 409, false⟩
  else if numberLt (payloadLimit input) (countOf input.payloadBytesEstimate) then
    some ⟨.rejectedQuota, ascii "WORKLOAD_PAYLOAD_QUOTA_EXCEEDED", some 429, false⟩
  else if (queuedLimit input input.tenantMaximumQueuedRuns).le (countOf input.tenantQueuedCount) then
    some ⟨.rejectedQuota, ascii "TENANT_QUEUE_QUOTA_EXCEEDED", some 429, false⟩
  else if (queuedLimit input input.workspaceMaximumQueuedRuns).le
      (countOf input.workspaceQueuedCount) then
    some ⟨.rejectedQuota, ascii "WORKSPACE_QUEUE_QUOTA_EXCEEDED", some 429, false⟩
  else if (activeLimit input input.tenantMaximumActiveRuns).le (countOf input.tenantActiveCount) then
    some ⟨.rejectedQuota, ascii "TENANT_ACTIVE_RUN_QUOTA_EXCEEDED", some 429, false⟩
  else if (activeLimit input input.workspaceMaximumActiveRuns).le
      (countOf input.workspaceActiveCount) then
    some ⟨.rejectedQuota, ascii "WORKSPACE_ACTIVE_RUN_QUOTA_EXCEEDED", some 429, false⟩
  else none

def underPressure (category : DatabasePressureCategory) : Bool :=
  category == .unavailable || category == .degraded

def decideByState (input : AdmissionInput) (priorityClass : PriorityClass)
    (admissionClass : AdmissionClass) : AdmissionOutcome :=
  let guarded := protectedWork priorityClass admissionClass
  let pressed := underPressure input.databasePressureCategory
  let exhausted : AdmissionOutcome :=
    ⟨.rejectedCapacity, ascii "PROTECTED_CAPACITY_EXHAUSTED", some 503, false⟩
  if pressed && !guarded then ⟨.rejectedCapacity, ascii "DATABASE_PRESSURE_HIGH", some 503, false⟩
  else if pressed && !input.protectedCapacityAvailable then exhausted
  else
    let shedding := loadSheddingDecision input.backpressureState priorityClass admissionClass
      input.policy.overloadBehavior input.controlOperation
    match shedding.action with
    | .acceptReserved =>
      if !input.protectedCapacityAvailable then exhausted
      else ⟨.accepted,
        if pressed then ascii "PROTECTED_CAPACITY_USED" else ascii shedding.code, some 201, true⟩
    | .reject => ⟨.rejectedCapacity, ascii shedding.code, shedding.httpStatus, false⟩
    | .defer => ⟨.acceptedDeferred, ascii shedding.code, some 202, false⟩
    | .approvalRequired => ⟨.approvalRequired, ascii shedding.code, some 202, false⟩
    | .accept => ⟨.accepted,
        if pressed then ascii "PROTECTED_CAPACITY_USED" else ascii shedding.code, some 201, pressed⟩

def evaluateAdmissionOutcome (input : AdmissionInput) : Except ScaleFailure AdmissionOutcome := do
  let priorityClass ← enumValue priorityClasses input.priorityClass "priorityClass"
    (ascii "standard")
  let admissionClass ← enumValue admissionClasses input.admissionClass "admissionClass"
    (ascii "standard")
  match refusal input with
  | some refused => pure refused
  | none => pure (decideByState input priorityClass admissionClass)

def admitted (signals : BackpressureSignals) (thresholds : BackpressureThresholds)
    (input : AdmissionInput) : Except ScaleFailure AdmissionOutcome :=
  evaluateAdmissionOutcome
    { input with
      backpressureState := calculateBackpressure signals thresholds
      databasePressureCategory := signals.databasePressureCategory }

end GhostBridge.ProductionScale
