import GhostBridge.Ecma.Outcome
import GhostBridge.Ecma.Text
import GhostBridge.Machine.Threads
import Mathlib.Data.List.Infix

/-!
# Failures of a runtime

Which failures of a call count against the circuit of its runtime.
-/

namespace GhostBridge.RuntimeProtection

open Ecma

/-- What is known of an error. A status or a duration is absent where `Number(value)` is not an
integer, a text where it is empty. -/
structure ErrorMetadata where
  errorCode : Text := []
  code : Text := []
  stage : Text := []
  providerHttpStatus : Option Int := none
  remoteStatus : Option Int := none
  statusCode : Option Int := none
  status : Option Int := none
  retryAfterMs : Option Int := none
deriving DecidableEq

def statusOf (error : ErrorMetadata) : Option Int :=
  [error.providerHttpStatus, error.remoteStatus, error.statusCode, error.status].findSome? fun
    | some status => if 100 ≤ status ∧ status ≤ 599 then some status else none
    | none => none

def excludedCodes : List Text :=
  ["VALIDATION_ERROR", "CAPABILITY_INPUT_INVALID", "CAPABILITY_SCHEMA_INVALID", "POLICY_DENIED",
    "FORBIDDEN", "AUTHENTICATION_REQUIRED", "RUNTIME_AUTHENTICATION_FAILED", "INSTALL_KEY_INVALID",
    "INSTALL_KEY_ALREADY_USED", "INSTALL_KEY_EXPIRED", "INSTALL_KEY_REVOKED", "CREDENTIAL_REQUIRED",
    "CREDENTIAL_EXPIRED", "CREDENTIAL_VALIDATION_FAILED", "ENCRYPTION_CONFIGURATION_INVALID",
    "CAPABILITY_DISABLED", "CAPABILITY_NOT_FOUND", "IDEMPOTENCY_CONFLICT", "IDEMPOTENCY_KEY_INVALID",
    "UNSAFE_URL", "CONNECTION_DISABLED", "SERVICE_DRAINING", "INVOCATION_CANCELLED",
    "REQUEST_CANCELLED", "SERVICE_SHUTDOWN", "SHUTDOWN_INTERRUPTED_INVOCATION", "CANCELLED",
    "ABORT_ERR"].map ascii

def networkCodes : List Text :=
  ["ECONNRESET", "ECONNREFUSED", "ETIMEDOUT", "EAI_AGAIN", "UND_ERR_CONNECT_TIMEOUT",
    "SAFE_FETCH_TIMEOUT", "SAFE_FETCH_FAILED", "GEMINI_REQUEST_TIMEOUT",
    "GEMINI_UPSTREAM_UNAVAILABLE", "GEMINI_RESEARCH_BUDGET_EXHAUSTED", "RUNTIME_UNAVAILABLE",
    "RUNTIME_READINESS_FAILED"].map ascii

def malformedRuntimeCodes : List Text :=
  ["RUNTIME_OUTPUT_INVALID", "RUNTIME_OUTPUT_MISSING",
    "GEMINI_INVALID_STRUCTURED_OUTPUT"].map ascii

inductive FailureCategory where
  | rateLimited
  | callerOrLocalFailure
  | upstreamUnavailable
  | upstreamTimeout
  | malformedRuntimeResponse
  | unclassifiedFailure
deriving DecidableEq

structure Classification where
  countsTowardCircuit : Bool
  rateLimited : Bool
  category : FailureCategory
  weight : Int
  reason : Text
deriving DecidableEq

def safeCode (value : Text) : Text := value.trimmed.toUpperCase

/-- `a || b` of texts. -/
def orText (a b : Text) : Text := if a = [] then b else a

/-- `PROVIDER_` with one of the statuses 502, 503 and 504. -/
def providerReason (status : Option Int) : Text :=
  if status = some 502 then ascii "PROVIDER_502"
  else if status = some 503 then ascii "PROVIDER_503"
  else ascii "PROVIDER_504"

def classifyCircuitFailure (errorMetadata : ErrorMetadata) : Classification :=
  let errorCode := safeCode (orText errorMetadata.errorCode errorMetadata.code)
  let providerHttpStatus := statusOf errorMetadata
  if providerHttpStatus = some 429 ∨ errorCode = ascii "GEMINI_RATE_LIMITED" then
    { countsTowardCircuit := false, rateLimited := true, category := .rateLimited, weight := 0,
      reason := ascii "PROVIDER_429" }
  else if errorCode ∈ excludedCodes ∨ ascii "INSTALL_KEY_" <+: errorCode then
    { countsTowardCircuit := false, rateLimited := false, category := .callerOrLocalFailure,
      weight := 0, reason := orText errorCode (ascii "NON_RUNTIME_FAILURE") }
  else if providerHttpStatus ∈ [some 502, some 503, some 504] then
    { countsTowardCircuit := true, rateLimited := false, category := .upstreamUnavailable,
      weight := 1, reason := providerReason providerHttpStatus }
  else if errorCode ∈ networkCodes then
    { countsTowardCircuit := true, rateLimited := false, weight := 1, reason := errorCode
      category :=
        if ascii "TIMEOUT" <:+: errorCode ∨ ascii "BUDGET_EXHAUSTED" <:+: errorCode then
          .upstreamTimeout
        else .upstreamUnavailable }
  else if errorCode ∈ malformedRuntimeCodes then
    { countsTowardCircuit := true, rateLimited := false, category := .malformedRuntimeResponse,
      weight := 1, reason := errorCode }
  else
    { countsTowardCircuit := false, rateLimited := false, category := .unclassifiedFailure,
      weight := 0, reason := orText errorCode (ascii "UNCLASSIFIED_FAILURE") }

theorem classifyCircuitFailure_counts (errorMetadata : ErrorMetadata)
    (h : (classifyCircuitFailure errorMetadata).countsTowardCircuit = true) :
    (classifyCircuitFailure errorMetadata).weight = 1 ∧
      (classifyCircuitFailure errorMetadata).rateLimited = false := by
  unfold classifyCircuitFailure at *
  grind

end GhostBridge.RuntimeProtection

/-!
## Circuit breakers

The breaker of one runtime: the document that all calls of the runtime share, the updates that the
service makes to it, each one atomic step of the database, and the operations of the service.
-/

namespace GhostBridge.RuntimeProtection

open Ecma Machine

inductive CircuitState where
  | closed
  | open
  | halfOpen
deriving DecidableEq

/-- A `CircuitBreaker`. All operations are about the breaker of one scope. -/
structure Breaker where
  state : CircuitState := .closed
  consecutiveFailureCount : Int := 0
  successCountSinceClose : Int := 0
  failureCountInWindow : Int := 0
  failureWindowStartedAt : Option Int := none
  openedAt : Option Int := none
  openUntil : Option Int := none
  halfOpenProbeInFlight : Bool := false
  /-- Missing in documents that were stored before the field was there. -/
  halfOpenProbesInFlight : Option Int := some 0
  halfOpenProbeCount : Int := 0
  rateLimitedUntil : Option Int := none
  lastFailureAt : Option Int := none
  lastSuccessAt : Option Int := none
  lastErrorCode : Option Text := none
  lastFailureStage : Option Text := none
  lastProviderHttpStatus : Option Int := none
  version : Int := 0
deriving DecidableEq

structure CircuitSettings where
  /-- `CIRCUIT_BREAKER_ENABLED`. -/
  enabled : Bool := true
  failureThreshold : Int := 5
  failureWindowMs : Int := 60000
  openDurationMs : Int := 30000
  halfOpenMaxProbes : Int := 1
  successThresholdToClose : Int := 1
  failureThreshold_range : 1 ≤ failureThreshold ∧ failureThreshold ≤ 100
  failureWindowMs_range : 1000 ≤ failureWindowMs ∧ failureWindowMs ≤ 3600000
  openDurationMs_range : 1000 ≤ openDurationMs ∧ openDurationMs ≤ 3600000
  halfOpenMaxProbes_range : 1 ≤ halfOpenMaxProbes ∧ halfOpenMaxProbes ≤ 10
  successThresholdToClose_range : 1 ≤ successThresholdToClose ∧ successThresholdToClose ≤ 100

def CircuitSettings.standard : CircuitSettings where
  failureThreshold_range := by decide
  failureWindowMs_range := by decide
  openDurationMs_range := by decide
  halfOpenMaxProbes_range := by decide
  successThresholdToClose_range := by decide

namespace Breaker

def storedProbes (breaker : Breaker) : Int := breaker.halfOpenProbesInFlight.getD 0

/-- `Number(breaker.halfOpenProbesInFlight || (breaker.halfOpenProbeInFlight ? 1 : 0))`. -/
def probesInFlight (breaker : Breaker) : Int :=
  if breaker.storedProbes = 0 then if breaker.halfOpenProbeInFlight then 1 else 0
  else breaker.storedProbes

def remainingProbes (breaker : Breaker) : Int := max 0 (breaker.probesInFlight - 1)

def windowActive (settings : CircuitSettings) (now : Int) (breaker : Breaker) : Bool :=
  breaker.failureWindowStartedAt.any fun started => now - started ≤ settings.failureWindowMs

/-- `failureCountInWindow` with one more failure. -/
def failuresWith (settings : CircuitSettings) (now weight : Int) (breaker : Breaker) : Int :=
  (if breaker.windowActive settings now then breaker.failureCountInWindow else 0) + weight

def shouldOpen (settings : CircuitSettings) (now weight : Int) (breaker : Breaker) : Bool :=
  breaker.state = .halfOpen ∨ settings.failureThreshold ≤ breaker.failuresWith settings now weight

def closes (settings : CircuitSettings) (breaker : Breaker) : Bool :=
  breaker.state = .halfOpen ∧
    settings.successThresholdToClose ≤ breaker.successCountSinceClose + 1 ∧
    breaker.remainingProbes = 0

/-- The counters, each with `min: 0` in the schema. -/
structure CountersNonneg (breaker : Breaker) : Prop where
  consecutiveFailureCount : 0 ≤ breaker.consecutiveFailureCount
  successCountSinceClose : 0 ≤ breaker.successCountSinceClose
  failureCountInWindow : 0 ≤ breaker.failureCountInWindow
  halfOpenProbesInFlight : ∀ probes ∈ breaker.halfOpenProbesInFlight, 0 ≤ probes
  halfOpenProbeCount : 0 ≤ breaker.halfOpenProbeCount
  version : 0 ≤ breaker.version

end Breaker

/-- An update of the service, with the breaker that it was computed from. -/
inductive Change where
  | halfOpen (breaker : Breaker) (now : Int)
  | claimProbe (breaker : Breaker)
  | success (breaker : Breaker) (now : Int)
  | release (breaker : Breaker)
  | rateLimit (rateLimitedUntil now : Int) (errorMetadata : ErrorMetadata)
  | failure (breaker : Breaker) (errorMetadata : ErrorMetadata) (now : Int)

def Change.filter (settings : CircuitSettings) : Change → Breaker → Bool
  | .halfOpen breaker now, stored =>
    stored.version = breaker.version ∧ stored.state = .open ∧
      stored.openUntil.any (· ≤ now) ∧ stored.halfOpenProbeInFlight ≠ true
  | .claimProbe breaker, stored =>
    stored.version = breaker.version ∧ stored.state = .halfOpen ∧
      stored.halfOpenProbesInFlight.all (· < settings.halfOpenMaxProbes)
  | .success breaker _, stored => stored.version = breaker.version
  | .release breaker, stored => stored.version = breaker.version ∧ stored.state = .halfOpen
  | .rateLimit _ _ _, _ => true
  | .failure breaker _ _, stored => stored.version = breaker.version

def halfOpenUpdate (stored : Breaker) : Breaker :=
  { stored with
    state := .halfOpen
    halfOpenProbeInFlight := true
    halfOpenProbesInFlight := some 1
    halfOpenProbeCount := stored.halfOpenProbeCount + 1
    version := stored.version + 1 }

def claimProbeUpdate (stored : Breaker) : Breaker :=
  { stored with
    halfOpenProbeInFlight := true
    halfOpenProbeCount := stored.halfOpenProbeCount + 1
    halfOpenProbesInFlight := some (stored.storedProbes + 1)
    version := stored.version + 1 }

def successUpdate (settings : CircuitSettings) (breaker : Breaker) (now : Int) (stored : Breaker) :
    Breaker :=
  let wasHalfOpen := breaker.state = .halfOpen
  let remainingProbes := if wasHalfOpen then breaker.remainingProbes else 0
  let closes := breaker.closes settings
  { stored with
    state := if closes then .closed else breaker.state
    consecutiveFailureCount := 0
    successCountSinceClose := breaker.successCountSinceClose + 1
    failureCountInWindow := 0
    failureWindowStartedAt := some now
    lastSuccessAt := some now
    halfOpenProbeInFlight := wasHalfOpen ∧ 0 < remainingProbes
    halfOpenProbesInFlight := some remainingProbes
    openUntil := if closes ∨ breaker.state = .closed then none else stored.openUntil
    rateLimitedUntil := if breaker.rateLimitedUntil.isSome then none else stored.rateLimitedUntil
    version := stored.version + 1 }

def releaseUpdate (breaker stored : Breaker) : Breaker :=
  { stored with
    halfOpenProbeInFlight := 0 < breaker.remainingProbes
    halfOpenProbesInFlight := some breaker.remainingProbes
    version := stored.version + 1 }

/-- `String(errorMetadata.code || fallback).toUpperCase()`, trimmed by the schema. -/
def lastErrorCodeOf (errorMetadata : ErrorMetadata) (fallback : Text) : Text :=
  (orText errorMetadata.code fallback).toUpperCase.trimmed

def rateLimitUpdate (rateLimitedUntil now : Int) (errorMetadata : ErrorMetadata)
    (stored : Breaker) : Breaker :=
  { stored with
    rateLimitedUntil := some (stored.rateLimitedUntil.elim rateLimitedUntil (max · rateLimitedUntil))
    lastFailureAt := some now
    lastErrorCode := some (lastErrorCodeOf errorMetadata (ascii "RATE_LIMITED"))
    lastProviderHttpStatus := some 429
    version := stored.version + 1 }

def failureUpdate (settings : CircuitSettings) (breaker : Breaker) (errorMetadata : ErrorMetadata)
    (now : Int) (stored : Breaker) : Breaker :=
  let classification := classifyCircuitFailure errorMetadata
  let windowActive := breaker.windowActive settings now
  let shouldOpen := breaker.shouldOpen settings now classification.weight
  { stored with
    state := if shouldOpen then .open else .closed
    consecutiveFailureCount := breaker.consecutiveFailureCount + classification.weight
    failureCountInWindow := breaker.failuresWith settings now classification.weight
    failureWindowStartedAt := if windowActive then breaker.failureWindowStartedAt else some now
    lastFailureAt := some now
    lastErrorCode := some (lastErrorCodeOf errorMetadata classification.reason)
    lastFailureStage :=
      if errorMetadata.stage = [] then stored.lastFailureStage
      else some (Text.trimmed (errorMetadata.stage.take 128))
    lastProviderHttpStatus :=
      if errorMetadata.providerHttpStatus.isSome then errorMetadata.providerHttpStatus
      else stored.lastProviderHttpStatus
    halfOpenProbeInFlight := false
    halfOpenProbesInFlight := some 0
    openedAt := if shouldOpen then some now else stored.openedAt
    openUntil := if shouldOpen then some (now + settings.openDurationMs) else stored.openUntil
    successCountSinceClose := if shouldOpen then 0 else stored.successCountSinceClose
    version := stored.version + 1 }

def Change.update (settings : CircuitSettings) : Change → Breaker → Breaker
  | .halfOpen _ _ => halfOpenUpdate
  | .claimProbe _ => claimProbeUpdate
  | .success breaker now => successUpdate settings breaker now
  | .release breaker => releaseUpdate breaker
  | .rateLimit rateLimitedUntil now errorMetadata =>
    rateLimitUpdate rateLimitedUntil now errorMetadata
  | .failure breaker errorMetadata now => failureUpdate settings breaker errorMetadata now

inductive ProtectionCode where
  | rateLimitProtected
  | circuitOpen
  | circuitHalfOpenProbeActive
deriving DecidableEq

inductive Failure where
  /-- `protectionError`. -/
  | protection (code : ProtectionCode) (retryAfterMs : Int) (circuitState : CircuitState)
  /-- `SERVICE_UNAVAILABLE`: the breaker has changed under every attempt. -/
  | serviceUnavailable (message : String)
  /-- The validators of the schema refuse a path of an update. -/
  | invalid (path : String)
  /-- A property of `null` is read. -/
  | typeError
  | duplicateKey
  | unavailable
deriving DecidableEq

abbrev Checked (α : Type) := Except Failure α

/-- `SAFE_CODE_PATTERN`. -/
def isSafeCode : Text → Bool
  | [] => false
  | u :: rest =>
    0x41 ≤ u && u ≤ 0x5a && rest.length ≤ 127 &&
      rest.all fun v => (0x41 ≤ v && v ≤ 0x5a) || (0x30 ≤ v && v ≤ 0x39) || v == 0x5f

/-- The validators of `lastErrorCode` let an empty text pass. -/
def checkErrorCode (code : Text) : Checked Unit :=
  throwWhen (code ≠ [] && !isSafeCode code) (.invalid "lastErrorCode")

/-- `runValidators` for the values that an update sets. -/
def Change.validate (settings : CircuitSettings) : Change → Checked Unit
  | .halfOpen _ _ => pure ()
  | .claimProbe _ => pure ()
  | .success breaker _ =>
    throwWhen (breaker.successCountSinceClose + 1 < 0) (.invalid "successCountSinceClose")
  | .release _ => pure ()
  | .rateLimit _ _ errorMetadata =>
    checkErrorCode (lastErrorCodeOf errorMetadata (ascii "RATE_LIMITED"))
  | .failure breaker errorMetadata now => do
    let classification := classifyCircuitFailure errorMetadata
    throwWhen (breaker.consecutiveFailureCount + classification.weight < 0)
      (.invalid "consecutiveFailureCount")
    throwWhen (breaker.failuresWith settings now classification.weight < 0)
      (.invalid "failureCountInWindow")
    checkErrorCode (lastErrorCodeOf errorMetadata classification.reason)
    throwWhen (errorMetadata.providerHttpStatus.any fun status => status < 100 || 599 < status)
      (.invalid "lastProviderHttpStatus")

inductive Finish where
  | success
  | failure (errorMetadata : ErrorMetadata)
  | release

inductive Op where
  /-- `Date.now()`. -/
  | clock
  /-- `findOneAndUpdate(scope, { $setOnInsert }, { upsert: true })`. -/
  | upsert
  /-- `findOne(scope)`. -/
  | findOne
  /-- `findOneAndUpdate(filter, update, { new: true })`. -/
  | change (change : Change)
  /-- The call of the runtime between the admission and its result. -/
  | callRuntime

abbrev Reply : Op → Type
  | .clock => Int
  | .upsert => Checked Breaker
  | .findOne => Checked (Option Breaker)
  | .change _ => Checked (Option Breaker)
  | .callRuntime => Finish

abbrev Flow := Async Op Reply Failure

structure Database where
  clock : Int := 0
  breaker : Option Breaker := none

structure Answer where
  /-- How long the clock has gone on before the operation. -/
  elapsed : ℕ := 0
  unavailable : Bool := false
  /-- Another upsert has inserted the document in the meantime. -/
  raced : Bool := false
  finish : Finish := .success

def Answer.available {α : Type} (answer : Answer) (db : Database) (result : Checked α × Database) :
    Checked α × Database :=
  if answer.unavailable then (.error .unavailable, db) else result

def upsert (db : Database) (raced : Bool) : Checked Breaker × Database :=
  match db.breaker with
  | some breaker => if raced then (.error .duplicateKey, db) else (.ok breaker, db)
  | none => (.ok {}, { db with breaker := some {} })

def applyChange (settings : CircuitSettings) (db : Database) (change : Change) :
    Checked (Option Breaker) × Database :=
  match db.breaker.filter (change.filter settings) with
  | none => (.ok none, db)
  | some stored =>
    (.ok (some (change.update settings stored)),
      { db with breaker := some (change.update settings stored) })

def performAt (settings : CircuitSettings) (db : Database) :
    (op : Op) → Answer → Reply op × Database
  | .clock, _ => (db.clock, db)
  | .upsert, answer => answer.available db (upsert db answer.raced)
  | .findOne, answer => answer.available db (.ok db.breaker, db)
  | .change change, answer => answer.available db (applyChange settings db change)
  | .callRuntime, answer => (answer.finish, db)

def perform (settings : CircuitSettings) : Perform Database Op Answer Reply := fun db op answer =>
  performAt settings { db with clock := db.clock + answer.elapsed } op answer

structure Options where
  /-- `options.now`. -/
  now : Option Int := none
  /-- `persistenceAvailable(options)`. -/
  persistence : Bool := true

def currentTime (options : Options) : Flow Int :=
  match options.now with
  | some now => pure now
  | none => Async.ask Op.clock

def findOne : Flow (Option Breaker) := do
  let reply ← Async.ask Op.findOne
  reply

def present : Option Breaker → Flow Breaker
  | some breaker => pure breaker
  | none => throw .typeError

def ensureBreaker : Flow Breaker :=
  tryCatch (do
    let reply ← Async.ask Op.upsert
    reply) fun error =>
    if error = .duplicateKey then do present (← findOne) else throw error

def findOneAndUpdate (settings : CircuitSettings) (change : Change) : Flow (Option Breaker) := do
  change.validate settings
  let reply ← Async.ask (.change change)
  reply

def retryAfterMs (until? : Option Int) (now : Int) : Int :=
  match until? with
  | none => 0
  | some until' => max 0 (until' - now)

def protectionError (code : ProtectionCode) (breaker : Breaker) (now : Int) : Failure :=
  .protection code
    (retryAfterMs
      (if code = .rateLimitProtected then breaker.rateLimitedUntil else breaker.openUntil) now)
    breaker.state

structure Evaluation where
  bypassed : Bool := false
  state : CircuitState := .closed
  probe : Bool := false
  /-- `transitioned: 'half_opened'`. -/
  halfOpened : Bool := false

/-- The part of `evaluateCircuit` after the claim of an open breaker. -/
def evaluateHalfOpen (settings : CircuitSettings) (now : Int) (breaker : Breaker) :
    Flow Evaluation := do
  if breaker.state = .halfOpen then
    if 0 < breaker.probesInFlight ∧
        (settings.halfOpenMaxProbes ≤ breaker.probesInFlight ∨
          settings.successThresholdToClose ≤ breaker.successCountSinceClose) then
      throw (protectionError .circuitHalfOpenProbeActive breaker now)
    else
      match ← findOneAndUpdate settings (.claimProbe breaker) with
      | some _ => return { state := .halfOpen, probe := true }
      | none => throw (protectionError .circuitHalfOpenProbeActive breaker now)
  else return {}

def evaluateCircuit (settings : CircuitSettings) (options : Options) : Flow Evaluation := do
  if !settings.enabled || !options.persistence then return { bypassed := true }
  else
    let now ← currentTime options
    let breaker ← ensureBreaker
    if breaker.rateLimitedUntil.any (now < ·) then
      throw (protectionError .rateLimitProtected breaker now)
    else if breaker.state = .open ∧ breaker.openUntil.any (now < ·) then
      throw (protectionError .circuitOpen breaker now)
    else if breaker.state = .open then
      match ← findOneAndUpdate settings (.halfOpen breaker now) with
      | some _ => return { state := .halfOpen, probe := true, halfOpened := true }
      | none =>
        match ← findOne with
        | some breaker => evaluateHalfOpen settings now breaker
        | none => throw .typeError
    else evaluateHalfOpen settings now breaker

structure Recorded where
  changed : Bool := false
  state : Option CircuitState := none
  /-- `transitioned`. -/
  transitioned : Option CircuitState := none
  reopened : Bool := false
  rateLimitCleared : Bool := false
  rateLimited : Bool := false
  remainingProbes : Option Int := none
  openUntil : Option Int := none
  rateLimitedUntil : Option Int := none

/-- `for (let retry = 0; retry < 4; retry += 1)` around a change of the breaker. -/
def attempts (message : String) (attempt : Breaker → Flow (Option Recorded)) : ℕ → Flow Recorded
  | 0 => throw (.serviceUnavailable message)
  | retries + 1 => do
    match ← attempt (← ensureBreaker) with
    | some recorded => return recorded
    | none => attempts message attempt retries

def recordCircuitSuccess (settings : CircuitSettings) (options : Options) : Flow Recorded := do
  if !settings.enabled || !options.persistence then return {}
  else
    let now ← currentTime options
    attempts "Circuit success state could not be updated safely." (fun breaker => do
      if breaker.state = .open then return some { state := some .open }
      else
        match ← findOneAndUpdate settings (.success breaker now) with
        | none => return none
        | some updated =>
          return some
            { changed := true
              state := some updated.state
              transitioned := if breaker.closes settings then some .closed else none
              rateLimitCleared := breaker.rateLimitedUntil.isSome }) 4

def releaseCircuitProbe (settings : CircuitSettings) (options : Options) : Flow Recorded := do
  if !settings.enabled || !options.persistence then return {}
  else
    attempts "Circuit probe state could not be released safely." (fun breaker => do
      if breaker.state ≠ .halfOpen ∨ breaker.probesInFlight < 1 then
        return some { state := some breaker.state }
      else
        match ← findOneAndUpdate settings (.release breaker) with
        | none => return none
        | some updated =>
          return some
            { changed := true
              state := some updated.state
              remainingProbes := some breaker.remainingProbes }) 4

def rateLimitEnd (settings : CircuitSettings) (errorMetadata : ErrorMetadata) (now : Int) : Int :=
  let durationMs :=
    match errorMetadata.retryAfterMs with
    | some supplied => if 0 < supplied then supplied else settings.openDurationMs
    | none => settings.openDurationMs
  now + min 3600000 (max 1000 durationMs)

def recordRateLimit (settings : CircuitSettings) (errorMetadata : ErrorMetadata) (now : Int) :
    Flow Recorded := do
  let _ ← ensureBreaker
  let breaker ← present (← findOneAndUpdate settings
    (.rateLimit (rateLimitEnd settings errorMetadata now) now errorMetadata))
  return { changed := true, rateLimited := true, rateLimitedUntil := breaker.rateLimitedUntil }

def recordCircuitFailure (settings : CircuitSettings) (errorMetadata : ErrorMetadata)
    (options : Options) : Flow Recorded := do
  let classification := classifyCircuitFailure errorMetadata
  if !settings.enabled || !options.persistence then return {}
  else
    let now ← currentTime options
    if classification.rateLimited then recordRateLimit settings errorMetadata now
    else if !classification.countsTowardCircuit then return {}
    else
      attempts "Circuit state could not be updated safely." (fun breaker => do
        match ← findOneAndUpdate settings (.failure breaker errorMetadata now) with
        | none => return none
        | some updated =>
          let shouldOpen := breaker.shouldOpen settings now classification.weight
          return some
            { changed := true
              state := some updated.state
              transitioned := if shouldOpen ∧ breaker.state ≠ .open then some .open else none
              reopened := shouldOpen ∧ breaker.state = .halfOpen
              openUntil := updated.openUntil }) 4

def discarding {α : Type} (flow : Flow α) : Flow Unit := do
  let _ ← flow

def runtimeCall (settings : CircuitSettings) (admission options : Options) : Flow Unit := do
  let _ ← evaluateCircuit settings admission
  match ← Async.ask Op.callRuntime with
  | .success => discarding (recordCircuitSuccess settings options)
  | .failure errorMetadata => discarding (recordCircuitFailure settings errorMetadata options)
  | .release => discarding (releaseCircuitProbe settings options)

end GhostBridge.RuntimeProtection
