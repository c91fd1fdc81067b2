import GhostBridge.Ecma.Text
import GhostBridge.Ecma.Outcome
import GhostBridge.Machine.Threads

/-!
# Regional write authority

The record that names the region which may write, the updates that the service makes to it, each
one atomic step of the database, and the operations of the service.
-/

namespace GhostBridge.RegionalResilience

open Ecma Machine

inductive AuthorityStatus where
  | active
  | transferring
  | frozen
  | isolated
  | recoveryRequired
deriving DecidableEq

/-- `REGIONAL_SCOPES`. -/
inductive Scope where
  | platform
  | organization
  | workspace
deriving DecidableEq

/-- A `RegionalWriteAuthority`. -/
structure Authority where
  authorityKey : Text
  scope : Scope
  organizationId : Text
  workspaceId : Text
  activeRegionId : Text
  authorityEpoch : Int
  status : AuthorityStatus
  leaseOwnerServiceId : Text
  leaseId : Text
  leaseEpoch : Int
  leaseExpiresAt : Int
  heartbeatAt : Int
  lastTransitionId : Text
  lastTransitionAt : Int
deriving DecidableEq

/-- What `Number` makes of a value, where it is an integer. -/
abbrev Numeral := Option Int

/-- What an authority is about. A text that is missing is empty; a scope that is none of the three
is absent. -/
structure Place where
  scope : Option Scope
  organizationId : Text
  workspaceId : Text
deriving DecidableEq

structure AcquireInput where
  place : Place
  regionId : Text
  serviceId : Text
  leaseId : Text := []
  transitionId : Text := []
  leaseDurationMs : Option Numeral := none
  /-- `assertNoSensitiveData` refuses the input. -/
  sensitive : Bool := false
deriving DecidableEq

structure RenewInput where
  place : Place
  regionId : Text
  authorityEpoch : Numeral
  serviceId : Text
  leaseEpoch : Numeral
  leaseId : Text
  leaseDurationMs : Option Numeral := none
deriving DecidableEq

structure FreezeInput where
  place : Place
  regionId : Text
  authorityEpoch : Numeral
deriving DecidableEq

structure TransferInput where
  place : Place
  sourceFenced : Bool
  authorityStoreReachable : Bool
  sourceRegionId : Text
  /-- `Number(input.sourceAuthorityEpoch)`; 0 stands for what is not an integer. -/
  sourceAuthorityEpoch : Int
  targetRegionId : Text
  targetServiceId : Text
  leaseId : Text := []
  transitionId : Text := []
  leaseDurationMs : Option Numeral := none
  sensitive : Bool := false
deriving DecidableEq

/-- The context of a write, with the epochs that it carries, if any. -/
structure WriteInput where
  place : Place
  forceRegionalMode : Bool := false
  regionId : Text := []
  executionRegionId : Text := []
  serviceId : Text := []
  authorityEpoch : Option Numeral := none
  authorityLeaseEpoch : Option Numeral := none
deriving DecidableEq

structure Options where
  /-- `options.now`. -/
  now : Option Int := none

structure Settings where
  /-- `MULTI_REGION_ENABLED`. -/
  multiRegionEnabled : Bool
  /-- `SERVICE_REGION_ID`. -/
  serviceRegionId : Text
  /-- `REGIONAL_SERVICE_ID`. -/
  regionalServiceId : Text

inductive Failure where
  /-- An `AppError`, with the paths and the messages of its details. -/
  | app (status : ℕ) (code message : String) (details : List (String × String))
  | invalid (path : String)
  | duplicateKey
  | unavailable
deriving DecidableEq

abbrev Checked (α : Type) := Except Failure α

def validationError (path message : String) : Failure :=
  .app 400 "REGIONAL_RESILIENCE_VALIDATION_FAILED" "Regional resilience validation failed."
    [(path, message)]

/-- `/^[A-Za-z0-9][A-Za-z0-9._:-]{0,199}$/`. -/
def isSafeIdentifier : Text → Bool
  | [] => false
  | u :: rest =>
    let isAlphanumeric := fun v : UInt16 =>
      (0x41 ≤ v && v ≤ 0x5a) || (0x61 ≤ v && v ≤ 0x7a) || (0x30 ≤ v && v ≤ 0x39)
    isAlphanumeric u && rest.length ≤ 199 &&
      rest.all fun v => isAlphanumeric v || (ascii "._:-").contains v

def safeIdentifier (value : Text) (path : String) : Checked Text := do
  throwWhen (value = []) (validationError path (path ++ " is required."))
  throwWhen (!isSafeIdentifier value.trimmed)
    (validationError path (path ++ " must be a bounded safe identifier."))
  return value.trimmed

/-- `boundedInteger(value, 'leaseDurationMs', 5_000, 3_600_000, 60_000)`. -/
def boundedLeaseDuration : Option Numeral → Checked Int
  | none => .ok 60000
  | some numeral =>
    match numeral.filter fun candidate => 5000 ≤ candidate ∧ candidate ≤ 3600000 with
    | some candidate => .ok candidate
    | none => .error (validationError "leaseDurationMs"
        "leaseDurationMs must be an integer between 5000 and 3600000.")

/-- `core.assertNoSensitiveData(input)`; the path of what it finds is not used. -/
def assertNoSensitiveData (sensitive : Bool) : Checked Unit :=
  throwWhen sensitive
    (validationError "$" "Sensitive infrastructure or credential data is not allowed.")

def organizationKey (organizationId : Text) : Text := ascii "organization:" ++ organizationId

def workspaceKey (organizationId workspaceId : Text) : Text :=
  organizationKey organizationId ++ ascii ":workspace:" ++ workspaceId

def authorityKey (place : Place) : Checked Text := do
  if place.scope = some .platform then return ascii "platform"
  else
    let organizationId ← safeIdentifier place.organizationId "organizationId"
    if place.scope = some .organization ∨ place.workspaceId = [] then
      return organizationKey organizationId
    else
      let workspaceId ← safeIdentifier place.workspaceId "workspaceId"
      return workspaceKey organizationId workspaceId

def authorityKeys (place : Place) : Checked (List Text) := do
  if place.scope = some .platform then return [ascii "platform"]
  else
    let organizationId ← safeIdentifier place.organizationId "organizationId"
    if place.workspaceId = [] then return [organizationKey organizationId, ascii "platform"]
    else
      let workspaceId ← safeIdentifier place.workspaceId "workspaceId"
      return [workspaceKey organizationId workspaceId, organizationKey organizationId,
        ascii "platform"]

/-- An update of the service, with the input and the identifiers that it was computed from. -/
inductive Change where
  | renew (input : RenewInput) (now leaseDurationMs : Int)
  | freeze (input : FreezeInput) (now : Int)
  | transfer (input : TransferInput) (transitionId leaseId : Text) (now leaseDurationMs : Int)
deriving DecidableEq

def Change.filter : Change → Authority → Bool
  | .renew input now _, stored =>
    stored.activeRegionId = input.regionId.trimmed ∧
      input.authorityEpoch = some stored.authorityEpoch ∧
      stored.leaseOwnerServiceId = input.serviceId.trimmed ∧
      input.leaseEpoch = some stored.leaseEpoch ∧ stored.leaseId = input.leaseId.trimmed ∧
      stored.status = .active ∧ now < stored.leaseExpiresAt
  | .freeze input _, stored =>
    input.authorityEpoch = some stored.authorityEpoch ∧
      stored.activeRegionId = input.regionId.trimmed ∧ stored.status = .active
  | .transfer input transitionId _ _ _, stored =>
    stored.activeRegionId = input.sourceRegionId.trimmed ∧
      stored.authorityEpoch = input.sourceAuthorityEpoch ∧ stored.status ≠ .recoveryRequired ∧
      stored.lastTransitionId ≠ transitionId.trimmed

def Change.update : Change → Authority → Authority
  | .renew _ now leaseDurationMs, stored =>
    { stored with heartbeatAt := now, leaseExpiresAt := now + leaseDurationMs }
  | .freeze _ now, stored =>
    { stored with status := .frozen, lastTransitionAt := now, leaseExpiresAt := now }
  | .transfer input transitionId leaseId now leaseDurationMs, stored =>
    { stored with
      activeRegionId := input.targetRegionId.trimmed
      authorityEpoch := input.sourceAuthorityEpoch + 1
      status := .active
      leaseOwnerServiceId := input.targetServiceId.trimmed
      leaseId := leaseId.trimmed
      leaseExpiresAt := now + leaseDurationMs
      heartbeatAt := now
      lastTransitionId := transitionId.trimmed
      lastTransitionAt := now
      leaseEpoch := stored.leaseEpoch + 1 }

def checkIdentifier (value : Text) (path : String) : Checked Unit :=
  throwWhen (!isSafeIdentifier value.trimmed) (.invalid path)

/-- The validators of `lastTransitionId` let an empty text pass. -/
def checkTransitionId (value : Text) : Checked Unit :=
  throwWhen (value.trimmed ≠ [] && !isSafeIdentifier value.trimmed) (.invalid "lastTransitionId")

/-- `runValidators` for the values that an update sets. -/
def Change.validate : Change → Checked Unit
  | .renew _ _ _ => pure ()
  | .freeze _ _ => pure ()
  | .transfer input transitionId leaseId _ _ => do
    checkIdentifier input.targetRegionId "activeRegionId"
    checkIdentifier input.targetServiceId "leaseOwnerServiceId"
    checkIdentifier leaseId "leaseId"
    checkTransitionId transitionId

inductive Op where
  /-- `new Date()`. -/
  | clock
  /-- `RegionalDeploymentConfiguration.exists({ scopeKey: { $in: keys }, status: 'active' })`. -/
  | configurationExists (keys : List Text)
  /-- `findOne({ authorityKey })`. -/
  | findOne (key : Text)
  /-- `findOne({ authorityKey, lastTransitionId, activeRegionId, authorityEpoch })`. -/
  | findReplay (key transitionId targetRegionId : Text) (targetEpoch : Int)
  | create (authority : Authority)
  /-- `findOneAndUpdate({ authorityKey, ...filter }, update, { new: true })`. -/
  | change (key : Text) (change : Change)
  /-- `RegionalAuthorityTransition.create(transition)`. -/
  | insertTransition (transitionId : Text)
  /-- `crypto.randomUUID()`. -/
  | randomUUID

abbrev Reply : Op → Type
  | .clock => Int
  | .configurationExists _ => Checked Bool
  | .findOne _ => Checked (Option Authority)
  | .findReplay _ _ _ _ => Checked (Option Authority)
  | .create _ => Checked Authority
  | .change _ _ => Checked (Option Authority)
  | .insertTransition _ => Checked Unit
  | .randomUUID => Text

abbrev Flow := Async Op Reply Failure

/-- The clock, and the authorities by their keys, which are unique. -/
structure Database where
  clock : Int
  authorities : Text → Option Authority

structure Answer where
  /-- How long the clock has gone on before the operation. -/
  elapsed : ℕ := 0
  unavailable : Bool := false
  configured : Bool := true
  recorded : Bool := false
  uuid : Text := []

def Answer.available {α : Type} (answer : Answer) (db : Database) (result : Checked α × Database) :
    Checked α × Database :=
  if answer.unavailable then (.error .unavailable, db) else result

namespace Database

def store (db : Database) (key : Text) (authority : Authority) : Database :=
  { db with authorities := Function.update db.authorities key (some authority) }

def create (db : Database) (authority : Authority) : Checked Authority × Database :=
  match db.authorities authority.authorityKey with
  | some _ => (.error .duplicateKey, db)
  | none => (.ok authority, db.store authority.authorityKey authority)

def findReplay (db : Database) (key transitionId targetRegionId : Text) (targetEpoch : Int) :
    Option Authority :=
  (db.authorities key).filter fun stored =>
    stored.lastTransitionId = transitionId.trimmed ∧
      stored.activeRegionId = targetRegionId.trimmed ∧ stored.authorityEpoch = targetEpoch

def applyChange (db : Database) (key : Text) (change : Change) :
    Checked (Option Authority) × Database :=
  match (db.authorities key).filter change.filter with
  | none => (.ok none, db)
  | some stored => (.ok (some (change.update stored)), db.store key (change.update stored))

end Database

def performAt (db : Database) : (op : Op) → Answer → Reply op × Database
  | .clock, _ => (db.clock, db)
  | .configurationExists _, answer => answer.available db (.ok answer.configured, db)
  | .findOne key, answer => answer.available db (.ok (db.authorities key), db)
  | .findReplay key transitionId targetRegionId targetEpoch, answer =>
    answer.available db (.ok (db.findReplay key transitionId targetRegionId targetEpoch), db)
  | .create authority, answer => answer.available db (db.create authority)
  | .change key change, answer => answer.available db (db.applyChange key change)
  | .insertTransition _, answer =>
    answer.available db (if answer.recorded then .error .duplicateKey else .ok (), db)
  | .randomUUID, answer => (answer.uuid, db)

def perform : Perform Database Op Answer Reply := fun db op answer =>
  performAt { db with clock := db.clock + answer.elapsed } op answer

def currentTime (options : Options) : Flow Int :=
  match options.now with
  | some now => pure now
  | none => Async.ask Op.clock

def findOne (key : Text) : Flow (Option Authority) := do
  let reply ← Async.ask (.findOne key)
  reply

def findOneAndUpdate (key : Text) (change : Change) : Flow (Option Authority) := do
  change.validate
  let reply ← Async.ask (.change key change)
  reply

def orRandom (given : Text) (label : String) : Flow Text := do
  if given ≠ [] then return given
  else
    let uuid ← Async.ask .randomUUID
    return ascii label ++ uuid

def insertTransition (transitionId : Text) : Flow Unit := do
  let reply ← Async.ask (.insertTransition transitionId)
  reply

def regionalModeEnabled (settings : Settings) (input : WriteInput) : Flow Bool := do
  if input.forceRegionalMode then return true
  else if !settings.multiRegionEnabled then return false
  else
    let keys ← authorityKeys input.place
    let reply ← Async.ask (.configurationExists keys)
    reply

def resolveAuthority : List Text → Flow (Option Authority)
  | [] => return none
  | key :: keys => do
    match ← findOne key with
    | some record => return some record
    | none => resolveAuthority keys

structure RuntimeContext where
  regionId : Text
  serviceId : Text
  authorityEpoch : Int
  authorityLeaseEpoch : Int
deriving DecidableEq

inductive Assertion where
  | notEnforced
  | enforced (authority : Authority) (context : RuntimeContext)
deriving DecidableEq

/-- `a || b` of texts. -/
def orText (a b : Text) : Text := if a = [] then b else a

/-- `carried != null && Number(carried) !== Number(current)`. -/
def isStale (carried : Option Numeral) (current : Int) : Bool := carried.any (· ≠ some current)

def checkAuthority (settings : Settings) (input : WriteInput) (record : Authority) (now : Int) :
    Checked Assertion :=
  let regionId := orText input.regionId (orText input.executionRegionId settings.serviceRegionId)
  if record.leaseExpiresAt ≤ now then
    throw (.app 409 "REGION_AUTHORITY_LEASE_EXPIRED" "Regional write-authority lease expired." [])
  else if record.activeRegionId ≠ regionId then
    throw (.app 409 "REGION_NOT_WRITE_AUTHORITY" "Region is not the active write authority." [])
  else if isStale input.authorityEpoch record.authorityEpoch then
    throw (.app 409 "REGION_AUTHORITY_EPOCH_STALE" "Regional write-authority epoch is stale." [])
  else if isStale input.authorityLeaseEpoch record.leaseEpoch then
    throw (.app 409 "REGION_WRITE_FENCED" "Regional authority lease epoch is stale." [])
  else
    return .enforced record
      { regionId
        serviceId := orText input.serviceId settings.regionalServiceId
        authorityEpoch := record.authorityEpoch
        authorityLeaseEpoch := record.leaseEpoch }

def assertRegionalWriteAuthority (settings : Settings) (input : WriteInput) (options : Options) :
    Flow Assertion := do
  if !(← regionalModeEnabled settings input) then return .notEnforced
  else
    let record ← tryCatch (do resolveAuthority (← authorityKeys input.place)) fun _ =>
      throw (.app 503 "REGION_WRITE_FROZEN"
        "Writes are frozen because durable authority cannot be verified." [])
    match record with
    | none => throw (.app 503 "REGION_WRITE_FROZEN" "No regional write authority is active." [])
    | some record =>
      if record.status ≠ .active then
        throw (.app 409 (if record.status = .transferring then "REGION_FAILOVER_IN_PROGRESS"
          else "REGION_WRITE_FROZEN") "Regional writes are not active." [])
      else
        let now ← currentTime options
        checkAuthority settings input record now

/-- The document of `RegionalWriteAuthority.create`, and its validators. -/
def initialAuthority (input : AcquireInput) (key regionId serviceId leaseId transitionId : Text)
    (now leaseDurationMs : Int) : Checked Authority := do
  let scope ← orThrow (.invalid "scope") input.place.scope
  throwWhen (200 < input.place.organizationId.trimmed.length) (.invalid "organizationId")
  throwWhen (200 < input.place.workspaceId.trimmed.length) (.invalid "workspaceId")
  checkIdentifier leaseId "leaseId"
  checkTransitionId transitionId
  return {
    authorityKey := key
    scope
    organizationId := input.place.organizationId.trimmed
    workspaceId := input.place.workspaceId.trimmed
    activeRegionId := regionId
    authorityEpoch := 1
    status := .active
    leaseOwnerServiceId := serviceId
    leaseId := leaseId.trimmed
    leaseEpoch := 1
    leaseExpiresAt := now + leaseDurationMs
    heartbeatAt := now
    lastTransitionId := transitionId.trimmed
    lastTransitionAt := now }

def createAuthority (authority : Authority) : Flow Authority :=
  tryCatch (do
    let reply ← Async.ask (.create authority)
    reply) fun error =>
    if error = .duplicateKey then
      throw (.app 409 "REGION_WRITE_AUTHORITY_CONFLICT" "Write authority was acquired concurrently."
        [])
    else throw error

def acquireInitialAuthority (input : AcquireInput) (options : Options) : Flow Authority := do
  assertNoSensitiveData input.sensitive
  let now ← currentTime options
  let key ← authorityKey input.place
  let regionId ← safeIdentifier input.regionId "regionId"
  let serviceId ← safeIdentifier input.serviceId "serviceId"
  let leaseDurationMs ← boundedLeaseDuration input.leaseDurationMs
  match ← findOne key with
  | some existing =>
    if existing.activeRegionId = regionId ∧ existing.leaseOwnerServiceId = serviceId ∧
        existing.status = .active ∧ now < existing.leaseExpiresAt then
      return existing
    else
      throw (.app 409 (if existing.leaseExpiresAt ≤ now then "REGION_AUTHORITY_LEASE_EXPIRED"
        else "REGION_WRITE_AUTHORITY_CONFLICT")
        "Write authority requires an explicit governed transfer." [])
  | none =>
    let leaseId ← orRandom input.leaseId "lease-"
    let transitionId ← orRandom input.transitionId "transition-"
    let authority ← initialAuthority input key regionId serviceId leaseId transitionId now
      leaseDurationMs
    let record ← createAuthority authority
    insertTransition record.lastTransitionId
    return record

def fenced (code message : String) : Failure := .app 409 code message []

def renewAuthority (input : RenewInput) (options : Options) : Flow Authority := do
  let now ← currentTime options
  let key ← authorityKey input.place
  let leaseDurationMs ← boundedLeaseDuration input.leaseDurationMs
  match ← findOneAndUpdate key (.renew input now leaseDurationMs) with
  | some record => return record
  | none => throw (fenced "REGION_WRITE_FENCED" "Regional write-authority renewal was fenced.")

def freezeAuthority (input : FreezeInput) (options : Options) : Flow Authority := do
  let now ← currentTime options
  let key ← authorityKey input.place
  match ← findOneAndUpdate key (.freeze input now) with
  | some record => return record
  | none =>
    throw (fenced "REGION_AUTHORITY_EPOCH_STALE" "Regional authority freeze was fenced.")

def recordTransition (transitionId : Text) : Flow Unit :=
  tryCatch (insertTransition transitionId) fun error =>
    if error = .duplicateKey then pure () else throw error

def transferAuthority (input : TransferInput) (options : Options) : Flow Authority := do
  assertNoSensitiveData input.sensitive
  throwWhen (!input.sourceFenced || !input.authorityStoreReachable)
    (fenced "REGION_SPLIT_BRAIN_PREVENTION_UNAVAILABLE"
      ("Authority transfer requires proven source fencing and a reachable durable " ++
        "authority store."))
  let now ← currentTime options
  let key ← authorityKey input.place
  throwWhen (input.sourceAuthorityEpoch < 1 ∨ 9007199254740991 < input.sourceAuthorityEpoch)
    (Failure.app 400 "REGION_AUTHORITY_EPOCH_INVALID" "Source authority epoch is invalid." [])
  let transitionId ← orRandom input.transitionId "transition-"
  let leaseDurationMs ← boundedLeaseDuration input.leaseDurationMs
  let leaseId ← orRandom input.leaseId "lease-"
  match ← findOneAndUpdate key (.transfer input transitionId leaseId now leaseDurationMs) with
  | some record =>
    recordTransition transitionId
    return record
  | none =>
    let reply ← Async.ask (.findReplay key transitionId input.targetRegionId
      (input.sourceAuthorityEpoch + 1))
    match ← reply with
    | some replay => return replay
    | none =>
      throw (fenced "REGION_AUTHORITY_EPOCH_STALE"
        "Regional authority transfer was fenced by a newer epoch.")

end GhostBridge.RegionalResilience
