import GhostBridge.Ecma.Regex
import GhostBridge.Machine.Counts
import GhostBridge.Machine.Threads
import GhostBridge.ProductionScale.Admission
import GhostBridge.ProductionScale.Routing

/-!
# Reservations of quota

A reservation holds a slot of its organization and one of its workspace while it is reserved or
consumed.
-/

namespace GhostBridge.ProductionScale

open Ecma Machine

inductive ReservationStatus where
  | reserved
  | consumed
  | released
  | expired
deriving DecidableEq

/-- `ACTIVE_RESERVATION_STATUSES`. -/
def ReservationStatus.isActive : ReservationStatus → Bool
  | reserved | consumed => true
  | released | expired => false

/-- `WorkloadQuotaReservation`. -/
structure Reservation where
  id : ℕ
  organizationId : Text
  workspaceId : Text
  reservationType : Text
  workloadCategory : Text
  idempotencyKey : Text
  tenantSlotNumber : ℕ
  workspaceSlotNumber : ℕ
  status : ReservationStatus
  expiresAt : Int
deriving DecidableEq

namespace Reservation

/-- Two documents that a unique index keeps apart: of `_id`, of the idempotency key, and of the
slots while both are active. -/
def clashes (a b : Reservation) : Bool :=
  a.id = b.id ∨
    a.organizationId = b.organizationId ∧ a.workspaceId = b.workspaceId ∧
      a.idempotencyKey = b.idempotencyKey ∨
    a.status.isActive ∧ b.status.isActive ∧ a.organizationId = b.organizationId ∧
      a.reservationType = b.reservationType ∧ a.tenantSlotNumber = b.tenantSlotNumber ∨
    a.status.isActive ∧ b.status.isActive ∧ a.organizationId = b.organizationId ∧
      a.workspaceId = b.workspaceId ∧ a.reservationType = b.reservationType ∧
      a.workspaceSlotNumber = b.workspaceSlotNumber

/-- `{ organizationId, reservationType, status: { $in: ACTIVE_RESERVATION_STATUSES } }`. -/
def ofTenant (organizationId reservationType : Text) (r : Reservation) : Bool :=
  r.organizationId = organizationId ∧ r.reservationType = reservationType ∧ r.status.isActive

def ofWorkspace (organizationId workspaceId reservationType : Text) (r : Reservation) : Bool :=
  r.organizationId = organizationId ∧ r.workspaceId = workspaceId ∧
    r.reservationType = reservationType ∧ r.status.isActive

end Reservation

def reservationTypes : List Text :=
  [ascii "queued_run", ascii "active_run", ascii "queued_node", ascii "active_node",
    ascii "invocation", ascii "compensation", ascii "recovery"]

inductive QuotaFailure where
  | scale (failure : ScaleFailure)
  /-- The validators of the schema, or a cast, refuse a path. -/
  | invalid (path : String)
  /-- `E11000`. -/
  | duplicateKey
  | unavailable
deriving DecidableEq

structure ReserveInput where
  organizationId : Text
  workspaceId : Text
  reservationType : Text
  workloadCategory : Text
  idempotencyKey : Text
  tenantMaximum : Option Numeral
  workspaceMaximum : Option Numeral
  expiresAt : Option Int := none
  refused : Option String := none

namespace ReserveInput

def organization (input : ReserveInput) : Text := input.organizationId.trimmed

def workspace (input : ReserveInput) : Text := input.workspaceId.trimmed

/-- `WorkloadQuotaReservation.create`: the document that it would store. -/
def document (input : ReserveInput) (id tenantSlotNumber workspaceSlotNumber : ℕ)
    (expiresAt : Int) : Reservation where
  id := id
  organizationId := input.organization
  workspaceId := input.workspace
  reservationType := input.reservationType
  workloadCategory := input.workloadCategory
  idempotencyKey := input.idempotencyKey
  tenantSlotNumber := tenantSlotNumber
  workspaceSlotNumber := workspaceSlotNumber
  status := .reserved
  expiresAt := expiresAt

def validate (input : ReserveInput) : Except QuotaFailure Unit := do
  throwWhen input.organization.isEmpty (.invalid "organizationId")
  throwWhen input.workspace.isEmpty (.invalid "workspaceId")
  throwWhen (!reservationTypes.contains input.reservationType) (.invalid "reservationType")
  throwWhen (!(WorkloadCategory.all.any fun category =>
    ascii category.name == input.workloadCategory)) (.invalid "workloadCategory")
  match input.refused with
  | some path => .error (.invalid path)
  | none => .ok ()

end ReserveInput

inductive QuotaOp where
  /-- `Date.now()` and `new Date()`. -/
  | clock
  /-- `findOne({ organizationId, workspaceId, idempotencyKey })`. -/
  | findReplay (input : ReserveInput)
  /-- `distinct('tenantSlotNumber', ...)`. -/
  | tenantSlots (input : ReserveInput)
  /-- `distinct('workspaceSlotNumber', ...)`. -/
  | workspaceSlots (input : ReserveInput)
  | create (input : ReserveInput) (tenantSlotNumber workspaceSlotNumber : ℕ) (expiresAt : Int)
  /-- The update of `releaseQuotaReservation`. -/
  | release (id : ℕ) (expired : Bool)
  /-- The update of `consumeQuotaReservation`. -/
  | consume (id : ℕ) (now : Int)
  /-- The `updateMany` of `recoverExpiredQuotaReservations`. -/
  | recover (now : Int)
  | audit (action : String)
  /-- `WorkloadAdmissionDecision.create`. -/
  | createDecision (outcome : AdmissionOutcome) (quotaReservationId : Option ℕ)

abbrev QuotaReply : QuotaOp → Type
  | .clock => Int
  | .findReplay _ => Except QuotaFailure (Option Reservation)
  | .tenantSlots _ => Except QuotaFailure (List ℕ)
  | .workspaceSlots _ => Except QuotaFailure (List ℕ)
  | .create _ _ _ _ => Except QuotaFailure Reservation
  | .release _ _ => Except QuotaFailure (Option Reservation)
  | .consume _ _ => Except QuotaFailure (Option Reservation)
  | .recover _ => Except QuotaFailure ℕ
  | .audit _ => Except QuotaFailure Unit
  | .createDecision _ _ => Except QuotaFailure Unit

abbrev QuotaFlow := Async QuotaOp QuotaReply QuotaFailure

structure QuotaStore where
  clock : Int
  reservations : List Reservation

structure QuotaAnswer where
  /-- How long the clock has gone on before the operation. -/
  elapsed : ℕ := 0
  unavailable : Bool := false
  /-- The `_id` that a new document is given. -/
  id : ℕ := 0

namespace QuotaStore

def findReplay (store : QuotaStore) (input : ReserveInput) : Option Reservation :=
  store.reservations.find? fun r =>
    r.organizationId = input.organization ∧ r.workspaceId = input.workspace ∧
      r.idempotencyKey = input.idempotencyKey

def tenantSlots (store : QuotaStore) (input : ReserveInput) : List ℕ :=
  (store.reservations.filter (Reservation.ofTenant input.organization input.reservationType)).map
    Reservation.tenantSlotNumber

def workspaceSlots (store : QuotaStore) (input : ReserveInput) : List ℕ :=
  (store.reservations.filter (Reservation.ofWorkspace input.organization input.workspace
    input.reservationType)).map Reservation.workspaceSlotNumber

def insert (store : QuotaStore) (reservation : Reservation) :
    Except QuotaFailure Reservation × QuotaStore :=
  if store.reservations.any reservation.clashes then (.error .duplicateKey, store)
  else (.ok reservation, { store with reservations := store.reservations ++ [reservation] })

def setStatus (store : QuotaStore) (filter : Reservation → Bool) (status : ReservationStatus) :
    QuotaStore :=
  { store with reservations := store.reservations.map fun r =>
      if filter r then { r with status := status } else r }

/-- `findOneAndUpdate` by `_id`, with `new: true`. -/
def updateStatus (store : QuotaStore) (filter : Reservation → Bool) (status : ReservationStatus) :
    Option Reservation × QuotaStore :=
  ((store.reservations.find? filter).map fun r => { r with status := status },
    store.setStatus filter status)

end QuotaStore

/-- The filter of `releaseQuotaReservation`. -/
def releasable (id : ℕ) (r : Reservation) : Bool := r.id = id ∧ r.status.isActive

/-- The filter of `consumeQuotaReservation`. -/
def consumable (id : ℕ) (now : Int) (r : Reservation) : Bool :=
  r.id = id ∧ r.status = .reserved ∧ now < r.expiresAt

/-- The filter of `recoverExpiredQuotaReservations`. -/
def recoverable (now : Int) (r : Reservation) : Bool := r.status = .reserved ∧ r.expiresAt ≤ now

def QuotaAnswer.available {α : Type} (answer : QuotaAnswer) (store : QuotaStore)
    (result : Except QuotaFailure α × QuotaStore) : Except QuotaFailure α × QuotaStore :=
  if answer.unavailable then (.error .unavailable, store) else result

def performQuotaAt (store : QuotaStore) :
    (op : QuotaOp) → QuotaAnswer → QuotaReply op × QuotaStore
  | .clock, _ => (store.clock, store)
  | .findReplay input, answer => answer.available store (.ok (store.findReplay input), store)
  | .tenantSlots input, answer => answer.available store (.ok (store.tenantSlots input), store)
  | .workspaceSlots input, answer => answer.available store (.ok (store.workspaceSlots input), store)
  | .create input tenantSlotNumber workspaceSlotNumber expiresAt, answer =>
    answer.available store <|
      match input.validate with
      | .error e => (.error e, store)
      | .ok () =>
        store.insert (input.document answer.id tenantSlotNumber workspaceSlotNumber expiresAt)
  | .release id expired, answer =>
    let result := store.updateStatus (releasable id) (if expired then .expired else .released)
    answer.available store (.ok result.1, result.2)
  | .consume id now, answer =>
    let result := store.updateStatus (consumable id now) .consumed
    answer.available store (.ok result.1, result.2)
  | .recover now, answer =>
    answer.available store
      (.ok (store.reservations.countP (recoverable now)), store.setStatus (recoverable now) .expired)
  | .audit _, answer => answer.available store (.ok (), store)
  | .createDecision _ _, answer => answer.available store (.ok (), store)

def performQuota : Perform QuotaStore QuotaOp QuotaAnswer QuotaReply :=
  fun store op answer => performQuotaAt { store with clock := store.clock + answer.elapsed } op answer

/-- `/^sha256:[a-f0-9]{64}$/`. -/
def quotaKeyPattern : Regex :=
  .sequence [.literal (ascii "sha256:"),
    .sequence (List.replicate 64 (.oneOf (ascii "0123456789abcdef")))]

def findReplay (input : ReserveInput) : QuotaFlow (Option Reservation) := do
  let reply ← Async.ask (.findReplay input)
  reply

def slotMaximum (value : Option Numeral) (path : String) :
    Except QuotaFailure (Bounded 1 1000000) :=
  (boundedInteger value path 1 1000000 none).mapError .scale

/-- What `reserveQuota` returns. -/
structure Reserved where
  reservation : Reservation
  replayed : Bool

def tenantQuotaExceeded : QuotaFailure :=
  .scale (.app 429 "TENANT_QUEUE_QUOTA_EXCEEDED" "Tenant workload quota is exhausted.")

def workspaceQuotaExceeded : QuotaFailure :=
  .scale (.app 429 "WORKSPACE_QUEUE_QUOTA_EXCEEDED" "Workspace workload quota is exhausted.")

def freeSlots (input : ReserveInput) (tenantMaximum workspaceMaximum : ℕ) :
    QuotaFlow (ℕ × ℕ) := do
  let tenantReply ← Async.ask (.tenantSlots input)
  let tenantTaken ← tenantReply
  let workspaceReply ← Async.ask (.workspaceSlots input)
  let workspaceTaken ← workspaceReply
  let tenantSlotNumber ← orThrow tenantQuotaExceeded (firstFree tenantTaken tenantMaximum)
  let workspaceSlotNumber ←
    orThrow workspaceQuotaExceeded (firstFree workspaceTaken workspaceMaximum)
  return (tenantSlotNumber, workspaceSlotNumber)

/-- `input.expiresAt || new Date(Date.now() + 30 * 60_000)`. -/
def reservationExpiry (input : ReserveInput) : QuotaFlow Int :=
  match input.expiresAt with
  | some expiresAt => pure expiresAt
  | none => do
    let now : Int ← Async.ask QuotaOp.clock
    return now + 1800000

def reserveSlots (input : ReserveInput) (tenantMaximum workspaceMaximum : ℕ) :
    (attempts : ℕ) → QuotaFlow Reserved
  | 0 => throw (.scale (.app 503 "QUOTA_RESERVATION_CONFLICT"
      "Quota reservation is temporarily contended."))
  | attempts + 1 => do
    let (tenantSlotNumber, workspaceSlotNumber) ← freeSlots input tenantMaximum workspaceMaximum
    let expiresAt ← reservationExpiry input
    let created : Except QuotaFailure Reservation ←
      Async.ask (QuotaOp.create input tenantSlotNumber workspaceSlotNumber expiresAt)
    match created with
    | .ok reservation => return ⟨reservation, false⟩
    | .error .duplicateKey =>
      match ← findReplay input with
      | some replay => return ⟨replay, true⟩
      | none => reserveSlots input tenantMaximum workspaceMaximum attempts
    | .error e => throw e

def reserveQuota (input : ReserveInput) : QuotaFlow Reserved := do
  throwWhen (!quotaKeyPattern.accepts input.idempotencyKey) (QuotaFailure.scale
    (.validation "idempotencyKey" "idempotencyKey must be a safe SHA-256 digest."))
  match ← findReplay input with
  | some existing => return ⟨existing, true⟩
  | none =>
    let tenantMaximum ← slotMaximum input.tenantMaximum "tenantMaximum"
    let workspaceMaximum ← slotMaximum input.workspaceMaximum "workspaceMaximum"
    reserveSlots input tenantMaximum workspaceMaximum 32

structure QuotaOptions where
  now : Option Int := none

def quotaTime (options : QuotaOptions) : QuotaFlow Int :=
  match options.now with
  | some now => pure now
  | none => Async.ask QuotaOp.clock

def auditQuota (action : String) : QuotaFlow Unit := do
  let reply ← Async.ask (.audit action)
  reply

/-- `audited` when the input has a scope. -/
def releaseQuotaReservation (id : ℕ) (expired audited : Bool) : QuotaFlow (Option Reservation) := do
  let reply ← Async.ask (.release id expired)
  let updated ← reply
  match updated, audited with
  | some _, true =>
    auditQuota "production_scale.quota.released"
    return updated
  | _, _ => return updated

def consumeQuotaReservation (id : ℕ) (options : QuotaOptions) : QuotaFlow (Option Reservation) := do
  let now ← quotaTime options
  let reply ← Async.ask (.consume id now)
  reply

def recoverExpiredQuotaReservations (options : QuotaOptions) : QuotaFlow ℕ := do
  let now ← quotaTime options
  let reply ← Async.ask (.recover now)
  reply

/-- What `evaluateAdmission` has read and computed before it reserves quota. -/
structure AdmissionRequest where
  assessment : AdmissionInput
  reserve : ReserveInput

structure AdmissionResult where
  outcome : AdmissionOutcome
  quotaReservationId : Option ℕ

def AdmissionDecision.isAccepted (decision : AdmissionDecision) : Bool :=
  decision = .accepted ∨ decision = .acceptedDeferred

def withoutQuota (outcome : AdmissionOutcome) :
    QuotaFailure → QuotaFlow (Option Reservation × AdmissionOutcome)
  | .scale (.app status code message) =>
    if code = "TENANT_QUEUE_QUOTA_EXCEEDED" ∨ code = "WORKSPACE_QUEUE_QUOTA_EXCEEDED" then do
      auditQuota "production_scale.quota.exceeded"
      return (none, { outcome with
        decision := .rejectedQuota
        safeReasonCode := ascii code
        httpStatus := some 429 })
    else throw (.scale (.app status code message))
  | e => throw e

def reserveForAdmission (input : ReserveInput) (outcome : AdmissionOutcome) :
    QuotaFlow (Option Reservation × AdmissionOutcome) :=
  tryCatch (do
    let reserved ← reserveQuota input
    if reserved.replayed then return (some reserved.reservation, outcome)
    else
      auditQuota "production_scale.quota.reserved"
      return (some reserved.reservation, outcome)) (withoutQuota outcome)

def admissionReservation (request : AdmissionRequest) (assessed : AdmissionOutcome) :
    QuotaFlow (Option Reservation × AdmissionOutcome) :=
  if assessed.decision.isAccepted then reserveForAdmission request.reserve assessed
  else pure (none, assessed)

def recordDecision (reservation : Option Reservation) (outcome : AdmissionOutcome) :
    QuotaFlow Unit := do
  let created : Except QuotaFailure Unit ←
    Async.ask (QuotaOp.createDecision outcome (reservation.map Reservation.id))
  match created with
  | .ok () => return ()
  | .error e =>
    match reservation with
    | some reservation =>
      let _ ← (releaseQuotaReservation reservation.id false true).attempt
      throw e
    | none => throw e

def admissionAudit (outcome : AdmissionOutcome) : String :=
  match outcome.decision with
  | .accepted => "production_scale.admission.accepted"
  | .acceptedDeferred => "production_scale.admission.deferred"
  | _ => "production_scale.admission.rejected"

def evaluateAdmission (request : AdmissionRequest) : QuotaFlow AdmissionResult := do
  let assessed ← (evaluateAdmissionOutcome request.assessment).mapError QuotaFailure.scale
  let (reservation, outcome) ← admissionReservation request assessed
  recordDecision reservation outcome
  auditQuota (admissionAudit outcome)
  return ⟨outcome, reservation.map Reservation.id⟩

end GhostBridge.ProductionScale
