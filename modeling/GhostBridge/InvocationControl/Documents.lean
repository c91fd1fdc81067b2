import GhostBridge.DurableWork.Invocations
import GhostBridge.Ecma.Json
import GhostBridge.Ecma.Outcome
import GhostBridge.Ecma.Sha256
import GhostBridge.Ecma.Text

/-!
# Idempotency of invocations

The digests under which a request is reserved: one of the key of the client, one of the request
itself.
-/

namespace GhostBridge.InvocationControl

open Ecma

inductive IdempotencyError where
  /-- `IDEMPOTENCY_KEY_INVALID`. -/
  | keyInvalid (message : String)
  /-- A `TypeError` of `canonicalize`. -/
  | typeError (message : String)
deriving DecidableEq

mutual
/-- `canonicalize(value)`, for plain data. -/
def canonicalize : Value → Except IdempotencyError Text
  | .null => pure (ascii "null")
  | .undefined => pure (ascii "undefined")
  | .string s => pure (Json.quote s)
  | .bool b => pure (if b then ascii "true" else ascii "false")
  | .number (.finite x) => pure (if x.isZero then ascii "0" else x.toText)
  | .number _ => throw (.typeError "Request values must be finite numbers.")
  | .array items => do
    let texts ← canonicalizeItems items
    pure (0x5b :: ([0x2c].intercalate texts ++ [0x5d]))
  | .object members => do
    let texts ← (Reordering.byName.order (canonicalizeMembers members)).mapM fun m => do
      let text ← m.2
      pure (Json.quote m.1 ++ 0x3a :: text)
    pure (0x7b :: ([0x2c].intercalate texts ++ [0x7d]))
def canonicalizeItems : List Value → Except IdempotencyError (List Text)
  | [] => pure []
  | item :: items => do
    let text ← canonicalize item
    let texts ← canonicalizeItems items
    pure (text :: texts)
def canonicalizeMembers : List (Text × Value) → List (Text × Except IdempotencyError Text)
  | [] => []
  | (key, value) :: members =>
    if value.isUndefined then canonicalizeMembers members
    else (key, canonicalize value) :: canonicalizeMembers members
end

def maxIdempotencyKeyLength : ℕ := 256

def hashPrefix : Text := ascii "hmac-sha256:"

/-- `hashingSecret()`, with `env.CREDENTIAL_ENCRYPTION_KEY`. -/
def hashingSecret (credentialEncryptionKey : Option Text) : Text :=
  match credentialEncryptionKey with
  | none | some [] => ascii "agent-passport-runtime-gateway:development-idempotency-hashing-only"
  | some key => key

def secureDigest (secret purpose value : Text) : Text :=
  hashPrefix ++ hexText (hmacSha256 (Utf8.encode secret)
    (Utf8.encode (ascii "ghost-bridge:" ++ purpose ++ ascii ":v1" ++ [0]) ++ Utf8.encode value))

structure ClientKey where
  value : Text
  clientProvided : Bool
deriving DecidableEq

/-- `normalizeClientKey(value)`, for a text or none, with the identifier that is drawn when there
is none. -/
def normalizeClientKey (uuid : Text) (value : Option Text) : Except IdempotencyError ClientKey :=
  match value with
  | none | some [] => pure ⟨uuid, false⟩
  | some value => do
    let normalized := value.trimmed
    throwWhen (normalized.isEmpty || decide (maxIdempotencyKeyLength < normalized.length))
      (.keyInvalid "Idempotency-Key must contain between 1 and 256 characters.")
    pure ⟨normalized, true⟩

/-- What `createInvocationIdempotency` returns. -/
structure Idempotency where
  scope : Text
  keyHash : Text
  requestFingerprint : Text
  clientProvided : Bool
deriving DecidableEq

structure IdempotencyRequest where
  clientKey : Option Text
  connectionId : Text
  capability : Text
  input : Value

def createInvocationIdempotency (secret uuid : Text) (request : IdempotencyRequest) :
    Except IdempotencyError Idempotency := do
  let normalizedKey ← normalizeClientKey uuid request.clientKey
  let normalizedRequest ← canonicalize (.object
    [(ascii "capability", .string request.capability),
      (ascii "connectionId", .string request.connectionId), (ascii "input", request.input)])
  pure
    { scope := ascii "runtime.invoke:" ++ request.connectionId
      keyHash := secureDigest secret (ascii "idempotency-key") normalizedKey.value
      requestFingerprint := secureDigest secret (ascii "invocation-request") normalizedRequest
      clientProvided := normalizedKey.clientProvided }

theorem createInvocationIdempotency_clientProvided {secret uuid : Text}
    {request : IdempotencyRequest} {idempotency : Idempotency}
    (h : createInvocationIdempotency secret uuid request = .ok idempotency) :
    idempotency.clientProvided = true ↔ ∃ key, request.clientKey = some key ∧ key ≠ [] := by
  simp only [createInvocationIdempotency, bind_ok, pure_ok] at h
  obtain ⟨key, hkey, -, -, rfl⟩ := h
  rcases hclient : request.clientKey with _ | (_ | ⟨u, rest⟩)
  · simp only [normalizeClientKey, hclient, pure_ok] at hkey
    simp [← hkey]
  · simp only [normalizeClientKey, hclient, pure_ok] at hkey
    simp [← hkey]
  · simp only [normalizeClientKey, hclient, bind_ok, exists_unit, pure_ok] at hkey
    obtain ⟨-, rfl⟩ := hkey
    simp

end GhostBridge.InvocationControl

/-!
## Invocations under control

An invocation with the fields by which it is cancelled, scanned and recovered. The operations of
durable work change it as they change an invocation without these fields.
-/

namespace GhostBridge.InvocationControl

open Ecma DurableWork

/-- The enumeration of `status`. -/
inductive LegacyStatus where
  | queued
  | running
  | completed
  | failed
deriving DecidableEq

/-- `LIFECYCLE_STATE_TO_LEGACY_STATUS`. -/
def legacyStatusForState : InvocationState → LegacyStatus
  | .accepted | .validating | .authorized | .waitingForApproval | .retryScheduled => .queued
  | .running | .waitingForRuntime => .running
  | .succeeded => .completed
  | .failed | .cancelled | .timedOut | .recoveryRequired => .failed

/-- `INVOCATION_CANCELLATION_OUTCOMES`. -/
inductive CancellationOutcome where
  | notApplicable
  | localConfirmed
  | remoteConfirmed
  | remoteUnconfirmed
deriving DecidableEq

/-- `INVOCATION_RECOVERY_DECISIONS`. -/
inductive RecoveryDecision where
  | notEvaluated
  | retryAllowed
  | retryDenied
  | resolveAsFailedAllowed
  | resolveAsCancelledAllowed
  | markSucceededAllowed
  | operatorReviewRequired
deriving DecidableEq

/-- `INVOCATION_STUCK_CLASSIFICATIONS`. -/
inductive StuckClassification where
  | notStuck
  | staleBeforeRuntime
  | externalRuntimeOverdue
  | leaseExpired
  | finalizationStalled
  | shutdownInterrupted
  | outcomeAmbiguous
deriving DecidableEq

def activeStates : List InvocationState :=
  [.accepted, .validating, .authorized, .running, .waitingForRuntime]

structure Invocation extends DurableWork.Invocation where
  status : LegacyStatus
  capability : Text
  inputSummary : Value
  clientIdempotencyProvided : Bool := false
  idempotencyKeyHash : Option Text := none
  requestFingerprint : Option Text := none
  /-- `error?.code`. -/
  errorCode : Option Text := none
  cancellationOutcome : CancellationOutcome := .notApplicable
  recoveryReasonCode : Option Text := none
  recoveryDecision : RecoveryDecision := .notEvaluated
  recoveryDecisionReason : Option Text := none
  recoveryClaimId : Option Text := none
  recoveryClaimExpiresAt : Option Int := none
  recoveryRetrySequence : ℕ := 0
  recoveryChildInvocationId : Option Text := none
  stuckClassification : StuckClassification := .notStuck
  lastProgressAt : Option Int := none
  runtimeDeadlineAt : Option Int := none
  updatedAt : Int
  version : ℕ := 0

/-- `{ _id, receivingWorkspaceId }` of an invocation that was read. -/
def isReading (current candidate : Invocation) : Bool :=
  candidate.id == current.id && candidate.receivingWorkspaceId == current.receivingWorkspaceId

/-- An update of one document: whom it finds, and what it makes of him. -/
structure Write where
  filter : Invocation → Bool
  update : Invocation → Invocation

/-- `findOneAndUpdate(filter, update)`, when the document is the one that the filter names. -/
def Write.apply (write : Write) (invocation : Invocation) : Invocation :=
  if write.filter invocation then write.update invocation else invocation

/-- The fields of `options.outcome` that control reads. -/
structure Outcome extends DurableWork.Outcome where
  errorCode : Option Text := none

/-- The changes that `transitionUpdate` describes. -/
def transitionUpdate (fromState toState : InvocationState) (options : EntryOptions)
    (outcome : Outcome := {}) : Checked (Invocation → Invocation) := do
  let update ← DurableWork.transitionUpdate fromState toState options outcome.toOutcome
  pure fun invocation =>
    { invocation with
      toInvocation := update invocation.toInvocation
      status := legacyStatusForState toState
      errorCode := outcome.errorCode.or invocation.errorCode
      lastProgressAt :=
        if isTerminalState toState then some options.now else invocation.lastProgressAt
      recoveryReasonCode :=
        if toState = .recoveryRequired then options.reasonCode else invocation.recoveryReasonCode
      recoveryDecision :=
        if toState = .recoveryRequired then .operatorReviewRequired
        else invocation.recoveryDecision
      recoveryDecisionReason :=
        if toState = .recoveryRequired then some (ascii "REQUIRES_OPERATOR_REVIEW")
        else invocation.recoveryDecisionReason
      version := invocation.version + 1 }

end GhostBridge.InvocationControl
