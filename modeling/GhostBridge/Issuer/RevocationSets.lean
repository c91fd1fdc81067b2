import GhostBridge.Trust.AntiRollback
import GhostBridge.Trust.SignedRevocation

/-!
# The revocation sets of an issuer

A toolkit chains its revocation sets.
-/

namespace GhostBridge.Issuer

open Ecma Machine Trust

structure IssuerToolkit where
  issuerId : Text
  protocolVersion : Value
  issuerId_nonempty : issuerId ≠ []
  protocolVersion_truthy : protocolVersion.isTruthy = true

/-- `this.revocationSequence` and `this.lastRevocationSet`. -/
structure RevocationState where
  revocationSequence : ℕ
  lastRevocationSet : Option Value
deriving DecidableEq

/-- The input of `signRevocationSet`. -/
structure RevocationInput where
  sequence : Value := .undefined
  revocationSetId : Value := .undefined
  generatedAt : Value := .undefined
  nextUpdate : Value := .undefined
  status : Value := .undefined
  entries : Value := .undefined
  extensions : Value := .undefined

/-- A call of `signRevocationSet`: the input, what `keyProvider.signer(keyId)` answers, and the
time in the format of ISO 8601. -/
structure RevocationRequest where
  input : RevocationInput
  signer : Checked Signer
  now : Text

def requestedSequence (state : RevocationState) (input : RevocationInput) : Checked (Value × ℕ) := do
  let value := input.sequence.orElse (.number (.ofNat (state.revocationSequence + 1)))
  let rollback := trustError .revocationRollback
    "Revocation-set sequences must increase monotonically."
  let sequence ← orThrow rollback value.safeInteger?
  throwWhen (sequence ≤ state.revocationSequence) rollback
  pure (value, sequence.toNat)

def previousSetDigest (state : RevocationState) : Checked Text :=
  match state.lastRevocationSet with
  | some last => documentDigest last
  | none => pure (ascii "none")

def defaultSetId (sequence : Value) : Text :=
  ascii "revocations_" ++ (sequence.toText?.getD [])

def revocationPayload (toolkit : IssuerToolkit) (input : RevocationInput) (now : Text)
    (sequence : Value) (previousSetDigest : Text) : Value :=
  .object [(ascii "protocolVersion", toolkit.protocolVersion),
    (ascii "trustProfileVersion", .string (ascii "ghostbridge-trust/0.1-draft")),
    (ascii "revocationSetId", input.revocationSetId.orElse (.string (defaultSetId sequence))),
    (ascii "issuer", .string toolkit.issuerId),
    (ascii "sequence", sequence),
    (ascii "generatedAt", input.generatedAt.orElse (.string now)),
    (ascii "nextUpdate", input.nextUpdate),
    (ascii "status", input.status.orElse (.string (ascii "active"))),
    (ascii "previousSetDigest", .string previousSetDigest),
    (ascii "entries", input.entries.orElse (.array [])),
    (ascii "extensions", input.extensions.orElse (.object []))]

structure PendingSet where
  request : RevocationRequest
  found : RevocationState
  sequence : ℕ
  payload : Value
  signer : Signer

def beginRevocationSet (toolkit : IssuerToolkit) (state : RevocationState)
    (request : RevocationRequest) : Checked PendingSet := do
  let (value, sequence) ← requestedSequence state request.input
  let digest ← previousSetDigest state
  let signer ← request.signer
  pure ⟨request, state, sequence,
    revocationPayload toolkit request.input request.now value digest, signer⟩

/-- `await signDocument(payload, this.keyProvider.signer(keyId), { purpose: 'revocation_signing' })`. -/
def PendingSet.sign (host : Host) (pending : PendingSet) : Checked Value :=
  signDocument host pending.payload pending.signer { purpose := revocationSigning }

/-- The toolkit, the calls that wait, and the sets that were issued, the oldest first. -/
structure IssuerWorld where
  state : RevocationState
  pending : ℕ → Option PendingSet
  issued : List Value

def IssuerWorld.initial : IssuerWorld := ⟨⟨0, none⟩, fun _ => none, []⟩

inductive IssuerStep where
  | start (call : ℕ) (request : RevocationRequest)
  /-- The signature of the call of this number has been made. -/
  | finish (call : ℕ)

def issuerStep (host : Host) (toolkit : IssuerToolkit) (world : IssuerWorld) :
    IssuerStep → IssuerWorld
  | .start call request =>
    match beginRevocationSet toolkit world.state request with
    | .error _ => world
    | .ok pending => { world with pending := Function.update world.pending call (some pending) }
  | .finish call =>
    match world.pending call with
    | none => world
    | some pending =>
      let rest := Function.update world.pending call none
      match pending.sign host with
      | .error _ => { world with pending := rest }
      | .ok signed =>
        { state := ⟨pending.sequence, some signed⟩
          pending := rest
          issued := world.issued ++ [signed] }

/-- A verifier of one issuer: the set it has accepted last, its cache and its store. -/
structure Verifier where
  previousSet : Option RevocationSet
  cache : RevocationCache
  store : AntiRollbackStore

def Verifier.create (maximumEntries : Option Int) : Verifier :=
  ⟨none, .create maximumEntries, .create⟩

def setObservation (issuer : Text) (document : Value) (digest : Text) : Observation where
  documentKind := ascii "revocation"
  issuer := issuer
  sequence := document.field (ascii "sequence")
  documentOrDigest := .string digest
  contiguous := true
  previousDigest := document.field (ascii "previousSetDigest")

/-- `validateRevocationSet`, `RevocationCache.put` and `AntiRollbackStore.observe`. -/
def Verifier.accept (host : Host) (jwks : Value) (issuer : Text) (verifier : Verifier)
    (document : Value) : Checked Verifier :=
  match h : validateRevocationSet host document jwks { previousSet := verifier.previousSet } with
  | .error failure => .error failure
  | .ok verification => do
    let set := RevocationSet.ofValidated h
    let (stored, cache) := verifier.cache.put issuer set verification
    let _ ← stored
    let (observed, store) :=
      verifier.store.observe (setObservation issuer document verification.digest)
    let _ ← observed
    pure ⟨some set, cache, store⟩

end GhostBridge.Issuer
