import GhostBridge.Ecma.Sha256
import GhostBridge.ProtocolCore.PlainData
import GhostBridge.ProtocolCore.Versions
import GhostBridge.Trust.AntiRollback
import GhostBridge.Trust.Manifest
import GhostBridge.Trust.Policy
import GhostBridge.Trust.Revocation

/-!
# Verification by a client

What a client verifies before it installs an agent: the passport with its issuer, the capability
manifest, the install resolution, the connection offer, and the revocation set of the issuer.
-/

namespace GhostBridge.NativeClient

open Ecma Trust

/-- `this.trust`. -/
structure TrustSettings where
  /-- `required === true`. -/
  required : Bool
  hostAudience : Value
  organizationPolicy : TrustPolicyInput
  workspacePolicy : Option TrustPolicyInput := none
  metadata : Value := .undefined
  jwks : Value := .undefined
  revocationSet : Value := .undefined
  verify : VerifyOptions := {}
  maximumEntries : Option ℕ := none
  previousSet : Option RevocationSet := none
  allowSignedCheckpoint : Bool := false

/-- What the network answers, and what the validators of documents say, in one call of the
client. -/
structure Services where
  /-- `validatePassport(passport)`. -/
  validatePassport : Value → Checked Unit
  /-- `this.getIssuerMetadata(issuerId)`. -/
  getIssuerMetadata : Value → Checked Value
  /-- `validateIssuerMetadata(metadata, { expectedIssuer })`. -/
  validateIssuerMetadata : Value → Value → Checked Value
  /-- `this.getIssuerKeys(metadata)`. -/
  getIssuerKeys : Value → Checked Value
  /-- `this.request(metadata.revocationSetUri)`. -/
  requestRevocationSet : Value → Checked Value

/-- The caches of the client against the return of older documents. -/
structure TrustState where
  revocationCache : RevocationCache
  trustAntiRollback : AntiRollbackStore

def orAnswer (value : Value) (answer : Checked Value) : Checked Value :=
  if value.isTruthy then pure value else answer

/-- What `verifyPassport` returns. -/
structure PassportTrust where
  metadataProof : VerificationResult
  proof : VerificationResult
  policy : TrustResult
  metadata : Value
  jwks : Value

def textMember (document : Value) (name : String) : Text :=
  match document.field (ascii name) with
  | .string text => text
  | _ => []

def textOf : Value → Text
  | .string text => text
  | _ => []

section Verification

variable (host : Host) (settings : TrustSettings) (services : Services)

/-- The options of `verifyDocument`, for a purpose and an issuer. -/
def verifyOptions (purpose : String) (expectedIssuer : Value) : VerifyOptions :=
  { settings.verify with purpose := .string (ascii purpose), expectedIssuer := expectedIssuer }

def verifyPassport (passport : Value) (highImpact : Bool) : Checked PassportTrust := do
  services.validatePassport passport
  let issuer := passport.field (ascii "issuer")
  let rawMetadata ← orAnswer settings.metadata (services.getIssuerMetadata issuer)
  let metadata ← services.validateIssuerMetadata rawMetadata issuer
  let rawJwks ← orAnswer settings.jwks (services.getIssuerKeys metadata)
  let validated ← validateJwks host rawJwks settings.verify.toKeyOptions
  let jwks := withMember validated.jwks (ascii "keys") (.array validated.keys)
  let issuerId := metadata.field (ascii "issuerId")
  let (metadataProof, _) ← verifyDocument host metadata jwks
    (verifyOptions settings "issuer_metadata" issuerId)
  throwWhen (!includes (asList (metadata.field (ascii "rootKeyThumbprints")))
      metadataProof.keyThumbprint)
    (trustError .issuerMetadataInvalid "Issuer metadata was not signed by a declared root key.")
  let (proof, _) ← verifyDocument host passport jwks
    (verifyOptions settings "passport_signing" issuerId)
  let policy ← evaluateTrustPolicy settings.organizationPolicy settings.workspacePolicy
    { issuerId := textOf issuerId
      rootKeyThumbprint := textOf metadataProof.keyThumbprint
      highImpact := highImpact }
  pure ⟨metadataProof, proof, policy, metadata, jwks⟩

def verifyCapabilityManifest (manifest : Value) (contracts : List Value) (passport : Value)
    (passportTrust : PassportTrust) : Checked Value :=
  validateCapabilityManifest host manifest contracts passport
    { settings.verify with jwks := passportTrust.jwks }

def verifyScopedTrustObject (document : Value) (purpose : String) (passportTrust : PassportTrust) :
    Checked VerificationResult := do
  let (result, _) ← verifyDocument host document passportTrust.jwks
    { verifyOptions settings purpose (passportTrust.metadata.field (ascii "issuerId")) with
      expectedAudience := settings.hostAudience }
  pure result

def verifyInstallResolution (resolution : Value) (passportTrust : PassportTrust) :
    Checked VerificationResult :=
  verifyScopedTrustObject host settings resolution "install_resolution_signing" passportTrust

def verifyConnectionOffer (connectionOffer : Value) (passportTrust : PassportTrust) :
    Checked VerificationResult :=
  verifyScopedTrustObject host settings connectionOffer "connection_offer_signing" passportTrust

structure CurrentRevocation where
  document : Value
  verification : RevocationVerification

def revocationOptions (issuerId document : Value) (previous : Option RevocationRecord) :
    RevocationOptions where
  toVerifyOptions := { settings.verify with expectedIssuer := issuerId }
  maximumEntries := settings.maximumEntries
  minimumSequence := previous.map (·.set.sequence)
  previousSet := ((previous.map RevocationRecord.set).filter fun set =>
    (document.field (ascii "sequence")).safeInteger?.any (set.sequence < ·)).or
      settings.previousSet
  allowSignedCheckpoint := settings.allowSignedCheckpoint || previous.any fun record =>
    (document.field (ascii "sequence")).safeInteger? == some record.set.sequence

def revocationObservation (issuer : Text) (document : Value) (digest : Text) (contiguous : Bool) :
    Observation where
  documentKind := ascii "revocation"
  issuer := issuer
  sequence := document.field (ascii "sequence")
  documentOrDigest := .string digest
  contiguous := contiguous
  previousDigest := document.field (ascii "previousSetDigest")

def admitRevocationSet (state : TrustState) (issuer : Text) (set : RevocationSet)
    (verification : RevocationVerification) : Checked Unit × TrustState :=
  let previous := state.revocationCache.get issuer
  let (observed, trustAntiRollback) := state.trustAntiRollback.observe
    (revocationObservation issuer set.document verification.digest previous.isSome)
  match observed with
  | .error failure => (.error failure, { state with trustAntiRollback := trustAntiRollback })
  | .ok _ =>
    if previous.all fun record => decide (record.set.sequence < set.sequence) then
      let (stored, revocationCache) := state.revocationCache.put issuer set verification
      (stored.map fun _ => (), ⟨revocationCache, trustAntiRollback⟩)
    else (.ok (), { state with trustAntiRollback := trustAntiRollback })

def getRevocationSet (state : TrustState) (passportTrust : PassportTrust) :
    Checked CurrentRevocation × TrustState :=
  let metadata := passportTrust.metadata
  let issuerId := metadata.field (ascii "issuerId")
  match orAnswer settings.revocationSet (services.requestRevocationSet metadata) with
  | .error failure => (.error failure, state)
  | .ok document =>
    let options := revocationOptions settings issuerId document
      (state.revocationCache.get (textOf issuerId))
    match h : validateRevocationSet host document passportTrust.jwks options with
    | .error failure => (.error failure, state)
    | .ok verification =>
      let (admitted, next) := admitRevocationSet state (textOf issuerId)
        (RevocationSet.ofValidated h) verification
      (admitted.map fun _ => ⟨document, verification⟩, next)

end Verification

end GhostBridge.NativeClient

/-!
## Installation by a client

A client previews an installation, which verifies what the agent shows, and redeems the install
grant. What a preview has found is kept under a key of the grant and its scope.
-/

namespace GhostBridge.NativeClient

open Ecma

/-- What the client throws: an error of its own, or one of the packages that it uses. -/
inductive ClientFailure where
  | sdk (code message : String)
  | trust (failure : Trust.Failure)
  | protocol (failure : ProtocolCore.Failure)

abbrev Checked := Except ClientFailure

def ofTrust {α : Type} : Trust.Checked α → Checked α := Except.mapError .trust
def ofProtocol {α : Type} : ProtocolCore.Checked α → Checked α := Except.mapError .protocol

@[simp] theorem ofTrust_ok {α : Type} {x : Trust.Checked α} {a : α} :
    ofTrust x = .ok a ↔ x = .ok a := by
  cases x <;> simp [ofTrust, Except.mapError]

structure InstallScope where
  organizationScope : Text
  workspaceScope : Option Text
deriving DecidableEq

/-- The options of `previewInstall` and `installFromGrant`; an absent text is empty. -/
structure InstallOptions where
  grant : Text
  organizationScope : Text
  workspaceScope : Text := []
  approvedCapabilityKeys : Option (List Text) := none

def installScope (options : InstallOptions) : Checked InstallScope := do
  throwWhen options.organizationScope.isEmpty
    (.sdk "SCOPE_REQUIRED" "Organization scope is required.")
  pure ⟨options.organizationScope,
    if options.workspaceScope.isEmpty then none else some options.workspaceScope⟩

def policyRevision (settings : TrustSettings) : Value :=
  let workspace := (settings.workspacePolicy.map Trust.TrustPolicyInput.version).getD []
  let organization := settings.organizationPolicy.version
  if !workspace.isEmpty then .string workspace
  else if !organization.isEmpty then .string organization
  else .null

/-- `value || null`. -/
def orNull (value : Value) : Value := value.orElse .null

/-- `installGrantCacheKey(grant, scope, this.trust)`, for a scope of `installScope`. -/
def installGrantCacheKey (grant : Text) (scope : InstallScope) (trust : Option TrustSettings) :
    Checked Text := do
  let serialized ← ofProtocol (ProtocolCore.boundedSerialize (.object
    [(ascii "grantDigest", .string (sha256Hex grant)),
      (ascii "organizationScope", .string scope.organizationScope),
      (ascii "workspaceScope", ((scope.workspaceScope.map Value.string).getD .null)),
      (ascii "hostAudience", (trust.map fun settings => orNull settings.hostAudience).getD .null),
      (ascii "approvedCapabilityKeys", .array []), (ascii "authenticationMode", .null),
      (ascii "policyRevision", (trust.map policyRevision).getD .null)]) ProtocolCore.defaultLimits)
  pure (sha256Hex serialized)

structure InstallTrust where
  passport : PassportTrust
  capabilityManifest : Value
  installResolution : Option Trust.VerificationResult
  connectionOffer : Option Trust.VerificationResult
  revocation : Option CurrentRevocation := none

/-- What `createInstallationPreview` and `assertCompatibility` return, as far as an installation
reads it. -/
structure Preview where
  capabilityKeys : List Text
  selectedMode : Option Text

/-- A record of `installPreviews`. -/
structure PreviewRecord where
  preview : Preview
  resolution : Value
  trust : Option InstallTrust

structure ClientConfig where
  host : Trust.Host
  trust : Option TrustSettings
  /-- `hostSupport.requiredProfiles` has the profile of governed execution. -/
  governedExecution : Bool := false
  approveAllFixtureCapabilities : Bool := false

structure ConnectionResponse where
  protocolVersion : Text
  connectionId : Text
  status : Text
deriving DecidableEq

/-- What happened, in order: a preview succeeded, or a connection was stored. -/
inductive InstallEvent where
  | previewed (grant : Text) (scope : InstallScope) (trust : Option InstallTrust)
  | stored (connection : ConnectionResponse) (grant : Text) (scope : InstallScope)

structure ClientState where
  connections : OrderedMap Text ConnectionResponse := .empty
  installPreviews : OrderedMap Text PreviewRecord := .empty
  authenticatedGrants : OrderedMap Text Value := .empty
  trust : TrustState
  history : List InstallEvent := []

/-- What the network answers, and what the validators of documents say, in one preview. -/
structure PreviewServices extends Services where
  prepareInstallTarget : Checked Unit
  discover : Checked Unit
  /-- `this.resolveInstallGrant(grant, scope)`, which validates the documents of the resolution. -/
  resolveInstallGrant : Checked Value
  /-- `verifyIssuer(this.issuerKeyResolver, passport)`. -/
  verifyIssuer : Value → Checked Unit
  /-- `assertCompatibility` and `createInstallationPreview`. -/
  createInstallationPreview : Value → Checked Preview

section Calls

variable (client : ClientConfig)

def hasProofs (settings : TrustSettings) (resolution : Value) : Bool :=
  let proofOf (document : Value) : Bool := (document.field (ascii "proof")).isTruthy
  settings.hostAudience.isTruthy && proofOf (resolution.field (ascii "passport")) &&
    proofOf (resolution.field (ascii "capabilityManifest")) && proofOf resolution &&
    proofOf (resolution.field (ascii "connectionOffer"))

def whenProved (document : Value) (verification : Trust.Checked Trust.VerificationResult) :
    Trust.Checked (Option Trust.VerificationResult) :=
  if (document.field (ascii "proof")).isTruthy then some <$> verification else pure none

def verifyDocuments (settings : TrustSettings) (services : Services) (resolution : Value) :
    Checked InstallTrust := do
  let passport := resolution.field (ascii "passport")
  let connectionOffer := resolution.field (ascii "connectionOffer")
  let passportTrust ← ofTrust
    (verifyPassport client.host settings services passport client.governedExecution)
  let capabilityTrust ← ofTrust
    (verifyCapabilityManifest client.host settings (resolution.field (ascii "capabilityManifest"))
      (Trust.asList (resolution.field (ascii "capabilities"))) passport passportTrust)
  let installTrust ← ofTrust (whenProved resolution
    (verifyInstallResolution client.host settings resolution passportTrust))
  let connectionTrust ← ofTrust (whenProved connectionOffer
    (verifyConnectionOffer client.host settings connectionOffer passportTrust))
  throwWhen (settings.required && passportTrust.policy.category != .verifiedAndTrusted)
    (.sdk "AUTHORIZATION_DENIED"
      "The issuer trust policy did not approve this exact installation.")
  pure
    { passport := passportTrust
      capabilityManifest := capabilityTrust
      installResolution := installTrust
      connectionOffer := connectionTrust }

/-- `['fresh', 'nearing_expiry'].includes(freshness)`. -/
def isCurrent (freshness : Trust.RevocationFreshness) : Bool :=
  [.fresh, .nearingExpiry].contains freshness

def requireRevocation (settings : TrustSettings) (services : Services) (state : TrustState)
    (trust : InstallTrust) : Checked (Option InstallTrust) × TrustState :=
  let (revocation, next) := getRevocationSet client.host settings services state trust.passport
  match revocation with
  | .error failure => (.error (.trust failure), next)
  | .ok revocation =>
    if isCurrent revocation.verification.freshness then
      (.ok (some { trust with revocation := some revocation }), next)
    else
      (.error (.sdk "REVOKED" "Current revocation information is required for installation."), next)

/-- The part of `previewInstall` that establishes trust. -/
def establishTrust (services : Services) (state : TrustState) (resolution : Value) :
    Checked (Option InstallTrust) × TrustState :=
  match client.trust with
  | none => (.ok none, state)
  | some settings =>
    if settings.required && !hasProofs settings resolution then
      (.error (.sdk "PROOF_REQUIRED"
        "Trust-required installation is missing an audience or required signed object."), state)
    else if ((resolution.field (ascii "passport")).field (ascii "proof")).isTruthy &&
        (resolution.field (ascii "capabilityManifest")).isTruthy then
      match verifyDocuments client settings services resolution with
      | .error failure => (.error failure, state)
      | .ok trust =>
        if settings.required then requireRevocation client settings services state trust
        else (.ok (some trust), state)
    else if settings.required then
      (.error (.sdk "PROOF_REQUIRED"
        "Trust-required installation could not establish verified trust state."), state)
    else (.ok none, state)

def resolveInstallation (options : InstallOptions) (services : PreviewServices) :
    Checked (InstallScope × Value) := do
  let scope ← installScope options
  throwWhen options.grant.isEmpty
    (.sdk "INSTALL_GRANT_INVALID" "An opaque Install Grant is required.")
  services.prepareInstallTarget
  services.discover
  let resolution ← services.resolveInstallGrant
  let passport := resolution.field (ascii "passport")
  ofTrust (services.validatePassport passport)
  services.verifyIssuer passport
  pure (scope, resolution)

def previewRecord (options : InstallOptions) (services : PreviewServices) (scope : InstallScope)
    (resolution : Value) (trust : Option InstallTrust) : Checked (Text × PreviewRecord) := do
  let preview ← services.createInstallationPreview resolution
  let key ← installGrantCacheKey options.grant scope client.trust
  pure (key, ⟨preview, resolution, trust⟩)

def previewInstall (state : ClientState) (options : InstallOptions) (services : PreviewServices) :
    Checked PreviewRecord × ClientState :=
  match resolveInstallation options services with
  | .error failure => (.error failure, state)
  | .ok (scope, resolution) =>
    let (trust, trustState) := establishTrust client services.toServices state.trust resolution
    let state := { state with trust := trustState }
    match trust with
    | .error failure => (.error failure, state)
    | .ok trust =>
      match previewRecord client options services scope resolution trust with
      | .error failure => (.error failure, state)
      | .ok (key, record) =>
        (.ok record,
          { state with
            installPreviews := state.installPreviews.set key record
            history := state.history ++ [.previewed options.grant scope trust] })

/-- `redeemInstallGrant(grant, scope)`, by what the agent answers. -/
def redeemInstallGrant (state : ClientState) (grant : Text) (scope : InstallScope)
    (answer : Checked ConnectionResponse) : Checked ConnectionResponse × ClientState :=
  match answer with
  | .error failure => (.error failure, state)
  | .ok response =>
    if response.protocolVersion = ProtocolCore.protocolVersion ∧ response.connectionId ≠ [] ∧
        response.status = ascii "active" then
      (.ok response,
        { state with
          connections := state.connections.set response.connectionId response
          history := state.history ++ [.stored response grant scope] })
    else (.error (.sdk "INVALID_MESSAGE" "The Connection response is malformed."), state)

def authenticateGrant (state : ClientState) (key mode : Text)
    (authenticationHandler : Option (Checked Value)) : Checked ClientState :=
  if mode ≠ ascii "none" ∧ !state.authenticatedGrants.has key then
    match authenticationHandler with
    | none =>
      throw (.sdk "AUTHENTICATION_REQUIRED"
        "The selected authentication mode requires a configured host handler.")
    | some answer => do
      let binding ← answer
      pure { state with authenticatedGrants := state.authenticatedGrants.set key binding }
  else pure state

def approvedCapabilities (options : InstallOptions) (preview : Preview) : Checked (List Text) :=
  match options.approvedCapabilityKeys,
      (if client.approveAllFixtureCapabilities then some preview.capabilityKeys else none) with
  | some (key :: keys), _ => pure (key :: keys)
  | none, some (key :: keys) => pure (key :: keys)
  | _, _ =>
    throw (.sdk "AUTHORIZATION_DENIED"
      "Explicit approvedCapabilityKeys are required for governed installation.")

/-- What the host and the agent answer in an installation. -/
structure InstallServices where
  prepareInstallTarget : Checked Unit
  preview : PreviewServices
  authenticationHandler : Option (Checked Value) := none
  redemption : Checked ConnectionResponse

def installTarget (options : InstallOptions) (services : InstallServices) :
    Checked (InstallScope × Text) := do
  let scope ← installScope options
  throwWhen options.grant.isEmpty
    (.sdk "INSTALL_GRANT_INVALID" "An opaque Install Grant is required.")
  services.prepareInstallTarget
  let key ← installGrantCacheKey options.grant scope client.trust
  pure (scope, key)

def installPreviewed (state : ClientState) (options : InstallOptions) (services : InstallServices)
    (scope : InstallScope) (key : Text) (record : PreviewRecord) :
    Checked ConnectionResponse × ClientState :=
  let authenticated := authenticateGrant state key (record.preview.selectedMode.getD (ascii "none"))
    services.authenticationHandler
  match authenticated with
  | .error failure => (.error failure, state)
  | .ok state =>
    match approvedCapabilities client options record.preview with
    | .error failure => (.error failure, state)
    | .ok _ => redeemInstallGrant state options.grant scope services.redemption

def installFromGrant (state : ClientState) (options : InstallOptions) (services : InstallServices) :
    Checked ConnectionResponse × ClientState :=
  match installTarget client options services with
  | .error failure => (.error failure, state)
  | .ok (scope, key) =>
    match state.installPreviews.get? key with
    | some record => installPreviewed client state options services scope key record
    | none =>
      let (previewed, state) := previewInstall client state options services.preview
      match previewed with
      | .error failure => (.error failure, state)
      | .ok record => installPreviewed client state options services scope key record

/-- `install(grantOrOptions, scope)`, by the type of its first argument. -/
inductive InstallArguments where
  | options (options : InstallOptions) (services : InstallServices)
  | grant (grant : Text) (scope : InstallScope) (answer : Checked ConnectionResponse)

def install (state : ClientState) : InstallArguments → Checked ConnectionResponse × ClientState
  | .options options services => installFromGrant client state options services
  | .grant grant scope answer => redeemInstallGrant state grant scope answer

end Calls

end GhostBridge.NativeClient
