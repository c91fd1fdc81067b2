import GhostBridge.NativeClient.InstallRuns
import GhostBridge.Trust.ProofIntegrity

/-!
# Revoked subjects

A preview asks whether the revocation set of the issuer is current.
-/

namespace GhostBridge.NativeClient

open Ecma Trust

def entrySubject (entry : Value) : Text × Text :=
  (textMember entry "subjectType", textMember entry "subjectReference")

/-- The subjects of an installation: the passport, its agent, the issuer, and the key that signed
the passport. -/
def installationSubjects (passport : Value) : List (Text × Text) :=
  [(ascii "passport", textMember passport "passportId"),
    (ascii "agent", textMember passport "agentId"),
    (ascii "issuer", textMember passport "issuer"),
    (ascii "issuer_key", textMember (passport.field (ascii "proof")) "kid")]

def isEffectiveRevocation (host : Host) (clock : Option Int) (entry : Value) : Bool :=
  textMember entry "status" == ascii "revoked" &&
    (host.dateParse (textMember entry "effectiveAt")).any (· ≤ clockValue host clock)

def revokesInstallation (host : Host) (clock : Option Int) (set passport : Value) : Bool :=
  (asList (set.field (ascii "entries"))).any fun entry =>
    isEffectiveRevocation host clock entry &&
      (installationSubjects passport).contains (entrySubject entry)

section Previews

variable (client : ClientConfig) (settings : TrustSettings) (state : ClientState)
  (options : InstallOptions) (services : PreviewServices) (resolution : Value)

structure OtherChecks (scope : InstallScope) (trust : InstallTrust) : Prop where
  resolved : resolveInstallation options services = .ok (scope, resolution)
  proved : hasProofs settings resolution = true
  manifest : (resolution.field (ascii "capabilityManifest")).isTruthy = true
  verified : verifyDocuments client settings services.toServices resolution = .ok trust
  preview : (services.createInstallationPreview resolution).isOk = true
  key : (installGrantCacheKey options.grant scope client.trust).isOk = true

def PreviewSucceeds : Prop :=
  ∃ record, (previewInstall client state options services).1 = .ok record

def ServesCurrentSet (set : Value) (passportTrust : PassportTrust) : Prop :=
  ∃ verification,
    (getRevocationSet client.host settings services.toServices state.trust passportTrust).1 =
        .ok ⟨set, verification⟩ ∧
      isCurrent verification.freshness = true

theorem admitRevocationSet_first {state : TrustState} {issuer : Text} (set : RevocationSet)
    {verification : RevocationVerification}
    (hcache : state.revocationCache.get issuer = none)
    (hstore : state.trustAntiRollback.stored (ascii "revocation") issuer = none)
    (hpositive : 1 ≤ set.sequence)
    (hdigest : documentDigest set.document = .ok verification.digest) :
    (admitRevocationSet state issuer set verification).1 = .ok () := by
  have hcheck : state.trustAntiRollback.check (revocationObservation issuer set.document
      verification.digest false) =
        .ok (set.sequence, some ⟨set.sequence, verification.digest⟩) := by
    have hlt := decide_eq_false (Int.not_lt.mpr hpositive)
    simp only [AntiRollbackStore.check, revocationObservation, set.safe, hstore, orThrow,
      ok_bind, throwWhen, hlt, Observation.documentDigest]
    rfl
  have hput : (state.revocationCache.put issuer set verification).1.isOk = true := by
    have hnext : ∀ current, state.revocationCache.get issuer = some current →
        set.sequence = current.set.sequence + 1 ∧
          (set.document.field (ascii "previousSetDigest")).strictEq (.string current.digest) =
            true := by
      intro current hcurrent
      rw [hcache] at hcurrent
      cases hcurrent
    rw [RevocationCache.put_stores hdigest hnext]
    rfl
  obtain ⟨stored, hstored⟩ := exists_of_isOk hput
  simp only [admitRevocationSet, hcache, Option.isSome_none, AntiRollbackStore.observe, hcheck,
    Option.all_none, if_true, hstored]
  rfl

theorem getRevocationSet_first {host : Host} {settings : TrustSettings} {services : Services}
    {state : TrustState} {passportTrust : PassportTrust} {document : Value}
    {verification : RevocationVerification}
    (hcache : state.revocationCache.get
      (textOf (passportTrust.metadata.field (ascii "issuerId"))) = none)
    (hstore : state.trustAntiRollback.stored (ascii "revocation")
      (textOf (passportTrust.metadata.field (ascii "issuerId"))) = none)
    (hdocument : orAnswer settings.revocationSet
      (services.requestRevocationSet passportTrust.metadata) = .ok document)
    (hvalid : validateRevocationSet host document passportTrust.jwks
      (revocationOptions settings (passportTrust.metadata.field (ascii "issuerId")) document
        none) = .ok verification) :
    (getRevocationSet host settings services state passportTrust).1 =
      .ok ⟨document, verification⟩ := by
  rw [← hcache] at hvalid
  simp only [getRevocationSet, hdocument]
  split
  next failure hfailed => cases hvalid.symm.trans hfailed
  next other hother =>
    obtain rfl := Except.ok.inj (hvalid.symm.trans hother)
    obtain ⟨-, hpositive, hdigest⟩ := validateRevocationSet_ok hvalid
    have hadmitted := admitRevocationSet_first (RevocationSet.ofValidated hother) hcache
      hstore hpositive hdigest
    simp only [hadmitted]
    rfl

variable {client settings state options services resolution}

theorem requireRevocation_ok {trust : InstallTrust} {trustState : TrustState}
    {services : Services} :
    (∃ established, (requireRevocation client settings services trustState trust).1 =
        .ok established) ↔
      ∃ current,
        (getRevocationSet client.host settings services trustState trust.passport).1 =
            .ok current ∧ isCurrent current.verification.freshness = true := by
  unfold requireRevocation
  rcases getRevocationSet client.host settings services trustState trust.passport with
    ⟨revocation, next⟩
  cases revocation with
  | error failure => simp
  | ok current =>
    cases hcurrent : isCurrent current.verification.freshness with
    | false => simp [hcurrent]
    | true => simp [hcurrent]

theorem establishTrust_ok (hsettings : client.trust = some settings)
    (hrequired : settings.required = true) {services : Services} {trustState : TrustState} :
    (∃ established, (establishTrust client services trustState resolution).1 = .ok established) ↔
      hasProofs settings resolution = true ∧
        (resolution.field (ascii "capabilityManifest")).isTruthy = true ∧
        ∃ trust, verifyDocuments client settings services resolution = .ok trust ∧
          ∃ established, (requireRevocation client settings services trustState trust).1 =
            .ok established := by
  unfold establishTrust
  rw [hsettings]
  simp only [hrequired, Bool.true_and, if_true]
  cases hproofs : hasProofs settings resolution with
  | false => simp
  | true =>
    have hpassport : ((resolution.field (ascii "passport")).field (ascii "proof")).isTruthy =
        true := by
      simp only [hasProofs, Bool.and_eq_true] at hproofs
      exact hproofs.1.1.1.2
    cases hmanifest : (resolution.field (ascii "capabilityManifest")).isTruthy with
    | false => simp
    | true =>
      cases hverified : verifyDocuments client settings services resolution with
      | error failure => simp [hpassport]
      | ok trust => simp [hpassport]

theorem previewRecord_ok {scope : InstallScope} (trust : Option InstallTrust) :
    (∃ record, previewRecord client options services scope resolution trust = .ok record) ↔
      (services.createInstallationPreview resolution).isOk = true ∧
        (installGrantCacheKey options.grant scope client.trust).isOk = true := by
  simp only [previewRecord, bind_ok, pure_ok]
  constructor
  · rintro ⟨_, preview, hpreview, key, hkey, -⟩
    rw [hpreview, hkey]
    exact ⟨rfl, rfl⟩
  · rintro ⟨hpreview, hkey⟩
    obtain ⟨preview, hpreview⟩ := exists_of_isOk hpreview
    obtain ⟨key, hkey⟩ := exists_of_isOk hkey
    exact ⟨_, preview, hpreview, key, hkey, rfl⟩

theorem previewInstall_ok :
    PreviewSucceeds client state options services ↔
      ∃ scope resolution, resolveInstallation options services = .ok (scope, resolution) ∧
        (∃ trust, (establishTrust client services.toServices state.trust resolution).1 =
          .ok trust) ∧
        (services.createInstallationPreview resolution).isOk = true ∧
        (installGrantCacheKey options.grant scope client.trust).isOk = true := by
  unfold PreviewSucceeds previewInstall
  cases hresolved : resolveInstallation options services with
  | error failure => simp
  | ok resolved =>
    obtain ⟨scope, resolution⟩ := resolved
    cases htrust : (establishTrust client services.toServices state.trust resolution).1 with
    | error failure => simp [htrust]
    | ok trust =>
      simp only [htrust, Except.ok.injEq, Prod.mk.injEq, ← previewRecord_ok trust]
      cases hrecord : previewRecord client options services scope resolution trust with
      | error failure => simp [hrecord]
      | ok record => simpa [hrecord] using ⟨trust, htrust⟩

theorem previewInstall_ok_of_served {set : Value} (hsettings : client.trust = some settings)
    (hrequired : settings.required = true)
    (hresolution : services.resolveInstallGrant = .ok resolution)
    (hset : ∀ trust, verifyDocuments client settings services.toServices resolution = .ok trust →
      ServesCurrentSet client settings state services set trust.passport) :
    PreviewSucceeds client state options services ↔
      ∃ scope trust, OtherChecks client settings options services resolution scope trust := by
  rw [previewInstall_ok]
  constructor
  · rintro ⟨scope, resolved, hresolved, htrust, hpreview, hkey⟩
    have hsame : resolved = resolution := by
      simp only [resolveInstallation, bind_ok, exists_unit, pure_ok, Prod.mk.injEq,
        hresolution] at hresolved
      obtain ⟨_, -, -, -, -, _, hsame, -, -, -, rfl⟩ := hresolved
      exact (Except.ok.inj hsame).symm
    subst hsame
    obtain ⟨hproofs, hmanifest, trust, hverified, -⟩ :=
      (establishTrust_ok hsettings hrequired).mp htrust
    exact ⟨scope, trust, hresolved, hproofs, hmanifest, hverified, hpreview, hkey⟩
  · rintro ⟨scope, trust, hchecks⟩
    obtain ⟨verification, hserved, hcurrent⟩ := hset trust hchecks.verified
    have hrevocation := requireRevocation_ok.mpr ⟨_, hserved, hcurrent⟩
    exact ⟨scope, resolution, hchecks.resolved, (establishTrust_ok hsettings hrequired).mpr
      ⟨hchecks.proved, hchecks.manifest, trust, hchecks.verified, hrevocation⟩, hchecks.preview,
      hchecks.key⟩

/-- A preview refuses a revoked subject exactly when another check refuses it. -/
theorem revoked_refused_iff (client : ClientConfig) (settings : TrustSettings)
    (hsettings : client.trust = some settings) (hrequired : settings.required = true)
    (state : ClientState) (options : InstallOptions) (services : PreviewServices)
    (resolution set : Value) (hresolution : services.resolveInstallGrant = .ok resolution)
    (hset : ∀ trust, verifyDocuments client settings services.toServices resolution = .ok trust →
      ServesCurrentSet client settings state services set trust.passport) :
    (revokesInstallation client.host settings.verify.clock set
          (resolution.field (ascii "passport")) = true →
        ¬ PreviewSucceeds client state options services) ↔
      revokesInstallation client.host settings.verify.clock set
          (resolution.field (ascii "passport")) = false ∨
        ¬ ∃ scope trust, OtherChecks client settings options services resolution scope trust := by
  rw [previewInstall_ok_of_served hsettings hrequired hresolution hset, ← Bool.not_eq_true]
  tauto

end Previews

/-! ## A revoked passport

The issuer signs its metadata, a passport, a manifest without capabilities, a connection offer and
the resolution of a grant with one key, and a revocation set that revokes the passport. -/

section RevokedPassport

private def texts (list : List String) : Value := .array (list.map fun s => .string (ascii s))

private def members (list : List (String × String)) : List (Text × Value) :=
  list.map fun m => (ascii m.1, .string (ascii m.2))

private def signedMembers (list : List (String × String)) : List (Text × Value) :=
  (ascii "issuer", .string (ascii "https://issuer.example")) :: (ascii "issuedAt", newYear) ::
    members list

private def issuerThumbprint : String := "LgcH0TbCKoRrt1NMhP8XJsjpadruUurO3I35x25xRCk"

private def protocolName : String := "ghostbridge/0.1-draft"

private def trustName : String := "ghostbridge-trust/0.1-draft"

private def yearEnd : String := "2027-01-01T00:00:00.000Z"

private def metadataPayload : Value :=
  .object (members [("protocolVersion", protocolName), ("trustProfileVersion", trustName),
      ("metadataVersion", "1"), ("issuerId", "https://issuer.example"), ("displayName", "Issuer"),
      ("status", "active"), ("issuedAt", "2026-01-01T00:00:00.000Z"),
      ("updatedAt", "2026-01-01T00:00:00.000Z"), ("expiresAt", yearEnd),
      ("jwksUri", "https://issuer.example/jwks.json"),
      ("revocationSetUri", "https://issuer.example/revocations.json")] ++
    [(ascii "supportedProtocolVersions", texts [protocolName]),
      (ascii "supportedTrustProfiles", texts [trustName]),
      (ascii "supportedProofProfiles", texts ["ghostbridge-proof/0.1-draft"]),
      (ascii "supportedAlgorithms", texts ["EdDSA"]),
      (ascii "rootKeyThumbprints", texts [issuerThumbprint]),
      (ascii "metadataSequence", .number (.ofNat 1))])

private def manifestPayload : Value :=
  .object (signedMembers [("agentId", "a"), ("passportId", "p"), ("passportVersion", "1")] ++
    [(ascii "capabilities", .array [])])

private def passportPayload : Value :=
  .object (signedMembers [("protocolVersion", protocolName), ("passportId", "p"),
      ("passportVersion", "1"), ("agentId", "a"), ("displayName", "Agent"),
      ("safeDescription", "An agent."), ("expiresAt", yearEnd), ("status", "active"),
      ("receiptSupport", "signed"), ("revocationReference", "revocations/passport/p"),
      ("capabilityManifestDigest", "sha256-CYzgfaV4bLi1UvLqeAeYdgeKhccGPW_kDUOiQ-3KRKU")] ++
    [(ascii "capabilities", .array []),
      (ascii "supportedProtocolVersions", texts [protocolName]),
      (ascii "supportedTransports", texts ["https"])])

private def offerPayload : Value :=
  .object (signedMembers [("connectionOfferId", "f"), ("agentId", "a"), ("passportReference", "p"),
      ("protocolVersion", protocolName), ("transportCategory", "https"), ("runtimeReference", "r"),
      ("authenticationMode", "none"), ("authenticationSetupReference", "s"),
      ("expiresAt", yearEnd), ("audience", "h"), ("acceptedOrganizationScope", "o"),
      ("revocationReference", "revocations/connection_offer/f")] ++
    [(ascii "restrictions", .array [])])

private def setPayload : Value :=
  .object (members [("protocolVersion", protocolName), ("trustProfileVersion", trustName),
      ("revocationSetId", "s"), ("issuer", "https://issuer.example"),
      ("generatedAt", "2026-01-01T00:00:00.000Z"), ("nextUpdate", yearEnd), ("status", "active"),
      ("previousSetDigest", "none")] ++
    [(ascii "sequence", .number (.ofNat 1)),
      (ascii "entries", .array [.object (members [("subjectType", "passport"),
        ("subjectReference", "p"), ("status", "revoked"), ("reasonCode", "SUPERSEDED"),
        ("effectiveAt", "2026-01-01T00:00:00.000Z")])])])

private def metadataSignature : String :=
  "kgcXstZCQnAzaddn7SYe98Qdn5iWJKrD7Mcq7vbp4m3Yu1TpfIw8K8FVi8zFSZLNdjroQV4mG5DsowK9_-_BCQ"

private def manifestSignature : String :=
  "Y6f2SfxuWCGs-9Soi2xTQZ7YQAnex-LtAL94skW-6emGhZSjo0mj5qSFuUkTmXJ-LCj47WR1Cy7I0nmfTE72Bw"

private def passportSignature : String :=
  "UqbLgiJcYaG7z6dsfNYTGKoJyeWIvxZmEl_wl5cwcAAV0EFOaDZAm1lNgjA---egSMoM2_ZEemXgzhSFjwY_Dw"

private def offerSignature : String :=
  "urVsdCU0_0iSWulGk-w70qn8lC47knR4AF-YR7QxyLMVqJTZpt5NL13Ffr5Z0Ve-Wrsfhx7QxEFx_qTCjPWbDQ"

private def resolutionSignature : String :=
  "hF2SuxpEGJGXH0BwbBxiIt0Jt2WRs4hz8UabyQ7s34tEu-xDoqXSrLxmsfvQtVDg-Nv98Nv-8XAMFKORORGzCA"

private def setSignature : String :=
  "goaAb7wLeX9scV9c4WMhK72sj1UWXAt9AH53buwvY1-tWTaV51cGtxrfuZmGC2NpsKDuEj4DGNHx0F98-NfsBw"

private def signedBy (payload : Value) (signature : String) : Value :=
  recordedDocument (ascii "k1") payload (Base64Url.decode (ascii signature))

private def resolutionPayload : Value :=
  .object (signedMembers [("audience", "h"), ("grantReference", "g"),
      ("redemptionState", "available")] ++
    [(ascii "capabilities", .array []),
      (ascii "passport", signedBy passportPayload passportSignature),
      (ascii "capabilityManifest", signedBy manifestPayload manifestSignature),
      (ascii "connectionOffer", signedBy offerPayload offerSignature)])

private def signedPayloads : List (Value × String) :=
  [(metadataPayload, metadataSignature), (manifestPayload, manifestSignature),
    (passportPayload, passportSignature), (offerPayload, offerSignature),
    (resolutionPayload, resolutionSignature), (setPayload, setSignature)]

private def signingHost : Host :=
  recordedHost 1780272000000 recordedDates (signedPayloads.map fun entry =>
    ⟨issuerX, signingInput (ascii "k1") entry.1, Base64Url.decode (ascii entry.2)⟩)

private def signingPurposes : List String :=
  ["issuer_metadata", "passport_signing", "capability_signing", "install_resolution_signing",
    "connection_offer_signing", "revocation_signing"]

private def publishedKey : Value :=
  withMember (signingJwk (ascii "k1") issuerX (ascii issuerThumbprint) []) (ascii "purpose")
    (texts signingPurposes)

private def publishedJwks : Value := .object [(ascii "keys", .array [publishedKey])]

private theorem published_valid :
    validateJwks signingHost publishedJwks {} = .ok ⟨publishedJwks, [publishedKey]⟩ ∧
      digest manifestPayload =
        .ok (ascii "sha256-CYzgfaV4bLi1UvLqeAeYdgeKhccGPW_kDUOiQ-3KRKU") := by
  decide +kernel

private def issuerName : Value := .string (ascii "https://issuer.example")

private theorem payloads_signable : ∀ entry ∈ signedPayloads,
    Signable signingHost (ascii "k1") entry.1 ∧
      validateTimeWindow signingHost entry.1 signingHost.dateNow none none = .ok () := by
  have hidentifier : isKeyIdentifier (ascii "k1") = true := by decide
  simp only [signedPayloads, List.forall_mem_cons]
  refine ⟨⟨⟨hidentifier, rfl, ?_, ?_, ?_⟩, ?_⟩, ⟨⟨hidentifier, rfl, ?_, ?_, ?_⟩, ?_⟩,
    ⟨⟨hidentifier, rfl, ?_, ?_, ?_⟩, ?_⟩, ⟨⟨hidentifier, rfl, ?_, ?_, ?_⟩, ?_⟩,
    ⟨⟨hidentifier, rfl, ?_, ?_, ?_⟩, ?_⟩, ⟨⟨hidentifier, rfl, ?_, ?_, ?_⟩, ?_⟩,
    List.forall_mem_nil _⟩ <;> decide +kernel

private theorem signed_verified (payload : Value) (signature purpose : String)
    (hmem : (payload, signature) ∈ signedPayloads) (hpurpose : purpose ∈ signingPurposes)
    (hissued : issuanceMember payload = newYear)
    (hissuer : ((payload.field (ascii "issuer")).orElse
      (payload.field (ascii "issuerId"))).strictEq issuerName = true)
    (audience : Value) (haudience : audience.isTruthy = true →
      validateAudience (payload.field (ascii "audience")) audience = .ok ()) :
    ∃ result, verifyDocument signingHost (signedBy payload signature) publishedJwks
        { purpose := .string (ascii purpose), expectedIssuer := issuerName,
          expectedAudience := audience } = .ok (result, payload) ∧
      result.keyThumbprint = .string (ascii issuerThumbprint) := by
  have hlengths : ∀ entry ∈ signedPayloads,
      (Base64Url.decode (ascii entry.2)).length = 64 := by
    simp only [signedPayloads, List.forall_mem_cons]
    exact ⟨by decide, by decide, by decide, by decide, by decide, by decide, List.forall_mem_nil _⟩
  have hpurposes : ∀ purpose ∈ signingPurposes,
      includes (asList (publishedKey.field (ascii "purpose"))) (.string (ascii purpose)) = true := by
    decide
  have hsuitable : SuitableKey signingHost publishedKey (.string (ascii purpose))
      (issuanceMember payload) :=
    { purpose := fun _ => hpurposes purpose hpurpose
      state := by decide
      window := ⟨1767225600000, 1735689600000, 1798761600000, by rw [hissued]; decide,
        by decide, by decide, by decide, by decide⟩ }
  have hobject : (issuanceMember payload).isObjectLike = false := by
    rw [hissued]
    rfl
  have hverify : signingHost.verify issuerX (signingInput (ascii "k1") payload)
      (Base64Url.decode (ascii signature)) = true :=
    recordedHost_verify.mpr (List.mem_map.mpr ⟨_, hmem, rfl⟩)
  obtain ⟨hsignable, hwindow⟩ := payloads_signable _ hmem
  obtain ⟨result, hresult, hthumbprint⟩ := hsignable.verified (hlengths _ hmem) hobject hwindow
    published_valid.1 rfl rfl hverify hsuitable
  exact ⟨result, verifyDocument_expecting issuerName audience hresult hissuer haudience,
    hthumbprint⟩

private theorem field_signed {payload : Value} {signature : String}
    (hmem : (payload, signature) ∈ signedPayloads) {name : Text} (hname : name ≠ ascii "proof") :
    (signedBy payload signature).field name = payload.field name :=
  (payloads_signable _ hmem).1.field_recorded hname

private def trustSettings : TrustSettings where
  required := true
  hostAudience := .string (ascii "h")
  organizationPolicy := { allowedIssuerIds := [ascii "https://issuer.example"] }
  metadata := signedBy metadataPayload metadataSignature
  jwks := publishedJwks
  revocationSet := signedBy setPayload setSignature

private def trustingClient : ClientConfig where
  host := signingHost
  trust := some trustSettings

private def resolvingServices : PreviewServices where
  validatePassport _ := .ok ()
  getIssuerMetadata _ := .error .runtimeError
  validateIssuerMetadata metadata _ := .ok metadata
  getIssuerKeys _ := .error .runtimeError
  requestRevocationSet _ := .error .runtimeError
  prepareInstallTarget := .ok ()
  discover := .ok ()
  resolveInstallGrant := .ok (signedBy resolutionPayload resolutionSignature)
  verifyIssuer _ := .ok ()
  createInstallationPreview _ := .ok ⟨[], none⟩

private def grantOptions : InstallOptions where
  grant := ascii "g"
  organizationScope := ascii "o"

private theorem issuerId_signed :
    (signedBy metadataPayload metadataSignature).field (ascii "issuerId") = issuerName :=
  (field_signed (by simp [signedPayloads]) (by decide)).trans (by decide)

private theorem rootKey_signed :
    includes (asList ((signedBy metadataPayload metadataSignature).field
      (ascii "rootKeyThumbprints"))) (.string (ascii issuerThumbprint)) = true := by
  rw [field_signed (by simp [signedPayloads]) (by decide)]
  decide

private theorem issuerPolicy_trusts :
    evaluateTrustPolicy trustSettings.organizationPolicy none
      { issuerId := ascii "https://issuer.example"
        rootKeyThumbprint := ascii issuerThumbprint
        highImpact := false } =
      .ok (trustResult .verifiedAndTrusted ["valid_signature", "issuer_allowlisted"]) := by
  decide

private theorem passport_trusted : ∃ passportTrust,
    verifyPassport signingHost trustSettings resolvingServices.toServices
        (signedBy passportPayload passportSignature) false = .ok passportTrust ∧
      passportTrust.metadata = signedBy metadataPayload metadataSignature ∧
      passportTrust.jwks = publishedJwks ∧
      passportTrust.policy.category = .verifiedAndTrusted := by
  obtain ⟨metadataProof, hmetadata, hroot⟩ := signed_verified metadataPayload metadataSignature
    "issuer_metadata" (by simp [signedPayloads]) (by simp [signingPurposes]) rfl (by decide)
    .undefined (by decide)
  obtain ⟨proof, hpassport, -⟩ := signed_verified passportPayload passportSignature
    "passport_signing" (by simp [signedPayloads]) (by simp [signingPurposes]) rfl (by decide)
    .undefined (by decide)
  have hjwks : withMember publishedJwks (ascii "keys") (.array [publishedKey]) = publishedJwks :=
    rfl
  refine ⟨⟨metadataProof, proof,
    trustResult .verifiedAndTrusted ["valid_signature", "issuer_allowlisted"],
    signedBy metadataPayload metadataSignature, publishedJwks⟩, ?_, rfl, rfl, rfl⟩
  refine bind_ok.mpr ⟨(), rfl, bind_ok.mpr ⟨signedBy metadataPayload metadataSignature, rfl, ?_⟩⟩
  refine bind_ok.mpr ⟨signedBy metadataPayload metadataSignature, rfl, ?_⟩
  refine bind_ok.mpr ⟨publishedJwks, rfl, bind_ok.mpr ⟨_, published_valid.1, ?_⟩⟩
  simp only [hjwks, issuerId_signed, verifyOptions]
  refine bind_ok.mpr ⟨_, hmetadata, bind_ok.mpr ⟨(), throwWhen_ok.mpr ?_, ?_⟩⟩
  · rw [hroot, rootKey_signed, Bool.not_true]
  refine bind_ok.mpr ⟨_, hpassport, bind_ok.mpr ⟨_, ?_, rfl⟩⟩
  rw [hroot]
  exact issuerPolicy_trusts

private theorem manifest_covers {passportTrust : PassportTrust}
    (hjwks : passportTrust.jwks = publishedJwks) :
    ∃ digest, verifyCapabilityManifest signingHost trustSettings
      (signedBy manifestPayload manifestSignature) []
      (signedBy passportPayload passportSignature) passportTrust = .ok digest := by
  have hmem : (manifestPayload, manifestSignature) ∈ signedPayloads := by simp [signedPayloads]
  have hmanifest {name : Text} (hname : name ≠ ascii "proof") :
      (signedBy manifestPayload manifestSignature).field name = manifestPayload.field name :=
    field_signed hmem hname
  have hpassport {name : Text} (hname : name ≠ ascii "proof") :
      (signedBy passportPayload passportSignature).field name = passportPayload.field name :=
    field_signed (by simp [signedPayloads]) hname
  have hissuer : (signedBy passportPayload passportSignature).field (ascii "issuer") =
      issuerName := (hpassport (by decide)).trans (by decide)
  have hbound : ([ascii "agentId", ascii "passportId", ascii "passportVersion"].all fun field =>
      ((signedBy manifestPayload manifestSignature).field field).strictEq
        ((signedBy passportPayload passportSignature).field field)) = true := by
    have hnames : ∀ field ∈ [ascii "agentId", ascii "passportId", ascii "passportVersion"],
        field ≠ ascii "proof" ∧
          (manifestPayload.field field).strictEq (passportPayload.field field) = true := by
      decide
    refine List.all_eq_true.mpr fun field hfield => ?_
    obtain ⟨hname, hsame⟩ := hnames field hfield
    rw [hmanifest hname, hpassport hname, hsame]
  have hdigest : digest manifestPayload =
      .ok (ascii "sha256-CYzgfaV4bLi1UvLqeAeYdgeKhccGPW_kDUOiQ-3KRKU") :=
    published_valid.2
  have hcovered : (signedBy passportPayload passportSignature).field
      (ascii "capabilityManifestDigest") =
        .string (ascii "sha256-CYzgfaV4bLi1UvLqeAeYdgeKhccGPW_kDUOiQ-3KRKU") :=
    (hpassport (by decide)).trans (by decide)
  obtain ⟨proof, hproof, -⟩ := signed_verified manifestPayload manifestSignature
    "capability_signing" hmem (by simp [signingPurposes]) rfl (by decide) .undefined (by decide)
  refine ⟨(signedBy passportPayload passportSignature).field
    (ascii "capabilityManifestDigest"), ?_⟩
  rw [verifyCapabilityManifest, hjwks]
  refine bind_ok.mpr ⟨.array [], rfl, bind_ok.mpr ⟨(), rfl, ?_⟩⟩
  refine bind_ok.mpr ⟨[], rfl, bind_ok.mpr ⟨(), rfl, bind_ok.mpr ⟨(), rfl, ?_⟩⟩⟩
  refine bind_ok.mpr ⟨(), rfl, bind_ok.mpr ⟨(), throwWhen_ok.mpr ?_, ?_⟩⟩
  · rw [hbound, Bool.not_true]
  refine bind_ok.mpr ⟨manifestPayload, rfl, bind_ok.mpr ⟨_, hdigest, bind_ok.mpr ⟨(), ?_, ?_⟩⟩⟩
  · rw [hcovered]
    decide
  · rw [hissuer]
    exact bind_ok.mpr ⟨_, hproof, rfl⟩

private theorem resolution_verified {passportTrust : PassportTrust}
    (hmetadata : passportTrust.metadata = signedBy metadataPayload metadataSignature)
    (hjwks : passportTrust.jwks = publishedJwks) :
    (∃ result, verifyInstallResolution signingHost trustSettings
      (signedBy resolutionPayload resolutionSignature) passportTrust = .ok result) ∧
    ∃ result, verifyConnectionOffer signingHost trustSettings
      (signedBy offerPayload offerSignature) passportTrust = .ok result := by
  obtain ⟨proof, hresolution, -⟩ := signed_verified resolutionPayload resolutionSignature
    "install_resolution_signing" (by simp [signedPayloads]) (by simp [signingPurposes]) rfl
    (by decide) (.string (ascii "h")) (by decide)
  obtain ⟨offerProof, hoffer, -⟩ := signed_verified offerPayload offerSignature
    "connection_offer_signing" (by simp [signedPayloads]) (by simp [signingPurposes]) rfl
    (by decide) (.string (ascii "h")) (by decide)
  constructor
  · refine ⟨proof, ?_⟩
    simp only [verifyInstallResolution, verifyScopedTrustObject, hmetadata, hjwks, issuerId_signed]
    exact bind_ok.mpr ⟨_, hresolution, rfl⟩
  · refine ⟨offerProof, ?_⟩
    simp only [verifyConnectionOffer, verifyScopedTrustObject, hmetadata, hjwks, issuerId_signed]
    exact bind_ok.mpr ⟨_, hoffer, rfl⟩

private theorem resolution_field {name : Text} {document : Value} (hname : name ≠ ascii "proof")
    (hfield : resolutionPayload.field name = document) :
    (signedBy resolutionPayload resolutionSignature).field name = document :=
  (field_signed (by simp [signedPayloads]) hname).trans hfield

private theorem resolution_documents :
    (signedBy resolutionPayload resolutionSignature).field (ascii "passport") =
        signedBy passportPayload passportSignature ∧
      (signedBy resolutionPayload resolutionSignature).field (ascii "capabilityManifest") =
        signedBy manifestPayload manifestSignature ∧
      (signedBy resolutionPayload resolutionSignature).field (ascii "connectionOffer") =
        signedBy offerPayload offerSignature ∧
      (signedBy resolutionPayload resolutionSignature).field (ascii "capabilities") = .array [] :=
  ⟨resolution_field (by decide) rfl, resolution_field (by decide) rfl,
    resolution_field (by decide) rfl, resolution_field (by decide) rfl⟩

private theorem proof_signed {payload : Value} {signature : String}
    (hmem : (payload, signature) ∈ signedPayloads) :
    ((signedBy payload signature).field (ascii "proof")).isTruthy = true :=
  (payloads_signable _ hmem).1.field_proof

private theorem documents_verified : ∃ trust,
    verifyDocuments trustingClient trustSettings resolvingServices.toServices
        (signedBy resolutionPayload resolutionSignature) = .ok trust ∧
      trust.passport.metadata = signedBy metadataPayload metadataSignature ∧
      trust.passport.jwks = publishedJwks := by
  obtain ⟨passportTrust, hpassport, hmetadata, hjwks, hpolicy⟩ := passport_trusted
  obtain ⟨manifestTrust, hmanifest⟩ := manifest_covers hjwks
  obtain ⟨⟨installTrust, hinstall⟩, connectionTrust, hconnection⟩ :=
    resolution_verified hmetadata hjwks
  obtain ⟨hpassportField, hmanifestField, hofferField, hcapabilities⟩ := resolution_documents
  have hinstalled : whenProved (signedBy resolutionPayload resolutionSignature)
      (verifyInstallResolution signingHost trustSettings
        (signedBy resolutionPayload resolutionSignature) passportTrust) =
          .ok (some installTrust) := by
    rw [whenProved, if_pos (proof_signed (by simp [signedPayloads]))]
    exact map_ok.mpr ⟨installTrust, hinstall, rfl⟩
  have hconnected : whenProved (signedBy offerPayload offerSignature)
      (verifyConnectionOffer signingHost trustSettings
        (signedBy offerPayload offerSignature) passportTrust) = .ok (some connectionTrust) := by
    rw [whenProved, if_pos (proof_signed (by simp [signedPayloads]))]
    exact map_ok.mpr ⟨connectionTrust, hconnection, rfl⟩
  refine ⟨⟨passportTrust, manifestTrust, some installTrust, some connectionTrust, none⟩, ?_,
    hmetadata, hjwks⟩
  rw [verifyDocuments, hpassportField, hmanifestField, hofferField, hcapabilities]
  refine bind_ok.mpr ⟨passportTrust, ofTrust_ok.mpr hpassport, ?_⟩
  refine bind_ok.mpr ⟨manifestTrust, ofTrust_ok.mpr hmanifest, ?_⟩
  refine bind_ok.mpr ⟨some installTrust, ofTrust_ok.mpr hinstalled, ?_⟩
  refine bind_ok.mpr ⟨some connectionTrust, ofTrust_ok.mpr hconnected, ?_⟩
  refine bind_ok.mpr ⟨(), throwWhen_ok.mpr ?_, rfl⟩
  rw [hpolicy]
  rfl

private def resolvingState : ClientState := newClient ⟨RevocationCache.create none, .create⟩

private theorem set_valid : ∃ digest,
    validateRevocationSet signingHost (signedBy setPayload setSignature) publishedJwks
      (revocationOptions trustSettings issuerName (signedBy setPayload setSignature) none) =
        .ok ⟨1, .fresh, digest⟩ := by
  have hmem : (setPayload, setSignature) ∈ signedPayloads := by simp [signedPayloads]
  have hfield {name : Text} (hname : name ≠ ascii "proof") :
      (signedBy setPayload setSignature).field name = setPayload.field name :=
    field_signed hmem hname
  obtain ⟨proof, hset, -⟩ := signed_verified setPayload setSignature "revocation_signing" hmem
    (by simp [signingPurposes]) rfl (by decide) .undefined (by decide)
  have hplain : validatePlainTrustData (signedBy setPayload setSignature)
      { maximumBytes := some DefaultTrustLimits.maximumCanonicalBytes,
        maximumArrayLength := some DefaultTrustLimits.maximumRevocationEntries } true =
      .ok (signedBy setPayload setSignature) := by
    decide +kernel
  have hsequence : (signedBy setPayload setSignature).field (ascii "sequence") =
      .number (.ofNat 1) := (hfield (by decide)).trans rfl
  have hentries : (signedBy setPayload setSignature).field (ascii "entries") =
      setPayload.field (ascii "entries") := hfield (by decide)
  have hdates : (signedBy setPayload setSignature).field (ascii "generatedAt") = newYear ∧
      (signedBy setPayload setSignature).field (ascii "nextUpdate") =
        .string (ascii yearEnd) :=
    ⟨(hfield (by decide)).trans (by decide), (hfield (by decide)).trans (by decide)⟩
  have hfresh : revocationFreshness signingHost (signedBy setPayload setSignature) none =
      .ok .fresh := by
    rw [revocationFreshness, hdates.1, hdates.2]
    decide +kernel
  obtain ⟨digest, hdigest⟩ : ∃ digest,
      documentDigest (signedBy setPayload setSignature) = .ok digest :=
    ⟨_, bind_ok.mpr ⟨setPayload, rfl,
      bind_ok.mpr ⟨_, (payloads_signable _ hmem).1.canonical, rfl⟩⟩⟩
  refine ⟨digest, bind_ok.mpr ⟨signedBy setPayload setSignature, hplain, ?_⟩⟩
  refine bind_ok.mpr ⟨(), by decide +kernel, bind_ok.mpr ⟨1, ?_, ?_⟩⟩
  · rw [hsequence]
    decide +kernel
  refine bind_ok.mpr ⟨(), by decide, ?_⟩
  rw [hentries]
  refine bind_ok.mpr ⟨_, rfl, bind_ok.mpr ⟨(), by decide, bind_ok.mpr ⟨(), by decide, ?_⟩⟩⟩
  refine bind_ok.mpr ⟨_, hset, bind_ok.mpr ⟨.fresh, hfresh, ?_⟩⟩
  exact bind_ok.mpr ⟨digest, hdigest, rfl⟩

private theorem set_served {passportTrust : PassportTrust}
    (hmetadata : passportTrust.metadata = signedBy metadataPayload metadataSignature)
    (hjwks : passportTrust.jwks = publishedJwks) :
    ServesCurrentSet trustingClient trustSettings resolvingState resolvingServices
      (signedBy setPayload setSignature) passportTrust := by
  obtain ⟨digest, hvalid⟩ := set_valid
  rw [← issuerId_signed, ← hmetadata, ← hjwks] at hvalid
  exact ⟨⟨1, .fresh, digest⟩, getRevocationSet_first rfl rfl rfl hvalid, rfl⟩

private theorem served_of_verified : ∀ trust,
    verifyDocuments trustingClient trustSettings resolvingServices.toServices
        (signedBy resolutionPayload resolutionSignature) = .ok trust →
      ServesCurrentSet trustingClient trustSettings resolvingState resolvingServices
        (signedBy setPayload setSignature) trust.passport := by
  obtain ⟨verified, hverified, hmetadata, hjwks⟩ := documents_verified
  intro trust htrust
  obtain rfl := Except.ok.inj (hverified.symm.trans htrust)
  exact set_served hmetadata hjwks

private theorem grant_checked : ∃ scope trust,
    OtherChecks trustingClient trustSettings grantOptions resolvingServices
      (signedBy resolutionPayload resolutionSignature) scope trust := by
  obtain ⟨trust, hverified, -⟩ := documents_verified
  obtain ⟨hpassport, hmanifest, hoffer, -⟩ := resolution_documents
  have hproofs : hasProofs trustSettings (signedBy resolutionPayload resolutionSignature) =
      true := by
    have haudience : trustSettings.hostAudience.isTruthy = true := by decide
    simp only [hasProofs, hpassport, hmanifest, hoffer, haudience, Bool.and_eq_true, true_and]
    exact ⟨⟨⟨proof_signed (by simp [signedPayloads]), proof_signed (by simp [signedPayloads])⟩,
      proof_signed (by simp [signedPayloads])⟩, proof_signed (by simp [signedPayloads])⟩
  exact ⟨⟨ascii "o", none⟩, trust,
    { resolved := rfl
      proved := hproofs
      manifest := by rw [hmanifest]; rfl
      verified := hverified
      preview := rfl
      key := by decide +kernel }⟩

private theorem passport_revoked :
    revokesInstallation signingHost none (signedBy setPayload setSignature)
      ((signedBy resolutionPayload resolutionSignature).field (ascii "passport")) = true := by
  have hentries : (signedBy setPayload setSignature).field (ascii "entries") =
      setPayload.field (ascii "entries") := field_signed (by simp [signedPayloads]) (by decide)
  have hsubject : (installationSubjects (signedBy passportPayload passportSignature)).contains
      (ascii "passport", ascii "p") = true := by
    rw [installationSubjects, textMember, field_signed (by simp [signedPayloads]) (by decide)]
    rfl
  rw [revokesInstallation, hentries, resolution_documents.1]
  refine List.any_eq_true.mpr ⟨_, List.mem_cons_self, Bool.and_eq_true_iff.mpr ⟨?_, hsubject⟩⟩
  decide

/-- The set revokes the passport, and no other check refuses the installation. -/
theorem revoked_not_refused :
    ¬ (revokesInstallation signingHost none (signedBy setPayload setSignature)
          ((signedBy resolutionPayload resolutionSignature).field (ascii "passport")) = true →
        ¬ PreviewSucceeds trustingClient resolvingState grantOptions resolvingServices) := by
  intro hrefused
  have hsucceeds := (previewInstall_ok_of_served rfl rfl rfl served_of_verified).mpr grant_checked
  exact hrefused passport_revoked hsucceeds

theorem revoked_refused_iff_signed :
    (revokesInstallation signingHost none (signedBy setPayload setSignature)
          ((signedBy resolutionPayload resolutionSignature).field (ascii "passport")) = true →
        ¬ PreviewSucceeds trustingClient resolvingState grantOptions resolvingServices) ↔
      revokesInstallation signingHost none (signedBy setPayload setSignature)
          ((signedBy resolutionPayload resolutionSignature).field (ascii "passport")) = false ∨
        ¬ ∃ scope trust, OtherChecks trustingClient trustSettings grantOptions resolvingServices
          (signedBy resolutionPayload resolutionSignature) scope trust :=
  revoked_refused_iff trustingClient trustSettings rfl rfl resolvingState grantOptions
    resolvingServices (signedBy resolutionPayload resolutionSignature)
    (signedBy setPayload setSignature) rfl served_of_verified

end RevokedPassport

end GhostBridge.NativeClient
