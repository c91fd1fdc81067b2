import GhostBridge.Trust.Keys
import GhostBridge.Trust.StrictJson
import GhostBridge.Trust.Host

/-!
# Signed documents

A proof is a compact JWS over the canonical text of the document without its proof.
-/

namespace GhostBridge.Trust

open Ecma

def proofType : Text := ascii "ghostbridge-proof+jws"

def proofProfile : Text := ascii "ghostbridge-proof/0.1-draft"

/-- `text || fallback`. -/
def textOr (text fallback : Text) : Text := if text.isEmpty then fallback else text

structure SigningContext where
  algorithm : Value
  kid : Text
  purpose : Value

structure Signer where
  algorithm : Text := []
  kid : Text := []
  sign : Bytes → SigningContext → Checked Bytes

structure SignOptions where
  algorithm : Text := []
  kid : Text := []
  type : Text := []
  profile : Text := []
  purpose : Value := .undefined
  createdAt : Value := .undefined

def protectedHeader (algorithm : Value) (kid type profile : Text) : Value :=
  .object [(ascii "alg", algorithm), (ascii "kid", .string kid), (ascii "typ", .string type),
    (ascii "gbp", .string profile)]

def base64urlJson (value : Value) : Checked Text := do
  let text ← canonicalize value {}
  pure (Base64Url.encode (Utf8.encode text))

def proofObject (compact : Text) (kid : Text) (algorithm createdAt : Value) : Value :=
  .object [(ascii "format", .string (ascii "JWS")), (ascii "profile", .string proofProfile),
    (ascii "protectedJws", .string compact), (ascii "kid", .string kid),
    (ascii "algorithm", algorithm), (ascii "createdAt", createdAt)]

def createProof (host : Host) (payload : Value) (signer : Signer) (options : SignOptions) :
    Checked Value := do
  let _ ← validatePlainTrustData payload {} true
  let issuedAt ← signedIssuanceTime host payload
  let algorithm ← assertAlgorithmAllowed
    (.string (textOr options.algorithm (textOr signer.algorithm (ascii "EdDSA")))) none
  let kid := textOr options.kid signer.kid
  throwWhen (!isKeyIdentifier kid)
    (trustError .proofInvalid "A protected key identifier is required.")
  let encodedHeader ← base64urlJson (protectedHeader algorithm kid
    (textOr options.type proofType) (textOr options.profile proofProfile))
  let encodedPayload ← base64urlJson payload
  let signingInput := Utf8.lowBytes (encodedHeader ++ 0x2e :: encodedPayload)
  let signature ← signer.sign signingInput ⟨algorithm, kid, options.purpose⟩
  let compact := encodedHeader ++ 0x2e :: (encodedPayload ++ 0x2e :: Base64Url.encode signature)
  throwWhen (DefaultTrustLimits.maximumProofBytes < Utf8.byteLength compact)
    (trustError .responseTooLarge "The proof exceeds its configured size limit.")
  pure (proofObject compact kid algorithm (options.createdAt.orElse issuedAt))

/-- `const { proof, ...payload } = document`. -/
def withoutProof (document : Value) : Checked Value :=
  match document with
  | .object members => pure (.object (members.filter fun m => m.1 != ascii "proof"))
  | _ => throw (trustError .proofInvalid "A signed trust object must be a plain object.")

def signDocument (host : Host) (document : Value) (signer : Signer) (options : SignOptions) :
    Checked Value := do
  let payload ← withoutProof document
  let proof ← createProof host payload signer options
  pure (withMember payload (ascii "proof") proof)

/-- The frozen result of `verifyProof`, without its constant members. -/
structure VerificationResult where
  algorithm : Value
  kid : Value
  keyThumbprint : Value
  keyState : Value
  purpose : Value
deriving DecidableEq

def malformedProof : Failure := trustError .proofInvalid "The JWS proof is malformed."

def jwsParts (protectedJws : Text) : Checked (Text × Text × Text) :=
  match protectedJws.splitOn 0x2e with
  | [header, payload, signature] =>
    if header.isEmpty || payload.isEmpty || signature.isEmpty then throw malformedProof
    else pure (header, payload, signature)
  | _ => throw malformedProof

/-- The text of `proof.protectedJws`, for a proof of the supported format and size. -/
def protectedText (proof : Value) (options : VerifyOptions) : Checked Text := do
  let protectedJws ← orThrow (trustError .proofRequired "A protected JWS proof is required.")
    (match proof.field (ascii "protectedJws") with
      | .string s => some s
      | _ => none)
  throwWhen (!((proof.field (ascii "format")).strictEq (.string (ascii "JWS")) &&
      (proof.field (ascii "profile")).strictEq (.string proofProfile)))
    (trustError .proofInvalid "The proof format or profile is unsupported.")
  throwWhen (limitOr options.maximumProofBytes DefaultTrustLimits.maximumProofBytes <
      Utf8.byteLength protectedJws)
    (trustError .responseTooLarge "The proof exceeds its configured size limit.")
  pure protectedJws

def checkedHeader (encodedHeader : Text) (options : VerifyOptions) : Checked Value := do
  let header ← orElseThrow malformedProof
    (parseJsonStrictBuffer (Base64Url.decode encodedHeader) { maximumBytes := some 4096 })
  let keys ← orThrow .runtimeError header.keys?
  throwWhen (keys.any fun key =>
      !([ascii "alg", ascii "kid", ascii "typ", ascii "gbp"].contains key))
    (trustError .proofInvalid "The protected JWS contains an unsupported header.")
  throwWhen ([ascii "crit", ascii "jku", ascii "x5u", ascii "jwk"].any fun name =>
      (header.field name).isTruthy)
    (trustError .proofInvalid "External or critical JWS headers are not accepted.")
  let _ ← assertAlgorithmAllowed (header.field (ascii "alg")) options.allowedAlgorithms
  throwWhen (!((header.field (ascii "typ")).strictEq (.string proofType) &&
      (header.field (ascii "gbp")).strictEq (.string proofProfile)))
    (trustError .proofInvalid "The protected JWS type or profile is invalid.")
  pure header

def signingKey (host : Host) (header jwks issuedAt : Value) (options : VerifyOptions) :
    Checked Value := do
  let validatedJwks ← validateJwks host jwks options.toKeyOptions
  let key ← orThrow
    (trustError .keyNotFound "The signing key was not found in the trusted issuer key set.")
    (validatedJwks.find (header.field (ascii "kid")))
  assertKeyUsable host key { options with issuedAt := options.issuedAt.orElse issuedAt }
  pure key

def verifyProof (host : Host) (payload proof jwks : Value) (options : VerifyOptions) :
    Checked VerificationResult := do
  let protectedJws ← protectedText proof options
  let (encodedHeader, encodedPayload, encodedSignature) ← jwsParts protectedJws
  let header ← checkedHeader encodedHeader options
  throwWhen (!((header.field (ascii "kid")).strictEq (proof.field (ascii "kid")) &&
      (header.field (ascii "alg")).strictEq (proof.field (ascii "algorithm"))))
    (trustError .proofInvalid "Protected proof fields do not match the proof metadata.")
  let issuedAt ← signedIssuanceTime host payload
  throwWhen (!(proof.field (ascii "createdAt")).strictEq issuedAt)
    (trustError .proofInvalid
      "Unsigned proof creation metadata does not match the signed issuance time.")
  let canonicalPayload ← canonicalize payload { maximumBytes := options.maximumPayloadBytes }
  throwWhen (Utf8.decodeLossy (Base64Url.decode encodedPayload) != canonicalPayload)
    (trustError .payloadDigestMismatch
      "The signed payload does not match the supplied document.")
  let key ← signingKey host header jwks issuedAt options
  let publicKey ← orThrow (trustError .keyTypeMismatch "The public signing key is invalid.")
    (host.createPublicKey (stripJwkMetadata key))
  throwWhen (!host.verify publicKey (Utf8.lowBytes (encodedHeader ++ 0x2e :: encodedPayload))
      (Base64Url.decode encodedSignature))
    (trustError .signatureInvalid "The trust-object signature is invalid.")
  pure ⟨header.field (ascii "alg"), header.field (ascii "kid"),
    key.field (ascii "thumbprint"), key.field (ascii "state"), options.purpose⟩

def verifyDocument (host : Host) (document jwks : Value) (options : VerifyOptions) :
    Checked (VerificationResult × Value) := do
  let _ ← validatePlainTrustData document
    { maximumBytes :=
        some (limitOr options.maximumPayloadBytes DefaultTrustLimits.maximumPassportBytes) } true
  let payload ← withoutProof document
  let documentIssuer :=
    (payload.field (ascii "issuer")).orElse (payload.field (ascii "issuerId"))
  throwWhen (options.expectedIssuer.isTruthy && !documentIssuer.strictEq options.expectedIssuer)
    (trustError .issuerMismatch "The signed object issuer does not match the expected issuer.")
  validateTimeWindow host payload (clockValue host options.clock) options.clockSkewMs
    options.requireFutureExpiry
  stepWhen options.expectedAudience.isTruthy
    (validateAudience (payload.field (ascii "audience")) options.expectedAudience)
  let result ← verifyProof host payload (document.field (ascii "proof")) jwks
    { options with issuedAt := issuanceMember payload }
  pure (result, payload)

/-- The values that a successful `verifyProof` computed, with what it checked of them. -/
structure AcceptedProof (host : Host) (payload proof jwks : Value) (options : VerifyOptions) where
  protectedJws : Text
  encodedHeader : Text
  encodedPayload : Text
  encodedSignature : Text
  header : Value
  issuedAt : Value
  canonicalPayload : Text
  key : Value
  publicKey : host.PublicKey
  text_ok : protectedText proof options = .ok protectedJws
  parts_ok : jwsParts protectedJws = .ok (encodedHeader, encodedPayload, encodedSignature)
  header_ok : checkedHeader encodedHeader options = .ok header
  kid_eq : (header.field (ascii "kid")).strictEq (proof.field (ascii "kid")) = true
  alg_eq : (header.field (ascii "alg")).strictEq (proof.field (ascii "algorithm")) = true
  issuedAt_ok : signedIssuanceTime host payload = .ok issuedAt
  createdAt_eq : (proof.field (ascii "createdAt")).strictEq issuedAt = true
  canonical_ok :
    canonicalize payload { maximumBytes := options.maximumPayloadBytes } = .ok canonicalPayload
  payload_eq : Utf8.decodeLossy (Base64Url.decode encodedPayload) = canonicalPayload
  key_ok : signingKey host header jwks issuedAt options = .ok key
  publicKey_ok : host.createPublicKey (stripJwkMetadata key) = some publicKey
  verified : host.verify publicKey (Utf8.lowBytes (encodedHeader ++ 0x2e :: encodedPayload))
    (Base64Url.decode encodedSignature) = true

def AcceptedProof.result {host : Host} {payload proof jwks : Value} {options : VerifyOptions}
    (a : AcceptedProof host payload proof jwks options) : VerificationResult :=
  ⟨a.header.field (ascii "alg"), a.header.field (ascii "kid"), a.key.field (ascii "thumbprint"),
    a.key.field (ascii "state"), options.purpose⟩

theorem verifyProof_ok {host : Host} {payload proof jwks : Value} {options : VerifyOptions}
    {result : VerificationResult} :
    verifyProof host payload proof jwks options = .ok result ↔
      ∃ a : AcceptedProof host payload proof jwks options, result = a.result := by
  constructor
  · intro h
    simp only [verifyProof, bind_ok, throwWhen_ok, orThrow_ok, exists_unit, pure_ok,
      Bool.not_eq_false', Bool.and_eq_true, bne_eq_false_iff_eq, Prod.exists] at h
    obtain ⟨protectedJws, htext, encodedHeader, encodedPayload, encodedSignature, hparts, header,
      hheader, ⟨hkid, halg⟩, issuedAt, hissued, hcreated, canonicalPayload, hcanonical, hpayload,
      key, hkey, publicKey, hpublic, hverified, rfl⟩ := h
    exact ⟨⟨protectedJws, encodedHeader, encodedPayload, encodedSignature, header, issuedAt,
      canonicalPayload, key, publicKey, htext, hparts, hheader, hkid, halg, hissued, hcreated,
      hcanonical, hpayload, hkey, hpublic, hverified⟩, rfl⟩
  · rintro ⟨a, rfl⟩
    simp [verifyProof, a.text_ok, a.parts_ok, a.header_ok, a.kid_eq, a.alg_eq, a.issuedAt_ok,
      a.createdAt_eq, a.canonical_ok, a.payload_eq, a.key_ok, a.publicKey_ok, a.verified, orThrow,
      throwWhen, AcceptedProof.result]

theorem withoutProof_ok {document payload : Value} :
    withoutProof document = .ok payload ↔
      ∃ members, document = .object members ∧
        payload = .object (members.filter fun m => m.1 != ascii "proof") := by
  cases document <;> simp [withoutProof, eq_comm (a := payload)]

theorem signingKey_ok {host : Host} {header jwks issuedAt key : Value} {options : VerifyOptions} :
    signingKey host header jwks issuedAt options = .ok key ↔
      ∃ validatedJwks, validateJwks host jwks options.toKeyOptions = .ok validatedJwks ∧
        validatedJwks.find (header.field (ascii "kid")) = some key ∧
        assertKeyUsable host key
          { options with issuedAt := options.issuedAt.orElse issuedAt } = .ok () := by
  simp [signingKey]

theorem verifyDocument_ok {host : Host} {document jwks : Value} {options : VerifyOptions}
    {result : VerificationResult × Value} :
    verifyDocument host document jwks options = .ok result ↔
      validatePlainTrustData document
          { maximumBytes := some
              (limitOr options.maximumPayloadBytes DefaultTrustLimits.maximumPassportBytes) }
          true = .ok document ∧
        withoutProof document = .ok result.2 ∧
        (options.expectedIssuer.isTruthy && !((result.2.field (ascii "issuer")).orElse
          (result.2.field (ascii "issuerId"))).strictEq options.expectedIssuer) = false ∧
        validateTimeWindow host result.2 (clockValue host options.clock) options.clockSkewMs
          options.requireFutureExpiry = .ok () ∧
        (options.expectedAudience.isTruthy = true →
          validateAudience (result.2.field (ascii "audience")) options.expectedAudience =
            .ok ()) ∧
        verifyProof host result.2 (document.field (ascii "proof")) jwks
          { options with issuedAt := issuanceMember result.2 } = .ok result.1 := by
  obtain ⟨verification, payload⟩ := result
  simp only [verifyDocument, bind_ok, throwWhen_ok, stepWhen_ok, exists_unit, pure_ok,
    Prod.mk.injEq]
  constructor
  · rintro ⟨value, hplain, payload', hpayload, hissuer, hwindow, haudience, result, hproof, rfl, rfl⟩
    have hvalue := (validatePlainTrustData_ok hplain).2
    exact ⟨hvalue ▸ hplain, hpayload, hissuer, hwindow, haudience, hproof⟩
  · rintro ⟨hplain, hpayload, hissuer, hwindow, haudience, hproof⟩
    exact ⟨document, hplain, payload, hpayload, hissuer, hwindow, haudience, verification, hproof,
      rfl, rfl⟩

end GhostBridge.Trust
