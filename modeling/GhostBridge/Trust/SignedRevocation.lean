import GhostBridge.Trust.ProofIntegrity
import GhostBridge.Trust.Revocation

/-!
# Signed revocation sets

A complete set whose proof is accepted is a valid set wherever its place in the chain is accepted.
-/

namespace GhostBridge.Trust

open Ecma

variable {host : Host} {document jwks : Value}

def revocationSigning : Value := .string (ascii "revocation_signing")

/-- What the validation of a set asks for besides its proof and its place in the chain. -/
structure CompleteSet (document : Value) : Prop where
  fields : requireFields document revocationSetFields .revocationSetInvalid = .ok ()
  subjects : ∃ entries, document.field (ascii "entries") = .array entries ∧
    entries.length ≤ DefaultTrustLimits.maximumRevocationEntries ∧ checkSubjects entries [] = .ok ()
  dates : ∀ name ∈ [ascii "generatedAt", ascii "nextUpdate"],
    (document.field name).toText?.isSome = true

/-- A validation with the default limits, from any issuer or from the one that the set names. -/
structure DefaultOptions (document : Value) (options : RevocationOptions) : Prop where
  verify : options.toVerifyOptions = { expectedIssuer := options.expectedIssuer }
  entries : options.maximumEntries = none
  issuer : options.expectedIssuer = .undefined ∨
    options.expectedIssuer = document.field (ascii "issuer")

theorem documentDigest_isEmpty {document : Value} {digest : Text}
    (h : documentDigest document = .ok digest) : digest.isEmpty = false := by
  simp only [documentDigest, Trust.digest, bind_ok, pure_ok] at h
  obtain ⟨_, _, _, _, rfl⟩ := h
  rfl

private theorem plain_revocation {bytes : Option Nat} (hbytes : bytes = none)
    (h : validatePlainTrustData document
      { maximumBytes := some DefaultTrustLimits.maximumPassportBytes } true = .ok document) :
    validatePlainTrustData document
      { maximumBytes := some (limitOr bytes DefaultTrustLimits.maximumCanonicalBytes)
        maximumArrayLength := some DefaultTrustLimits.maximumRevocationEntries } true =
      .ok document := by
  subst hbytes
  simp only [validatePlainTrustData, bind_ok, exists_unit, stepWhen_ok, pure_ok, and_true] at h ⊢
  obtain ⟨hvisit, hmeasured⟩ := h
  refine ⟨visit_limits ?_ ?_ ?_ hvisit, fun _ => ?_⟩
  · rfl
  · rfl
  · rfl
  simp only [measureBytes, bind_ok, orThrow_ok, throwWhen_ok, decide_eq_false_iff_not,
    not_lt] at hmeasured ⊢
  obtain ⟨text, htext, hsize⟩ := hmeasured trivial
  refine ⟨text, htext, hsize.trans ?_⟩
  decide

theorem revocationFreshness_isOk {clock : Option Int}
    (hdates : ∀ name ∈ [ascii "generatedAt", ascii "nextUpdate"],
      (document.field name).toText?.isSome = true) :
    ∃ freshness, revocationFreshness host document clock = .ok freshness := by
  obtain ⟨generatedAt, hgeneratedAt⟩ := Option.isSome_iff_exists.mp (hdates _ List.mem_cons_self)
  obtain ⟨nextUpdate, hnextUpdate⟩ := Option.isSome_iff_exists.mp
    (hdates (ascii "nextUpdate") (by simp))
  simp only [revocationFreshness, parseDate, hgeneratedAt, hnextUpdate, orThrow, ok_bind,
    pure_bind]
  split
  · repeat' split
    all_goals exact ⟨_, rfl⟩
  · exact ⟨_, rfl⟩

theorem validateRevocationSet_of_proof {options : RevocationOptions} {payload issuer : Value}
    {result : VerificationResult} {sequence : Int}
    (hproof : verifyDocument host document jwks { purpose := revocationSigning } =
      .ok (result, payload))
    (hissuer : payload.field (ascii "issuer") = issuer ∧ issuer.isTruthy = true ∧
      issuer.strictEq issuer = true)
    (hdocument : document.field (ascii "issuer") = issuer)
    (hoptions : DefaultOptions document options) (hcomplete : CompleteSet document)
    (hsafe : (document.field (ascii "sequence")).safeInteger? = some sequence)
    (hposition : checkSequence document sequence options = .ok ()) :
    ∃ verification, validateRevocationSet host document jwks options = .ok verification ∧
      verification.sequence = sequence := by
  obtain ⟨hplain, hpayload, -, -, -, hverified⟩ := verifyDocument_ok.mp hproof
  obtain ⟨accepted, -⟩ := verifyProof_ok.mp hverified
  obtain ⟨freshness, hfreshness⟩ : ∃ freshness,
      revocationFreshness host document options.clock = .ok freshness :=
    revocationFreshness_isOk hcomplete.dates
  have hdigest : documentDigest document =
      .ok (ascii "sha256-" ++ Base64Url.encode (Sha256.hash (Utf8.encode
        accepted.canonicalPayload))) := by
    have hcanonical : canonicalize payload {} = .ok accepted.canonicalPayload := accepted.canonical_ok
    simp only [documentDigest, hpayload, digest, hcanonical, ok_bind]
    rfl
  refine ⟨⟨sequence, freshness, _⟩, validateRevocationSet_iff.mpr
    { plain := ?_, fields := hcomplete.fields, safe := hsafe, position := hposition,
      subjects := ?_, proof := ⟨(result, payload), ?_⟩, freshness := hfreshness,
      digest := hdigest }, rfl⟩
  · have hbytes : options.maximumBytes = none := by rw [hoptions.verify]
    rw [hoptions.entries]
    exact plain_revocation hbytes hplain
  · rw [hoptions.entries]
    exact hcomplete.subjects
  · have hexpected : options.expectedIssuer.orElse (document.field (ascii "issuer")) = issuer := by
      rcases hoptions.issuer with hnone | hsome
      · rw [hnone, hdocument]
        rfl
      · rw [hsome, hdocument, Value.orElse, hissuer.2.1]
        rfl
    have hproofOptions : options.proofOptions document =
        { purpose := revocationSigning, expectedIssuer := issuer } := by
      rw [RevocationOptions.proofOptions, hexpected, hoptions.verify]
      rfl
    rw [hproofOptions]
    refine verifyDocument_expecting issuer .undefined hproof ?_ fun haudience => ?_
    · rw [hissuer.1, Value.orElse, hissuer.2.1]
      exact hissuer.2.2
    · cases haudience

end GhostBridge.Trust
