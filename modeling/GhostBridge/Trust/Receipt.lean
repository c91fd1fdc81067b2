import GhostBridge.Trust.ProofIntegrity

/-!
# Receipts

A receipt is signed by an agent execution key that the Passport authorises.
-/

namespace GhostBridge.Trust

open Ecma

/-- `entries.find((entry) => entry.kid === key.kid && entry.thumbprint === key.thumbprint)`. -/
def findAuthorization (key : Value) : List Value → Checked (Option Value)
  | [] => pure none
  | entry :: entries => do
    let kid ← orThrow .runtimeError (entry.get (ascii "kid"))
    if kid.strictEq (key.field (ascii "kid")) &&
        (entry.field (ascii "thumbprint")).strictEq (key.field (ascii "thumbprint")) then
      pure (some entry)
    else findAuthorization key entries

/-- `passport.authorizedAgentExecutionKeys?.find(...)`. -/
def authorizationOf (passport key : Value) : Checked (Option Value) := do
  let entries ← orThrow .runtimeError (passport.get (ascii "authorizedAgentExecutionKeys"))
  match entries with
  | .undefined => pure none
  | .null => pure none
  | .array entries => findAuthorization key entries
  | _ => throw .runtimeError

/-- `purposes?.includes(purpose)`, on a list or on a text. -/
def includesPurpose (purposes purpose : Value) : Checked Bool :=
  match purposes with
  | .undefined => pure false
  | .null => pure false
  | .array purposes => pure (includes purposes purpose)
  | .string purposes => do
    let purpose ← orThrow .runtimeError purpose.toText?
    pure (decide (purpose <:+: purposes))
  | _ => throw .runtimeError

/-- `Date.parse(at || new Date().toISOString())`. -/
def dateOrNow (host : Host) (moment : Value) : Checked (Option Int) :=
  if moment.isTruthy then parseDate host moment else pure (some host.dateNow)

/-- `'execution_receipt_signing'`. -/
def receiptSigning : Value := .string (ascii "execution_receipt_signing")

def validateAgentExecutionKey (host : Host) (passport key purpose moment : Value) :
    Checked Value := do
  let found ← authorizationOf passport key
  let authorization ← orThrow
    (trustError .keyNotFound "The agent execution key is not authorized by the Passport.") found
  let listed ← includesPurpose (authorization.field (ascii "purposes"))
    (purpose.orElse receiptSigning)
  throwWhen (!listed || !(authorization.field (ascii "status")).strictEq (.string (ascii "active")))
    (trustError .keyNotActive "The agent execution key is not authorized for this purpose.")
  let time ← dateOrNow host moment
  let notBefore ← parseDate host (authorization.field (ascii "notBefore"))
  let expiresAt ← parseDate host (authorization.field (ascii "expiresAt"))
  throwWhen (dateLt time notBefore || dateGe time expiresAt)
    (trustError .keyExpired "The agent execution key is outside its authorized validity window.")
  pure authorization

def assertDigestBinding (expected actual : Value) (label : String) : Checked Unit := do
  let calculated ← digest actual
  let text ← orThrow .runtimeError (expected.orElse (.string [])).toText?
  throwWhen (Utf8.encode text != Utf8.encode calculated)
    (trustError .receiptProofInvalid (label ++ " digest does not match the actual value."))

inductive HistoricalStatus where
  | validAtIssuance
  | validWithCurrentRetiredKey
  | indeterminateDueToCompromise
  | invalidDueToRevocation
deriving DecidableEq

def receiptIssuance (receipt : Value) : Value :=
  (receipt.field (ascii "completedAt")).orElse (receipt.field (ascii "issuedAt"))

def historicalReceiptStatus (host : Host) (receipt key revocationEntry : Value) :
    Checked HistoricalStatus := do
  let current : HistoricalStatus :=
    if (key.field (ascii "state")).strictEq (.string (ascii "retired")) then
      .validWithCurrentRetiredKey
    else .validAtIssuance
  let status := revocationEntry.field (ascii "status")
  if !revocationEntry.isTruthy then pure current
  else if status.strictEq (.string (ascii "compromised")) then do
    let compromiseTime ← parseDate host (revocationEntry.field (ascii "compromiseTime"))
    let issued ← parseDate host (receiptIssuance receipt)
    if compromiseTime.isNone || dateLt issued compromiseTime then
      pure .indeterminateDueToCompromise
    else pure .invalidDueToRevocation
  else if status.strictEq (.string (ascii "revoked")) then pure .invalidDueToRevocation
  else pure current

/-- The options of `verifyReceipt`; an output or evidence is absent when the options do not own
it. -/
structure ReceiptOptions extends VerifyOptions where
  actualOutput : Option Value := none
  actualEvidence : Option Value := none
  invocation : Value := .undefined
  connectionTrustRecord : Value := .undefined
  revocationEntry : Value := .undefined

/-- The options that `verifyReceipt` hands to `verifyDocument`. -/
def ReceiptOptions.document (options : ReceiptOptions) (passport : Value) : VerifyOptions :=
  { options.toVerifyOptions with
    historical := true
    purpose := receiptSigning
    expectedIssuer := passport.field (ascii "issuer")
    requireFutureExpiry := some options.productionMode }

def bindsInvocation (receipt invocation : Value) : List String → Checked Unit
  | [] => pure ()
  | field :: fields => do
    throwWhen (!(invocation.field (ascii field)).isUndefined &&
        !(receipt.field (ascii field)).strictEq (invocation.field (ascii field)))
      (trustError .receiptProofInvalid
        ("The Receipt " ++ field ++ " binding does not match the Invocation context."))
    bindsInvocation receipt invocation fields

structure ReceiptVerification where
  verification : VerificationResult
  payload : Value
  historicalStatus : HistoricalStatus
deriving DecidableEq

def verifyReceipt (host : Host) (receipt passport jwks : Value) (options : ReceiptOptions) :
    Checked ReceiptVerification := do
  throwWhen receipt.isNullish .runtimeError
  let validatedJwks ← validateJwks host jwks options.toKeyOptions
  let key ← orThrow (trustError .keyNotFound "The Receipt execution key was not found.")
    (validatedJwks.find (receipt.field (ascii "agentExecutionKeyId")))
  let _ ← validateAgentExecutionKey host passport key receiptSigning (receiptIssuance receipt)
  throwWhen (!([ascii "agentId", ascii "passportId", ascii "passportVersion"].all fun field =>
      (receipt.field field).strictEq (passport.field field)))
    (trustError .receiptProofInvalid "The Receipt is not bound to the verified Agent Passport.")
  let (verification, payload) ← verifyDocument host receipt jwks (options.document passport)
  stepWhen options.actualOutput.isSome
    (assertDigestBinding (receipt.field (ascii "outputDigest"))
      (options.actualOutput.getD .undefined) "Receipt output")
  stepWhen options.actualEvidence.isSome
    (assertDigestBinding (receipt.field (ascii "evidenceDigest"))
      (options.actualEvidence.getD .undefined) "Receipt evidence")
  stepWhen options.invocation.isTruthy
    (bindsInvocation receipt options.invocation
      ["invocationId", "organizationScope", "workspaceScope"])
  let recordId := options.connectionTrustRecord.field (ascii "connectionId")
  let connectionId := options.invocation.field (ascii "connectionId")
  throwWhen (recordId.isTruthy && connectionId.isTruthy && !recordId.strictEq connectionId)
    (trustError .connectionTrustInvalid
      "The Receipt context is not bound to the Connection Trust Record.")
  let status ← historicalReceiptStatus host receipt key options.revocationEntry
  pure ⟨verification, payload, status⟩

variable {host : Host}

theorem findAuthorization_ok {key entry : Value} {entries : List Value}
    (h : findAuthorization key entries = .ok (some entry)) :
    entry ∈ entries ∧
      (entry.field (ascii "kid")).strictEq (key.field (ascii "kid")) = true ∧
      (entry.field (ascii "thumbprint")).strictEq (key.field (ascii "thumbprint")) = true := by
  induction entries with
  | nil => simp [findAuthorization] at h
  | cons first rest ih =>
    simp only [findAuthorization, bind_ok, orThrow_ok] at h
    obtain ⟨kid, hkid, h⟩ := h
    have hfield : first.field (ascii "kid") = kid := by
      cases first <;> simp_all [Value.get]
    split at h
    · next hmatch =>
      obtain rfl : first = entry := by simpa using h
      rw [Bool.and_eq_true, ← hfield] at hmatch
      exact ⟨List.mem_cons_self, hmatch⟩
    · obtain ⟨hmem, hmatch⟩ := ih h
      exact ⟨List.mem_cons_of_mem _ hmem, hmatch⟩

def authorizationEntries (passport : Value) : List Value :=
  match passport.field (ascii "authorizedAgentExecutionKeys") with
  | .array entries => entries
  | _ => []

theorem authorizationOf_ok {passport key entry : Value}
    (h : authorizationOf passport key = .ok (some entry)) :
    entry ∈ authorizationEntries passport ∧
      (entry.field (ascii "kid")).strictEq (key.field (ascii "kid")) = true ∧
      (entry.field (ascii "thumbprint")).strictEq (key.field (ascii "thumbprint")) = true := by
  simp only [authorizationOf, bind_ok, orThrow_ok] at h
  obtain ⟨entries, hget, h⟩ := h
  have hfield : passport.field (ascii "authorizedAgentExecutionKeys") = entries := by
    cases passport <;> simp_all [Value.get]
  split at h
  · simp at h
  · simp at h
  · rw [authorizationEntries, hfield]
    exact findAuthorization_ok h
  · simp at h

/-- The moment is given, and it and the window of the entry are real times. -/
structure Dated (host : Host) (entry moment : Value) : Prop where
  present : moment.isTruthy = true
  times : ∃ time notBefore expiresAt, parseDate host moment = .ok (some time) ∧
    parseDate host (entry.field (ascii "notBefore")) = .ok (some notBefore) ∧
    parseDate host (entry.field (ascii "expiresAt")) = .ok (some expiresAt)

/-- An entry of the Passport authorises the key to sign receipts at the moment. -/
structure AuthorizedEntry (host : Host) (passport key moment entry : Value) : Prop where
  mem : entry ∈ authorizationEntries passport
  kid_eq : (entry.field (ascii "kid")).strictEq (key.field (ascii "kid")) = true
  thumbprint_eq :
    (entry.field (ascii "thumbprint")).strictEq (key.field (ascii "thumbprint")) = true
  active : entry.field (ascii "status") = .string (ascii "active")
  listed : ∃ purposes, entry.field (ascii "purposes") = .array purposes ∧
    includes purposes receiptSigning = true
  present : moment.isTruthy = true
  window : ∃ time notBefore expiresAt, parseDate host moment = .ok (some time) ∧
    parseDate host (entry.field (ascii "notBefore")) = .ok (some notBefore) ∧
    parseDate host (entry.field (ascii "expiresAt")) = .ok (some expiresAt) ∧
    notBefore ≤ time ∧ time < expiresAt

theorem AuthorizedEntry.dated {passport key moment entry : Value}
    (a : AuthorizedEntry host passport key moment entry) : Dated host entry moment := by
  obtain ⟨time, notBefore, expiresAt, htime, hnotBefore, hexpiresAt, _, _⟩ := a.window
  exact ⟨a.present, time, notBefore, expiresAt, htime, hnotBefore, hexpiresAt⟩

theorem authorized_of_validated {passport key moment entry : Value}
    (h : validateAgentExecutionKey host passport key receiptSigning moment = .ok entry)
    (hdated : Dated host entry moment) (hlist : (entry.field (ascii "purposes")).isArray = true) :
    AuthorizedEntry host passport key moment entry := by
  have hpurpose : receiptSigning.orElse receiptSigning = receiptSigning := rfl
  simp only [validateAgentExecutionKey, hpurpose, dateOrNow, hdated.present, if_true, bind_ok,
    throwWhen_ok, orThrow_ok, exists_unit, pure_ok] at h
  obtain ⟨_, hfound, authorization, rfl, listed, hlisted, hactive, time, htime, notBefore,
    hnotBefore, expiresAt, hexpiresAt, hwindow, rfl⟩ := h
  obtain ⟨time', notBefore', expiresAt', htime', hnotBefore', hexpiresAt'⟩ := hdated.times
  obtain rfl : time = some time' := Except.ok.inj (htime.symm.trans htime')
  obtain rfl : notBefore = some notBefore' := Except.ok.inj (hnotBefore.symm.trans hnotBefore')
  obtain rfl : expiresAt = some expiresAt' := Except.ok.inj (hexpiresAt.symm.trans hexpiresAt')
  obtain ⟨hmem, hkid, hthumbprint⟩ := authorizationOf_ok hfound
  simp only [Bool.or_eq_false_iff, Bool.not_eq_false', Value.strictEq_string] at hactive
  obtain ⟨hlistedTrue, hstatus⟩ := hactive
  simp only [dateLt, dateGe, Bool.or_eq_false_iff, decide_eq_false_iff_not, not_lt, not_le]
    at hwindow
  refine ⟨hmem, hkid, hthumbprint, hstatus, ?_, hdated.present,
    ⟨time', notBefore', expiresAt', htime, hnotBefore, hexpiresAt, hwindow⟩⟩
  cases hp : authorization.field (ascii "purposes") with
  | array purposes =>
    rw [hp] at hlisted
    exact ⟨purposes, rfl, by simpa [includesPurpose, hlistedTrue] using hlisted⟩
  | _ => simp [hp, Value.isArray] at hlist

theorem ValidatedJwks.find_congr {jwks : ValidatedJwks} {kid kid' : Value}
    (h : kid.strictEq kid' = true) : jwks.find kid = jwks.find kid' := by
  unfold ValidatedJwks.find
  congr 1
  funext candidate
  rw [Bool.eq_iff_iff]
  exact ⟨fun hc => Value.strictEq_trans hc h,
    fun hc => Value.strictEq_trans hc (Value.strictEq_comm _ _ ▸ h)⟩

theorem verifyReceipt_ok {receipt passport jwks : Value} {options : ReceiptOptions}
    {result : ReceiptVerification}
    (h : verifyReceipt host receipt passport jwks options = .ok result) :
    ∃ validatedJwks key entry,
      validateJwks host jwks options.toKeyOptions = .ok validatedJwks ∧
        validatedJwks.find (receipt.field (ascii "agentExecutionKeyId")) = some key ∧
        validateAgentExecutionKey host passport key receiptSigning (receiptIssuance receipt) =
          .ok entry ∧
        verifyDocument host receipt jwks (options.document passport) =
          .ok (result.verification, result.payload) := by
  simp only [verifyReceipt, bind_ok, throwWhen_ok, orThrow_ok, exists_unit, pure_ok,
    Prod.exists] at h
  obtain ⟨_, validatedJwks, hjwks, key, hkey, entry, hentry, _, verification, payload, hdocument,
    _, _, _, _, status, _, rfl⟩ := h
  exact ⟨validatedJwks, key, entry, hjwks, hkey, hentry, hdocument⟩

/-- An accepted receipt was signed with a key of the JWKS. The Passport authorises that key exactly
when the proof names the key that the receipt names and the entry for it is well formed, or when
the Passport has another entry for it. -/
theorem receipt_key_authorized (host : Host) (signedBy : host.PublicKey → Bytes → Prop)
    (hunforgeable : ∀ publicKey message signature,
      host.verify publicKey message signature = true → signedBy publicKey message)
    (receipt passport jwks : Value) (options : ReceiptOptions) (result : ReceiptVerification)
    (h : verifyReceipt host receipt passport jwks options = .ok result) :
    ∃ validatedJwks namedKey signingKey entry,
      validateJwks host jwks options.toKeyOptions = .ok validatedJwks ∧
      validatedJwks.find (receipt.field (ascii "agentExecutionKeyId")) = some namedKey ∧
      validatedJwks.find ((receipt.field (ascii "proof")).field (ascii "kid")) =
        some signingKey ∧
      (∃ s : SignedPayload host signedBy result.payload (receipt.field (ascii "proof")) jwks
        { options.document passport with issuedAt := issuanceMember result.payload },
        s.key = signingKey) ∧
      authorizationOf passport namedKey = .ok (some entry) ∧
      ((∃ e, AuthorizedEntry host passport signingKey (receiptIssuance receipt) e) ↔
        ((receipt.field (ascii "agentExecutionKeyId")).strictEq
            ((receipt.field (ascii "proof")).field (ascii "kid")) = true ∧
          Dated host entry (receiptIssuance receipt) ∧
          (entry.field (ascii "purposes")).isArray = true) ∨
        ∃ e, e ≠ entry ∧
          AuthorizedEntry host passport signingKey (receiptIssuance receipt) e) := by
  obtain ⟨validatedJwks, namedKey, entry, hjwks, hnamed, hentry, hdocument⟩ := verifyReceipt_ok h
  obtain ⟨_, _, _, _, _, hproof⟩ := verifyDocument_ok.mp hdocument
  obtain ⟨s, _⟩ := signedPayload_of_verifyProof hunforgeable hproof
  obtain rfl : s.validatedJwks = validatedJwks :=
    Except.ok.inj (s.jwks_ok.symm.trans hjwks)
  have hsigning : s.validatedJwks.find ((receipt.field (ascii "proof")).field (ascii "kid")) =
      some s.key := (ValidatedJwks.find_congr s.kid_eq).symm.trans s.key_found
  have hfound : authorizationOf passport namedKey = .ok (some entry) := by
    simp only [validateAgentExecutionKey, bind_ok, throwWhen_ok, orThrow_ok, exists_unit,
      pure_ok] at hentry
    obtain ⟨_, hfound, _, rfl, _, _, _, _, _, _, _, _, _, _, rfl⟩ := hentry
    exact hfound
  refine ⟨s.validatedJwks, namedKey, s.key, entry, hjwks, hnamed, hsigning, ⟨s, rfl⟩, hfound, ?_⟩
  constructor
  · rintro ⟨e, he⟩
    by_cases heq : e = entry
    · subst heq
      obtain ⟨purposes, hpurposes, _⟩ := he.listed
      refine Or.inl ⟨?_, he.dated, by rw [hpurposes, Value.isArray]⟩
      -- the entry is for both keys, so their identifiers are the same
      have hkids : (namedKey.field (ascii "kid")).strictEq (s.key.field (ascii "kid")) = true :=
        Value.strictEq_trans (Value.strictEq_comm _ _ ▸ (authorizationOf_ok hfound).2.1) he.kid_eq
      have hname := (ValidatedJwks.find_ok hjwks hnamed).2.1
      have hkid := (ValidatedJwks.find_ok hjwks hsigning).2.1
      exact Value.strictEq_trans (Value.strictEq_comm _ _ ▸ hname)
        (Value.strictEq_trans hkids hkid)
    · exact Or.inr ⟨e, heq, he⟩
  · rintro (⟨hsame, hdated, hlist⟩ | ⟨e, _, he⟩)
    · have hkeys : namedKey = s.key := by
        rw [ValidatedJwks.find_congr hsame, hsigning] at hnamed
        exact (Option.some.inj hnamed).symm
      rw [← hkeys]
      exact ⟨entry, authorized_of_validated hentry hdated hlist⟩
    · exact ⟨e, he⟩

def agentX : Text := ascii "onu1C6UY6ivyXAOVTHhh0xYIydF1LVreHOzMJQ8VAGc"

def agentThumbprint : Text := ascii "39kPuwoez54xG3U3hHMjHgrou-cvwPt0ZfeVD6Q85fc"

def otherX : Text := ascii "L13JxZXCImm90F8rQqoQrPWfQLdj8bpfkFRxeIfWqDs"

def agentKey : Value :=
  signingJwk (ascii "k1") agentX agentThumbprint (ascii "execution_receipt_signing")

def otherKey : Value :=
  signingJwk (ascii "k2") otherX (ascii "-W3JbGHwsANoYzLIZ7-7OAk-Bt_vi5W8r0VqGGYSmg8")
    (ascii "execution_receipt_signing")

def receiptJwks : Value := .object [(ascii "keys", .array [agentKey, otherKey])]

def agentEntry : Value :=
  .object [(ascii "kid", .string (ascii "k1")), (ascii "thumbprint", .string agentThumbprint),
    (ascii "status", .string (ascii "active")), (ascii "purposes", .array [receiptSigning]),
    (ascii "notBefore", .string (ascii "2025-01-01T00:00:00.000Z")),
    (ascii "expiresAt", .string (ascii "2027-01-01T00:00:00.000Z"))]

def agentPassport : Value :=
  .object [(ascii "issuer", .string (ascii "https://issuer.example")),
    (ascii "agentId", .string (ascii "agent-1")),
    (ascii "passportId", .string (ascii "passport-1")),
    (ascii "passportVersion", .string (ascii "1")),
    (ascii "authorizedAgentExecutionKeys", .array [agentEntry])]

def receiptMembers : List (Text × Value) :=
  [(ascii "issuer", .string (ascii "https://issuer.example")),
    (ascii "agentId", .string (ascii "agent-1")),
    (ascii "passportId", .string (ascii "passport-1")),
    (ascii "passportVersion", .string (ascii "1")),
    (ascii "agentExecutionKeyId", .string (ascii "k1")), (ascii "completedAt", newYear)]

def agentSignature : Text := ascii
  "ZBC72ffed-29eTVUBbmDRZd6Rd3L8UGzwrHfjA9GQpTvxr9PG5BI_tpmVAITWsOyo2hgPEPrmCsFox5-brpUAA"

def otherSignature : Text := ascii
  "FdWtVxuBCwfpXpVBZTGBRbBOZ8vuWqPpypE9ON3MIp69axowEGxXqgD2Ncp5WhMMkUFf0UfoLmzFqdx-s528CQ"

def receiptHost : Host := recordedHost 1780272000000 recordedDates
  [⟨agentX, signingInput (ascii "k1") (.object receiptMembers), Base64Url.decode agentSignature⟩,
    ⟨otherX, signingInput (ascii "k2") (.object receiptMembers), Base64Url.decode otherSignature⟩]

def receiptBy (kid signature : Text) : Value :=
  .object (receiptMembers ++ [(ascii "proof", proofObject
    ([0x2e].intercalate [Base64Url.encode (Utf8.encode (Json.write (parsedHeader kid))),
      Base64Url.encode (Utf8.encode (Json.write (Value.object receiptMembers).sorted)), signature])
    kid (.string (ascii "EdDSA")) newYear)])

private theorem validateJwks_receipt :
    validateJwks receiptHost receiptJwks {} = .ok ⟨receiptJwks, [agentKey, otherKey]⟩ := by
  decide +kernel

private theorem receipts_accepted :
    ∀ signing ∈ [(ascii "k1", agentSignature), (ascii "k2", otherSignature)],
      (verifyReceipt receiptHost (receiptBy signing.1 signing.2) agentPassport receiptJwks {}).map
        (·.verification.kid) = .ok (.string signing.1) := by
  decide +kernel

/-- The receipt that the authorised key signed. -/
theorem receipt_key_authorized_named :
    ∃ result, verifyReceipt receiptHost (receiptBy (ascii "k1") agentSignature) agentPassport
        receiptJwks {} = .ok result ∧
      ∃ e, AuthorizedEntry receiptHost agentPassport agentKey newYear e := by
  obtain ⟨result, hresult, -⟩ := map_ok.mp
    (receipts_accepted (ascii "k1", agentSignature) List.mem_cons_self)
  obtain ⟨validatedJwks, namedKey, signingKey, entry, hjwks, hnamed, hsigning, _, hentry, hiff⟩ :=
    receipt_key_authorized receiptHost
      (fun x message => ∃ signature, receiptHost.verify x message signature = true)
      (fun x message signature h => ⟨signature, h⟩) _ agentPassport receiptJwks {} result hresult
  obtain rfl : validatedJwks = ⟨receiptJwks, [agentKey, otherKey]⟩ :=
    Except.ok.inj (hjwks.symm.trans validateJwks_receipt)
  obtain rfl : agentKey = namedKey := Option.some.inj hnamed
  obtain rfl : agentKey = signingKey := Option.some.inj hsigning
  have hfound : authorizationOf agentPassport agentKey = .ok (some agentEntry) := by
    decide
  obtain rfl : entry = agentEntry := Option.some.inj (Except.ok.inj (hentry.symm.trans hfound))
  refine ⟨result, hresult, hiff.mpr (Or.inl ⟨rfl, ⟨rfl, ?_⟩, rfl⟩)⟩
  exact ⟨1767225600000, 1735689600000, 1798761600000, by decide, by decide,
    by decide⟩

/-- A receipt that names the authorised key is accepted when another key of the JWKS signed it. -/
theorem receipt_signed_by_unlisted_key :
    ∃ result, verifyReceipt receiptHost (receiptBy (ascii "k2") otherSignature) agentPassport
        receiptJwks {} = .ok result ∧
      result.verification.kid = .string (ascii "k2") ∧
      validateJwks receiptHost receiptJwks {} = .ok ⟨receiptJwks, [agentKey, otherKey]⟩ ∧
      ValidatedJwks.find ⟨receiptJwks, [agentKey, otherKey]⟩ (.string (ascii "k2")) =
        some otherKey ∧
      ¬ ∃ e, AuthorizedEntry receiptHost agentPassport otherKey newYear e := by
  obtain ⟨result, hresult, hkid⟩ := map_ok.mp (receipts_accepted (ascii "k2", otherSignature)
    (List.mem_cons_of_mem _ List.mem_cons_self))
  refine ⟨result, hresult, hkid, validateJwks_receipt, by decide, ?_⟩
  rintro ⟨e, he⟩
  obtain rfl : e = agentEntry := List.mem_singleton.mp he.mem
  have hkids : ¬ (agentEntry.field (ascii "kid")).strictEq (otherKey.field (ascii "kid")) = true := by
    decide
  exact hkids he.kid_eq

end GhostBridge.Trust
