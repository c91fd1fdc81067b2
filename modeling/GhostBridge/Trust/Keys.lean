import GhostBridge.Trust.Host

/-!
# Published keys

Validation of a JWKS and of each public JWK in it, and the check that a key may sign at a
given time.
-/

namespace GhostBridge.Trust

open Ecma

def privateJwkMembers : List Text :=
  [ascii "d", ascii "p", ascii "q", ascii "dp", ascii "dq", ascii "qi", ascii "oth", ascii "k"]

def keyStates : List Text :=
  [ascii "generated", ascii "prepublished", ascii "active", ascii "retiring", ascii "retired",
    ascii "suspended", ascii "revoked", ascii "expired", ascii "compromised"]

def keyPurposes : List Text :=
  [ascii "issuer_metadata", ascii "passport_signing", ascii "capability_signing",
    ascii "install_resolution_signing", ascii "connection_offer_signing",
    ascii "revocation_signing", ascii "agent_key_authorization",
    ascii "execution_receipt_signing", ascii "request_signing", ascii "recovery"]

/-- `ALLOWED_ALGORITHMS`. -/
def defaultAlgorithms : List Text := [ascii "EdDSA"]

/-- `names.includes(value)` for a list of names. -/
def namesValue (names : List Text) (value : Value) : Bool :=
  names.any fun name => value.strictEq (.string name)

def isAlphanumeric (u : UInt16) : Bool :=
  (0x41 ≤ u && u ≤ 0x5a) || (0x61 ≤ u && u ≤ 0x7a) || isDigit u

/-- `/^[A-Za-z0-9._~-]{1,128}$/`. -/
def isKeyIdentifier (s : Text) : Bool :=
  s.all (fun u => isAlphanumeric u || u == 0x2e || u == 0x5f || u == 0x7e || u == 0x2d) &&
    1 ≤ s.length && s.length ≤ 128

def assertAlgorithmAllowed (algorithm : Value) (allowed : Option (List Text)) :
    Checked Value := do
  let text ← orThrow .runtimeError algorithm.toText?
  throwWhen (algorithm.strictEq (.string (ascii "none")) || (ascii "HS").isPrefixOf text)
    (trustError .algorithmNotAllowed "Symmetric and unsigned issuer proofs are prohibited.")
  throwWhen (!namesValue (allowed.getD defaultAlgorithms) algorithm)
    (trustError .algorithmUnsupported "The signature algorithm is not allowed.")
  pure algorithm

def pick (jwk : Value) (names : List Text) : List (Text × Value) :=
  names.map fun name => (name, jwk.field name)

def thumbprintMembers (jwk : Value) : Checked (List (Text × Value)) :=
  if (jwk.field (ascii "kty")).strictEq (.string (ascii "OKP")) then
    pure (pick jwk [ascii "crv", ascii "kty", ascii "x"])
  else if (jwk.field (ascii "kty")).strictEq (.string (ascii "RSA")) then
    pure (pick jwk [ascii "e", ascii "kty", ascii "n"])
  else if (jwk.field (ascii "kty")).strictEq (.string (ascii "EC")) then
    pure (pick jwk [ascii "crv", ascii "kty", ascii "x", ascii "y"])
  else throw (trustError .keyTypeMismatch "The JWK type does not support a thumbprint.")

def calculateJwkThumbprint (jwk : Value) : Checked Text := do
  let members ← thumbprintMembers jwk
  throwWhen (members.any fun m => !m.2.isString || !m.2.isTruthy)
    (trustError .jwksInvalid "The JWK is missing thumbprint members.")
  let text ← canonicalize (.object members) {}
  pure (Base64Url.encode (Sha256.hash (Utf8.encode text)))

def requiredJwkFields : List Text :=
  [ascii "kid", ascii "kty", ascii "use", ascii "alg", ascii "state", ascii "notBefore",
    ascii "expiresAt", ascii "thumbprint", ascii "purpose"]

/-- `{ ...value, [name]: replacement }`. -/
def withMember (value : Value) (name : Text) (replacement : Value) : Value :=
  match value with
  | .object members => .object (defineMember members name replacement)
  | v => v

def validatePublicJwk (host : Host) (jwk : Value) (options : KeyOptions) : Checked Value := do
  let _ ← validatePlainTrustData jwk
    { maximumBytes := some 16384, maximumArrayLength := some 32 } true
  -- `Object.hasOwn(null, member)`
  throwWhen jwk.isNullish .runtimeError
  throwWhen (privateJwkMembers.any jwk.hasOwn)
    (trustError .jwksInvalid "A public JWK contains private-key material.")
  throwWhen (options.productionMode && (jwk.field (ascii "testOnly")).strictEq (.bool true))
    (trustError .jwksInvalid "Test-only signing keys are prohibited in production mode.")
  requireFields jwk requiredJwkFields .jwksInvalid
  let kid ← orThrow .runtimeError (jwk.field (ascii "kid")).toText?
  throwWhen (!isKeyIdentifier kid)
    (trustError .jwksInvalid "A JWK key identifier is invalid.")
  let _ ← assertAlgorithmAllowed (jwk.field (ascii "alg")) options.allowedAlgorithms
  throwWhen (!((jwk.field (ascii "alg")).strictEq (.string (ascii "EdDSA")) &&
      (jwk.field (ascii "kty")).strictEq (.string (ascii "OKP")) &&
      (jwk.field (ascii "crv")).strictEq (.string (ascii "Ed25519")) &&
      (jwk.field (ascii "x")).isString))
    (trustError .keyTypeMismatch "The JWK type does not match its signature algorithm.")
  throwWhen (!(jwk.field (ascii "use")).strictEq (.string (ascii "sig")))
    (trustError .jwksInvalid "A signing JWK must declare use \"sig\".")
  throwWhen (!namesValue keyStates (jwk.field (ascii "state")))
    (trustError .jwksInvalid "A JWK state is invalid.")
  let purposes := asList (jwk.field (ascii "purpose"))
  throwWhen (purposes.isEmpty || purposes.any fun purpose => !namesValue keyPurposes purpose)
    (trustError .jwksInvalid "A JWK purpose is invalid.")
  let calculated ← calculateJwkThumbprint jwk
  throwWhen (!(jwk.field (ascii "thumbprint")).strictEq (.string calculated))
    (trustError .jwksInvalid "A JWK thumbprint does not match its public key.")
  let notBefore ← validateTimestamp host (jwk.field (ascii "notBefore")) .jwksInvalid
  let expiresAt ← validateTimestamp host (jwk.field (ascii "expiresAt")) .jwksInvalid
  throwWhen (expiresAt ≤ notBefore)
    (trustError .jwksInvalid "A JWK validity window is invalid.")
  pure (withMember jwk (ascii "purpose") (.array purposes))

def isActiveState (state : Value) : Bool := namesValue [ascii "active", ascii "retiring"] state

def validateKeys (host : Host) (options : KeyOptions) :
    List Value → List Value → List Value → Checked (List Value)
  | [], _, _ => pure []
  | key :: keys, kids, activeThumbprints => do
    let validated ← validatePublicJwk host key options
    throwWhen (includes kids (validated.field (ascii "kid")))
      (trustError .jwksInvalid "The issuer JWKS contains a duplicate key identifier.")
    let active := isActiveState (validated.field (ascii "state"))
    let thumbprint := validated.field (ascii "thumbprint")
    throwWhen (active && includes activeThumbprints thumbprint)
      (trustError .jwksInvalid "The issuer JWKS contains a duplicate active key.")
    let rest ← validateKeys host options keys (validated.field (ascii "kid") :: kids)
      (if active then thumbprint :: activeThumbprints else activeThumbprints)
    pure (validated :: rest)

/-- `{ ...structuredClone(jwks), keys }`. -/
structure ValidatedJwks where
  jwks : Value
  keys : List Value
deriving DecidableEq

def validateJwks (host : Host) (jwks : Value) (options : KeyOptions) :
    Checked ValidatedJwks := do
  let maximumKeys := limitOr options.maximumKeys DefaultTrustLimits.maximumKeys
  let _ ← validatePlainTrustData jwks
    { maximumBytes := some (limitOr options.maximumBytes DefaultTrustLimits.maximumJwksBytes),
      maximumArrayLength := some maximumKeys } true
  let keys ← orThrow .runtimeError (jwks.get (ascii "keys"))
  throwWhen (!keys.isArray || (asList keys).isEmpty)
    (trustError .jwksInvalid "The issuer JWKS must contain public keys.")
  throwWhen (maximumKeys < (asList keys).length)
    (trustError .jwksInvalid "The issuer JWKS contains too many keys.")
  let normalized ← validateKeys host options (asList keys) [] []
  pure ⟨jwks, normalized⟩

def ValidatedJwks.find (jwks : ValidatedJwks) (kid : Value) : Option Value :=
  jwks.keys.find? fun candidate => (candidate.field (ascii "kid")).strictEq kid

def jwkMembers : List Text :=
  [ascii "kty", ascii "use", ascii "key_ops", ascii "alg", ascii "kid", ascii "crv", ascii "x",
    ascii "y", ascii "n", ascii "e", ascii "x5c", ascii "x5t", ascii "x5t#S256"]

def stripJwkMetadata (key : Value) : Value :=
  match key with
  | .object members => .object (fromEntries (members.filter fun m => jwkMembers.contains m.1))
  | v => v

/-- The key may have signed something issued at `options.issuedAt`. -/
def assertKeyUsable (host : Host) (key : Value) (options : VerifyOptions) : Checked Unit := do
  throwWhen (options.purpose.isTruthy &&
      !includes (asList (key.field (ascii "purpose"))) options.purpose)
    (trustError .keyNotActive "The signing key is not authorized for this proof purpose.")
  let issuedAt ← parseDate host options.issuedAt
  throwWhen issuedAt.isNone
    (trustError .proofInvalid "The signed object issuance time is invalid.")
  let notBefore ← parseDate host (key.field (ascii "notBefore"))
  throwWhen (dateLt issuedAt notBefore)
    (trustError .keyNotActive "The key was not active at issuance.")
  let expiresAt ← parseDate host (key.field (ascii "expiresAt"))
  throwWhen (dateGe issuedAt expiresAt)
    (trustError .keyExpired "The key was expired at issuance.")
  let state := key.field (ascii "state")
  throwWhen (state.strictEq (.string (ascii "revoked")))
    (trustError .keyRevoked "The signing key is revoked.")
  throwWhen (state.strictEq (.string (ascii "compromised")))
    (trustError .keyCompromised "The signing key is compromised.")
  throwWhen (state.strictEq (.string (ascii "suspended")))
    (trustError .keyNotActive "The signing key is suspended.")
  throwWhen (state.strictEq (.string (ascii "expired")))
    (trustError .keyExpired "The signing key is expired.")
  throwWhen (namesValue [ascii "generated", ascii "prepublished"] state)
    (trustError .keyNotActive "The signing key is not active.")
  throwWhen (state.strictEq (.string (ascii "retired")) && !options.historical)
    (trustError .keyRetired "A retired key cannot authorize a new trust object.")

theorem validateKeys_distinct {host : Host} {options : KeyOptions} {keys validated : List Value}
    {kids thumbprints : List Value}
    (h : validateKeys host options keys kids thumbprints = .ok validated) :
    (∀ key ∈ validated, includes kids (key.field (ascii "kid")) = false) ∧
      validated.Pairwise fun a b =>
        (a.field (ascii "kid")).sameValueZero (b.field (ascii "kid")) = false := by
  induction keys generalizing kids thumbprints validated with
  | nil =>
    obtain rfl : [] = validated := by simpa [validateKeys] using h
    exact ⟨List.forall_mem_nil _, List.Pairwise.nil⟩
  | cons key keys ih =>
    simp only [validateKeys, bind_ok, throwWhen_ok, exists_unit, pure_ok] at h
    obtain ⟨first, _, hfresh, _, rest, hrest, rfl⟩ := h
    obtain ⟨hkids, hpairwise⟩ := ih hrest
    simp only [includes, List.any_cons, Bool.or_eq_false_iff] at hkids
    refine ⟨List.forall_mem_cons.mpr ⟨hfresh, fun k hk => (hkids k hk).2⟩, ?_⟩
    exact List.pairwise_cons.mpr ⟨fun k hk => (hkids k hk).1, hpairwise⟩

theorem ValidatedJwks.find_of_mem {host : Host} {jwks : Value} {options : KeyOptions}
    {validated : ValidatedJwks} (h : validateJwks host jwks options = .ok validated) {key : Value}
    (hkey : key ∈ validated.keys) {kid : Text} (hkid : key.field (ascii "kid") = .string kid) :
    validated.find (.string kid) = some key := by
  simp only [validateJwks, bind_ok, throwWhen_ok, exists_unit, pure_ok] at h
  obtain ⟨_, _, keys, _, _, _, normalized, hkeys, rfl⟩ := h
  have hdistinct := (validateKeys_distinct hkeys).2
  change normalized.find? _ = some key
  replace hkey : key ∈ normalized := hkey
  clear hkeys
  induction normalized with
  | nil => cases hkey
  | cons first rest ih =>
    rw [List.pairwise_cons] at hdistinct
    by_cases hfirst : first.field (ascii "kid") = .string kid
    · rcases List.mem_cons.mp hkey with rfl | hrest
      · rw [List.find?_cons_of_pos (by simp [hkid])]
      · have hne := hdistinct.1 key hrest
        rw [hfirst, hkid] at hne
        simp [Value.sameValueZero, Value.strictEq] at hne
    · have hrest : key ∈ rest := by
        rcases List.mem_cons.mp hkey with rfl | hrest
        · exact absurd hkid hfirst
        · exact hrest
      rw [List.find?_cons_of_neg (by simp [hfirst])]
      exact ih hdistinct.2 hrest

/-- A key in an active state, for the purpose, in its window at the issuance time. -/
structure SuitableKey (host : Host) (key purpose issuedAt : Value) : Prop where
  purpose : purpose.isTruthy = true →
    includes (asList (key.field (ascii "purpose"))) purpose = true
  state : isActiveState (key.field (ascii "state")) = true
  window : ∃ time notBefore expiresAt, parseDate host issuedAt = .ok (some time) ∧
    parseDate host (key.field (ascii "notBefore")) = .ok (some notBefore) ∧
    parseDate host (key.field (ascii "expiresAt")) = .ok (some expiresAt) ∧
    notBefore ≤ time ∧ time < expiresAt

theorem assertKeyUsable_of_suitable {host : Host} {key : Value} {options : VerifyOptions}
    (h : SuitableKey host key options.purpose options.issuedAt) :
    assertKeyUsable host key options = .ok () := by
  obtain ⟨time, notBefore, expiresAt, htime, hnotBefore, hexpiresAt, hle, hlt⟩ := h.window
  have hpurpose : (options.purpose.isTruthy &&
      !includes (asList (key.field (ascii "purpose"))) options.purpose) = false := by
    cases ht : options.purpose.isTruthy with
    | false => rfl
    | true => simp [h.purpose ht]
  have hstates : key.field (ascii "state") = .string (ascii "active") ∨
      key.field (ascii "state") = .string (ascii "retiring") := by
    simpa [isActiveState, namesValue] using h.state
  have hbefore : dateLt (some time) (some notBefore) = false := by simpa [dateLt] using hle
  have hafter : dateGe (some time) (some expiresAt) = false := by simpa [dateGe] using hlt
  simp only [assertKeyUsable, hpurpose, htime, hnotBefore, hexpiresAt, ok_bind, hbefore, hafter]
  rcases hstates with hs | hs <;> rw [hs] <;> rfl

theorem field_withMember_of_ne {value replacement : Value} {name other : Text}
    (h : other ≠ name) : (withMember value name replacement).field other = value.field other := by
  cases value with
  | object members => simp only [withMember, Value.field, lookup_defineMember_of_ne h]
  | _ => rfl

theorem validateKeys_mem {host : Host} {options : KeyOptions} {keys validated : List Value}
    {kids thumbprints : List Value}
    (h : validateKeys host options keys kids thumbprints = .ok validated) {key : Value}
    (hkey : key ∈ validated) : ∃ jwk ∈ keys, validatePublicJwk host jwk options = .ok key := by
  induction keys generalizing kids thumbprints validated with
  | nil =>
    obtain rfl : [] = validated := by simpa [validateKeys] using h
    cases hkey
  | cons jwk keys ih =>
    simp only [validateKeys, bind_ok, throwWhen_ok, exists_unit, pure_ok] at h
    obtain ⟨first, hfirst, _, _, rest, hrest, rfl⟩ := h
    rcases List.mem_cons.mp hkey with rfl | hkey
    · exact ⟨jwk, List.mem_cons_self, hfirst⟩
    · obtain ⟨other, hother, hvalid⟩ := ih hrest hkey
      exact ⟨other, List.mem_cons_of_mem _ hother, hvalid⟩

theorem validatePublicJwk_window {host : Host} {options : KeyOptions} {jwk key : Value}
    (h : validatePublicJwk host jwk options = .ok key) :
    ∃ notBefore expiresAt, parseDate host (key.field (ascii "notBefore")) = .ok (some notBefore) ∧
      parseDate host (key.field (ascii "expiresAt")) = .ok (some expiresAt) := by
  simp only [validatePublicJwk, bind_ok, throwWhen_ok, exists_unit, pure_ok,
    validateTimestamp_ok] at h
  obtain ⟨_, _, _, _, _, _, _, _, _, _, _, _, _, _, _, _, _, _, notBefore, hnotBefore, expiresAt,
    hexpiresAt, _, rfl⟩ := h
  refine ⟨notBefore, expiresAt, ?_, ?_⟩
  · rwa [field_withMember_of_ne (by decide)]
  · rwa [field_withMember_of_ne (by decide)]

theorem ValidatedJwks.find_ok {host : Host} {jwks kid key : Value} {options : KeyOptions}
    {validated : ValidatedJwks} (h : validateJwks host jwks options = .ok validated)
    (hfind : validated.find kid = some key) :
    key ∈ validated.keys ∧ (key.field (ascii "kid")).strictEq kid = true ∧
      ∃ jwk, validatePublicJwk host jwk options = .ok key := by
  simp only [validateJwks, bind_ok, throwWhen_ok, exists_unit, pure_ok] at h
  obtain ⟨_, _, keys, _, _, _, normalized, hkeys, rfl⟩ := h
  have hmem : key ∈ normalized := List.mem_of_find?_eq_some hfind
  have hkid := List.find?_some hfind
  obtain ⟨jwk, _, hjwk⟩ := validateKeys_mem hkeys hmem
  exact ⟨hmem, hkid, jwk, hjwk⟩

theorem assertKeyUsable_ok {host : Host} {key : Value} {options : VerifyOptions}
    {notBefore expiresAt : Int} (h : assertKeyUsable host key options = .ok ())
    (hnotBefore : parseDate host (key.field (ascii "notBefore")) = .ok (some notBefore))
    (hexpiresAt : parseDate host (key.field (ascii "expiresAt")) = .ok (some expiresAt)) :
    (options.purpose.isTruthy = true →
        includes (asList (key.field (ascii "purpose"))) options.purpose = true) ∧
      ∃ time, parseDate host options.issuedAt = .ok (some time) ∧
        notBefore ≤ time ∧ time < expiresAt := by
  simp only [assertKeyUsable, bind_ok, throwWhen_ok, exists_unit, hnotBefore, hexpiresAt,
    Except.ok.injEq, Option.isNone_eq_false_iff] at h
  obtain ⟨hpurpose, issuedAt, hissued, hsome, _, rfl, hle, _, rfl, hlt, _⟩ := h
  obtain ⟨time, rfl⟩ := Option.isSome_iff_exists.mp hsome
  refine ⟨fun ht => by simpa [ht] using hpurpose, time, hissued, ?_, ?_⟩
  · simpa [dateLt] using hle
  · simpa [dateGe] using hlt

end GhostBridge.Trust
