import GhostBridge.Ecma.Objects
import GhostBridge.Ecma.Regex
import GhostBridge.Ecma.Value

/-!
# Identities, capability keys and references

The values that name issuers, passports, capabilities and artifacts, and the references that bind
the coordinates of a document to the bytes of one artifact.
-/

namespace GhostBridge.SchemaValidation

open Ecma

private def smallAlnum : Regex :=
  .unit fun u => Regex.range 0x61 0x7a u || Regex.range 0x30 0x39 u

private def innerUnit : Regex :=
  .unit fun u => Regex.range 0x61 0x7a u || Regex.range 0x30 0x39 u || (ascii "._-").contains u

private def hexDigits (count : ℕ) : Regex :=
  .sequence (List.replicate count (.unit fun u => Regex.range 0x30 0x39 u || Regex.range 0x61 0x66 u))

private def hyphen : Regex := .literal (ascii "-")

def canonicalUuidV4Urn : Regex :=
  .sequence [.literal (ascii "urn:uuid:"), hexDigits 8, hyphen, hexDigits 4, hyphen,
    .literal (ascii "4"), hexDigits 3, hyphen, .oneOf (ascii "89ab"), hexDigits 3, hyphen,
    hexDigits 12]

def localIdentifier1To128 : Regex :=
  .seq smallAlnum (.option (.seq (.upTo innerUnit 126) smallAlnum))

def versionToken1To64 : Regex :=
  .seq (.unit (Regex.range 0x61 0x7a)) (.option (.seq (.upTo innerUnit 62) smallAlnum))

def canonicalBase64url32Octets : Regex :=
  .seq (.sequence (List.replicate 42 (.unit fun u => Regex.range 0x41 0x5a u ||
      Regex.range 0x61 0x7a u || Regex.range 0x30 0x39 u || (ascii "_-").contains u)))
    (.oneOf (ascii "AEIMQUYcgkosw048"))

def protocolRelease : Text := ascii "ghostbridge/e1.r0-draft.1"

def artifactSemanticClasses : List Text :=
  [ascii "capabilityContractArtifact", ascii "passportArtifact"]

def hasExactObjectKeys (value : Value) (expectedKeys : List Text) : Bool :=
  match value with
  | .object members =>
    members.length == expectedKeys.length && expectedKeys.all fun key => value.hasOwn key
  | _ => false

/-- `typeof value === 'string' && pattern.test(value)`, of an anchored pattern. -/
def isStringOf (pattern : Regex) : Value → Bool
  | .string text => pattern.accepts text
  | _ => false

/-- `classes.includes(value)`. -/
def isOneOf (classes : List Text) : Value → Bool
  | .string text => classes.contains text
  | _ => false

def isCanonicalUuidV4Urn (value : Value) : Bool := isStringOf canonicalUuidV4Urn value
def isIssuerIdentity (value : Value) : Bool := isCanonicalUuidV4Urn value
def isCapabilityNamespaceIdentity (value : Value) : Bool := isCanonicalUuidV4Urn value
def isImmutableArtifactIdentity (value : Value) : Bool := isCanonicalUuidV4Urn value
def isPassportVersion (value : Value) : Bool := isStringOf versionToken1To64 value
def isCapabilityVersion (value : Value) : Bool := isStringOf versionToken1To64 value

def exactValidatedStringEquality (predicate : Value → Bool) (left right : Value) : Bool :=
  predicate left && predicate right && left.strictEq right

def passportVersionsEqual (left right : Value) : Bool :=
  exactValidatedStringEquality isPassportVersion left right

def isPassportIdentity (value : Value) : Bool :=
  hasExactObjectKeys value [ascii "issuer", ascii "local"] &&
    isIssuerIdentity (value.field (ascii "issuer")) &&
    isStringOf localIdentifier1To128 (value.field (ascii "local"))

def passportIdentitiesEqual (left right : Value) : Bool :=
  isPassportIdentity left && isPassportIdentity right &&
    (left.field (ascii "issuer")).strictEq (right.field (ascii "issuer")) &&
    (left.field (ascii "local")).strictEq (right.field (ascii "local"))

private def coreKeys : List Text := [ascii "namespaceClass", ascii "name"]
private def externalKeys : List Text := [ascii "namespaceClass", ascii "namespace", ascii "name"]

def isCapabilityKey (value : Value) : Bool :=
  if !hasExactObjectKeys value coreKeys && !hasExactObjectKeys value externalKeys then false
  else if !isStringOf localIdentifier1To128 (value.field (ascii "name")) then false
  else if (value.field (ascii "namespaceClass")).strictEq (.string (ascii "core")) then
    hasExactObjectKeys value coreKeys
  else
    (value.field (ascii "namespaceClass")).strictEq (.string (ascii "external")) &&
      hasExactObjectKeys value externalKeys &&
      isCapabilityNamespaceIdentity (value.field (ascii "namespace"))

def typedArtifactIdentitiesEqual (leftClass left rightClass right : Value) : Bool :=
  isOneOf artifactSemanticClasses leftClass && isOneOf artifactSemanticClasses rightClass &&
    isImmutableArtifactIdentity left && isImmutableArtifactIdentity right &&
    leftClass.strictEq rightClass && left.strictEq right

/-- `Number.isSafeInteger(value) && value >= 0`. -/
def isNonnegativeSafeInteger (value : Value) : Bool := value.safeInteger?.any (0 ≤ ·)

def isArtifactByteIntegrityRef (value : Value) : Bool :=
  hasExactObjectKeys value [ascii "algorithm", ascii "value", ascii "byteLength"] &&
    (value.field (ascii "algorithm")).strictEq (.string (ascii "sha-256")) &&
    isStringOf canonicalBase64url32Octets (value.field (ascii "value")) &&
    isNonnegativeSafeInteger (value.field (ascii "byteLength"))

def artifactByteIntegrityRefsEqual (left right : Value) : Bool :=
  isArtifactByteIntegrityRef left && isArtifactByteIntegrityRef right &&
    (left.field (ascii "algorithm")).strictEq (right.field (ascii "algorithm")) &&
    (left.field (ascii "value")).strictEq (right.field (ascii "value")) &&
    (left.field (ascii "byteLength")).strictEq (right.field (ascii "byteLength"))

def isPassportReference (value : Value) : Bool :=
  hasExactObjectKeys value [ascii "passportIdentity", ascii "passportVersion",
      ascii "protocolRelease", ascii "passportArtifact", ascii "artifactByteIntegrity"] &&
    (value.field (ascii "protocolRelease")).strictEq (.string protocolRelease) &&
    isPassportIdentity (value.field (ascii "passportIdentity")) &&
    isPassportVersion (value.field (ascii "passportVersion")) &&
    isImmutableArtifactIdentity (value.field (ascii "passportArtifact")) &&
    isArtifactByteIntegrityRef (value.field (ascii "artifactByteIntegrity"))

def passportReferenceCoordinatesEqual (left right : Value) : Bool :=
  isPassportReference left && isPassportReference right &&
    (left.field (ascii "protocolRelease")).strictEq (right.field (ascii "protocolRelease")) &&
    passportIdentitiesEqual (left.field (ascii "passportIdentity"))
      (right.field (ascii "passportIdentity")) &&
    passportVersionsEqual (left.field (ascii "passportVersion"))
      (right.field (ascii "passportVersion"))

def passportReferenceMappingsEqual (left right : Value) : Bool :=
  passportReferenceCoordinatesEqual left right &&
    typedArtifactIdentitiesEqual (.string (ascii "passportArtifact"))
      (left.field (ascii "passportArtifact")) (.string (ascii "passportArtifact"))
      (right.field (ascii "passportArtifact")) &&
    artifactByteIntegrityRefsEqual (left.field (ascii "artifactByteIntegrity"))
      (right.field (ascii "artifactByteIntegrity"))

def isCapabilityContractReference (value : Value) : Bool :=
  hasExactObjectKeys value [ascii "protocolRelease", ascii "capabilityKey",
      ascii "capabilityVersion", ascii "capabilityContractArtifact",
      ascii "artifactByteIntegrity"] &&
    (value.field (ascii "protocolRelease")).strictEq (.string protocolRelease) &&
    isCapabilityKey (value.field (ascii "capabilityKey")) &&
    isCapabilityVersion (value.field (ascii "capabilityVersion")) &&
    isImmutableArtifactIdentity (value.field (ascii "capabilityContractArtifact")) &&
    isArtifactByteIntegrityRef (value.field (ascii "artifactByteIntegrity"))

variable {value left right : Value}

theorem exists_of_isStringOf {pattern : Regex} (h : isStringOf pattern value = true) :
    ∃ text, value = .string text := by
  cases value with
  | string text => exact ⟨text, rfl⟩
  | _ => cases h

/-- On strings `===` is equality. -/
theorem strictEq_iff_of_isStringOf {pattern : Regex} (h : isStringOf pattern left = true) :
    left.strictEq right = true ↔ left = right := by
  obtain ⟨text, rfl⟩ := exists_of_isStringOf h
  rw [Value.string_strictEq, eq_comm]

theorem field_of_hasExactObjectKeys {expectedKeys : List Text} {name : Text}
    (h : hasExactObjectKeys value expectedKeys = true) (hnodup : expectedKeys.Nodup)
    (hname : name ∉ expectedKeys) : value.field name = .undefined := by
  cases value with
  | object members =>
    simp only [hasExactObjectKeys, Bool.and_eq_true, beq_iff_eq, List.all_eq_true,
      Value.hasOwn] at h
    obtain ⟨hlength, hkeys⟩ := h
    have hsubset : expectedKeys ⊆ members.map Prod.fst := by
      intro key hkey
      obtain ⟨member, hmember, hname⟩ := List.lookup_isSome_iff.mp (hkeys key hkey)
      exact List.mem_map.mpr ⟨member, hmember, (beq_iff_eq.mp hname).symm⟩
    have hperm : expectedKeys.Perm (members.map Prod.fst) :=
      (List.subperm_of_subset hnodup hsubset).perm_of_length_le (by simp [hlength])
    have hlookup : members.lookup name = none := by
      rw [List.lookup_eq_none_iff]
      intro member hmember
      have hne : name ≠ member.1 := by
        rintro rfl
        exact hname (hperm.mem_iff.mpr (List.mem_map_of_mem hmember))
      simpa using hne
    simp [Value.field, hlookup]
  | _ => cases h

def integrity (value : Value) : Value × Option Int :=
  (value.field (ascii "value"), (value.field (ascii "byteLength")).safeInteger?)

theorem artifactByteIntegrityRefsEqual_iff : artifactByteIntegrityRefsEqual left right = true ↔
    isArtifactByteIntegrityRef left = true ∧ isArtifactByteIntegrityRef right = true ∧
      integrity left = integrity right := by
  rw [artifactByteIntegrityRefsEqual]
  by_cases hleft : isArtifactByteIntegrityRef left = true
  · by_cases hright : isArtifactByteIntegrityRef right = true
    · have hl := hleft
      have hr := hright
      simp only [isArtifactByteIntegrityRef, Bool.and_eq_true, Value.strictEq_string,
        isNonnegativeSafeInteger, Option.any_eq_true] at hl hr
      obtain ⟨⟨⟨-, hlalgorithm⟩, hlvalue⟩, m, hm, -⟩ := hl
      obtain ⟨⟨⟨-, hralgorithm⟩, -⟩, n, hn, -⟩ := hr
      simp only [hleft, hright, hlalgorithm, hralgorithm, Bool.and_eq_true, true_and,
        Value.strictEq_string, strictEq_iff_of_isStringOf hlvalue,
        Value.strictEq_iff_of_safeInteger hm hn, integrity, Prod.mk.injEq, hm, hn,
        Option.some.injEq]
    · simp [hright]
  · simp [hleft]

def passportCoordinate (reference : Value) : Value × Value × Value × Value :=
  (reference.field (ascii "protocolRelease"),
    (reference.field (ascii "passportIdentity")).field (ascii "issuer"),
    (reference.field (ascii "passportIdentity")).field (ascii "local"),
    reference.field (ascii "passportVersion"))

def passportMapping (reference : Value) : Value × Value × Option Int :=
  (reference.field (ascii "passportArtifact"),
    integrity (reference.field (ascii "artifactByteIntegrity")))

theorem passportReferenceMappingsEqual_iff : passportReferenceMappingsEqual left right = true ↔
    isPassportReference left = true ∧ isPassportReference right = true ∧
      passportCoordinate left = passportCoordinate right ∧
      passportMapping left = passportMapping right := by
  rw [passportReferenceMappingsEqual, passportReferenceCoordinatesEqual]
  by_cases hleft : isPassportReference left = true
  · by_cases hright : isPassportReference right = true
    · have hl := hleft
      have hr := hright
      simp only [isPassportReference, Bool.and_eq_true, Value.strictEq_string] at hl hr
      obtain ⟨⟨⟨⟨⟨-, hlrelease⟩, hlidentity⟩, hlversion⟩, hlartifact⟩, hlintegrity⟩ := hl
      obtain ⟨⟨⟨⟨⟨-, hrrelease⟩, hridentity⟩, hrversion⟩, hrartifact⟩, hrintegrity⟩ := hr
      have hlparts := hlidentity
      simp only [isPassportIdentity, Bool.and_eq_true] at hlparts
      obtain ⟨⟨-, hissuer⟩, hlocal⟩ := hlparts
      have hclass : isOneOf artifactSemanticClasses (.string (ascii "passportArtifact")) = true := by
        decide
      simp only [hleft, hright, hlrelease, hrrelease, hlidentity, hridentity, hlversion, hrversion,
        hlartifact, hrartifact, hlintegrity, hrintegrity, hclass, passportIdentitiesEqual,
        passportVersionsEqual, exactValidatedStringEquality, typedArtifactIdentitiesEqual,
        artifactByteIntegrityRefsEqual_iff, Bool.and_eq_true, true_and, Value.strictEq_string,
        passportCoordinate, passportMapping, Prod.mk.injEq, strictEq_iff_of_isStringOf hissuer,
        strictEq_iff_of_isStringOf hlocal, strictEq_iff_of_isStringOf hlversion,
        strictEq_iff_of_isStringOf hlartifact]
      tauto
    · simp [hright]
  · simp [hleft]

end GhostBridge.SchemaValidation
