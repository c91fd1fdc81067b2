import GhostBridge.Ecma.Json
import GhostBridge.Ecma.Outcome
import GhostBridge.Ecma.Sha256
import GhostBridge.Ecma.Text
import GhostBridge.Ecma.Utf8

/-!
# Trust errors
-/

namespace GhostBridge.Trust

open Ecma

/-- `TRUST_ERROR_CODES`. -/
inductive TrustErrorCode where
  | issuerInvalid
  | issuerNotTrusted
  | issuerBlocked
  | issuerSuspended
  | issuerCompromised
  | issuerMetadataInvalid
  | issuerMetadataExpired
  | issuerMetadataRollback
  | issuerDiscoveryFailed
  | jwksInvalid
  | keyNotFound
  | keyNotActive
  | keyExpired
  | keyRetired
  | keyRevoked
  | keyCompromised
  | keyTypeMismatch
  | algorithmUnsupported
  | algorithmNotAllowed
  | proofRequired
  | proofInvalid
  | signatureInvalid
  | payloadDigestMismatch
  | capabilityManifestMismatch
  | audienceMismatch
  | issuerMismatch
  | messageExpired
  | messageNotYetValid
  | nonceRequired
  | nonceInvalid
  | replayDetected
  | replayCapacityExceeded
  | revocationStatusStale
  | revocationStatusUnavailable
  | revocationSetInvalid
  | revocationRollback
  | connectionTrustInvalid
  | receiptProofInvalid
  | historicalTrustIndeterminate
  | trustPolicyDenied
  | trustReviewRequired
  | unsafeDiscoveryTarget
  | responseTooLarge
deriving DecidableEq

/-- `GhostBridgeTrustError`, with the missing fields of its details. -/
structure GhostBridgeTrustError where
  code : TrustErrorCode
  safeMessage : String
  retryable : Bool := false
  missing : List Text := []
deriving DecidableEq

/-- What the package throws: its own errors, or an error of the runtime. -/
inductive Failure where
  | trust (error : GhostBridgeTrustError)
  | runtimeError
deriving DecidableEq

abbrev Checked := Except Failure

def trustError (code : TrustErrorCode) (message : String) : Failure := .trust ⟨code, message, false, []⟩

/-- A step inside `try`, where anything but a trust error is replaced. -/
def orElseThrow {α : Type} (failure : Failure) : Checked α → Checked α
  | .error .runtimeError => .error failure
  | outcome => outcome

@[simp] theorem orElseThrow_ok {α : Type} {failure : Failure} {x : Checked α} {a : α} :
    orElseThrow failure x = .ok a ↔ x = .ok a := by
  unfold orElseThrow
  split <;> simp_all

end GhostBridge.Trust

/-!
## Plain trust data

The walk every trust document goes through before anything else reads it. Trees have no
cycles, so the ancestor set has nothing to find.
-/

namespace GhostBridge.Trust

open Ecma

namespace DefaultTrustLimits

def maximumJwksBytes : Nat := 131072
def maximumKeys : Nat := 64
def maximumProofBytes : Nat := 32768
def maximumPassportBytes : Nat := 262144
def maximumCapabilityManifestEntries : Nat := 256
def maximumCanonicalBytes : Nat := 1048576
def maximumStringLength : Nat := 65536
def maximumArrayLength : Nat := 10000
def maximumObjectDepth : Nat := 32
def maximumRevocationEntries : Nat := 10000
def clockSkewMs : Int := 60000

end DefaultTrustLimits

/-- `limit || fallback`: zero counts as absent. -/
def limitOr (limit : Option Nat) (fallback : Nat) : Nat :=
  match limit with
  | none => fallback
  | some 0 => fallback
  | some n => n

structure Limits where
  maximumBytes : Option Nat := none
  maximumObjectDepth : Option Nat := none
  maximumArrayLength : Option Nat := none
  maximumStringLength : Option Nat := none

namespace Limits

def bytes (limits : Limits) : Nat :=
  limitOr limits.maximumBytes DefaultTrustLimits.maximumCanonicalBytes

def objectDepth (limits : Limits) : Nat :=
  limitOr limits.maximumObjectDepth DefaultTrustLimits.maximumObjectDepth

def arrayLength (limits : Limits) : Nat :=
  limitOr limits.maximumArrayLength DefaultTrustLimits.maximumArrayLength

def stringLength (limits : Limits) : Nat :=
  limitOr limits.maximumStringLength DefaultTrustLimits.maximumStringLength

end Limits

def prohibitedObjectKeys : List Text := [ascii "__proto__", ascii "prototype", ascii "constructor"]

def assertValidUnicode (value : Text) : Checked Unit :=
  throwWhen (!value.isWellFormed)
    (trustError .proofInvalid "Canonical JSON contains invalid Unicode.")

def isFinite : Number → Bool
  | .finite _ => true
  | _ => false

mutual
def visit (limits : Limits) (item : Value) (depth : Nat) : Checked Unit := do
  throwWhen (limits.objectDepth < depth)
    (trustError .proofInvalid "The trust document exceeds its maximum depth.")
  match item with
  | .null => pure ()
  | .bool _ => pure ()
  | .number n =>
    throwWhen (!isFinite n)
      (trustError .proofInvalid "The trust document contains a non-finite number.")
  | .string s =>
    throwWhen (limits.stringLength < s.length)
      (trustError .responseTooLarge "A trust document string exceeds its configured limit.")
    assertValidUnicode s
  | .undefined => throw (trustError .proofInvalid "Trust documents must contain plain JSON data.")
  | .array items =>
    throwWhen (limits.arrayLength < items.length)
      (trustError .responseTooLarge "A trust document array exceeds its configured limit.")
    visitItems limits items (depth + 1)
  | .object members => visitMembers limits members (depth + 1)
def visitItems (limits : Limits) : List Value → Nat → Checked Unit
  | [], _ => pure ()
  | item :: items, depth => do
    visit limits item depth
    visitItems limits items depth
def visitMembers (limits : Limits) : List (Text × Value) → Nat → Checked Unit
  | [], _ => pure ()
  | (key, child) :: members, depth => do
    throwWhen (prohibitedObjectKeys.contains key)
      (trustError .proofInvalid "The trust document contains a prohibited object key.")
    visit limits child depth
    visitMembers limits members depth
end

/-- The size of `JSON.stringify(value)`, against the byte limit. -/
def measureBytes (value : Value) (limits : Limits) : Checked Unit := do
  let text ← orThrow (trustError .proofInvalid "The trust document cannot be serialized.")
    (Json.stringify value)
  throwWhen (limits.bytes < Utf8.byteLength text)
    (trustError .responseTooLarge "The trust document exceeds its configured size limit.")

def validatePlainTrustData (value : Value) (limits : Limits) (measure : Bool) : Checked Value := do
  visit limits value 0
  stepWhen measure (measureBytes value limits)
  pure value

variable {limits : Limits} {depth : Nat}

section

attribute [local simp] visitItems visitMembers

theorem visitItems_ok (items : List Value) :
    visitItems limits items depth = .ok () ↔ ∀ item ∈ items, visit limits item depth = .ok () := by
  induction items with
  | nil => simp
  | cons item items ih => simp [ih]

theorem visitMembers_ok (members : List (Text × Value)) :
    visitMembers limits members depth = .ok () ↔
      ∀ m ∈ members, m.1 ∉ prohibitedObjectKeys ∧ visit limits m.2 depth = .ok () := by
  induction members with
  | nil => simp
  | cons m members ih => simp [ih, and_assoc]

end

section

attribute [local simp] visit

theorem visit_undefined : visit limits .undefined depth ≠ .ok () := by
  simp

theorem visit_number (n : Number) :
    visit limits (.number n) depth = .ok () ↔
      depth ≤ limits.objectDepth ∧ isFinite n = true := by
  simp

theorem visit_string (s : Text) :
    visit limits (.string s) depth = .ok () ↔
      depth ≤ limits.objectDepth ∧ s.length ≤ limits.stringLength ∧ s.isWellFormed = true := by
  simp [assertValidUnicode]

theorem visit_array (items : List Value) :
    visit limits (.array items) depth = .ok () ↔
      depth ≤ limits.objectDepth ∧ items.length ≤ limits.arrayLength ∧
        ∀ item ∈ items, visit limits item (depth + 1) = .ok () := by
  simp [visitItems_ok]

theorem visit_object (members : List (Text × Value)) :
    visit limits (.object members) depth = .ok () ↔
      depth ≤ limits.objectDepth ∧
        ∀ m ∈ members, m.1 ∉ prohibitedObjectKeys ∧ visit limits m.2 (depth + 1) = .ok () := by
  simp [visitMembers_ok]

end

theorem isJson_of_visit {v : Value} (h : visit limits v depth = .ok ()) : v.isJson = true := by
  induction v using Value.inductionOn generalizing depth with
  | undefined => exact absurd h visit_undefined
  | null => rfl
  | bool b => rfl
  | number n =>
    cases n with
    | finite x => rfl
    | _ => simp [visit_number, isFinite] at h
  | string s => rfl
  | array items ih =>
    rw [visit_array] at h
    exact (Value.isJson_array items).mpr fun item hi => ih item hi (h.2.2 item hi)
  | object members ih =>
    rw [visit_object] at h
    exact (Value.isJson_object members).mpr fun m hm => ih m hm (h.2 m hm).2

theorem validatePlainTrustData_ok {value result : Value} {measure : Bool}
    (h : validatePlainTrustData value limits measure = .ok result) :
    visit limits value 0 = .ok () ∧ result = value := by
  simp only [validatePlainTrustData, bind_ok, exists_unit, stepWhen_ok, pure_ok] at h
  exact ⟨h.1, h.2.2.symm⟩

end GhostBridge.Trust

/-!
## Canonical JSON

Canonical text lists members in code-unit order of their names. It determines the value up to
member order, and parsing it gives the value back.
-/

namespace GhostBridge.Trust

open Ecma

mutual
def serializeCanonical : Value → Checked Text
  | .null => pure (ascii "null")
  | .bool b => pure (if b then ascii "true" else ascii "false")
  | .number (.finite x) => pure x.toText
  | .number _ => throw (trustError .proofInvalid "Canonical JSON requires finite numbers.")
  | .string s => do
    assertValidUnicode s
    pure (Json.quote s)
  | .array items => do
    let texts ← serializeItems items
    pure (0x5b :: ([0x2c].intercalate texts ++ [0x5d]))
  | .object members => do
    let texts ← (Reordering.byName.order (serializeMembers members)).mapM fun m => do
      let text ← m.2
      pure (Json.quote m.1 ++ 0x3a :: text)
    pure (0x7b :: ([0x2c].intercalate texts ++ [0x7d]))
  -- `Object.keys(undefined)`
  | .undefined => throw .runtimeError
def serializeItems : List Value → Checked (List Text)
  | [] => pure []
  | item :: items => do
    let text ← serializeCanonical item
    let texts ← serializeItems items
    pure (text :: texts)
def serializeMembers : List (Text × Value) → List (Text × Checked Text)
  | [] => []
  | (key, value) :: members => (key, serializeCanonical value) :: serializeMembers members
end

def canonicalize (value : Value) (limits : Limits) : Checked Text := do
  let _ ← validatePlainTrustData value limits false
  let serialized ← serializeCanonical value
  throwWhen (limits.bytes < Utf8.byteLength serialized)
    (trustError .responseTooLarge "The canonical payload exceeds its configured size limit.")
  pure serialized

/-- `sha256-` and the base64url hash of the canonical text. -/
def digest (value : Value) : Checked Text := do
  let text ← canonicalize value {}
  pure (ascii "sha256-" ++ Base64Url.encode (Sha256.hash (Utf8.encode text)))

variable {limits : Limits} {depth : Nat}

private theorem serializeItems_ok {items : List Value}
    (h : ∀ item ∈ items, serializeCanonical item = .ok (Json.write item.sorted)) :
    serializeItems items = .ok (items.map fun item => Json.write item.sorted) := by
  induction items with
  | nil => rfl
  | cons item items ih =>
    rw [List.forall_mem_cons] at h
    rw [serializeItems, h.1, ih h.2]
    rfl

private theorem serializeMembers_eq (members : List (Text × Value)) :
    serializeMembers members = members.map (Prod.map id serializeCanonical) := by
  induction members with
  | nil => rfl
  | cons m members ih => rw [serializeMembers, ih, List.map_cons]; rfl

theorem serializeCanonical_of_visit {v : Value} (h : visit limits v depth = .ok ()) :
    serializeCanonical v = .ok (Json.write v.sorted) := by
  induction v using Value.inductionOn generalizing depth with
  | undefined => exact absurd h visit_undefined
  | null => rfl
  | bool b => cases b <;> rfl
  | number n =>
    cases n with
    | finite x =>
      exact congrArg Except.ok x.toText_unsignedZero.symm
    | _ => simp [visit_number, isFinite] at h
  | string s =>
    rw [visit_string] at h
    simp only [serializeCanonical, assertValidUnicode, h.2.2]
    rfl
  | array items ih =>
    rw [visit_array] at h
    have hitems := serializeItems_ok fun item hi => ih item hi (h.2.2 item hi)
    rw [serializeCanonical, hitems, Value.sorted_array, Json.write_array, List.map_map]
    rfl
  | object members ih =>
    have hjson := (Value.isJson_object members).mp (isJson_of_visit h)
    rw [visit_object] at h
    have hmembers : ∀ m ∈ Reordering.byName.order members,
        serializeCanonical m.2 = .ok (Json.write m.2.sorted) := fun m hm =>
      have hm := (Reordering.byName.perm _).mem_iff.mp hm
      ih m hm (h.2 m hm).2
    have htexts : ((Reordering.byName.order members).map (Prod.map id serializeCanonical)).mapM
        (fun m => do
          let text ← m.2
          pure (Json.quote m.1 ++ 0x3a :: text)) =
        (.ok ((Reordering.byName.order members).map fun m => Json.writeMember (m.1, m.2.sorted)) :
          Checked (List Text)) := by
      rw [List.mapM_map]
      refine mapM_eq_map fun m hm => ?_
      change (do
        let text ← serializeCanonical m.2
        pure (Json.quote m.1 ++ 0x3a :: text)) = _
      rw [hmembers m hm]
      rfl
    rw [serializeCanonical, serializeMembers_eq, Reordering.natural, htexts, Value.sorted_object,
      Reordering.natural, Json.write_object]
    · rw [List.map_map]
      rfl
    · intro m hm
      obtain ⟨n, hn, rfl⟩ := List.mem_map.mp hm
      exact Value.isJson_rebuild _ (hjson n ((Reordering.byName.perm _).mem_iff.mp hn))

theorem visit_rebuild {v : Value} (ρ : Reordering) (h : visit limits v depth = .ok ()) :
    visit limits (v.rebuild Number.unsignedZero ρ) depth = .ok () := by
  induction v using Value.inductionOn generalizing depth with
  | number n => cases n <;> simp_all [visit_number, Value.rebuild, Number.unsignedZero, isFinite]
  | array items ih =>
    rw [visit_array] at h
    rw [Value.rebuild_array, visit_array, List.length_map, List.forall_mem_map]
    exact ⟨h.1, h.2.1, fun item hi => ih item hi (h.2.2 item hi)⟩
  | object members ih =>
    rw [visit_object] at h
    rw [Value.rebuild_object, visit_object]
    refine ⟨h.1, fun m hm => ?_⟩
    obtain ⟨n, hn, rfl⟩ := List.mem_map.mp ((ρ.perm _).mem_iff.mp hm)
    exact ⟨(h.2 n hn).1, ih n hn (h.2 n hn).2⟩
  | _ => simpa [Value.rebuild] using h

theorem canonicalize_ok {v : Value} {text : Text} :
    canonicalize v limits = .ok text ↔
      visit limits v 0 = .ok () ∧ text = Json.write v.sorted ∧
        Utf8.byteLength text ≤ limits.bytes := by
  constructor
  · intro h
    simp only [canonicalize, bind_ok, throwWhen_ok, decide_eq_false_iff_not, not_lt, pure_ok] at h
    obtain ⟨_, hv, serialized, hs, _, hlimit, rfl⟩ := h
    have hvisit := (validatePlainTrustData_ok hv).1
    rw [serializeCanonical_of_visit hvisit, Except.ok.injEq] at hs
    exact ⟨hvisit, hs.symm, hlimit⟩
  · rintro ⟨hvisit, rfl, hlimit⟩
    simp [canonicalize, validatePlainTrustData, stepWhen, hvisit, serializeCanonical_of_visit hvisit, hlimit]

theorem parse_canonical {v : Value} (hv : v.uniqueKeys = true) {text : Text}
    (h : canonicalize v limits = .ok text) :
    ∃ p : PlainValue, Json.parse text = some p ∧ p.1.sorted = v.sorted ∧
      visit limits p 0 = .ok () := by
  obtain ⟨hvisit, rfl, _⟩ := canonicalize_ok.mp h
  have hsorted : v.sorted.uniqueKeys = true := Value.rebuild_uniqueKeys _ _ hv
  have hjson : v.sorted.isJson = true := Value.isJson_rebuild _ (isJson_of_visit hvisit)
  refine ⟨⟨v.sorted.parsed, Value.rebuild_uniqueKeys _ _ hsorted⟩,
    Json.parse_write hjson hsorted, ?_, visit_rebuild _ (visit_rebuild _ hvisit)⟩
  exact (Value.sorted_rebuild .propertyOrder hsorted).trans (Value.sorted_rebuild .byName hv)

theorem canonical_inj {limits₁ limits₂ : Limits} {v w : Value} (hv : v.uniqueKeys = true)
    (hw : w.uniqueKeys = true) {s t : Text} (hs : canonicalize v limits₁ = .ok s)
    (ht : canonicalize w limits₂ = .ok t) : s = t ↔ v.sorted = w.sorted := by
  constructor
  · rintro rfl
    obtain ⟨p, hp, hpv, _⟩ := parse_canonical hv hs
    obtain ⟨q, hq, hqw, _⟩ := parse_canonical hw ht
    have hpq : p.1 = q.1 := Option.some.inj (hp.symm.trans hq)
    rw [← hpv, ← hqw, hpq]
  · intro h
    rw [(canonicalize_ok.mp hs).2.1, (canonicalize_ok.mp ht).2.1, h]

/-- Canonical text determines the value up to member order, and parses back to it. -/
theorem canonicalize_faithful (limits₁ limits₂ : Limits) (v w : PlainValue) (s t : Text)
    (hv : canonicalize v limits₁ = .ok s) (hw : canonicalize w limits₂ = .ok t) :
    (s = t ↔ v.1.sameUpToOrder w = true) ∧
      ∃ p : PlainValue, Json.parse s = some p ∧ p.1.sameUpToOrder v = true ∧
        canonicalize p limits₁ = .ok s := by
  refine ⟨?_, ?_⟩
  · rw [canonical_inj v.2 w.2 hv hw, Value.sameUpToOrder_iff_sorted v.2 w.2]
  · obtain ⟨p, hp, hsorted, hvisit⟩ := parse_canonical v.2 hv
    obtain ⟨_, htext, hlimit⟩ := canonicalize_ok.mp hv
    refine ⟨p, hp, (Value.sameUpToOrder_iff_sorted p.2 v.2).mpr hsorted, ?_⟩
    exact canonicalize_ok.mpr ⟨hvisit, by rw [hsorted, htext], hlimit⟩

/-- Two spellings of one object. -/
theorem canonicalize_faithful_reordered :
    (ascii "\x7b\"a\":[\"x\"],\"b\":0\x7d" = ascii "\x7b\"a\":[\"x\"],\"b\":0\x7d" ↔
      (Value.object [(ascii "b", .number (.finite (.zero true))),
          (ascii "a", .array [.string (ascii "x")])]).sameUpToOrder
        (.object [(ascii "a", .array [.string (ascii "x")]),
          (ascii "b", .number (.finite (.zero false)))]) = true) ∧
      ∃ p : PlainValue,
        Json.parse (ascii "\x7b\"a\":[\"x\"],\"b\":0\x7d") = some p ∧
          p.1.sameUpToOrder (.object [(ascii "b", .number (.finite (.zero true))),
            (ascii "a", .array [.string (ascii "x")])]) = true ∧
          canonicalize p {} = .ok (ascii "\x7b\"a\":[\"x\"],\"b\":0\x7d") :=
  canonicalize_faithful {} {}
    ⟨.object [(ascii "b", .number (.finite (.zero true))),
      (ascii "a", .array [.string (ascii "x")])], by decide⟩
    ⟨.object [(ascii "a", .array [.string (ascii "x")]),
      (ascii "b", .number (.finite (.zero false)))], by decide⟩
    (ascii "\x7b\"a\":[\"x\"],\"b\":0\x7d") (ascii "\x7b\"a\":[\"x\"],\"b\":0\x7d")
    (by decide) (by decide)

end GhostBridge.Trust
