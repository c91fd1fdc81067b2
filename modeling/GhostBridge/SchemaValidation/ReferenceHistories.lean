import GhostBridge.Machine.Register
import GhostBridge.SchemaValidation.IdentityCapability
import GhostBridge.SchemaValidation.NestedMap
import Mathlib.Data.Fin.VecNotation

/-!
# Histories of references

Checks over a list of references, which remember the first occurrence of every key in nested maps.
-/

namespace GhostBridge.SchemaValidation

open Ecma Machine

def isArtifactRecord (record : Value) : Bool :=
  hasExactObjectKeys record
      [ascii "artifactClass", ascii "artifactIdentity", ascii "artifactByteIntegrity"] &&
    isOneOf artifactSemanticClasses (record.field (ascii "artifactClass")) &&
    isImmutableArtifactIdentity (record.field (ascii "artifactIdentity")) &&
    isArtifactByteIntegrityRef (record.field (ascii "artifactByteIntegrity"))

/-- One round of `artifactHistoryIsConsistent`; nothing when it returns false. -/
def bindArtifact (bindings : NestedMap Value Value 1) (record : Value) :
    Option (NestedMap Value Value 1) :=
  if !isArtifactRecord record then none
  else
    let (byIdentity, changed) := nestedMap bindings ![record.field (ascii "artifactClass")]
    match byIdentity.get? (record.field (ascii "artifactIdentity")) with
    | some previous =>
      if !artifactByteIntegrityRefsEqual previous (record.field (ascii "artifactByteIntegrity")) then
        none
      else some (changed byIdentity)
    | none =>
      some (changed (byIdentity.set (record.field (ascii "artifactIdentity"))
        (record.field (ascii "artifactByteIntegrity"))))

def artifactHistoryIsConsistent : Value → Bool
  | .array records => (records.foldlM bindArtifact (.empty 1)).isSome
  | _ => false

def referenceArtifactHistoryIsConsistent (records : List Value)
    (artifactClass artifactIdentityProperty : String) : Bool :=
  artifactHistoryIsConsistent <| .array <| records.map fun reference => .record [
    ("artifactClass", .string (ascii artifactClass)),
    ("artifactIdentity", reference.field (ascii artifactIdentityProperty)),
    ("artifactByteIntegrity", reference.field (ascii "artifactByteIntegrity"))]

/-- One round over the mappings of `passportReferenceHistoryIsConsistent`. -/
def bindMapping (mappings : NestedMap Value Value 3) (reference : Value) :
    Option (NestedMap Value Value 3) :=
  let (coordinate, changed) := nestedMap mappings ![reference.field (ascii "protocolRelease"),
    (reference.field (ascii "passportIdentity")).field (ascii "issuer"),
    (reference.field (ascii "passportIdentity")).field (ascii "local")]
  match coordinate.get? (reference.field (ascii "passportVersion")) with
  | some previous =>
    if !passportReferenceMappingsEqual previous reference then none else some (changed coordinate)
  | none =>
    some (changed (coordinate.set (reference.field (ascii "passportVersion")) reference))

def passportReferenceHistoryIsConsistent : Value → Bool
  | .array records =>
    if !records.all isPassportReference then false
    else if !referenceArtifactHistoryIsConsistent records "passportArtifact" "passportArtifact" then
      false
    else (records.foldlM bindMapping (.empty 3)).isSome
  | _ => false

def declaredNamespace (key : Value) : Value :=
  if (key.field (ascii "namespaceClass")).strictEq (.string (ascii "external")) then
    key.field (ascii "namespace")
  else .string []

/-- One round over the declarations of `capabilityContractReferenceHistoryIsConsistent`. -/
def declare (declarations : NestedMap Value Unit 4) (reference : Value) :
    Option (NestedMap Value Unit 4) :=
  let key := reference.field (ascii "capabilityKey")
  let (coordinate, changed) := nestedMap declarations ![reference.field (ascii "protocolRelease"),
    key.field (ascii "namespaceClass"), declaredNamespace key, key.field (ascii "name")]
  if coordinate.has (reference.field (ascii "capabilityVersion")) then none
  else some (changed (coordinate.set (reference.field (ascii "capabilityVersion")) ()))

def capabilityContractReferenceHistoryIsConsistent : Value → Bool
  | .array records =>
    if !records.all isCapabilityContractReference then false
    else if !referenceArtifactHistoryIsConsistent records "capabilityContractArtifact"
        "capabilityContractArtifact" then false
    else (records.foldlM declare (.empty 4)).isSome
  | _ => false

private theorem bindArtifact_refines (bindings : NestedMap Value Value 1) (record : Value) :
    (bindArtifact bindings record).map NestedMap.lookup =
      enter isArtifactRecord
        (fun r => (![r.field (ascii "artifactClass")], r.field (ascii "artifactIdentity")))
        (fun r => r.field (ascii "artifactByteIntegrity")) artifactByteIntegrityRefsEqual
        bindings.lookup record := by
  by_cases hvalid : isArtifactRecord record = true
  · simp only [bindArtifact, enter, hvalid, Bool.not_true, Bool.false_eq_true, if_false, if_true]
    have hlookup : bindings.lookup
        (![record.field (ascii "artifactClass")], record.field (ascii "artifactIdentity")) =
        (nestedMap bindings ![record.field (ascii "artifactClass")]).1.get?
          (record.field (ascii "artifactIdentity")) := rfl
    rw [hlookup]
    cases (nestedMap bindings ![record.field (ascii "artifactClass")]).1.get?
        (record.field (ascii "artifactIdentity")) with
    | none => simp [NestedMap.lookup_set]
    | some previous =>
      by_cases hequal : artifactByteIntegrityRefsEqual previous
          (record.field (ascii "artifactByteIntegrity")) = true
      · simp [hequal, NestedMap.lookup_created]
      · simp [hequal]
  · simp [bindArtifact, enter, hvalid]

private theorem bindMapping_refines (mappings : NestedMap Value Value 3) (reference : Value) :
    (bindMapping mappings reference).map NestedMap.lookup =
      enter (fun _ => true)
        (fun r => (![r.field (ascii "protocolRelease"),
          (r.field (ascii "passportIdentity")).field (ascii "issuer"),
          (r.field (ascii "passportIdentity")).field (ascii "local")],
          r.field (ascii "passportVersion")))
        id passportReferenceMappingsEqual mappings.lookup reference := by
  generalize hpath : ![reference.field (ascii "protocolRelease"),
    (reference.field (ascii "passportIdentity")).field (ascii "issuer"),
    (reference.field (ascii "passportIdentity")).field (ascii "local")] = path
  simp only [bindMapping, enter, hpath, if_true, id]
  have hlookup : mappings.lookup (path, reference.field (ascii "passportVersion")) =
      (nestedMap mappings path).1.get? (reference.field (ascii "passportVersion")) := rfl
  rw [hlookup]
  cases (nestedMap mappings path).1.get? (reference.field (ascii "passportVersion")) with
  | none => simp [NestedMap.lookup_set]
  | some previous =>
    by_cases hequal : passportReferenceMappingsEqual previous reference = true
    · simp [hequal, NestedMap.lookup_created]
    · simp [hequal]

private theorem declare_refines (declarations : NestedMap Value Unit 4) (reference : Value) :
    (declare declarations reference).map NestedMap.lookup =
      enter (fun _ => true)
        (fun r => (![r.field (ascii "protocolRelease"),
          (r.field (ascii "capabilityKey")).field (ascii "namespaceClass"),
          declaredNamespace (r.field (ascii "capabilityKey")),
          (r.field (ascii "capabilityKey")).field (ascii "name")],
          r.field (ascii "capabilityVersion")))
        (fun _ => ()) (fun _ _ => false) declarations.lookup reference := by
  generalize hpath : ![reference.field (ascii "protocolRelease"),
    (reference.field (ascii "capabilityKey")).field (ascii "namespaceClass"),
    declaredNamespace (reference.field (ascii "capabilityKey")),
    (reference.field (ascii "capabilityKey")).field (ascii "name")] = path
  simp only [declare, enter, hpath, if_true, OrderedMap.has_eq_isSome]
  have hlookup : declarations.lookup (path, reference.field (ascii "capabilityVersion")) =
      (nestedMap declarations path).1.get? (reference.field (ascii "capabilityVersion")) := rfl
  rw [hlookup]
  cases (nestedMap declarations path).1.get? (reference.field (ascii "capabilityVersion")) with
  | none => simp [NestedMap.lookup_set]
  | some previous => simp

theorem artifactHistoryIsConsistent_iff (records : List Value) :
    artifactHistoryIsConsistent (.array records) = true ↔
      (∀ record ∈ records, isArtifactRecord record = true) ∧
      Functional
        (fun r => (r.field (ascii "artifactClass"), r.field (ascii "artifactIdentity")))
        (fun r => integrity (r.field (ascii "artifactByteIntegrity"))) records := by
  have hagrees : ∀ a b c, artifactByteIntegrityRefsEqual a b = true →
      artifactByteIntegrityRefsEqual a c = true → artifactByteIntegrityRefsEqual b c = true := by
    intro a b c hab hac
    rw [artifactByteIntegrityRefsEqual_iff] at hab hac ⊢
    exact ⟨hab.2.1, hac.2.1, hab.2.2.symm.trans hac.2.2⟩
  rw [artifactHistoryIsConsistent, isSome_foldlM_of_refines bindArtifact_refines,
    NestedMap.lookup_empty, isSome_foldlM_enter hagrees]
  apply and_congr_right
  intro hvalid
  have hequal : ∀ a ∈ records, ∀ b ∈ records,
      (a.field (ascii "artifactClass"), a.field (ascii "artifactIdentity")) =
        (b.field (ascii "artifactClass"), b.field (ascii "artifactIdentity")) →
      (artifactByteIntegrityRefsEqual (a.field (ascii "artifactByteIntegrity"))
        (b.field (ascii "artifactByteIntegrity")) = true ↔
      integrity (a.field (ascii "artifactByteIntegrity")) =
        integrity (b.field (ascii "artifactByteIntegrity"))) := by
    intro a ha b hb _
    have hleft := hvalid a ha
    have hright := hvalid b hb
    rw [isArtifactRecord, Bool.and_eq_true] at hleft hright
    rw [artifactByteIntegrityRefsEqual_iff]
    simp [hleft.2, hright.2]
  rw [← pairwise_iff_functional hequal]
  simp [Prod.mk.injEq]

private theorem referenceArtifactHistoryIsConsistent_iff {records : List Value}
    {artifactClass artifactIdentityProperty : String}
    (hclass : ascii artifactClass ∈ artifactSemanticClasses)
    (hrecords : ∀ reference ∈ records,
      isImmutableArtifactIdentity (reference.field (ascii artifactIdentityProperty)) = true ∧
      isArtifactByteIntegrityRef (reference.field (ascii "artifactByteIntegrity")) = true) :
    referenceArtifactHistoryIsConsistent records artifactClass artifactIdentityProperty = true ↔
      Functional (fun r => r.field (ascii artifactIdentityProperty))
        (fun r => integrity (r.field (ascii "artifactByteIntegrity"))) records := by
  rw [referenceArtifactHistoryIsConsistent, artifactHistoryIsConsistent_iff]
  have hfields : ∀ identity integrity : Value,
      let record := Value.record [("artifactClass", .string (ascii artifactClass)),
        ("artifactIdentity", identity), ("artifactByteIntegrity", integrity)]
      record.field (ascii "artifactClass") = .string (ascii artifactClass) ∧
        record.field (ascii "artifactIdentity") = identity ∧
        record.field (ascii "artifactByteIntegrity") = integrity := by
    intro identity integrity
    exact ⟨rfl, rfl, rfl⟩
  have hvalid : ∀ identity integrity : Value, isImmutableArtifactIdentity identity = true →
      isArtifactByteIntegrityRef integrity = true →
      isArtifactRecord (Value.record [("artifactClass", .string (ascii artifactClass)),
        ("artifactIdentity", identity), ("artifactByteIntegrity", integrity)]) = true := by
    intro identity integrity hidentity hintegrity
    obtain ⟨hc, hi, hb⟩ := hfields identity integrity
    rw [isArtifactRecord, hc, hi, hb, hidentity, hintegrity]
    have hone : isOneOf artifactSemanticClasses (.string (ascii artifactClass)) = true :=
      List.contains_iff_mem.mpr hclass
    rw [hone]
    rfl
  constructor
  · rintro ⟨-, hfunctional⟩ a ha b hb hkey
    have hab := hfunctional _ (List.mem_map_of_mem ha) _ (List.mem_map_of_mem hb)
    simp only [(hfields _ _).1, (hfields _ _).2.1, (hfields _ _).2.2] at hab
    exact hab (Prod.ext rfl hkey)
  · intro hfunctional
    refine ⟨?_, ?_⟩
    · intro record hrecord
      obtain ⟨reference, hreference, rfl⟩ := List.mem_map.mp hrecord
      exact hvalid _ _ (hrecords reference hreference).1 (hrecords reference hreference).2
    · intro a ha b hb hkey
      obtain ⟨reference, hreference, rfl⟩ := List.mem_map.mp ha
      obtain ⟨other, hother, rfl⟩ := List.mem_map.mp hb
      simp only [(hfields _ _).1, (hfields _ _).2.1, (hfields _ _).2.2, Prod.mk.injEq,
        true_and] at hkey ⊢
      exact hfunctional reference hreference other hother hkey

theorem passportReferenceHistoryIsConsistent_iff (references : List Value) :
    passportReferenceHistoryIsConsistent (.array references) = true ↔
      (∀ reference ∈ references, isPassportReference reference = true) ∧
      Functional (fun r => r.field (ascii "passportArtifact"))
        (fun r => integrity (r.field (ascii "artifactByteIntegrity"))) references ∧
      Functional passportCoordinate passportMapping references := by
  rw [passportReferenceHistoryIsConsistent]
  by_cases hall : ∀ reference ∈ references, isPassportReference reference = true
  · have hrecords : ∀ reference ∈ references,
        isImmutableArtifactIdentity (reference.field (ascii "passportArtifact")) = true ∧
        isArtifactByteIntegrityRef (reference.field (ascii "artifactByteIntegrity")) = true := by
      intro reference hreference
      have h := hall reference hreference
      simp only [isPassportReference, Bool.and_eq_true] at h
      exact ⟨h.1.2, h.2⟩
    have hartifacts : referenceArtifactHistoryIsConsistent references "passportArtifact"
        "passportArtifact" = true ↔ _ :=
      referenceArtifactHistoryIsConsistent_iff (by decide) hrecords
    have hagrees : ∀ a b c, passportReferenceMappingsEqual a b = true →
        passportReferenceMappingsEqual a c = true → passportReferenceMappingsEqual b c = true := by
      intro a b c hab hac
      rw [passportReferenceMappingsEqual_iff] at hab hac ⊢
      obtain ⟨-, hb, hcoordinate, hmapping⟩ := hab
      obtain ⟨-, hc, hcoordinate', hmapping'⟩ := hac
      exact ⟨hb, hc, hcoordinate.symm.trans hcoordinate', hmapping.symm.trans hmapping'⟩
    have hmappings : (references.foldlM bindMapping (.empty 3)).isSome = true ↔
        Functional passportCoordinate passportMapping references := by
      rw [isSome_foldlM_of_refines bindMapping_refines, NestedMap.lookup_empty,
        isSome_foldlM_enter hagrees]
      have hequal : ∀ a ∈ references, ∀ b ∈ references,
          passportCoordinate a = passportCoordinate b →
          (passportReferenceMappingsEqual a b = true ↔ passportMapping a = passportMapping b) := by
        intro a ha b hb hcoordinate
        rw [passportReferenceMappingsEqual_iff]
        simp only [hall a ha, hall b hb, hcoordinate, true_and]
      rw [← pairwise_iff_functional hequal]
      simp [passportCoordinate, Matrix.vecCons_inj, and_assoc]
    have hvalid : references.all isPassportReference = true := List.all_eq_true.mpr hall
    rw [← hartifacts, ← hmappings, hvalid, and_iff_right hall]
    simp
  · simp [hall]

def capabilityCoordinate (reference : Value) : Value × Value × Value × Value × Value :=
  let key := reference.field (ascii "capabilityKey")
  (reference.field (ascii "protocolRelease"), key.field (ascii "namespaceClass"),
    key.field (ascii "namespace"), key.field (ascii "name"),
    reference.field (ascii "capabilityVersion"))

private theorem namespaceClass_cases {key : Value} (h : isCapabilityKey key = true) :
    (key.field (ascii "namespaceClass") = .string (ascii "core") ∧
      key.field (ascii "namespace") = .undefined) ∨
    key.field (ascii "namespaceClass") = .string (ascii "external") := by
  unfold isCapabilityKey at h
  split at h
  · cases h
  split at h
  · cases h
  split at h
  · rename_i hcore
    refine .inl ⟨(Value.strictEq_string _ _).mp hcore, ?_⟩
    exact field_of_hasExactObjectKeys h (by decide) (by decide)
  · simp only [Bool.and_eq_true, Value.strictEq_string] at h
    exact .inr h.1.1

private theorem declaredNamespace_iff {left right : Value} (hleft : isCapabilityKey left = true)
    (hright : isCapabilityKey right = true)
    (hclass : left.field (ascii "namespaceClass") = right.field (ascii "namespaceClass")) :
    declaredNamespace left = declaredNamespace right ↔
      left.field (ascii "namespace") = right.field (ascii "namespace") := by
  have hne : (Value.string (ascii "core")).strictEq (.string (ascii "external")) = false := by decide
  unfold declaredNamespace
  rw [← hclass]
  -- both namespaces are absent, or both are the declared ones
  rcases namespaceClass_cases hleft with ⟨hcore, hnone⟩ | hexternal
  · rcases namespaceClass_cases hright with ⟨-, hnone'⟩ | hexternal'
    · simp [hcore, hne, hnone, hnone']
    · rw [hcore, hexternal'] at hclass
      exact absurd hclass (by decide)
  · rw [hexternal]
    simp

theorem capabilityContractReferenceHistoryIsConsistent_iff (references : List Value) :
    capabilityContractReferenceHistoryIsConsistent (.array references) = true ↔
      (∀ reference ∈ references, isCapabilityContractReference reference = true) ∧
      Functional (fun r => r.field (ascii "capabilityContractArtifact"))
        (fun r => integrity (r.field (ascii "artifactByteIntegrity"))) references ∧
      (references.map capabilityCoordinate).Nodup := by
  rw [capabilityContractReferenceHistoryIsConsistent]
  by_cases hall : ∀ reference ∈ references, isCapabilityContractReference reference = true
  · have hparts : ∀ reference ∈ references,
        isCapabilityKey (reference.field (ascii "capabilityKey")) = true ∧
        isImmutableArtifactIdentity (reference.field (ascii "capabilityContractArtifact")) = true ∧
        isArtifactByteIntegrityRef (reference.field (ascii "artifactByteIntegrity")) = true := by
      intro reference hreference
      have h := hall reference hreference
      simp only [isCapabilityContractReference, Bool.and_eq_true] at h
      exact ⟨h.1.1.1.2, h.1.2, h.2⟩
    have hartifacts : referenceArtifactHistoryIsConsistent references "capabilityContractArtifact"
        "capabilityContractArtifact" = true ↔ _ :=
      referenceArtifactHistoryIsConsistent_iff (by decide) fun r hr => (hparts r hr).2
    have hdeclarations : (references.foldlM declare (.empty 4)).isSome = true ↔
        (references.map capabilityCoordinate).Nodup := by
      rw [isSome_foldlM_of_refines declare_refines, NestedMap.lookup_empty,
        isSome_foldlM_enter (by simp), List.Nodup, List.pairwise_map]
      simp only [implies_true, true_and, Bool.false_eq_true]
      apply List.Pairwise.iff_of_mem
      intro a b ha hb
      rw [imp_false, not_iff_not]
      have hnamespace := declaredNamespace_iff (hparts a ha).1 (hparts b hb).1
      simp only [capabilityCoordinate, Matrix.vecCons_inj, Prod.mk.injEq, and_true]
      tauto
    have hvalid : references.all isCapabilityContractReference = true := List.all_eq_true.mpr hall
    rw [← hartifacts, ← hdeclarations, hvalid, and_iff_right hall]
    simp
  · simp [hall]

/-- The consistent histories of references are those that bind each artifact to one integrity and
each passport coordinate to one artifact, and that declare no capability coordinate twice; neither
the order of a history nor the removal of references matters to it. -/
theorem reference_histories_consistent :
    (∀ references, passportReferenceHistoryIsConsistent (.array references) = true ↔
      (∀ reference ∈ references, isPassportReference reference = true) ∧
      Functional (fun r => r.field (ascii "passportArtifact"))
        (fun r => integrity (r.field (ascii "artifactByteIntegrity"))) references ∧
      Functional passportCoordinate passportMapping references) ∧
    (∀ references, capabilityContractReferenceHistoryIsConsistent (.array references) = true ↔
      (∀ reference ∈ references, isCapabilityContractReference reference = true) ∧
      Functional (fun r => r.field (ascii "capabilityContractArtifact"))
        (fun r => integrity (r.field (ascii "artifactByteIntegrity"))) references ∧
      (references.map capabilityCoordinate).Nodup) ∧
    (∀ references others : List Value, references.Perm others →
      passportReferenceHistoryIsConsistent (.array references) =
        passportReferenceHistoryIsConsistent (.array others) ∧
      capabilityContractReferenceHistoryIsConsistent (.array references) =
        capabilityContractReferenceHistoryIsConsistent (.array others)) ∧
    (∀ references others : List Value, references.Sublist others →
      (passportReferenceHistoryIsConsistent (.array others) = true →
        passportReferenceHistoryIsConsistent (.array references) = true) ∧
      (capabilityContractReferenceHistoryIsConsistent (.array others) = true →
        capabilityContractReferenceHistoryIsConsistent (.array references) = true)) := by
  have hpassports : ∀ references others : List Value, references ⊆ others →
      passportReferenceHistoryIsConsistent (.array others) = true →
        passportReferenceHistoryIsConsistent (.array references) = true := by
    intro references others hsubset h
    rw [passportReferenceHistoryIsConsistent_iff] at h ⊢
    obtain ⟨hvalid, hartifacts, hmappings⟩ := h
    exact ⟨fun r hr => hvalid r (hsubset hr), hartifacts.mono hsubset, hmappings.mono hsubset⟩
  have hcapabilities : ∀ references others : List Value, references.Subperm others →
      capabilityContractReferenceHistoryIsConsistent (.array others) = true →
        capabilityContractReferenceHistoryIsConsistent (.array references) = true := by
    intro references others hsubperm h
    rw [capabilityContractReferenceHistoryIsConsistent_iff] at h ⊢
    obtain ⟨hvalid, hartifacts, hcoordinates⟩ := h
    refine ⟨fun r hr => hvalid r (hsubperm.subset hr), hartifacts.mono hsubperm.subset, ?_⟩
    obtain ⟨part, hperm, hsublist⟩ := hsubperm
    have hpart := hcoordinates.sublist (hsublist.map capabilityCoordinate)
    exact (hperm.map capabilityCoordinate).nodup_iff.mp hpart
  refine ⟨passportReferenceHistoryIsConsistent_iff,
    capabilityContractReferenceHistoryIsConsistent_iff, ?_, ?_⟩
  · intro references others hperm
    refine ⟨?_, ?_⟩
    · rw [Bool.eq_iff_iff]
      exact ⟨hpassports _ _ hperm.symm.subset, hpassports _ _ hperm.subset⟩
    · rw [Bool.eq_iff_iff]
      exact ⟨hcapabilities _ _ hperm.symm.subperm, hcapabilities _ _ hperm.subperm⟩
  · intro references others hsublist
    exact ⟨hpassports _ _ hsublist.subset, hcapabilities _ _ hsublist.subperm⟩

def exampleReference (version : String) (byteLength : ℕ) : Value :=
  let urn := Value.string (ascii "urn:uuid:00000000-0000-4000-8000-000000000000")
  .record [("passportIdentity", .record [("issuer", urn), ("local", .string (ascii "agent"))]),
    ("passportVersion", .string (ascii version)),
    ("protocolRelease", .string protocolRelease),
    ("passportArtifact", urn),
    ("artifactByteIntegrity", .record [("algorithm", .string (ascii "sha-256")),
      ("value", .string (List.replicate 43 0x41)), ("byteLength", .number (.ofNat byteLength))])]

example : passportReferenceHistoryIsConsistent
    (.array [exampleReference "v1" 7, exampleReference "v2" 7]) = true := by decide +kernel

example : passportReferenceHistoryIsConsistent
    (.array [exampleReference "v1" 7, exampleReference "v2" 8]) = false := by decide +kernel

end GhostBridge.SchemaValidation
