import GhostBridge.Ecma.OrderedMap
import GhostBridge.Trust.ProofIntegrity

/-!
# Capability manifests

A signed manifest lists the contracts of an agent by key, version and digest.
-/

namespace GhostBridge.Trust

open Ecma

/-- A value as the key of a `Map`. -/
structure MapKey where
  value : Value

instance : BEq MapKey := ⟨fun a b => a.value.sameValueZero b.value⟩

structure ManifestOptions extends VerifyOptions where
  jwks : Value := .undefined

def manifestMismatch : String → Failure := trustError .capabilityManifestMismatch

/-- `[contract.capabilityKey, contract]`. -/
def keyedContract (contract : Value) : Checked (MapKey × Value) := do
  let key ← orThrow .runtimeError (contract.get (ascii "capabilityKey"))
  pure (⟨key⟩, contract)

def checkEntry (contractMap : OrderedMap MapKey Value) (entry : Value) : Checked Unit := do
  let mismatch := manifestMismatch "A Capability Contract does not match its signed manifest."
  let key ← orThrow .runtimeError (entry.get (ascii "capabilityKey"))
  let contract ← orThrow mismatch (contractMap.get? ⟨key⟩)
  throwWhen (!contract.isTruthy || !(contract.field (ascii "capabilityVersion")).strictEq
    (entry.field (ascii "capabilityVersion"))) mismatch
  let contractDigest ← digest contract
  throwWhen (!(entry.field (ascii "contractDigest")).strictEq (.string contractDigest)) mismatch

def checkEntries (contractMap : OrderedMap MapKey Value) : List Value → Checked Unit
  | [] => pure ()
  | entry :: entries => do
    checkEntry contractMap entry
    checkEntries contractMap entries

def validateCapabilityManifest (host : Host) (manifest : Value) (contracts : List Value)
    (passport : Value) (options : ManifestOptions) : Checked Value := do
  let capabilities ← orThrow .runtimeError (manifest.get (ascii "capabilities"))
  throwWhen (!capabilities.isArray ||
      DefaultTrustLimits.maximumCapabilityManifestEntries < (asList capabilities).length)
    (manifestMismatch "The Capability Manifest entry set is invalid.")
  let keyed ← contracts.mapM keyedContract
  let contractMap := OrderedMap.ofEntries keyed
  throwWhen (contractMap.size != contracts.length ||
      contractMap.size != (asList capabilities).length)
    (manifestMismatch "The Capability Manifest does not exactly match the capability set.")
  checkEntries contractMap (asList capabilities)
  throwWhen passport.isNullish .runtimeError
  throwWhen (!([ascii "agentId", ascii "passportId", ascii "passportVersion"].all fun field =>
      (manifest.field field).strictEq (passport.field field)))
    (manifestMismatch "The Capability Manifest is not bound to this Agent Passport.")
  let payload ← withoutProof manifest
  let manifestDigest ← digest payload
  throwWhen (!(passport.field (ascii "capabilityManifestDigest")).strictEq (.string manifestDigest))
    (manifestMismatch "The Capability Manifest is not bound to this Agent Passport.")
  if options.jwks.isTruthy then do
    let _ ← verifyDocument host manifest options.jwks
      { options.toVerifyOptions with
        purpose := .string (ascii "capability_signing")
        expectedIssuer := passport.field (ascii "issuer") }
    pure (passport.field (ascii "capabilityManifestDigest"))
  else pure (passport.field (ascii "capabilityManifestDigest"))

/-- The entry is for this contract, in its version and with its digest. -/
def Covers (entry contract : Value) : Prop :=
  (entry.field (ascii "capabilityKey")).sameValueZero
      (contract.field (ascii "capabilityKey")) = true ∧
    (contract.field (ascii "capabilityVersion")).strictEq
      (entry.field (ascii "capabilityVersion")) = true ∧
    ∃ contractDigest, digest contract = .ok contractDigest ∧
      entry.field (ascii "contractDigest") = .string contractDigest

def DistinctKeys (a b : Value) : Prop :=
  (a.field (ascii "capabilityKey")).sameValueZero (b.field (ascii "capabilityKey")) = false

/-- The keys of the contracts are a set, and the entries cover them one to one. -/
def ExactCoverage (entries contracts : List Value) : Prop :=
  contracts.Pairwise DistinctKeys ∧
    ∃ arranged : List Value, arranged.Perm entries ∧ List.Forall₂ Covers arranged contracts

/-- As many elements as there are partners, each with a partner that no other has, can be listed
in the order of the partners. -/
private theorem exists_perm_forall₂ {α β : Type} {R : α → β → Prop} {xs : List α} {ys : List β}
    (hlength : xs.length = ys.length) (hpartner : ∀ x ∈ xs, ∃ y ∈ ys, R x y)
    (hdistinct : xs.Pairwise fun x x' => ∀ y, R x y → ¬ R x' y) :
    ∃ zs : List α, zs.Perm xs ∧ List.Forall₂ R zs ys := by
  induction xs generalizing ys with
  | nil =>
    obtain rfl := List.length_eq_zero_iff.mp hlength.symm
    exact ⟨[], .refl _, .nil⟩
  | cons x xs ih =>
    rw [List.pairwise_cons] at hdistinct
    obtain ⟨y, hy, hxy⟩ := hpartner x List.mem_cons_self
    obtain ⟨before, after, rfl⟩ := List.append_of_mem hy
    have hrest : ∀ x' ∈ xs, ∃ y' ∈ before ++ after, R x' y' := by
      intro x' hx'
      obtain ⟨y', hy', hxy'⟩ := hpartner x' (List.mem_cons_of_mem _ hx')
      have hne : y' ≠ y := fun h => hdistinct.1 x' hx' y hxy (h ▸ hxy')
      refine ⟨y', ?_, hxy'⟩
      simpa [hne] using hy'
    have hlength' : xs.length = (before ++ after).length := by
      simp only [List.length_cons, List.length_append] at hlength ⊢
      omega
    obtain ⟨zs, hperm, hzs⟩ := ih hlength' hrest hdistinct.2
    refine ⟨zs.take before.length ++ x :: zs.drop before.length, ?_, ?_⟩
    · exact List.perm_middle.trans ((List.take_append_drop _ zs).symm ▸ hperm.cons x)
    · exact List.rel_append (List.forall₂_take_append _ _ _ hzs)
        (.cons hxy (List.forall₂_drop_append _ _ _ hzs))

private theorem pairwise_of_forall₂ {α β : Type} {R : α → β → Prop} {S : β → β → Prop}
    {T : α → α → Prop} (h : ∀ x y x' y', R x y → R x' y' → S y y' → T x x') {xs : List α}
    {ys : List β} (hR : List.Forall₂ R xs ys) (hS : ys.Pairwise S) : xs.Pairwise T := by
  induction hR with
  | nil => exact .nil
  | @cons x y xs ys hxy hrest ih =>
    rw [List.pairwise_cons] at hS ⊢
    refine ⟨fun x' hx' => ?_, ih hS.2⟩
    obtain ⟨y', hy', hxy'⟩ : ∃ y' ∈ ys, R x' y' := by
      clear ih hS
      induction hrest with
      | nil => cases hx'
      | @cons a b as bs hab _ ih =>
        rcases List.mem_cons.mp hx' with rfl | hx'
        · exact ⟨b, List.mem_cons_self, hab⟩
        · obtain ⟨y', hy', hxy'⟩ := ih hx'
          exact ⟨y', List.mem_cons_of_mem _ hy', hxy'⟩
    exact h x y x' y' hxy hxy' (hS.1 y' hy')

theorem checkEntries_ok {contractMap : OrderedMap MapKey Value} {entries : List Value} :
    checkEntries contractMap entries = .ok () ↔
      ∀ entry ∈ entries, checkEntry contractMap entry = .ok () := by
  induction entries with
  | nil => simp [checkEntries]
  | cons entry entries ih => simp [checkEntries, ih]

theorem checkEntry_ok {contracts : List Value} {contractMap : OrderedMap MapKey Value}
    (hmap : contractMap.entries =
      contracts.map fun contract => (⟨contract.field (ascii "capabilityKey")⟩, contract))
    {entry : Value} (h : checkEntry contractMap entry = .ok ()) :
    ∃ contract ∈ contracts, Covers entry contract := by
  simp only [checkEntry, bind_ok, orThrow_ok, throwWhen_ok, exists_unit, Bool.or_eq_false_iff,
    Bool.not_eq_false', Value.strictEq_string] at h
  obtain ⟨key, hkey, contract, hget, ⟨_, hversion⟩, contractDigest, hdigest, hentry⟩ := h
  obtain ⟨mapKey, hmem, hsame⟩ := OrderedMap.mem_of_get? hget
  rw [hmap] at hmem
  obtain ⟨contract', hcontract, heq⟩ := List.mem_map.mp hmem
  simp only [Prod.mk.injEq] at heq
  obtain ⟨rfl, rfl⟩ := heq
  refine ⟨contract', hcontract, ?_, hversion, contractDigest, hdigest, hentry⟩
  rw [Value.sameValueZero_comm, Value.field_eq_of_get hkey]
  exact hsame

theorem keyedContract_eq {contracts : List Value} {keyed : List (MapKey × Value)}
    (h : contracts.mapM keyedContract = .ok keyed) :
    keyed = contracts.map fun contract => (⟨contract.field (ascii "capabilityKey")⟩, contract) := by
  rw [mapM_ok] at h
  induction h with
  | nil => rfl
  | @cons contract key contracts keyed hhead _ ih =>
    simp only [keyedContract, bind_ok, orThrow_ok, pure_ok] at hhead
    obtain ⟨value, hget, rfl⟩ := hhead
    rw [List.map_cons, Value.field_eq_of_get hget, ← ih]

theorem contracts_distinct {contracts : List Value} {contractMap : OrderedMap MapKey Value}
    (hmap : contractMap.entries =
      contracts.map fun contract => (⟨contract.field (ascii "capabilityKey")⟩, contract)) :
    contracts.Pairwise DistinctKeys := by
  have hdistinct := contractMap.distinct
  rw [hmap, List.pairwise_map] at hdistinct
  exact hdistinct

theorem distinctKeys_comm {a b : Value} (h : DistinctKeys a b) : DistinctKeys b a := by
  rw [DistinctKeys, Value.sameValueZero_comm]
  exact h

private theorem distinctKeys_of_covers (a c a' c' : Value) (hac : Covers a c) (hac' : Covers a' c')
    (hc : DistinctKeys c c') : DistinctKeys a a' := by
  refine Bool.eq_false_iff.mpr fun hsame => ?_
  have hc' : (c.field (ascii "capabilityKey")).sameValueZero
      (c'.field (ascii "capabilityKey")) = true :=
    Value.sameValueZero_trans (Value.sameValueZero_comm _ _ ▸ hac.1)
      (Value.sameValueZero_trans hsame hac'.1)
  exact Bool.false_ne_true (hc.symm.trans hc')

/-- An accepted manifest covers the contracts exactly when it lists no key twice. -/
theorem manifest_exact_iff_distinct (host : Host) (manifest : Value) (contracts : List Value)
    (passport : Value) (options : ManifestOptions) (manifestDigest : Value)
    (h : validateCapabilityManifest host manifest contracts passport options =
      .ok manifestDigest) :
    ∃ entries, manifest.field (ascii "capabilities") = .array entries ∧
      (ExactCoverage entries contracts ↔ entries.Pairwise DistinctKeys) := by
  simp only [validateCapabilityManifest, bind_ok, throwWhen_ok, orThrow_ok, exists_unit,
    Bool.or_eq_false_iff, Bool.not_eq_false', bne_eq_false_iff_eq] at h
  obtain ⟨capabilities, hget, ⟨harray, _⟩, keyed, hkeyed, ⟨hsize, hsize'⟩, hentries, _⟩ := h
  obtain ⟨entries, rfl⟩ : ∃ entries, capabilities = .array entries := by
    cases capabilities <;> simp_all [Value.isArray]
  change _ = entries.length at hsize'
  change checkEntries _ entries = _ at hentries
  have hkeyed := keyedContract_eq hkeyed
  have hmap : (OrderedMap.ofEntries keyed).entries =
      contracts.map fun contract => (⟨contract.field (ascii "capabilityKey")⟩, contract) := by
    rw [OrderedMap.ofEntries_of_size (by rw [hsize, hkeyed, List.length_map]), hkeyed]
  have hcontracts := contracts_distinct hmap
  refine ⟨entries, Value.field_eq_of_get hget, ?_, fun hdistinct => ⟨hcontracts, ?_⟩⟩
  · rintro ⟨_, arranged, hperm, hcovers⟩
    have harranged := pairwise_of_forall₂ distinctKeys_of_covers hcovers hcontracts
    exact (hperm.pairwise_iff distinctKeys_comm).mp harranged
  · have hcovered : ∀ entry ∈ entries, ∃ contract ∈ contracts, Covers entry contract :=
      fun entry hentry => checkEntry_ok hmap (checkEntries_ok.mp hentries entry hentry)
    refine exists_perm_forall₂ (hsize'.symm.trans hsize) hcovered (hdistinct.imp ?_)
    intro a a' ha contract hcovers hcovers'
    have hsame := Value.sameValueZero_trans hcovers.1 (Value.sameValueZero_comm _ _ ▸ hcovers'.1)
    exact Bool.false_ne_true (ha.symm.trans hsame)

def contractOf (capabilityKey : Text) : Value :=
  .object [(ascii "capabilityKey", .string capabilityKey),
    (ascii "capabilityVersion", .string (ascii "1"))]

def manifestEntry (capabilityKey contractDigest : Text) : Value :=
  .object [(ascii "capabilityKey", .string capabilityKey),
    (ascii "capabilityVersion", .string (ascii "1")),
    (ascii "contractDigest", .string contractDigest)]

def firstEntry : Value :=
  manifestEntry (ascii "a") (ascii "sha256-GhBzsRNNHIMurlFPwbrmRJi5D2BEaeBEY9vzR1gNvgQ")

def secondEntry : Value :=
  manifestEntry (ascii "b") (ascii "sha256-_2GmoQ1x0MT0nTMBpTKZRXqEHx5xtTcETjLD2uP4bKA")

def agentBinding : List (Text × Value) :=
  [(ascii "agentId", .string (ascii "agent-1")),
    (ascii "passportId", .string (ascii "passport-1")),
    (ascii "passportVersion", .string (ascii "1"))]

def manifestOf (entries : List Value) : Value :=
  .object (agentBinding ++ [(ascii "capabilities", .array entries)])

def passportOf (capabilityManifestDigest : Text) : Value :=
  .object (agentBinding ++ [(ascii "capabilityManifestDigest", .string capabilityManifestDigest)])

def bothContracts : List Value := [contractOf (ascii "a"), contractOf (ascii "b")]

/-- A manifest that lists both contracts. -/
theorem manifest_exact_both :
    ExactCoverage [firstEntry, secondEntry] bothContracts := by
  have haccepted : validateCapabilityManifest (recordedHost 0 [] [])
      (manifestOf [firstEntry, secondEntry]) bothContracts
      (passportOf (ascii "sha256-5vraPFw6OdtzGsoE4-aW34BSqVcuB-mlC__gqlWPDEc")) {} =
        .ok (.string (ascii "sha256-5vraPFw6OdtzGsoE4-aW34BSqVcuB-mlC__gqlWPDEc")) := by
    decide +kernel
  obtain ⟨entries, hentries, hiff⟩ := manifest_exact_iff_distinct _ _ _ _ _ _ haccepted
  obtain rfl : [firstEntry, secondEntry] = entries := Value.array.inj hentries
  refine hiff.mpr ?_
  have hdistinct : DistinctKeys firstEntry secondEntry := by
    unfold DistinctKeys
    decide
  simp [hdistinct]

/-- A manifest that lists the first of two contracts twice is accepted. -/
theorem manifest_omits_contract :
    validateCapabilityManifest (recordedHost 0 [] []) (manifestOf [firstEntry, firstEntry])
        bothContracts
        (passportOf (ascii "sha256-3gOK4Myp6G237xqAsMXjUBrOO3f31Zq8eirEhroWWdA")) {} =
      .ok (.string (ascii "sha256-3gOK4Myp6G237xqAsMXjUBrOO3f31Zq8eirEhroWWdA")) ∧
    ¬ ExactCoverage [firstEntry, firstEntry] bothContracts := by
  refine ⟨by decide +kernel, ?_⟩
  rintro ⟨_, arranged, hperm, hcovers⟩
  obtain ⟨entry, hentry, hsecond⟩ : ∃ entry ∈ arranged, Covers entry (contractOf (ascii "b")) := by
    rcases hcovers with _ | ⟨_, _ | ⟨hsecond, _⟩⟩
    exact ⟨_, List.mem_cons_of_mem _ List.mem_cons_self, hsecond⟩
  obtain rfl : entry = firstEntry := by simpa using hperm.mem_iff.mp hentry
  have hkeys : ¬ (firstEntry.field (ascii "capabilityKey")).sameValueZero
      ((contractOf (ascii "b")).field (ascii "capabilityKey")) = true := by
    decide
  exact hkeys hsecond.1

end GhostBridge.Trust
