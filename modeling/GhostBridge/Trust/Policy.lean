import GhostBridge.Trust.Keys

/-!
# Trust policies

An organization decides which issuers it trusts, and a workspace may add a policy of its own.
-/

namespace GhostBridge.Trust

open Ecma

/-- A trust policy as it is supplied; what is absent is filled in. -/
structure TrustPolicyInput where
  version : Text := []
  organizationPolicyVersion : Text := []
  allowedIssuerIds : List Text := []
  blockedIssuerIds : List Text := []
  pinnedRootThumbprints : List Text := []
  acceptedAlgorithms : Option (List Text) := none
  requiredTrustProfile : Text := []
  unknownIssuerBehavior : Text := []
  maximumRevocationStalenessMs : Option Int := none

structure TrustPolicy where
  version : Text
  organizationPolicyVersion : Option Text
  allowedIssuerIds : List Text
  blockedIssuerIds : List Text
  pinnedRootThumbprints : List Text
  acceptedAlgorithms : List Text
  requiredTrustProfile : Text
  unknownIssuerBehavior : Text
  maximumRevocationStalenessMs : Int

/-- `text || fallback`, where a missing text is empty. -/
def orDefault (text : Text) (fallback : String) : Text :=
  if text.isEmpty then ascii fallback else text

def normalizeTrustPolicy (policy : TrustPolicyInput) : TrustPolicy where
  version := orDefault policy.version "1"
  organizationPolicyVersion :=
    if policy.organizationPolicyVersion.isEmpty then none else some policy.organizationPolicyVersion
  allowedIssuerIds := policy.allowedIssuerIds
  blockedIssuerIds := policy.blockedIssuerIds
  pinnedRootThumbprints := policy.pinnedRootThumbprints
  acceptedAlgorithms := policy.acceptedAlgorithms.getD defaultAlgorithms
  requiredTrustProfile := orDefault policy.requiredTrustProfile "ghostbridge-trust/0.1-draft"
  unknownIssuerBehavior := orDefault policy.unknownIssuerBehavior "administrator_review"
  maximumRevocationStalenessMs :=
    boundedInteger policy.maximumRevocationStalenessMs 0 86400000 300000

/-- `TRUST_RESULTS`. -/
inductive TrustCategory where
  | verifiedAndTrusted
  | cryptographicallyValidReviewRequired
  | cryptographicallyValidUntrustedIssuer
  | verifiedWithWarning
  | indeterminate
  | suspended
  | revoked
  | blocked
  | invalid
deriving DecidableEq

structure TrustResult where
  category : TrustCategory
  trusted : Bool
  cryptographicallyValid : Bool
  reasonCodes : List String
deriving DecidableEq

def trustResult (category : TrustCategory) (reasonCodes : List String) : TrustResult where
  category := category
  trusted := category == .verifiedAndTrusted
  cryptographicallyValid := !([TrustCategory.invalid, .indeterminate].contains category)
  reasonCodes := reasonCodes.eraseDups.take 32

structure TrustEvidence where
  issuerId : Text
  rootKeyThumbprint : Text := []
  highImpact : Bool := false

def pinMismatch (organizationPolicy : TrustPolicy) (evidence : TrustEvidence) : Bool :=
  !evidence.rootKeyThumbprint.isEmpty && !organizationPolicy.pinnedRootThumbprints.isEmpty &&
    !organizationPolicy.pinnedRootThumbprints.contains evidence.rootKeyThumbprint

def workspaceAllows (workspacePolicy : Option TrustPolicy) (issuerId : Text) : Bool :=
  match workspacePolicy with
  | none => true
  | some policy => policy.allowedIssuerIds.isEmpty || policy.allowedIssuerIds.contains issuerId

def unknownIssuer (behavior : Text) (highImpact : Bool) : TrustResult :=
  if behavior == ascii "block" || highImpact then
    trustResult .cryptographicallyValidUntrustedIssuer ["issuer_unknown"]
  else if behavior == ascii "limited_core_only" then
    trustResult .verifiedWithWarning ["issuer_unknown", "core_only"]
  else trustResult .cryptographicallyValidReviewRequired ["issuer_unknown"]

def judge (organizationPolicy : TrustPolicy) (workspacePolicy : Option TrustPolicy)
    (evidence : TrustEvidence) : TrustResult :=
  if organizationPolicy.blockedIssuerIds.contains evidence.issuerId ||
      ((workspacePolicy.map TrustPolicy.blockedIssuerIds).getD []).contains evidence.issuerId then
    trustResult .blocked ["issuer_blocked"]
  else if organizationPolicy.allowedIssuerIds.contains evidence.issuerId &&
      workspaceAllows workspacePolicy evidence.issuerId then
    if pinMismatch organizationPolicy evidence then
      trustResult .invalid ["root_key_pin_mismatch"]
    else trustResult .verifiedAndTrusted ["valid_signature", "issuer_allowlisted"]
  else
    unknownIssuer ((workspacePolicy.map TrustPolicy.unknownIssuerBehavior).getD
      organizationPolicy.unknownIssuerBehavior) evidence.highImpact

def evaluateTrustPolicy (organization : TrustPolicyInput) (workspace : Option TrustPolicyInput)
    (evidence : TrustEvidence) : Checked TrustResult := do
  let organizationPolicy := normalizeTrustPolicy organization
  let workspacePolicy := workspace.map normalizeTrustPolicy
  throwWhen (match workspacePolicy.bind (·.organizationPolicyVersion) with
    | some version => version != organizationPolicy.version
    | none => false)
    (trustError .trustPolicyDenied
      "The workspace trust policy is not based on the active organization policy.")
  pure (judge organizationPolicy workspacePolicy evidence)

def TrustCategory.restriction : TrustCategory → Nat
  | .verifiedAndTrusted => 0
  | .verifiedWithWarning => 1
  | .cryptographicallyValidReviewRequired => 2
  | .cryptographicallyValidUntrustedIssuer => 3
  | _ => 4

def TrustPolicy.strictness (policy : TrustPolicy) : Nat :=
  if policy.unknownIssuerBehavior = ascii "block" then 3
  else if policy.unknownIssuerBehavior = ascii "limited_core_only" then 1
  else 2

/-- The inputs on which adding the workspace policy does not lose a restriction of the
organization: neither a failed pin of an issuer that only the workspace does not allow, nor a
stricter treatment of an unknown issuer. -/
def KeepsRestrictions (organization workspace : TrustPolicy) (evidence : TrustEvidence) : Prop :=
  evidence.issuerId ∈ organization.blockedIssuerIds ∨
    evidence.issuerId ∈ workspace.blockedIssuerIds ∨
    (evidence.issuerId ∈ organization.allowedIssuerIds ∧
      (workspaceAllows (some workspace) evidence.issuerId = true ∨
        pinMismatch organization evidence = false)) ∨
    (evidence.issuerId ∉ organization.allowedIssuerIds ∧
      (evidence.highImpact = true ∨ organization.strictness ≤ workspace.strictness))

instance (organization workspace : TrustPolicy) (evidence : TrustEvidence) :
    Decidable (KeepsRestrictions organization workspace evidence) :=
  inferInstanceAs (Decidable (_ ∨ _ ∨ _ ∨ _))

theorem restriction_unknownIssuer (policy : TrustPolicy) (highImpact : Bool) :
    (unknownIssuer policy.unknownIssuerBehavior highImpact).category.restriction =
      if highImpact then 3 else policy.strictness := by
  simp only [unknownIssuer, TrustPolicy.strictness, Bool.or_eq_true, beq_iff_eq]
  cases highImpact with
  | true => rw [if_pos (Or.inr rfl), if_pos rfl]; rfl
  | false =>
    simp only [Bool.false_eq_true, or_false, if_false]
    by_cases hblock : policy.unknownIssuerBehavior = ascii "block"
    · rw [if_pos hblock, if_pos hblock]
      rfl
    · rw [if_neg hblock, if_neg hblock]
      by_cases hcore : policy.unknownIssuerBehavior = ascii "limited_core_only"
      · rw [if_pos hcore, if_pos hcore]
        rfl
      · rw [if_neg hcore, if_neg hcore]
        rfl

theorem strictness_pos (policy : TrustPolicy) : 0 < policy.strictness ∧ policy.strictness < 4 := by
  unfold TrustPolicy.strictness
  split
  · omega
  · split <;> omega

theorem restriction_le (category : TrustCategory) : category.restriction ≤ 4 := by
  cases category <;> decide

theorem restriction_judge (organization : TrustPolicy) (workspace : Option TrustPolicy)
    (evidence : TrustEvidence) :
    (judge organization workspace evidence).category.restriction =
      if evidence.issuerId ∈ organization.blockedIssuerIds ∨
          ∃ policy, workspace = some policy ∧ evidence.issuerId ∈ policy.blockedIssuerIds then 4
      else if evidence.issuerId ∈ organization.allowedIssuerIds ∧
          workspaceAllows workspace evidence.issuerId = true then
        if pinMismatch organization evidence then 4 else 0
      else if evidence.highImpact then 3 else (workspace.getD organization).strictness := by
  have hblocked : (organization.blockedIssuerIds.contains evidence.issuerId ||
      ((workspace.map TrustPolicy.blockedIssuerIds).getD []).contains evidence.issuerId) = true ↔
      (evidence.issuerId ∈ organization.blockedIssuerIds ∨
        ∃ policy, workspace = some policy ∧ evidence.issuerId ∈ policy.blockedIssuerIds) := by
    cases workspace <;> simp
  have hbehavior : (workspace.map TrustPolicy.unknownIssuerBehavior).getD
      organization.unknownIssuerBehavior =
        (workspace.getD organization).unknownIssuerBehavior := by
    cases workspace <;> rfl
  simp only [judge, hblocked, hbehavior, Bool.and_eq_true, List.contains_iff_mem]
  split
  · rfl
  · split
    · split <;> rfl
    · exact restriction_unknownIssuer _ _

/-- A workspace narrows the judgement of its organization exactly when it keeps the restrictions. -/
theorem workspace_narrows_iff (organization workspace : TrustPolicyInput)
    (evidence : TrustEvidence) (alone together : TrustResult)
    (halone : evaluateTrustPolicy organization none evidence = .ok alone)
    (htogether : evaluateTrustPolicy organization (some workspace) evidence = .ok together) :
    alone.category.restriction ≤ together.category.restriction ↔
      KeepsRestrictions (normalizeTrustPolicy organization) (normalizeTrustPolicy workspace)
        evidence := by
  simp only [evaluateTrustPolicy, bind_ok, exists_unit, pure_ok] at halone htogether
  obtain ⟨_, rfl⟩ := halone
  obtain ⟨_, rfl⟩ := htogether
  rw [Option.map_none, Option.map_some]
  generalize normalizeTrustPolicy organization = org
  generalize normalizeTrustPolicy workspace = ws
  have horg := strictness_pos org
  have hws := strictness_pos ws
  have halone := restriction_judge org none evidence
  have htogether := restriction_judge org (some ws) evidence
  simp only [Option.some.injEq, exists_eq_left', reduceCtorEq, false_and, exists_false, or_false,
    Option.getD_none, Option.getD_some] at halone htogether
  have hnone : workspaceAllows none evidence.issuerId = true := rfl
  rw [halone, htogether, KeepsRestrictions]
  by_cases hblocked : evidence.issuerId ∈ org.blockedIssuerIds
  · simp [hblocked]
  by_cases hblocked' : evidence.issuerId ∈ ws.blockedIssuerIds
  · have hle := restriction_le (judge org none evidence).category
    rw [halone] at hle
    simpa [hblocked'] using hle
  simp only [hblocked, hblocked', or_self, if_false, false_or, hnone, and_true]
  by_cases hallowed : evidence.issuerId ∈ org.allowedIssuerIds
  · -- the workspace can only lose a failed pin, by not allowing the issuer
    cases hws' : workspaceAllows (some ws) evidence.issuerId <;>
      cases hpin : pinMismatch org evidence <;> cases evidence.highImpact <;>
        simp [hallowed]
    all_goals omega
  · cases evidence.highImpact <;> simp [hallowed]

/-- An organization and a workspace that both review unknown issuers. -/
theorem workspace_narrows_review :
    TrustCategory.cryptographicallyValidReviewRequired.restriction ≤
        TrustCategory.cryptographicallyValidReviewRequired.restriction ↔
      KeepsRestrictions (normalizeTrustPolicy {}) (normalizeTrustPolicy {})
        { issuerId := ascii "https://unknown.example" } :=
  workspace_narrows_iff {} {} { issuerId := ascii "https://unknown.example" } _ _ rfl rfl

/-- A workspace that says nothing about unknown issuers relaxes an organization that blocks
them. -/
theorem workspace_relaxes_block :
    ∃ alone together,
      evaluateTrustPolicy { unknownIssuerBehavior := ascii "block" } none
          { issuerId := ascii "https://unknown.example" } = .ok alone ∧
        evaluateTrustPolicy { unknownIssuerBehavior := ascii "block" } (some {})
          { issuerId := ascii "https://unknown.example" } = .ok together ∧
        together.category.restriction < alone.category.restriction :=
  ⟨_, _, rfl, rfl, by decide⟩

end GhostBridge.Trust
