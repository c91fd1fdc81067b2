import GhostBridge.Ecma.Sorting
import GhostBridge.Policies.ConditionLaw

/-!
# Snapshots of policies

`evaluatePolicySnapshot` decides by all policies that apply. One that is invalid or cannot be
evaluated denies, as does a policy of the effect `DENY` that matches; policies of the effect
`ALLOW` allow nothing unless one of them matches. Effects in small letters are valid, but neither.
-/

namespace GhostBridge.Policies

open Ecma

namespace PolicyLimits

def maxDocumentBytes : ℕ := 128 * 1024
def maxTargetItems : ℕ := 100

end PolicyLimits

/-- A policy as it is stored. The target has the fields that are set. -/
structure Policy where
  stablePolicyId : Text
  version : ℕ
  name : Text
  organizationId : Text
  workspaceId : Text := []
  effect : Text
  target : List (Text × List Text) := []
  condition : Datum
  priority : ℤ := 0

/-- What access is asked for; what is not given is empty. -/
structure PolicyInput where
  organizationId : Text
  workspaceId : Text := []
  permission : Text := []
  permissionId : Text := []
  resourceType : Text := []
  resourceId : Text := []
  /-- The type and the identifier of `resource`. -/
  resource : Text × Text := ([], [])
  actorType : Text := []
  passportId : Text := []
  connectionId : Text := []
  capabilityId : Text := []
  capabilityCategory : Text := []
  capabilityClassification : Text := []
  capabilitySideEffect : Text := []
  environment : Text := []

def targetValues (target : List (Text × List Text)) (names : List String) : List Text :=
  (names.findSome? fun name => target.lookup (ascii name)).getD []

/-- `a || b`. -/
def firstGiven (a b : Text) : Text := if a.isEmpty then b else a

def targetMatch (policy : Policy) (input : PolicyInput) : Bool :=
  let checks : List (List String × Text) :=
    [(["permissionIds", "permissions"], firstGiven input.permission input.permissionId),
      (["resourceTypes"], firstGiven input.resourceType input.resource.1),
      (["resourceIds"], firstGiven input.resourceId input.resource.2),
      (["actorTypes"], input.actorType),
      (["organizationIds"], input.organizationId),
      (["workspaceIds"], input.workspaceId),
      (["passportIds"], input.passportId),
      (["connectionIds"], input.connectionId),
      (["capabilityIds"], input.capabilityId),
      (["capabilityCategories"], input.capabilityCategory),
      (["capabilityClassifications"], input.capabilityClassification),
      (["sideEffects", "sideEffectClassifications"], input.capabilitySideEffect),
      (["environments"], input.environment)]
  checks.all fun check =>
    let expected := targetValues policy.target check.1
    expected.isEmpty || expected.contains check.2

def targetFields : List String :=
  ["permissionIds", "permissions", "resourceTypes", "resourceIds", "actorTypes", "organizationIds",
    "workspaceIds", "passportIds", "connectionIds", "capabilityIds", "capabilityCategories",
    "capabilityClassifications", "sideEffects", "sideEffectClassifications", "environments"]

def validateTarget (target : List (Text × List Text)) : List Issue :=
  target.flatMap fun entry =>
    let path := ascii "target." ++ entry.1
    if !(targetFields.map ascii).contains entry.1 then
      [⟨path, "UNSUPPORTED_TARGET", "Target field is not supported."⟩]
    else if entry.2.isEmpty then
      [⟨path, "TARGET_ARRAY_REQUIRED", "Target field must be a non-empty array."⟩]
    else
      issueWhen (PolicyLimits.maxTargetItems < entry.2.length)
        ⟨path, "ARRAY_LIMIT_EXCEEDED", "Target array is too large."⟩ ++
      (entry.2.filter fun item => item.trimmed.isEmpty || 256 < item.length).map fun _ =>
        ⟨path, "INVALID_TARGET_VALUE", "Target values must be bounded strings."⟩

/-- What the runtime does with policies: their size in JSON, dates and the order of texts. -/
structure PolicyRuntime where
  calendar : Calendar
  documentBytes : Policy → ℕ
  localeCompare : Text → Text → Ordering

variable (runtime : PolicyRuntime)

/-- The issues of `validatePolicyDocument(policy)`. -/
def validatePolicyDocument (policy : Policy) : Attempt (List Issue) := do
  let condition ← validateConditionTree runtime.calendar policy.condition
  return issueWhen (PolicyLimits.maxDocumentBytes < runtime.documentBytes policy)
      ⟨ascii "policy", "DOCUMENT_LIMIT_EXCEEDED", "Policy document is too large."⟩ ++
    issueWhen (!([ascii "ALLOW", ascii "DENY"].contains policy.effect.toUpperCase))
      ⟨ascii "effect", "INVALID_EFFECT", "Policy effect must be ALLOW or DENY."⟩ ++
    validateTarget policy.target ++ condition.issues

def specificity (policy : Policy) : ℕ × ℕ :=
  let resourceSpecific := ["resourceIds", "connectionIds", "capabilityIds", "passportIds"].any
    fun name => !(targetValues policy.target [name]).isEmpty
  ((!policy.workspaceId.isEmpty).toNat, resourceSpecific.toNat)

def comparePolicies (left right : Policy) : Ordering :=
  (Ord.compare (specificity right).1 (specificity left).1).then
    ((Ord.compare (specificity right).2 (specificity left).2).then
      ((Ord.compare right.priority left.priority).then
        ((runtime.localeCompare left.stablePolicyId right.stablePolicyId).then
          (Ord.compare left.version right.version))))

structure PolicySummary where
  stablePolicyId : Text
  version : ℕ
  name : Text
  effect : Text
  matched : Bool
  evidence : List Evidence

/-- The `POLICY_REASON_CODES` of a snapshot. -/
inductive ReasonCode where
  | policyExplicitDeny
  | policyAllowConditionNotMet
  | policyAllowMatched
  | noApplicablePolicy
  | policyEvaluationError
  | policyAttributeUnavailable
  | policyInvalid
deriving DecidableEq

/-- The decision is `ALLOW` if it is allowed, and else `DENY`. -/
structure Decision where
  allowed : Bool
  reasonCode : ReasonCode
  matchedPolicies : List PolicySummary

/-- A policy of the tenant, about what is asked for. -/
def applies (input : PolicyInput) (policy : Policy) : Bool :=
  policy.organizationId == input.organizationId &&
    (policy.workspaceId.isEmpty || policy.workspaceId == input.workspaceId) &&
      targetMatch policy input

variable (attributes : Datum)

def conditionResult (policy : Policy) : Except ReasonCode Bool × List Evidence :=
  match evaluateCondition runtime.calendar attributes policy.condition true with
  | .ok (.evaluated (.ok matched, evidence)) => (.ok matched, evidence)
  | .ok (.evaluated (.error _, evidence)) => (.error .policyAttributeUnavailable, evidence)
  | .ok (.invalid _) => (.error .policyInvalid, [])
  | .error _ => (.error .policyEvaluationError, [])

def policySummary (policy : Policy) : PolicySummary :=
  let result := conditionResult runtime attributes policy
  { stablePolicyId := policy.stablePolicyId, version := policy.version, name := policy.name
    effect := policy.effect, matched := result.1.toOption.any id, evidence := result.2 }

/-- The loop over the policies that apply ends in a decision, or with all results. -/
def evaluatePolicies :
    List Policy → List PolicySummary → Attempt (Except Decision (List PolicySummary))
  | [], results => return .ok results
  | policy :: policies, results => do
    let issues ← validatePolicyDocument runtime policy
    if !issues.isEmpty then return .error ⟨false, .policyInvalid, results⟩
    else
      let results := results ++ [policySummary runtime attributes policy]
      match (conditionResult runtime attributes policy).1 with
      | .error reason => return .error ⟨false, reason, results⟩
      | .ok _ => evaluatePolicies policies results

def snapshotDecision (results : List PolicySummary) : Decision :=
  let allows := results.filter fun result => result.effect = ascii "ALLOW"
  if results.any fun result => result.effect = ascii "DENY" && result.matched then
    ⟨false, .policyExplicitDeny, results⟩
  else if !allows.isEmpty && !allows.any PolicySummary.matched then
    ⟨false, .policyAllowConditionNotMet, results⟩
  else
    ⟨true, if allows.any PolicySummary.matched then .policyAllowMatched else .noApplicablePolicy,
      results⟩

def evaluatePolicySnapshot (policies : List Policy) (input : PolicyInput) : Attempt Decision := do
  let ordered := sortBy (comparePolicies runtime) policies
  match ← evaluatePolicies runtime attributes (ordered.filter (applies input)) [] with
  | .error decision => return decision
  | .ok results => return snapshotDecision results

/-- `evaluateActivePolicies` of a snapshot that was loaded; what is thrown denies. -/
def decideBySnapshot (policies : List Policy) (input : PolicyInput) : Decision :=
  match evaluatePolicySnapshot runtime attributes policies input with
  | .ok decision => decision
  | .error _ => ⟨false, .policyEvaluationError, []⟩

/-- The policy is valid, and its condition evaluates to a value. -/
structure Judged (policy : Policy) (matched : Bool) : Prop where
  valid : validatePolicyDocument runtime policy = .ok []
  result : (conditionResult runtime attributes policy).1 = .ok matched

/-- A policy that applies has the property. -/
def Has (policies : List Policy) (input : PolicyInput) (P : Policy → Prop) : Prop :=
  ∃ policy ∈ policies, applies input policy = true ∧ P policy

/-- All policies that apply are judged, none denies, and one allows if one could, where effects are
read as `reading` has them. -/
@[mk_iff] structure Permits (reading : Text → Text) (policies : List Policy) (input : PolicyInput) :
    Prop where
  judged : ¬Has policies input fun policy => ¬∃ matched, Judged runtime attributes policy matched
  undenied : ¬Has policies input fun policy => reading policy.effect = ascii "DENY" ∧
    Judged runtime attributes policy true
  allowed : (Has policies input fun policy => reading policy.effect = ascii "ALLOW") →
    Has policies input fun policy => reading policy.effect = ascii "ALLOW" ∧
      Judged runtime attributes policy true

variable {runtime attributes} {policies : List Policy} {input : PolicyInput}

@[simp] theorem effect_policySummary (policy : Policy) :
    (policySummary runtime attributes policy).effect = policy.effect := rfl

theorem matched_policySummary {policy : Policy} {matched : Bool}
    (h : Judged runtime attributes policy matched) :
    (policySummary runtime attributes policy).matched = true ↔
      Judged runtime attributes policy true := by
  have hmatched : (policySummary runtime attributes policy).matched = matched := by
    simp [policySummary, h.result, Except.toOption]
  rw [hmatched]
  constructor
  · intro htrue
    exact htrue ▸ h
  · intro h'
    exact Except.ok.inj (h.result.symm.trans h'.result)

theorem evaluatePolicies_judged {results : List PolicySummary}
    (h : ∀ policy ∈ policies, ∃ matched, Judged runtime attributes policy matched) :
    evaluatePolicies runtime attributes policies results =
      .ok (.ok (results ++ policies.map (policySummary runtime attributes))) := by
  induction policies generalizing results with
  | nil => simp [evaluatePolicies, pure, Except.pure]
  | cons policy policies ih =>
    obtain ⟨matched, hjudged⟩ := h policy List.mem_cons_self
    have hrest : ∀ other ∈ policies, ∃ matched, Judged runtime attributes other matched :=
      fun other hother => h other (List.mem_cons_of_mem _ hother)
    simp only [evaluatePolicies, hjudged.valid, hjudged.result, ok_bind, List.isEmpty_nil,
      Bool.not_true, Bool.false_eq_true, if_false, ih hrest]
    simp

/-- A decision that ends the loop denies. -/
theorem evaluatePolicies_error {results : List PolicySummary} {decision : Decision}
    (h : evaluatePolicies runtime attributes policies results = .ok (.error decision)) :
    decision.allowed = false := by
  induction policies generalizing results with
  | nil => cases h
  | cons policy policies ih =>
    simp only [evaluatePolicies, bind_ok] at h
    obtain ⟨issues, -, h⟩ := h
    split at h
    · cases h
      rfl
    · split at h
      · cases h
        rfl
      · exact ih h

theorem judged_of_evaluatePolicies {results all : List PolicySummary}
    (h : evaluatePolicies runtime attributes policies results = .ok (.ok all)) :
    ∀ policy ∈ policies, ∃ matched, Judged runtime attributes policy matched := by
  induction policies generalizing results with
  | nil => simp
  | cons policy policies ih =>
    simp only [evaluatePolicies, bind_ok] at h
    obtain ⟨issues, hissues, h⟩ := h
    split at h
    · cases h
    next hempty =>
      split at h
      · cases h
      next matched hresult =>
        have hvalid : issues = [] := by simpa using hempty
        subst hvalid
        intro other hother
        rcases List.mem_cons.mp hother with rfl | hother
        · exact ⟨matched, hissues, hresult⟩
        · exact ih h other hother

theorem snapshotDecision_allowed {results : List PolicySummary} :
    (snapshotDecision results).allowed = true ↔
      (¬∃ result ∈ results, result.effect = ascii "DENY" ∧ result.matched = true) ∧
        ((∃ result ∈ results, result.effect = ascii "ALLOW") →
          ∃ result ∈ results, result.effect = ascii "ALLOW" ∧ result.matched = true) := by
  have hdenied : (results.any fun result => result.effect = ascii "DENY" && result.matched) =
      true ↔ ∃ result ∈ results, result.effect = ascii "DENY" ∧ result.matched = true := by simp
  have hunmet : (!(results.filter fun result => result.effect = ascii "ALLOW").isEmpty &&
      !(results.filter fun result => result.effect = ascii "ALLOW").any PolicySummary.matched) =
        true ↔ (∃ result ∈ results, result.effect = ascii "ALLOW") ∧
          ¬∃ result ∈ results, result.effect = ascii "ALLOW" ∧ result.matched = true := by
    simp
  simp only [snapshotDecision]
  split
  next h => grind
  next h =>
    split
    next h' => grind
    next h' => grind

variable (runtime) in
theorem mem_applicable {policy : Policy} :
    policy ∈ (sortBy (comparePolicies runtime) policies).filter (applies input) ↔
      policy ∈ policies ∧ applies input policy = true := by
  rw [List.mem_filter, mem_sortBy]

theorem decideBySnapshot_allowed :
    (decideBySnapshot runtime attributes policies input).allowed = true ↔
      Permits runtime attributes id policies input := by
  have hall : (∀ policy ∈ (sortBy (comparePolicies runtime) policies).filter (applies input),
      ∃ matched, Judged runtime attributes policy matched) ↔
        ¬Has policies input fun policy => ¬∃ matched, Judged runtime attributes policy matched := by
    simp only [Has, mem_applicable]
    grind only
  unfold decideBySnapshot evaluatePolicySnapshot
  cases hloop : evaluatePolicies runtime attributes
      ((sortBy (comparePolicies runtime) policies).filter (applies input)) [] with
  | error failure =>
    simp only [hloop]
    constructor
    · intro h
      cases h
    · intro h
      rw [evaluatePolicies_judged (hall.mpr h.judged)] at hloop
      cases hloop
  | ok outcome =>
    cases outcome with
    | error decision =>
      have hdenied := evaluatePolicies_error hloop
      simp only [hloop]
      constructor
      · intro h
        cases hdenied.symm.trans h
      · intro h
        rw [evaluatePolicies_judged (hall.mpr h.judged)] at hloop
        cases hloop
    | ok results =>
      have hjudged := judged_of_evaluatePolicies hloop
      have hresults : evaluatePolicies runtime attributes _ [] = _ := evaluatePolicies_judged hjudged
      obtain rfl : results = _ := Except.ok.inj (Except.ok.inj (hloop.symm.trans hresults))
      have hmatched (effect : Text) : (∃ policy ∈ (sortBy (comparePolicies runtime)
          policies).filter (applies input), policy.effect = effect ∧
            (policySummary runtime attributes policy).matched = true) ↔
          Has policies input fun policy => policy.effect = effect ∧
            Judged runtime attributes policy true := by
        simp only [Has, ← and_assoc, ← mem_applicable runtime]
        apply exists_congr
        intro policy
        apply and_congr_right
        intro hpolicy
        obtain ⟨matched, h⟩ := hjudged policy hpolicy.1
        exact matched_policySummary h
      have happlies (effect : Text) : (∃ policy ∈ (sortBy (comparePolicies runtime)
          policies).filter (applies input), policy.effect = effect) ↔
          Has policies input fun policy => policy.effect = effect := by
        simp only [Has, mem_applicable, and_assoc]
      simp only [hloop, ok_bind]
      change (snapshotDecision _).allowed = true ↔ _
      simp only [snapshotDecision_allowed, List.nil_append, List.mem_map,
        exists_exists_and_eq_and, effect_policySummary, hmatched, happlies]
      constructor
      · intro h
        exact ⟨hall.mp hjudged, h.1, h.2⟩
      · intro h
        exact ⟨h.undenied, h.allowed⟩

theorem Has.congr {others : List Policy} {P : Policy → Prop} (h : Has policies input P)
    (hsame : ∀ policy, applies input policy = true → (policy ∈ others ↔ policy ∈ policies)) :
    Has others input P := by
  obtain ⟨policy, hpolicy, happlies, hP⟩ := h
  exact ⟨policy, (hsame policy happlies).mpr hpolicy, happlies, hP⟩

theorem Permits.congr {reading : Text → Text} {others : List Policy}
    (h : Permits runtime attributes reading policies input)
    (hsame : ∀ policy, applies input policy = true → (policy ∈ others ↔ policy ∈ policies)) :
    Permits runtime attributes reading others input := by
  have hback := fun policy happlies => (hsame policy happlies).symm
  constructor
  · exact fun hhas => h.judged (hhas.congr hback)
  · exact fun hhas => h.undenied (hhas.congr hback)
  · exact fun hhas => (h.allowed (hhas.congr hback)).congr hsame

variable (runtime attributes policies input)

/-- The decision for effects in any spelling. -/
structure DecidesAsMeant : Prop where
  permitted : (decideBySnapshot runtime attributes policies input).allowed = true ↔
    Permits runtime attributes Text.toUpperCase policies input
  unordered : ∀ others : List Policy, others.Perm policies →
    (decideBySnapshot runtime attributes others input).allowed =
      (decideBySnapshot runtime attributes policies input).allowed
  denied : ∀ policy ∈ policies, applies input policy = true →
    policy.effect.toUpperCase = ascii "DENY" → Judged runtime attributes policy true →
      (decideBySnapshot runtime attributes policies input).allowed = false

/-- The policy has the effect, but for small letters. -/
def Misspells (effect : String) (policy : Policy) : Prop :=
  policy.effect ≠ ascii effect ∧ policy.effect.toUpperCase = ascii effect

/-- When the spelling of effects does not matter: a policy denies in any case, or one allows and none
that is misspelt denies, or all that allow are misspelt and one of them matches if one applies, or
none in capital letters matches and none that is misspelt would allow. -/
@[mk_iff] inductive SpellingHarmless : Prop
  | unjudged (hunjudged : Has policies input fun policy =>
      ¬∃ matched, Judged runtime attributes policy matched)
  | denied (hdenied : Has policies input fun policy => policy.effect = ascii "DENY" ∧
      Judged runtime attributes policy true)
  | allowed (hallowed : Has policies input fun policy => policy.effect = ascii "ALLOW" ∧
        Judged runtime attributes policy true)
      (hundenied : ¬Has policies input fun policy => Misspells "DENY" policy ∧
        Judged runtime attributes policy true)
  | misspelt (hnone : ¬Has policies input fun policy => policy.effect = ascii "ALLOW")
      (hundenied : ¬Has policies input fun policy => Misspells "DENY" policy ∧
        Judged runtime attributes policy true)
      (hallowed : Has policies input (Misspells "ALLOW") → Has policies input fun policy =>
        Misspells "ALLOW" policy ∧ Judged runtime attributes policy true)
  | unmet (hsome : Has policies input fun policy => policy.effect = ascii "ALLOW")
      (hunmet : ¬Has policies input fun policy => policy.effect = ascii "ALLOW" ∧
        Judged runtime attributes policy true)
      (hmisspelt : (Has policies input fun policy => Misspells "ALLOW" policy ∧
          Judged runtime attributes policy true) →
        Has policies input fun policy => Misspells "DENY" policy ∧
          Judged runtime attributes policy true)

variable {runtime attributes policies input}

theorem has_toUpperCase {effect : String} (heffect : (ascii effect).toUpperCase = ascii effect)
    (P : Policy → Prop) :
    (Has policies input fun policy => policy.effect.toUpperCase = ascii effect ∧ P policy) ↔
      (Has policies input fun policy => policy.effect = ascii effect ∧ P policy) ∨
        Has policies input fun policy => Misspells effect policy ∧ P policy := by
  have hread (policy : Policy) : policy.effect.toUpperCase = ascii effect ↔
      policy.effect = ascii effect ∨ Misspells effect policy := by
    by_cases h : policy.effect = ascii effect
    · simp [h, heffect, Misspells]
    · simp [h, Misspells]
  simp only [Has, hread, or_and_right, and_or_left, exists_or]

theorem permits_iff_permits_toUpperCase :
    (Permits runtime attributes id policies input ↔
        Permits runtime attributes Text.toUpperCase policies input) ↔
      SpellingHarmless runtime attributes policies input := by
  have hallow : (Has policies input fun policy => policy.effect.toUpperCase = ascii "ALLOW") ↔
      (Has policies input fun policy => policy.effect = ascii "ALLOW") ∨
        Has policies input (Misspells "ALLOW") := by
    simpa only [and_true] using has_toUpperCase (by decide) fun _ => True
  have hsome : (Has policies input fun policy => policy.effect = ascii "ALLOW" ∧
      Judged runtime attributes policy true) →
        Has policies input fun policy => policy.effect = ascii "ALLOW" := by
    rintro ⟨policy, hpolicy, happlies, heffect, -⟩
    exact ⟨policy, hpolicy, happlies, heffect⟩
  have hsome' : (Has policies input fun policy => Misspells "ALLOW" policy ∧
      Judged runtime attributes policy true) → Has policies input (Misspells "ALLOW") := by
    rintro ⟨policy, hpolicy, happlies, heffect, -⟩
    exact ⟨policy, hpolicy, happlies, heffect⟩
  rw [permits_iff, permits_iff, spellingHarmless_iff, hallow, has_toUpperCase (by decide),
    has_toUpperCase (by decide)]
  clear hallow
  simp only [id_eq]
  generalize (Has policies input fun policy => ¬∃ matched, Judged runtime attributes policy
    matched) = unjudged
  generalize (Has policies input fun policy => policy.effect = ascii "DENY" ∧
    Judged runtime attributes policy true) = denied
  generalize (Has policies input fun policy => Misspells "DENY" policy ∧
    Judged runtime attributes policy true) = misspelt
  generalize (Has policies input fun policy => policy.effect = ascii "ALLOW" ∧
    Judged runtime attributes policy true) = allowed at hsome ⊢
  generalize (Has policies input fun policy => policy.effect = ascii "ALLOW") = some at hsome ⊢
  generalize (Has policies input fun policy => Misspells "ALLOW" policy ∧
    Judged runtime attributes policy true) = misspelt' at hsome' ⊢
  generalize Has policies input (Misspells "ALLOW") = some' at hsome' ⊢
  grind only

def flatRuntime : PolicyRuntime := ⟨flatCalendar, fun _ => 200, fun _ _ => .eq⟩

def ofAgent : Datum :=
  .object [(ascii "actor", .object [(ascii "type", .string (ascii "AGENT"))])]

def misspeltDenial : Policy :=
  { stablePolicyId := ascii "p", version := 1, name := ascii "Stop", organizationId := ascii "o"
    effect := ascii "deny", target := [], condition := existenceNode "actor.type" }

end GhostBridge.Policies
