import GhostBridge.AgentSelection.Policy
import GhostBridge.Ecma.Arrays
import GhostBridge.Ecma.Outcome
import GhostBridge.Delegation.Error
import Mathlib.Order.Bounds.Basic

/-!
# The classification of a delegation

A delegation runs under the highest of the classifications that its parts name.
-/

namespace GhostBridge.Delegation

open Ecma AgentSelection

structure ContractLimits where
  maximumDataClassification : DataClassification
  allowedDataClassifications : List DataClassification := []
deriving DecidableEq

structure TargetLimits where
  dataClassificationsAllowed : List DataClassification := []
deriving DecidableEq

def classificationOf (label : Text) : Option DataClassification :=
  DataClassification.ofText? label.toLowerCase

def knownLabels (labels : List Text) : List DataClassification := labels.filterMap classificationOf

def highestClassification (values : List Text) (fallback : DataClassification) :
    DataClassification :=
  if values.any fun value => (classificationOf value).isNone then fallback
  else ((knownLabels values).insertionSort fun left right => right ≤ left).head?.getD fallback

def classificationDenied (message : String) : DataError :=
  dataError "DATA_CONTRACT_CLASSIFICATION_DENIED" message

def assertClassificationAllowed (effective : Text) (contract : ContractLimits)
    (target : TargetLimits) : Checked DataClassification := do
  let value ← orThrow (classificationDenied "Data classification is unknown.")
    (classificationOf effective)
  throwWhen (contract.maximumDataClassification < value)
    (classificationDenied "Data classification exceeds the contract ceiling.")
  throwWhen (contract.allowedDataClassifications ≠ [] ∧ value ∉ contract.allowedDataClassifications)
    (classificationDenied "Data classification is not allowed by the contract.")
  throwWhen (target.dataClassificationsAllowed ≠ [] ∧ value ∉ target.dataClassificationsAllowed)
    (classificationDenied "Target agent does not support the effective classification.")
  return value

/-- The classification under which `prepareDelegatedInvocation` runs; a label is left out where it
is missing or empty. -/
def effectiveClassification (labels : List Text) (contract : ContractLimits) : DataClassification :=
  highestClassification (labels.filter (· ≠ [])) contract.maximumDataClassification

/-- What `prepareDelegatedInvocation` finds of the classification. -/
def classifyDelegation (labels : List Text) (contract : ContractLimits) (target : TargetLimits) :
    Checked DataClassification :=
  assertClassificationAllowed (effectiveClassification labels contract).text contract target

variable {labels rest : List Text} {contract : ContractLimits} {target : TargetLimits}

def HasUnknown (labels : List Text) : Prop := ∃ label ∈ labels, label ≠ [] ∧ classificationOf label = none

structure AllowedBy (contract : ContractLimits) (target : TargetLimits) (c : DataClassification) :
    Prop where
  contract : contract.allowedDataClassifications ≠ [] → c ∈ contract.allowedDataClassifications
  target : target.dataClassificationsAllowed ≠ [] → c ∈ target.dataClassificationsAllowed

theorem classificationOf_nil : classificationOf [] = none := by decide

theorem knownLabels_filter (labels : List Text) :
    knownLabels (labels.filter (· ≠ [])) = knownLabels labels := by
  induction labels with
  | nil => rfl
  | cons label labels ih =>
    by_cases h : label = []
    · subst h
      simpa [knownLabels, classificationOf_nil] using ih
    · simp only [knownLabels, ne_eq, decide_not] at ih
      simp [knownLabels, h, List.filterMap_cons, ih]

theorem effective_of_unknown (h : HasUnknown labels) :
    effectiveClassification labels contract = contract.maximumDataClassification := by
  obtain ⟨label, hmem, hne, hnone⟩ := h
  apply if_pos
  rw [List.any_eq_true]
  exact ⟨label, by simp [hmem, hne], by simp [hnone]⟩

theorem effective_of_nil (h : knownLabels labels = []) :
    effectiveClassification labels contract = contract.maximumDataClassification := by
  unfold effectiveClassification highestClassification
  split
  · rfl
  · rw [knownLabels_filter, h]
    rfl

theorem isGreatest_effective (contract : ContractLimits) (hknown : ¬HasUnknown labels) (hne : knownLabels labels ≠ []) :
    IsGreatest {c | c ∈ knownLabels labels} (effectiveClassification labels contract) := by
  have hnone : ¬((labels.filter (· ≠ [])).any fun value => (classificationOf value).isNone) := by
    intro h
    obtain ⟨label, hmem, hlabel⟩ := List.any_eq_true.mp h
    simp only [List.mem_filter, decide_eq_true_eq] at hmem
    exact hknown ⟨label, hmem.1, hmem.2, by simpa using hlabel⟩
  unfold effectiveClassification highestClassification
  rw [if_neg hnone, knownLabels_filter]
  cases hsorted : (knownLabels labels).insertionSort fun left right => right ≤ left with
  | nil =>
    have hlength := List.length_insertionSort (r := fun left right => right ≤ left) (knownLabels labels)
    rw [hsorted] at hlength
    exact absurd (List.length_eq_zero_iff.mp hlength.symm) hne
  | cons first others =>
    have hperm := List.perm_insertionSort (fun left right : DataClassification => right ≤ left)
      (knownLabels labels)
    have hpairs := List.pairwise_insertionSort (fun left right : DataClassification => right ≤ left)
      (knownLabels labels)
    rw [hsorted] at hperm hpairs
    constructor
    · exact hperm.mem_iff.mp List.mem_cons_self
    · intro c hc
      rcases List.mem_cons.mp (hperm.mem_iff.mpr hc) with rfl | hc
      · exact le_rfl
      · exact List.rel_of_pairwise_cons hpairs hc

theorem effective_eq_of_isGreatest {c : DataClassification} (hknown : ¬HasUnknown labels)
    (hc : IsGreatest {c | c ∈ knownLabels labels} c) : effectiveClassification labels contract = c := by
  have hne : knownLabels labels ≠ [] := List.ne_nil_of_mem hc.1
  exact (isGreatest_effective contract hknown hne).unique hc

theorem classifyDelegation_ok {value : DataClassification} :
    classifyDelegation labels contract target = .ok value ↔
      value = effectiveClassification labels contract ∧
        value ≤ contract.maximumDataClassification ∧ AllowedBy contract target value := by
  have htext : classificationOf (effectiveClassification labels contract).text =
      some (effectiveClassification labels contract) := DataClassification.ofText?_text _
  unfold classifyDelegation assertClassificationAllowed
  rw [htext]
  constructor
  · intro h
    simp only [orThrow, ok_bind, bind_ok, throwWhen_ok, decide_eq_false_iff_not, exists_unit,
      pure_ok, not_and, not_not, not_lt] at h
    obtain ⟨hceiling, hcontract, htarget, rfl⟩ := h
    exact ⟨rfl, hceiling, hcontract, htarget⟩
  · rintro ⟨rfl, hceiling, hallowed⟩
    simp only [orThrow, ok_bind, bind_ok, throwWhen_ok, decide_eq_false_iff_not, exists_unit,
      pure_ok, not_and, not_not, not_lt, and_true]
    exact ⟨hceiling, hallowed.contract, hallowed.target⟩

theorem accepted_iff :
    (∃ value, classifyDelegation labels contract target = .ok value) ↔
      effectiveClassification labels contract ≤ contract.maximumDataClassification ∧
        AllowedBy contract target (effectiveClassification labels contract) := by
  simp [classifyDelegation_ok]

/-- Labels that are left when some that name nothing are taken away. -/
structure WithoutUnknown (rest labels : List Text) : Prop where
  sublist : rest.Sublist labels
  known : knownLabels rest = knownLabels labels

structure ClassifiedSafely (labels : List Text) (contract : ContractLimits)
    (target : TargetLimits) : Prop where
  atLeast : ∀ known ∈ knownLabels labels, known ≤ effectiveClassification labels contract
  /-- A label that names nothing does not lower the classification. -/
  notLowered : ∀ rest, WithoutUnknown rest labels →
    effectiveClassification rest contract ≤ effectiveClassification labels contract
  /-- A label that names nothing does not make a delegation acceptable. -/
  notAccepted : ∀ rest, WithoutUnknown rest labels →
    (∃ value, classifyDelegation labels contract target = .ok value) →
    ∃ value, classifyDelegation rest contract target = .ok value
  respected : ∀ value, classifyDelegation labels contract target = .ok value →
    value = effectiveClassification labels contract ∧
      value ≤ contract.maximumDataClassification ∧ AllowedBy contract target value

theorem hasUnknown_of_withoutUnknown (h : WithoutUnknown rest labels) (hrest : HasUnknown rest) :
    HasUnknown labels := by
  obtain ⟨label, hmem, hlabel⟩ := hrest
  exact ⟨label, h.sublist.subset hmem, hlabel⟩

theorem withoutUnknown_filter (labels : List Text) :
    WithoutUnknown (labels.filter fun label => (classificationOf label).isSome) labels := by
  constructor
  · exact List.filter_sublist
  · unfold knownLabels
    rw [List.filterMap_filter]
    apply List.filterMap_congr
    intro label _
    cases classificationOf label <;> rfl

theorem not_hasUnknown_filter (labels : List Text) :
    ¬HasUnknown (labels.filter fun label => (classificationOf label).isSome) := by
  rintro ⟨label, hmem, -, hnone⟩
  simp [hnone] at hmem

/-- A delegation is classified safely, unless a label names nothing while the highest of the labels
that name a classification is above the ceiling of the contract, or is not in every allow list that
the ceiling is in. -/
theorem classified_safely_iff (labels : List Text) (contract : ContractLimits)
    (target : TargetLimits) :
    ClassifiedSafely labels contract target ↔
      (HasUnknown labels → ∀ highest, IsGreatest {c | c ∈ knownLabels labels} highest →
        highest ≤ contract.maximumDataClassification ∧
          (AllowedBy contract target contract.maximumDataClassification →
            AllowedBy contract target highest)) := by
  constructor
  · intro h hunknown highest hhighest
    have heffective : effectiveClassification labels contract = contract.maximumDataClassification :=
      effective_of_unknown hunknown
    have hlabels := withoutUnknown_filter labels
    have hrest : effectiveClassification (labels.filter fun label => (classificationOf label).isSome)
        contract = highest := by
      apply effective_eq_of_isGreatest (not_hasUnknown_filter labels)
      rw [hlabels.known]
      exact hhighest
    constructor
    · rw [← heffective]
      exact h.atLeast highest hhighest.1
    · intro hceiling
      have haccepted := h.notAccepted _ hlabels (by
        rw [accepted_iff, heffective]
        exact ⟨le_rfl, hceiling⟩)
      rw [accepted_iff, hrest] at haccepted
      exact haccepted.2
  · intro h
    by_cases hunknown : HasUnknown labels
    · have heffective : effectiveClassification labels contract =
          contract.maximumDataClassification := effective_of_unknown hunknown
      have hrest (rest : List Text) (hwithout : WithoutUnknown rest labels) :
          effectiveClassification rest contract = contract.maximumDataClassification ∨
            IsGreatest {c | c ∈ knownLabels labels} (effectiveClassification rest contract) := by
        by_cases hu : HasUnknown rest
        · exact .inl (effective_of_unknown hu)
        by_cases hnil : knownLabels rest = []
        · exact .inl (effective_of_nil hnil)
        · rw [← hwithout.known]
          exact .inr (isGreatest_effective contract hu hnil)
      constructor
      · intro known hmem
        rw [heffective]
        have hsafe := isGreatest_effective contract (not_hasUnknown_filter labels)
          (by rw [(withoutUnknown_filter labels).known]; exact List.ne_nil_of_mem hmem)
        rw [(withoutUnknown_filter labels).known] at hsafe
        exact (hsafe.2 hmem).trans (h hunknown _ hsafe).1
      · intro rest hwithout
        rw [heffective]
        rcases hrest rest hwithout with heq | hgreatest
        · exact heq.le
        · exact (h hunknown _ hgreatest).1
      · intro rest hwithout haccepted
        rw [accepted_iff, heffective] at haccepted
        rw [accepted_iff]
        rcases hrest rest hwithout with heq | hgreatest
        · rw [heq]
          exact haccepted
        · obtain ⟨hle, hallowed⟩ := h hunknown _ hgreatest
          exact ⟨hle, hallowed haccepted.2⟩
      · intro value hvalue
        exact classifyDelegation_ok.mp hvalue
    · have hsame (rest : List Text) (hwithout : WithoutUnknown rest labels) :
          effectiveClassification rest contract = effectiveClassification labels contract := by
        have hu : ¬HasUnknown rest := fun hu => hunknown (hasUnknown_of_withoutUnknown hwithout hu)
        by_cases hnil : knownLabels labels = []
        · rw [effective_of_nil hnil, effective_of_nil (hwithout.known.trans hnil)]
        · apply effective_eq_of_isGreatest hu
          rw [hwithout.known]
          exact isGreatest_effective contract hunknown hnil
      constructor
      · intro known hmem
        exact (isGreatest_effective contract hunknown (List.ne_nil_of_mem hmem)).2 hmem
      · intro rest hwithout
        exact (hsame rest hwithout).le
      · intro rest hwithout haccepted
        rw [accepted_iff] at haccepted ⊢
        rwa [hsame rest hwithout]
      · intro value hvalue
        exact classifyDelegation_ok.mp hvalue

/-- A label that names nothing hides the label `restricted` under the ceiling `internal`. -/
theorem unknown_label_lowers : ¬∀ (labels : List Text) (contract : ContractLimits)
    (target : TargetLimits), ClassifiedSafely labels contract target := by
  intro h
  have hsafe := h [ascii "restricted", ascii "secret"] { maximumDataClassification := .internal } {}
  exact absurd (hsafe.atLeast .restricted (by decide)) (by decide)

end GhostBridge.Delegation
