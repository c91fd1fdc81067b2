import GhostBridge.Ecma.Arrays
import GhostBridge.Ecma.Text
import GhostBridge.Ecma.Outcome
import Mathlib.Order.Basic
import Mathlib.Tactic.Common

/-!
# Classes of agents and data

The enumerations that the selection of agents and the delegation between them share.
-/

namespace GhostBridge.AgentSelection

open Ecma

/-- `DATA_CLASSIFICATIONS`. -/
inductive DataClassification where
  | publicData
  | internal
  | confidential
  | restricted
deriving DecidableEq

namespace DataClassification

def values : List (Text × DataClassification) :=
  [(ascii "public", .publicData), (ascii "internal", .internal),
    (ascii "confidential", .confidential), (ascii "restricted", .restricted)]

def text : DataClassification → Text
  | publicData => ascii "public"
  | internal => ascii "internal"
  | confidential => ascii "confidential"
  | restricted => ascii "restricted"

def ofText? (text : Text) : Option DataClassification := values.lookup text

/-- `CLASSIFICATION_RANK`. -/
def rank : DataClassification → ℕ
  | publicData => 0
  | internal => 1
  | confidential => 2
  | restricted => 3

theorem rank_injective : Function.Injective rank := by
  intro a b h
  cases a <;> cases b <;> first | rfl | cases h

instance : LinearOrder DataClassification := LinearOrder.lift' rank rank_injective

theorem ofText?_text (c : DataClassification) : ofText? c.text.toLowerCase = some c := by
  cases c <;> decide

end DataClassification

def dataClassifications : List Text := DataClassification.values.map Prod.fst

def trustTiers : List Text :=
  ["unverified", "registered", "organization_verified", "platform_verified"].map ascii

def verificationStatuses : List Text :=
  ["unverified", "passport_validated", "organization_verified", "platform_verified"].map ascii

def costClasses : List Text := ["unknown", "low", "medium", "high"].map ascii

def latencyClasses : List Text := ["unknown", "fast", "standard", "slow"].map ascii

def rankOf (values : List Text) (value : Text) : Int :=
  match values.idxOf? value.toLowerCase with
  | some index => index
  | none => -1

def trustRank : Text → Int := rankOf trustTiers
def costRank : Text → Int := rankOf costClasses
def latencyRank : Text → Int := rankOf latencyClasses

def maximumArrayItems : ℕ := 100

end GhostBridge.AgentSelection

/-!
## Selection policies

A policy is normalized when it is stored: its lists are bounded, its classes are of their
enumerations and its regions are well formed.
-/

namespace GhostBridge.AgentSelection

open Ecma

/-- The code and the message of an error, with the path, the code and the message of its details. -/
structure SelectionError where
  code : String
  message : String
  details : List (String × String × String) := []
deriving DecidableEq

abbrev Checked (α : Type) := Except SelectionError α

abbrev Member (values : List Text) := {text : Text // text ∈ values}

/-- A list of at most `maximumArrayItems` texts. -/
abbrev Bounded (α : Type) := {list : List α // list.length ≤ maximumArrayItems}

/-- `/^[A-Z0-9-]{2,16}$/`. -/
def isRegion (text : Text) : Bool :=
  2 ≤ text.length && text.length ≤ 16 &&
    text.all fun u => (0x41 ≤ u && u ≤ 0x5a) || (0x30 ≤ u && u ≤ 0x39) || u == 0x2d

abbrev Region := {text : Text // isRegion text = true}

def normalizedTexts (values : List Text) : List Text :=
  (distinct ((values.map Text.trimmed).filter (· ≠ []))).insertionSort fun a b => Text.le a b = true

def stableList (values : List Text) : Checked (Bounded Text) :=
  let list := normalizedTexts values
  if h : list.length ≤ maximumArrayItems then
    if list.any fun value => 200 < value.length then
      throw ⟨"AGENT_SELECTION_CONSTRAINT_INVALID", "Selection constraint list exceeds its limit.", []⟩
    else return ⟨list, h⟩
  else
    throw ⟨"AGENT_SELECTION_CONSTRAINT_INVALID", "Selection constraint list exceeds its limit.", []⟩

def validateEnum (value : Option Text) (values : List Text) (path : String)
    (fallback : Option Text := none) : Checked (Member values) :=
  let normalized := ((value <|> fallback).getD []).trimmed.toLowerCase
  if h : normalized ∈ values then return ⟨normalized, h⟩
  else
    throw ⟨"AGENT_SELECTION_CONSTRAINT_INVALID", "Selection constraint is invalid.",
      [(path, "ENUM_VALUE_INVALID", path ++ " is invalid.")]⟩

theorem mem_normalizedTexts {values : List Text} {text : Text} :
    text ∈ normalizedTexts values ↔ text ≠ [] ∧ ∃ value ∈ values, value.trimmed = text := by
  simp only [normalizedTexts, List.mem_insertionSort, mem_distinct, List.mem_filter, List.mem_map,
    decide_eq_true_eq]
  exact and_comm

theorem length_normalizedTexts_le (values : List Text) :
    (normalizedTexts values).length ≤ values.length := by
  unfold normalizedTexts
  rw [List.length_insertionSort]
  calc (distinct ((values.map Text.trimmed).filter (· ≠ []))).length
      ≤ ((values.map Text.trimmed).filter (· ≠ [])).length := length_distinct_le _
    _ ≤ (values.map Text.trimmed).length := List.length_filter_le _ _
    _ = values.length := List.length_map _

theorem stableList_ok {values : List Text} {list : Bounded Text} :
    stableList values = .ok list ↔
      list.val = normalizedTexts values ∧ ∀ value ∈ list.val, value.length ≤ 200 := by
  unfold stableList
  dsimp only
  constructor
  · intro h
    split at h
    · split at h
      · cases h
      · next hlong =>
        obtain rfl := pure_ok.mp h
        exact ⟨rfl, by simpa using hlong⟩
    · cases h
  · rintro ⟨heq, hshort⟩
    have hlength : (normalizedTexts values).length ≤ maximumArrayItems := heq ▸ list.property
    rw [dif_pos hlength, if_neg]
    · exact congrArg Except.ok (Subtype.ext heq.symm)
    · rw [← heq]
      simpa using hshort

theorem validateEnum_fallback {values : List Text} {path : String} (value : Member values)
    (h : ∀ v ∈ values, v.trimmed.toLowerCase = v) :
    validateEnum none values path (some value.val) = .ok value := by
  unfold validateEnum
  simp only [Option.orElse_eq_orElse, Option.orElse_none, Option.getD_some,
    h value.val value.property, value.property, dif_pos]
  rfl

theorem isRegion_unit {text : Text} (h : isRegion text = true) {u : UInt16} (hu : u ∈ text) :
    u < 0x61 ∧ isWhitespace u = false := by
  simp only [isRegion, Bool.and_eq_true, List.all_eq_true] at h
  have hunit := h.2 u hu
  simp only [Bool.or_eq_true, Bool.and_eq_true, decide_eq_true_eq, beq_iff_eq] at hunit
  constructor
  · rcases hunit with (⟨-, hle⟩ | ⟨-, hle⟩) | rfl
    · exact UInt16.lt_of_le_of_lt hle (by decide)
    · exact UInt16.lt_of_le_of_lt hle (by decide)
    · decide
  · rcases hunit with (⟨hlow, hhigh⟩ | ⟨hlow, hhigh⟩) | rfl
    · simp only [UInt16.le_iff_toNat_le] at hlow hhigh
      simp [isWhitespace, UInt16.le_iff_toNat_le, ← UInt16.toNat_inj] at *
      omega
    · simp only [UInt16.le_iff_toNat_le] at hlow hhigh
      simp [isWhitespace, UInt16.le_iff_toNat_le, ← UInt16.toNat_inj] at *
      omega
    · decide

theorem Region.trimmed (region : Region) : region.val.trimmed = region.val :=
  Text.trimmed_of_forall fun _ hu => (isRegion_unit region.property hu).2

theorem Region.toUpperCase (region : Region) : region.val.toUpperCase = region.val :=
  Text.toUpperCase_of_forall fun _ hu => (isRegion_unit region.property hu).1

theorem Region.length (region : Region) : 2 ≤ region.val.length ∧ region.val.length ≤ 16 := by
  have h := region.property
  simp only [isRegion, Bool.and_eq_true, decide_eq_true_eq] at h
  exact h.1

theorem Region.ne_nil (region : Region) : region.val ≠ [] := by
  intro h
  have hlength := region.length.1
  rw [h] at hlength
  cases hlength

/-- What a normalized policy says of the candidates that may be selected. -/
structure Policy where
  allowedCapabilityCategories : List Text
  allowedPassportIds : List Text
  deniedPassportIds : List Text
  allowedPublishers : List Text
  deniedPublishers : List Text
  minimumTrustTier : Member trustTiers
  requiredVerificationStatuses : List (Member verificationStatuses)
  allowedRegions : Bounded Region
  requiredResidencyRegions : Bounded Region
  allowedDataClassifications : List (Member dataClassifications)
  maximumCostClass : Member costClasses
  maximumLatencyClass : Member latencyClasses
  requireHealthy : Bool
  requireReady : Bool
  allowOpenCircuit : Bool
  allowRateLimitedCandidate : Bool
  allowUncertainSchemaCompatibility : Bool

def upperList (texts : Bounded Text) : Bounded Text :=
  ⟨texts.val.map Text.toUpperCase, by rw [List.length_map]; exact texts.property⟩

end GhostBridge.AgentSelection
