import GhostBridge.Ecma.Decimal
import GhostBridge.Ecma.Value
import GhostBridge.Ecma.Text

/-!
# Approval workflows

A workflow has stages that are decided one after the other.
-/

namespace GhostBridge.Approvals

open Ecma

structure EligibleApprovers where
  permissionIds : List Text := []
  roleKeys : List Text := []
  teamIds : List Text := []
  requireWorkspaceMembership : Bool := true
  requireHuman : Bool := true
deriving DecidableEq

structure ApprovalStage where
  stageId : Text
  sequence : Value
  requiredDecisionCount : Value
  eligibleApprovers : EligibleApprovers := {}
  excludeRequester : Bool := true
  excludePreviousStageApprovers : Bool := false

structure ApprovalTarget where
  permissionIds : List Text := []
  organizationIds : List Text := []
  workspaceIds : List Text := []

structure ApprovalWorkflow where
  organizationId : Text
  workspaceId : Text := []
  stableWorkflowId : Text
  version : ℕ
  name : Text
  stages : List ApprovalStage
  target : ApprovalTarget := {}
  triggerConditions : List (Text × Value) := []
  expirationMs : Value
  singleUseGrant : Bool := true

structure DefinitionError where
  path : Text
  message : Text
deriving DecidableEq

def maxApprovalStages : ℕ := 10

def maxApprovalExpiryMs : Int := 604800000

/-- `stages.${index}.${field}`. -/
def stagePath (index : ℕ) (field : String) : Text :=
  ascii "stages." ++ decimalDigits index ++ ascii "." ++ ascii field

def errorWhen (condition : Bool) (path : Text) (message : Text) : List DefinitionError :=
  if condition then [⟨path, message⟩] else []

def isIntegerBetween (low high : Int) (value : Value) : Bool :=
  value.integer?.any fun n => low ≤ n && n ≤ high

def unknownPermissions (hasPermission : Text → Bool) (path : Text) (permissions : List Text) :
    List DefinitionError :=
  (permissions.filter fun permission => !hasPermission permission).map fun permission =>
    ⟨path, ascii "Unknown permission: " ++ permission ++ ascii "."⟩

def stageErrors (hasPermission : Text → Bool) (index : ℕ) (ids : List Text)
    (stage : ApprovalStage) : List DefinitionError :=
  errorWhen (stage.sequence.integer? != some (index + 1 : ℕ)) (stagePath index "sequence")
      (ascii "stage sequences must be contiguous and ordered.") ++
    errorWhen (stage.stageId.isEmpty || ids.contains stage.stageId) (stagePath index "stageId")
      (ascii "stage IDs must be unique.") ++
    errorWhen (!isIntegerBetween 1 20 stage.requiredDecisionCount)
      (stagePath index "requiredDecisionCount")
      (ascii "requiredDecisionCount must be between 1 and 20.") ++
    unknownPermissions hasPermission (stagePath index "eligibleApprovers.permissionIds")
      stage.eligibleApprovers.permissionIds

def stagesErrors (hasPermission : Text → Bool) :
    ℕ → List Text → List ApprovalStage → List DefinitionError
  | _, _, [] => []
  | index, ids, stage :: stages =>
    stageErrors hasPermission index ids stage ++
      stagesErrors hasPermission (index + 1) (stage.stageId :: ids) stages

def allowedTriggerKeys : List Text :=
  [ascii "permission", ascii "resourceType", ascii "operationType", ascii "environment",
    ascii "capabilityClassification", ascii "capabilityCategory", ascii "sideEffect",
    ascii "requesterActorType"]

def triggerErrors (condition : Text × Value) : List DefinitionError :=
  let path := ascii "triggerConditions." ++ condition.1
  errorWhen (!allowedTriggerKeys.contains condition.1) path
      (ascii "Trigger condition is not registered.") ++
    errorWhen (match condition.2 with
      | .array items => items.length < 1 || 100 < items.length
      | _ => false) path (ascii "Trigger condition list is outside the supported bounds.") ++
    errorWhen (match condition.2 with
      | .string _ | .bool _ | .array _ => false
      | _ => true) path (ascii "Trigger condition must use a bounded literal or list.")

/-- The errors of `validateWorkflowDefinition(workflow)`, which is valid when there are none. -/
def validateWorkflowDefinition (hasPermission : Text → Bool) (workflow : ApprovalWorkflow) :
    List DefinitionError :=
  errorWhen workflow.name.isEmpty (ascii "name") (ascii "name is required.") ++
    errorWhen (workflow.stages.isEmpty || maxApprovalStages < workflow.stages.length)
      (ascii "stages") (ascii "stages must contain between 1 and 10 entries.") ++
    stagesErrors hasPermission 0 [] workflow.stages ++
    unknownPermissions hasPermission (ascii "target.permissionIds") workflow.target.permissionIds ++
    errorWhen (workflow.target.organizationIds.any (· != workflow.organizationId))
      (ascii "target.organizationIds")
      (ascii "Cross-organization workflow targets are forbidden.") ++
    errorWhen (!workflow.workspaceId.isEmpty &&
        workflow.target.workspaceIds.any (· != workflow.workspaceId))
      (ascii "target.workspaceIds") (ascii "A workspace workflow cannot target another workspace.") ++
    workflow.triggerConditions.flatMap triggerErrors ++
    errorWhen (!isIntegerBetween 1000 maxApprovalExpiryMs workflow.expirationMs)
      (ascii "expirationMs") (ascii "expirationMs is outside the supported range.")

namespace ApprovalStage

def position (stage : ApprovalStage) : Int := stage.sequence.integer?.getD 0

def required (stage : ApprovalStage) : Int := stage.requiredDecisionCount.integer?.getD 0

end ApprovalStage

theorem errorWhen_nil {condition : Bool} {path message : Text} :
    errorWhen condition path message = [] ↔ condition = false := by
  cases condition <;> simp [errorWhen]

structure ValidStages (stages : List ApprovalStage) : Prop where
  nonempty : stages ≠ []
  position : ∀ index (h : index < stages.length), stages[index].position = index + 1
  identifiers : (stages.map ApprovalStage.stageId).Nodup
  required : ∀ stage ∈ stages, 1 ≤ stage.required

theorem isIntegerBetween_getD {low high : Int} {value : Value}
    (h : isIntegerBetween low high value = true) : low ≤ value.integer?.getD 0 := by
  unfold isIntegerBetween at h
  cases hinteger : value.integer? with
  | none => simp [hinteger] at h
  | some n =>
    simp only [hinteger, Option.any_some, Bool.and_eq_true, decide_eq_true_eq] at h
    simpa using h.1

private theorem stageErrors_nil {hasPermission : Text → Bool} {index : ℕ} {ids : List Text}
    {stage : ApprovalStage} (h : stageErrors hasPermission index ids stage = []) :
    stage.position = index + 1 ∧ stage.stageId ∉ ids ∧ 1 ≤ stage.required := by
  simp only [stageErrors, List.append_eq_nil_iff, errorWhen_nil, bne_eq_false_iff_eq,
    Bool.or_eq_false_iff, Bool.not_eq_false'] at h
  obtain ⟨⟨⟨hsequence, hid⟩, hrequired⟩, -⟩ := h
  refine ⟨?_, by simpa using hid.2, isIntegerBetween_getD hrequired⟩
  rw [ApprovalStage.position, hsequence]
  simp

private theorem stagesErrors_nil {hasPermission : Text → Bool} {stages : List ApprovalStage}
    {index : ℕ} {ids : List Text} (h : stagesErrors hasPermission index ids stages = []) :
    (∀ i (hi : i < stages.length), stages[i].position = (index + i : ℕ) + 1) ∧
      (stages.map ApprovalStage.stageId).Nodup ∧
      (∀ stage ∈ stages, stage.stageId ∉ ids) ∧ ∀ stage ∈ stages, 1 ≤ stage.required := by
  induction stages generalizing index ids with
  | nil => simp
  | cons stage stages ih =>
    simp only [stagesErrors, List.append_eq_nil_iff] at h
    obtain ⟨hposition, hid, hrequired⟩ := stageErrors_nil h.1
    obtain ⟨hpositions, hnodup, hids, hall⟩ := ih h.2
    have hother : stage.stageId ∉ stages.map ApprovalStage.stageId := by
      intro hmem
      obtain ⟨other, hother, heq⟩ := List.mem_map.mp hmem
      exact hids other hother (by simp [heq])
    refine ⟨fun i hi => ?_, List.nodup_cons.mpr ⟨hother, hnodup⟩, ?_, ?_⟩
    · cases i with
      | zero => simpa using hposition
      | succ i =>
        have hlater := hpositions i (by simpa using hi)
        simp only [List.getElem_cons_succ, hlater]
        push_cast
        omega
    · rw [List.forall_mem_cons]
      exact ⟨hid, fun other hother hmem => hids other hother (List.mem_cons_of_mem _ hmem)⟩
    · rw [List.forall_mem_cons]
      exact ⟨hrequired, hall⟩

theorem validStages_of_valid {hasPermission : Text → Bool} {workflow : ApprovalWorkflow}
    (h : validateWorkflowDefinition hasPermission workflow = []) :
    ValidStages workflow.stages := by
  simp only [validateWorkflowDefinition, List.append_eq_nil_iff, errorWhen_nil,
    Bool.or_eq_false_iff] at h
  obtain ⟨⟨⟨⟨⟨⟨⟨-, hstages⟩, herrors⟩, -⟩, -⟩, -⟩, -⟩, -⟩ := h
  obtain ⟨hpositions, hnodup, -, hrequired⟩ := stagesErrors_nil herrors
  refine ⟨by simpa using hstages.1, fun index hindex => ?_, hnodup, hrequired⟩
  simpa using hpositions index hindex

end GhostBridge.Approvals
