import GhostBridge.Ecma.Sorting
import GhostBridge.Orchestration.NodeRelease

/-!
# Checkpoints of a run

A checkpoint keeps the keys of the nodes of a run by the classes of their statuses, and hashes of
the documents that the run works with.
-/

namespace GhostBridge.Orchestration.Checkpoints

open Ecma

/-- `/^[A-Za-z][A-Za-z0-9_-]{0,99}$/`. -/
def isSafeNodeKey : Text → Bool
  | [] => false
  | u :: rest =>
    isLetter u && rest.length ≤ 99 &&
      rest.all fun v => isLetter v || (0x30 ≤ v && v ≤ 0x39) || v == 0x5f || v == 0x2d
where
  isLetter (u : UInt16) : Bool := (0x41 ≤ u && u ≤ 0x5a) || (0x61 ≤ u && u ≤ 0x7a)

/-- `/^[a-f0-9]{24}$/i`. -/
def isSafeObjectId (text : Text) : Bool :=
  text.length == 24 && text.all fun u =>
    (0x30 ≤ u && u ≤ 0x39) || (0x41 ≤ u && u ≤ 0x46) || (0x61 ≤ u && u ≤ 0x66)

/-- `/^(?:sha256|hmac-sha256):[a-f0-9]{64}$/`. -/
def isSafeHash (text : Text) : Bool :=
  [ascii "sha256:", ascii "hmac-sha256:"].any fun start =>
    let digits := text.drop start.length
    start.isPrefixOf text && digits.length == 64 &&
      digits.all fun u => (0x30 ≤ u && u ≤ 0x39) || (0x61 ≤ u && u ≤ 0x66)

/-- `ORCHESTRATION_RUN_STATUSES`. -/
def runStatuses : List Text :=
  ["queued", "running", "waiting_approval", "waiting_intervention", "recovery_pending",
    "recovering", "compensation_pending", "compensating", "compensation_failed", "recovered",
    "succeeded", "failed", "cancel_requested", "cancelling", "cancelled", "partial_failure",
    "termination_requested", "terminated", "terminated_with_accepted_risk"].map ascii

/-- `ORCHESTRATION_LIMITS.maximumNodes`. -/
def maximumNodes : ℕ := 100

/-- `RECOVERY_LIMITS.maximumPlanSteps`. -/
def maximumPlanSteps : ℕ := 1000

/-- What `checkpointContractMaterial` keeps of an edge. -/
structure EdgeContract where
  start : Text
  target : Text
  contractId : Text
  version : ℕ
  inputSchemaHash : Option Text
  outputSchemaHash : Option Text

structure Edge extends EdgeContract where
  mappingMode : Text

variable {Document : Type}

/-- The frozen definition of a run: its edges, and the document of everything else. -/
structure Definition (Document : Type) where
  edges : List Edge
  rest : Document

structure NodeRun (Document : Type) where
  nodeKey : Text
  status : NodeStatus
  connectionId : Text
  passportId : Text
  passportVersion : Option ℕ
  selectionDecisionId : Option Text
  replacementSelectionDecisionId : Option Text
  recoveryTargetSnapshot : Option Document
  delegationGrantId : Option Text

/-- An entry of `checkpointSelectionMaterial`. -/
structure Selection where
  nodeKey : Text
  connectionId : Text
  passportId : Text
  passportVersion : Option ℕ
  selectionDecisionId : Option Text
  replacementSelectionDecisionId : Option Text
  recoveryTargetSnapshotHash : Option Text

structure Contracts where
  edges : List EdgeContract
  /-- The keys of nodes, with `grantIdHash`. -/
  grants : List (Text × Text)

@[ext] structure Snapshot where
  orchestrationRunId : Text
  runStatus : Text
  completedNodeKeys : List Text
  activeNodeKeys : List Text
  compensatedNodeKeys : List Text
  skippedNodeKeys : List Text
  failedNodeKeys : List Text
  definitionSnapshotHash : Option Text
  selectionSnapshotHash : Option Text
  contractSnapshotHash : Option Text
  recoveryPolicySnapshotHash : Option Text

/-- `stableHash`, for each of its purposes, and the digest that `createRun` stores of a recovery
policy. All of them are in the format of hashes. -/
structure Hashes (Document : Type) where
  checkpointDefinition : Definition Document → Text
  checkpointRecoveryTarget : Document → Text
  checkpointGrantReference : Text → Text
  checkpointSelection : List Selection → Text
  checkpointContract : Contracts → Text
  checkpointRecoveryPolicy : Document → Text
  orchestrationCheckpoint : Snapshot → Text
  orchestrationRecoveryPolicySnapshot : Document → Text
  definition_safe : ∀ value, isSafeHash (checkpointDefinition value) = true
  selection_safe : ∀ value, isSafeHash (checkpointSelection value) = true
  contract_safe : ∀ value, isSafeHash (checkpointContract value) = true
  checkpoint_safe : ∀ value, isSafeHash (orchestrationCheckpoint value) = true
  policy_safe : ∀ value, isSafeHash (orchestrationRecoveryPolicySnapshot value) = true

/-- A run that `createRun` made of a valid definition, with its node runs, at some time. -/
structure Run (hashes : Hashes Document) where
  id : Text
  id_safe : isSafeObjectId id = true
  status : Text
  status_mem : status ∈ runStatuses
  nodes : List (NodeRun Document)
  keys_safe : ∀ node ∈ nodes, isSafeNodeKey node.nodeKey = true
  keys_nodup : (nodes.map NodeRun.nodeKey).Nodup
  nodes_le : nodes.length ≤ maximumNodes
  definitionSnapshot : Definition Document
  recoveryPolicySnapshot : Option Document
  recoveryPolicySnapshotHash : Option Text
  policy_hashed : recoveryPolicySnapshotHash =
    recoveryPolicySnapshot.map hashes.orchestrationRecoveryPolicySnapshot

def completedStatuses : List NodeStatus := [.succeeded, .compensated]

def activeStatuses : List NodeStatus :=
  [.ready, .queued, .running, .retryWait, .waitingApproval, .waitingIntervention, .recoveryPending,
    .recovering, .compensationPending, .compensating]

def failedStatuses : List NodeStatus := [.failed, .compensationFailed, .nonReversible, .terminated]

def sortedNodeKeys (nodes : List (NodeRun Document)) (statuses : List NodeStatus) : List Text :=
  sortedTexts (((nodes.filter fun node => node.status ∈ statuses).map NodeRun.nodeKey).filter
    isSafeNodeKey)

variable {hashes : Hashes Document} (localeCompare : Text → Text → Ordering)

def checkpointSelectionMaterial (hashes : Hashes Document) (nodes : List (NodeRun Document)) :
    List Selection :=
  sortBy (fun left right => localeCompare left.nodeKey right.nodeKey) (nodes.map fun node =>
    { nodeKey := node.nodeKey
      connectionId := node.connectionId
      passportId := node.passportId
      passportVersion := node.passportVersion
      selectionDecisionId := node.selectionDecisionId
      replacementSelectionDecisionId := node.replacementSelectionDecisionId
      recoveryTargetSnapshotHash :=
        node.recoveryTargetSnapshot.map hashes.checkpointRecoveryTarget })

def checkpointContractMaterial (run : Run hashes) : Contracts where
  edges :=
    let name (edge : EdgeContract) : Text := edge.start ++ ascii ":" ++ edge.target
    sortBy (fun left right => localeCompare (name left) (name right))
      ((run.definitionSnapshot.edges.filter fun edge => edge.mappingMode = ascii "contract").map
        Edge.toEdgeContract)
  grants := sortBy (fun left right => localeCompare left.1 right.1)
    (run.nodes.filterMap fun node => node.delegationGrantId.map fun grant =>
      (node.nodeKey, hashes.checkpointGrantReference grant))

def snapshotHashOrValue {α : Type} (explicit : Option Text) (value : Option α) (hash : α → Text) :
    Option Text :=
  explicit.filter (· ≠ []) <|> value.map hash

/-- `checkpointSnapshot(run, nodes, options)`, with the options of both of its callers. -/
def checkpointSnapshot (run : Run hashes) : Snapshot where
  orchestrationRunId := run.id
  runStatus := run.status
  completedNodeKeys := sortedNodeKeys run.nodes completedStatuses
  activeNodeKeys := sortedNodeKeys run.nodes activeStatuses
  compensatedNodeKeys := sortedNodeKeys run.nodes [.compensated]
  skippedNodeKeys := sortedNodeKeys run.nodes [.skipped]
  failedNodeKeys := sortedNodeKeys run.nodes failedStatuses
  definitionSnapshotHash :=
    snapshotHashOrValue none (some run.definitionSnapshot) hashes.checkpointDefinition
  selectionSnapshotHash := snapshotHashOrValue none
    (some (checkpointSelectionMaterial localeCompare hashes run.nodes)) hashes.checkpointSelection
  contractSnapshotHash := snapshotHashOrValue none
    (some (checkpointContractMaterial localeCompare run)) hashes.checkpointContract
  recoveryPolicySnapshotHash :=
    let explicit := snapshotHashOrValue run.recoveryPolicySnapshotHash run.recoveryPolicySnapshot
      hashes.checkpointRecoveryPolicy
    snapshotHashOrValue (explicit.filter (· ≠ []) <|> run.recoveryPolicySnapshotHash)
      run.recoveryPolicySnapshot hashes.checkpointRecoveryPolicy

/-- `uniqueSorted(values)`. -/
def uniqueSorted (values : List Text) : List Text :=
  sortedTexts ((values.map Text.trimmed).filter (· ≠ []))

def checkpointHash (hashes : Hashes Document) (snapshot : Snapshot) : Text :=
  hashes.orchestrationCheckpoint
    { snapshot with
      completedNodeKeys := uniqueSorted snapshot.completedNodeKeys
      activeNodeKeys := uniqueSorted snapshot.activeNodeKeys
      compensatedNodeKeys := uniqueSorted snapshot.compensatedNodeKeys
      skippedNodeKeys := uniqueSorted snapshot.skippedNodeKeys
      failedNodeKeys := uniqueSorted snapshot.failedNodeKeys }

structure Checkpoint extends Snapshot where
  safeStateHash : Text
  /-- `status === 'invalidated'`. -/
  isInvalidated : Bool

/-- What `createCheckpointForRun` stores, before it is checked. -/
def createCheckpoint (run : Run hashes) : Checkpoint where
  toSnapshot := checkpointSnapshot localeCompare run
  safeStateHash := checkpointHash hashes (checkpointSnapshot localeCompare run)
  isInvalidated := false

abbrev Issue := String × String × String

/-- The keys under which a node would be in two terminal states; `seen` are those before. -/
def terminalConflicts (seen : List Text) : List (String × Text) → List Issue
  | [] => []
  | (field, key) :: rest =>
    (if seen.contains key then
      [(field, "CHECKPOINT_NODE_STATE_CONFLICT",
        "A node cannot have conflicting terminal checkpoint states.")]
    else []) ++ terminalConflicts (key :: seen) rest

namespace Snapshot

variable (snapshot : Snapshot)

def terminalFields : List (String × Text) :=
  [("compensatedNodeKeys", snapshot.compensatedNodeKeys),
    ("skippedNodeKeys", snapshot.skippedNodeKeys),
    ("failedNodeKeys", snapshot.failedNodeKeys)].flatMap fun field => field.2.map (field.1, ·)

def nodeSetIssues : List Issue :=
  ([("completedNodeKeys", snapshot.completedNodeKeys),
    ("activeNodeKeys", snapshot.activeNodeKeys),
    ("compensatedNodeKeys", snapshot.compensatedNodeKeys),
    ("skippedNodeKeys", snapshot.skippedNodeKeys),
    ("failedNodeKeys", snapshot.failedNodeKeys)].filter fun field =>
      maximumPlanSteps < field.2.length || (distinct field.2).length ≠ field.2.length ||
        field.2.any (!isSafeNodeKey ·)).map fun field =>
    (field.1, "CHECKPOINT_NODE_SET_INVALID",
      "Checkpoint node sets must be unique, bounded safe node keys.")

def activeConflicts : List Issue :=
  (snapshot.activeNodeKeys.filter fun key =>
    (snapshot.terminalFields.map Prod.snd).contains key ||
      snapshot.completedNodeKeys.contains key).map fun _ =>
    ("activeNodeKeys", "CHECKPOINT_NODE_STATE_CONFLICT",
      "Active nodes cannot also be terminal or completed.")

def hashIssues : List Issue :=
  ([("definitionSnapshotHash", some (snapshot.definitionSnapshotHash.getD [])),
    ("selectionSnapshotHash", snapshot.selectionSnapshotHash),
    ("contractSnapshotHash", snapshot.contractSnapshotHash),
    ("recoveryPolicySnapshotHash", snapshot.recoveryPolicySnapshotHash)].filter fun field =>
      field.2.any (!isSafeHash ·)).map fun field =>
    (field.1, "CHECKPOINT_SNAPSHOT_HASH_INVALID", "Checkpoint snapshot hash is invalid.")

end Snapshot

def issueWhen (condition : Bool) (path code message : String) : List Issue :=
  if condition then [(path, code, message)] else []

/-- The errors of `validateCheckpoint(checkpoint, currentSnapshot)`. -/
def validateCheckpoint (hashes : Hashes Document) (checkpoint : Checkpoint)
    (currentSnapshot : Option Snapshot) : List Issue :=
  let expectedHash := checkpointHash hashes checkpoint.toSnapshot
  issueWhen (!isSafeObjectId checkpoint.orchestrationRunId) "orchestrationRunId"
    "CHECKPOINT_RUN_REFERENCE_INVALID" "Checkpoint run reference is invalid." ++
  issueWhen (checkpoint.runStatus.isEmpty || 64 < checkpoint.runStatus.length) "runStatus"
    "CHECKPOINT_RUN_STATUS_INVALID" "Checkpoint run status is invalid." ++
  checkpoint.nodeSetIssues ++
  terminalConflicts [] checkpoint.terminalFields ++
  checkpoint.activeConflicts ++
  checkpoint.hashIssues ++
  issueWhen (checkpoint.safeStateHash.isEmpty || checkpoint.safeStateHash ≠ expectedHash)
    "safeStateHash" "CHECKPOINT_HASH_MISMATCH" "Checkpoint state hash is invalid." ++
  issueWhen ((checkpoint.definitionSnapshotHash.getD []).isEmpty) "definitionSnapshotHash"
    "CHECKPOINT_DEFINITION_HASH_REQUIRED" "Checkpoint definition hash is required." ++
  issueWhen checkpoint.isInvalidated "status" "CHECKPOINT_INVALIDATED"
    "Invalidated checkpoints cannot be resumed." ++
  issueWhen (currentSnapshot.any fun current => checkpointHash hashes current ≠ expectedHash) "$"
    "CHECKPOINT_STATE_MISMATCH" "Current durable state does not match the checkpoint."

inductive NodeClass where
  | completed
  | active
  | compensated
  | skipped
  | failed
deriving DecidableEq

def NodeClass.ofStatus : NodeStatus → Option NodeClass
  | .succeeded => some completed
  | .compensated => some compensated
  | .skipped => some skipped
  | .failed | .compensationFailed | .nonReversible | .terminated => some failed
  | .ready | .queued | .running | .retryWait | .waitingApproval | .waitingIntervention
  | .recoveryPending | .recovering | .compensationPending | .compensating => some active
  | .blocked | .cancelled | .cancelRequested => none

def Run.classOf (run : Run hashes) (key : Text) : Option NodeClass :=
  (run.nodes.find? fun node => node.nodeKey = key).bind fun node => NodeClass.ofStatus node.status

/-- The classes whose nodes have these statuses. -/
def Covers (statuses : List NodeStatus) (classes : List NodeClass) : Prop :=
  ∀ status, status ∈ statuses ↔ ∃ c ∈ classes, NodeClass.ofStatus status = some c

theorem covers_completed : Covers completedStatuses [.completed, .compensated] := by
  intro status
  cases status <;> decide

theorem covers_active : Covers activeStatuses [.active] := by
  intro status
  cases status <;> decide

theorem covers_compensated : Covers [.compensated] [.compensated] := by
  intro status
  cases status <;> decide

theorem covers_skipped : Covers [.skipped] [.skipped] := by
  intro status
  cases status <;> decide

theorem covers_failed : Covers failedStatuses [.failed] := by
  intro status
  cases status <;> decide

variable {run later : Run hashes} {statuses : List NodeStatus} {classes : List NodeClass}
  {key : Text}

theorem isSafe_of_mem_sortedNodeKeys {nodes : List (NodeRun Document)}
    (h : key ∈ sortedNodeKeys nodes statuses) : isSafeNodeKey key = true := by
  rw [sortedNodeKeys, mem_sortedTexts] at h
  exact (List.mem_filter.mp h).2

theorem Run.classOf_of_mem {node : NodeRun Document} (hnode : node ∈ run.nodes) :
    run.classOf node.nodeKey = NodeClass.ofStatus node.status := by
  have hfound : run.nodes.find? (fun other => other.nodeKey = node.nodeKey) = some node := by
    cases hfind : run.nodes.find? (fun other => other.nodeKey = node.nodeKey) with
    | none =>
      have hnone := List.find?_eq_none.mp hfind node hnode
      simp at hnone
    | some other =>
      have hkey : other.nodeKey = node.nodeKey := by simpa using List.find?_some hfind
      have hother : other ∈ run.nodes := List.mem_of_find?_eq_some hfind
      rw [List.inj_on_of_nodup_map run.keys_nodup hother hnode hkey]
  rw [classOf, hfound]
  rfl

theorem mem_sortedNodeKeys (h : Covers statuses classes) :
    key ∈ sortedNodeKeys run.nodes statuses ↔ ∃ c ∈ classes, run.classOf key = some c := by
  rw [sortedNodeKeys, mem_sortedTexts, List.mem_filter, List.mem_map]
  constructor
  · intro hkey
    obtain ⟨⟨node, hnode, rfl⟩, _⟩ := hkey
    obtain ⟨hnode, hstatus⟩ := List.mem_filter.mp hnode
    rw [Run.classOf_of_mem hnode]
    exact (h node.status).mp (by simpa using hstatus)
  · intro hclass
    obtain ⟨c, hc, hclass⟩ := hclass
    obtain ⟨node, hfind, hstatus⟩ := Option.bind_eq_some_iff.mp hclass
    have hnode : node ∈ run.nodes := List.mem_of_find?_eq_some hfind
    have hkey : node.nodeKey = key := by simpa using List.find?_some hfind
    have hmem : node.status ∈ statuses := (h node.status).mpr ⟨c, hc, hstatus⟩
    refine ⟨⟨node, List.mem_filter.mpr ⟨hnode, by simpa using hmem⟩, hkey⟩, ?_⟩
    rw [← hkey]
    exact run.keys_safe node hnode

theorem sortedNodeKeys_eq_iff (h : Covers statuses classes) :
    sortedNodeKeys run.nodes statuses = sortedNodeKeys later.nodes statuses ↔
      ∀ key, (∃ c ∈ classes, run.classOf key = some c) ↔
        ∃ c ∈ classes, later.classOf key = some c := by
  rw [sortedNodeKeys, sortedNodeKeys, sortedTexts_eq_iff]
  apply forall_congr'
  intro key
  rw [← mem_sortedNodeKeys h, ← mem_sortedNodeKeys h, sortedNodeKeys, sortedNodeKeys,
    mem_sortedTexts, mem_sortedTexts]

/-- The five sets tell the class of every node. -/
theorem sortedNodeKeys_agree_iff :
    (sortedNodeKeys run.nodes completedStatuses = sortedNodeKeys later.nodes completedStatuses ∧
      sortedNodeKeys run.nodes activeStatuses = sortedNodeKeys later.nodes activeStatuses ∧
      sortedNodeKeys run.nodes [.compensated] = sortedNodeKeys later.nodes [.compensated] ∧
      sortedNodeKeys run.nodes [.skipped] = sortedNodeKeys later.nodes [.skipped] ∧
      sortedNodeKeys run.nodes failedStatuses = sortedNodeKeys later.nodes failedStatuses) ↔
      ∀ key, run.classOf key = later.classOf key := by
  rw [sortedNodeKeys_eq_iff covers_completed, sortedNodeKeys_eq_iff covers_active,
    sortedNodeKeys_eq_iff covers_compensated, sortedNodeKeys_eq_iff covers_skipped,
    sortedNodeKeys_eq_iff covers_failed]
  constructor
  · intro h key
    obtain ⟨hcompleted, hactive, hcompensated, hskipped, hfailed⟩ := h
    specialize hcompleted key
    specialize hactive key
    specialize hcompensated key
    specialize hskipped key
    specialize hfailed key
    cases hrun : run.classOf key with
    | none => cases hlater : later.classOf key with
      | none => rfl
      | some c => cases c <;> simp_all
    | some d => cases hlater : later.classOf key with
      | none => cases d <;> simp_all
      | some c => cases d <;> cases c <;> simp_all
  · intro h
    simp only [h, implies_true, and_self]

theorem uniqueSorted_sortedNodeKeys (nodes : List (NodeRun Document)) (statuses : List NodeStatus) :
    uniqueSorted (sortedNodeKeys nodes statuses) = sortedNodeKeys nodes statuses := by
  have hsafe : ∀ key ∈ sortedNodeKeys nodes statuses, key.trimmed = key ∧ key ≠ [] := by
    intro key hkey
    have hsafe := isSafe_of_mem_sortedNodeKeys hkey
    cases key with
    | nil => cases hsafe
    | cons u rest =>
      simp only [isSafeNodeKey, isSafeNodeKey.isLetter, Bool.and_eq_true, List.all_eq_true] at hsafe
      obtain ⟨⟨hu, _⟩, hrest⟩ := hsafe
      refine ⟨Text.trimmed_of_forall ?_, List.cons_ne_nil u rest⟩
      have hunit (v : UInt16) (hlow : 0x2d ≤ v) (hhigh : v ≤ 0x7a) : isWhitespace v = false := by
        simp [isWhitespace, UInt16.le_iff_toNat_le, ← UInt16.toNat_inj] at *
        omega
      intro v hv
      apply hunit
      all_goals
        rcases List.mem_cons.mp hv with rfl | hv
        · simp [UInt16.le_iff_toNat_le] at *
          omega
        · have := hrest v hv
          simp [UInt16.le_iff_toNat_le, ← UInt16.toNat_inj] at *
          omega
  have hsame : ((sortedNodeKeys nodes statuses).map Text.trimmed).filter (· ≠ []) =
      sortedNodeKeys nodes statuses := by
    rw [List.map_congr_left fun key hkey => (hsafe key hkey).1, List.map_id',
      List.filter_eq_self.mpr]
    intro key hkey
    simpa using (hsafe key hkey).2
  rw [uniqueSorted, hsame, sortedNodeKeys, sortedTexts_eq_iff]
  simp

theorem checkpointHash_snapshot (run : Run hashes) :
    checkpointHash hashes (checkpointSnapshot localeCompare run) =
      hashes.orchestrationCheckpoint (checkpointSnapshot localeCompare run) := by
  simp only [checkpointHash, checkpointSnapshot, uniqueSorted_sortedNodeKeys]

theorem terminalConflicts_eq_nil {entries : List (String × Text)} {seen : List Text}
    (hnodup : (entries.map Prod.snd).Nodup) (hseen : ∀ key ∈ entries.map Prod.snd, key ∉ seen) :
    terminalConflicts seen entries = [] := by
  induction entries generalizing seen with
  | nil => rfl
  | cons entry entries ih =>
    obtain ⟨hentry, hnodup⟩ := List.nodup_cons.mp hnodup
    have hnot : entry.2 ∉ seen := hseen entry.2 List.mem_cons_self
    have hrest : ∀ key ∈ entries.map Prod.snd, key ∉ entry.2 :: seen := by
      intro key hkey hmem
      rcases List.mem_cons.mp hmem with rfl | hmem
      · exact hentry hkey
      · exact hseen key (List.mem_cons_of_mem _ hkey) hmem
    simp [terminalConflicts, hnot, ih hnodup hrest]

theorem ne_nil_of_isSafeHash {text : Text} (h : isSafeHash text = true) : text ≠ [] := by
  rintro rfl
  revert h
  decide

/-- The hash that `createRun` stored is the one that a checkpoint has. -/
theorem recoveryPolicySnapshotHash_eq (run : Run hashes) :
    (checkpointSnapshot localeCompare run).recoveryPolicySnapshotHash =
      run.recoveryPolicySnapshot.map hashes.orchestrationRecoveryPolicySnapshot := by
  have hhash := run.policy_hashed
  cases hpolicy : run.recoveryPolicySnapshot with
  | none =>
    rw [hpolicy] at hhash
    simp [checkpointSnapshot, snapshotHashOrValue, hpolicy, hhash]
  | some policy =>
    rw [hpolicy] at hhash
    have hne := ne_nil_of_isSafeHash (hashes.policy_safe policy)
    have hstored : run.recoveryPolicySnapshotHash =
        some (hashes.orchestrationRecoveryPolicySnapshot policy) := hhash
    have hkept := Option.filter_some_pos (p := fun text : Text => decide (text ≠ []))
      (decide_eq_true hne)
    simp only [checkpointSnapshot, snapshotHashOrValue, hstored, hkept, Option.map_some,
      Option.orElse_eq_orElse, Option.orElse_some]

private theorem disjoint_keys {others : List NodeStatus} {otherClasses : List NodeClass}
    (h : Covers statuses classes) (hothers : Covers others otherClasses)
    (hne : ∀ c ∈ classes, c ∉ otherClasses) (hkey : key ∈ sortedNodeKeys run.nodes statuses) :
    key ∉ sortedNodeKeys run.nodes others := by
  rw [mem_sortedNodeKeys hothers]
  obtain ⟨c, hc, hclass⟩ := (mem_sortedNodeKeys h).mp hkey
  intro hother
  obtain ⟨d, hd, hclass'⟩ := hother
  have hsame : c = d := Option.some.inj (hclass.symm.trans hclass')
  exact hne c hc (hsame ▸ hd)

theorem validateCheckpoint_created (run : Run hashes) :
    validateCheckpoint hashes (createCheckpoint localeCompare run) none = [] := by
  have hstatus : run.status ≠ [] ∧ run.status.length ≤ 64 := by
    have hall : ∀ status ∈ runStatuses, status ≠ [] ∧ status.length ≤ 64 := by decide +kernel
    exact hall run.status run.status_mem
  have hset (statuses : List NodeStatus) : (sortedNodeKeys run.nodes statuses).length ≤
      maximumPlanSteps := by
    have hlength : (sortedNodeKeys run.nodes statuses).length ≤ run.nodes.length := by
      apply (length_sortedTexts_le _).trans
      apply (List.length_filter_le _ _).trans
      rw [List.length_map]
      exact List.length_filter_le _ _
    exact hlength.trans (run.nodes_le.trans (by decide))
  have hsets : (checkpointSnapshot localeCompare run).nodeSetIssues = [] := by
    have hfield (statuses : List NodeStatus) :
        ¬(maximumPlanSteps < (sortedNodeKeys run.nodes statuses).length) ∧
          (distinct (sortedNodeKeys run.nodes statuses)).length =
            (sortedNodeKeys run.nodes statuses).length ∧
          ∀ key ∈ sortedNodeKeys run.nodes statuses, isSafeNodeKey key = true := by
      refine ⟨Nat.not_lt.mpr (hset statuses), ?_, fun key => isSafe_of_mem_sortedNodeKeys⟩
      have hperm : (distinct (sortedNodeKeys run.nodes statuses)).Perm
          (sortedNodeKeys run.nodes statuses) :=
        (List.perm_ext_iff_of_nodup (nodup_distinct _) (nodup_sortedTexts _)).mpr
          fun _ => mem_distinct
      exact hperm.length_eq
    have hgood (statuses : List NodeStatus) :
        (decide (maximumPlanSteps < (sortedNodeKeys run.nodes statuses).length) ||
          decide ((distinct (sortedNodeKeys run.nodes statuses)).length ≠
            (sortedNodeKeys run.nodes statuses).length) ||
          (sortedNodeKeys run.nodes statuses).any (!isSafeNodeKey ·)) = false := by
      obtain ⟨hlength, hdistinct, hsafe⟩ := hfield statuses
      simp [hlength, hdistinct, List.any_eq_false]
      exact hsafe
    simp only [Snapshot.nodeSetIssues, checkpointSnapshot, List.filter_cons, hgood, List.filter_nil]
    rfl
  have hterminal : ((checkpointSnapshot localeCompare run).terminalFields.map Prod.snd) =
      sortedNodeKeys run.nodes [.compensated] ++ sortedNodeKeys run.nodes [.skipped] ++
        sortedNodeKeys run.nodes failedStatuses := by
    simp [Snapshot.terminalFields, checkpointSnapshot, List.map_map, Function.comp_def]
  have hconflicts : terminalConflicts [] (checkpointSnapshot localeCompare run).terminalFields =
      [] := by
    apply terminalConflicts_eq_nil
    · rw [hterminal]
      have hnodup (statuses : List NodeStatus) := nodup_sortedTexts
        (((run.nodes.filter fun node => node.status ∈ statuses).map NodeRun.nodeKey).filter
          isSafeNodeKey)
      apply List.Nodup.append (List.Nodup.append (hnodup _) (hnodup _) _) (hnodup _)
      · intro key hkey hfailed
        rcases List.mem_append.mp hkey with hkey | hkey
        · exact disjoint_keys covers_compensated covers_failed (by decide) hkey hfailed
        · exact disjoint_keys covers_skipped covers_failed (by decide) hkey hfailed
      · intro key hkey hskipped
        exact disjoint_keys covers_compensated covers_skipped (by decide) hkey hskipped
    · intro key _ hmem
      cases hmem
  have hactive : (checkpointSnapshot localeCompare run).activeConflicts = [] := by
    rw [Snapshot.activeConflicts, List.map_eq_nil_iff, List.filter_eq_nil_iff]
    intro key hkey
    rw [hterminal]
    have hcompleted := disjoint_keys covers_active covers_completed (by decide) hkey
    have hcompensated := disjoint_keys covers_active covers_compensated (by decide) hkey
    have hskipped := disjoint_keys covers_active covers_skipped (by decide) hkey
    have hfailed := disjoint_keys covers_active covers_failed (by decide) hkey
    simp [hcompensated, hskipped, hfailed]
    exact hcompleted
  have hhashes : (checkpointSnapshot localeCompare run).hashIssues = [] := by
    have hpolicy : ((checkpointSnapshot localeCompare run).recoveryPolicySnapshotHash).any
        (!isSafeHash ·) = false := by
      rw [recoveryPolicySnapshotHash_eq]
      cases run.recoveryPolicySnapshot with
      | none => rfl
      | some policy => simp [hashes.policy_safe]
    rw [Snapshot.hashIssues, List.map_eq_nil_iff, List.filter_eq_nil_iff]
    simp [checkpointSnapshot, snapshotHashOrValue, hashes.definition_safe, hashes.selection_safe,
      hashes.contract_safe] at hpolicy ⊢
    exact hpolicy
  have hstate := ne_nil_of_isSafeHash
    (hashes.checkpoint_safe (checkpointSnapshot localeCompare run))
  have hdefinition := ne_nil_of_isSafeHash (hashes.definition_safe run.definitionSnapshot)
  have hrun : (checkpointSnapshot localeCompare run).orchestrationRunId = run.id ∧
      (checkpointSnapshot localeCompare run).runStatus = run.status ∧
      (checkpointSnapshot localeCompare run).definitionSnapshotHash =
        some (hashes.checkpointDefinition run.definitionSnapshot) := ⟨rfl, rfl, rfl⟩
  rw [validateCheckpoint]
  simp only [createCheckpoint, hsets, hconflicts, hactive, hhashes, checkpointHash_snapshot, hrun]
  simp [issueWhen, run.id_safe, hstatus, hstate, hdefinition]

/-- What a checkpoint of a run still tells of it later. -/
structure Unchanged (run later : Run hashes) : Prop where
  status : later.status = run.status
  classes : ∀ key, later.classOf key = run.classOf key
  definition : later.definitionSnapshot = run.definitionSnapshot
  selection : checkpointSelectionMaterial localeCompare hashes later.nodes =
    checkpointSelectionMaterial localeCompare hashes run.nodes
  contract : checkpointContractMaterial localeCompare later =
    checkpointContractMaterial localeCompare run
  policy : later.recoveryPolicySnapshot = run.recoveryPolicySnapshot

structure ToldApart (run later : Run hashes) : Prop where
  definition : Set.InjOn hashes.checkpointDefinition
    {run.definitionSnapshot, later.definitionSnapshot}
  selection : Set.InjOn hashes.checkpointSelection
    {checkpointSelectionMaterial localeCompare hashes run.nodes,
      checkpointSelectionMaterial localeCompare hashes later.nodes}
  contract : Set.InjOn hashes.checkpointContract
    {checkpointContractMaterial localeCompare run, checkpointContractMaterial localeCompare later}
  policy : Set.InjOn hashes.orchestrationRecoveryPolicySnapshot
    {policy | policy ∈ run.recoveryPolicySnapshot ∨ policy ∈ later.recoveryPolicySnapshot}
  checkpoint : Set.InjOn hashes.orchestrationCheckpoint
    {checkpointSnapshot localeCompare run, checkpointSnapshot localeCompare later}

variable {localeCompare}

theorem checkpointSnapshot_eq_iff (hid : later.id = run.id)
    (h : ToldApart localeCompare run later) :
    checkpointSnapshot localeCompare later = checkpointSnapshot localeCompare run ↔
      Unchanged localeCompare run later := by
  have hpair {α : Type} {a b : α} : b ∈ ({a, b} : Set α) := Set.mem_insert_of_mem _ rfl
  have hpolicies := fun (run : Run hashes) => recoveryPolicySnapshotHash_eq localeCompare run
  constructor
  · intro hsame
    have hfields := Snapshot.ext_iff.mp hsame
    rw [hpolicies, hpolicies] at hfields
    obtain ⟨_, hstatus, hcompleted, hactive, hcompensated, hskipped, hfailed, hdefinition,
      hselection, hcontract, hpolicy⟩ := hfields
    exact {
      status := hstatus
      classes := sortedNodeKeys_agree_iff.mp
        ⟨hcompleted, hactive, hcompensated, hskipped, hfailed⟩
      definition := h.definition hpair (Set.mem_insert _ _) (Option.some.inj hdefinition)
      selection := h.selection hpair (Set.mem_insert _ _) (Option.some.inj hselection)
      contract := h.contract hpair (Set.mem_insert _ _) (Option.some.inj hcontract)
      policy := by
        cases hlater : later.recoveryPolicySnapshot with
        | none => cases hrun : run.recoveryPolicySnapshot with
          | none => rfl
          | some policy => simp [hlater, hrun] at hpolicy
        | some policy => cases hrun : run.recoveryPolicySnapshot with
          | none => simp [hlater, hrun] at hpolicy
          | some other =>
            rw [hlater, hrun] at hpolicy
            rw [h.policy (Or.inr hlater) (Or.inl hrun) (Option.some.inj hpolicy)] }
  · intro hsame
    obtain ⟨hcompleted, hactive, hcompensated, hskipped, hfailed⟩ :=
      sortedNodeKeys_agree_iff.mpr hsame.classes
    apply Snapshot.ext
    all_goals try simp only [hpolicies, hsame.policy]
    all_goals simp only [checkpointSnapshot, hid, hsame.status, hsame.definition, hsame.selection,
      hsame.contract, hcompleted, hactive, hcompensated, hskipped, hfailed]

/-- A checkpoint of a run is valid, and valid for the run later if nothing that it keeps has
changed. -/
theorem checkpoint_law (hid : later.id = run.id) (h : ToldApart localeCompare run later) :
    validateCheckpoint hashes (createCheckpoint localeCompare run) none = [] ∧
      (validateCheckpoint hashes (createCheckpoint localeCompare run)
        (some (checkpointSnapshot localeCompare later)) = [] ↔
          Unchanged localeCompare run later) := by
  have hcreated := validateCheckpoint_created localeCompare run
  refine ⟨hcreated, ?_⟩
  rw [← checkpointSnapshot_eq_iff hid h]
  rw [validateCheckpoint] at hcreated ⊢
  simp only [Option.any_none, issueWhen, Bool.false_eq_true, if_false, List.append_nil] at hcreated
  simp only [issueWhen] at hcreated ⊢
  rw [hcreated, List.nil_append]
  simp only [Option.any_some, decide_eq_true_eq, ite_eq_right_iff, List.cons_ne_nil, imp_false,
    not_not, createCheckpoint, checkpointHash_snapshot]
  constructor
  · intro hhash
    exact h.checkpoint (Set.mem_insert_of_mem _ rfl) (Set.mem_insert _ _) hhash
  · intro hsame
    rw [hsame]

def hashOf (digit : UInt16) : Text := ascii "sha256:" ++ List.replicate 64 digit

theorem hashOf_safe : isSafeHash (hashOf 0x30) = true ∧ isSafeHash (hashOf 0x31) = true := by
  decide +kernel

def successHashes : Hashes Unit where
  checkpointDefinition _ := hashOf 0x30
  checkpointRecoveryTarget _ := hashOf 0x30
  checkpointGrantReference _ := hashOf 0x30
  checkpointSelection _ := hashOf 0x30
  checkpointContract _ := hashOf 0x30
  checkpointRecoveryPolicy _ := hashOf 0x30
  orchestrationCheckpoint snapshot :=
    if snapshot.completedNodeKeys.isEmpty then hashOf 0x30 else hashOf 0x31
  orchestrationRecoveryPolicySnapshot _ := hashOf 0x30
  definition_safe _ := hashOf_safe.1
  selection_safe _ := hashOf_safe.1
  contract_safe _ := hashOf_safe.1
  checkpoint_safe snapshot := by
    split
    · exact hashOf_safe.1
    · exact hashOf_safe.2
  policy_safe _ := hashOf_safe.1

def runOf (status : NodeStatus) : Run successHashes where
  id := List.replicate 24 0x61
  id_safe := by decide
  status := ascii "running"
  status_mem := by decide
  nodes := [{
    nodeKey := ascii "a"
    status := status
    connectionId := ascii "c"
    passportId := ascii "p"
    passportVersion := some 1
    selectionDecisionId := none
    replacementSelectionDecisionId := none
    recoveryTargetSnapshot := none
    delegationGrantId := none }]
  keys_safe := by
    intro node hnode
    rw [List.mem_singleton.mp hnode]
    rfl
  keys_nodup := List.nodup_singleton _
  nodes_le := by
    change 1 ≤ maximumNodes
    decide
  definitionSnapshot := ⟨[], ()⟩
  recoveryPolicySnapshot := none
  recoveryPolicySnapshotHash := none
  policy_hashed := rfl

theorem checkpoint_law_success :
    validateCheckpoint successHashes (createCheckpoint compare (runOf .running)) none = [] ∧
      (validateCheckpoint successHashes (createCheckpoint compare (runOf .running))
        (some (checkpointSnapshot compare (runOf .succeeded))) = [] ↔
          Unchanged compare (runOf .running) (runOf .succeeded)) := by
  have hid : (runOf .succeeded).id = (runOf .running).id := rfl
  apply checkpoint_law hid
  have hsame {α β : Type} {f : α → β} {a : α} : Set.InjOn f {a, a} := by simp
  refine ⟨hsame, hsame, hsame, ?_, ?_⟩
  · intro policy hpolicy
    rcases hpolicy with hpolicy | hpolicy
    · cases hpolicy
    · cases hpolicy
  · rw [Set.injOn_pair]
    have hne : successHashes.orchestrationCheckpoint (checkpointSnapshot compare (runOf .running)) ≠
        successHashes.orchestrationCheckpoint (checkpointSnapshot compare (runOf .succeeded)) := by
      decide +kernel
    intro hhash
    exact absurd hhash hne

end GhostBridge.Orchestration.Checkpoints
