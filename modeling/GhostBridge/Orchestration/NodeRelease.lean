import GhostBridge.Ecma.Outcome
import Mathlib.Data.Fintype.Card
import Mathlib.Data.List.Induction
import Mathlib.Data.List.Nodup
import Mathlib.Data.Set.Finite.List
import Mathlib.Logic.Function.Basic
import Mathlib.Logic.Relation

/-!
# Release of blocked nodes

`reconcileRun` repeats a pass over the blocked nodes of a run until nothing changes.
-/

namespace GhostBridge.Orchestration

open Ecma

/-- `ORCHESTRATION_NODE_STATUSES`. -/
inductive NodeStatus where
  | blocked
  | ready
  | queued
  | running
  | retryWait
  | waitingApproval
  | waitingIntervention
  | recoveryPending
  | recovering
  | succeeded
  | failed
  | cancelled
  | skipped
  | cancelRequested
  | compensationPending
  | compensating
  | compensated
  | compensationFailed
  | nonReversible
  | terminated
deriving DecidableEq

namespace NodeStatus

/-- `TERMINAL_NODE_STATUSES`. -/
def isTerminal : NodeStatus → Bool
  | succeeded | failed | cancelled | skipped | compensated | compensationFailed | nonReversible
  | terminated => true
  | _ => false

/-- `NODE_TRANSITIONS`. -/
def transitions : NodeStatus → List NodeStatus
  | blocked => [ready, retryWait, waitingIntervention, cancelRequested, cancelled, skipped, terminated]
  | ready => [blocked, queued, running, waitingIntervention, cancelRequested, cancelled, skipped,
      terminated]
  | queued => [running, waitingIntervention, cancelRequested, cancelled, skipped, terminated]
  | running => [ready, retryWait, waitingApproval, waitingIntervention, recoveryPending, succeeded,
      failed, cancelRequested, cancelled, terminated]
  | retryWait => [blocked, ready, running, waitingIntervention, cancelRequested, cancelled, skipped,
      terminated]
  | waitingApproval => [blocked, ready, failed, waitingIntervention, cancelRequested, cancelled,
      terminated]
  | waitingIntervention => [recoveryPending, compensationPending, retryWait, skipped, failed,
      cancelRequested, cancelled, terminated]
  | recoveryPending => [recovering, retryWait, waitingIntervention, compensationPending, failed,
      terminated]
  | recovering => [ready, retryWait, waitingIntervention, compensationPending, succeeded, failed,
      terminated]
  | succeeded => [compensationPending, nonReversible, terminated]
  | failed => [recoveryPending, waitingIntervention, compensationPending, retryWait, skipped,
      terminated]
  | cancelRequested => [cancelled, compensationPending, terminated]
  | compensationPending => [compensating, waitingIntervention, compensated, compensationFailed,
      terminated]
  | compensating => [compensationPending, waitingIntervention, compensated, compensationFailed,
      terminated]
  | compensationFailed => [waitingIntervention, compensationPending, terminated]
  | nonReversible => [waitingIntervention, terminated]
  | cancelled | skipped | compensated | terminated => []

end NodeStatus

variable {κ ρ : Type} [DecidableEq κ]

/-- A node of a run, with what the release reads of it. Within a run the key tells nodes apart. -/
structure NodeRun (κ : Type) where
  nodeKey : κ
  status : NodeStatus
  operationallyBlocked : Bool
  dependencyNodeKeys : List κ

namespace NodeRun

/-- `status === 'blocked' && operationallyBlocked !== true`. -/
def waits (node : NodeRun κ) : Bool := node.status == .blocked && !node.operationallyBlocked

end NodeRun

/-- Why a transition is refused: the authority over the region or the fence of the partition says
so, the transition is none, or the stored node has another status by now. -/
inductive TransitionError (ρ : Type) where
  | refused (reason : ρ)
  | invalid (fromState toState : NodeStatus)
  | changedBefore (fromState toState : NodeStatus)

def assertNodeTransition (fromState toState : NodeStatus) : Except (TransitionError ρ) Unit :=
  throwWhen (!fromState.transitions.contains toState) (.invalid fromState toState)

def setStatus (stored : List (NodeRun κ)) (key : κ) (toState : NodeStatus) : List (NodeRun κ) :=
  stored.map fun node => if node.nodeKey = key then { node with status := toState } else node

def findOneAndUpdate (stored : List (NodeRun κ)) (key : κ) (fromState toState : NodeStatus) :
    Option (List (NodeRun κ) × NodeRun κ) :=
  (stored.find? fun node => decide (node.nodeKey = key ∧ node.status = fromState)).map fun found =>
    (setStatus stored key toState, { found with status := toState })

/-- The stored nodes and the updated one; `refusal` is what the authority and the fence answer. -/
def transitionNode (refusal : κ → Option ρ) (stored : List (NodeRun κ)) (node : NodeRun κ)
    (toState : NodeStatus) : Except (TransitionError ρ) (List (NodeRun κ) × NodeRun κ) :=
  match refusal node.nodeKey with
  | some reason => throw (.refused reason)
  | none => do
    assertNodeTransition node.status toState
    orThrow (.changedBefore node.status toState)
      (findOneAndUpdate stored node.nodeKey node.status toState)

/-- `new Map(nodes.map((node) => [node.nodeKey, node]))`. -/
def mapOf (nodes : List (NodeRun κ)) : κ → Option (NodeRun κ) :=
  nodes.foldl (fun map node => Function.update map node.nodeKey (some node)) fun _ => none

def releaseEach (refusal : κ → Option ρ) :
    List (NodeRun κ) → (κ → Option (NodeRun κ)) → List (NodeRun κ) →
      Except (TransitionError ρ) (ℕ × List (NodeRun κ))
  | [], _, stored => .ok (0, stored)
  | node :: rest, byKey, stored =>
    let dependencyRuns := node.dependencyNodeKeys.filterMap byKey
    if dependencyRuns.length ≠ node.dependencyNodeKeys.length then
      releaseEach refusal rest byKey stored
    else if !dependencyRuns.all (·.status.isTerminal) then releaseEach refusal rest byKey stored
    else do
      let target := if dependencyRuns.all (·.status == .succeeded) then .ready else .skipped
      let (stored, updated) ← transitionNode refusal stored node target
      let byKey := Function.update byKey node.nodeKey (some updated)
      let (changed, stored) ← releaseEach refusal rest byKey stored
      return (changed + 1, stored)

structure VisitOrder (κ : Type) where
  visit : ℕ → List (NodeRun κ) → List (NodeRun κ)
  perm : ∀ pass nodes, (visit pass nodes).Perm nodes

def releaseBlockedNodes (order : VisitOrder κ) (refusal : κ → Option ρ) (pass : ℕ)
    (nodes : List (NodeRun κ)) : Except (TransitionError ρ) (ℕ × List (NodeRun κ)) :=
  releaseEach refusal (order.visit pass (nodes.filter NodeRun.waits)) (mapOf nodes) nodes

/-- The `do ... while (changed)` of `reconcileRun`, from a pass on; none when more passes are needed
than given. The nodes are read again after a change. -/
def releaseLoop (order : VisitOrder κ) (refusal : κ → Option ρ) :
    ℕ → ℕ → List (NodeRun κ) → Option (Except (TransitionError ρ) (List (NodeRun κ)))
  | 0, _, _ => none
  | passes + 1, pass, nodes =>
    match releaseBlockedNodes order refusal pass nodes with
    | .error reason => some (.error reason)
    | .ok (changed, stored) =>
      if changed = 0 then some (.ok nodes) else releaseLoop order refusal passes (pass + 1) stored

def DependsOn (nodes : List (NodeRun κ)) (key dependency : κ) : Prop :=
  ∃ node ∈ nodes, node.nodeKey = key ∧ dependency ∈ node.dependencyNodeKeys

/-- The nodes of a run: their keys differ, and their dependencies form an acyclic graph on them. -/
structure AcyclicRun (κ : Type) where
  nodes : List (NodeRun κ)
  nodup : (nodes.map NodeRun.nodeKey).Nodup
  closed : ∀ node ∈ nodes, ∀ key ∈ node.dependencyNodeKeys, key ∈ nodes.map NodeRun.nodeKey
  acyclic : ∀ key, ¬Relation.TransGen (DependsOn nodes) key key

end GhostBridge.Orchestration

/-!
## Where the release of nodes ends

Only statuses change, and a node is released on dependencies that have ended, so what released it
stays true. Each pass that changes something leaves fewer nodes to wait; an acyclic graph has one
state that is reached so and releases nothing more.
-/

namespace GhostBridge.Orchestration

open Ecma

variable {κ ρ : Type}

def assign (nodes : List (NodeRun κ)) (status : κ → NodeStatus) : List (NodeRun κ) :=
  nodes.map fun node => { node with status := status node.nodeKey }

def Releasable (status : κ → NodeStatus) (node : NodeRun κ) : Prop :=
  ∀ key ∈ node.dependencyNodeKeys, (status key).isTerminal = true

def targetOf (status : κ → NodeStatus) (node : NodeRun κ) : NodeStatus :=
  if node.dependencyNodeKeys.all fun key => status key == .succeeded then .ready else .skipped

theorem releasable_congr {status other : κ → NodeStatus} {node : NodeRun κ}
    (h : ∀ key ∈ node.dependencyNodeKeys, status key = other key) :
    Releasable status node ↔ Releasable other node := by
  apply forall₂_congr
  intro key hkey
  rw [h key hkey]

theorem targetOf_congr {status other : κ → NodeStatus} {node : NodeRun κ}
    (h : ∀ key ∈ node.dependencyNodeKeys, status key = other key) :
    targetOf status node = targetOf other node := by
  have hall : (node.dependencyNodeKeys.all fun key => status key == .succeeded) =
      node.dependencyNodeKeys.all fun key => other key == .succeeded := by
    rw [Bool.eq_iff_iff, List.all_eq_true, List.all_eq_true]
    apply forall₂_congr
    intro key hkey
    rw [h key hkey]
  rw [targetOf, targetOf, hall]

theorem targetOf_ne_blocked (status : κ → NodeStatus) (node : NodeRun κ) :
    targetOf status node ≠ .blocked := by
  rw [targetOf]
  split <;> decide

theorem waits_iff {node : NodeRun κ} :
    node.waits = true ↔ node.status = .blocked ∧ node.operationallyBlocked = false := by
  simp [NodeRun.waits]

def stillWaits (status : κ → NodeStatus) (node : NodeRun κ) : Bool :=
  node.waits && status node.nodeKey == .blocked

namespace AcyclicRun

variable (run : AcyclicRun κ)

variable {run} in
theorem eq_of_key {node other : NodeRun κ} (hnode : node ∈ run.nodes) (hother : other ∈ run.nodes)
    (h : node.nodeKey = other.nodeKey) : node = other :=
  List.inj_on_of_nodup_map run.nodup hnode hother h

def waiting (status : κ → NodeStatus) : ℕ := run.nodes.countP (stillWaits status)

/-- A node has its first status, or it waited and its dependencies released it. -/
def Reached (status : κ → NodeStatus) : Prop :=
  ∀ node ∈ run.nodes, status node.nodeKey = node.status ∨
    node.waits = true ∧ Releasable status node ∧ status node.nodeKey = targetOf status node

def Settled (status : κ → NodeStatus) : Prop :=
  ∀ node ∈ run.nodes, node.waits = true → status node.nodeKey = .blocked → ¬Releasable status node

def Tracks (byKey : κ → Option (NodeRun κ)) (status : κ → NodeStatus) : Prop :=
  ∀ node ∈ run.nodes, byKey node.nodeKey = some { node with status := status node.nodeKey }

variable {run} {status : κ → NodeStatus} {byKey : κ → Option (NodeRun κ)}

theorem Tracks.filterMap (h : run.Tracks byKey status) {keys : List κ}
    (hkeys : ∀ key ∈ keys, key ∈ run.nodes.map NodeRun.nodeKey) :
    (keys.filterMap byKey).length = keys.length ∧
      ∀ p : NodeStatus → Bool,
        ((keys.filterMap byKey).all fun node => p node.status) = keys.all fun key => p (status key) := by
  induction keys with
  | nil => exact ⟨rfl, fun _ => rfl⟩
  | cons key keys ih =>
    rw [List.forall_mem_cons] at hkeys
    obtain ⟨node, hnode, rfl⟩ := List.mem_map.mp hkeys.1
    obtain ⟨hlength, hall⟩ := ih hkeys.2
    rw [List.filterMap_cons_some (h node hnode)]
    refine ⟨congrArg (· + 1) hlength, ?_⟩
    intro p
    rw [List.all_cons, List.all_cons, hall]

theorem Reached.mem_waiting (h : run.Reached status) {node : NodeRun κ} :
    node ∈ (assign run.nodes status).filter NodeRun.waits ↔
      node ∈ run.nodes ∧ node.waits = true ∧ status node.nodeKey = .blocked := by
  rw [List.mem_filter, assign, List.mem_map]
  constructor
  · intro hmem
    obtain ⟨⟨first, hfirst, rfl⟩, hwaits⟩ := hmem
    obtain ⟨hblocked, hoperational⟩ := waits_iff.mp hwaits
    have hblocked : status first.nodeKey = .blocked := hblocked
    rcases h first hfirst with hsame | ⟨_, _, htarget⟩
    · have heq : { first with status := status first.nodeKey } = first := by rw [hsame]
      rw [heq]
      exact ⟨hfirst, waits_iff.mpr ⟨hsame ▸ hblocked, hoperational⟩, hblocked⟩
    · exact absurd (htarget.symm.trans hblocked) (targetOf_ne_blocked status first)
  · intro hnode
    obtain ⟨hmem, hwaits, hblocked⟩ := hnode
    refine ⟨⟨node, hmem, ?_⟩, hwaits⟩
    rw [hblocked, ← (waits_iff.mp hwaits).1]

section Releases

variable [DecidableEq κ]

theorem setStatus_assign (nodes : List (NodeRun κ)) (status : κ → NodeStatus) (key : κ)
    (toState : NodeStatus) :
    setStatus (assign nodes status) key toState =
      assign nodes (Function.update status key toState) := by
  rw [setStatus, assign, assign, List.map_map]
  apply List.map_congr_left
  intro node _
  by_cases h : node.nodeKey = key
  · simp [h]
  · simp [h]

theorem mapOf_append (nodes : List (NodeRun κ)) (node : NodeRun κ) :
    mapOf (nodes ++ [node]) = Function.update (mapOf nodes) node.nodeKey (some node) := by
  rw [mapOf, mapOf, List.foldl_append]
  rfl

theorem mapOf_eq {nodes : List (NodeRun κ)} (hnodup : (nodes.map NodeRun.nodeKey).Nodup)
    {node : NodeRun κ} (hnode : node ∈ nodes) : mapOf nodes node.nodeKey = some node := by
  induction nodes using List.reverseRecOn with
  | nil => cases hnode
  | append_singleton nodes last ih =>
    rw [List.map_append, List.nodup_append] at hnodup
    obtain ⟨hnodes, _, hdisjoint⟩ := hnodup
    rw [mapOf_append]
    rcases List.mem_append.mp hnode with hnode | hnode
    · have hne : node.nodeKey ≠ last.nodeKey :=
        hdisjoint _ (List.mem_map_of_mem hnode) _ (by simp)
      rw [Function.update_of_ne hne]
      exact ih hnodes hnode
    · rw [List.mem_singleton.mp hnode, Function.update_self]

theorem tracks_mapOf : run.Tracks (mapOf (assign run.nodes status)) status := by
  intro node hnode
  have hnodup : ((assign run.nodes status).map NodeRun.nodeKey).Nodup := by
    rw [assign, List.map_map]
    exact run.nodup
  exact mapOf_eq hnodup (List.mem_map_of_mem hnode)

theorem Tracks.update (h : run.Tracks byKey status) {node : NodeRun κ} (hnode : node ∈ run.nodes)
    (target : NodeStatus) :
    run.Tracks (Function.update byKey node.nodeKey (some { node with status := target }))
      (Function.update status node.nodeKey target) := by
  intro other hother
  by_cases hkey : other.nodeKey = node.nodeKey
  · rw [eq_of_key hother hnode hkey, Function.update_self, Function.update_self]
  · rw [Function.update_of_ne hkey, Function.update_of_ne hkey]
    exact h other hother

theorem Reached.update (h : run.Reached status) {node : NodeRun κ} (hnode : node ∈ run.nodes)
    (hwaits : node.waits = true) (hblocked : status node.nodeKey = .blocked)
    (hreleasable : Releasable status node) :
    run.Reached (Function.update status node.nodeKey (targetOf status node)) := by
  -- what has ended is not the node that waits
  have hsame {other : NodeRun κ} (h : Releasable status other) :
      ∀ key ∈ other.dependencyNodeKeys,
        status key = Function.update status node.nodeKey (targetOf status node) key := by
    intro key hkey
    rw [Function.update_of_ne]
    intro heq
    have hterminal := h key hkey
    rw [heq, hblocked] at hterminal
    cases hterminal
  intro other hmem
  by_cases hkey : other.nodeKey = node.nodeKey
  · obtain rfl := eq_of_key hmem hnode hkey
    rw [Function.update_self]
    exact Or.inr ⟨hwaits, (releasable_congr (hsame hreleasable)).mp hreleasable,
      targetOf_congr (hsame hreleasable)⟩
  · rw [Function.update_of_ne hkey]
    rcases h other hmem with hfirst | ⟨hwaits', hreleasable', htarget⟩
    · exact Or.inl hfirst
    · exact Or.inr ⟨hwaits', (releasable_congr (hsame hreleasable')).mp hreleasable',
        htarget.trans (targetOf_congr (hsame hreleasable'))⟩

theorem waiting_update {node : NodeRun κ} (hnode : node ∈ run.nodes) (hwaits : node.waits = true)
    (hblocked : status node.nodeKey = .blocked) {target : NodeStatus} (htarget : target ≠ .blocked) :
    run.waiting (Function.update status node.nodeKey target) + 1 = run.waiting status := by
  obtain ⟨before, behind, hsplit⟩ := List.append_of_mem hnode
  have hnodup := run.nodup
  rw [hsplit, List.map_append, List.map_cons, List.nodup_append, List.nodup_cons] at hnodup
  obtain ⟨_, ⟨hbehind, _⟩, hbefore⟩ := hnodup
  have hcount (nodes : List (NodeRun κ)) (hne : ∀ other ∈ nodes, other.nodeKey ≠ node.nodeKey) :
      nodes.countP (stillWaits (Function.update status node.nodeKey target)) =
        nodes.countP (stillWaits status) := by
    apply List.countP_congr
    intro other hother
    rw [stillWaits, stillWaits, Function.update_of_ne (hne other hother)]
  have hnow : stillWaits status node = true := by
    rw [stillWaits, hwaits, hblocked]
    rfl
  have hthen : ¬stillWaits (Function.update status node.nodeKey target) node = true := by
    rw [stillWaits, hwaits, Function.update_self, Bool.true_and, beq_iff_eq]
    exact htarget
  rw [waiting, waiting, hsplit, List.countP_append, List.countP_append, List.countP_cons_of_neg hthen,
    List.countP_cons_of_pos hnow, hcount before, hcount behind]
  · omega
  · intro other hother heq
    exact hbehind (List.mem_map.mpr ⟨other, hother, heq⟩)
  · intro other hother
    exact hbefore _ (List.mem_map_of_mem hother) _ List.mem_cons_self

theorem transitionNode_ok {refusal : κ → Option ρ} {node : NodeRun κ} (hnode : node ∈ run.nodes)
    (hblocked : status node.nodeKey = node.status) {target : NodeStatus}
    {stored : List (NodeRun κ)} {updated : NodeRun κ}
    (h : transitionNode refusal (assign run.nodes status) node target = .ok (stored, updated)) :
    stored = assign run.nodes (Function.update status node.nodeKey target) ∧
      updated = { node with status := target } := by
  rw [transitionNode] at h
  cases hrefusal : refusal node.nodeKey with
  | some reason =>
    rw [hrefusal] at h
    cases h
  | none =>
    simp only [hrefusal, bind_ok, exists_unit, orThrow_ok, findOneAndUpdate,
      Option.map_eq_some_iff, Prod.mk.injEq] at h
    obtain ⟨_, found, hfound, rfl, rfl⟩ := h
    have htest := List.find?_some hfound
    rw [decide_eq_true_eq] at htest
    obtain ⟨other, hother, rfl⟩ := List.mem_map.mp (List.mem_of_find?_eq_some hfound)
    obtain rfl := eq_of_key hother hnode htest.1
    exact ⟨setStatus_assign _ _ _ _, rfl⟩

theorem releaseEach_ok {refusal : κ → Option ρ} {todo : List (NodeRun κ)} {changed : ℕ}
    {final : List (NodeRun κ)}
    (h : releaseEach refusal todo byKey (assign run.nodes status) = .ok (changed, final))
    (hreached : run.Reached status) (htracks : run.Tracks byKey status)
    (htodo : ∀ node ∈ todo, node ∈ run.nodes ∧ node.waits = true ∧
      status node.nodeKey = .blocked)
    (hnodup : (todo.map NodeRun.nodeKey).Nodup) :
    ∃ later, final = assign run.nodes later ∧ run.Reached later ∧
      run.waiting later + changed = run.waiting status ∧
      (changed = 0 → later = status ∧ ∀ node ∈ todo, ¬Releasable status node) := by
  induction todo generalizing byKey status changed with
  | nil =>
    cases h
    exact ⟨status, rfl, hreached, rfl, fun _ => ⟨rfl, by simp⟩⟩
  | cons node rest ih =>
    rw [List.forall_mem_cons] at htodo
    rw [List.map_cons, List.nodup_cons] at hnodup
    obtain ⟨⟨hnode, hwaits, hblocked⟩, hrest⟩ := htodo
    obtain ⟨hlength, hall⟩ := htracks.filterMap (run.closed node hnode)
    have hterminal := hall NodeStatus.isTerminal
    have hsucceeded := hall (· == .succeeded)
    rw [releaseEach] at h
    simp only [hlength, ne_eq, not_true_eq_false, if_false, hterminal, hsucceeded] at h
    by_cases hreleasable : Releasable status node
    · have hallTerminal : (node.dependencyNodeKeys.all fun key => (status key).isTerminal) = true :=
        List.all_eq_true.mpr hreleasable
      simp only [hallTerminal, Bool.not_true, Bool.false_eq_true, if_false, bind_ok, pure_ok,
        Prod.exists, Prod.mk.injEq] at h
      obtain ⟨stored, updated, htransition, count, behind, hpass, rfl, rfl⟩ := h
      have hstatus : status node.nodeKey = node.status := by
        rw [hblocked, (waits_iff.mp hwaits).1]
      obtain ⟨rfl, rfl⟩ := transitionNode_ok hnode hstatus htransition
      have hkeep : ∀ other ∈ rest, other ∈ run.nodes ∧ other.waits = true ∧
          Function.update status node.nodeKey (targetOf status node) other.nodeKey = .blocked := by
        intro other hother
        obtain ⟨hmem, hwaits', hblocked'⟩ := hrest other hother
        refine ⟨hmem, hwaits', ?_⟩
        rw [Function.update_of_ne, hblocked']
        intro heq
        exact hnodup.1 (heq ▸ List.mem_map_of_mem hother)
      obtain ⟨later, rfl, hlater, hcount, _⟩ :=
        ih hpass (hreached.update hnode hwaits hblocked hreleasable)
          (htracks.update hnode _) hkeep hnodup.2
      have hone := waiting_update hnode hwaits hblocked (targetOf_ne_blocked status node)
      rw [targetOf] at hone
      exact ⟨later, rfl, hlater, by omega, by omega⟩
    · have hnotTerminal : (node.dependencyNodeKeys.all fun key => (status key).isTerminal) = false := by
        rw [Bool.eq_false_iff]
        intro hallTerminal
        exact hreleasable (List.all_eq_true.mp hallTerminal)
      simp only [hnotTerminal, Bool.not_false, if_true] at h
      obtain ⟨later, hfinal, hlater, hcount, hzero⟩ := ih h hreached htracks hrest hnodup.2
      refine ⟨later, hfinal, hlater, hcount, ?_⟩
      intro hchanged
      obtain ⟨hsame, hnone⟩ := hzero hchanged
      exact ⟨hsame, List.forall_mem_cons.mpr ⟨hreleasable, hnone⟩⟩

theorem releaseBlockedNodes_ok {order : VisitOrder κ} {refusal : κ → Option ρ} {pass changed : ℕ}
    {final : List (NodeRun κ)} (hreached : run.Reached status)
    (h : releaseBlockedNodes order refusal pass (assign run.nodes status) = .ok (changed, final)) :
    ∃ later, final = assign run.nodes later ∧ run.Reached later ∧
      run.waiting later + changed = run.waiting status ∧
      (changed = 0 → run.Settled status) := by
  have hperm := order.perm pass ((assign run.nodes status).filter NodeRun.waits)
  have hnodup : ((order.visit pass ((assign run.nodes status).filter NodeRun.waits)).map
      NodeRun.nodeKey).Nodup := by
    rw [(hperm.map NodeRun.nodeKey).nodup_iff]
    have hsub := (List.filter_sublist (p := NodeRun.waits) (l := assign run.nodes status)).map
      NodeRun.nodeKey
    apply hsub.nodup
    rw [assign, List.map_map]
    exact run.nodup
  obtain ⟨later, hfinal, hlater, hcount, hzero⟩ := releaseEach_ok h hreached tracks_mapOf
    (fun node hnode => hreached.mem_waiting.mp (hperm.mem_iff.mp hnode)) hnodup
  refine ⟨later, hfinal, hlater, hcount, ?_⟩
  intro hchanged node hnode hwaits hblocked
  exact (hzero hchanged).2 node
    (hperm.mem_iff.mpr (hreached.mem_waiting.mpr ⟨hnode, hwaits, hblocked⟩))

theorem releaseLoop_ends (order : VisitOrder κ) (refusal : κ → Option ρ) {passes : ℕ}
    (pass : ℕ) (hreached : run.Reached status) (hpasses : run.waiting status < passes) :
    ∃ result, releaseLoop order refusal passes pass (assign run.nodes status) = some result ∧
      ∀ final, result = .ok final →
        ∃ later, final = assign run.nodes later ∧ run.Reached later ∧ run.Settled later := by
  induction passes generalizing pass status with
  | zero => omega
  | succ passes ih =>
    rw [releaseLoop]
    cases hpass : releaseBlockedNodes order refusal pass (assign run.nodes status) with
    | error reason => exact ⟨_, rfl, nofun⟩
    | ok result =>
      obtain ⟨changed, stored⟩ := result
      obtain ⟨later, rfl, hlater, hcount, hzero⟩ := releaseBlockedNodes_ok hreached hpass
      by_cases hchanged : changed = 0
      · refine ⟨.ok (assign run.nodes status), if_pos hchanged, ?_⟩
        intro final hfinal
        exact ⟨status, (Except.ok.inj hfinal).symm, hreached, hzero hchanged⟩
      · obtain ⟨result, hresult, hspec⟩ := ih (pass + 1) hlater (by omega)
        exact ⟨result, (if_neg hchanged).trans hresult, hspec⟩

end Releases

theorem induction {p : NodeRun κ → Prop}
    (h : ∀ node ∈ run.nodes,
      (∀ other ∈ run.nodes, other.nodeKey ∈ node.dependencyNodeKeys → p other) → p node) :
    ∀ node ∈ run.nodes, p node := by
  let before (a b : { key // key ∈ run.nodes.map NodeRun.nodeKey }) : Prop :=
    Relation.TransGen (DependsOn run.nodes) b.1 a.1
  have hfinite : Finite { key // key ∈ run.nodes.map NodeRun.nodeKey } :=
    (List.finite_toSet (run.nodes.map NodeRun.nodeKey)).to_subtype
  have htrans : IsTrans _ before := ⟨fun _ _ _ hab hbc => hbc.trans hab⟩
  have hirrefl : Std.Irrefl before := ⟨fun a => run.acyclic a.1⟩
  have hfounded : WellFounded before := Finite.wellFounded_of_trans_of_irrefl before
  have hkey (key : { key // key ∈ run.nodes.map NodeRun.nodeKey }) :
      ∀ node ∈ run.nodes, node.nodeKey = key.1 → p node := by
    induction key using hfounded.induction with
    | _ key ih =>
      intro node hnode hkey
      apply h node hnode
      intro other hother hdependency
      exact ih ⟨other.nodeKey, List.mem_map_of_mem hother⟩
        (Relation.TransGen.single ⟨node, hnode, hkey, hdependency⟩) other hother rfl
  intro node hnode
  exact hkey ⟨node.nodeKey, List.mem_map_of_mem hnode⟩ node hnode rfl

theorem Settled.unique {other : κ → NodeStatus} (hreached : run.Reached status)
    (hsettled : run.Settled status) (hreached' : run.Reached other) (hsettled' : run.Settled other) :
    ∀ node ∈ run.nodes, status node.nodeKey = other node.nodeKey := by
  apply induction
  intro node hnode ih
  have hsame (key : κ) (hkey : key ∈ node.dependencyNodeKeys) : status key = other key := by
    obtain ⟨dependency, hdependency, rfl⟩ := List.mem_map.mp (run.closed node hnode key hkey)
    exact ih dependency hdependency hkey
  have hreleasable := releasable_congr hsame
  rcases hreached node hnode with hfirst | ⟨hwaits, hreleased, htarget⟩
  · rcases hreached' node hnode with hfirst' | ⟨hwaits', hreleased', htarget'⟩
    · exact hfirst.trans hfirst'.symm
    · have hblocked : status node.nodeKey = .blocked := hfirst.trans (waits_iff.mp hwaits').1
      exact absurd (hreleasable.mpr hreleased') (hsettled node hnode hwaits' hblocked)
  · rcases hreached' node hnode with hfirst' | ⟨_, _, htarget'⟩
    · have hblocked : other node.nodeKey = .blocked := hfirst'.trans (waits_iff.mp hwaits).1
      exact absurd (hreleasable.mp hreleased) (hsettled' node hnode hwaits hblocked)
    · rw [htarget, htarget', targetOf_congr hsame]

structure Ended (run : AcyclicRun κ) (status : κ → NodeStatus) : Prop where
  /-- A node with another status waited; it is ready on success, skipped on another end. -/
  released : ∀ node ∈ run.nodes, status node.nodeKey ≠ node.status → node.waits = true ∧
    (status node.nodeKey = .ready ∧
        (∀ key ∈ node.dependencyNodeKeys, status key = .succeeded) ∨
      status node.nodeKey = .skipped ∧ Releasable status node ∧
        ∃ key ∈ node.dependencyNodeKeys, status key ≠ .succeeded)
  /-- A node that is blocked has a dependency that has not ended. -/
  unfinished : ∀ node ∈ run.nodes, node.operationallyBlocked = false →
    status node.nodeKey = .blocked →
    ∃ other ∈ run.nodes, other.nodeKey ∈ node.dependencyNodeKeys ∧
      (status other.nodeKey).isTerminal = false
  /-- And behind it a node that has not ended and is not left to the release. -/
  heldBy : ∀ node ∈ run.nodes, node.operationallyBlocked = false →
    status node.nodeKey = .blocked →
    ∃ other ∈ run.nodes, Relation.TransGen (DependsOn run.nodes) node.nodeKey other.nodeKey ∧
      (status other.nodeKey).isTerminal = false ∧
      (status other.nodeKey ≠ .blocked ∨ other.operationallyBlocked = true)

theorem Reached.waits (h : run.Reached status) {node : NodeRun κ} (hnode : node ∈ run.nodes)
    (hoperational : node.operationallyBlocked = false) (hblocked : status node.nodeKey = .blocked) :
    node.waits = true := by
  rcases h node hnode with hfirst | ⟨hwaits, _, _⟩
  · exact waits_iff.mpr ⟨hfirst.symm.trans hblocked, hoperational⟩
  · exact hwaits

theorem Settled.unfinished (hreached : run.Reached status) (hsettled : run.Settled status)
    {node : NodeRun κ} (hnode : node ∈ run.nodes) (hoperational : node.operationallyBlocked = false)
    (hblocked : status node.nodeKey = .blocked) :
    ∃ other ∈ run.nodes, other.nodeKey ∈ node.dependencyNodeKeys ∧
      (status other.nodeKey).isTerminal = false := by
  have hnot := hsettled node hnode (hreached.waits hnode hoperational hblocked) hblocked
  rw [Releasable, not_forall₂] at hnot
  obtain ⟨key, hkey, hterminal⟩ := hnot
  obtain ⟨other, hother, rfl⟩ := List.mem_map.mp (run.closed node hnode key hkey)
  exact ⟨other, hother, hkey, Bool.eq_false_iff.mpr hterminal⟩

theorem Settled.ended (hreached : run.Reached status) (hsettled : run.Settled status) :
    run.Ended status := by
  refine ⟨?_, fun node => hsettled.unfinished hreached, ?_⟩
  · intro node hnode hchanged
    rcases hreached node hnode with hfirst | ⟨hwaits, hreleasable, htarget⟩
    · exact absurd hfirst hchanged
    · refine ⟨hwaits, ?_⟩
      rw [htarget, targetOf]
      by_cases hall : (node.dependencyNodeKeys.all fun key => status key == .succeeded) = true
      · apply Or.inl
        rw [if_pos hall]
        exact ⟨rfl, fun key hkey => eq_of_beq (List.all_eq_true.mp hall key hkey)⟩
      · apply Or.inr
        rw [if_neg hall]
        rw [List.all_eq_true, not_forall₂] at hall
        obtain ⟨key, hkey, hne⟩ := hall
        exact ⟨rfl, hreleasable, key, hkey, fun heq => hne (beq_iff_eq.mpr heq)⟩
  · apply induction
    intro node hnode ih hoperational hblocked
    obtain ⟨other, hother, hdependency, hterminal⟩ :=
      hsettled.unfinished hreached hnode hoperational hblocked
    have hdepends : Relation.TransGen (DependsOn run.nodes) node.nodeKey other.nodeKey :=
      Relation.TransGen.single ⟨node, hnode, rfl, hdependency⟩
    by_cases hheld : status other.nodeKey = .blocked ∧ other.operationallyBlocked = false
    · obtain ⟨last, hlast, hbehind, hend⟩ := ih other hother hdependency hheld.2 hheld.1
      exact ⟨last, hlast, hdepends.trans hbehind, hend⟩
    · refine ⟨other, hother, hdepends, hterminal, ?_⟩
      rw [not_and_or, Bool.not_eq_false] at hheld
      exact hheld

variable [DecidableEq κ]

theorem exists_assign (run : AcyclicRun κ) :
    ∃ status, assign run.nodes status = run.nodes ∧ run.Reached status := by
  have hfirst {node : NodeRun κ} (hnode : node ∈ run.nodes) :
      ((mapOf run.nodes node.nodeKey).map NodeRun.status).getD .blocked = node.status := by
    rw [mapOf_eq run.nodup hnode]
    rfl
  refine ⟨fun key => ((mapOf run.nodes key).map NodeRun.status).getD .blocked, ?_, ?_⟩
  · rw [assign]
    conv_rhs => rw [← List.map_id run.nodes]
    apply List.map_congr_left
    intro node hnode
    rw [hfirst hnode]
    rfl
  · intro node hnode
    exact Or.inl (hfirst hnode)

end AcyclicRun

end GhostBridge.Orchestration
