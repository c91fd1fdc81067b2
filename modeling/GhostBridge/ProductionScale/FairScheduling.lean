import GhostBridge.Ecma.Sorting
import GhostBridge.Machine.RoundRobin
import GhostBridge.ProductionScale.Routing
import Mathlib.Data.Rat.Defs

/-!
# Fair scheduling

`fairSchedule` groups the items by tenant, orders the tenants and the items of each of them, and
takes turns among the tenants.
-/

namespace GhostBridge.ProductionScale

open Ecma Machine

/-- An item; a weight or a date that is not truthy is `none`. -/
structure ScheduleItem where
  id : Text
  organizationId : Value
  workspaceId : Value
  receivingWorkspaceId : Value := .undefined
  tenantWeight : Option Numeral := none
  workspaceWeight : Option Numeral := none
  priorityClass : Value := .undefined
  availableAt : Option ℤ := none
  nextAttemptAt : Option ℤ := none
  createdAt : Option ℤ := none

/-- The options; a tenant of no count or time has count and time 0. -/
structure FairOptions where
  now : ℤ
  tenantServiceCounts : Text → ℚ := fun _ => 0
  tenantLastServedAt : Text → ℤ := fun _ => 0

abbrev TenantWeight := Bounded 1 100

def priorityRank : PriorityClass → ℤ
  | .criticalRecovery => 5
  | .high => 4
  | .standard => 3
  | .low => 2
  | .maintenance => 1

/-- `new Date(item.availableAt || item.nextAttemptAt || item.createdAt || fallback)`. -/
def ScheduleItem.availability (item : ScheduleItem) (fallback : ℤ) : ℤ :=
  (item.availableAt <|> item.nextAttemptAt <|> item.createdAt).getD fallback

def priorityAgeBoost (now : ℤ) (item : ScheduleItem) : ℤ :=
  min 3 (max 0 (now - item.availability now) / 60000)

def effectivePriority (now : ℤ) (item : ScheduleItem) : ℤ :=
  let priorityClass :=
    match item.priorityClass with
    | .string text => (priorityClasses.lookup text).getD .standard
    | _ => .standard
  priorityRank priorityClass + priorityAgeBoost now item

/-- `${organizationId}\0${workspaceId}`. -/
def tenantKey (item : ScheduleItem) : Except ScaleFailure Text := do
  let organizationId ← safeIdentifier item.organizationId "item.organizationId"
  let workspaceId ← safeIdentifier (item.workspaceId.orElse item.receivingWorkspaceId)
    "item.workspaceId"
  .ok (organizationId ++ 0 :: workspaceId)

structure TenantGroup where
  key : Text
  weight : TenantWeight
  items : List ScheduleItem

/-- `Math.min(4, Math.max(1, Math.ceil(weight / 25)))`. -/
def quantum (weight : TenantWeight) : ℕ := min 4 (max 1 ((weight.val + 24) / 25))

theorem quantum_pos (weight : TenantWeight) : 0 < quantum weight := by
  unfold quantum
  omega

theorem quantum_le (weight : TenantWeight) : quantum weight ≤ 4 := by
  unfold quantum
  omega

def plainWeight : TenantWeight := ⟨1, by decide⟩

/-- `groups.set(group.key, group)`. -/
def putGroup (groups : List TenantGroup) (group : TenantGroup) : List TenantGroup :=
  if groups.any fun other => other.key == group.key then
    groups.map fun other => if other.key = group.key then group else other
  else groups ++ [group]

/-- `groups.get(key)`, a new group at first. -/
def groupOf (groups : List TenantGroup) (key : Text) : TenantGroup :=
  (groups.find? fun group => group.key == key).getD ⟨key, plainWeight, []⟩

def addItem (groups : List TenantGroup) (item : ScheduleItem) :
    Except ScaleFailure (List TenantGroup) := do
  let key ← tenantKey item
  let group := groupOf groups key
  let weight ← boundedInteger (item.tenantWeight <|> item.workspaceWeight) "tenantWeight" 1 100
    (some group.weight.val)
  .ok (putGroup groups { group with weight, items := group.items ++ [item] })

variable (localeCompare : Text → Text → Ordering)

def compareItems (now : ℤ) (a b : ScheduleItem) : Ordering :=
  (compare (effectivePriority now b) (effectivePriority now a)).then <|
  (compare (a.availability 0) (b.availability 0)).then <|
  localeCompare a.id b.id

def compareTenants (options : FairOptions) (quantumOf : Text → ℕ) (a b : Text) : Ordering :=
  (compare (options.tenantServiceCounts a / quantumOf a)
    (options.tenantServiceCounts b / quantumOf b)).then <|
  (compare (options.tenantLastServedAt a) (options.tenantLastServedAt b)).then <|
  localeCompare a b

def compareGroups (options : FairOptions) (a b : TenantGroup) : Ordering :=
  (compare (options.tenantServiceCounts a.key / quantum a.weight)
    (options.tenantServiceCounts b.key / quantum b.weight)).then <|
  (compare (options.tenantLastServedAt a.key) (options.tenantLastServedAt b.key)).then <|
  localeCompare a.key b.key

def tenantQueue (now : ℤ) (group : TenantGroup) : Queue Text ScheduleItem where
  key := group.key
  quantum := quantum group.weight
  positive := quantum_pos group.weight
  items := sortBy (compareItems localeCompare now) group.items

def fairSchedule (items : List ScheduleItem) (options : FairOptions) :
    Except ScaleFailure (List ScheduleItem) := do
  let groups ← items.foldlM addItem []
  let orderedGroups := sortBy (compareGroups localeCompare options) groups
  .ok (drain (orderedGroups.map (tenantQueue localeCompare options.now)))

namespace ScheduleItem

def key (item : ScheduleItem) : Text := (tenantKey item).toOption.getD []

def weight? (item : ScheduleItem) : Option TenantWeight :=
  (item.tenantWeight <|> item.workspaceWeight).bind fun number =>
    (boundedInteger (some number) "tenantWeight" 1 100 none).toOption

/-- The identifiers of an item, and its weight if it has one, pass their checks. -/
structure Valid (item : ScheduleItem) : Prop where
  tenant : ∃ key, tenantKey item = .ok key
  weight : ∀ number, (item.tenantWeight <|> item.workspaceWeight) = some number →
    ∃ weight, boundedInteger (some number) "tenantWeight" 1 100 none = .ok weight

theorem Valid.tenantKey_eq {item : ScheduleItem} (h : item.Valid) :
    tenantKey item = .ok item.key := by
  obtain ⟨key, hkey⟩ := h.tenant
  rw [ScheduleItem.key, hkey]
  rfl

end ScheduleItem

theorem boundedInteger_fallback (weight : TenantWeight) (path : String) :
    boundedInteger none path 1 100 (some weight.val) = .ok weight := by
  obtain ⟨n, hn⟩ := weight
  simp [boundedInteger, hn]

theorem weight_ok {item : ScheduleItem} (h : item.Valid) (weight : TenantWeight) :
    boundedInteger (item.tenantWeight <|> item.workspaceWeight) "tenantWeight" 1 100
      (some weight.val) = .ok (item.weight?.getD weight) := by
  unfold ScheduleItem.weight?
  cases hnumber : (item.tenantWeight <|> item.workspaceWeight) with
  | none => exact boundedInteger_fallback weight _
  | some number =>
    obtain ⟨given, hgiven⟩ := h.weight number hnumber
    have hsame : boundedInteger (some number) "tenantWeight" 1 100 (some weight.val) =
        boundedInteger (some number) "tenantWeight" 1 100 none := rfl
    rw [hsame, Option.bind_some, hgiven]
    rfl

def lastWeight (items : List ScheduleItem) : TenantWeight :=
  items.foldl (fun weight item => item.weight?.getD weight) plainWeight

def tenantItems (items : List ScheduleItem) (key : Text) : List ScheduleItem :=
  items.filter fun item => decide (item.key = key)

theorem mem_tenantItems {items : List ScheduleItem} {key : Text} {item : ScheduleItem} :
    item ∈ tenantItems items key ↔ item ∈ items ∧ item.key = key := by
  rw [tenantItems, List.mem_filter, decide_eq_true_eq]

theorem tenantItems_concat (items : List ScheduleItem) (item : ScheduleItem) (key : Text) :
    tenantItems (items ++ [item]) key =
      if item.key = key then tenantItems items key ++ [item] else tenantItems items key := by
  rw [tenantItems, List.filter_append]
  by_cases h : item.key = key
  · rw [if_pos h, List.filter_cons_of_pos (by simpa using h)]
    rfl
  · rw [if_neg h, List.filter_cons_of_neg (by simpa using h), List.filter_nil, List.append_nil]
    rfl

structure Grouped (items : List ScheduleItem) (groups : List TenantGroup) : Prop where
  keys : (groups.map TenantGroup.key).Nodup
  own : ∀ group ∈ groups, group.items = tenantItems items group.key
  weight : ∀ group ∈ groups, group.weight = lastWeight (tenantItems items group.key)
  mem_keys : ∀ key, key ∈ groups.map TenantGroup.key ↔ ∃ item ∈ items, item.key = key

theorem map_key_putGroup (groups : List TenantGroup) (group : TenantGroup) :
    (putGroup groups group).map TenantGroup.key =
      if group.key ∈ groups.map TenantGroup.key then groups.map TenantGroup.key
      else groups.map TenantGroup.key ++ [group.key] := by
  have hany : (groups.any fun other => other.key == group.key) = true ↔
      group.key ∈ groups.map TenantGroup.key := by
    simp
  unfold putGroup
  by_cases h : group.key ∈ groups.map TenantGroup.key
  · rw [if_pos h, if_pos (hany.mpr h), List.map_map]
    apply List.map_congr_left
    intro other _
    rw [Function.comp_apply]
    split
    · next hsame => exact hsame.symm
    · rfl
  · rw [if_neg h, if_neg (hany.not.mpr h), List.map_append]
    rfl

theorem mem_putGroup {groups : List TenantGroup} {group other : TenantGroup}
    (h : other ∈ putGroup groups group) : other = group ∨ other ∈ groups ∧ other.key ≠ group.key := by
  unfold putGroup at h
  split at h
  · obtain ⟨old, hold, rfl⟩ := List.mem_map.mp h
    split
    · exact .inl rfl
    · next hne => exact .inr ⟨hold, hne⟩
  · next hnone =>
    rcases List.mem_append.mp h with hold | hnew
    · refine .inr ⟨hold, fun hsame => hnone ?_⟩
      rw [List.any_eq_true]
      exact ⟨other, hold, by simpa using hsame⟩
    · exact .inl (List.mem_singleton.mp hnew)

theorem Grouped.groupOf_eq {items : List ScheduleItem} {groups : List TenantGroup}
    (h : Grouped items groups) (key : Text) :
    (groupOf groups key).key = key ∧ (groupOf groups key).items = tenantItems items key ∧
      (groupOf groups key).weight = lastWeight (tenantItems items key) := by
  unfold groupOf
  cases hfind : groups.find? fun group => group.key == key with
  | some group =>
    have hmem := List.mem_of_find?_eq_some hfind
    have hkey : group.key = key := by simpa using List.find?_some hfind
    rw [Option.getD_some, ← hkey]
    exact ⟨rfl, h.own group hmem, h.weight group hmem⟩
  | none =>
    have hnone : tenantItems items key = [] := by
      rw [tenantItems, List.filter_eq_nil_iff]
      intro item hitem hsame
      obtain ⟨group, hgroup, hkey⟩ :=
        List.mem_map.mp ((h.mem_keys key).mpr ⟨item, hitem, of_decide_eq_true hsame⟩)
      apply List.find?_eq_none.mp hfind group hgroup
      simpa using hkey
    rw [Option.getD_none, hnone]
    exact ⟨rfl, rfl, rfl⟩

theorem Grouped.addItem_ok {items : List ScheduleItem} {groups : List TenantGroup}
    (h : Grouped items groups) {item : ScheduleItem} (hvalid : item.Valid) :
    ∃ added, addItem groups item = .ok added ∧ Grouped (items ++ [item]) added ∧
      groups.map TenantGroup.key <+: added.map TenantGroup.key := by
  obtain ⟨hkey, hitems, hweight⟩ := h.groupOf_eq item.key
  let joined : TenantGroup :=
    { groupOf groups item.key with
      weight := item.weight?.getD (groupOf groups item.key).weight
      items := (groupOf groups item.key).items ++ [item] }
  have hjoined : joined.key = item.key := hkey
  refine ⟨putGroup groups joined, ?_, ⟨?_, ?_, ?_, ?_⟩, ?_⟩
  · rw [addItem, hvalid.tenantKey_eq, ok_bind]
    simp only [weight_ok hvalid, ok_bind]
    rfl
  · rw [map_key_putGroup]
    split
    · exact h.keys
    · next hnew =>
      rw [← List.concat_eq_append, List.nodup_concat]
      exact ⟨hnew, h.keys⟩
  · intro other hother
    rw [tenantItems_concat]
    rcases mem_putGroup hother with rfl | ⟨hold, hne⟩
    · rw [if_pos hjoined.symm, hjoined, ← hitems]
    · rw [if_neg (fun hsame => hne (hsame.symm.trans hjoined.symm))]
      exact h.own other hold
  · intro other hother
    rw [tenantItems_concat]
    rcases mem_putGroup hother with rfl | ⟨hold, hne⟩
    · rw [if_pos hjoined.symm, hjoined, lastWeight, List.foldl_append]
      change item.weight?.getD (groupOf groups item.key).weight = _
      rw [hweight]
      rfl
    · rw [if_neg (fun hsame => hne (hsame.symm.trans hjoined.symm))]
      exact h.weight other hold
  · intro key
    have hmem : key ∈ (putGroup groups joined).map TenantGroup.key ↔
        key ∈ groups.map TenantGroup.key ∨ item.key = key := by
      rw [map_key_putGroup, hjoined]
      split
      · next hknown =>
        constructor
        · intro hkey
          exact .inl hkey
        · rintro (hkey | rfl)
          · exact hkey
          · exact hknown
      · rw [List.mem_append, List.mem_singleton, eq_comm (a := key)]
    rw [hmem, h.mem_keys key]
    simp only [List.mem_append, List.mem_singleton]
    constructor
    · rintro (⟨other, hother, hkey⟩ | hkey)
      · exact ⟨other, .inl hother, hkey⟩
      · exact ⟨item, .inr rfl, hkey⟩
    · rintro ⟨other, hother | rfl, hsame⟩
      · exact .inl ⟨other, hother, hsame⟩
      · exact .inr hsame
  · rw [map_key_putGroup]
    split
    · exact List.prefix_rfl
    · exact List.prefix_append _ _

theorem foldlM_addItem {items : List ScheduleItem} (hvalid : ∀ item ∈ items, item.Valid) :
    ∃ groups, items.foldlM addItem [] = .ok groups ∧ Grouped items groups ∧
      ∀ first rest, items = first :: rest →
        ∃ others, groups.map TenantGroup.key = first.key :: others := by
  induction items using List.reverseRecOn with
  | nil =>
    refine ⟨[], rfl, ⟨List.nodup_nil, ?_, ?_, ?_⟩, ?_⟩
    · intro group hgroup
      cases hgroup
    · intro group hgroup
      cases hgroup
    · intro key
      simp
    · intro first rest h
      cases h
  | append_singleton items item ih =>
    obtain ⟨groups, hgroups, hgrouped, hfirst⟩ :=
      ih fun other hother => hvalid other (List.mem_append_left _ hother)
    obtain ⟨added, hadded, hgrouped', hprefix⟩ :=
      hgrouped.addItem_ok (hvalid item (List.mem_append_right _ List.mem_cons_self))
    refine ⟨added, ?_, hgrouped', ?_⟩
    · rw [List.foldlM_append, hgroups, ok_bind, List.foldlM_cons, hadded]
      rfl
    · intro first rest h
      cases items with
      | nil =>
        obtain ⟨rfl, -⟩ := List.cons.inj h
        have hmem := (hgrouped'.mem_keys item.key).mpr ⟨item, by simp, rfl⟩
        obtain rfl : groups = [] := Except.ok.inj hgroups.symm
        have hkeys : ∀ key ∈ added.map TenantGroup.key, key = item.key := by
          intro key hkey
          obtain ⟨other, hother, rfl⟩ := (hgrouped'.mem_keys key).mp hkey
          rw [List.nil_append, List.mem_singleton] at hother
          rw [hother]
        cases hadds : added.map TenantGroup.key with
        | nil => simp [hadds] at hmem
        | cons key others =>
          exact ⟨others, by rw [hkeys key (by rw [hadds]; exact List.mem_cons_self)]⟩
      | cons head tail =>
        obtain ⟨rfl, -⟩ := List.cons.inj h
        obtain ⟨others, hothers⟩ := hfirst head tail rfl
        obtain ⟨more, hmore⟩ := hprefix
        exact ⟨others ++ more, by rw [← hmore, hothers]; rfl⟩

end GhostBridge.ProductionScale
