import GhostBridge.ProductionScale.FairScheduling
import Mathlib.Algebra.Order.Field.Rat
import Mathlib.Tactic.Linarith
import Mathlib.Tactic.Positivity

/-!
# When a schedule is fair

A schedule is fair to its tenants.
-/

namespace GhostBridge.ProductionScale

open Ecma Machine

def quantumIn (items : List ScheduleItem) (key : Text) : ℕ :=
  quantum (lastWeight (tenantItems items key))

def sumOfQuanta (items : List ScheduleItem) : ℕ :=
  (((items.map ScheduleItem.key).dedup).map (quantumIn items)).sum

structure FairlyScheduled (localeCompare : Text → Text → Ordering) (now : ℤ)
    (items result : List ScheduleItem) : Prop where
  permutation : result.Perm items
  ordered : ∀ tenant, (tenantItems result tenant).Pairwise (NotAfter (compareItems localeCompare now))
  first : ∀ item ∈ items, ∃ other ∈ result.take (sumOfQuanta items), other.key = item.key
  /-- Who has an item left after a round has one in this round. -/
  rounds : ∃ rounds : List (List ScheduleItem), result = rounds.flatten ∧
    (∀ round ∈ rounds, round.length ≤ sumOfQuanta items) ∧
    ∀ before round later, rounds = before ++ round :: later →
      ∀ item ∈ later.flatten, ∃ other ∈ round, other.key = item.key

/-- Items of one tenant are told apart, and so are tenants; unless there is one tenant only, the
weights of each have one quantum. -/
structure Distinguished (localeCompare : Text → Text → Ordering) (now : ℤ)
    (items : List ScheduleItem) : Prop where
  apart : ∀ a ∈ items, ∀ b ∈ items, a ≠ b → a.key = b.key →
    compareItems localeCompare now a b ≠ .eq
  tenants : ∀ a ∈ items, ∀ b ∈ items, a.key ≠ b.key → localeCompare a.key b.key ≠ .eq
  quanta : (∀ a ∈ items, ∀ b ∈ items, a.key = b.key) ∨
    ∀ a ∈ items, ∀ b ∈ items, a.key = b.key → ∀ weight ∈ a.weight?, ∀ other ∈ b.weight?,
      quantum weight = quantum other

section Comparators

variable {localeCompare : Text → Text → Ordering} {now : ℤ} {options : FairOptions}

instance [Std.TransCmp localeCompare] : Std.TransCmp (compareItems localeCompare now) := by
  have hpriority : Std.TransCmp fun a b : ScheduleItem =>
      compare (effectivePriority now b) (effectivePriority now a) :=
    { eq_swap := Std.OrientedCmp.eq_swap
      isLE_trans := fun hab hbc => Std.TransCmp.isLE_trans hbc hab }
  have hid : Std.TransCmp fun a b : ScheduleItem => localeCompare a.id b.id :=
    { eq_swap := Std.OrientedCmp.eq_swap
      isLE_trans := Std.TransCmp.isLE_trans }
  change Std.TransCmp (compareLex
    (fun a b => compare (effectivePriority now b) (effectivePriority now a)) <| compareLex
      (compareOn fun item => item.availability 0) fun a b => localeCompare a.id b.id)
  infer_instance

instance [Std.TransCmp localeCompare] (quantumOf : Text → ℕ) :
    Std.TransCmp (compareTenants localeCompare options quantumOf) := by
  change Std.TransCmp (compareLex
    (compareOn fun key => options.tenantServiceCounts key / quantumOf key) <| compareLex
      (compareOn options.tenantLastServedAt) localeCompare)
  infer_instance

end Comparators

variable {localeCompare : Text → Text → Ordering} {now : ℤ} {options : FairOptions}
  {items permuted : List ScheduleItem}

def queueIn (localeCompare : Text → Text → Ordering) (now : ℤ) (items : List ScheduleItem)
    (key : Text) : Queue Text ScheduleItem where
  key := key
  quantum := quantumIn items key
  positive := quantum_pos _
  items := sortBy (compareItems localeCompare now) (tenantItems items key)

structure TenantsOf (items : List ScheduleItem) (keys : List Text) : Prop where
  distinct : keys.Nodup
  mem : ∀ key, key ∈ keys ↔ ∃ item ∈ items, item.key = key

theorem TenantsOf.perm {keys ordered : List Text} (h : TenantsOf items keys)
    (hperm : ordered.Perm keys) : TenantsOf items ordered where
  distinct := hperm.nodup_iff.mpr h.distinct
  mem := by
    intro key
    rw [hperm.mem_iff, h.mem]

theorem fairSchedule_eq (localeCompare : Text → Text → Ordering)
    (hvalid : ∀ item ∈ items, item.Valid) :
    ∃ keys, TenantsOf items keys ∧
      (∀ first rest, items = first :: rest → ∃ others, keys = first.key :: others) ∧ ∀ options, fairSchedule localeCompare items options =
      .ok (drain ((sortBy (compareTenants localeCompare options (quantumIn items)) keys).map
        (queueIn localeCompare options.now items))) := by
  obtain ⟨groups, hgroups, hgrouped, hfirst⟩ := foldlM_addItem hvalid
  refine ⟨groups.map TenantGroup.key, ⟨hgrouped.keys, hgrouped.mem_keys⟩, hfirst, ?_⟩
  intro options
  have hqueues : (sortBy (compareGroups localeCompare options) groups).map
      (tenantQueue localeCompare options.now) =
      ((sortBy (compareGroups localeCompare options) groups).map TenantGroup.key).map
        (queueIn localeCompare options.now items) := by
    rw [List.map_map]
    apply List.map_congr_left
    intro group hgroup
    have hmem := mem_sortBy.mp hgroup
    simp only [tenantQueue, Function.comp_apply, queueIn, quantumIn, hgrouped.own group hmem,
      hgrouped.weight group hmem]
  have hkeys : (sortBy (compareGroups localeCompare options) groups).map TenantGroup.key =
      sortBy (compareTenants localeCompare options (quantumIn items))
        (groups.map TenantGroup.key) := by
    apply List.map_insertionSort
    intro a ha b hb
    simp only [NotAfter, compareGroups, compareTenants, quantumIn, hgrouped.weight a ha,
      hgrouped.weight b hb]
  rw [fairSchedule, hgroups, ok_bind]
  simp only [hqueues, hkeys]

theorem keyed_queues {keys : List Text} (hkeys : keys.Nodup) :
    Keyed ScheduleItem.key (keys.map (queueIn localeCompare now items)) where
  items := by
    intro queue hqueue item hitem
    obtain ⟨key, -, rfl⟩ := List.mem_map.mp hqueue
    exact (mem_tenantItems.mp (mem_sortBy.mp hitem)).2
  distinct := by
    rw [List.map_map]
    change (keys.map id).Nodup
    rw [List.map_id]
    exact hkeys

variable {keys : List Text}

theorem tenantItems_drain (localeCompare : Text → Text → Ordering) (now : ℤ)
    (hkeys : TenantsOf items keys) (tenant : Text) :
    tenantItems (drain (keys.map (queueIn localeCompare now items))) tenant =
      sortBy (compareItems localeCompare now) (tenantItems items tenant) := by
  by_cases hmem : tenant ∈ keys
  · exact (keyed_queues hkeys.distinct).filter_drain (List.mem_map_of_mem hmem)
  · have hnone : tenantItems items tenant = [] := by
      rw [tenantItems, List.filter_eq_nil_iff]
      intro item hitem hkey
      exact hmem ((hkeys.mem tenant).mpr ⟨item, hitem, of_decide_eq_true hkey⟩)
    rw [hnone, tenantItems, List.filter_eq_nil_iff.mpr]
    · rfl
    · intro item hitem hkey
      obtain ⟨queue, hqueue, hitem⟩ := mem_drain.mp hitem
      obtain ⟨key, hkeymem, rfl⟩ := List.mem_map.mp hqueue
      apply hmem
      have hown := (mem_tenantItems.mp (mem_sortBy.mp hitem)).2
      rw [← of_decide_eq_true hkey, hown]
      exact hkeymem

theorem perm_of_tenantItems {result : List ScheduleItem}
    (h : ∀ tenant, (tenantItems result tenant).Perm (tenantItems items tenant)) :
    result.Perm items := by
  classical
  rw [List.perm_iff_count]
  intro item
  have hcount (list : List ScheduleItem) :
      (tenantItems list item.key).count item = list.count item := by
    rw [tenantItems, List.count_filter]
    exact decide_eq_true rfl
  rw [← hcount result, ← hcount items]
  exact (h item.key).count_eq item

theorem fairlyScheduled_drain (localeCompare : Text → Text → Ordering)
    [Std.TransCmp localeCompare] (now : ℤ) (hkeys : TenantsOf items keys) :
    FairlyScheduled localeCompare now items
      (drain (keys.map (queueIn localeCompare now items))) := by
  have hkeyed := @keyed_queues localeCompare now items keys hkeys.distinct
  have hquanta : totalQuantum (keys.map (queueIn localeCompare now items)) = sumOfQuanta items := by
    have hsame : keys.Perm (items.map ScheduleItem.key).dedup := by
      rw [List.perm_ext_iff_of_nodup hkeys.distinct (List.nodup_dedup _)]
      intro key
      rw [hkeys.mem, List.mem_dedup, List.mem_map]
    rw [totalQuantum, List.map_map, sumOfQuanta]
    exact (hsame.map _).sum_eq
  refine ⟨?_, ?_, ?_, ⟨_, rfl, ?_, ?_⟩⟩
  · apply perm_of_tenantItems
    intro tenant
    rw [tenantItems_drain localeCompare now hkeys]
    exact sortBy_perm _ _
  · intro tenant
    rw [tenantItems_drain localeCompare now hkeys]
    exact pairwise_sortBy _ _
  · intro item hitem
    rw [← hquanta]
    apply hkeyed.served_first
    rw [mem_drain]
    refine ⟨_, List.mem_map_of_mem ((hkeys.mem item.key).mpr ⟨item, hitem, rfl⟩), ?_⟩
    exact mem_sortBy.mpr (mem_tenantItems.mpr ⟨hitem, rfl⟩)
  · rw [← hquanta]
    exact length_round_le _
  · intro before round later hrounds item hitem
    exact hkeyed.served_in_round hrounds hitem

theorem lastWeight_cases (items : List ScheduleItem) :
    (∀ item ∈ items, item.weight? = none) ∧ lastWeight items = plainWeight ∨
      ∃ item ∈ items, item.weight? = some (lastWeight items) := by
  induction items using List.reverseRecOn with
  | nil =>
    refine .inl ⟨?_, rfl⟩
    intro item hitem
    cases hitem
  | append_singleton items item ih =>
    have hlast : lastWeight (items ++ [item]) = item.weight?.getD (lastWeight items) := by
      rw [lastWeight, List.foldl_append]
      rfl
    rw [hlast]
    cases hweight : item.weight? with
    | some weight => exact .inr ⟨item, by simp, hweight⟩
    | none =>
      rw [Option.getD_none]
      rcases ih with ⟨hnone, hplain⟩ | ⟨other, hother, hsame⟩
      · refine .inl ⟨?_, hplain⟩
        intro other hother
        rcases List.mem_append.mp hother with hold | hnew
        · exact hnone other hold
        · rw [List.mem_singleton.mp hnew, hweight]
      · exact .inr ⟨other, List.mem_append_left _ hother, hsame⟩

theorem quantumIn_perm (hperm : permuted.Perm items)
    (hquanta : ∀ a ∈ items, ∀ b ∈ items, a.key = b.key → ∀ weight ∈ a.weight?,
      ∀ other ∈ b.weight?, quantum weight = quantum other) (key : Text) :
    quantumIn permuted key = quantumIn items key := by
  have hmem {item : ScheduleItem} (h : item ∈ tenantItems permuted key) :
      item ∈ tenantItems items key := by
    rw [mem_tenantItems] at h ⊢
    exact ⟨hperm.subset h.1, h.2⟩
  unfold quantumIn
  rcases lastWeight_cases (tenantItems permuted key) with ⟨hnone, hplain⟩ | ⟨a, ha, hweight⟩
  · rcases lastWeight_cases (tenantItems items key) with ⟨-, hplain'⟩ | ⟨b, hb, hweight⟩
    · rw [hplain, hplain']
    · rw [mem_tenantItems] at hb
      rw [hnone b (mem_tenantItems.mpr ⟨hperm.symm.subset hb.1, hb.2⟩)] at hweight
      cases hweight
  · rcases lastWeight_cases (tenantItems items key) with ⟨hnone, -⟩ | ⟨b, hb, hweight'⟩
    · rw [hnone a (hmem ha)] at hweight
      cases hweight
    · obtain ⟨ha, hkey⟩ := mem_tenantItems.mp (hmem ha)
      obtain ⟨hb, hkey'⟩ := mem_tenantItems.mp hb
      exact hquanta a ha b hb (hkey.trans hkey'.symm) _ hweight _ hweight'

theorem sorted_items_perm [Std.TransCmp localeCompare]
    (h : Distinguished localeCompare now items) (hperm : permuted.Perm items) (tenant : Text) :
    sortBy (compareItems localeCompare now) (tenantItems permuted tenant) =
      sortBy (compareItems localeCompare now) (tenantItems items tenant) := by
  apply sortBy_congr (hperm.filter _)
  intro a ha b hb heq
  obtain ⟨ha, hkey⟩ := mem_tenantItems.mp ha
  obtain ⟨hb, hkey'⟩ := mem_tenantItems.mp hb
  by_contra hne
  exact h.apart a ha b hb hne (hkey.trans hkey'.symm) heq

theorem eq_of_one_tenant {first second : List ScheduleItem} {tenant : Text}
    (hfirst : ∀ item ∈ first, item.key = tenant) (hsecond : ∀ item ∈ second, item.key = tenant)
    (h : tenantItems first tenant = tenantItems second tenant) : first = second := by
  have hall (list : List ScheduleItem) (hlist : ∀ item ∈ list, item.key = tenant) :
      tenantItems list tenant = list := by
    rw [tenantItems, List.filter_eq_self]
    intro item hitem
    exact decide_eq_true (hlist item hitem)
  rw [hall first hfirst, hall second hsecond] at h
  exact h

theorem fairSchedule_perm [Std.TransCmp localeCompare] (hvalid : ∀ item ∈ items, item.Valid)
    (h : Distinguished localeCompare options.now items) (hperm : permuted.Perm items) :
    fairSchedule localeCompare permuted options = fairSchedule localeCompare items options := by
  have hvalid' : ∀ item ∈ permuted, item.Valid := fun item hitem =>
    hvalid item (hperm.subset hitem)
  obtain ⟨keys, hkeys, -, hschedule⟩ := fairSchedule_eq localeCompare hvalid
  obtain ⟨keys', hkeys', -, hschedule'⟩ := fairSchedule_eq localeCompare hvalid'
  rw [hschedule options, hschedule' options]
  have hsorted := hkeys.perm (sortBy_perm (compareTenants localeCompare options
    (quantumIn items)) keys)
  have hsorted' := hkeys'.perm (sortBy_perm (compareTenants localeCompare options
    (quantumIn permuted)) keys')
  rcases h.quanta with hone | hquanta
  · -- one tenant is served its items whatever its quantum is
    congr 1
    cases items with
    | nil =>
      obtain rfl := List.perm_nil.mp hperm
      have hnone (list : List Text) (hlist : TenantsOf [] list) : list = [] := by
        rw [List.eq_nil_iff_forall_not_mem]
        intro key hkey
        obtain ⟨item, hitem, -⟩ := (hlist.mem key).mp hkey
        cases hitem
      rw [hnone _ hsorted, hnone _ hsorted']
    | cons first rest =>
      have hown {list : List ScheduleItem} {order : List Text} (hlist : list.Perm (first :: rest))
          (horder : TenantsOf list order) :
          ∀ item ∈ drain (order.map (queueIn localeCompare options.now list)),
            item.key = first.key := by
        intro item hitem
        have hmem := (fairlyScheduled_drain localeCompare options.now horder).permutation.subset hitem
        exact hone item (hlist.subset hmem) first List.mem_cons_self
      apply eq_of_one_tenant (hown hperm hsorted') (hown (.refl _) hsorted)
      rw [tenantItems_drain _ _ hsorted', tenantItems_drain _ _ hsorted]
      exact sorted_items_perm h hperm first.key
  · have hquantum : quantumIn permuted = quantumIn items := by
      funext key
      exact quantumIn_perm hperm hquanta key
    have hqueue : queueIn localeCompare options.now permuted =
        queueIn localeCompare options.now items := by
      funext key
      simp only [queueIn, hquantum, sorted_items_perm h hperm]
    have hsame : keys'.Perm keys := by
      rw [List.perm_ext_iff_of_nodup hkeys'.distinct hkeys.distinct]
      intro key
      rw [hkeys'.mem, hkeys.mem]
      simp only [hperm.mem_iff]
    rw [hquantum, hqueue, sortBy_congr hsame]
    intro a ha b hb heq
    obtain ⟨first, hfirst, rfl⟩ := (hkeys.mem a).mp ha
    obtain ⟨second, hsecond, rfl⟩ := (hkeys.mem b).mp hb
    by_contra hne
    simp only [compareTenants, Ordering.then_eq_eq] at heq
    exact h.tenants first hfirst second hsecond hne heq.2.2

/-- The schedule starts with an item of this tenant. -/
def Leads (localeCompare : Text → Text → Ordering) (items : List ScheduleItem)
    (options : FairOptions) (tenant : Text) : Prop :=
  ∃ item rest, fairSchedule localeCompare items options = .ok (item :: rest) ∧ item.key = tenant

theorem Leads.unique {first second : Text} (h : Leads localeCompare items options first)
    (h' : Leads localeCompare permuted options second)
    (hsame : fairSchedule localeCompare items options = fairSchedule localeCompare permuted options) :
    first = second := by
  obtain ⟨item, rest, hitem, hkey⟩ := h
  obtain ⟨item', rest', hitem', hkey'⟩ := h'
  rw [hitem, hitem'] at hsame
  obtain ⟨rfl, -⟩ := List.cons.inj (Except.ok.inj hsame)
  exact hkey.symm.trans hkey'

theorem leads_of_head (hvalid : ∀ item ∈ items, item.Valid) {tenant : Text}
    (h : ∀ keys, TenantsOf items keys →
      (∀ first rest, items = first :: rest → ∃ others, keys = first.key :: others) →
      (sortBy (compareTenants localeCompare options (quantumIn items)) keys).head? = some tenant) :
    Leads localeCompare items options tenant := by
  obtain ⟨keys, hkeys, hfirst, hschedule⟩ := fairSchedule_eq localeCompare hvalid
  have hhead := h keys hkeys hfirst
  obtain ⟨others, hothers⟩ := List.head?_eq_some_iff.mp hhead
  have hmem : tenant ∈ keys := mem_sortBy.mp (List.mem_of_head? hhead)
  obtain ⟨item, hitem, rfl⟩ := (hkeys.mem tenant).mp hmem
  have hqueue : (queueIn localeCompare options.now items item.key).items ≠ [] :=
    List.ne_nil_of_mem (mem_sortBy.mpr (mem_tenantItems.mpr ⟨hitem, rfl⟩))
  obtain ⟨first, rest, hrest⟩ := List.exists_cons_of_ne_nil hqueue
  have hdrain := @head_drain _ _ _ (others.map (queueIn localeCompare options.now items)) _ _ hrest
  obtain ⟨later, hlater⟩ := List.head?_eq_some_iff.mp hdrain
  refine ⟨first, later, ?_, ?_⟩
  · rw [hschedule, hothers, List.map_cons, hlater]
  · have hown : first ∈ (queueIn localeCompare options.now items item.key).items := by
      rw [hrest]
      exact List.mem_cons_self
    exact (mem_tenantItems.mp (mem_sortBy.mp hown)).2

theorem leads_of_first {first : ScheduleItem} (hvalid : ∀ item ∈ first :: items, item.Valid)
    (h : ∀ item ∈ items, NotAfter (compareTenants localeCompare options
      (quantumIn (first :: items))) first.key item.key) :
    Leads localeCompare (first :: items) options first.key := by
  apply leads_of_head hvalid
  intro keys hkeys hfirst
  obtain ⟨others, rfl⟩ := hfirst first items rfl
  rw [sortBy_cons_first]
  · rfl
  · intro key hkey
    obtain ⟨item, hitem, rfl⟩ := (hkeys.mem key).mp (List.mem_cons_of_mem _ hkey)
    rcases List.mem_cons.mp hitem with rfl | hitem
    · exact absurd hkey (List.nodup_cons.mp hkeys.distinct).1
    · exact h item hitem

theorem leads_of_lt [Std.TransCmp localeCompare] (hvalid : ∀ item ∈ items, item.Valid)
    {tenant : ScheduleItem} (htenant : tenant ∈ items)
    (h : ∀ item ∈ items, item.key ≠ tenant.key →
      compareTenants localeCompare options (quantumIn items) tenant.key item.key = .lt) :
    Leads localeCompare items options tenant.key := by
  apply leads_of_head hvalid
  intro keys hkeys hfirst
  apply head_sortBy ((hkeys.mem _).mpr ⟨tenant, htenant, rfl⟩)
  intro key hkey hne
  obtain ⟨item, hitem, rfl⟩ := (hkeys.mem key).mp hkey
  exact h item hitem hne

theorem compareTenants_lt {quantumOf : Text → ℕ} {a b : Text}
    (h : options.tenantServiceCounts a / quantumOf a < options.tenantServiceCounts b / quantumOf b) :
    compareTenants localeCompare options quantumOf a b = .lt := by
  rw [compareTenants, compare_lt_iff_lt.mpr h]
  rfl

def OrderFree (localeCompare : Text → Text → Ordering) (now : ℤ) (items : List ScheduleItem) : Prop :=
  ∀ counts times permuted, permuted.Perm items →
    fairSchedule localeCompare permuted ⟨now, counts, times⟩ =
      fairSchedule localeCompare items ⟨now, counts, times⟩

theorem OrderFree.eq (h : OrderFree localeCompare now items) {first second : List ScheduleItem}
    (hfirst : first.Perm items) (hsecond : second.Perm items) (counts : Text → ℚ)
    (times : Text → ℤ) : fairSchedule localeCompare first ⟨now, counts, times⟩ =
      fairSchedule localeCompare second ⟨now, counts, times⟩ :=
  (h counts times first hfirst).trans (h counts times second hsecond).symm

theorem exists_perm_pair {a b : ScheduleItem} (ha : a ∈ items) (hb : b ∈ items) (hne : a ≠ b) :
    ∃ rest, (a :: b :: rest).Perm items ∧ (b :: a :: rest).Perm items := by
  classical
  have hb' : b ∈ items.erase a := (List.mem_erase_of_ne hne.symm).mpr hb
  have hperm : (a :: b :: (items.erase a).erase b).Perm items :=
    ((List.perm_cons_erase hb').symm.cons a).trans (List.perm_cons_erase ha).symm
  exact ⟨_, hperm, (List.Perm.swap a b _).trans hperm⟩

theorem apart_of_orderFree [Std.TransCmp localeCompare] (hvalid : ∀ item ∈ items, item.Valid)
    (hnodup : items.Nodup) (h : OrderFree localeCompare now items) {a b : ScheduleItem}
    (ha : a ∈ items) (hb : b ∈ items) (hne : a ≠ b) (hkey : a.key = b.key) :
    compareItems localeCompare now a b ≠ .eq := by
  intro heq
  obtain ⟨rest, hab, hba⟩ := exists_perm_pair ha hb hne
  have hsame := h.eq hab hba (fun _ => 0) fun _ => 0
  have hserved {first second : ScheduleItem} (hperm : (first :: second :: rest).Perm items)
      (hkeys : first.key = a.key ∧ second.key = a.key)
      (hnot : NotAfter (compareItems localeCompare now) first second) :
      ∃ result, fairSchedule localeCompare (first :: second :: rest)
        ⟨now, fun _ => 0, fun _ => 0⟩ = .ok result ∧ result.Perm items ∧
          [first, second].Sublist result := by
    have hvalid' : ∀ item ∈ first :: second :: rest, item.Valid := fun item hitem =>
      hvalid item (hperm.subset hitem)
    obtain ⟨keys, hkeysOf, -, hschedule⟩ := fairSchedule_eq localeCompare hvalid'
    have hsorted := hkeysOf.perm (sortBy_perm (compareTenants localeCompare
      ⟨now, fun _ => 0, fun _ => 0⟩ (quantumIn (first :: second :: rest))) keys)
    refine ⟨_, hschedule _, ?_, ?_⟩
    · exact (fairlyScheduled_drain localeCompare now hsorted).permutation.trans hperm
    · have hown := tenantItems_drain localeCompare now hsorted a.key
      apply List.Sublist.trans _ (List.filter_sublist (p := fun item => decide (item.key = a.key)))
      change [first, second].Sublist (tenantItems _ a.key)
      rw [hown]
      apply pair_sublist_sortBy _ hnot
      simp only [tenantItems, List.filter_cons, hkeys.1, hkeys.2, decide_true, if_true]
      exact (List.nil_sublist _).cons_cons second |>.cons_cons first
  obtain ⟨result, hresult, hperm, hfirst⟩ := hserved hab ⟨rfl, hkey.symm⟩ (notAfter_of_eq heq)
  have heq' : compareItems localeCompare now b a = .eq := by
    have hswap : compareItems localeCompare now b a =
        (compareItems localeCompare now a b).swap := Std.OrientedCmp.eq_swap
    rw [hswap, heq]
    rfl
  obtain ⟨result', hresult', -, hsecond⟩ := hserved hba ⟨hkey.symm, rfl⟩ (notAfter_of_eq heq')
  rw [hresult, hresult'] at hsame
  obtain rfl := Except.ok.inj hsame
  exact not_sublist_swap (hperm.nodup_iff.mpr hnodup) hne hfirst hsecond

theorem tenants_of_orderFree (hvalid : ∀ item ∈ items, item.Valid)
    [Std.TransCmp localeCompare] (h : OrderFree localeCompare now items) {a b : ScheduleItem}
    (ha : a ∈ items) (hb : b ∈ items) (hne : a.key ≠ b.key) :
    localeCompare a.key b.key ≠ .eq := by
  intro heq
  obtain ⟨rest, hab, hba⟩ := exists_perm_pair ha hb fun hsame => hne (congrArg _ hsame)
  let counts : Text → ℚ := fun key => if key = a.key ∨ key = b.key then 0 else 1
  have hleads {first second : ScheduleItem} (hperm : (first :: second :: rest).Perm items)
      (hkeys : ∀ key, (key = a.key ∨ key = b.key) ↔ (key = first.key ∨ key = second.key))
      (htie : localeCompare first.key second.key = .eq) :
      Leads localeCompare (first :: second :: rest) ⟨now, counts, fun _ => 0⟩ first.key := by
    apply leads_of_first fun item hitem => hvalid item (hperm.subset hitem)
    intro item _
    have hfirst : counts first.key = 0 := if_pos ((hkeys _).mpr (.inl rfl))
    by_cases hother : item.key = first.key ∨ item.key = second.key
    · have hitem : counts item.key = 0 := if_pos ((hkeys _).mpr hother)
      apply notAfter_of_eq
      rcases hother with hsame | hsame
      · rw [hsame]
        exact Std.ReflCmp.compare_self
      · rw [hsame] at hitem ⊢
        simp only [compareTenants, hfirst, hitem, zero_div, htie]
        rfl
    · have hitem : counts item.key = 1 := if_neg fun hsame => hother ((hkeys _).mp hsame)
      apply notAfter_of_lt
      apply compareTenants_lt
      simp only [hfirst, hitem, zero_div]
      have hpositive : 0 < quantumIn (first :: second :: rest) item.key := quantum_pos _
      positivity
  have heq' : localeCompare b.key a.key = .eq := by
    have hswap : localeCompare b.key a.key = (localeCompare a.key b.key).swap :=
      Std.OrientedCmp.eq_swap
    rw [hswap, heq]
    rfl
  have hfirst := hleads hab (fun key => Iff.rfl) heq
  have hsecond := hleads hba (fun key => or_comm) heq'
  exact hne (hfirst.unique hsecond (h.eq hab hba counts fun _ => 0))

theorem quantumIn_concat {item : ScheduleItem} {weight : TenantWeight}
    (h : item.weight? = some weight) (items : List ScheduleItem) :
    quantumIn (items ++ [item]) item.key = quantum weight := by
  rw [quantumIn, tenantItems_concat, if_pos rfl, lastWeight, List.foldl_append]
  simp [h]

theorem quantumIn_concat_of_ne {item : ScheduleItem} {key : Text} (h : item.key ≠ key)
    (items : List ScheduleItem) : quantumIn (items ++ [item]) key = quantumIn items key := by
  rw [quantumIn, tenantItems_concat, if_neg h]
  rfl

theorem quanta_of_orderFree [Std.TransCmp localeCompare] (hvalid : ∀ item ∈ items, item.Valid)
    (h : OrderFree localeCompare now items) {a b other : ScheduleItem} (ha : a ∈ items)
    (hb : b ∈ items) (hkey : a.key = b.key) (hother : other ∈ items) (hne : other.key ≠ a.key)
    {weight larger : TenantWeight} (hweight : a.weight? = some weight)
    (hlarger : b.weight? = some larger) : ¬quantum weight < quantum larger := by
  intro hlt
  have hab : a ≠ b := by
    rintro rfl
    rw [hweight] at hlarger
    obtain rfl := Option.some.inj hlarger
    exact lt_irrefl _ hlt
  obtain ⟨rest, hperm, -⟩ := exists_perm_pair ha hb hab
  have hmem : other ∈ rest := by
    have hlisted := hperm.symm.subset hother
    rcases List.mem_cons.mp hlisted with rfl | hlisted
    · exact absurd rfl hne
    · rcases List.mem_cons.mp hlisted with rfl | hlisted
      · exact absurd hkey.symm hne
      · exact hlisted
  have hpair (first second : ScheduleItem) :
      (rest ++ [first] ++ [second]).Perm (second :: first :: rest) :=
    (List.perm_append_singleton _ _).trans ((List.perm_append_singleton _ _).cons _)
  have hsmallLast : (rest ++ [b] ++ [a]).Perm items := (hpair b a).trans hperm
  have hlargeLast : (rest ++ [a] ++ [b]).Perm items :=
    (hpair a b).trans ((List.Perm.swap a b rest).trans hperm)
  -- between the shares of the tenant with the two quanta
  let middle : ℚ := (24 / quantum weight + 24 / quantum larger) / 2
  let counts : Text → ℚ := fun key =>
    if key = a.key then 24 else if key = other.key then middle * quantumIn rest other.key else 1000
  have hpositive : (0 : ℚ) < quantum weight := Nat.cast_pos.mpr (quantum_pos weight)
  have hshares : (24 : ℚ) / quantum larger < 24 / quantum weight := by
    apply div_lt_div_of_pos_left (by norm_num) hpositive
    exact_mod_cast hlt
  have hmiddle : 24 / (quantum larger : ℚ) < middle ∧ middle < 24 / quantum weight := by
    constructor
    · simp only [middle]
      linarith
    · simp only [middle]
      linarith
  have hsmall : (24 : ℚ) / quantum weight ≤ 24 := by
    apply div_le_self (by norm_num)
    exact_mod_cast quantum_pos weight
  have hothers (items : List ScheduleItem) (key : Text) :
      (24 : ℚ) < 1000 / quantumIn items key := by
    have hquantum : (quantumIn items key : ℚ) ≤ 4 := by exact_mod_cast quantum_le _
    have hquantumPos : (0 : ℚ) < quantumIn items key := Nat.cast_pos.mpr (quantum_pos _)
    rw [lt_div_iff₀ hquantumPos]
    linarith
  have hshare {first second : ScheduleItem} (hfirst : first.key = a.key)
      (hsecond : second.key = a.key) :
      counts other.key / quantumIn (rest ++ [first] ++ [second]) other.key = middle := by
    rw [quantumIn_concat_of_ne (hsecond.trans_ne hne.symm),
      quantumIn_concat_of_ne (hfirst.trans_ne hne.symm)]
    simp only [counts, if_neg hne, if_true]
    exact mul_div_cancel_right₀ _ (Nat.cast_ne_zero.mpr (quantum_pos _).ne')
  have hrest {key : Text} (hkeys : key ≠ a.key ∧ key ≠ other.key) : counts key = 1000 := by
    simp only [counts, if_neg hkeys.1, if_neg hkeys.2]
  have hown : counts a.key = 24 := if_pos rfl
  have hfirst : Leads localeCompare (rest ++ [b] ++ [a]) ⟨now, counts, fun _ => 0⟩ other.key := by
    apply leads_of_lt (fun item hitem => hvalid item (hsmallLast.subset hitem))
    · simp [hmem]
    · intro item _ hitem
      apply compareTenants_lt
      change counts other.key / _ < counts item.key / _
      rw [hshare hkey.symm rfl]
      by_cases hsame : item.key = a.key
      · rw [hsame, hown, quantumIn_concat hweight]
        exact hmiddle.2
      · rw [hrest ⟨hsame, hitem⟩]
        exact (hmiddle.2.trans_le hsmall).trans (hothers _ _)
  have hsecond : Leads localeCompare (rest ++ [a] ++ [b]) ⟨now, counts, fun _ => 0⟩ b.key := by
    apply leads_of_lt (fun item hitem => hvalid item (hlargeLast.subset hitem))
    · simp
    · intro item _ hitem
      apply compareTenants_lt
      change counts b.key / _ < counts item.key / _
      rw [quantumIn_concat hlarger, ← hkey, hown]
      by_cases hsame : item.key = other.key
      · rw [hsame, hshare rfl hkey.symm]
        exact hmiddle.1
      · rw [hrest ⟨fun hown => hitem (hown.trans hkey), hsame⟩]
        exact (hshares.trans_le hsmall).trans (hothers _ _)
  exact hne ((hfirst.unique hsecond (h.eq hsmallLast hlargeLast counts fun _ => 0)).trans hkey.symm)

/-- Schedules are fair, and the same however the items are listed, when items and tenants are told
apart and each tenant has one quantum, and only then. -/
theorem fair_schedule_law (localeCompare : Text → Text → Ordering) [Std.TransCmp localeCompare]
    (now : ℤ) (items : List ScheduleItem) (hvalid : ∀ item ∈ items, item.Valid)
    (hids : (items.map ScheduleItem.id).Nodup) :
    (∀ counts times, ∃ result,
        fairSchedule localeCompare items ⟨now, counts, times⟩ = .ok result ∧
        FairlyScheduled localeCompare now items result ∧
        ∀ permuted, permuted.Perm items →
          fairSchedule localeCompare permuted ⟨now, counts, times⟩ = .ok result) ↔
      Distinguished localeCompare now items := by
  constructor
  · intro h
    have hfree : OrderFree localeCompare now items := by
      intro counts times permuted hperm
      obtain ⟨result, hresult, -, hsame⟩ := h counts times
      rw [hsame permuted hperm, hresult]
    refine ⟨?_, ?_, ?_⟩
    · intro a ha b hb hne hkey
      exact apart_of_orderFree hvalid (List.Nodup.of_map _ hids) hfree ha hb hne hkey
    · intro a ha b hb hne
      exact tenants_of_orderFree hvalid hfree ha hb hne
    · by_cases hone : ∀ a ∈ items, ∀ b ∈ items, a.key = b.key
      · exact .inl hone
      · refine .inr ?_
        push Not at hone
        obtain ⟨first, hfirst, second, hsecond, hdifferent⟩ := hone
        intro a ha b hb hkey weight hweight larger hlarger
        obtain ⟨other, hother, hne⟩ : ∃ other ∈ items, other.key ≠ a.key := by
          by_cases hsame : first.key = a.key
          · exact ⟨second, hsecond, fun hkeys => hdifferent (hsame.trans hkeys.symm)⟩
          · exact ⟨first, hfirst, hsame⟩
        apply le_antisymm
        · exact not_lt.mp (quanta_of_orderFree hvalid hfree hb ha hkey.symm hother
            (fun hkeys => hne (hkeys.trans hkey.symm)) hlarger hweight)
        · exact not_lt.mp (quanta_of_orderFree hvalid hfree ha hb hkey hother hne hweight hlarger)
  · intro h counts times
    obtain ⟨keys, hkeys, -, hschedule⟩ := fairSchedule_eq localeCompare hvalid
    have hsorted := hkeys.perm (sortBy_perm (compareTenants localeCompare
      ⟨now, counts, times⟩ (quantumIn items)) keys)
    refine ⟨_, hschedule ⟨now, counts, times⟩, fairlyScheduled_drain _ _ hsorted, ?_⟩
    intro permuted hperm
    rw [← hschedule ⟨now, counts, times⟩]
    exact fairSchedule_perm hvalid h hperm

private def weighted (id workspace : String) (weight : ℤ) : ScheduleItem where
  id := ascii id
  organizationId := .string (ascii "o")
  workspaceId := .string (ascii workspace)
  tenantWeight := some (some weight)

private theorem weighted_valid {id workspace : String} {weight : ℤ}
    (hkey : (tenantKey (weighted id workspace weight)).toOption.isSome = true)
    (hweight : 1 ≤ weight.toNat ∧ weight.toNat ≤ 100 ∧ 0 ≤ weight) :
    (weighted id workspace weight).Valid where
  tenant := by
    cases htenant : tenantKey (weighted id workspace weight) with
    | ok key => exact ⟨key, rfl⟩
    | error failure =>
      rw [htenant] at hkey
      cases hkey
  weight := by
    intro number hnumber
    obtain rfl := Option.some.inj hnumber
    exact ⟨_, dif_pos hweight⟩

/-- The items of two tenants that have not been served before. -/
theorem fair_schedule_law_two : ∃ result,
    fairSchedule compare [weighted "x" "a" 1, weighted "y" "b" 30] { now := 0 } = .ok result ∧
    FairlyScheduled compare 0 [weighted "x" "a" 1, weighted "y" "b" 30] result ∧
    ∀ permuted, permuted.Perm [weighted "x" "a" 1, weighted "y" "b" 30] →
      fairSchedule compare permuted { now := 0 } = .ok result := by
  have hvalid : ∀ item ∈ [weighted "x" "a" 1, weighted "y" "b" 30], item.Valid := by
    simp only [List.forall_mem_cons]
    exact ⟨weighted_valid (by decide) (by decide),
      weighted_valid (by decide) (by decide), List.forall_mem_nil _⟩
  refine (fair_schedule_law compare 0 _ hvalid (by decide)).mpr ?_ (fun _ => 0) (fun _ => 0)
  have hne : (weighted "x" "a" 1).key ≠ (weighted "y" "b" 30).key := by decide
  have happart : compare (weighted "x" "a" 1).key (weighted "y" "b" 30).key ≠ .eq ∧
      compare (weighted "y" "b" 30).key (weighted "x" "a" 1).key ≠ .eq := by decide
  refine ⟨?_, ?_, .inr ?_⟩
  · intro a ha b hb hab hkey
    simp only [List.mem_cons, List.not_mem_nil, or_false] at ha hb
    rcases ha with rfl | rfl
    · rcases hb with rfl | rfl
      · exact absurd rfl hab
      · exact absurd hkey hne
    · rcases hb with rfl | rfl
      · exact absurd hkey.symm hne
      · exact absurd rfl hab
  · intro a ha b hb hkey
    simp only [List.mem_cons, List.not_mem_nil, or_false] at ha hb
    rcases ha with rfl | rfl
    · rcases hb with rfl | rfl
      · exact absurd rfl hkey
      · exact happart.1
    · rcases hb with rfl | rfl
      · exact happart.2
      · exact absurd rfl hkey
  · intro a ha b hb hkey weight hweight other hother
    simp only [List.mem_cons, List.not_mem_nil, or_false] at ha hb
    rcases ha with rfl | rfl
    · rcases hb with rfl | rfl
      · rw [Option.mem_unique hweight hother]
      · exact absurd hkey hne
    · rcases hb with rfl | rfl
      · exact absurd hkey.symm hne
      · rw [Option.mem_unique hweight hother]

/-- The tenant of two weights leads when the larger is listed last. -/
theorem last_weight_counts :
    (∀ item ∈ [weighted "x" "a" 1, weighted "y" "a" 30, weighted "z" "b" 1], item.Valid) ∧
      ([weighted "x" "a" 1, weighted "y" "a" 30, weighted "z" "b" 1].map ScheduleItem.id).Nodup ∧
      ¬OrderFree compare 0 [weighted "x" "a" 1, weighted "y" "a" 30, weighted "z" "b" 1] := by
  have hvalid : ∀ item ∈ [weighted "x" "a" 1, weighted "y" "a" 30, weighted "z" "b" 1],
      item.Valid := by
    simp only [List.forall_mem_cons]
    exact ⟨weighted_valid (by decide) (by decide),
      weighted_valid (by decide) (by decide),
      weighted_valid (by decide) (by decide), List.forall_mem_nil _⟩
  refine ⟨hvalid, by decide, ?_⟩
  intro h
  have hother : weighted "z" "b" 1 ∈
      [weighted "x" "a" 1, weighted "y" "a" 30, weighted "z" "b" 1] := by simp
  exact quanta_of_orderFree hvalid h (a := weighted "x" "a" 1) (b := weighted "y" "a" 30)
    (by simp) (by simp) (by decide) hother (by decide) rfl rfl (by decide)

end GhostBridge.ProductionScale
