import GhostBridge.Ecma.MemberOrder
import Mathlib.Algebra.Order.BigOperators.Group.List
import Mathlib.Data.List.Perm.Subperm

/-!
# Members in the order of their names

A list of members that is sorted by name stays as it is when it is sorted again, so what is left of
sorted members needs no sorting.
-/

namespace Ecma

variable {α : Type}

def IsSorted (members : List (Text × α)) : Prop :=
  members.Pairwise fun m n => Text.le m.1 n.1 = true

theorem isSorted_byName (members : List (Text × α)) : IsSorted (Reordering.byName.order members) := by
  have htotal : Std.Total fun m n : Text × α => Text.le m.1 n.1 = true :=
    ⟨fun m n => Text.le_total m.1 n.1⟩
  have htrans : IsTrans (Text × α) fun m n => Text.le m.1 n.1 = true :=
    ⟨fun _ _ _ h h' => Text.le_trans h h'⟩
  exact List.pairwise_insertionSort (fun m n : Text × α => Text.le m.1 n.1 = true) members

theorem byName_of_isSorted {members : List (Text × α)} (h : IsSorted members) :
    Reordering.byName.order members = members :=
  List.Pairwise.insertionSort_eq (r := fun m n : Text × α => Text.le m.1 n.1 = true) h

theorem IsSorted.filterMap {β : Type} {members : List (Text × α)} (h : IsSorted members)
    {f : Text × α → Option (Text × β)} (hf : ∀ m n, f m = some n → n.1 = m.1) :
    IsSorted (members.filterMap f) := by
  apply List.Pairwise.filterMap f _ h
  intro m n hle m' hm n' hn
  rw [hf m m' hm, hf n n' hn]
  exact hle

section Filter

variable {β : Type} (f : Text → α → Option β)

def keepMembers (members : List (Text × α)) : List (Text × β) :=
  members.filterMap fun m => (f m.1 m.2).map (m.1, ·)

variable {f} {members : List (Text × α)}

theorem mem_keepMembers {n : Text × β} :
    n ∈ keepMembers f members ↔ ∃ value, (n.1, value) ∈ members ∧ f n.1 value = some n.2 := by
  rw [keepMembers, List.mem_filterMap]
  constructor
  · rintro ⟨m, hm, h⟩
    obtain ⟨value, hvalue, rfl⟩ := Option.map_eq_some_iff.mp h
    exact ⟨m.2, hm, hvalue⟩
  · rintro ⟨value, hm, h⟩
    exact ⟨(n.1, value), hm, by simp [h]⟩

theorem IsSorted.keepMembers (h : IsSorted members) : IsSorted (keepMembers f members) := by
  apply h.filterMap
  intro m n h
  obtain ⟨value, -, rfl⟩ := Option.map_eq_some_iff.mp h
  rfl

theorem nodup_keepMembers (h : (members.map Prod.fst).Nodup) :
    ((keepMembers f members).map Prod.fst).Nodup := by
  have hsublist : ((keepMembers f members).map Prod.fst).Sublist (members.map Prod.fst) := by
    rw [keepMembers, List.map_filterMap]
    have hnames : (fun m : Text × α => (Option.map Prod.fst ((f m.1 m.2).map (m.1, ·)))) =
        fun m => if (f m.1 m.2).isSome then some m.1 else none := by
      funext m
      cases f m.1 m.2 <;> rfl
    rw [hnames]
    induction members with
    | nil => exact .slnil
    | cons m members ih =>
      have hrest := ih (List.nodup_cons.mp h).2
      rw [List.filterMap_cons, List.map_cons]
      by_cases hm : (f m.1 m.2).isSome = true
      · simp only [hm, if_true]
        exact hrest.cons_cons _
      · simp only [hm, Bool.false_eq_true, if_false]
        exact hrest.cons _
  exact h.sublist hsublist

theorem lookup_keepMembers (h : (members.map Prod.fst).Nodup) (name : Text) :
    (keepMembers f members).lookup name = (members.lookup name).bind (f name) := by
  apply Option.ext
  intro kept
  rw [lookup_eq_some_iff (nodup_keepMembers h), mem_keepMembers, Option.bind_eq_some_iff]
  simp only [lookup_eq_some_iff h]

end Filter

theorem mem_of_lookup {members : List (Text × α)} {name : Text} {value : α}
    (h : members.lookup name = some value) : (name, value) ∈ members := by
  induction members with
  | nil => cases h
  | cons m members ih =>
    rw [List.lookup_cons] at h
    by_cases hname : name = m.1
    · subst hname
      simp only [beq_self_eq_true, Option.some.injEq] at h
      subst h
      exact List.mem_cons_self
    · simp only [beq_eq_false_iff_ne.mpr hname] at h
      exact List.mem_cons_of_mem m (ih h)

theorem sum_le_of_names {members left : List (Text × α)} (size : Text × α → ℕ)
    (hnodup : (members.map Prod.fst).Nodup) (hnodup' : (left.map Prod.fst).Nodup)
    (h : ∀ m ∈ left, ∃ value, members.lookup m.1 = some value ∧ size m ≤ size (m.1, value)) :
    (left.map size).sum ≤ (members.map size).sum ∧ left.length ≤ members.length := by
  let named : Text → ℕ := fun name => (members.lookup name).elim 0 fun value => size (name, value)
  have hsubset : left.map Prod.fst ⊆ members.map Prod.fst := by
    intro name hname
    obtain ⟨m, hm, rfl⟩ := List.mem_map.mp hname
    obtain ⟨value, hvalue, -⟩ := h m hm
    exact List.mem_map.mpr ⟨(m.1, value), mem_of_lookup hvalue, rfl⟩
  have hsubperm := hnodup'.subperm hsubset
  have hmembers : members.map size = (members.map Prod.fst).map named := by
    rw [List.map_map]
    apply List.map_congr_left
    intro m hm
    have hlookup := (lookup_eq_some_iff hnodup m.1 m.2).mpr hm
    simp [named, hlookup]
  have hleft : (left.map size).sum ≤ ((left.map Prod.fst).map named).sum := by
    rw [List.map_map]
    apply List.sum_le_sum
    intro m hm
    obtain ⟨value, hvalue, hle⟩ := h m hm
    simpa [named, hvalue] using hle
  constructor
  · obtain ⟨names, hperm, hsublist⟩ := hsubperm
    rw [hmembers]
    calc (left.map size).sum
        ≤ ((left.map Prod.fst).map named).sum := hleft
      _ = (names.map named).sum := (hperm.map named).sum_eq.symm
      _ ≤ ((members.map Prod.fst).map named).sum :=
          (hsublist.map named).sum_le_sum fun _ _ => Nat.zero_le _
  · simpa using hsubperm.length_le

end Ecma
