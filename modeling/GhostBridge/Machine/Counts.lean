import Mathlib.Data.Finset.Card
import Mathlib.Data.List.Count
import Mathlib.Data.List.Nodup
import Mathlib.Data.List.Perm.Subperm
import Mathlib.Tactic.Common

/-!
# Counts of parties

How many parties have a property that changes with the turns of one party at a time.
-/

namespace Machine

variable {ι : Type} {P Q : ι → Prop} {n m : Int} {i : ι}

/-- No more than `n` parties have the property. -/
def AtMost (P : ι → Prop) (n : Int) : Prop :=
  ∀ parties : Finset ι, (∀ i ∈ parties, P i) → (parties.card : Int) ≤ n

theorem AtMost.mono (h : AtMost P n) (hQ : ∀ i, Q i → P i) : AtMost Q n :=
  fun parties hparties => h parties fun i hi => hQ i (hparties i hi)

theorem AtMost.le (h : AtMost P n) (hle : n ≤ m) : AtMost P m :=
  fun parties hparties => (h parties hparties).trans hle

theorem atMost_zero : AtMost P 0 ↔ ∀ i, ¬P i := by
  constructor
  · intro h i hi
    have hone := h {i} (by simpa using hi)
    simp at hone
  · intro h parties hparties
    have hempty : parties = ∅ := Finset.eq_empty_of_forall_notMem fun i hi => h i (hparties i hi)
    simp [hempty]

variable [DecidableEq ι]

theorem AtMost.insert (h : AtMost P n) (hQ : ∀ j, Q j → P j ∨ j = i) : AtMost Q (n + 1) := by
  intro parties hparties
  have herased : ((parties.erase i).card : Int) ≤ n := by
    refine h _ fun j hj => ?_
    obtain ⟨hne, hmem⟩ := Finset.mem_erase.mp hj
    exact (hQ j (hparties j hmem)).resolve_right hne
  have hcard := Finset.pred_card_le_card_erase (a := i) (s := parties)
  omega

theorem AtMost.erase (h : AtMost P n) (hi : P i) (hQ : ∀ j, Q j → P j ∧ j ≠ i) :
    AtMost Q (n - 1) := by
  intro parties hparties
  have hnot : i ∉ parties := fun hmem => (hQ i (hparties i hmem)).2 rfl
  have hinserted : ((Insert.insert i parties).card : Int) ≤ n := by
    refine h _ fun j hj => ?_
    rcases Finset.mem_insert.mp hj with rfl | hmem
    · exact hi
    · exact (hQ j (hparties j hmem)).1
  rw [Finset.card_insert_of_notMem hnot] at hinserted
  push_cast at hinserted
  omega

end Machine

/-!
## Slots

A bound on the number of records is kept by numbered slots: a record takes the first slot that none
of the others holds, and a unique index lets no two records hold one.
-/

namespace Machine

variable {ρ : Type} {records : List ρ}

def firstFree (taken : List ℕ) (maximum : ℕ) : Option ℕ :=
  (List.range' 1 maximum).find? fun slot => !taken.contains slot

theorem firstFree_some {taken : List ℕ} {maximum slot : ℕ} (h : firstFree taken maximum = some slot) :
    1 ≤ slot ∧ slot ≤ maximum ∧ slot ∉ taken := by
  have hmem := List.mem_range'_1.mp (List.mem_of_find?_eq_some h)
  have hfree := List.find?_some h
  rw [Bool.not_eq_true', List.contains_eq_mem, decide_eq_false_iff_not] at hfree
  exact ⟨hmem.1, by omega, hfree⟩

theorem length_le_of_slots (slot : ρ → ℕ) {maximum : ℕ}
    (hdistinct : records.Pairwise fun a b => slot a ≠ slot b)
    (hbounds : ∀ r ∈ records, 1 ≤ slot r ∧ slot r ≤ maximum) : records.length ≤ maximum := by
  have hnodup : (records.map slot).Nodup := List.pairwise_map.mpr hdistinct
  have hsubset : records.map slot ⊆ List.range' 1 maximum := by
    intro n hn
    obtain ⟨r, hr, rfl⟩ := List.mem_map.mp hn
    have hslot := hbounds r hr
    exact List.mem_range'_1.mpr ⟨hslot.1, by omega⟩
  have hlength := (hnodup.subperm hsubset).length_le
  rwa [List.length_map, List.length_range'] at hlength

theorem countP_le_of_slots {p : ρ → Bool} (slot : ρ → ℕ) {maximum : ℕ}
    (hdistinct : records.Pairwise fun a b => p a = true → p b = true → slot a ≠ slot b)
    (hbounds : ∀ r ∈ records, p r = true → 1 ≤ slot r ∧ slot r ≤ maximum) :
    records.countP p ≤ maximum := by
  rw [List.countP_eq_length_filter]
  apply length_le_of_slots slot
  · rw [List.pairwise_filter]
    exact hdistinct
  · intro r hr
    obtain ⟨hmem, hp⟩ := List.mem_filter.mp hr
    exact hbounds r hmem hp

end Machine
