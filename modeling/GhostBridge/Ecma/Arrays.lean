import GhostBridge.Ecma.Outcome
import Mathlib.Data.List.Sort

/-!
# Arrays

`[...new Set(items)]` and `items.sort(compare)`, which is stable.
-/

namespace Ecma

variable {α : Type}

/-- `[...new Set(items)]`: the first of equal items stays where it is. -/
def distinct [BEq α] (items : List α) : List α := items.eraseDups

@[simp] theorem mem_distinct [BEq α] [LawfulBEq α] {a : α} {items : List α} :
    a ∈ distinct items ↔ a ∈ items :=
  List.mem_eraseDups

theorem length_distinct_le [BEq α] (items : List α) : (distinct items).length ≤ items.length := by
  unfold distinct
  induction hlength : items.length using Nat.strong_induction_on generalizing items with
  | _ n ih =>
    cases items with
    | nil => simp
    | cons a items =>
      have hfilter := List.length_filter_le (fun b => !b == a) items
      rw [List.length_cons] at hlength
      have hrest := ih _ (by omega) (items.filter fun b => !b == a) rfl
      rw [List.eraseDups_cons, List.length_cons]
      omega

theorem nodup_distinct [BEq α] [LawfulBEq α] (items : List α) : (distinct items).Nodup := by
  induction hlength : items.length using Nat.strong_induction_on generalizing items with
  | _ n ih =>
    cases items with
    | nil => exact .nil
    | cons a items =>
      have hfilter := List.length_filter_le (fun b => !b == a) items
      rw [List.length_cons] at hlength
      have hrest := ih _ (by omega) (items.filter fun b => !b == a) rfl
      unfold distinct at hrest ⊢
      rw [List.eraseDups_cons, List.nodup_cons]
      refine ⟨fun hmem => ?_, hrest⟩
      rw [List.mem_eraseDups, List.mem_filter] at hmem
      simp at hmem

/-- The first of the items that come before all others. -/
def IsFirst (r : α → α → Prop) (items : List α) (a : α) : Prop :=
  ∃ before rest, items = before ++ a :: rest ∧ (∀ b ∈ before, ¬r b a) ∧ ∀ b ∈ rest, r a b

variable {r : α → α → Prop}

theorem IsFirst.unique {items : List α} {a b : α} (ha : IsFirst r items a)
    (hb : IsFirst r items b) : a = b := by
  obtain ⟨before, rest, rfl, hbefore, hrest⟩ := ha
  obtain ⟨before', rest', he, hbefore', hrest'⟩ := hb
  rcases List.append_eq_append_iff.mp he with ⟨c, rfl, hc⟩ | ⟨c, rfl, hc⟩
  · cases c with
    | nil =>
      rw [List.nil_append, List.cons.injEq] at hc
      exact hc.1
    | cons d c =>
      rw [List.cons_append, List.cons.injEq] at hc
      obtain ⟨rfl, rfl⟩ := hc
      exact absurd (hrest b (by simp)) (hbefore' a (by simp))
  · cases c with
    | nil =>
      rw [List.nil_append, List.cons.injEq] at hc
      exact hc.1.symm
    | cons d c =>
      rw [List.cons_append, List.cons.injEq] at hc
      obtain ⟨rfl, rfl⟩ := hc
      exact absurd (hrest' a (by simp)) (hbefore b (by simp))

theorem isFirst_of_insertionSort [DecidableRel r] (htotal : ∀ a b, r a b ∨ r b a)
    (htrans : ∀ a b c, r a b → r b c → r a c) {items rest : List α} {a : α}
    (h : items.insertionSort r = a :: rest) : IsFirst r items a := by
  induction items generalizing a rest with
  | nil => cases h
  | cons b items ih =>
    rw [List.insertionSort_cons] at h
    cases hsorted : items.insertionSort r with
    | nil =>
      have hnil : items = [] := by
        rw [← List.length_eq_zero_iff, ← List.length_insertionSort (r := r) items, hsorted]
        rfl
      rw [hsorted, List.orderedInsert_nil, List.cons.injEq] at h
      exact ⟨[], [], by rw [hnil, h.1]; rfl, by simp, by simp⟩
    | cons c sorted =>
      obtain ⟨before, after, rfl, hbefore, hafter⟩ := ih hsorted
      rw [hsorted, List.orderedInsert_cons] at h
      split at h
      · next hbc =>
        obtain rfl := (List.cons.inj h).1
        refine ⟨[], _, rfl, by simp, fun d hd => ?_⟩
        rcases List.mem_append.mp hd with hd | hd
        · exact htrans b c d hbc ((htotal d c).resolve_left (hbefore d hd))
        · rcases List.mem_cons.mp hd with rfl | hd
          · exact hbc
          · exact htrans b c d hbc (hafter d hd)
      · next hbc =>
        obtain rfl := (List.cons.inj h).1
        exact ⟨b :: before, after, rfl, List.forall_mem_cons.mpr ⟨hbc, hbefore⟩, hafter⟩

end Ecma

/-!
## Lists with unique keys

A list whose items have different keys holds one item for a key at most.
-/

namespace Ecma

variable {α κ ε : Type} [BEq κ] [LawfulBEq κ] {key : α → κ} {items : List α}

theorem find?_key_of_mem (hunique : (items.map key).Nodup) {a : α} (ha : a ∈ items) :
    items.find? (fun b => key b == key a) = some a := by
  induction items with
  | nil => cases ha
  | cons item items ih =>
    rw [List.map_cons, List.nodup_cons] at hunique
    rcases List.mem_cons.mp ha with rfl | hlater
    · rw [List.find?_cons_of_pos (by simp)]
    · have hother : key item ≠ key a := by
        intro heq
        exact hunique.1 (heq ▸ List.mem_map_of_mem hlater)
      rw [List.find?_cons_of_neg (by simpa using hother)]
      exact ih hunique.2 hlater

theorem find?_key_some {k : κ} {a : α} (h : items.find? (fun b => key b == k) = some a) :
    a ∈ items ∧ key a = k :=
  ⟨List.mem_of_find?_eq_some h, by simpa using List.find?_some h⟩

theorem forM_ok {f : α → Except ε PUnit} {items : List α} :
    items.forM f = .ok () ↔ ∀ a ∈ items, f a = .ok () := by
  induction items with
  | nil => exact ⟨fun _ a ha => (List.not_mem_nil ha).elim, fun _ => rfl⟩
  | cons item items ih =>
    rw [List.forM_eq_forM, List.forM_cons, bind_ok]
    constructor
    · rintro ⟨⟨⟩, hitem, hitems⟩ a ha
      rcases List.mem_cons.mp ha with rfl | hlater
      · exact hitem
      · exact ih.mp hitems a hlater
    · intro h
      exact ⟨(), h item (List.mem_cons_self ..),
        ih.mpr fun a ha => h a (List.mem_cons_of_mem _ ha)⟩

end Ecma
