import GhostBridge.Ecma.Arrays
import GhostBridge.Ecma.Text
import Mathlib.Order.Compare
import Mathlib.Tactic.Common

/-!
# Sorting by a comparator

`Array.prototype.sort` is stable: what a comparator does not tell apart stays in its order.
-/

namespace Ecma

variable {α : Type*}

/-- The comparator does not put `a` behind `b`. -/
def NotAfter (cmp : α → α → Ordering) (a b : α) : Prop := cmp a b ≠ .gt

instance (cmp : α → α → Ordering) : DecidableRel (NotAfter cmp) := fun _ _ =>
  inferInstanceAs (Decidable (_ ≠ _))

/-- `list.sort(cmp)`. -/
def sortBy (cmp : α → α → Ordering) (list : List α) : List α := list.insertionSort (NotAfter cmp)

variable {cmp : α → α → Ordering} {list : List α} {a b : α}

theorem sortBy_perm (cmp : α → α → Ordering) (list : List α) : (sortBy cmp list).Perm list :=
  List.perm_insertionSort _ list

theorem mem_sortBy : a ∈ sortBy cmp list ↔ a ∈ list := (sortBy_perm cmp list).mem_iff

theorem sortBy_cons_first (h : ∀ b ∈ list, NotAfter cmp a b) :
    sortBy cmp (a :: list) = a :: sortBy cmp list := by
  have hsorted : ∀ b ∈ sortBy cmp list, NotAfter cmp a b := by
    intro b hb
    exact h b (mem_sortBy.mp hb)
  change List.orderedInsert (NotAfter cmp) a (sortBy cmp list) = _
  cases hlist : sortBy cmp list with
  | nil => rfl
  | cons c rest =>
    apply List.orderedInsert_cons_of_le
    exact hsorted c (by simp [hlist])

theorem notAfter_iff : NotAfter cmp a b ↔ (cmp a b).isLE = true := Ordering.isLE_iff_ne_gt.symm

theorem notAfter_of_lt (h : cmp a b = .lt) : NotAfter cmp a b := by
  rw [NotAfter, h]
  decide

theorem notAfter_of_eq (h : cmp a b = .eq) : NotAfter cmp a b := by
  rw [NotAfter, h]
  decide

section Preorders

variable [Std.TransCmp cmp]

instance : IsTrans α (NotAfter cmp) where
  trans _ _ _ hab hbc :=
    notAfter_iff.mpr (Std.TransCmp.isLE_trans (notAfter_iff.mp hab) (notAfter_iff.mp hbc))

instance : Std.Total (NotAfter cmp) where
  total a b := by
    have hswap : cmp b a = (cmp a b).swap := Std.OrientedCmp.eq_swap
    rw [NotAfter, NotAfter, hswap]
    cases cmp a b <;> simp

theorem notAfter_refl (a : α) : NotAfter cmp a a := (Std.Total.total a a).elim id id

theorem eq_of_notAfter (hab : NotAfter cmp a b) (hba : NotAfter cmp b a) : cmp a b = .eq := by
  have hswap : cmp b a = (cmp a b).swap := Std.OrientedCmp.eq_swap
  rw [NotAfter, hswap] at hba
  cases hcmp : cmp a b with
  | eq => rfl
  | gt => exact absurd hcmp hab
  | lt =>
    rw [hcmp] at hba
    exact absurd rfl hba

theorem pairwise_sortBy (cmp : α → α → Ordering) [Std.TransCmp cmp] (list : List α) :
    (sortBy cmp list).Pairwise (NotAfter cmp) :=
  List.pairwise_insertionSort _ list

theorem sortBy_congr {permuted : List α} (hperm : permuted.Perm list)
    (h : ∀ a ∈ list, ∀ b ∈ list, cmp a b = .eq → a = b) : sortBy cmp permuted = sortBy cmp list := by
  have hsame : (sortBy cmp permuted).Perm (sortBy cmp list) :=
    (sortBy_perm cmp permuted).trans (hperm.trans (sortBy_perm cmp list).symm)
  apply hsame.eq_of_pairwise _ (pairwise_sortBy cmp permuted) (pairwise_sortBy cmp list)
  intro a b ha hb hab hba
  have ha' : a ∈ list := hperm.subset (mem_sortBy.mp ha)
  exact h a ha' b (mem_sortBy.mp hb) (eq_of_notAfter hab hba)

theorem notAfter_head {rest : List α} (h : sortBy cmp list = a :: rest) :
    ∀ b ∈ list, NotAfter cmp a b := by
  intro b hb
  have hsorted := pairwise_sortBy cmp list
  rw [h, List.pairwise_cons] at hsorted
  have hmem : b ∈ a :: rest := h ▸ mem_sortBy.mpr hb
  rcases List.mem_cons.mp hmem with rfl | hrest
  · exact notAfter_refl b
  · exact hsorted.1 b hrest

theorem head_sortBy (hmem : a ∈ list) (h : ∀ b ∈ list, b ≠ a → cmp a b = .lt) :
    (sortBy cmp list).head? = some a := by
  cases hsorted : sortBy cmp list with
  | nil =>
    have hsortedMem : a ∈ sortBy cmp list := mem_sortBy.mpr hmem
    rw [hsorted] at hsortedMem
    cases hsortedMem
  | cons c rest =>
    have hc : c ∈ list := mem_sortBy.mp (by rw [hsorted]; exact List.mem_cons_self)
    by_cases hca : c = a
    · rw [hca]
      rfl
    · have hlt := h c hc hca
      have hswap : cmp c a = (cmp a c).swap := Std.OrientedCmp.eq_swap
      rw [hlt] at hswap
      exact absurd hswap (notAfter_head hsorted a hmem)

theorem pair_sublist_sortBy (cmp : α → α → Ordering) [Std.TransCmp cmp] (h : NotAfter cmp a b)
    (hpair : [a, b].Sublist list) : [a, b].Sublist (sortBy cmp list) :=
  List.pair_sublist_insertionSort h hpair

end Preorders

theorem not_sublist_swap (hnodup : list.Nodup) (hne : a ≠ b) (hab : [a, b].Sublist list) :
    ¬[b, a].Sublist list := by
  induction list with
  | nil =>
    intro hba
    cases hba
  | cons c list ih =>
    obtain ⟨hc, hnodup⟩ := List.nodup_cons.mp hnodup
    have hmem {x y : α} (h : [x, y].Sublist list) : x ∈ list ∧ y ∈ list :=
      ⟨h.subset List.mem_cons_self, h.subset (List.mem_cons_of_mem _ List.mem_cons_self)⟩
    intro hba
    cases hab with
    | cons _ hab =>
      cases hba with
      | cons _ hba => exact ih hnodup hab hba
      | cons_cons _ hba => exact hc (hmem hab).2
    | cons_cons _ hab =>
      cases hba with
      | cons _ hba => exact hc (hmem hba).2
      | cons_cons _ hba => exact hne rfl

/-- `[...new Set(texts)].sort()`. -/
def sortedTexts (texts : List Text) : List Text :=
  (distinct texts).insertionSort fun a b => Text.le a b = true

section Texts

variable {texts : List Text} {text : Text}

private theorem sortedTexts_perm (texts : List Text) :
    (sortedTexts texts).Perm (distinct texts) :=
  List.perm_insertionSort _ _

@[simp] theorem mem_sortedTexts : text ∈ sortedTexts texts ↔ text ∈ texts := by
  rw [(sortedTexts_perm texts).mem_iff, mem_distinct]

theorem nodup_sortedTexts (texts : List Text) : (sortedTexts texts).Nodup :=
  (sortedTexts_perm texts).nodup_iff.mpr (nodup_distinct texts)

theorem length_sortedTexts_le (texts : List Text) : (sortedTexts texts).length ≤ texts.length := by
  rw [(sortedTexts_perm texts).length_eq]
  exact length_distinct_le texts

theorem sortedTexts_eq_iff {others : List Text} :
    sortedTexts texts = sortedTexts others ↔ ∀ text, text ∈ texts ↔ text ∈ others := by
  constructor
  · intro h text
    rw [← mem_sortedTexts, h, mem_sortedTexts]
  · intro h
    have hsorted (texts : List Text) :
        (sortedTexts texts).Pairwise fun a b => Text.le a b = true := by
      have : IsTrans Text fun a b => Text.le a b = true := ⟨fun _ _ _ => Text.le_trans⟩
      have : Std.Total fun a b : Text => Text.le a b = true := ⟨Text.le_total⟩
      exact List.pairwise_insertionSort _ _
    have hperm : (sortedTexts texts).Perm (sortedTexts others) := by
      rw [List.perm_ext_iff_of_nodup (nodup_sortedTexts texts) (nodup_sortedTexts others)]
      intro text
      rw [mem_sortedTexts, mem_sortedTexts, h]
    exact hperm.eq_of_pairwise (fun a b _ _ => Text.le_antisymm) (hsorted texts) (hsorted others)

end Texts

end Ecma
