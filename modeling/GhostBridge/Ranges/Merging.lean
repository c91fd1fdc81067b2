import GhostBridge.Ranges.RunLengths
import Mathlib.Data.List.Sort

/-!
# Merging spans

Sorted spans that do not overlap are merged where they touch and have the same value.
-/

namespace Ranges

variable {α ε : Type}

/-- `left.start - right.start || left.last - right.last` is not positive. -/
def Span.Before (left right : Span α) : Prop :=
  left.start < right.start ∨ (left.start = right.start ∧ left.last ≤ right.last)

instance (left right : Span α) : Decidable (left.Before right) :=
  inferInstanceAs (Decidable (_ ∨ _))

def mergeFrom [DecidableEq α] (overlap : ε) (previous : Span α) :
    List (Span α) → Except ε (List (Span α))
  | [] => .ok [previous]
  | span :: rest =>
    if span.start ≤ previous.last then .error overlap
    else if span.start = previous.last + 1 ∧ span.value = previous.value then
      mergeFrom overlap ⟨previous.start, span.last, previous.value⟩ rest
    else (previous :: ·) <$> mergeFrom overlap span rest

def mergeSorted [DecidableEq α] (overlap : ε) : List (Span α) → Except ε (List (Span α))
  | [] => .ok []
  | span :: rest => mergeFrom overlap span rest

def mergeSpans [DecidableEq α] (overlap : ε) (spans : List (Span α)) :
    Except ε (List (Span α)) :=
  mergeSorted overlap (spans.insertionSort Span.Before)

/-- Sorted spans, apart from each other, none of which could be longer. -/
structure IsTable (spans : List (Span α)) : Prop where
  ordered : ∀ span ∈ spans, span.start ≤ span.last
  disjoint : spans.Pairwise fun left right => left.last < right.start
  maximal : ∀ left ∈ spans, ∀ right ∈ spans, left.last + 1 = right.start → left.value ≠ right.value

def Gives (spans : List (Span α)) (position : ℕ) (value : α) : Prop :=
  ∃ span ∈ spans, span.Contains position ∧ span.value = value

@[simp] theorem gives_nil {position : ℕ} {value : α} : ¬Gives [] position value := by
  simp [Gives]

@[simp] theorem gives_cons {span : Span α} {spans : List (Span α)} {position : ℕ} {value : α} :
    Gives (span :: spans) position value ↔
      (span.Contains position ∧ span.value = value) ∨ Gives spans position value := by
  simp [Gives]

theorem gives_perm {spans others : List (Span α)} (h : spans.Perm others) {position : ℕ}
    {value : α} : Gives spans position value ↔ Gives others position value := by
  simp only [Gives, h.mem_iff]

structure Merged (previous : Span α) (rest merged : List (Span α)) : Prop where
  table : IsTable merged
  starts : ∀ span ∈ merged, previous.start ≤ span.start
  head : ∀ span ∈ merged, span.start = previous.start → span.value = previous.value
  gives : ∀ position value, Gives merged position value ↔ Gives (previous :: rest) position value

theorem Merged.single {previous : Span α} (h : previous.start ≤ previous.last) :
    Merged previous [] [previous] where
  table := by
    refine ⟨?_, List.pairwise_singleton _ _, ?_⟩
    · intro span hmem
      rw [List.mem_singleton.mp hmem]
      exact h
    · intro left hleft right hright htouch
      rw [List.mem_singleton.mp hleft, List.mem_singleton.mp hright] at htouch
      omega
  starts := by simp
  head := by simp
  gives := by simp

theorem Merged.extend {previous span : Span α} {rest merged : List (Span α)}
    (hordered : previous.start ≤ previous.last) (hspan : span.start ≤ span.last)
    (htouch : span.start = previous.last + 1) (hvalue : span.value = previous.value)
    (h : Merged ⟨previous.start, span.last, previous.value⟩ rest merged) :
    Merged previous (span :: rest) merged where
  table := h.table
  starts := h.starts
  head := h.head
  gives := by
    intro position value
    have hcontains : (⟨previous.start, span.last, previous.value⟩ : Span α).Contains position ↔
        previous.Contains position ∨ span.Contains position := by
      simp only [Span.Contains]
      omega
    rw [h.gives]
    simp only [gives_cons, hcontains, hvalue]
    tauto

theorem Merged.keep {previous span : Span α} {rest merged : List (Span α)}
    (hordered : previous.start ≤ previous.last) (hapart : previous.last < span.start)
    (hkeep : ¬(span.start = previous.last + 1 ∧ span.value = previous.value))
    (h : Merged span rest merged) : Merged previous (span :: rest) (previous :: merged) where
  table := by
    refine ⟨?_, ?_, ?_⟩
    · exact List.forall_mem_cons.mpr ⟨hordered, h.table.ordered⟩
    · refine List.pairwise_cons.mpr ⟨?_, h.table.disjoint⟩
      intro other hmem
      exact lt_of_lt_of_le hapart (h.starts other hmem)
    · intro left hleft right hright htouch heq
      rcases List.mem_cons.mp hleft with rfl | hlater
      · rcases List.mem_cons.mp hright with rfl | hlater
        · omega
        · have hstart := h.starts right hlater
          have hfirst : right.start = span.start := by omega
          exact hkeep ⟨by omega, (h.head right hlater hfirst).symm.trans heq.symm⟩
      · rcases List.mem_cons.mp hright with rfl | hlast
        · have hstart := h.starts left hlater
          have hle := h.table.ordered left hlater
          omega
        · exact h.table.maximal left hlater right hlast htouch heq
  starts := by
    intro other hmem
    rcases List.mem_cons.mp hmem with rfl | hmem
    · exact le_refl _
    · have hstart := h.starts other hmem
      omega
  head := by
    intro other hmem hstart
    rcases List.mem_cons.mp hmem with rfl | hmem
    · rfl
    · have hle := h.starts other hmem
      omega
  gives := by
    intro position value
    rw [gives_cons, gives_cons, h.gives]

variable [DecidableEq α] {overlap : ε}

theorem mergeFrom_ok {previous : Span α} {rest merged : List (Span α)}
    (hordered : previous.start ≤ previous.last) (hrest : ∀ span ∈ rest, span.start ≤ span.last)
    (h : mergeFrom overlap previous rest = .ok merged) : Merged previous rest merged := by
  induction rest generalizing previous merged with
  | nil =>
    cases h
    exact .single hordered
  | cons span rest ih =>
    obtain ⟨hspan, hrest⟩ := List.forall_mem_cons.mp hrest
    rw [mergeFrom] at h
    split at h
    · cases h
    · next hapart =>
      split at h
      · next htouch =>
        exact .extend hordered hspan htouch.1 htouch.2
          (ih (by simp only; omega) hrest h)
      · next hkeep =>
        cases hmerge : mergeFrom overlap span rest with
        | error e => simp [hmerge, Functor.map, Except.map] at h
        | ok tail =>
          simp only [hmerge, Functor.map, Except.map, Except.ok.injEq] at h
          subst h
          exact .keep hordered (by omega) hkeep (ih hspan hrest hmerge)

theorem mergeSpans_ok {spans merged : List (Span α)} (hspans : ∀ span ∈ spans, span.start ≤ span.last)
    (h : mergeSpans overlap spans = .ok merged) :
    IsTable merged ∧ ∀ position value, Gives merged position value ↔ Gives spans position value := by
  have hperm := spans.perm_insertionSort Span.Before
  have hsorted : ∀ span ∈ spans.insertionSort Span.Before, span.start ≤ span.last := by
    intro span hmem
    exact hspans span (hperm.mem_iff.mp hmem)
  unfold mergeSpans at h
  cases hsort : spans.insertionSort Span.Before with
  | nil =>
    rw [hsort] at h hperm
    cases h
    refine ⟨⟨by simp, .nil, by simp⟩, ?_⟩
    intro position value
    exact gives_perm hperm
  | cons first rest =>
    rw [hsort] at h hperm hsorted
    obtain ⟨hfirst, hrest⟩ := List.forall_mem_cons.mp hsorted
    have hmerged := mergeFrom_ok hfirst hrest h
    refine ⟨hmerged.table, ?_⟩
    intro position value
    rw [hmerged.gives, gives_perm hperm]

end Ranges
