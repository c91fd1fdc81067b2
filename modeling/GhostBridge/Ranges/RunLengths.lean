import Mathlib.Data.List.Induction
import Mathlib.Order.Basic
import Mathlib.Tactic.Common

/-!
# Spans of a table

A table is filled span by span, where a later span hides an earlier one, and is read back as its
maximal runs of equal entries.
-/

namespace Ranges

variable {α β : Type}

/-- The positions from `start` to `last`, and their value. -/
structure Span (α : Type) where
  start : ℕ
  last : ℕ
  value : α
deriving DecidableEq

namespace Span

def Contains (span : Span α) (position : ℕ) : Prop :=
  span.start ≤ position ∧ position ≤ span.last

instance (span : Span α) (position : ℕ) : Decidable (span.Contains position) :=
  inferInstanceAs (Decidable (_ ∧ _))

def map (f : α → β) (span : Span α) : Span β := ⟨span.start, span.last, f span.value⟩

end Span

def fill (table : ℕ → α) (span : Span α) (position : ℕ) : α :=
  if span.Contains position then span.value else table position

def containing (spans : List (Span α)) (position : ℕ) : List (Span α) :=
  spans.filter fun span => decide (span.Contains position)

theorem foldl_fill (spans : List (Span α)) (table : ℕ → α) (position : ℕ) :
    spans.foldl fill table position =
      (((containing spans position).getLast?).map Span.value).getD (table position) := by
  induction spans using List.reverseRecOn with
  | nil => rfl
  | append_singleton spans span ih =>
    rw [List.foldl_append, containing, List.filter_append]
    by_cases h : span.Contains position
    · have hfilter : [span].filter (fun s => decide (s.Contains position)) = [span] := by
        simp [h]
      rw [hfilter, List.getLast?_append, List.foldl_cons, List.foldl_nil, fill, if_pos h]
      rfl
    · have hfilter : [span].filter (fun s => decide (s.Contains position)) = [] := by
        simp [h]
      rw [hfilter, List.append_nil, List.foldl_cons, List.foldl_nil, fill, if_neg h, ih, containing]

theorem filter_of_pairwise {p : α → Bool} {as : List α}
    (h : as.Pairwise fun a b => ¬(p a = true ∧ p b = true)) :
    as.filter p = [] ∨ ∃ a, as.filter p = [a] := by
  have hpairwise := List.Pairwise.filter p h
  cases hfilter : as.filter p with
  | nil => exact Or.inl rfl
  | cons first rest =>
    cases rest with
    | nil => exact Or.inr ⟨first, rfl⟩
    | cons second rest =>
      have hmem (a : α) (ha : a ∈ first :: second :: rest) : p a = true := by
        rw [← hfilter] at ha
        exact (List.mem_filter.mp ha).2
      rw [hfilter, List.pairwise_cons] at hpairwise
      exact absurd ⟨hmem first (by simp), hmem second (by simp)⟩ (hpairwise.1 second (by simp))

/-- The spans lie side by side from one position up to another, each shows the entries of the
table, and a span ends only where the entry changes. -/
def AreRuns (entry : ℕ → α) : ℕ → ℕ → List (Span α) → Prop
  | low, high, [] => low = high
  | low, high, span :: spans =>
    span.start = low ∧ span.start ≤ span.last ∧ span.last < high ∧
      (∀ position, span.Contains position → entry position = span.value) ∧
      (span.last + 1 < high → entry (span.last + 1) ≠ span.value) ∧
      AreRuns entry (span.last + 1) high spans

theorem AreRuns.entry_start {entry : ℕ → α} {low high : ℕ} {spans : List (Span α)}
    (h : AreRuns entry low high spans) {span : Span α} (hspan : span ∈ spans) :
    span.start < high ∧ entry span.start = span.value := by
  induction spans generalizing low with
  | nil => cases hspan
  | cons first rest ih =>
    obtain ⟨hstart, hle, hlast, hentry, _, hrest⟩ := h
    rcases List.mem_cons.mp hspan with rfl | hspan
    · exact ⟨Nat.lt_of_le_of_lt hle hlast, hentry _ ⟨Nat.le_refl _, hle⟩⟩
    · exact ih hrest hspan

theorem AreRuns.congr {entry other : ℕ → α} {low high : ℕ} {spans : List (Span α)}
    (h : AreRuns entry low high spans) (hsame : ∀ position < high, entry position = other position) :
    AreRuns other low high spans := by
  induction spans generalizing low with
  | nil => exact h
  | cons span spans ih =>
    obtain ⟨hstart, hle, hlast, hentry, hchange, hrest⟩ := h
    refine ⟨hstart, hle, hlast, ?_, ?_, ih hrest⟩
    · intro position hposition
      rw [← hsame position (Nat.lt_of_le_of_lt hposition.2 hlast)]
      exact hentry position hposition
    · intro hnext
      rw [← hsame _ hnext]
      exact hchange hnext

theorem AreRuns.map {entry : ℕ → α} {f : α → β} {low high : ℕ} {spans : List (Span α)}
    (h : AreRuns entry low high spans)
    (hf : ∀ p q, p < high → q < high → f (entry p) = f (entry q) → entry p = entry q) :
    AreRuns (fun position => f (entry position)) low high (spans.map (Span.map f)) := by
  induction spans generalizing low with
  | nil => exact h
  | cons span spans ih =>
    obtain ⟨hstart, hle, hlast, hentry, hchange, hrest⟩ := h
    refine ⟨hstart, hle, hlast, ?_, ?_, ih hrest⟩
    · intro position hposition
      exact congrArg f (hentry position hposition)
    · intro hnext hsame
      have hvalue := hentry span.last ⟨hle, Nat.le_refl _⟩
      apply hchange hnext
      rw [← hvalue]
      apply hf _ _ hnext hlast
      rw [hvalue]
      exact hsame

variable [DecidableEq α]

/-- The loop over the entries that closes a run where the entry changes; `next` has an entry behind
the last position that differs from all. -/
def runsFrom (next : ℕ → α) : ℕ → ℕ → ℕ → α → List (Span α)
  | 0, _, _, _ => []
  | remaining + 1, position, start, previous =>
    if next position ≠ previous then
      ⟨start, position - 1, previous⟩ ::
        runsFrom next remaining (position + 1) position (next position)
    else runsFrom next remaining (position + 1) start previous

theorem areRuns_runsFrom {next : ℕ → α} {high : ℕ} (hend : ∀ p < high, next p ≠ next high)
    (remaining : ℕ) {position start : ℕ} {previous : α} (hremaining : position + remaining = high + 1)
    (hstart : start < position) (hposition : position ≤ high)
    (hrun : ∀ p, start ≤ p → p < position → next p = previous) :
    AreRuns next start high (runsFrom next remaining position start previous) := by
  induction remaining generalizing position start previous with
  | zero => omega
  | succ remaining ih =>
    have hprevious := hrun (position - 1) (by omega) (by omega)
    by_cases hchange : next position ≠ previous
    · rw [runsFrom, if_pos hchange]
      have hlast : position - 1 + 1 = position := by omega
      have hspan : ∀ p, (⟨start, position - 1, previous⟩ : Span α).Contains p →
          next p = previous := by
        intro p hp
        have hle : p ≤ position - 1 := hp.2
        exact hrun p hp.1 (by omega)
      refine ⟨rfl, ?_, ?_, hspan, ?_, ?_⟩
      · change start ≤ position - 1
        omega
      · change position - 1 < high
        omega
      · intro _
        rw [hlast]
        exact hchange
      · rw [hlast]
        by_cases hstop : position = high
        · have hdone : remaining = 0 := by omega
          subst hdone
          exact hstop
        · apply ih (by omega) (Nat.lt_succ_self position) (by omega)
          intro p hp hlt
          have hsame : p = position := by omega
          rw [hsame]
    · rw [runsFrom, if_neg hchange]
      rw [not_not] at hchange
      have hinner : position ≠ high := by
        intro hstop
        apply hend (position - 1) (by omega)
        rw [hprevious, ← hstop, hchange]
      apply ih (by omega) (by omega) (by omega)
      intro p hp hlt
      by_cases hsame : p = position
      · rw [hsame, hchange]
      · exact hrun p hp (by omega)

end Ranges
