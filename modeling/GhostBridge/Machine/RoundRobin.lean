import Mathlib.Algebra.Order.BigOperators.Group.List
import Mathlib.Algebra.Order.Ring.Nat
import Mathlib.Data.List.Perm.Basic
import Mathlib.Tactic.Common

/-!
# Taking turns

Queues are served in rounds: in each round, every queue gives at most its quantum of items.
-/

namespace Machine

variable {α κ : Type*}

/-- A queue with the number of items that it may give in a round. -/
structure Queue (κ α : Type*) where
  key : κ
  quantum : ℕ
  positive : 0 < quantum
  items : List α

namespace Queue

def served (queue : Queue κ α) : List α := queue.items.take queue.quantum

def rest (queue : Queue κ α) : Queue κ α := { queue with items := queue.items.drop queue.quantum }

theorem served_subset (queue : Queue κ α) : queue.served ⊆ queue.items := List.take_subset _ _

theorem served_append_rest (queue : Queue κ α) : queue.served ++ queue.rest.items = queue.items :=
  List.take_append_drop _ _

theorem served_ne_nil {queue : Queue κ α} (h : queue.items ≠ []) : queue.served ≠ [] := by
  have hpositive := queue.positive
  intro hnil
  rcases List.take_eq_nil_iff.mp hnil with hzero | hitems
  · omega
  · exact h hitems

theorem length_rest_le (queue : Queue κ α) : queue.rest.items.length ≤ queue.items.length := by
  rw [rest, List.length_drop]
  exact Nat.sub_le _ _

theorem length_rest_lt {queue : Queue κ α} (h : queue.items ≠ []) :
    queue.rest.items.length < queue.items.length := by
  have hpositive := queue.positive
  have hlength := List.length_pos_iff.mpr h
  rw [rest, List.length_drop]
  omega

end Queue

def anyWaiting (queues : List (Queue κ α)) : Bool := queues.any fun queue => !queue.items.isEmpty

def afterRound (queues : List (Queue κ α)) : List (Queue κ α) := queues.map Queue.rest

def waiting (queues : List (Queue κ α)) : ℕ := (queues.map fun queue => queue.items.length).sum

theorem waiting_rest_lt {queues : List (Queue κ α)} (h : anyWaiting queues = true) :
    waiting (afterRound queues) < waiting queues := by
  obtain ⟨queue, hmem, hqueue⟩ := List.any_eq_true.mp h
  unfold waiting afterRound
  rw [List.map_map]
  apply List.sum_lt_sum
  · intro queue _
    exact queue.length_rest_le
  · refine ⟨queue, hmem, Queue.length_rest_lt ?_⟩
    intro hnil
    rw [hnil] at hqueue
    cases hqueue

def rounds (queues : List (Queue κ α)) : List (List α) :=
  if _h : anyWaiting queues = true then
    queues.flatMap Queue.served :: rounds (afterRound queues)
  else []
termination_by waiting queues
decreasing_by exact waiting_rest_lt _h

def drain (queues : List (Queue κ α)) : List α := (rounds queues).flatten

theorem rounds_of_waiting {queues : List (Queue κ α)} (h : anyWaiting queues = true) :
    rounds queues = queues.flatMap Queue.served :: rounds (afterRound queues) := by
  rw [rounds, dif_pos h]

theorem rounds_of_empty {queues : List (Queue κ α)} (h : anyWaiting queues = false) :
    rounds queues = [] := by
  rw [rounds, dif_neg]
  rw [h]
  decide

theorem items_nil_of_empty {queues : List (Queue κ α)} (h : anyWaiting queues = false)
    {queue : Queue κ α} (hmem : queue ∈ queues) : queue.items = [] := by
  simpa using List.any_eq_false.mp h queue hmem

theorem anyWaiting_of_ne_nil {queues : List (Queue κ α)} {queue : Queue κ α} (hmem : queue ∈ queues)
    (h : queue.items ≠ []) : anyWaiting queues = true := by
  by_contra hempty
  rw [Bool.not_eq_true] at hempty
  exact h (items_nil_of_empty hempty hmem)

theorem rounds_induction {motive : List (Queue κ α) → Prop}
    (hempty : ∀ queues, anyWaiting queues = false → motive queues)
    (hround : ∀ queues, anyWaiting queues = true → motive (afterRound queues) → motive queues)
    (queues : List (Queue κ α)) : motive queues := by
  induction queues using rounds.induct with
  | case1 queues h ih => exact hround queues h ih
  | case2 queues h => exact hempty queues (by simpa using h)

theorem drain_of_waiting {queues : List (Queue κ α)} (h : anyWaiting queues = true) :
    drain queues = queues.flatMap Queue.served ++ drain (afterRound queues) := by
  rw [drain, rounds_of_waiting h, List.flatten_cons]
  rfl

theorem drain_of_empty {queues : List (Queue κ α)} (h : anyWaiting queues = false) :
    drain queues = [] := by
  rw [drain, rounds_of_empty h]
  rfl

theorem drain_perm (queues : List (Queue κ α)) : (drain queues).Perm (queues.flatMap Queue.items) := by
  induction queues using rounds_induction with
  | hempty queues h =>
    have hnone : queues.flatMap Queue.items = [] := by
      rw [List.flatMap_eq_nil_iff]
      intro queue hmem
      exact items_nil_of_empty h hmem
    rw [drain_of_empty h, hnone]
  | hround queues h ih =>
    rw [drain_of_waiting h]
    rw [afterRound, List.flatMap_map] at ih
    refine (ih.append_left _).trans ((List.flatMap_append_perm queues _ _).trans ?_)
    simp only [Queue.served_append_rest]
    exact .refl _

theorem mem_drain {queues : List (Queue κ α)} {item : α} :
    item ∈ drain queues ↔ ∃ queue ∈ queues, item ∈ queue.items := by
  rw [(drain_perm queues).mem_iff, List.mem_flatMap]

theorem head_drain {queue : Queue κ α} {queues : List (Queue κ α)} {item : α} {items : List α}
    (h : queue.items = item :: items) : (drain (queue :: queues)).head? = some item := by
  have hpositive := queue.positive
  have hwaiting : anyWaiting (queue :: queues) = true := by
    apply anyWaiting_of_ne_nil List.mem_cons_self
    rw [h]
    exact List.cons_ne_nil _ _
  rw [drain_of_waiting hwaiting, List.flatMap_cons, Queue.served, h,
    List.take_cons hpositive]
  rfl

def totalQuantum (queues : List (Queue κ α)) : ℕ := (queues.map Queue.quantum).sum

theorem totalQuantum_rest (queues : List (Queue κ α)) :
    totalQuantum (afterRound queues) = totalQuantum queues := by
  rw [totalQuantum, afterRound, List.map_map]
  rfl

theorem length_served_le (queues : List (Queue κ α)) :
    (queues.flatMap Queue.served).length ≤ totalQuantum queues := by
  rw [List.length_flatMap]
  apply List.sum_le_sum
  intro queue _
  exact List.length_take_le _ _

theorem length_round_le (queues : List (Queue κ α)) :
    ∀ round ∈ rounds queues, round.length ≤ totalQuantum queues := by
  induction queues using rounds_induction with
  | hempty queues h =>
    rw [rounds_of_empty h]
    intro round hmem
    cases hmem
  | hround queues h ih =>
    rw [rounds_of_waiting h]
    rw [totalQuantum_rest] at ih
    intro round hmem
    rcases List.mem_cons.mp hmem with rfl | hlater
    · exact length_served_le queues
    · exact ih round hlater

/-- Each queue has the items of its key, and no two queues have the same. -/
structure Keyed (keyOf : α → κ) (queues : List (Queue κ α)) : Prop where
  items : ∀ queue ∈ queues, ∀ item ∈ queue.items, keyOf item = queue.key
  distinct : (queues.map Queue.key).Nodup

variable {keyOf : α → κ} {queues : List (Queue κ α)}

theorem Keyed.rest (h : Keyed keyOf queues) : Keyed keyOf (afterRound queues) where
  items := by
    intro queue hmem item hitem
    obtain ⟨whole, hwhole, rfl⟩ := List.mem_map.mp hmem
    exact h.items whole hwhole item (List.mem_of_mem_drop hitem)
  distinct := by
    rw [afterRound, List.map_map]
    exact h.distinct

theorem Keyed.filter_flatMap [DecidableEq κ] (h : Keyed keyOf queues)
    {give : Queue κ α → List α} (hgive : ∀ queue, give queue ⊆ queue.items) {queue : Queue κ α}
    (hmem : queue ∈ queues) :
    (queues.flatMap give).filter (fun item => decide (keyOf item = queue.key)) = give queue := by
  induction queues with
  | nil => cases hmem
  | cons first queues ih =>
    have hrest : Keyed keyOf queues :=
      ⟨fun queue hqueue => h.items queue (List.mem_cons_of_mem _ hqueue), h.distinct.of_cons⟩
    have hdifferent : ∀ other ∈ queues, other.key ≠ first.key := by
      intro other hother hsame
      apply (List.nodup_cons.mp h.distinct).1
      rw [← hsame]
      exact List.mem_map_of_mem hother
    rw [List.flatMap_cons, List.filter_append]
    rcases List.mem_cons.mp hmem with rfl | hlater
    · have hown : (give queue).filter (fun item => decide (keyOf item = queue.key)) =
          give queue := by
        rw [List.filter_eq_self]
        intro item hitem
        exact decide_eq_true (h.items queue hmem item (hgive queue hitem))
      have hothers : (queues.flatMap give).filter
          (fun item => decide (keyOf item = queue.key)) = [] := by
        rw [List.filter_eq_nil_iff]
        intro item hitem hkey
        obtain ⟨other, hother, hitem⟩ := List.mem_flatMap.mp hitem
        apply hdifferent other hother
        rw [← hrest.items other hother item (hgive other hitem)]
        exact of_decide_eq_true hkey
      rw [hown, hothers, List.append_nil]
    · have hfirst : (give first).filter (fun item => decide (keyOf item = queue.key)) = [] := by
        rw [List.filter_eq_nil_iff]
        intro item hitem hkey
        apply hdifferent queue hlater
        rw [← h.items first List.mem_cons_self item (hgive first hitem)]
        exact (of_decide_eq_true hkey).symm
      rw [hfirst, List.nil_append]
      exact ih hrest hlater

theorem Keyed.filter_drain [DecidableEq κ] (h : Keyed keyOf queues) {queue : Queue κ α}
    (hmem : queue ∈ queues) :
    (drain queues).filter (fun item => decide (keyOf item = queue.key)) = queue.items := by
  induction queues using rounds_induction generalizing queue with
  | hempty queues hempty =>
    rw [drain_of_empty hempty, items_nil_of_empty hempty hmem]
    rfl
  | hround queues hwaiting ih =>
    rw [drain_of_waiting hwaiting, List.filter_append,
      h.filter_flatMap Queue.served_subset hmem]
    have hrest := ih h.rest (List.mem_map_of_mem hmem)
    change List.filter (fun item => decide (keyOf item = queue.key)) _ = _ at hrest
    rw [hrest, Queue.served_append_rest]

theorem Keyed.served_in_round (h : Keyed keyOf queues) {before later : List (List α)}
    {round : List α} (hrounds : rounds queues = before ++ round :: later) {item : α}
    (hitem : item ∈ later.flatten) : ∃ other ∈ round, keyOf other = keyOf item := by
  induction queues using rounds_induction generalizing before with
  | hempty queues hempty =>
    rw [rounds_of_empty hempty] at hrounds
    exact absurd hrounds (by simp)
  | hround queues hwaiting ih =>
    rw [rounds_of_waiting hwaiting] at hrounds
    cases before with
    | nil =>
      obtain ⟨rfl, rfl⟩ := List.cons.inj hrounds
      obtain ⟨rest, hrest, hitem⟩ := mem_drain.mp hitem
      obtain ⟨queue, hmem, rfl⟩ := List.mem_map.mp hrest
      have hitem : item ∈ queue.items := List.mem_of_mem_drop hitem
      obtain ⟨other, hother⟩ :=
        List.exists_mem_of_ne_nil _ (Queue.served_ne_nil (List.ne_nil_of_mem hitem))
      refine ⟨other, List.mem_flatMap.mpr ⟨queue, hmem, hother⟩, ?_⟩
      rw [h.items queue hmem other (queue.served_subset hother), h.items queue hmem item hitem]
    | cons first before => exact ih h.rest (List.cons.inj hrounds).2

theorem Keyed.served_first (h : Keyed keyOf queues) {item : α} (hitem : item ∈ drain queues) :
    ∃ other ∈ (drain queues).take (totalQuantum queues), keyOf other = keyOf item := by
  obtain ⟨queue, hmem, hitem⟩ := mem_drain.mp hitem
  have hne := List.ne_nil_of_mem hitem
  obtain ⟨other, hother⟩ := List.exists_mem_of_ne_nil _ (Queue.served_ne_nil hne)
  refine ⟨other, ?_, ?_⟩
  · rw [drain_of_waiting (anyWaiting_of_ne_nil hmem hne), List.take_append,
      List.take_of_length_le (length_served_le queues)]
    exact List.mem_append_left _ (List.mem_flatMap.mpr ⟨queue, hmem, hother⟩)
  · rw [h.items queue hmem other (queue.served_subset hother), h.items queue hmem item hitem]

end Machine
