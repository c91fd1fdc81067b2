import Mathlib.Data.List.Nodup
import Mathlib.Data.List.Perm.Subperm

/-!
# Maps

A `Map` lists its entries in the order in which their keys were first added, and has one entry for
each key.
-/

namespace Ecma

/-- The entries of a `Map`. -/
structure OrderedMap (κ α : Type) [BEq κ] where
  entries : List (κ × α)
  distinct : entries.Pairwise fun a b => (a.1 == b.1) = false

namespace OrderedMap

variable {κ α : Type}

/-- `while (size > maximum) delete(first key)`. -/
def dropOldest (maximum : Nat) : List (κ × α) → List (κ × α)
  | [] => []
  | e :: es => if maximum < es.length + 1 then dropOldest maximum es else e :: es

theorem dropOldest_suffix (maximum : Nat) (es : List (κ × α)) : dropOldest maximum es <:+ es := by
  induction es with
  | nil => exact List.suffix_rfl
  | cons e es ih =>
    rw [dropOldest]
    split
    · exact ih.trans (List.suffix_cons e es)
    · exact List.suffix_rfl

theorem length_dropOldest (maximum : Nat) (es : List (κ × α)) :
    (dropOldest maximum es).length ≤ maximum := by
  induction es with
  | nil => exact Nat.zero_le _
  | cons e es ih =>
    rw [dropOldest]
    split
    · exact ih
    · next h => simpa using Nat.le_of_not_lt h

theorem dropOldest_of_le {maximum : Nat} {es : List (κ × α)} (h : es.length ≤ maximum) :
    dropOldest maximum es = es := by
  cases es with
  | nil => rfl
  | cons e es =>
    rw [dropOldest, if_neg]
    simpa using h

theorem mem_dropOldest_concat {maximum : Nat} (h : 1 ≤ maximum) (es : List (κ × α)) (e : κ × α) :
    e ∈ dropOldest maximum (es ++ [e]) := by
  induction es with
  | nil => simp [dropOldest, Nat.not_lt.mpr h]
  | cons f es ih =>
    rw [List.cons_append, dropOldest]
    split
    · exact ih
    · simp

section Operations

variable [BEq κ]

instance [DecidableEq κ] [DecidableEq α] : DecidableEq (OrderedMap κ α) := fun m n =>
  decidable_of_iff (m.entries = n.entries) (by cases m; cases n; simp)

def empty : OrderedMap κ α := ⟨[], .nil⟩

def size (m : OrderedMap κ α) : Nat := m.entries.length

def get? (m : OrderedMap κ α) (key : κ) : Option α :=
  (m.entries.find? fun e => e.1 == key).map Prod.snd

def has (m : OrderedMap κ α) (key : κ) : Bool := m.entries.any fun e => e.1 == key

def putValue (key : κ) (value : α) (e : κ × α) : κ × α :=
  if e.1 == key then (e.1, value) else e

@[simp] theorem putValue_fst (key : κ) (value : α) (e : κ × α) : (putValue key value e).1 = e.1 := by
  unfold putValue
  split <;> rfl

def set (m : OrderedMap κ α) (key : κ) (value : α) : OrderedMap κ α :=
  if h : m.has key = true then
    ⟨m.entries.map (putValue key value), by
      rw [List.pairwise_map]
      simpa using m.distinct⟩
  else
    ⟨m.entries ++ [(key, value)], by
      rw [List.pairwise_append]
      refine ⟨m.distinct, List.pairwise_singleton _ _, fun e he f hf => ?_⟩
      obtain rfl := List.mem_singleton.mp hf
      simp only [has, List.any_eq_true, not_exists, not_and] at h
      exact Bool.eq_false_iff.mpr (h e he)⟩

def filter (m : OrderedMap κ α) (p : κ × α → Bool) : OrderedMap κ α :=
  ⟨m.entries.filter p, m.distinct.sublist List.filter_sublist⟩

def delete (m : OrderedMap κ α) (key : κ) : OrderedMap κ α := m.filter fun e => !(e.1 == key)

def trim (m : OrderedMap κ α) (maximum : Nat) : OrderedMap κ α :=
  ⟨dropOldest maximum m.entries, m.distinct.sublist (dropOldest_suffix maximum m.entries).sublist⟩

/-- `new Map(entries)`. -/
def ofEntries (entries : List (κ × α)) : OrderedMap κ α :=
  entries.foldl (fun m e => m.set e.1 e.2) empty

theorem size_set (m : OrderedMap κ α) (key : κ) (value : α) :
    (m.set key value).size = if m.has key then m.size else m.size + 1 := by
  unfold set size
  split <;> simp_all

theorem size_trim_le (m : OrderedMap κ α) (maximum : Nat) : (m.trim maximum).size ≤ maximum :=
  length_dropOldest maximum m.entries

theorem size_filter_le (m : OrderedMap κ α) (p : κ × α → Bool) : (m.filter p).size ≤ m.size :=
  List.length_filter_le _ _

theorem ofEntries_of_size {entries : List (κ × α)} (h : (ofEntries entries).size = entries.length) :
    (ofEntries entries).entries = entries := by
  have hfold (m : OrderedMap κ α) (es : List (κ × α)) :
      (es.foldl (fun m e => m.set e.1 e.2) m).size ≤ m.size + es.length ∧
        ((es.foldl (fun m e => m.set e.1 e.2) m).size = m.size + es.length →
          (es.foldl (fun m e => m.set e.1 e.2) m).entries = m.entries ++ es) := by
    induction es generalizing m with
    | nil => simp
    | cons e es ih =>
      obtain ⟨hle, heq⟩ := ih (m.set e.1 e.2)
      have hsize := size_set m e.1 e.2
      rw [List.foldl_cons, List.length_cons]
      split at hsize
      · exact ⟨by omega, fun hfull => by omega⟩
      · next hnew =>
        refine ⟨by omega, fun hfull => ?_⟩
        rw [heq (by omega)]
        simp [set, hnew]
  have hempty : (empty : OrderedMap κ α).size = 0 := rfl
  simpa [ofEntries, empty] using (hfold empty entries).2 (by rw [hempty]; simpa [ofEntries] using h)

theorem trim_of_size_le {m : OrderedMap κ α} {maximum : Nat} (h : m.size ≤ maximum) :
    m.trim maximum = m := by
  obtain ⟨entries, distinct⟩ := m
  simp [trim, dropOldest_of_le (show entries.length ≤ maximum from h)]

theorem has_eq_isSome (m : OrderedMap κ α) (key : κ) : m.has key = (m.get? key).isSome := by
  rw [has, get?, Option.isSome_map, List.isSome_find?]

theorem mem_of_get? {m : OrderedMap κ α} {key : κ} {value : α} (h : m.get? key = some value) :
    ∃ k, (k, value) ∈ m.entries ∧ (k == key) = true := by
  rw [get?, Option.map_eq_some_iff] at h
  obtain ⟨e, he, rfl⟩ := h
  have hkey := List.find?_some he
  exact ⟨e.1, List.mem_of_find?_eq_some he, hkey⟩

end Operations

section Lawful

variable [BEq κ] [LawfulBEq κ] (m : OrderedMap κ α) (key : κ)

theorem nodup_keys : (m.entries.map Prod.fst).Nodup := by
  rw [List.Nodup, List.pairwise_map]
  exact m.distinct.imp ne_of_beq_false

theorem get?_eq_some {m : OrderedMap κ α} {key : κ} {value : α} :
    m.get? key = some value ↔ (key, value) ∈ m.entries := by
  constructor
  · intro h
    obtain ⟨k, hmem, hkey⟩ := mem_of_get? h
    rwa [← eq_of_beq hkey]
  · intro hmem
    have hsame {e : κ × α} (he : e ∈ m.entries) (hkey : e.1 = key) : e = (key, value) :=
      List.inj_on_of_nodup_map m.nodup_keys he hmem hkey
    cases hfind : m.entries.find? fun e => e.1 == key with
    | none => exact absurd (beq_self_eq_true key) (List.find?_eq_none.mp hfind _ hmem)
    | some e =>
      have he := hsame (List.mem_of_find?_eq_some hfind) (by simpa using List.find?_some hfind)
      simp [get?, hfind, he]

theorem get?_ext {m n : OrderedMap κ α} {k l : κ}
    (h : ∀ value, (k, value) ∈ m.entries ↔ (l, value) ∈ n.entries) : m.get? k = n.get? l :=
  Option.ext fun value => by rw [get?_eq_some, get?_eq_some, h]

theorem mem_set {m : OrderedMap κ α} {key : κ} {value : α} {e : κ × α} :
    e ∈ (m.set key value).entries ↔ e = (key, value) ∨ (e.1 ≠ key ∧ e ∈ m.entries) := by
  have hput {f : κ × α} : putValue key value f = if f.1 == key then (key, value) else f := by
    unfold putValue
    split
    · next h => rw [eq_of_beq h]
    · rfl
  unfold set
  split
  · next h =>
    simp only [has, List.any_eq_true, beq_iff_eq] at h
    simp only [List.mem_map, hput]
    constructor
    · rintro ⟨f, hf, rfl⟩
      split <;> simp_all
    · rintro (rfl | ⟨hne, he⟩)
      · obtain ⟨f, hf, hkey⟩ := h
        exact ⟨f, hf, if_pos (beq_iff_eq.mpr hkey)⟩
      · exact ⟨e, he, if_neg (by simpa using hne)⟩
  · next h =>
    simp only [has, List.any_eq_true, beq_iff_eq, not_exists, not_and] at h
    rw [List.mem_append, List.mem_singleton, or_comm]
    exact or_congr_right ⟨fun he => ⟨h e he, he⟩, And.right⟩

theorem get?_set_self (value : α) : (m.set key value).get? key = some value :=
  get?_eq_some.mpr (mem_set.mpr (.inl rfl))

theorem get?_set_of_ne {key other : κ} (h : other ≠ key) (value : α) :
    (m.set key value).get? other = m.get? other :=
  get?_ext fun v => by simp [mem_set, h]

theorem get?_filter (p : κ × α → Bool) :
    (m.filter p).get? key = (m.get? key).filter fun value => p (key, value) :=
  Option.ext fun v => by
    rw [get?_eq_some, Option.filter_eq_some_iff, get?_eq_some]
    exact List.mem_filter

theorem get?_delete_of_ne {key other : κ} (h : other ≠ key) :
    (m.delete key).get? other = m.get? other := by
  have htest : (!(other == key)) = true := by simpa using h
  rw [delete, get?_filter]
  cases m.get? other <;> simp [htest]

theorem get?_delete_self : (m.delete key).get? key = none := by
  rw [delete, get?_filter]
  cases m.get? key <;> simp

theorem size_le_of_keys {m : OrderedMap κ α} {keys : List κ} (h : ∀ e ∈ m.entries, e.1 ∈ keys) :
    m.size ≤ keys.length := by
  have hsub : m.entries.map Prod.fst ⊆ keys := fun key hkey => by
    obtain ⟨e, he, rfl⟩ := List.mem_map.mp hkey
    exact h e he
  simpa [size] using (m.nodup_keys.subperm hsub).length_le

theorem get?_trim_set_self {m : OrderedMap κ α} {maximum : Nat} (h : 1 ≤ maximum)
    (hsize : m.size ≤ maximum) (key : κ) (value : α) :
    ((m.set key value).trim maximum).get? key = some value := by
  by_cases hnew : m.has key = true
  · have hset : (m.set key value).size ≤ maximum := by rw [size_set, if_pos hnew]; exact hsize
    rw [trim_of_size_le hset, get?_set_self]
  · have hentries : (m.set key value).entries = m.entries ++ [(key, value)] := by
      rw [set, dif_neg hnew]
    rw [get?_eq_some]
    change (key, value) ∈ dropOldest maximum (m.set key value).entries
    rw [hentries]
    exact mem_dropOldest_concat h _ _

theorem get?_of_get?_trim {m : OrderedMap κ α} {maximum : Nat} {key : κ} {value : α}
    (h : (m.trim maximum).get? key = some value) : m.get? key = some value :=
  get?_eq_some.mpr ((dropOldest_suffix maximum m.entries).subset (get?_eq_some.mp h))

end Lawful

end OrderedMap

end Ecma
