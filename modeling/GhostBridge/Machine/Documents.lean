import GhostBridge.Ecma.OrderedMap
import Mathlib.Data.List.Sort

/-!
# Collections of documents

A collection keeps documents by their identifiers.
-/

namespace Machine

open Ecma

variable {κ δ : Type} [BEq κ]

/-- An order of documents; documents that come in neither order stay as they were inserted. -/
abbrev DocumentOrder (δ : Type) := δ → δ → Bool

def unordered : DocumentOrder δ := fun _ _ => false

namespace Collection

def first (before : DocumentOrder δ) : List (κ × δ) → Option (κ × δ)
  | [] => none
  | e :: es =>
    match first before es with
    | none => some e
    | some f => if before f.2 e.2 then some f else some e

def find (documents : OrderedMap κ δ) (filter : δ → Bool) (before : DocumentOrder δ) (limit : ℕ) :
    List δ :=
  (((documents.entries.map Prod.snd).filter filter).insertionSort fun a b => !before b a).take limit

def findEntry (documents : OrderedMap κ δ) (filter : δ → Bool) (before : DocumentOrder δ) :
    Option (κ × δ) :=
  first before (documents.entries.filter fun e => filter e.2)

def findOne (documents : OrderedMap κ δ) (filter : δ → Bool) (before : DocumentOrder δ) : Option δ :=
  (findEntry documents filter before).map Prod.snd

def findOneAndUpdate (documents : OrderedMap κ δ) (filter : δ → Bool) (before : DocumentOrder δ)
    (update : δ → δ) : Option δ × OrderedMap κ δ :=
  match findEntry documents filter before with
  | none => (none, documents)
  | some (id, document) => (some (update document), documents.set id (update document))

variable {documents : OrderedMap κ δ} {filter : δ → Bool} {before : DocumentOrder δ}

omit [BEq κ] in
theorem mem_of_first {es : List (κ × δ)} {e : κ × δ} (h : first before es = some e) : e ∈ es := by
  induction es with
  | nil => cases h
  | cons f es ih =>
    rw [first] at h
    split at h
    · exact Option.some.inj h ▸ List.mem_cons_self
    · next g hg =>
      split at h
      · exact List.mem_cons_of_mem f (ih (hg.trans h))
      · exact Option.some.inj h ▸ List.mem_cons_self

omit [BEq κ] in
theorem first_eq_none {es : List (κ × δ)} : first before es = none ↔ es = [] := by
  cases es with
  | nil => simp [first]
  | cons e es =>
    simp only [first, reduceCtorEq, iff_false]
    split
    · simp
    · split <;> simp

theorem mem_of_find {limit : ℕ} {document : δ} (h : document ∈ find documents filter before limit) :
    (∃ id, (id, document) ∈ documents.entries) ∧ filter document = true := by
  have hmem := (List.mem_insertionSort _).mp (List.mem_of_mem_take h)
  obtain ⟨hmem, hfilter⟩ := List.mem_filter.mp hmem
  obtain ⟨⟨id, d⟩, he, rfl⟩ := List.mem_map.mp hmem
  exact ⟨⟨id, he⟩, hfilter⟩

section Lawful

variable [LawfulBEq κ] {document : δ} {update : δ → δ}

theorem findEntry_some {id : κ} (h : findEntry documents filter before = some (id, document)) :
    documents.get? id = some document ∧ filter document = true := by
  obtain ⟨hmem, hfilter⟩ := List.mem_filter.mp (mem_of_first h)
  exact ⟨OrderedMap.get?_eq_some.mpr hmem, hfilter⟩

theorem findEntry_none : findEntry documents filter before = none ↔
    ∀ id document, documents.get? id = some document → filter document = false := by
  rw [findEntry, first_eq_none, List.filter_eq_nil_iff]
  constructor
  · intro h id document hget
    simpa using h (id, document) (OrderedMap.get?_eq_some.mp hget)
  · intro h e he
    simpa using h e.1 e.2 (OrderedMap.get?_eq_some.mpr he)

theorem findOne_some (h : findOne documents filter before = some document) :
    ∃ id, documents.get? id = some document ∧ filter document = true := by
  obtain ⟨⟨id, d⟩, he, rfl⟩ := Option.map_eq_some_iff.mp h
  exact ⟨id, findEntry_some he⟩

theorem get?_of_find {limit : ℕ} (h : document ∈ find documents filter before limit) :
    (∃ id, documents.get? id = some document) ∧ filter document = true := by
  obtain ⟨⟨id, hmem⟩, hfilter⟩ := mem_of_find h
  exact ⟨⟨id, OrderedMap.get?_eq_some.mpr hmem⟩, hfilter⟩

theorem findOneAndUpdate_cases (documents : OrderedMap κ δ) (filter : δ → Bool)
    (before : DocumentOrder δ) (update : δ → δ) :
    (findOneAndUpdate documents filter before update = (none, documents) ∧
      ∀ id document, documents.get? id = some document → filter document = false) ∨
    ∃ id document, documents.get? id = some document ∧ filter document = true ∧
      findOneAndUpdate documents filter before update =
        (some (update document), documents.set id (update document)) := by
  unfold findOneAndUpdate
  cases h : findEntry documents filter before with
  | none => exact .inl ⟨rfl, findEntry_none.mp h⟩
  | some e =>
    obtain ⟨hget, hfilter⟩ := findEntry_some h
    exact .inr ⟨e.1, e.2, hget, hfilter, rfl⟩

end Lawful

end Collection

end Machine
