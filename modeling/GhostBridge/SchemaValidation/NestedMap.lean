import GhostBridge.Ecma.OrderedMap
import Mathlib.Data.Fin.Tuple.Basic

/-!
# Maps of maps

A map that is reached through a path of keys in the maps above it.
-/

namespace GhostBridge.SchemaValidation

open Ecma

variable {κ α : Type} [BEq κ] [LawfulBEq κ]

/-- Maps of maps, of the given depth above the innermost. -/
def NestedMap (κ α : Type) [BEq κ] : ℕ → Type
  | 0 => OrderedMap κ α
  | depth + 1 => OrderedMap κ (NestedMap κ α depth)

def NestedMap.empty : (depth : ℕ) → NestedMap κ α depth
  | 0 => OrderedMap.empty
  | _ + 1 => OrderedMap.empty

def NestedMap.child {depth : ℕ} (root : NestedMap κ α (depth + 1)) (key : κ) : NestedMap κ α depth :=
  (OrderedMap.get? root key).getD (.empty depth)

def NestedMap.setChild {depth : ℕ} (root : NestedMap κ α (depth + 1)) (key : κ)
    (child : NestedMap κ α depth) : NestedMap κ α (depth + 1) :=
  OrderedMap.set root key child

@[simp] theorem NestedMap.child_setChild_self {depth : ℕ} (root : NestedMap κ α (depth + 1)) (key : κ)
    (child : NestedMap κ α depth) : (root.setChild key child).child key = child :=
  congrArg (Option.getD · _) (OrderedMap.get?_set_self _ _ _)

theorem NestedMap.child_setChild_of_ne {depth : ℕ} (root : NestedMap κ α (depth + 1)) {key other : κ}
    (hne : other ≠ key) (child : NestedMap κ α depth) :
    (root.setChild key child).child other = root.child other :=
  congrArg (Option.getD · _) (OrderedMap.get?_set_of_ne _ hne _)

/-- The innermost map of a path, whose missing maps are created, and what becomes of the root when
that map is changed in place. -/
def nestedMap : {depth : ℕ} → NestedMap κ α depth → (Fin depth → κ) →
    OrderedMap κ α × (OrderedMap κ α → NestedMap κ α depth)
  | 0, root, _ => (root, id)
  | depth + 1, root, keys =>
    let (current, changed) := nestedMap (root.child (keys 0)) (Fin.tail keys)
    (current, fun inner => root.setChild (keys 0) (changed inner))

def NestedMap.lookup {depth : ℕ} (root : NestedMap κ α depth) (key : (Fin depth → κ) × κ) :
    Option α :=
  (nestedMap root key.1).1.get? key.2

omit [LawfulBEq κ] in
@[simp] theorem NestedMap.lookup_empty (depth : ℕ) :
    (NestedMap.empty depth : NestedMap κ α depth).lookup = fun _ => none := by
  induction depth with
  | zero => rfl
  | succ depth ih =>
    funext key
    exact congrFun ih (Fin.tail key.1, key.2)

theorem nestedMap_changed_self {depth : ℕ} (root : NestedMap κ α depth) (path : Fin depth → κ)
    (inner : OrderedMap κ α) : (nestedMap ((nestedMap root path).2 inner) path).1 = inner := by
  induction depth with
  | zero => rfl
  | succ depth ih =>
    simp only [nestedMap]
    rw [NestedMap.child_setChild_self]
    exact ih _ _

theorem nestedMap_changed_of_ne {depth : ℕ} (root : NestedMap κ α depth)
    {path other : Fin depth → κ} (hne : other ≠ path) (inner : OrderedMap κ α) :
    (nestedMap ((nestedMap root path).2 inner) other).1 = (nestedMap root other).1 := by
  induction depth with
  | zero => exact absurd (Subsingleton.elim other path) hne
  | succ depth ih =>
    simp only [nestedMap]
    by_cases hhead : other 0 = path 0
    · have htail : Fin.tail other ≠ Fin.tail path := by
        intro htail
        apply hne
        rw [← Fin.cons_self_tail other, ← Fin.cons_self_tail path, hhead, htail]
      rw [hhead, NestedMap.child_setChild_self]
      exact ih _ htail
    · rw [NestedMap.child_setChild_of_ne root hhead]

theorem NestedMap.lookup_created {depth : ℕ} (root : NestedMap κ α depth) (path : Fin depth → κ) :
    ((nestedMap root path).2 (nestedMap root path).1).lookup = root.lookup := by
  funext key
  simp only [lookup]
  by_cases hpath : key.1 = path
  · rw [hpath, nestedMap_changed_self]
  · rw [nestedMap_changed_of_ne root hpath]

theorem NestedMap.lookup_set {depth : ℕ} (root : NestedMap κ α depth)
    (path : Fin depth → κ) (last : κ) (value : α)
    [DecidableEq ((Fin depth → κ) × κ)] :
    ((nestedMap root path).2 ((nestedMap root path).1.set last value)).lookup =
      Function.update root.lookup (path, last) (some value) := by
  funext key
  by_cases hkey : key = (path, last)
  · rw [hkey, Function.update_self]
    simp only [lookup]
    rw [nestedMap_changed_self, OrderedMap.get?_set_self]
  · rw [Function.update_of_ne hkey]
    simp only [lookup]
    by_cases hpath : key.1 = path
    · have hlast : key.2 ≠ last := fun hlast => hkey (Prod.ext hpath hlast)
      rw [hpath, nestedMap_changed_self, OrderedMap.get?_set_of_ne _ hlast]
    · rw [nestedMap_changed_of_ne root hpath]

end GhostBridge.SchemaValidation
