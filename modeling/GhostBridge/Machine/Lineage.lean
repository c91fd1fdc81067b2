import Mathlib.Data.List.Basic

/-!
# Lineages

Records that may name a parent.
-/

namespace Machine

variable {ι α : Type}

inductive Lineage (records : ι → Option α) (parent : α → Option ι) : α → List α → Prop
  | root {a : α} (hroot : parent a = none) : Lineage records parent a [a]
  | child {a b : α} {i : ι} {chain : List α} (hparent : parent a = some i)
      (hrecord : records i = some b) (hchain : Lineage records parent b chain) :
      Lineage records parent a (chain ++ [a])

/-- Records stay as they are while others come. -/
def Extends (records more : ι → Option α) : Prop := ∀ i a, records i = some a → more i = some a

def Rooted (records : ι → Option α) (parent : α → Option ι) : Prop :=
  ∀ i a, records i = some a → ∃ chain, Lineage records parent a chain

variable {records more : ι → Option α} {parent : α → Option ι} {a : α} {chain chain' : List α}

theorem Lineage.mono (h : Lineage records parent a chain) (hextends : Extends records more) :
    Lineage more parent a chain := by
  induction h with
  | root hroot => exact .root hroot
  | child hparent hrecord _ ih => exact .child hparent (hextends _ _ hrecord) ih

theorem Lineage.unique (h : Lineage records parent a chain)
    (h' : Lineage records parent a chain') : chain = chain' := by
  induction h generalizing chain' with
  | root hroot =>
    cases h' with
    | root => rfl
    | child hparent => rw [hroot] at hparent; cases hparent
  | child hparent hrecord _ ih =>
    cases h' with
    | root hroot => rw [hparent] at hroot; cases hroot
    | child hparent' hrecord' hchain' =>
      obtain rfl := Option.some.inj (hparent.symm.trans hparent')
      obtain rfl := Option.some.inj (hrecord.symm.trans hrecord')
      rw [ih hchain']

theorem Lineage.getLast? (h : Lineage records parent a chain) : chain.getLast? = some a := by
  cases h <;> simp

theorem Lineage.ne_nil (h : Lineage records parent a chain) : chain ≠ [] := by
  rintro rfl
  cases h.getLast?

end Machine
