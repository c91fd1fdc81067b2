import Mathlib.Data.List.Pairwise
import Mathlib.Logic.Function.Basic

/-!
# Registers

A register keeps for each key the image of the first record entered under it, and refuses a later
record of the key whose image does not agree with the one kept.
-/

namespace Machine

variable {ρ κ ι σ : Type*}

def Functional (key : ρ → κ) (image : ρ → ι) (records : List ρ) : Prop :=
  ∀ a ∈ records, ∀ b ∈ records, key a = key b → image a = image b

theorem Functional.mono {key : ρ → κ} {image : ρ → ι} {records others : List ρ}
    (h : Functional key image others) (hsubset : records ⊆ others) :
    Functional key image records := by
  intro a ha b hb hkey
  exact h a (hsubset ha) b (hsubset hb) hkey

theorem pairwise_iff_functional {key : ρ → κ} {image : ρ → ι} {agrees : ρ → ρ → Prop}
    {records : List ρ}
    (hagrees : ∀ a ∈ records, ∀ b ∈ records, key a = key b → (agrees a b ↔ image a = image b)) :
    records.Pairwise (fun a b => key a = key b → agrees a b) ↔ Functional key image records := by
  constructor
  · intro h
    have hequal : records.Pairwise fun a b => key a = key b → image a = image b := by
      refine h.imp_of_mem fun ha hb hab hkey => ?_
      exact (hagrees _ ha _ hb hkey).mp (hab hkey)
    have hsymm : Std.Symm fun a b => key a = key b → image a = image b := by
      constructor
      intro a b hab hkey
      exact (hab hkey.symm).symm
    intro a ha b hb
    exact hequal.forall_of_forall (fun _ _ _ => rfl) ha hb
  · intro h
    apply List.pairwise_of_forall_mem_list
    intro a ha b hb hkey
    exact (hagrees a ha b hb hkey).mpr (h a ha b hb hkey)

section Enter

variable [DecidableEq κ] {valid : ρ → Bool} {key : ρ → κ} {image : ρ → ι} {agrees : ι → ι → Bool}

def enter (valid : ρ → Bool) (key : ρ → κ) (image : ρ → ι) (agrees : ι → ι → Bool)
    (kept : κ → Option ι) (record : ρ) : Option (κ → Option ι) :=
  if valid record then
    match kept (key record) with
    | none => some (Function.update kept (key record) (some (image record)))
    | some first => if agrees first (image record) then some kept else none
  else none

private theorem isSome_foldlM_kept
    (hagrees : ∀ a b c, agrees a b = true → agrees a c = true → agrees b c = true)
    (records : List ρ) (kept : κ → Option ι) :
    (records.foldlM (enter valid key image agrees) kept).isSome ↔
      (∀ r ∈ records, valid r = true) ∧
      (∀ r ∈ records, ∀ first, kept (key r) = some first → agrees first (image r) = true) ∧
      records.Pairwise fun a b => key a = key b → agrees (image a) (image b) = true := by
  induction records generalizing kept with
  | nil => simp
  | cons record rest ih =>
    rw [List.foldlM_cons, List.forall_mem_cons, List.forall_mem_cons, List.pairwise_cons]
    by_cases hvalid : valid record = true
    · cases hkept : kept (key record) with
      | none =>
        have henter : enter valid key image agrees kept record =
            some (Function.update kept (key record) (some (image record))) := by
          simp [enter, hvalid, hkept]
        rw [henter]
        rw [Option.bind_eq_bind, Option.bind_some, ih]
        constructor
        · rintro ⟨hrest, hold, hpairs⟩
          refine ⟨⟨hvalid, hrest⟩, ⟨nofun, fun r hr first hfirst => ?_⟩, fun r hr hkey => ?_, hpairs⟩
          · have hne : key r ≠ key record := by
              intro heq
              rw [heq, hkept] at hfirst
              cases hfirst
            exact hold r hr first (by rw [Function.update_of_ne hne, hfirst])
          · exact hold r hr _ (by rw [← hkey, Function.update_self])
        · rintro ⟨⟨-, hrest⟩, ⟨-, hold⟩, hrecord, hpairs⟩
          refine ⟨hrest, fun r hr first hfirst => ?_, hpairs⟩
          by_cases hkey : key r = key record
          · rw [hkey, Function.update_self] at hfirst
            exact Option.some.inj hfirst ▸ hrecord r hr hkey.symm
          · rw [Function.update_of_ne hkey] at hfirst
            exact hold r hr first hfirst
      | some first =>
        by_cases hfirst : agrees first (image record) = true
        · have henter : enter valid key image agrees kept record = some kept := by
            simp [enter, hvalid, hkept, hfirst]
          rw [henter]
          rw [Option.bind_eq_bind, Option.bind_some, ih]
          constructor
          · rintro ⟨hrest, hold, hpairs⟩
            refine ⟨⟨hvalid, hrest⟩, ⟨?_, hold⟩, fun r hr hkey => ?_, hpairs⟩
            · rintro other ⟨⟩
              exact hfirst
            · -- both agree with the one that is kept
              exact hagrees first _ _ hfirst (hold r hr first (by rw [← hkey, hkept]))
          · rintro ⟨⟨-, hrest⟩, ⟨-, hold⟩, -, hpairs⟩
            exact ⟨hrest, hold, hpairs⟩
        · have henter : enter valid key image agrees kept record = none := by
            simp [enter, hvalid, hkept, hfirst]
          rw [henter]
          constructor
          · intro h
            cases h
          · rintro ⟨-, ⟨hold, -⟩, -⟩
            exact absurd (hold first rfl) hfirst
    · have henter : enter valid key image agrees kept record = none := by
        simp [enter, hvalid]
      rw [henter]
      constructor
      · intro h
        cases h
      · rintro ⟨⟨hrecord, -⟩, -⟩
        exact absurd hrecord hvalid

theorem isSome_foldlM_enter
    (hagrees : ∀ a b c, agrees a b = true → agrees a c = true → agrees b c = true)
    (records : List ρ) :
    (records.foldlM (enter valid key image agrees) fun _ => none).isSome ↔
      (∀ r ∈ records, valid r = true) ∧
      records.Pairwise fun a b => key a = key b → agrees (image a) (image b) = true := by
  rw [isSome_foldlM_kept hagrees]
  constructor
  · rintro ⟨hvalid, -, hpairs⟩
    exact ⟨hvalid, hpairs⟩
  · rintro ⟨hvalid, hpairs⟩
    refine ⟨hvalid, ?_, hpairs⟩
    intro r hr first hfirst
    cases hfirst

theorem isSome_foldlM_of_refines {remember : σ → ρ → Option σ} {lookup : σ → κ → Option ι}
    (hrefines : ∀ s record,
      (remember s record).map lookup = enter valid key image agrees (lookup s) record)
    (records : List ρ) (s : σ) :
    (records.foldlM remember s).isSome =
      (records.foldlM (enter valid key image agrees) (lookup s)).isSome := by
  induction records generalizing s with
  | nil => rfl
  | cons record rest ih =>
    rw [List.foldlM_cons, List.foldlM_cons, ← hrefines]
    cases hremember : remember s record with
    | none => rfl
    | some t => exact ih t

end Enter

end Machine
