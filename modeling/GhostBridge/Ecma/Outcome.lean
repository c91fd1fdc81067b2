import Mathlib.Data.List.Forall2
import Mathlib.Tactic.Common

/-!
# Outcomes of code that throws

A run of sequential code returns a value or throws.
-/

namespace Ecma

variable {ε α β : Type}

/-- `if (condition) throw failure`. -/
def throwWhen (condition : Bool) (failure : ε) : Except ε Unit :=
  if condition then .error failure else .ok ()

/-- `if (condition) step`. -/
def stepWhen (condition : Bool) (step : Except ε Unit) : Except ε Unit :=
  if condition then step else .ok ()

def orThrow (failure : ε) : Option α → Except ε α
  | some a => .ok a
  | none => .error failure

@[simp] theorem throwWhen_ok {condition : Bool} {failure : ε} {u : Unit} :
    throwWhen condition failure = .ok u ↔ condition = false := by
  cases condition <;> simp [throwWhen]

@[simp] theorem stepWhen_ok {condition : Bool} {step : Except ε Unit} {u : Unit} :
    stepWhen condition step = .ok u ↔ (condition = true → step = .ok ()) := by
  cases condition <;> simp [stepWhen]

@[simp] theorem orThrow_ok {failure : ε} {o : Option α} {a : α} :
    orThrow failure o = .ok a ↔ o = some a := by
  cases o <;> simp [orThrow]

@[simp] theorem bind_ok {x : Except ε α} {f : α → Except ε β} {b : β} :
    (x >>= f) = .ok b ↔ ∃ a, x = .ok a ∧ f a = .ok b := by
  cases x <;> simp [bind, Except.bind]

@[simp] theorem ok_bind {a : α} {f : α → Except ε β} : (.ok a >>= f) = f a := rfl

@[simp] theorem exists_unit {p : Unit → Prop} : (∃ u, p u) ↔ p () :=
  ⟨fun ⟨_, h⟩ => h, fun h => ⟨(), h⟩⟩

@[simp] theorem pure_ok {a b : α} : (pure a : Except ε α) = .ok b ↔ a = b := by
  simp [pure, Except.pure]

@[simp] theorem map_ok {x : Except ε α} {f : α → β} {b : β} :
    (f <$> x) = .ok b ↔ ∃ a, x = .ok a ∧ f a = b := by
  cases x <;> simp [Functor.map, Except.map]

@[simp] theorem throw_ok {failure : ε} {a : α} : (throw failure : Except ε α) ≠ .ok a :=
  fun h => nomatch h

theorem exists_of_isOk {x : Except ε α} (h : x.isOk = true) : ∃ a, x = .ok a := by
  cases x with
  | ok a => exact ⟨a, rfl⟩
  | error e => cases h

@[simp] theorem toOption_ok {x : Except ε α} {a : α} : x.toOption = some a ↔ x = .ok a := by
  cases x <;> simp [Except.toOption]

theorem mapM_ok {f : α → Except ε β} {as : List α} {bs : List β} :
    as.mapM f = .ok bs ↔ List.Forall₂ (fun a b => f a = .ok b) as bs := by
  induction as generalizing bs with
  | nil => cases bs <;> simp
  | cons a as ih =>
    rw [List.mapM_cons]
    cases bs <;> simp [ih]

theorem mapM_eq_map {f : α → Except ε β} {g : α → β} {as : List α}
    (h : ∀ a ∈ as, f a = .ok (g a)) : as.mapM f = .ok (as.map g) := by
  rw [mapM_ok, List.forall₂_map_right_iff]
  exact List.forall₂_same.mpr h

end Ecma
