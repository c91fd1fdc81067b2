import GhostBridge.Ecma.Outcome

/-!
# Operations that throw

An operation of an object returns a value or throws, and leaves the object in a state either way:
what it has changed before it throws stays changed.
-/

namespace Machine

open Ecma

variable {σ ε α β : Type}

abbrev Operation (σ ε α : Type) := ExceptT ε (StateM σ) α

def perform (x : Operation σ ε α) (s : σ) : Except ε α × σ := (ExceptT.run x).run s

namespace Operation

variable {x : Operation σ ε α} {f : α → Operation σ ε β} {s t : σ} {e : ε} {a : α} {b : β}

@[simp] theorem perform_pure : perform (pure a : Operation σ ε α) s = (.ok a, s) := rfl

@[simp] theorem perform_lift (outcome : Except ε α) :
    perform (liftM outcome : Operation σ ε α) s = (outcome, s) := rfl

@[simp] theorem perform_get : perform (get : Operation σ ε σ) s = (.ok s, s) := rfl

@[simp] theorem perform_modify (g : σ → σ) :
    perform (modify g : Operation σ ε PUnit) s = (.ok ⟨⟩, g s) := rfl

theorem perform_bind (x : Operation σ ε α) (f : α → Operation σ ε β) (s : σ) :
    perform (x >>= f) s =
      match perform x s with
      | (.ok a, t) => perform (f a) t
      | (.error e, t) => (.error e, t) := by
  unfold perform
  rw [ExceptT.run_bind]
  change StateT.run (ExceptT.run x >>= _) s = _
  rw [StateT.run_bind]
  change (match StateT.run (ExceptT.run x) s with
    | (a, t) => StateT.run _ t) = _
  rcases StateT.run (ExceptT.run x) s with ⟨outcome, t⟩
  cases outcome <;> rfl

theorem perform_bind_ok (h : perform x s = (.ok a, t)) :
    perform (x >>= f) s = perform (f a) t := by
  rw [perform_bind, h]

theorem perform_bind_error (h : perform x s = (.error e, t)) :
    perform (x >>= f) s = (.error e, t) := by
  rw [perform_bind, h]

theorem bind_returns : perform (x >>= f) s = (.ok b, t) ↔
    ∃ a u, perform x s = (.ok a, u) ∧ perform (f a) u = (.ok b, t) := by
  rcases h : perform x s with ⟨outcome, u⟩
  cases outcome with
  | ok a =>
    rw [perform_bind_ok h]
    simp
  | error e =>
    rw [perform_bind_error h]
    simp

@[simp] theorem perform_lift_bind_ok (h : (outcome : Except ε α) = .ok a) :
    perform (liftM outcome >>= f) s = perform (f a) s :=
  perform_bind_ok (by rw [perform_lift, h])

def ReadOnly (x : Operation σ ε α) : Prop := ∀ s, (perform x s).2 = s

theorem readOnly_pure (a : α) : ReadOnly (pure a : Operation σ ε α) := fun _ => rfl

theorem readOnly_lift (outcome : Except ε α) : ReadOnly (liftM outcome : Operation σ ε α) :=
  fun _ => rfl

theorem readOnly_get : ReadOnly (get : Operation σ ε σ) := fun _ => rfl

theorem ReadOnly.bind (hx : ReadOnly x) (hf : ∀ a, ReadOnly (f a)) : ReadOnly (x >>= f) := by
  intro s
  have hfirst := hx s
  rcases h : perform x s with ⟨outcome, t⟩
  rw [h] at hfirst
  change t = s at hfirst
  subst hfirst
  cases outcome with
  | ok a =>
    rw [perform_bind_ok h]
    exact hf a t
  | error e => rw [perform_bind_error h]

end Operation

end Machine
