import Mathlib.Data.List.Induction

/-!
# Runs

A machine takes calls one after the other.
-/

namespace Machine

variable {σ ι : Type}

def after (step : σ → ι → σ) (s : σ) (calls : List ι) : σ := calls.foldl step s

def Guarded (step : σ → ι → σ) (guard : σ → ι → Prop) : σ → List ι → Prop
  | _, [] => True
  | s, call :: calls => guard s call ∧ Guarded step guard (step s call) calls

variable {step : σ → ι → σ} {guard : σ → ι → Prop} {I : σ → Prop} {s : σ} {calls : List ι}

@[simp] theorem after_nil : after step s [] = s := rfl

@[simp] theorem after_cons (call : ι) :
    after step s (call :: calls) = after step (step s call) calls := rfl

theorem after_append (before rest : List ι) :
    after step s (before ++ rest) = after step (after step s before) rest :=
  List.foldl_append

theorem after_concat (call : ι) : after step s (calls ++ [call]) = step (after step s calls) call :=
  after_append calls [call]

theorem guarded_append (before rest : List ι) :
    Guarded step guard s (before ++ rest) ↔
      Guarded step guard s before ∧ Guarded step guard (after step s before) rest := by
  induction before generalizing s with
  | nil => simp [Guarded]
  | cons call before ih => simp only [List.cons_append, Guarded, after_cons, ih, and_assoc]

theorem guarded_of_forall (h : ∀ call ∈ calls, ∀ s, guard s call) : Guarded step guard s calls := by
  induction calls generalizing s with
  | nil => trivial
  | cons call calls ih =>
    exact ⟨h call List.mem_cons_self s, ih fun c hc => h c (List.mem_cons_of_mem call hc)⟩

theorem Guarded.and {other : σ → ι → Prop} (h : Guarded step guard s calls)
    (hother : Guarded step other s calls) :
    Guarded step (fun s call => guard s call ∧ other s call) s calls := by
  induction calls generalizing s with
  | nil => trivial
  | cons call calls ih => exact ⟨⟨h.1, hother.1⟩, ih h.2 hother.2⟩

theorem Guarded.after_induction (hguard : Guarded step guard s calls) (hs : I s)
    (hstep : ∀ s call, I s → guard s call → I (step s call)) : I (after step s calls) := by
  induction calls generalizing s with
  | nil => exact hs
  | cons call calls ih => exact ih hguard.2 (hstep s call hs hguard.1)

theorem after_induction (hs : I s) (hstep : ∀ s call, I s → call ∈ calls → I (step s call)) :
    I (after step s calls) :=
  (guarded_of_forall fun _ hc _ => hc : Guarded step (fun _ call => call ∈ calls) s calls)
    |>.after_induction hs hstep

theorem after_relates {R : σ → σ → Prop} (hrefl : ∀ s, R s s)
    (htrans : ∀ s t u, R s t → R t u → R s u) (hstep : ∀ s call, R s (step s call)) :
    R s (after step s calls) :=
  after_induction (I := R s) (hrefl s) fun t call ht _ => htrans s t _ ht (hstep t call)

theorem before_or_after {before before' rest rest' : List ι} {call call' : ι}
    (h : before ++ call :: rest = before' ++ call' :: rest') :
    before = before' ∨ before ++ [call] <+: before' ∨ before' ++ [call'] <+: before := by
  rcases List.append_eq_append_iff.mp h with ⟨between, rfl, hrest⟩ | ⟨between, rfl, hrest⟩
  · cases between with
    | nil => exact .inl (List.append_nil before).symm
    | cons first between =>
      obtain rfl : call = first := (List.cons.inj hrest).1
      exact .inr (.inl ⟨between, by simp⟩)
  · cases between with
    | nil => exact .inl (List.append_nil before')
    | cons first between =>
      obtain rfl : call' = first := (List.cons.inj hrest).1
      exact .inr (.inr ⟨between, by simp⟩)

/-- A property that comes to hold during a run has a last call that established it, and holds
from then on. -/
theorem exists_last_entry {P : σ → Prop} (hs : ¬P s) (h : P (after step s calls)) :
    ∃ before call rest, calls = before ++ call :: rest ∧ ¬P (after step s before) ∧
      ∀ more, more <+: rest → P (after step s (before ++ call :: more)) := by
  induction calls using List.reverseRecOn with
  | nil => exact absurd h hs
  | append_singleton calls call ih =>
    by_cases hbefore : P (after step s calls)
    · obtain ⟨before, entry, rest, rfl, hnot, hsince⟩ := ih hbefore
      refine ⟨before, entry, rest ++ [call], by simp, hnot, fun more hmore => ?_⟩
      rcases List.prefix_concat_iff.mp hmore with rfl | hmore
      · simpa using h
      · exact hsince more hmore
    · refine ⟨calls, call, [], rfl, hbefore, fun more hmore => ?_⟩
      obtain rfl := List.prefix_nil.mp hmore
      exact h

theorem eq_of_kept {α : Type} {P : σ → Prop} {f : σ → α}
    (h : ∀ more, more <+: calls → P (after step s more))
    (hstep : ∀ s call, P s → P (step s call) → f (step s call) = f s) :
    f (after step s calls) = f s := by
  induction calls generalizing s with
  | nil => rfl
  | cons call calls ih =>
    have hnow : P s := h [] List.nil_prefix
    have hnext : P (step s call) := h [call] (by simp)
    rw [after_cons, ih fun more hmore => h (call :: more) (List.cons_prefix_cons.mpr ⟨rfl, hmore⟩)]
    exact hstep s call hnow hnext

end Machine
