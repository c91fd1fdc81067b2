import GhostBridge.Ecma.Outcome

/-!
# Formulas whose leaves may fail

An evaluation runs every leaf, in order, and reports the first failure.
-/

namespace Formulas

inductive Formula (α : Type) where
  | leaf (a : α)
  | all (parts : List (Formula α))
  | any (parts : List (Formula α))
  | not (part : Formula α)

namespace Formula

variable {α : Type}

@[elab_as_elim]
theorem inductionOn {motive : Formula α → Prop} (leaf : ∀ a, motive (.leaf a))
    (all : ∀ parts, (∀ part ∈ parts, motive part) → motive (.all parts))
    (any : ∀ parts, (∀ part ∈ parts, motive part) → motive (.any parts))
    (not : ∀ part, motive part → motive (.not part)) (formula : Formula α) : motive formula :=
  @Formula.rec α motive (fun parts => ∀ part ∈ parts, motive part) leaf all any not
    (fun _ h => nomatch h)
    (fun _ _ hpart hparts _ h => (List.mem_cons.mp h).elim (fun e => e ▸ hpart) (hparts _))
    formula

mutual
def leaves : Formula α → List α
  | .leaf a => [a]
  | .all parts => leavesOf parts
  | .any parts => leavesOf parts
  | .not part => part.leaves
def leavesOf : List (Formula α) → List α
  | [] => []
  | part :: parts => part.leaves ++ leavesOf parts
end

mutual
def holds (value : α → Bool) : Formula α → Bool
  | .leaf a => value a
  | .all parts => (valuesOf value parts).all id
  | .any parts => (valuesOf value parts).any id
  | .not part => !part.holds value
def valuesOf (value : α → Bool) : List (Formula α) → List Bool
  | [] => []
  | part :: parts => part.holds value :: valuesOf value parts
end

theorem leavesOf_eq (parts : List (Formula α)) : leavesOf parts = parts.flatMap leaves := by
  induction parts with
  | nil => rfl
  | cons part parts ih => rw [leavesOf, ih, List.flatMap_cons]

theorem valuesOf_eq (value : α → Bool) (parts : List (Formula α)) :
    valuesOf value parts = parts.map (holds value) := by
  induction parts with
  | nil => rfl
  | cons part parts ih => rw [valuesOf, ih, List.map_cons]

section Verdict

variable {ε : Type} (outcome : α → Except ε Bool)

def firstFailure : List (Except ε Bool) → Except ε (List Bool)
  | [] => .ok []
  | .error failure :: _ => .error failure
  | .ok value :: rest => (value :: ·) <$> firstFailure rest

mutual
def verdict : Formula α → Except ε Bool
  | .leaf a => outcome a
  | .all parts => (·.all id) <$> firstFailure (verdictsOf parts)
  | .any parts => (·.any id) <$> firstFailure (verdictsOf parts)
  | .not part => (!·) <$> part.verdict
def verdictsOf : List (Formula α) → List (Except ε Bool)
  | [] => []
  | part :: parts => part.verdict :: verdictsOf parts
end

theorem verdictsOf_eq (parts : List (Formula α)) :
    verdictsOf outcome parts = parts.map (verdict outcome) := by
  induction parts with
  | nil => rfl
  | cons part parts ih => rw [verdictsOf, ih, List.map_cons]

theorem isOk_map {β γ : Type} (f : β → γ) (x : Except ε β) : (f <$> x).isOk = x.isOk := by
  cases x <;> rfl

theorem isOk_firstFailure (results : List (Except ε Bool)) :
    (firstFailure results).isOk = results.all Except.isOk := by
  induction results with
  | nil => rfl
  | cons result results ih =>
    cases result with
    | error failure => rfl
    | ok value =>
      rw [firstFailure, isOk_map, ih, List.all_cons]
      rfl

theorem isOk_verdict (formula : Formula α) :
    (formula.verdict outcome).isOk = formula.leaves.all fun a => (outcome a).isOk := by
  have hparts (parts : List (Formula α)) (ih : ∀ part ∈ parts, (part.verdict outcome).isOk =
      part.leaves.all fun a => (outcome a).isOk) :
      (firstFailure (verdictsOf outcome parts)).isOk =
        (leavesOf parts).all fun a => (outcome a).isOk := by
    rw [isOk_firstFailure, verdictsOf_eq, leavesOf_eq]
    induction parts with
    | nil => rfl
    | cons part parts ihparts =>
      rw [List.forall_mem_cons] at ih
      rw [List.map_cons, List.all_cons, List.flatMap_cons, List.all_append, ih.1, ihparts ih.2]
  induction formula using inductionOn with
  | leaf a => simp [verdict, leaves]
  | all parts ih =>
    rw [verdict, isOk_map, leaves]
    exact hparts parts ih
  | any parts ih =>
    rw [verdict, isOk_map, leaves]
    exact hparts parts ih
  | not part ih => rw [verdict, isOk_map, ih, leaves]

theorem verdict_eq_holds {value : α → Bool} {formula : Formula α}
    (h : ∀ a ∈ formula.leaves, outcome a = .ok (value a)) :
    formula.verdict outcome = .ok (formula.holds value) := by
  have hparts (parts : List (Formula α)) (ih : ∀ part ∈ parts,
      part.verdict outcome = .ok (part.holds value)) :
      firstFailure (verdictsOf outcome parts) = .ok (valuesOf value parts) := by
    rw [verdictsOf_eq, valuesOf_eq]
    induction parts with
    | nil => rfl
    | cons part parts ihparts =>
      rw [List.forall_mem_cons] at ih
      rw [List.map_cons, List.map_cons, ih.1, firstFailure, ihparts ih.2]
      rfl
  have hleaves {parts : List (Formula α)} {part : Formula α} (hpart : part ∈ parts) {a : α}
      (ha : a ∈ part.leaves) : a ∈ leavesOf parts := by
    rw [leavesOf_eq]
    exact List.mem_flatMap.mpr ⟨part, hpart, ha⟩
  induction formula using inductionOn with
  | leaf a => exact h a (List.mem_singleton.mpr rfl)
  | all parts ih =>
    rw [verdict, holds, hparts parts fun part hpart =>
      ih part hpart fun a ha => h a (hleaves hpart ha)]
    rfl
  | any parts ih =>
    rw [verdict, holds, hparts parts fun part hpart =>
      ih part hpart fun a ha => h a (hleaves hpart ha)]
    rfl
  | not part ih =>
    rw [verdict, holds, ih h]
    rfl

end Verdict

section Evaluate

variable {τ ε ρ : Type} (run : α → Except τ (Except ε Bool × List ρ))

mutual
def evaluate : Formula α → Except τ (Except ε Bool × List ρ)
  | .leaf a => run a
  | .all parts => do
    let (results, records) ← evaluateParts parts
    return ((·.all id) <$> firstFailure results, records)
  | .any parts => do
    let (results, records) ← evaluateParts parts
    return ((·.any id) <$> firstFailure results, records)
  | .not part => do
    let (result, records) ← part.evaluate
    return ((!·) <$> result, records)
def evaluateParts : List (Formula α) → Except τ (List (Except ε Bool) × List ρ)
  | [] => return ([], [])
  | part :: parts => do
    let (result, records) ← part.evaluate
    let (results, rest) ← evaluateParts parts
    return (result :: results, records ++ rest)
end

theorem evaluate_eq {outcome : α → Except ε Bool} {record : α → List ρ} {formula : Formula α}
    (h : ∀ a ∈ formula.leaves, run a = .ok (outcome a, record a)) :
    formula.evaluate run = .ok (formula.verdict outcome, formula.leaves.flatMap record) := by
  have hparts (parts : List (Formula α)) (ih : ∀ part ∈ parts, part.evaluate run =
      .ok (part.verdict outcome, part.leaves.flatMap record)) : evaluateParts run parts =
        .ok (verdictsOf outcome parts, (leavesOf parts).flatMap record) := by
    induction parts with
    | nil => rfl
    | cons part parts ihparts =>
      rw [List.forall_mem_cons] at ih
      rw [evaluateParts, ih.1, ihparts ih.2, verdictsOf, leavesOf, List.flatMap_append]
      rfl
  have hleaves {parts : List (Formula α)} {part : Formula α} (hpart : part ∈ parts) {a : α}
      (ha : a ∈ part.leaves) : a ∈ leavesOf parts := by
    rw [leavesOf_eq]
    exact List.mem_flatMap.mpr ⟨part, hpart, ha⟩
  induction formula using inductionOn with
  | leaf a =>
    rw [evaluate, h a (List.mem_singleton.mpr rfl), leaves, List.flatMap_singleton]
    rfl
  | all parts ih =>
    rw [evaluate, verdict, leaves, hparts parts fun part hpart =>
      ih part hpart fun a ha => h a (hleaves hpart ha)]
    rfl
  | any parts ih =>
    rw [evaluate, verdict, leaves, hparts parts fun part hpart =>
      ih part hpart fun a ha => h a (hleaves hpart ha)]
    rfl
  | not part ih =>
    rw [evaluate, verdict, leaves, ih h]
    rfl

theorem run_ok_of_evaluate {formula : Formula α} {result : Except ε Bool × List ρ}
    (h : formula.evaluate run = .ok result) :
    ∀ a ∈ formula.leaves, ∃ outcome, run a = .ok outcome := by
  have hparts (parts : List (Formula α)) (ih : ∀ part ∈ parts,
      ∀ {result}, part.evaluate run = .ok result →
        ∀ a ∈ part.leaves, ∃ outcome, run a = .ok outcome)
      {results : List (Except ε Bool) × List ρ} (h : evaluateParts run parts = .ok results) :
      ∀ a ∈ leavesOf parts, ∃ outcome, run a = .ok outcome := by
    induction parts generalizing results with
    | nil => exact fun a ha => nomatch ha
    | cons part parts ihparts =>
      rw [List.forall_mem_cons] at ih
      rw [evaluateParts] at h
      obtain ⟨first, hfirst, h⟩ := Ecma.bind_ok.mp h
      obtain ⟨rest, hrest, -⟩ := Ecma.bind_ok.mp h
      rw [leavesOf]
      intro a ha
      cases List.mem_append.mp ha with
      | inl ha => exact ih.1 hfirst a ha
      | inr ha => exact ihparts ih.2 hrest a ha
  induction formula using inductionOn generalizing result with
  | leaf a =>
    intro b hb
    obtain rfl := List.mem_singleton.mp hb
    exact ⟨result, h⟩
  | all parts ih =>
    rw [evaluate] at h
    obtain ⟨results, hresults, -⟩ := Ecma.bind_ok.mp h
    exact hparts parts ih hresults
  | any parts ih =>
    rw [evaluate] at h
    obtain ⟨results, hresults, -⟩ := Ecma.bind_ok.mp h
    exact hparts parts ih hresults
  | not part ih =>
    rw [evaluate] at h
    obtain ⟨result, hresult, -⟩ := Ecma.bind_ok.mp h
    exact ih hresult

end Evaluate

end Formula

end Formulas
