import GhostBridge.RuntimeProtection.CircuitBreaker

/-!
# The conduct of a circuit operation

What every operation of the service keeps to, whatever the others do: it changes the breaker only
from a state that it has read, it claims probes and records results only in the states for which
the code does, and it ends with its result.
-/

namespace GhostBridge.RuntimeProtection

open Ecma Machine

structure Progress where
  readings : List Int := []
  seen : List Breaker := []
  probe : Bool := false
  settled : Bool := false

namespace Progress

def reads (s : Progress) (breaker : Breaker) : Progress :=
  { s with seen := breaker :: s.seen }

def tells (s : Progress) (now : Int) : Progress :=
  { s with readings := now :: s.readings }

end Progress

namespace Change

def claims : Change → Bool
  | .halfOpen _ _ => true
  | .claimProbe _ => true
  | _ => false

def base : Change → Option Breaker
  | .halfOpen breaker _ => some breaker
  | .claimProbe breaker => some breaker
  | .success breaker _ => some breaker
  | .release breaker => some breaker
  | .rateLimit _ _ _ => none
  | .failure breaker _ _ => some breaker

/-- What the code has checked before it makes the change. -/
def Checks (s : Progress) : Change → Prop
  | .halfOpen breaker now => breaker.state = .open ∧ now ∈ s.readings
  | .claimProbe breaker => breaker.state = .halfOpen
  | .success breaker _ => breaker.state ≠ .open
  | .release breaker => breaker.state = .halfOpen ∧ 1 ≤ breaker.probesInFlight
  | .rateLimit _ _ _ => True
  | .failure _ errorMetadata _ => (classifyCircuitFailure errorMetadata).countsTowardCircuit = true

end Change

def Progress.next (s : Progress) : (op : Op) → Reply op → Progress
  | .clock, now => s.tells now
  | .upsert, .ok breaker => s.reads breaker
  | .findOne, .ok (some breaker) => s.reads breaker
  | .change change, .ok (some _) =>
    if change.claims then { s with probe := true } else { s with settled := true }
  | _, _ => s

def Progress.Allowed (s : Progress) : Op → Prop
  | .change change =>
    s.settled = false ∧ (∀ breaker ∈ change.base, breaker ∈ s.seen) ∧ change.Checks s
  | _ => s.settled = false

def conduct : Monitor Op Reply Progress where
  next := Progress.next
  allowed := Progress.Allowed
  replies _ _ _ := True

/-- The operation keeps to its conduct; `post` describes how it returns or throws. -/
abbrev Conducts {α : Type} (s : Progress) (post : Progress → Except Failure α → Prop)
    (flow : Flow α) : Prop :=
  flow.Follows conduct post s

section Rules

variable {α : Type} {settings : CircuitSettings} {s : Progress} {post : Progress → Except Failure α → Prop}

theorem conducts_currentTime {options : Options} {f : Int → Flow α} (hs : s.settled = false)
    (hgiven : ∀ now ∈ options.now, now ∈ s.readings)
    (hrest : ∀ t now, t.settled = false → t.seen = s.seen → s.readings ⊆ t.readings →
      now ∈ t.readings → Conducts t post (f now)) :
    Conducts s post (currentTime options >>= f) := by
  unfold currentTime
  cases hnow : options.now with
  | some now => exact hrest s now hs rfl (List.Subset.refl _) (hgiven now hnow)
  | none =>
    refine Async.follows_bind.mpr ⟨hs, fun now _ => ?_⟩
    exact hrest (s.tells now) now hs rfl (List.subset_cons_self _ _) List.mem_cons_self

theorem conducts_findOne {f : Option Breaker → Flow α} (hs : s.settled = false)
    (herror : ∀ e, post s (.error e)) (hnone : Conducts s post (f none))
    (hsome : ∀ breaker, Conducts (s.reads breaker) post (f (some breaker))) :
    Conducts s post (findOne >>= f) := by
  unfold findOne
  rw [Conducts, Async.follows_bind, Async.follows_bind]
  refine ⟨hs, fun reply _ => ?_⟩
  rcases reply with e | (_ | breaker)
  · exact herror e
  · exact hnone
  · exact hsome breaker

theorem conducts_ensureBreaker {f : Breaker → Flow α} (hs : s.settled = false)
    (herror : ∀ e, post s (.error e))
    (hrest : ∀ breaker, Conducts (s.reads breaker) post (f breaker)) :
    Conducts s post (ensureBreaker >>= f) := by
  unfold ensureBreaker
  rw [Conducts, Async.follows_bind, Async.follows_tryCatch, Async.follows_bind]
  refine ⟨hs, fun reply _ => ?_⟩
  cases reply with
  | ok breaker => exact hrest breaker
  | error e =>
    change Conducts s (Async.goesOn conduct post f) _
    by_cases he : e = .duplicateKey
    · simp only [if_pos he]
      refine conducts_findOne hs (fun e => herror e) (herror _) fun breaker => ?_
      exact hrest breaker
    · simp only [if_neg he]
      exact herror e

theorem conducts_findOneAndUpdate {change : Change} {f : Option Breaker → Flow α}
    (hs : s.settled = false) (hbase : ∀ breaker ∈ change.base, breaker ∈ s.seen)
    (hchecks : change.Checks s) (herror : ∀ e, post s (.error e))
    (hnone : Conducts s post (f none))
    (hsome : ∀ updated, Conducts (s.next (.change change) (.ok (some updated))) post
      (f (some updated))) :
    Conducts s post (findOneAndUpdate settings change >>= f) := by
  unfold findOneAndUpdate
  rw [Conducts, Async.follows_bind]
  refine Async.follows_check herror fun _ _ => ?_
  rw [Async.follows_bind]
  refine ⟨⟨hs, hbase, hchecks⟩, fun reply _ => ?_⟩
  rcases reply with e | (_ | updated)
  · exact herror e
  · exact hnone
  · exact hsome updated

end Rules

section Operations

variable {settings : CircuitSettings} {s : Progress}

def Unsettled (s t : Progress) : Prop := t.settled = false ∧ s.readings ⊆ t.readings

theorem conducts_evaluateHalfOpen {now : Int} {breaker : Breaker} (hs : s.settled = false)
    (hseen : breaker ∈ s.seen) :
    Conducts s (fun t _ => Unsettled s t) (evaluateHalfOpen settings now breaker) := by
  have hself : Unsettled s s := ⟨hs, List.Subset.refl _⟩
  unfold evaluateHalfOpen
  by_cases hstate : breaker.state = .halfOpen
  · rw [if_pos hstate]
    split
    · exact hself
    · refine conducts_findOneAndUpdate hs ?_ hstate (fun _ => hself) hself fun _ => hself
      simpa [Change.base] using hseen
  · rw [if_neg hstate]
    exact hself

theorem conducts_evaluateCircuit {options : Options} (hs : s.settled = false)
    (hgiven : ∀ now ∈ options.now, now ∈ s.readings) :
    Conducts s (fun t _ => Unsettled s t) (evaluateCircuit settings options) := by
  unfold evaluateCircuit
  split
  · exact ⟨hs, List.Subset.refl _⟩
  refine conducts_currentTime hs hgiven fun t now ht hseen hreadings hnow => ?_
  have hself : Unsettled s t := ⟨ht, hreadings⟩
  refine conducts_ensureBreaker ht (fun _ => hself) fun breaker => ?_
  split
  · exact hself
  split
  · exact hself
  have hread (found : Breaker) (u : Progress) (hu : u.settled = false) (hsub : s.readings ⊆ u.readings)
      (hfound : found ∈ u.seen) :
      Conducts u (fun t _ => Unsettled s t) (evaluateHalfOpen settings now found) :=
    (conducts_evaluateHalfOpen hu hfound).mono fun _ _ h => ⟨h.1, List.Subset.trans hsub h.2⟩
  by_cases hopen : breaker.state = .open
  · rw [if_pos hopen]
    refine conducts_findOneAndUpdate ht ?_ ⟨hopen, hnow⟩ (fun _ => hself) ?_ fun _ => hself
    · simp [Change.base, Progress.reads]
    · refine conducts_findOne ht (fun _ => hself) hself fun found => ?_
      exact hread found _ ht hreadings List.mem_cons_self
  · rw [if_neg hopen]
    exact hread breaker _ ht hreadings List.mem_cons_self

theorem conducts_attempts {message : String} {attempt : Breaker → Flow (Option Recorded)}
    {I : Progress → Prop} (hI : ∀ t, I t → t.settled = false)
    (hread : ∀ t breaker, I t → I (t.reads breaker))
    (hattempt : ∀ t breaker, I t → breaker ∈ t.seen →
      Conducts t (fun u r => r = .ok none → I u) (attempt breaker))
    (retries : ℕ) (hs : I s) :
    Conducts s (fun _ _ => True) (attempts message attempt retries) := by
  induction retries generalizing s with
  | zero => trivial
  | succ retries ih =>
    unfold attempts
    refine conducts_ensureBreaker (hI s hs) (fun _ => trivial) fun breaker => ?_
    rw [Conducts, Async.follows_bind]
    refine (hattempt _ breaker (hread s breaker hs) List.mem_cons_self).mono fun t r hr => ?_
    rcases r with e | (_ | recorded)
    · trivial
    · exact ih (hr rfl)
    · trivial

theorem conducts_attempt {change : Change} {breaker : Breaker} {recorded : Breaker → Recorded}
    (hs : s.settled = false) (hbase : change.base = some breaker) (hseen : breaker ∈ s.seen)
    (hchecks : change.Checks s) :
    Conducts s (fun t r => r = .ok none → t.settled = false) (do
      match ← findOneAndUpdate settings change with
      | none => return none
      | some updated => return some (recorded updated)) := by
  refine conducts_findOneAndUpdate hs ?_ hchecks (fun _ h => nomatch h) (fun _ => hs) ?_
  · rw [hbase]
    simpa using hseen
  · exact fun _ h => nomatch h

theorem conducts_recordCircuitSuccess {options : Options} (hs : s.settled = false)
    (hgiven : ∀ now ∈ options.now, now ∈ s.readings) :
    Conducts s (fun _ _ => True) (recordCircuitSuccess settings options) := by
  unfold recordCircuitSuccess
  split
  · trivial
  refine conducts_currentTime hs hgiven fun t now ht _ _ _ => ?_
  refine conducts_attempts (I := fun u => u.settled = false) (fun _ => id) (fun _ _ => id) ?_ 4 ht
  intro u breaker hu hseen
  by_cases hopen : breaker.state = .open
  · rw [if_pos hopen]
    exact fun h => nomatch h
  · rw [if_neg hopen]
    exact conducts_attempt hu rfl hseen hopen

theorem conducts_releaseCircuitProbe {options : Options} (hs : s.settled = false) :
    Conducts s (fun _ _ => True) (releaseCircuitProbe settings options) := by
  unfold releaseCircuitProbe
  split
  · trivial
  refine conducts_attempts (I := fun u => u.settled = false) (fun _ => id) (fun _ _ => id) ?_ 4 hs
  intro u breaker hu hseen
  by_cases hidle : breaker.state ≠ .halfOpen ∨ breaker.probesInFlight < 1
  · rw [if_pos hidle]
    exact fun h => nomatch h
  · rw [if_neg hidle]
    push Not at hidle
    exact conducts_attempt hu rfl hseen hidle

theorem conducts_recordRateLimit {errorMetadata : ErrorMetadata} {now : Int}
    (hs : s.settled = false) :
    Conducts s (fun _ _ => True) (recordRateLimit settings errorMetadata now) := by
  unfold recordRateLimit
  refine conducts_ensureBreaker hs (fun _ => trivial) fun breaker => ?_
  refine conducts_findOneAndUpdate hs ?_ trivial (fun _ => trivial) trivial fun _ => trivial
  simp [Change.base]

theorem conducts_recordCircuitFailure {errorMetadata : ErrorMetadata} {options : Options}
    (hs : s.settled = false) (hgiven : ∀ now ∈ options.now, now ∈ s.readings) :
    Conducts s (fun _ _ => True) (recordCircuitFailure settings errorMetadata options) := by
  unfold recordCircuitFailure
  dsimp only
  split
  · trivial
  refine conducts_currentTime hs hgiven fun t now ht _ _ _ => ?_
  split
  · exact conducts_recordRateLimit ht
  split
  · trivial
  · next hcounts =>
    refine conducts_attempts (I := fun u => u.settled = false) (fun _ => id) (fun _ _ => id) ?_ 4 ht
    intro u breaker hu hseen
    exact conducts_attempt hu rfl hseen (by simpa [Change.Checks] using hcounts)

theorem conducts_discarding {α : Type} {flow : Flow α} (h : Conducts s (fun _ _ => True) flow) :
    Conducts s (fun _ _ => True) (discarding flow) := by
  unfold discarding
  rw [Conducts, Async.follows_bind]
  exact h.mono fun _ r _ => by cases r <;> trivial

theorem conducts_runtimeCall {admission options : Options} (hs : s.settled = false)
    (hadmission : ∀ now ∈ admission.now, now ∈ s.readings)
    (hgiven : ∀ now ∈ options.now, now ∈ s.readings) :
    Conducts s (fun _ _ => True) (runtimeCall settings admission options) := by
  unfold runtimeCall
  rw [Conducts, Async.follows_bind]
  refine (conducts_evaluateCircuit hs hadmission).mono fun t r ht => ?_
  cases r with
  | error e => trivial
  | ok evaluation =>
    refine Async.follows_bind.mpr ⟨ht.1, fun finish _ => ?_⟩
    cases finish with
    | success =>
      apply conducts_discarding
      exact conducts_recordCircuitSuccess ht.1 fun now h => ht.2 (hgiven now h)
    | failure errorMetadata =>
      apply conducts_discarding
      exact conducts_recordCircuitFailure ht.1 fun now h => ht.2 (hgiven now h)
    | release =>
      apply conducts_discarding
      exact conducts_releaseCircuitProbe ht.1

end Operations

end GhostBridge.RuntimeProtection
