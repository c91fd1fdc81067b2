import GhostBridge.Machine.Runs

/-!
# Compensation plans

`reconcileCompensationPlan` counts the compensation runs of a plan by their statuses and, when none
of them can act any more, decides how the plan ends.
-/

namespace GhostBridge.Orchestration

open Machine

/-- `COMPENSATION_PLAN_STATUSES`. -/
inductive PlanStatus where
  | planned
  | active
  | paused
  | succeeded
  /-- `partial`. -/
  | partlyDone
  | failed
  | cancelled
  | terminated
deriving DecidableEq

/-- `COMPENSATION_RUN_STATUSES`. -/
inductive CompensationStatus where
  | pending
  | queued
  | running
  | retryWait
  | waitingApproval
  | waitingIntervention
  | succeeded
  | failed
  | waived
  | cancelled
  | terminated
deriving DecidableEq

/-- `COMPENSATION_PLAN_TRANSITIONS`. -/
def planTransitions : PlanStatus → List PlanStatus
  | .planned => [.active, .cancelled, .terminated]
  | .active => [.paused, .succeeded, .partlyDone, .failed, .cancelled, .terminated]
  | .paused => [.active, .partlyDone, .failed, .cancelled, .terminated]
  | .succeeded | .partlyDone | .failed | .cancelled | .terminated => []

/-- `COMPENSATION_RUN_TRANSITIONS`. -/
def compensationTransitions : CompensationStatus → List CompensationStatus
  | .pending =>
    [.queued, .waitingApproval, .waitingIntervention, .waived, .cancelled, .terminated]
  | .queued => [.running, .waitingIntervention, .cancelled, .terminated]
  | .running => [.retryWait, .waitingIntervention, .succeeded, .failed, .cancelled, .terminated]
  | .retryWait => [.queued, .running, .waitingIntervention, .failed, .cancelled, .terminated]
  | .waitingApproval => [.queued, .waitingIntervention, .failed, .cancelled, .terminated]
  | .waitingIntervention => [.queued, .retryWait, .waived, .failed, .cancelled, .terminated]
  | .succeeded | .failed | .waived | .cancelled | .terminated => []

def CompensationStatus.canAct : CompensationStatus → Bool
  | .pending | .queued | .running | .retryWait | .waitingApproval | .waitingIntervention => true
  | _ => false

structure CompensationPlan where
  status : PlanStatus
  completedStepCount : ℕ
  failedStepCount : ℕ
  skippedStepCount : ℕ
  continueAfterFailure : Bool
deriving DecidableEq

/-- A plan with its compensation runs, and the number of unresolved side effects of the
orchestration run, if the run is found. -/
structure CompensationState where
  plan : CompensationPlan
  compensationRuns : List CompensationStatus
  unresolvedSideEffects : Option ℕ
deriving DecidableEq

namespace CompensationState

variable (state : CompensationState)

def countOf (status : CompensationStatus) : ℕ := state.compensationRuns.count status

/-- `if (active)`. -/
def anyCanAct : Bool := state.compensationRuns.any CompensationStatus.canAct

def isOpen : Bool := state.plan.status == .active || state.plan.status == .paused

def counted : CompensationPlan :=
  { state.plan with
    completedStepCount := state.countOf .succeeded
    failedStepCount := state.countOf .failed
    skippedStepCount := state.plan.skippedStepCount + state.countOf .waived }

/-- `planStatus`, with the side effects of the run. -/
def outcome (unresolvedSideEffects : ℕ) : PlanStatus :=
  if 0 < state.countOf .failed ∧ state.plan.continueAfterFailure = false then .failed
  else if 0 < state.countOf .failed ∨ 0 < unresolvedSideEffects + state.countOf .waived ∨
      0 < state.countOf .waived then .partlyDone
  else .succeeded

def reconcileCompensationPlan : CompensationState × Except String Unit :=
  if !state.isOpen then (state, .ok ())
  else if state.anyCanAct then ({ state with plan := state.counted }, .ok ())
  else
    match state.unresolvedSideEffects with
    | none => (state, .ok ())
    | some unresolvedSideEffects =>
      if (planTransitions state.plan.status).contains (state.outcome unresolvedSideEffects) then
        ({ state with plan :=
            { state.counted with status := state.outcome unresolvedSideEffects } }, .ok ())
      else (state, .error "ORCHESTRATION_COMPENSATION_PLAN_TRANSITION_INVALID")

end CompensationState

/-- Calls, and what happens to the runs and the plan between them. -/
inductive CompensationEvent where
  | reconcile
  | compensationRun (index : ℕ) (toState : CompensationStatus)
  | plan (toState : PlanStatus)
  | sideEffects (unresolved : Option ℕ)
deriving DecidableEq

def moveRun (runs : List CompensationStatus) (index : ℕ) (toState : CompensationStatus) :
    List CompensationStatus :=
  runs.modify index fun status =>
    if (compensationTransitions status).contains toState then toState else status

def compensationStep (state : CompensationState) : CompensationEvent → CompensationState
  | .reconcile => state.reconcileCompensationPlan.1
  | .compensationRun index toState =>
    { state with compensationRuns := moveRun state.compensationRuns index toState }
  | .plan toState =>
    if (planTransitions state.plan.status).contains toState then
      { state with plan := { state.plan with status := toState } }
    else state
  | .sideEffects unresolved => { state with unresolvedSideEffects := unresolved }

/-- The counts are those of the runs, where `neverRun` steps have none. -/
structure CountsAgree (neverRun : ℕ) (state : CompensationState) : Prop where
  completed : state.plan.completedStepCount = state.countOf .succeeded
  failed : state.plan.failedStepCount = state.countOf .failed
  skipped : state.plan.skippedStepCount = neverRun + state.countOf .waived

structure Reconciled (neverRun : ℕ) (state : CompensationState) : Prop where
  counts : CountsAgree neverRun state
  ended : state.isOpen = false → state.anyCanAct = false
  succeeded : state.plan.status = .succeeded →
    (∀ status ∈ state.compensationRuns, status = .succeeded) ∧
      state.unresolvedSideEffects = some 0
  stable : state.reconcileCompensationPlan.1 = state

/-- A call does what it should: while some run can act, none is waived; after that the orchestration
run is found and, unless a run failed or was waived or a side effect is unresolved, no run was
cancelled or terminated and the plan is not paused. -/
def SoundCall (state : CompensationState) : Prop :=
  if state.anyCanAct then state.countOf .waived = 0
  else
    ∃ unresolved, state.unresolvedSideEffects = some unresolved ∧
      (state.countOf .failed = 0 → state.countOf .waived = 0 → unresolved = 0 →
        state.plan.status = .active ∧
          state.countOf .cancelled = 0 ∧ state.countOf .terminated = 0)

def SoundEvent (state : CompensationState) (event : CompensationEvent) : Prop :=
  event = .reconcile → state.isOpen = true → SoundCall state

variable {neverRun : ℕ} {state : CompensationState}

theorem outcome_succeeded_iff {unresolved : ℕ} : state.outcome unresolved = .succeeded ↔
    state.countOf .failed = 0 ∧ state.countOf .waived = 0 ∧ unresolved = 0 := by
  unfold CompensationState.outcome
  split_ifs with hfailed hpartly
  · constructor
    · intro h
      cases h
    · intro h
      omega
  · constructor
    · intro h
      cases h
    · intro h
      omega
  · constructor
    · intro h
      omega
    · intro h
      rfl

theorem outcome_allowed {unresolved : ℕ} (hopen : state.isOpen = true)
    (h : state.outcome unresolved = .succeeded → state.plan.status = .active) :
    (planTransitions state.plan.status).contains (state.outcome unresolved) = true := by
  have hcases : state.outcome unresolved = .failed ∨ state.outcome unresolved = .partlyDone ∨
      state.outcome unresolved = .succeeded := by
    unfold CompensationState.outcome
    split_ifs <;> simp
  simp only [CompensationState.isOpen, Bool.or_eq_true, beq_iff_eq] at hopen
  rcases hcases with houtcome | houtcome | houtcome
  · rcases hopen with hstatus | hstatus <;> rw [houtcome, hstatus] <;> decide
  · rcases hopen with hstatus | hstatus <;> rw [houtcome, hstatus] <;> decide
  · rw [houtcome, h houtcome]
    decide

theorem all_succeeded (hact : state.anyCanAct = false) (hfailed : state.countOf .failed = 0)
    (hwaived : state.countOf .waived = 0) (hcancelled : state.countOf .cancelled = 0)
    (hterminated : state.countOf .terminated = 0) :
    ∀ status ∈ state.compensationRuns, status = .succeeded := by
  intro status hstatus
  have hidle : status.canAct = false := by
    simpa using List.any_eq_false.mp hact status hstatus
  have hcount := List.count_pos_iff.mpr hstatus
  simp only [CompensationState.countOf] at hfailed hwaived hcancelled hterminated
  cases status with
  | succeeded => rfl
  | failed => omega
  | waived => omega
  | cancelled => omega
  | terminated => omega
  | _ => cases hidle

theorem outcome_ne_open (unresolved : ℕ) (runs : List CompensationStatus) (effects : Option ℕ) :
    CompensationState.isOpen
      ⟨{ state.counted with status := state.outcome unresolved }, runs, effects⟩ = false := by
  unfold CompensationState.isOpen CompensationState.outcome
  split_ifs <;> rfl

theorem reconcile_closed (h : state.isOpen = false) : state.reconcileCompensationPlan.1 = state := by
  simp [CompensationState.reconcileCompensationPlan, h]

theorem reconciled_of_sound (hskipped : state.plan.skippedStepCount = neverRun)
    (hopen : state.isOpen = true) (hsound : SoundCall state) :
    Reconciled neverRun state.reconcileCompensationPlan.1 := by
  unfold SoundCall at hsound
  by_cases hact : state.anyCanAct = true
  · rw [if_pos hact] at hsound
    have hresult : state.reconcileCompensationPlan.1 = { state with plan := state.counted } := by
      simp [CompensationState.reconcileCompensationPlan, hopen, hact]
    rw [hresult]
    have hstatus : (CompensationState.isOpen { state with plan := state.counted }) = true := hopen
    refine ⟨⟨rfl, rfl, ?_⟩, ?_, ?_, ?_⟩
    · rw [← hskipped]
      rfl
    · intro hclosed
      rw [hstatus] at hclosed
      cases hclosed
    · intro hsucceeded
      change state.plan.status = .succeeded at hsucceeded
      rw [CompensationState.isOpen, hsucceeded] at hopen
      cases hopen
    · have hagain : CompensationState.anyCanAct { state with plan := state.counted } = true := hact
      simp only [CompensationState.reconcileCompensationPlan, hstatus, hagain]
      have hcounted : CompensationState.counted { state with plan := state.counted } =
          state.counted := by
        simp only [CompensationState.counted, CompensationState.countOf] at hsound ⊢
        simp [hsound]
      simp [hcounted]
  · rw [if_neg hact] at hsound
    rw [Bool.not_eq_true] at hact
    obtain ⟨unresolved, heffects, hsucceeded⟩ := hsound
    have hsound : state.outcome unresolved = .succeeded → state.plan.status = .active ∧
        state.countOf .cancelled = 0 ∧ state.countOf .terminated = 0 := by
      intro houtcome
      obtain ⟨hfailed, hwaived, hnone⟩ := outcome_succeeded_iff.mp houtcome
      exact hsucceeded hfailed hwaived hnone
    have hallowed := outcome_allowed hopen fun h => (hsound h).1
    have hresult : state.reconcileCompensationPlan.1 = { state with plan :=
        { state.counted with status := state.outcome unresolved } } := by
      simp only [CompensationState.reconcileCompensationPlan, hopen, hact, heffects, hallowed]
      rfl
    rw [hresult]
    refine ⟨⟨rfl, rfl, ?_⟩, ?_, ?_, ?_⟩
    · rw [← hskipped]
      rfl
    · intro hclosed
      exact hact
    · intro houtcome
      obtain ⟨hactive, hcancelled, hterminated⟩ := hsound houtcome
      obtain ⟨hfailed, hwaived, hnone⟩ := outcome_succeeded_iff.mp houtcome
      constructor
      · exact all_succeeded hact hfailed hwaived hcancelled hterminated
      · rw [← hnone]
        exact heffects
    · exact reconcile_closed (outcome_ne_open unresolved _ _)

def Uncounted (neverRun : ℕ) (state : CompensationState) : Prop :=
  planTransitions state.plan.status ≠ [] → state.plan.skippedStepCount = neverRun

theorem not_ended_of_open (h : state.isOpen = true) : planTransitions state.plan.status ≠ [] := by
  simp only [CompensationState.isOpen, Bool.or_eq_true, beq_iff_eq] at h
  rcases h with h | h <;> rw [h] <;> decide

theorem outcome_ended (unresolved : ℕ) : planTransitions (state.outcome unresolved) = [] := by
  unfold CompensationState.outcome
  split_ifs <;> rfl

theorem uncounted_reconcile (h : Uncounted neverRun state)
    (hsound : state.isOpen = true → SoundCall state) :
    Uncounted neverRun state.reconcileCompensationPlan.1 := by
  by_cases hopen : state.isOpen = true
  · have hskipped := h (not_ended_of_open hopen)
    have hcall := hsound hopen
    unfold SoundCall at hcall
    by_cases hact : state.anyCanAct = true
    · rw [if_pos hact] at hcall
      intro hended
      simp only [CompensationState.reconcileCompensationPlan, hopen, hact]
      change state.plan.skippedStepCount + state.countOf .waived = neverRun
      rw [hcall, hskipped]
      rfl
    · rw [if_neg hact] at hcall
      rw [Bool.not_eq_true] at hact
      obtain ⟨unresolved, heffects, hsucceeded⟩ := hcall
      have hallowed : (planTransitions state.plan.status).contains
          (state.outcome unresolved) = true := by
        apply outcome_allowed hopen
        intro houtcome
        obtain ⟨hfailed, hwaived, hnone⟩ := outcome_succeeded_iff.mp houtcome
        exact (hsucceeded hfailed hwaived hnone).1
      intro hended
      simp only [CompensationState.reconcileCompensationPlan, hopen, hact, heffects,
        hallowed] at hended
      exact absurd (outcome_ended unresolved) hended
  · rw [Bool.not_eq_true] at hopen
    rw [reconcile_closed hopen]
    exact h

theorem uncounted_step {event : CompensationEvent} (h : Uncounted neverRun state)
    (hsound : SoundEvent state event) : Uncounted neverRun (compensationStep state event) := by
  cases event with
  | reconcile => exact uncounted_reconcile h (hsound rfl)
  | compensationRun index toState => exact h
  | plan toState =>
    by_cases hallowed : (planTransitions state.plan.status).contains toState = true
    · intro hended
      simp only [compensationStep, if_pos hallowed]
      apply h
      intro hnone
      rw [hnone] at hallowed
      cases hallowed
    · simp only [compensationStep, if_neg hallowed]
      exact h
  | sideEffects unresolved => exact h

/-- In a history whose calls are sound, each call on an open plan does what it should. -/
theorem compensation_plan_law (neverRun : ℕ) (state : CompensationState)
    (events before rest : List CompensationEvent)
    (hstart : state.plan.skippedStepCount = neverRun)
    (hsound : Guarded compensationStep SoundEvent state events)
    (hcall : events = before ++ .reconcile :: rest)
    (hopen : (after compensationStep state before).isOpen = true) :
    Reconciled neverRun (after compensationStep state before).reconcileCompensationPlan.1 := by
  subst hcall
  obtain ⟨hbefore, hevent, -⟩ := (guarded_append before (.reconcile :: rest)).mp hsound
  have huncounted : Uncounted neverRun (after compensationStep state before) :=
    hbefore.after_induction (fun _ => hstart) fun s event hs hevent => uncounted_step hs hevent
  exact reconciled_of_sound (huncounted (not_ended_of_open hopen)) hopen (hevent rfl hopen)

private def planWith (compensationRuns : List CompensationStatus) : CompensationState where
  plan := ⟨.active, 0, 0, 0, false⟩
  compensationRuns
  unresolvedSideEffects := some 0

/-- Both compensations succeed one after the other. -/
theorem compensation_plan_law_succeeding :
    Reconciled 0 (after compensationStep (planWith [.running, .running])
      [.compensationRun 0 .succeeded, .reconcile,
        .compensationRun 1 .succeeded]).reconcileCompensationPlan.1 := by
  apply compensation_plan_law 0 (planWith [.running, .running])
    [.compensationRun 0 .succeeded, .reconcile, .compensationRun 1 .succeeded, .reconcile]
    [.compensationRun 0 .succeeded, .reconcile, .compensationRun 1 .succeeded] [] rfl _ rfl rfl
  refine ⟨?_, ?_, ?_, ?_, trivial⟩
  · intro hevent
    cases hevent
  · intro hevent hopen
    rfl
  · intro hevent
    cases hevent
  · intro hevent hopen
    exact ⟨0, rfl, fun _ _ _ => ⟨rfl, rfl, rfl⟩⟩

/-- A waived run is counted at each call, and a plan of a terminated run succeeds. -/
theorem waived_run_counted_twice :
    ¬Reconciled 0 (after compensationStep (planWith [.waived, .running])
      [.reconcile]).reconcileCompensationPlan.1 ∧
    ¬Reconciled 0 (planWith [.terminated]).reconcileCompensationPlan.1 := by
  constructor
  · intro h
    have hskipped := h.counts.skipped
    revert hskipped
    decide
  · intro h
    have hruns := (h.succeeded (by decide)).1
    revert hruns
    decide

end GhostBridge.Orchestration
