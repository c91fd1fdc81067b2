import GhostBridge.ProductionScale.Admission

/-!
# Admission is monotone in load

More load never makes an admission more permissive, but for protected work of low priority: it is
deferred or refused while the load is elevated, and taken once the load is higher.
-/

namespace GhostBridge.ProductionScale

open Ecma

/-- `a` is no more than `b`. -/
def NoMore (a b : Number) : Prop := a = b ∨ a.le b = true

theorem numberOr_zero_ne_nan (n : Number) : countOf n ≠ .nan := by
  unfold countOf numberOr
  split
  · next htruthy =>
    rintro rfl
    cases htruthy
  · exact Number.ofNat_ne_nan 0

/-- Falsy numbers are zeros and `NaN`. -/
theorem countOf_falsy {n : Number} (h : ¬(Value.number n).isTruthy = true) (hn : n ≠ .nan) :
    n.le (.ofNat 0) = true ∧ (Number.ofNat 0).le n = true := by
  rw [Number.ofNat_zero]
  cases n with
  | nan => exact absurd rfl hn
  | infinity negative => exact absurd rfl h
  | finite x =>
    have hzero : x.units = 0 := by simpa [Value.isTruthy, Finite64.isZero] using h
    have hsigned : x.signedUnits = 0 := by
      unfold Finite64.signedUnits
      rw [hzero]
      split <;> rfl
    have hother : (Finite64.zero false).signedUnits = 0 := rfl
    constructor
    · apply decide_eq_true
      rw [hsigned, hother]
    · apply decide_eq_true
      rw [hsigned, hother]

theorem countOf_mono {a b : Number} (h : NoMore a b) : (countOf a).le (countOf b) = true := by
  rcases h with rfl | hle
  · exact Number.le_refl_of_ne_nan (numberOr_zero_ne_nan a)
  · have ha : a ≠ .nan := by
      rintro rfl
      cases hle
    have hb : b ≠ .nan := by
      rintro rfl
      cases a with
      | infinity negative => cases negative <;> cases hle
      | _ => cases hle
    unfold countOf numberOr
    by_cases hta : (Value.number a).isTruthy = true
    · by_cases htb : (Value.number b).isTruthy = true
      · rw [if_pos hta, if_pos htb]
        exact hle
      · rw [if_pos hta, if_neg htb]
        exact Number.le_trans hle (countOf_falsy htb hb).1
    · by_cases htb : (Value.number b).isTruthy = true
      · rw [if_neg hta, if_pos htb]
        exact Number.le_trans (countOf_falsy hta ha).2 hle
      · rw [if_neg hta, if_neg htb]
        exact Number.le_refl_of_ne_nan (Number.ofNat_ne_nan 0)

theorem loadOf_mono {a b : Number} (h : NoMore a b) : (loadOf a).le (loadOf b) = true := by
  have hzero := Number.ofNat_ne_nan 0
  have ha := numberOr_zero_ne_nan a
  have hb := numberOr_zero_ne_nan b
  have hcount := countOf_mono h
  change ((Number.ofNat 0).max (countOf a)).le ((Number.ofNat 0).max (countOf b)) = true
  have habove : (countOf b).le ((Number.ofNat 0).max (countOf b)) = true := by
    rcases Number.max_cases hzero hb with ⟨hmax, -⟩ | ⟨hmax, hle⟩
    · rw [hmax]
      exact Number.le_refl_of_ne_nan hb
    · rw [hmax]
      exact hle
  have hzeroAbove : (Number.ofNat 0).le ((Number.ofNat 0).max (countOf b)) = true := by
    rcases Number.max_cases hzero hb with ⟨hmax, hle⟩ | ⟨hmax, -⟩
    · rw [hmax]
      exact hle
    · rw [hmax]
      exact Number.le_refl_of_ne_nan hzero
  rcases Number.max_cases hzero ha with ⟨hmax, -⟩ | ⟨hmax, -⟩
  · rw [hmax]
    exact Number.le_trans hcount habove
  · rw [hmax]
    exact hzeroAbove

theorem severityForThreshold_mono {a b : Number} (h : a.le b = true) (thresholds : Thresholds) :
    severityForThreshold a thresholds ≤ severityForThreshold b thresholds := by
  have hreaches {threshold : Number} (hthreshold : threshold.le a = true) :
      threshold.le b = true := Number.le_trans hthreshold h
  unfold severityForThreshold
  by_cases hshedding : thresholds.shedding.le a = true
  · rw [if_pos hshedding, if_pos (hreaches hshedding)]
  · rw [if_neg hshedding]
    by_cases hsaturated : thresholds.saturated.le a = true
    · rw [if_pos hsaturated, if_pos (hreaches hsaturated)]
      split <;> omega
    · rw [if_neg hsaturated]
      by_cases helevated : thresholds.elevated.le a = true
      · rw [if_pos helevated, if_pos (hreaches helevated)]
        split
        · omega
        · split <;> omega
      · rw [if_neg helevated]
        split
        · omega
        · split
          · omega
          · split <;> omega

structure HeavierSignals (first second : BackpressureSignals) : Prop where
  paused : second.paused = first.paused
  queueDepth : NoMore first.queueDepth second.queueDepth
  oldestQueueAgeMs : NoMore first.oldestQueueAgeMs second.oldestQueueAgeMs
  workerUtilizationBasisPoints :
    NoMore first.workerUtilizationBasisPoints second.workerUtilizationBasisPoints
  leaseExpiryRateBasisPoints :
    NoMore first.leaseExpiryRateBasisPoints second.leaseExpiryRateBasisPoints
  databasePressureCategory : severityOfDatabase first.databasePressureCategory ≤
    severityOfDatabase second.databasePressureCategory

theorem severity_mono {first second : BackpressureSignals} (h : HeavierSignals first second)
    (thresholds : BackpressureThresholds) :
    severity first thresholds ≤ severity second thresholds := by
  unfold severity
  exact max_le_max (max_le_max (max_le_max (max_le_max
    (severityForThreshold_mono (loadOf_mono h.queueDepth) _)
    (severityForThreshold_mono (loadOf_mono h.oldestQueueAgeMs) _))
    (severityForThreshold_mono (loadOf_mono h.workerUtilizationBasisPoints) _))
    (severityForThreshold_mono (loadOf_mono h.leaseExpiryRateBasisPoints) _))
    h.databasePressureCategory

structure Thresholds.Ordered (thresholds : Thresholds) : Prop where
  elevated : thresholds.elevated.le thresholds.saturated = true
  saturated : thresholds.saturated.le thresholds.shedding = true

structure BackpressureThresholds.Ordered (thresholds : BackpressureThresholds) : Prop where
  queueDepth : thresholds.queueDepth.Ordered
  oldestAgeMs : thresholds.oldestAgeMs.Ordered
  utilizationBasisPoints : thresholds.utilizationBasisPoints.Ordered
  leaseExpiryRateBasisPoints : thresholds.leaseExpiryRateBasisPoints.Ordered

def Reaches (level : Thresholds → Number) (pressed : DatabasePressureCategory → Prop)
    (signals : BackpressureSignals) (thresholds : BackpressureThresholds) : Prop :=
  (level thresholds.queueDepth).le (loadOf signals.queueDepth) = true ∨
    (level thresholds.oldestAgeMs).le (loadOf signals.oldestQueueAgeMs) = true ∨
    (level thresholds.utilizationBasisPoints).le (loadOf signals.workerUtilizationBasisPoints) =
      true ∨
    (level thresholds.leaseExpiryRateBasisPoints).le (loadOf signals.leaseExpiryRateBasisPoints) =
      true ∨
    pressed signals.databasePressureCategory

def ReachesElevated (signals : BackpressureSignals) (thresholds : BackpressureThresholds) : Prop :=
  Reaches Thresholds.elevated (· ≠ .healthy) signals thresholds

def ReachesSaturated (signals : BackpressureSignals) (thresholds : BackpressureThresholds) : Prop :=
  Reaches Thresholds.saturated (fun category => category = .degraded ∨ category = .unavailable)
    signals thresholds

theorem severityForThreshold_cases {thresholds : Thresholds} (h : thresholds.Ordered)
    (load : Number) :
    (2 ≤ severityForThreshold load thresholds ↔ thresholds.elevated.le load = true) ∧
      (3 ≤ severityForThreshold load thresholds ↔ thresholds.saturated.le load = true) := by
  unfold severityForThreshold
  by_cases hshedding : thresholds.shedding.le load = true
  · have hsaturated := Number.le_trans h.saturated hshedding
    have helevated := Number.le_trans h.elevated hsaturated
    simp [hshedding, hsaturated, helevated]
  · by_cases hsaturated : thresholds.saturated.le load = true
    · have helevated := Number.le_trans h.elevated hsaturated
      simp [hshedding, hsaturated, helevated]
    · by_cases helevated : thresholds.elevated.le load = true
      · simp [hshedding, hsaturated, helevated]
      · simp [hshedding, hsaturated, helevated]

theorem severityOfDatabase_cases (category : DatabasePressureCategory) :
    (2 ≤ severityOfDatabase category ↔ category ≠ .healthy) ∧
      (3 ≤ severityOfDatabase category ↔ category = .degraded ∨ category = .unavailable) := by
  cases category <;> decide

variable {thresholds : BackpressureThresholds}

theorem reachesElevated_iff (h : thresholds.Ordered) (signals : BackpressureSignals) :
    ReachesElevated signals thresholds ↔ 2 ≤ severity signals thresholds := by
  simp only [ReachesElevated, Reaches, severity, le_max_iff, or_assoc,
    (severityForThreshold_cases h.queueDepth _).1, (severityForThreshold_cases h.oldestAgeMs _).1,
    (severityForThreshold_cases h.utilizationBasisPoints _).1,
    (severityForThreshold_cases h.leaseExpiryRateBasisPoints _).1,
    (severityOfDatabase_cases _).1]

theorem reachesSaturated_iff (h : thresholds.Ordered) (signals : BackpressureSignals) :
    ReachesSaturated signals thresholds ↔ 3 ≤ severity signals thresholds := by
  simp only [ReachesSaturated, Reaches, severity, le_max_iff, or_assoc,
    (severityForThreshold_cases h.queueDepth _).2, (severityForThreshold_cases h.oldestAgeMs _).2,
    (severityForThreshold_cases h.utilizationBasisPoints _).2,
    (severityForThreshold_cases h.leaseExpiryRateBasisPoints _).2,
    (severityOfDatabase_cases _).2]

theorem severity_le (signals : BackpressureSignals) (thresholds : BackpressureThresholds) :
    severity signals thresholds ≤ 4 := by
  have hsignal (load : Number) (t : Thresholds) : severityForThreshold load t ≤ 4 := by
    unfold severityForThreshold
    split
    · omega
    · split
      · omega
      · split <;> omega
  have hdatabase : severityOfDatabase signals.databasePressureCategory ≤ 4 := by
    cases signals.databasePressureCategory <;> decide
  unfold severity
  exact max_le (max_le (max_le (max_le (hsignal _ _) (hsignal _ _)) (hsignal _ _)) (hsignal _ _))
    hdatabase

def BackpressureState.level : BackpressureState → ℕ
  | .normal => 1
  | .elevated => 2
  | .saturated => 3
  | .shedding => 4
  | .paused => 5

theorem one_le_severity (signals : BackpressureSignals) (thresholds : BackpressureThresholds) :
    1 ≤ severity signals thresholds := by
  have hdatabase : 1 ≤ severityOfDatabase signals.databasePressureCategory := by
    cases signals.databasePressureCategory <;> decide
  exact hdatabase.trans (le_max_right _ _)

theorem level_calculateBackpressure (signals : BackpressureSignals)
    (thresholds : BackpressureThresholds) :
    (calculateBackpressure signals thresholds).level =
      if signals.paused then 5 else severity signals thresholds := by
  have hlow := one_le_severity signals thresholds
  have hhigh := severity_le signals thresholds
  unfold calculateBackpressure
  cases signals.paused with
  | true => rfl
  | false =>
    simp only [Bool.false_eq_true, if_false]
    generalize severity signals thresholds = s at hlow hhigh ⊢
    obtain rfl | rfl | rfl | rfl : s = 1 ∨ s = 2 ∨ s = 3 ∨ s = 4 := by omega
    all_goals rfl

def AdmissionDecision.permissiveness : AdmissionDecision → ℕ
  | .accepted => 3
  | .acceptedDeferred => 2
  | .approvalRequired => 1
  | _ => 0

theorem permissiveness_le (decision : AdmissionDecision) : decision.permissiveness ≤ 3 := by
  cases decision <;> decide

section Decisions

variable {input : AdmissionInput} {priorityClass : PriorityClass} {admissionClass : AdmissionClass}

def permissionOf (input : AdmissionInput) (priorityClass : PriorityClass)
    (admissionClass : AdmissionClass) : ℕ :=
  (decideByState input priorityClass admissionClass).decision.permissiveness

theorem permissionOf_guarded (hguarded : protectedWork priorityClass admissionClass = true)
    (hstate : input.backpressureState = .saturated ∨ input.backpressureState = .shedding) :
    permissionOf input priorityClass admissionClass =
      if input.protectedCapacityAvailable then 3 else 0 := by
  unfold permissionOf decideByState loadSheddingDecision
  rw [hguarded]
  cases input.protectedCapacityAvailable <;> cases underPressure input.databasePressureCategory <;>
    rcases hstate with hstate | hstate <;> rw [hstate] <;> rfl

theorem permissionOf_shedding (hguarded : protectedWork priorityClass admissionClass = false)
    (hstate : input.backpressureState = .shedding) :
    permissionOf input priorityClass admissionClass = 0 := by
  unfold permissionOf decideByState loadSheddingDecision
  rw [hguarded, hstate]
  cases underPressure input.databasePressureCategory <;> rfl

def elevatedPermission : PriorityClass → ℕ
  | .maintenance => 0
  | .low => 2
  | _ => 3

theorem permissionOf_elevated (hpressed : underPressure input.databasePressureCategory = false)
    (hstate : input.backpressureState = .elevated) :
    permissionOf input priorityClass admissionClass = elevatedPermission priorityClass := by
  unfold permissionOf decideByState loadSheddingDecision
  rw [hpressed, hstate]
  cases priorityClass <;> rfl

theorem permissionOf_normal (hpressed : underPressure input.databasePressureCategory = false)
    (hstate : input.backpressureState = .normal) :
    permissionOf input priorityClass admissionClass = 3 := by
  unfold permissionOf decideByState loadSheddingDecision
  rw [hpressed, hstate]
  rfl

theorem permissionOf_pressed {other : AdmissionInput}
    (hstate : other.backpressureState = input.backpressureState)
    (hsame : other.policy.overloadBehavior = input.policy.overloadBehavior ∧
      other.controlOperation = input.controlOperation ∧
      other.protectedCapacityAvailable = input.protectedCapacityAvailable)
    (hpressed : underPressure input.databasePressureCategory = true →
      underPressure other.databasePressureCategory = true) :
    permissionOf other priorityClass admissionClass ≤
      permissionOf input priorityClass admissionClass := by
  obtain ⟨hoverload, hcontrol, hcapacity⟩ := hsame
  cases hfirst : underPressure input.databasePressureCategory with
  | true =>
    have hsecond := hpressed hfirst
    apply le_of_eq
    unfold permissionOf decideByState
    rw [hstate, hoverload, hcontrol, hcapacity, hfirst, hsecond]
  | false =>
    cases hsecond : underPressure other.databasePressureCategory with
    | false =>
      apply le_of_eq
      unfold permissionOf decideByState
      rw [hstate, hoverload, hcontrol, hcapacity, hfirst, hsecond]
    | true =>
      unfold permissionOf decideByState
      rw [hstate, hoverload, hcontrol, hcapacity, hfirst, hsecond]
      generalize loadSheddingDecision _ _ _ _ _ = shedding
      obtain ⟨action, code, httpStatus, retryable⟩ := shedding
      cases protectedWork priorityClass admissionClass <;>
        cases input.protectedCapacityAvailable <;> cases action <;>
          simp [AdmissionDecision.permissiveness]

theorem permissionOf_saturated (hguarded : protectedWork priorityClass admissionClass = false)
    (hstate : input.backpressureState = .saturated) :
    permissionOf input priorityClass admissionClass ≤ elevatedPermission priorityClass := by
  unfold permissionOf decideByState loadSheddingDecision
  rw [hguarded, hstate]
  cases underPressure input.databasePressureCategory <;> cases priorityClass <;>
    cases input.policy.overloadBehavior <;>
      simp [AdmissionDecision.permissiveness, elevatedPermission]

end Decisions

structure HeavierInput (first second : AdmissionInput) : Prop where
  same : second = { first with
    payloadBytesEstimate := second.payloadBytesEstimate
    tenantQueuedCount := second.tenantQueuedCount
    workspaceQueuedCount := second.workspaceQueuedCount
    tenantActiveCount := second.tenantActiveCount
    workspaceActiveCount := second.workspaceActiveCount }
  payloadBytesEstimate : NoMore first.payloadBytesEstimate second.payloadBytesEstimate
  tenantQueuedCount : NoMore first.tenantQueuedCount second.tenantQueuedCount
  workspaceQueuedCount : NoMore first.workspaceQueuedCount second.workspaceQueuedCount
  tenantActiveCount : NoMore first.tenantActiveCount second.tenantActiveCount
  workspaceActiveCount : NoMore first.workspaceActiveCount second.workspaceActiveCount

/-- Nothing refuses the input before the state of the system is looked at. -/
structure Unrefused (input : AdmissionInput) : Prop where
  failover : (input.failoverInProgress && !input.controlOperation) = false
  operational : input.operationalAllowed = true
  payload : numberLt (payloadLimit input) (countOf input.payloadBytesEstimate) = false
  tenantQueued : (queuedLimit input input.tenantMaximumQueuedRuns).le
    (countOf input.tenantQueuedCount) = false
  workspaceQueued : (queuedLimit input input.workspaceMaximumQueuedRuns).le
    (countOf input.workspaceQueuedCount) = false
  tenantActive : (activeLimit input input.tenantMaximumActiveRuns).le
    (countOf input.tenantActiveCount) = false
  workspaceActive : (activeLimit input input.workspaceMaximumActiveRuns).le
    (countOf input.workspaceActiveCount) = false

theorem refusal_none {input : AdmissionInput} : refusal input = none ↔ Unrefused input := by
  unfold refusal
  constructor
  · intro h
    split at h
    · cases h
    · next hfailover =>
      split at h
      · cases h
      · next hoperational =>
        split at h
        · cases h
        · next hpayload =>
          split at h
          · cases h
          · next htenantQueued =>
            split at h
            · cases h
            · next hworkspaceQueued =>
              split at h
              · cases h
              · next htenantActive =>
                split at h
                · cases h
                · next hworkspaceActive =>
                  exact ⟨by simpa using hfailover, by simpa using hoperational,
                    by simpa using hpayload, by simpa using htenantQueued,
                    by simpa using hworkspaceQueued, by simpa using htenantActive,
                    by simpa using hworkspaceActive⟩
  · intro h
    simp [h.failover, h.operational, h.payload, h.tenantQueued, h.workspaceQueued, h.tenantActive,
      h.workspaceActive]

theorem refusal_rejects {input : AdmissionInput} {outcome : AdmissionOutcome}
    (h : refusal input = some outcome) : outcome.decision.permissiveness = 0 := by
  unfold refusal at h
  repeat' split at h
  all_goals first | (obtain rfl := Option.some.inj h; rfl) | cases h

theorem unrefused_of_heavier {first second : AdmissionInput} (h : HeavierInput first second)
    (hsecond : Unrefused second) : Unrefused first := by
  have hback {limit a b : Number} (hle : NoMore a b) (hfree : limit.le (countOf b) = false) :
      limit.le (countOf a) = false := by
    by_contra hreached
    rw [Bool.not_eq_false] at hreached
    cases (Number.le_trans hreached (countOf_mono hle)).symm.trans hfree
  have hstrict {limit a b : Number} (hle : NoMore a b) (hfree : numberLt limit (countOf b) = false) :
      numberLt limit (countOf a) = false := by
    by_contra hreached
    rw [Bool.not_eq_false, numberLt, Bool.and_eq_true, Bool.not_eq_true'] at hreached
    have hup := Number.le_trans hreached.1 (countOf_mono hle)
    rw [numberLt, hup, Bool.true_and, Bool.not_eq_false'] at hfree
    cases (Number.le_trans (countOf_mono hle) hfree).symm.trans hreached.2
  have hsame := h.same
  have hpayloadLimit : payloadLimit second = payloadLimit first := by
    rw [hsame]
    rfl
  have hqueuedLimit (maximum : Number) : queuedLimit second maximum = queuedLimit first maximum := by
    rw [hsame]
    rfl
  have hactiveLimit (maximum : Number) : activeLimit second maximum = activeLimit first maximum := by
    rw [hsame]
    rfl
  constructor
  · have hfailover := hsecond.failover
    rw [hsame] at hfailover
    exact hfailover
  · have hoperational := hsecond.operational
    rw [hsame] at hoperational
    exact hoperational
  · apply hstrict h.payloadBytesEstimate
    rw [← hpayloadLimit]
    exact hsecond.payload
  · apply hback h.tenantQueuedCount
    have hmaximum : second.tenantMaximumQueuedRuns = first.tenantMaximumQueuedRuns := by rw [hsame]
    rw [← hqueuedLimit, ← hmaximum]
    exact hsecond.tenantQueued
  · apply hback h.workspaceQueuedCount
    have hmaximum : second.workspaceMaximumQueuedRuns = first.workspaceMaximumQueuedRuns := by
      rw [hsame]
    rw [← hqueuedLimit, ← hmaximum]
    exact hsecond.workspaceQueued
  · apply hback h.tenantActiveCount
    have hmaximum : second.tenantMaximumActiveRuns = first.tenantMaximumActiveRuns := by rw [hsame]
    rw [← hactiveLimit, ← hmaximum]
    exact hsecond.tenantActive
  · apply hback h.workspaceActiveCount
    have hmaximum : second.workspaceMaximumActiveRuns = first.workspaceMaximumActiveRuns := by
      rw [hsame]
    rw [← hactiveLimit, ← hmaximum]
    exact hsecond.workspaceActive

structure Classed (input : AdmissionInput) (priorityClass : PriorityClass)
    (admissionClass : AdmissionClass) : Prop where
  priority : enumValue priorityClasses input.priorityClass "priorityClass" (ascii "standard") =
    .ok priorityClass
  admission : enumValue admissionClasses input.admissionClass "admissionClass"
    (ascii "standard") = .ok admissionClass

theorem HeavierInput.classed {first second : AdmissionInput} (h : HeavierInput first second)
    {p : PriorityClass} {a : AdmissionClass} (hfirst : Classed first p a) : Classed second p a := by
  have hsame := h.same
  constructor
  · rw [hsame]
    exact hfirst.priority
  · rw [hsame]
    exact hfirst.admission

def pressedBy (signals : BackpressureSignals) (thresholds : BackpressureThresholds)
    (input : AdmissionInput) : AdmissionInput :=
  { input with
    backpressureState := calculateBackpressure signals thresholds
    databasePressureCategory := signals.databasePressureCategory }

def answer (signals : BackpressureSignals) (thresholds : BackpressureThresholds)
    (input : AdmissionInput) (p : PriorityClass) (a : AdmissionClass) : AdmissionOutcome :=
  (refusal input).getD (decideByState (pressedBy signals thresholds input) p a)

theorem admit_classed {signals : BackpressureSignals} {input : AdmissionInput} {p : PriorityClass}
    {a : AdmissionClass} (h : Classed input p a) :
    admitted signals thresholds input = .ok (answer signals thresholds input p a) := by
  have hrefusal : refusal (pressedBy signals thresholds input) = refusal input := rfl
  have hpriority : enumValue priorityClasses (pressedBy signals thresholds input).priorityClass
      "priorityClass" (ascii "standard") = .ok p := h.priority
  have hadmission : enumValue admissionClasses (pressedBy signals thresholds input).admissionClass
      "admissionClass" (ascii "standard") = .ok a := h.admission
  change evaluateAdmissionOutcome (pressedBy signals thresholds input) = _
  unfold evaluateAdmissionOutcome answer
  rw [hpriority, hadmission, hrefusal]
  cases refusal input <;> rfl

theorem classed_of_admit {signals : BackpressureSignals} {input : AdmissionInput}
    {outcome : AdmissionOutcome} (h : admitted signals thresholds input = .ok outcome) :
    ∃ p a, Classed input p a := by
  unfold admitted evaluateAdmissionOutcome at h
  cases hp : enumValue priorityClasses input.priorityClass "priorityClass" (ascii "standard") with
  | error failure =>
    simp only [hp] at h
    cases h
  | ok p =>
    cases ha : enumValue admissionClasses input.admissionClass "admissionClass"
        (ascii "standard") with
    | error failure =>
      simp only [hp, ha] at h
      cases h
    | ok a => exact ⟨p, a, hp, ha⟩

theorem answer_unrefused {input : AdmissionInput} (h : Unrefused input)
    (signals : BackpressureSignals) (p : PriorityClass) (a : AdmissionClass) :
    (answer signals thresholds input p a).decision.permissiveness =
      permissionOf (pressedBy signals thresholds input) p a := by
  unfold answer
  rw [refusal_none.mpr h]
  rfl

theorem answer_refused {input : AdmissionInput} (h : ¬Unrefused input)
    (signals : BackpressureSignals) (p : PriorityClass) (a : AdmissionClass) :
    (answer signals thresholds input p a).decision.permissiveness = 0 := by
  unfold answer
  cases hrefusal : refusal input with
  | none => exact absurd (refusal_none.mp hrefusal) h
  | some refused => exact refusal_rejects hrefusal

/-- The second answer is no more permissive than the first, if both decide. -/
def NoMorePermissive (first second : Except ScaleFailure AdmissionOutcome) : Prop :=
  ∀ outcome₁ outcome₂, first = .ok outcome₁ → second = .ok outcome₂ →
    outcome₂.decision.permissiveness ≤ outcome₁.decision.permissiveness

/-- Protected work of low priority meets an elevated load first, and then a saturated one at which
there is capacity kept for it. -/
structure Overtakes (thresholds : BackpressureThresholds) (first second : BackpressureSignals)
    (input heavier : AdmissionInput) : Prop where
  classed : Classed input .low .protectedClass ∨ Classed input .maintenance .protectedClass
  running : first.paused = false
  elevated : ReachesElevated first thresholds
  unsaturated : ¬ReachesSaturated first thresholds
  saturated : ReachesSaturated second thresholds
  capacity : input.protectedCapacityAvailable = true
  unrefused : Unrefused heavier

theorem underPressure_severity {signals : BackpressureSignals}
    (h : underPressure signals.databasePressureCategory = true) :
    3 ≤ severity signals thresholds := by
  have hdatabase : 3 ≤ severityOfDatabase signals.databasePressureCategory := by
    cases hcategory : signals.databasePressureCategory with
    | healthy =>
      rw [hcategory] at h
      cases h
    | elevated =>
      rw [hcategory] at h
      cases h
    | degraded => exact Nat.le_refl 3
    | unavailable => exact Nat.le_succ 3
  exact hdatabase.trans (le_max_right _ _)

theorem underPressure_mono {first second : BackpressureSignals} (h : HeavierSignals first second)
    (hpressed : underPressure first.databasePressureCategory = true) :
    underPressure second.databasePressureCategory = true := by
  have hworse := h.databasePressureCategory
  revert hpressed hworse
  cases first.databasePressureCategory <;> cases second.databasePressureCategory <;> decide

theorem state_of_level {state other : BackpressureState} (h : state.level = other.level) :
    state = other := by
  cases state <;> cases other <;> first | rfl | cases h

theorem calculateBackpressure_of_severity {signals : BackpressureSignals}
    (hrunning : signals.paused = false) {state : BackpressureState}
    (hseverity : severity signals thresholds = state.level) :
    calculateBackpressure signals thresholds = state := by
  apply state_of_level
  rw [level_calculateBackpressure, hrunning, ← hseverity]
  rfl

section Pairs

variable {first second : BackpressureSignals} {input heavier : AdmissionInput}

theorem permission_sameState (hsignals : HeavierSignals first second)
    (hinput : HeavierInput input heavier)
    (hstate : calculateBackpressure second thresholds = calculateBackpressure first thresholds)
    (p : PriorityClass) (a : AdmissionClass) :
    permissionOf (pressedBy second thresholds heavier) p a ≤
      permissionOf (pressedBy first thresholds input) p a := by
  have hsame := hinput.same
  apply permissionOf_pressed
  · exact hstate
  · refine ⟨?_, ?_, ?_⟩
    · change heavier.policy.overloadBehavior = input.policy.overloadBehavior
      rw [hsame]
    · change heavier.controlOperation = input.controlOperation
      rw [hsame]
    · change heavier.protectedCapacityAvailable = input.protectedCapacityAvailable
      rw [hsame]
  · exact underPressure_mono hsignals

theorem permission_guarded {p : PriorityClass} {a : AdmissionClass}
    (hguarded : protectedWork p a = true) (hrunning : second.paused = false)
    (hseverity : 3 ≤ severity second thresholds) (heavier : AdmissionInput) :
    permissionOf (pressedBy second thresholds heavier) p a =
      if heavier.protectedCapacityAvailable then 3 else 0 := by
  have hbound := severity_le second thresholds
  apply permissionOf_guarded hguarded
  by_cases hsaturated : severity second thresholds = 3
  · left
    exact calculateBackpressure_of_severity hrunning hsaturated
  · right
    have hshedding : severity second thresholds = BackpressureState.shedding.level := by
      change _ = 4
      omega
    exact calculateBackpressure_of_severity hrunning hshedding

theorem permission_elevated (hrunning : first.paused = false)
    (hseverity : severity first thresholds = 2) (input : AdmissionInput) (p : PriorityClass)
    (a : AdmissionClass) :
    permissionOf (pressedBy first thresholds input) p a = elevatedPermission p := by
  apply permissionOf_elevated
  · by_contra hpressed
    have hsevere : 3 ≤ severity first thresholds :=
      underPressure_severity (Bool.not_eq_false _ ▸ hpressed)
    omega
  · exact calculateBackpressure_of_severity hrunning hseverity

theorem permission_cases (hsignals : HeavierSignals first second)
    (hinput : HeavierInput input heavier) (p : PriorityClass) (a : AdmissionClass) :
    permissionOf (pressedBy second thresholds heavier) p a ≤
        permissionOf (pressedBy first thresholds input) p a ∨
      ((p = .low ∨ p = .maintenance) ∧ a = .protectedClass ∧ first.paused = false ∧
        severity first thresholds = 2 ∧ 3 ≤ severity second thresholds ∧
        input.protectedCapacityAvailable = true) := by
  have hmono := severity_mono hsignals thresholds
  have hlow := one_le_severity first thresholds
  have hhigh := severity_le second thresholds
  cases hrunning : first.paused with
  | true =>
    left
    apply permission_sameState hsignals hinput
    unfold calculateBackpressure
    rw [hsignals.paused, hrunning, if_pos rfl, if_pos rfl]
  | false =>
    have hrunning₂ : second.paused = false := hsignals.paused.trans hrunning
    by_cases hequal : severity second thresholds = severity first thresholds
    · left
      apply permission_sameState hsignals hinput
      unfold calculateBackpressure
      rw [hsignals.paused, hequal]
    · by_cases hnormal : severity first thresholds = 1
      · left
        have hunpressed : underPressure first.databasePressureCategory = false := by
          by_contra hpressed
          have hsevere : 3 ≤ severity first thresholds :=
            underPressure_severity (Bool.not_eq_false _ ▸ hpressed)
          omega
        have hfirst : permissionOf (pressedBy first thresholds input) p a = 3 :=
          permissionOf_normal hunpressed (calculateBackpressure_of_severity hrunning hnormal)
        rw [hfirst]
        exact permissiveness_le _
      · have hsecond : 3 ≤ severity second thresholds := by omega
        cases hguarded : protectedWork p a with
        | true =>
          have hpermission₂ := permission_guarded hguarded hrunning₂ hsecond heavier
          have hcapacity : heavier.protectedCapacityAvailable = input.protectedCapacityAvailable := by
            rw [hinput.same]
          by_cases helevated : severity first thresholds = 2
          · have hpermission₁ := permission_elevated hrunning helevated input p a
            rw [hpermission₁, hpermission₂, hcapacity]
            cases hkept : input.protectedCapacityAvailable with
            | false =>
              left
              exact Nat.zero_le _
            | true =>
              cases p with
              | criticalRecovery =>
                left
                exact Nat.le_refl 3
              | high =>
                left
                exact Nat.le_refl 3
              | standard =>
                left
                exact Nat.le_refl 3
              | low =>
                right
                refine ⟨.inl rfl, ?_, rfl, helevated, hsecond, rfl⟩
                cases a <;> first | rfl | cases hguarded
              | maintenance =>
                right
                refine ⟨.inr rfl, ?_, rfl, helevated, hsecond, rfl⟩
                cases a <;> first | rfl | cases hguarded
          · left
            have hfirst : 3 ≤ severity first thresholds := by omega
            have hpermission₁ := permission_guarded hguarded hrunning hfirst input
            rw [hpermission₁, hpermission₂, hcapacity]
        | false =>
          left
          by_cases hshedding : severity second thresholds = 4
          · have hpermission₂ : permissionOf (pressedBy second thresholds heavier) p a = 0 :=
              permissionOf_shedding hguarded
                (calculateBackpressure_of_severity hrunning₂ hshedding)
            rw [hpermission₂]
            exact Nat.zero_le _
          · have hsaturated : severity second thresholds = 3 := by omega
            have helevated : severity first thresholds = 2 := by omega
            rw [permission_elevated hrunning helevated input p a]
            exact permissionOf_saturated hguarded
              (calculateBackpressure_of_severity hrunning₂ hsaturated)

/-- More load makes an admission no more permissive, unless it overtakes. -/
theorem admission_monotone_iff (hthresholds : thresholds.Ordered)
    (hsignals : HeavierSignals first second) (hinput : HeavierInput input heavier) :
    NoMorePermissive (admitted first thresholds input) (admitted second thresholds heavier) ↔
      ¬Overtakes thresholds first second input heavier := by
  constructor
  · intro hmonotone h
    obtain ⟨p, hp, hclassed⟩ : ∃ p, (p = .low ∨ p = .maintenance) ∧
        Classed input p .protectedClass := by
      rcases h.classed with hclassed | hclassed
      · exact ⟨.low, .inl rfl, hclassed⟩
      · exact ⟨.maintenance, .inr rfl, hclassed⟩
    have hfirst := unrefused_of_heavier hinput h.unrefused
    have hle := hmonotone _ _ (admit_classed hclassed) (admit_classed (hinput.classed hclassed))
    have hlow := (reachesElevated_iff hthresholds first).mp h.elevated
    have hbelow := h.unsaturated
    rw [reachesSaturated_iff hthresholds] at hbelow
    have hseverity : severity first thresholds = 2 := by omega
    have hguarded : protectedWork p .protectedClass = true := rfl
    have hcapacity : heavier.protectedCapacityAvailable = true := by
      rw [hinput.same]
      exact h.capacity
    rw [answer_unrefused hfirst, answer_unrefused h.unrefused,
      permission_elevated h.running hseverity, permission_guarded hguarded
        (hsignals.paused.trans h.running) ((reachesSaturated_iff hthresholds second).mp h.saturated),
      hcapacity] at hle
    rcases hp with rfl | rfl
    · exact absurd hle (by decide)
    · exact absurd hle (by decide)
  · intro hfree outcome₁ outcome₂ h₁ h₂
    obtain ⟨p, a, hclassed⟩ := classed_of_admit h₁
    rw [admit_classed hclassed] at h₁
    rw [admit_classed (hinput.classed hclassed)] at h₂
    obtain rfl := Except.ok.inj h₁
    obtain rfl := Except.ok.inj h₂
    by_cases hsecond : Unrefused heavier
    · have hfirst := unrefused_of_heavier hinput hsecond
      rw [answer_unrefused hfirst, answer_unrefused hsecond]
      rcases permission_cases hsignals hinput p a with hle | hovertakes
      · exact hle
      · obtain ⟨hp, rfl, hrunning, helevated, hsaturated, hcapacity⟩ := hovertakes
        refine absurd ⟨?_, hrunning, ?_, ?_, ?_, hcapacity, hsecond⟩ hfree
        · rcases hp with rfl | rfl
          · exact .inl hclassed
          · exact .inr hclassed
        · rw [reachesElevated_iff hthresholds]
          omega
        · rw [reachesSaturated_iff hthresholds]
          omega
        · rw [reachesSaturated_iff hthresholds]
          exact hsaturated
    · rw [answer_refused hsecond]
      exact Nat.zero_le _

end Pairs

theorem defaultThresholds_ordered : ({} : BackpressureThresholds).Ordered := by
  constructor
  · exact ⟨by decide +kernel, by decide +kernel⟩
  · exact ⟨by decide +kernel, by decide +kernel⟩
  · exact ⟨by decide +kernel, by decide +kernel⟩
  · exact ⟨by decide +kernel, by decide +kernel⟩

def queueSignals (queueDepth : ℕ) : BackpressureSignals where
  paused := false
  queueDepth := .ofNat queueDepth
  oldestQueueAgeMs := .ofNat 0
  workerUtilizationBasisPoints := .ofNat 0
  leaseExpiryRateBasisPoints := .ofNat 0
  databasePressureCategory := .healthy

def projectionInput : AdmissionInput where
  priorityClass := .string (ascii "low")
  admissionClass := .string (ascii "protected")

theorem queueSignals_heavier {a b : ℕ} (h : (Number.ofNat a).le (.ofNat b) = true) :
    HeavierSignals (queueSignals a) (queueSignals b) where
  paused := rfl
  queueDepth := .inr h
  oldestQueueAgeMs := .inl rfl
  workerUtilizationBasisPoints := .inl rfl
  leaseExpiryRateBasisPoints := .inl rfl
  databasePressureCategory := Nat.le_refl _

theorem HeavierInput.refl (input : AdmissionInput) : HeavierInput input input where
  same := rfl
  payloadBytesEstimate := .inl rfl
  tenantQueuedCount := .inl rfl
  workspaceQueuedCount := .inl rfl
  tenantActiveCount := .inl rfl
  workspaceActiveCount := .inl rfl

private theorem queues_le : (Number.ofNat 0).le (.ofNat 500) = true ∧
    (Number.ofNat 100).le (.ofNat 500) = true := by
  decide +kernel

theorem admission_monotone_iff_queues :
    NoMorePermissive (admitted (queueSignals 0) {} projectionInput)
        (admitted (queueSignals 500) {} projectionInput) ↔
      ¬Overtakes {} (queueSignals 0) (queueSignals 500) projectionInput projectionInput :=
  admission_monotone_iff defaultThresholds_ordered
    (queueSignals_heavier queues_le.1) (HeavierInput.refl projectionInput)

theorem projection_admitted : admitted (queueSignals 100) {} projectionInput =
      .ok ⟨.acceptedDeferred, ascii "ORCHESTRATION_ADMISSION_DEFERRED", some 202, false⟩ ∧
    admitted (queueSignals 500) {} projectionInput =
      .ok ⟨.accepted, ascii "PROTECTED_CAPACITY_USED", some 201, true⟩ := by
  decide +kernel

/-- A projection is deferred while a hundred items are queued, and taken while five hundred are. -/
theorem admission_not_monotone :
    ¬∀ (thresholds : BackpressureThresholds) (first second : BackpressureSignals)
      (input heavier : AdmissionInput), thresholds.Ordered → HeavierSignals first second →
        HeavierInput input heavier →
          NoMorePermissive (admitted first thresholds input) (admitted second thresholds heavier) := by
  intro h
  have hle := h {} (queueSignals 100) (queueSignals 500) projectionInput projectionInput
    defaultThresholds_ordered (queueSignals_heavier queues_le.2)
    (HeavierInput.refl projectionInput) _ _ projection_admitted.1 projection_admitted.2
  exact absurd hle (by decide)

end GhostBridge.ProductionScale
