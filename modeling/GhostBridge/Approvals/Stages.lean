import GhostBridge.Approvals.Decisions

/-!
# The stages of a request

What the stored decisions say about the stages of a request, and that a recording keeps it when it
was made from the stored documents.
-/

namespace GhostBridge.Approvals

open Ecma

def approvals (decisions : List ApprovalDecision) (id : Text) (stage : ApprovalStage) :
    List ApprovalDecision :=
  decisions.filter fun d => d.approvalRequestId = id ∧ d.approves stage

/-- The approvals of a stage come from approvers that it admits. -/
structure Qualified (stages : List ApprovalStage) (request : ApprovalRequest)
    (decisions : List ApprovalDecision) (stage : ApprovalStage) : Prop where
  distinct : ((approvals decisions request.approvalRequestId stage).map
    ApprovalDecision.approverActorId).Nodup
  requester : stage.excludeRequester = true →
    ∀ d ∈ approvals decisions request.approvalRequestId stage, isRequester d.approver request = false
  previous : stage.excludePreviousStageApprovers = true →
    ∀ earlier ∈ stages, earlier.position < stage.position →
      ∀ d ∈ approvals decisions request.approvalRequestId stage,
        ∀ e ∈ approvals decisions request.approvalRequestId earlier,
          e.approverActorId ≠ d.approverActorId

/-- A stage has as many approvals as it asks for. -/
def Reached (request : ApprovalRequest) (decisions : List ApprovalDecision)
    (stage : ApprovalStage) : Prop :=
  stage.required ≤ (approvals decisions request.approvalRequestId stage).length

def grantCount (grants : List ApprovalGrant) (id : Text) : ℕ :=
  (grants.map ApprovalGrant.approvalRequestId).count id

def RequestStatus.isGranted (status : RequestStatus) : Bool :=
  [.approved, .consumed, .executionFailed, .recoveryRequired].contains status

/-- What holds of a request with all decisions and grants that are stored. -/
structure Standing (stages : List ApprovalStage) (request : ApprovalRequest)
    (decisions : List ApprovalDecision) (grants : List ApprovalGrant) : Prop where
  sequence : 1 ≤ request.currentStageSequence ∧ request.currentStageSequence ≤ stages.length
  qualified : ∀ stage ∈ stages, Qualified stages request decisions stage
  passed : ∀ stage ∈ stages, stage.position < request.currentStageSequence →
    Reached request decisions stage
  ahead : ∀ d ∈ decisions, d.approvalRequestId = request.approvalRequestId →
    ∀ stage ∈ stages, stage.stageId = d.stageId → stage.position ≤ request.currentStageSequence
  organization : ∀ d ∈ decisions, d.approvalRequestId = request.approvalRequestId →
    d.organizationId = request.organizationId
  rejected : ∀ d ∈ decisions, d.approvalRequestId = request.approvalRequestId →
    d.decision = .reject → request.status = .rejected
  ungranted : request.status.isOpen = true → grantCount grants request.approvalRequestId = 0
  granted : request.status.isGranted = true → grantCount grants request.approvalRequestId = 1
  atMostOne : grantCount grants request.approvalRequestId ≤ 1
  approved : 0 < grantCount grants request.approvalRequestId →
    ∀ stage ∈ stages, Reached request decisions stage

variable {workflow : ApprovalWorkflow} {request : ApprovalRequest} {stage : ApprovalStage}
  {approver : Approver} {decision : DecisionKind} {decisions : List ApprovalDecision}
  {grants : List ApprovalGrant} {recording : Recording}

theorem approvals_concat (d : ApprovalDecision) (id : Text) (stage : ApprovalStage) :
    approvals (decisions ++ [d]) id stage = approvals decisions id stage ++
      if d.approvalRequestId = id ∧ d.approves stage = true then [d] else [] := by
  simp only [approvals, List.filter_append, List.filter_cons, List.filter_nil, decide_eq_true_eq]

theorem Reached.concat {request : ApprovalRequest} {stage : ApprovalStage}
    (h : Reached request decisions stage) (d : ApprovalDecision) :
    Reached request (decisions ++ [d]) stage := by
  unfold Reached at *
  rw [approvals_concat, List.length_append]
  omega

theorem ValidStages.eq_of_position {stages : List ApprovalStage} (h : ValidStages stages)
    {a b : ApprovalStage} (ha : a ∈ stages) (hb : b ∈ stages) (hab : a.position = b.position) :
    a = b := by
  obtain ⟨i, hi, rfl⟩ := List.getElem_of_mem ha
  obtain ⟨j, hj, rfl⟩ := List.getElem_of_mem hb
  rw [h.position i hi, h.position j hj] at hab
  have hindex : i = j := by omega
  subst hindex
  rfl

theorem ValidStages.eq_of_stageId {stages : List ApprovalStage} (h : ValidStages stages)
    {a b : ApprovalStage} (ha : a ∈ stages) (hb : b ∈ stages) (hab : a.stageId = b.stageId) :
    a = b :=
  List.inj_on_of_nodup_map h.identifiers ha hb hab

theorem ValidStages.position_le {stages : List ApprovalStage} (h : ValidStages stages)
    (hmem : stage ∈ stages) : 1 ≤ stage.position ∧ stage.position ≤ stages.length := by
  obtain ⟨i, hi, rfl⟩ := List.getElem_of_mem hmem
  rw [h.position i hi]
  omega

theorem currentStage_some (h : currentStage workflow request = some stage) :
    stage ∈ workflow.stages ∧ stage.position = request.currentStageSequence := by
  unfold currentStage at h
  have hsequence := List.find?_some h
  rw [decide_eq_true_eq] at hsequence
  exact ⟨List.mem_of_find?_eq_some h, by simp [ApprovalStage.position, hsequence]⟩

theorem checkEligibility_ok {request : ApprovalRequest} {stage : ApprovalStage}
    {identity : Option Approver} {approver : Approver}
    (h : checkEligibility request stage identity = .ok approver) : identity = some approver ∧
      (stage.excludeRequester = true → isRequester approver request = false) := by
  unfold checkEligibility at h
  split at h
  · cases h
  next found =>
    dsimp only at h
    split at h
    · cases h
    split at h
    · cases h
    next hrequester =>
      split at h
      · cases h
      split at h
      · cases h
      split at h
      · cases h
      obtain rfl : found = approver := by simpa using h
      exact ⟨rfl, fun hexclude => by simpa [hexclude] using hrequester⟩

theorem recordingOf_ok (h : recordingOf workflow request stage approver decisions decision =
    .ok recording) :
    (∀ d ∈ decisions, d.stageId = stage.stageId → d.approverActorId ≠ approver.id) ∧
    (stage.excludePreviousStageApprovers = true → ∀ d ∈ decisions, d.decision = .approve →
      d.approverActorId ≠ approver.id) ∧
    recording = {
      decision := decisionPayload request stage approver decision
      revision := request.revision
      nextStatus := (afterDecision workflow request stage decisions decision).1
      nextStage := (afterDecision workflow request stage decisions decision).2
      singleUseGrant := workflow.singleUseGrant } := by
  unfold recordingOf at h
  split at h
  · cases h
  next hduplicate =>
    split at h
    · cases h
    next hprevious =>
      simp only [pure_ok] at h
      refine ⟨?_, ?_, h.symm⟩
      · simpa using hduplicate
      · intro hexclude
        simpa [hexclude] using hprevious

def decisionsOn (decisions : List ApprovalDecision) (request : ApprovalRequest) :
    List ApprovalDecision :=
  decisions.filter fun d =>
    d.organizationId = request.organizationId ∧ d.approvalRequestId = request.approvalRequestId

structure Recordable (workflow : ApprovalWorkflow) (request : ApprovalRequest)
    (stage : ApprovalStage) (approver : Approver) (decisions : List ApprovalDecision)
    (decision : DecisionKind) (recording : Recording) : Prop where
  isOpen : request.status.isOpen = true
  current : currentStage workflow request = some stage
  eligible : checkEligibility request stage (some approver) = .ok approver
  recorded : recordingOf workflow request stage approver (decisionsOn decisions request) decision =
    .ok recording

section Recordable

variable (h : Recordable workflow request stage approver decisions decision recording)

include h

theorem Recordable.decision_eq :
    recording.decision = decisionPayload request stage approver decision := by
  obtain ⟨-, -, rfl⟩ := recordingOf_ok h.recorded
  rfl

theorem Recordable.approvals_other (hvalid : ValidStages workflow.stages) {other : ApprovalStage}
    (hother : other ∈ workflow.stages) (hne : other ≠ stage) :
    approvals (decisions ++ [recording.decision]) request.approvalRequestId other =
      approvals decisions request.approvalRequestId other := by
  have hdifferent : recording.decision.approves other = false := by
    have hstage : stage.stageId ≠ other.stageId := fun hsame =>
      hne (hvalid.eq_of_stageId hother (currentStage_some h.current).1 hsame.symm)
    simp [h.decision_eq, ApprovalDecision.approves, decisionPayload, hstage]
  simp [approvals_concat, hdifferent]

theorem Recordable.approvals_reject (hreject : decision = .reject) (other : ApprovalStage) :
    approvals (decisions ++ [recording.decision]) request.approvalRequestId other =
      approvals decisions request.approvalRequestId other := by
  have hdifferent : recording.decision.approves other = false := by
    simp [h.decision_eq, ApprovalDecision.approves, decisionPayload, hreject]
  simp [approvals_concat, hdifferent]

theorem Recordable.approvals_approve (happrove : decision = .approve) :
    approvals (decisions ++ [recording.decision]) request.approvalRequestId stage =
      approvals decisions request.approvalRequestId stage ++ [recording.decision] := by
  have happroves : recording.decision.approves stage = true := by
    simp [h.decision_eq, ApprovalDecision.approves, decisionPayload, happrove]
  have hid : recording.decision.approvalRequestId = request.approvalRequestId := by
    rw [h.decision_eq]
    rfl
  simp [approvals_concat, happroves, hid]

theorem Recordable.mem_approvals (hvalid : ValidStages workflow.stages) {other : ApprovalStage}
    (hother : other ∈ workflow.stages) {d : ApprovalDecision}
    (hd : d ∈ approvals (decisions ++ [recording.decision]) request.approvalRequestId other) :
    d ∈ approvals decisions request.approvalRequestId other ∨
      d = recording.decision ∧ other = stage := by
  by_cases hstage : other = stage
  · subst hstage
    cases hdecision : decision with
    | reject =>
      rw [h.approvals_reject hdecision] at hd
      exact .inl hd
    | approve =>
      rw [h.approvals_approve hdecision, List.mem_append, List.mem_singleton] at hd
      exact hd.imp_right fun hd => ⟨hd, rfl⟩
  · rw [h.approvals_other hvalid hother hstage] at hd
    exact .inl hd

end Recordable

theorem Standing.mem_decisionsOn {stages : List ApprovalStage}
    (h : Standing stages request decisions grants) {other : ApprovalStage} {d : ApprovalDecision}
    (hd : d ∈ approvals decisions request.approvalRequestId other) :
    d ∈ decisionsOn decisions request ∧ d.stageId = other.stageId ∧ d.decision = .approve := by
  simp only [approvals, List.mem_filter, ApprovalDecision.approves, decide_eq_true_eq] at hd
  obtain ⟨hmem, hid, hstage, happrove⟩ := hd
  refine ⟨?_, hstage, happrove⟩
  simp only [decisionsOn, List.mem_filter, decide_eq_true_eq]
  exact ⟨hmem, h.organization d hmem hid, hid⟩

theorem Standing.length_approvals {stages : List ApprovalStage}
    (h : Standing stages request decisions grants) (other : ApprovalStage) :
    ((decisionsOn decisions request).filter (ApprovalDecision.approves other)).length =
      (approvals decisions request.approvalRequestId other).length := by
  unfold decisionsOn approvals
  rw [List.filter_filter]
  congr 1
  apply List.filter_congr
  intro d hd
  by_cases hid : d.approvalRequestId = request.approvalRequestId
  · simp [hid, h.organization d hd hid]
  · simp [hid]

theorem grantCount_eq_zero {id : Text} :
    grantCount grants id = 0 ↔ ∀ grant ∈ grants, grant.approvalRequestId ≠ id := by
  simp [grantCount, List.count_eq_zero]

theorem grantCount_withGrant {singleUse : Bool}
    (h : grantCount grants request.approvalRequestId = 0) :
    grantCount (withGrant grants request singleUse) request.approvalRequestId = 1 := by
  have hnone : (grants.any (·.approvalRequestId = request.approvalRequestId)) = false := by
    simpa using grantCount_eq_zero.mp h
  unfold withGrant
  rw [hnone]
  unfold grantCount at *
  simp [h, grantOf]

theorem isOpen_iff {status : RequestStatus} :
    status.isOpen = true ↔ status = .pending ∨ status = .partiallyApproved := by
  simp [RequestStatus.isOpen]

section Recorded

variable (hvalid : ValidStages workflow.stages)
  (hstanding : Standing workflow.stages request decisions grants)
  (h : Recordable workflow request stage approver decisions decision recording)

include hvalid hstanding h

theorem Recordable.distinct {other : ApprovalStage} (hother : other ∈ workflow.stages) :
    ((approvals (decisions ++ [recording.decision]) request.approvalRequestId other).map
      ApprovalDecision.approverActorId).Nodup := by
  have hbefore := (hstanding.qualified other hother).distinct
  by_cases hstage : other = stage
  · subst hstage
    cases hdecision : decision with
    | reject => rwa [h.approvals_reject hdecision]
    | approve =>
      rw [h.approvals_approve hdecision, List.map_append, List.map_singleton]
      apply List.Nodup.append hbefore (List.nodup_singleton _)
      intro id hid hnew
      obtain ⟨d, hd, rfl⟩ := List.mem_map.mp hid
      obtain ⟨hmem, hsame, -⟩ := hstanding.mem_decisionsOn hd
      apply (recordingOf_ok h.recorded).1 d hmem hsame
      rw [List.mem_singleton, h.decision_eq] at hnew
      exact hnew
  · rwa [h.approvals_other hvalid hother hstage]

theorem Recordable.requester {other : ApprovalStage} (hother : other ∈ workflow.stages)
    (hexclude : other.excludeRequester = true) {d : ApprovalDecision}
    (hd : d ∈ approvals (decisions ++ [recording.decision]) request.approvalRequestId other) :
    isRequester d.approver request = false := by
  rcases h.mem_approvals hvalid hother hd with hold | ⟨rfl, rfl⟩
  · exact (hstanding.qualified other hother).requester hexclude d hold
  · rw [h.decision_eq]
    exact (checkEligibility_ok h.eligible).2 hexclude

theorem Recordable.previous {other earlier : ApprovalStage} (hother : other ∈ workflow.stages)
    (hexclude : other.excludePreviousStageApprovers = true) (hearlier : earlier ∈ workflow.stages)
    (hlt : earlier.position < other.position) {d e : ApprovalDecision}
    (hd : d ∈ approvals (decisions ++ [recording.decision]) request.approvalRequestId other)
    (he : e ∈ approvals (decisions ++ [recording.decision]) request.approvalRequestId earlier) :
    e.approverActorId ≠ d.approverActorId := by
  have hcurrent := (currentStage_some h.current).2
  rcases h.mem_approvals hvalid hother hd with hd | ⟨rfl, rfl⟩
  · rcases h.mem_approvals hvalid hearlier he with he | ⟨rfl, rfl⟩
    · exact (hstanding.qualified other hother).previous hexclude earlier hearlier hlt d hd e he
    -- A later stage has no approvals yet.
    · simp only [approvals, List.mem_filter, ApprovalDecision.approves, decide_eq_true_eq] at hd
      obtain ⟨hmem, hid, hsame, -⟩ := hd
      have hposition := hstanding.ahead d hmem hid other hother hsame.symm
      omega
  · rcases h.mem_approvals hvalid hearlier he with he | ⟨rfl, rfl⟩
    · obtain ⟨hmem, -, happrove⟩ := hstanding.mem_decisionsOn he
      rw [h.decision_eq]
      exact (recordingOf_ok h.recorded).2.1 hexclude e hmem happrove
    · exact absurd hlt (lt_irrefl _)

theorem Recordable.qualified {other : ApprovalStage} (hother : other ∈ workflow.stages) :
    Qualified workflow.stages (recording.update request) (decisions ++ [recording.decision])
      other where
  distinct := h.distinct hvalid hstanding hother
  requester hexclude _ hd := h.requester hvalid hstanding hother hexclude hd
  previous hexclude _ hearlier hlt _ hd _ he :=
    h.previous hvalid hstanding hother hexclude hearlier hlt hd he

omit hvalid in
theorem Recordable.cases :
    (decision = .reject ∧ recording.nextStatus = .rejected ∧
      recording.nextStage = request.currentStageSequence) ∨
    (decision = .approve ∧ recording.nextStatus = .partiallyApproved ∧
      recording.nextStage = request.currentStageSequence) ∨
    (decision = .approve ∧ Reached request (decisions ++ [recording.decision]) stage ∧
      workflow.stages.length ≤ stage.position ∧ recording.nextStatus = .approved ∧
      recording.nextStage = request.currentStageSequence) ∨
    (decision = .approve ∧ Reached request (decisions ++ [recording.decision]) stage ∧
      stage.position < workflow.stages.length ∧ recording.nextStatus = .partiallyApproved ∧
      recording.nextStage = request.currentStageSequence + 1) := by
  have hcurrent := (currentStage_some h.current).2
  have hrecording := (recordingOf_ok h.recorded).2.2
  cases hdecision : decision with
  | reject =>
    subst hdecision
    exact .inl ⟨rfl, by rw [hrecording]; rfl, by rw [hrecording]; rfl⟩
  | approve =>
    subst hdecision
    right
    have hlength : (approvals (decisions ++ [recording.decision]) request.approvalRequestId
        stage).length = (approvals decisions request.approvalRequestId stage).length + 1 := by
      rw [h.approvals_approve rfl, List.length_append, List.length_singleton]
    have hstatus : recording.nextStatus = (afterDecision workflow request stage
        (decisionsOn decisions request) .approve).1 := by rw [hrecording]
    have hstage : recording.nextStage = (afterDecision workflow request stage
        (decisionsOn decisions request) .approve).2 := by rw [hrecording]
    unfold afterDecision at hstatus hstage
    rw [hstanding.length_approvals] at hstatus hstage
    by_cases henough : stage.required ≤
        ((approvals decisions request.approvalRequestId stage).length : Int) + 1
    · rw [if_pos henough] at hstatus hstage
      have hreached : Reached request (decisions ++ [recording.decision]) stage := by
        unfold Reached
        rw [hlength]
        exact_mod_cast henough
      right
      by_cases hlast : (workflow.stages.length : Int) ≤ stage.position
      · rw [if_pos hlast] at hstatus hstage
        exact .inl ⟨rfl, hreached, hlast, hstatus, hstage⟩
      · rw [if_neg hlast] at hstatus hstage
        exact .inr ⟨rfl, hreached, not_le.mp hlast, hstatus, hcurrent ▸ hstage⟩
    · rw [if_neg henough] at hstatus hstage
      exact .inl ⟨rfl, hstatus, hstage⟩

omit hvalid in
theorem Recordable.currentStageSequence_le :
    request.currentStageSequence ≤ recording.nextStage := by
  rcases h.cases hstanding with ⟨-, -, hnext⟩ | ⟨-, -, hnext⟩ | ⟨-, -, -, -, hnext⟩ |
    ⟨-, -, -, -, hnext⟩ <;> omega

theorem Recordable.passed {other : ApprovalStage} (hother : other ∈ workflow.stages)
    (hlt : other.position < recording.nextStage) :
    Reached request (decisions ++ [recording.decision]) other := by
  obtain ⟨hmem, hcurrent⟩ := currentStage_some h.current
  have hbefore (hearlier : other.position < request.currentStageSequence) :
      Reached request (decisions ++ [recording.decision]) other :=
    (hstanding.passed other hother hearlier).concat _
  rcases h.cases hstanding with ⟨-, -, hnext⟩ | ⟨-, -, hnext⟩ | ⟨-, -, -, -, hnext⟩ |
    ⟨-, hreached, -, -, hnext⟩
  · exact hbefore (hnext ▸ hlt)
  · exact hbefore (hnext ▸ hlt)
  · exact hbefore (hnext ▸ hlt)
  · rcases lt_or_eq_of_le (show other.position ≤ stage.position by omega) with hearlier | hsame
    · exact hbefore (hcurrent ▸ hearlier)
    · rw [hvalid.eq_of_position hother hmem hsame]
      exact hreached

theorem Recordable.approved (hstatus : recording.nextStatus = .approved) {other : ApprovalStage}
    (hother : other ∈ workflow.stages) :
    Reached request (decisions ++ [recording.decision]) other := by
  obtain ⟨hmem, hcurrent⟩ := currentStage_some h.current
  rcases h.cases hstanding with ⟨-, hnext, -⟩ | ⟨-, hnext, -⟩ | ⟨-, hreached, hlast, -, -⟩ |
    ⟨-, -, -, hnext, -⟩
  · simp [hnext] at hstatus
  · simp [hnext] at hstatus
  · have hposition := (hvalid.position_le hother).2
    rcases lt_or_eq_of_le (hposition.trans hlast) with hearlier | hsame
    · exact (hstanding.passed other hother (hcurrent ▸ hearlier)).concat _
    · rw [hvalid.eq_of_position hother hmem hsame]
      exact hreached
  · simp [hnext] at hstatus

omit hvalid in
theorem Recordable.grantCount :
    grantCount (if recording.nextStatus = .approved then
        withGrant grants (recording.update request) recording.singleUseGrant else grants)
      request.approvalRequestId = if recording.nextStatus = .approved then 1 else 0 := by
  have hbefore := hstanding.ungranted h.isOpen
  split
  · exact grantCount_withGrant hbefore
  · exact hbefore

theorem Standing.recorded : Standing workflow.stages (recording.update request)
    (decisions ++ [recording.decision]) (if recording.nextStatus = .approved then
      withGrant grants (recording.update request) recording.singleUseGrant else grants) := by
  obtain ⟨hmem, hcurrent⟩ := currentStage_some h.current
  have hcount := h.grantCount hstanding
  have hforward := h.currentStageSequence_le hstanding
  have hrecorded : ∀ d ∈ decisions ++ [recording.decision], d ∈ decisions ∨
      d = decisionPayload request stage approver decision := by
    intro d hd
    rw [List.mem_append, List.mem_singleton, h.decision_eq] at hd
    exact hd
  have hcases := h.cases hstanding
  constructor
  · have hposition := hvalid.position_le hmem
    change 1 ≤ recording.nextStage ∧ recording.nextStage ≤ _
    omega
  · exact fun other hother => h.qualified hvalid hstanding hother
  · exact fun other hother hlt => h.passed hvalid hstanding hother hlt
  · intro d hd hid other hother hsame
    rcases hrecorded d hd with hold | rfl
    · exact (hstanding.ahead d hold hid other hother hsame).trans hforward
    · obtain rfl := hvalid.eq_of_stageId hother hmem hsame
      exact hcurrent.trans_le hforward
  · intro d hd hid
    rcases hrecorded d hd with hold | rfl
    · exact hstanding.organization d hold hid
    · rfl
  · intro d hd hid hreject
    rcases hrecorded d hd with hold | rfl
    · have hstatus := hstanding.rejected d hold hid hreject
      have hopen := h.isOpen
      rw [hstatus] at hopen
      cases hopen
    · change recording.nextStatus = .rejected
      have hdecision : decision = .reject := hreject
      rw [hdecision] at hcases
      simp only [reduceCtorEq, false_and, or_false, true_and] at hcases
      exact hcases.1
  · intro hopen
    have hnext : recording.nextStatus ≠ .approved := fun happroved => by
      have : recording.nextStatus.isOpen = true := hopen
      simp [happroved, RequestStatus.isOpen] at this
    rw [if_neg hnext] at hcount ⊢
    rwa [if_neg hnext] at hcount
  · intro hgranted
    have hnext : recording.nextStatus = .approved := by
      have hgranted : recording.nextStatus.isGranted = true := hgranted
      rcases hcases with ⟨-, hnext, -⟩ | ⟨-, hnext, -⟩ | ⟨-, -, -, hnext, -⟩ | ⟨-, -, -, hnext, -⟩
      · simp [hnext, RequestStatus.isGranted] at hgranted
      · simp [hnext, RequestStatus.isGranted] at hgranted
      · exact hnext
      · simp [hnext, RequestStatus.isGranted] at hgranted
    rw [if_pos hnext] at hcount ⊢
    rwa [if_pos hnext] at hcount
  · change grantCount _ request.approvalRequestId ≤ 1
    rw [hcount]
    split <;> omega
  · intro hpositive other hother
    change 0 < grantCount _ request.approvalRequestId at hpositive
    rw [hcount] at hpositive
    split at hpositive
    · next hnext => exact h.approved hvalid hstanding hnext hother
    · exact absurd hpositive (lt_irrefl _)

end Recorded

inductive RequestStatus.Moves : RequestStatus → RequestStatus → Prop
  | expire {status : RequestStatus} (h : status.isOpen = true) : Moves status .expired
  | close {status : RequestStatus} (closure : Closure) (h : status.isClosable = true) :
    Moves status closure.status
  | consume : Moves .approved .consumed
  | fail (recoveryRequired : Bool) : Moves .consumed (failedStatus recoveryRequired)

def Moved (stored next : ApprovalRequest) : Prop :=
  ∃ status reasonCode, stored.status.Moves status ∧ next = stored.moveTo status reasonCode

def RequestStatus.isFinal (status : RequestStatus) : Bool :=
  [.rejected, .expired, .cancelled, .invalidated].contains status

namespace RequestStatus.Moves

variable {status next : RequestStatus}

theorem not_final (h : status.Moves next) : status.isFinal = false := by
  cases h with
  | expire hopen => rcases isOpen_iff.mp hopen with rfl | rfl <;> rfl
  | close closure hclosable => cases status <;> first | rfl | cases hclosable
  | consume => rfl
  | fail recoveryRequired => rfl

theorem not_open (h : status.Moves next) : next.isOpen = false := by
  cases h with
  | expire hopen => rfl
  | close closure hclosable => cases closure <;> rfl
  | consume => rfl
  | fail recoveryRequired => cases recoveryRequired <;> rfl

theorem granted (h : status.Moves next) (hnext : next.isGranted = true) :
    status.isGranted = true := by
  cases h with
  | expire hopen => cases hnext
  | close closure hclosable => cases closure <;> cases hnext
  | consume => rfl
  | fail recoveryRequired => rfl

end RequestStatus.Moves

theorem Standing.congr {stages : List ApprovalStage} {decisions' : List ApprovalDecision}
    {grants' : List ApprovalGrant} (hstanding : Standing stages request decisions grants)
    (happrovals : ∀ stage, approvals decisions' request.approvalRequestId stage =
      approvals decisions request.approvalRequestId stage)
    (hdecisions : ∀ d ∈ decisions', d.approvalRequestId = request.approvalRequestId →
      d ∈ decisions)
    (hcount : grantCount grants' request.approvalRequestId =
      grantCount grants request.approvalRequestId) :
    Standing stages request decisions' grants' := by
  have hreached {stage : ApprovalStage} (h : Reached request decisions stage) :
      Reached request decisions' stage := by
    unfold Reached
    rwa [happrovals]
  constructor
  · exact hstanding.sequence
  · intro stage hstage
    obtain ⟨hdistinct, hrequester, hprevious⟩ := hstanding.qualified stage hstage
    constructor
    · rwa [happrovals]
    · rwa [happrovals]
    · simpa only [happrovals] using hprevious
  · exact fun stage hstage hlt => hreached (hstanding.passed stage hstage hlt)
  · exact fun d hd hid => hstanding.ahead d (hdecisions d hd hid) hid
  · exact fun d hd hid => hstanding.organization d (hdecisions d hd hid) hid
  · exact fun d hd hid => hstanding.rejected d (hdecisions d hd hid) hid
  · exact fun hopen => hcount.trans (hstanding.ungranted hopen)
  · exact fun hgranted => hcount.trans (hstanding.granted hgranted)
  · exact hcount.trans_le hstanding.atMostOne
  · exact fun hpositive stage hstage => hreached (hstanding.approved (hcount ▸ hpositive) stage hstage)

theorem Standing.moved {stages : List ApprovalStage} {next : ApprovalRequest}
    (hstanding : Standing stages request decisions grants) (hmoved : Moved request next) :
    Standing stages next decisions grants := by
  obtain ⟨status, reasonCode, hmoves, rfl⟩ := hmoved
  constructor
  · exact hstanding.sequence
  · intro stage hstage
    obtain ⟨hdistinct, hrequester, hprevious⟩ := hstanding.qualified stage hstage
    exact ⟨hdistinct, hrequester, hprevious⟩
  · exact hstanding.passed
  · exact hstanding.ahead
  · exact hstanding.organization
  · intro d hd hid hreject
    have hfinal := hmoves.not_final
    rw [hstanding.rejected d hd hid hreject] at hfinal
    cases hfinal
  · intro hopen
    exact absurd hopen (by simpa [ApprovalRequest.moveTo] using hmoves.not_open)
  · exact fun hgranted => hstanding.granted (hmoves.granted hgranted)
  · exact hstanding.atMostOne
  · exact hstanding.approved

end GhostBridge.Approvals
