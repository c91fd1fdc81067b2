import GhostBridge.Approvals.Reviews
import GhostBridge.Approvals.Steps

/-!
# Runs over one approval request

Any number of decisions, readings, cancellations, invalidations and executions that run at the same
time.
-/

namespace GhostBridge.Approvals

open Ecma Machine

inductive Entry where
  | decideApprovalRequest (id decision : Text) (input : DecisionInput)
  | getApprovalRequest (id : Text) (scope : Scope)
  | cancelApprovalRequest (id : Text) (scope : Scope)
  | invalidateApprovalRequest (id : Text) (reasonCode : String) (organizationId : Text)
  | invoke (execution : Execution)

def discarding {α : Type} (flow : Flow α) : Flow Unit := do
  let _ ← flow
  return ()

def Entry.program : Entry → Flow Unit
  | .decideApprovalRequest id decision input =>
    discarding (Approvals.decideApprovalRequest id decision input)
  | .getApprovalRequest id scope => discarding (Approvals.getApprovalRequest id scope)
  | .cancelApprovalRequest id scope => discarding (Approvals.cancelApprovalRequest id scope)
  | .invalidateApprovalRequest id reasonCode organizationId =>
    discarding (Approvals.invalidateApprovalRequest id reasonCode organizationId)
  | .invoke execution => execution.invoke

theorem program_follows (entry : Entry) :
    entry.program.Follows reviewing (fun _ _ => True) {} := by
  cases entry with
  | decideApprovalRequest id decision input =>
    unfold Entry.program discarding
    rw [Async.follows_bind]
    refine (follows_decideApprovalRequest id decision input {}).mono fun t r _ => ?_
    cases r <;> trivial
  | getApprovalRequest id scope =>
    exact (quiet_bind (quiet_getApprovalRequest id scope) fun _ => quiet_pure).follows reviewing_calm {}
  | cancelApprovalRequest id scope =>
    exact (quiet_bind (quiet_cancelApprovalRequest id scope) fun _ => quiet_pure).follows reviewing_calm {}
  | invalidateApprovalRequest id reasonCode organizationId =>
    exact (quiet_bind (quiet_invalidateApprovalRequest id reasonCode organizationId)
      fun _ => quiet_pure).follows reviewing_calm {}
  | invoke execution => exact follows_invoke execution {}

abbrev ApprovalWorld := World Database Op Reply (Except Failure Unit)

def worldAfter (db : Database) (entries : ℕ → Entry) (calls : List (ℕ × Answer)) : ApprovalWorld :=
  after (World.turn perform) (.initial db fun i => (entries i).program) calls

def Stepped (db next : Database) : Prop :=
  Undecided db next ∨ ∃ recording stored, Recorded recording stored db next

theorem stepped_perform (db : Database) (op : Op) (answer : Answer) :
    Stepped db (perform db op answer).2 :=
  (perform_cases db op answer).imp_right fun ⟨recording, stored, _, h⟩ => ⟨recording, stored, h⟩

theorem Stepped.workflows {db next : Database} (h : Stepped db next) :
    next.workflows = db.workflows := by
  rcases h with h | ⟨recording, stored, h⟩
  · exact h.workflows
  · exact h.workflows

theorem Stepped.request {db next : Database} (h : Stepped db next) {id : Text}
    {stored : ApprovalRequest} (hstored : db.requests id = some stored) :
    (next.requests id = some stored ∧
        decisionsOn next.decisions stored = decisionsOn db.decisions stored) ∨
      ∃ updated, next.requests id = some updated ∧ updated.revision = stored.revision + 1 := by
  have hid := db.indexed id stored hstored
  rcases h with h | ⟨recording, found, h⟩
  · rcases h.requests id with hsame | ⟨found, updated, hfound, hupdated, status, reasonCode, -, rfl⟩
    · exact .inl ⟨hsame.trans hstored, by rw [h.decisions]⟩
    · obtain rfl := Option.some.inj (hstored.symm.trans hfound)
      exact .inr ⟨_, hupdated, rfl⟩
  · by_cases hother : id = recording.decision.approvalRequestId
    · subst hother
      obtain rfl := Option.some.inj (hstored.symm.trans h.found)
      exact .inr ⟨_, h.updated, rfl⟩
    · refine .inl ⟨(h.others id hother).trans hstored, ?_⟩
      have hdifferent : recording.decision.approvalRequestId ≠ stored.approvalRequestId := by
        rw [hid]
        exact Ne.symm hother
      simp [decisionsOn, h.decisions, hdifferent]

/-- What was read about a request is what is stored, unless the request has changed since. -/
structure Review.Current (db : Database) (s : Review) (request : ApprovalRequest) : Prop where
  stored : ∃ stored, db.requests request.approvalRequestId = some stored ∧
    request.revision ≤ stored.revision ∧ (request.revision = stored.revision → stored = request ∧
      ∀ decisions, s.decisions = some decisions → decisions = decisionsOn db.decisions request)
  workflow : ∀ workflow, s.workflow = some workflow →
    db.workflows request.organizationId request.workflowId request.workflowVersion = some workflow

def Review.IsCurrent (db : Database) (s : Review) : Prop :=
  ∀ request, s.request = some request → s.Current db request

theorem Review.Current.step {db next : Database} {s : Review} {request : ApprovalRequest}
    (h : s.Current db request) (hstep : Stepped db next) : s.Current next request := by
  obtain ⟨⟨stored, hstored, hle, hsame⟩, hworkflow⟩ := h
  refine ⟨?_, hstep.workflows ▸ hworkflow⟩
  rcases hstep.request hstored with ⟨hnext, hdecisions⟩ | ⟨updated, hnext, hrevision⟩
  · refine ⟨stored, hnext, hle, fun heq => ?_⟩
    obtain ⟨rfl, hread⟩ := hsame heq
    exact ⟨rfl, hdecisions ▸ hread⟩
  · exact ⟨updated, hnext, by omega, fun heq => by omega⟩

theorem current_of_stored {db : Database} {id : Text} {request : ApprovalRequest}
    (h : db.requests id = some request) :
    Review.IsCurrent db { request := some request } := by
  intro other hother
  obtain rfl := Option.some.inj hother
  rw [← db.indexed id request h] at h
  refine ⟨⟨request, h, le_rfl, fun _ => ⟨rfl, ?_⟩⟩, ?_⟩
  · intro decisions hdecisions
    cases hdecisions
  · intro workflow hworkflow
    cases hworkflow

theorem available_ok {α : Type} {answer : Answer} {db : Database} {result : Checked α × Database}
    {a : α} (h : (answer.available db result).1 = .ok a) :
    result.1 = .ok a ∧ (answer.available db result).2 = result.2 := by
  unfold Answer.available at *
  split at h
  · cases h
  · next havailable =>
    rw [if_neg havailable]
    exact ⟨h, rfl⟩

theorem requests_updateRequest {db : Database} {id : Text} {filter : ApprovalRequest → Bool}
    {update : ApprovalRequest → ApprovalRequest} {updated : ApprovalRequest}
    (h : (db.updateRequest id filter update).1 = .ok (some updated)) :
    (db.updateRequest id filter update).2.requests updated.approvalRequestId = some updated := by
  unfold Database.updateRequest at *
  split at h
  · cases h
  · obtain rfl := Option.some.inj (Except.ok.inj h)
    exact Function.update_self _ _ _

theorem Review.IsCurrent.next {db : Database} {s : Review} (h : s.IsCurrent db) (op : Op)
    (answer : Answer) :
    (s.next op (perform db op answer).1).IsCurrent (perform db op answer).2 := by
  have hstep : s.IsCurrent (perform db op answer).2 := fun request hrequest =>
    (h request hrequest).step (stepped_perform db op answer)
  cases op with
  | findRequest id organizationId =>
    cases hreply : (perform db (.findRequest id organizationId) answer).1 with
    | error failure => exact hstep
    | ok found =>
      cases found with
      | none => exact hstep
      | some request =>
        obtain ⟨hfound, hnext⟩ := available_ok hreply
        have hstored := Option.filter_eq_some_iff.mp (Except.ok.inj hfound)
        exact hnext ▸ current_of_stored hstored.1
  | expireRequest id revision =>
    cases hreply : (perform db (.expireRequest id revision) answer).1 with
    | error failure => exact hstep
    | ok found =>
      cases found with
      | none => exact hstep
      | some request =>
        obtain ⟨hfound, hnext⟩ := available_ok hreply
        exact hnext ▸ current_of_stored (requests_updateRequest hfound)
  | findWorkflow organizationId stableWorkflowId version =>
    cases hreply : (perform db (.findWorkflow organizationId stableWorkflowId version) answer).1 with
    | error failure => exact hstep
    | ok found =>
      cases found with
      | none => exact hstep
      | some workflow =>
        obtain ⟨hfound, hnext⟩ := available_ok hreply
        simp only [Review.next]
        split
        · next hmatch =>
          intro request hrequest
          refine ⟨(hstep request hrequest).stored, fun other hother => ?_⟩
          obtain rfl := Option.some.inj hother
          simp only [Review.hasWorkflow, show s.request = some request from hrequest,
            Option.any_some, decide_eq_true_eq] at hmatch
          obtain ⟨rfl, rfl, rfl⟩ := hmatch
          exact hnext ▸ Except.ok.inj hfound
        · exact hstep
  | findDecisions organizationId id =>
    cases hreply : (perform db (.findDecisions organizationId id) answer).1 with
    | error failure => exact hstep
    | ok decisions =>
      obtain ⟨hfound, hnext⟩ := available_ok hreply
      simp only [Review.next]
      split
      · next hmatch =>
        intro request hrequest
        obtain ⟨stored, hstored, hle, hsame⟩ := (hstep request hrequest).stored
        refine ⟨⟨stored, hstored, hle, fun heq => ⟨(hsame heq).1, fun other hother => ?_⟩⟩,
          (hstep request hrequest).workflow⟩
        obtain rfl := Option.some.inj hother
        simp only [Review.isAbout, show s.request = some request from hrequest,
          Option.any_some, decide_eq_true_eq] at hmatch
        obtain ⟨rfl, rfl⟩ := hmatch
        exact hnext ▸ (Except.ok.inj hfound).symm
      · exact hstep
  | clock => exact hstep
  | assertAuthorized => exact hstep
  | findRequestOf ids organizationId workflowId workflowVersion => exact hstep
  | matchingWorkflows => exact hstep
  | approverIdentity organizationId actorId => exact hstep
  | findGrant id organizationId => exact hstep
  | record recording => exact hstep
  | closeRequest id organizationId closure => exact hstep
  | closeGrant id organizationId closure => exact hstep
  | operationalAccess approved => exact hstep
  | consume id => exact hstep
  | execute approvals => exact hstep
  | failRequest id organizationId recoveryRequired reasonCode => exact hstep

structure Later (stored next : ApprovalRequest) : Prop where
  sequence : stored.currentStageSequence ≤ next.currentStageSequence
  final : stored.status.isFinal = true → next.status = stored.status
  requester : next.requesterActorId = stored.requesterActorId

theorem Later.refl (stored : ApprovalRequest) : Later stored stored :=
  ⟨le_rfl, fun _ => rfl, rfl⟩

theorem Later.trans {a b c : ApprovalRequest} (hab : Later a b) (hbc : Later b c) : Later a c where
  sequence := hab.sequence.trans hbc.sequence
  final h := (hbc.final (by rwa [hab.final h])).trans (hab.final h)
  requester := hbc.requester.trans hab.requester

theorem Moved.later {stored next : ApprovalRequest} (h : Moved stored next) : Later stored next := by
  obtain ⟨status, reasonCode, hmoves, rfl⟩ := h
  refine ⟨le_rfl, fun hfinal => ?_, rfl⟩
  rw [hmoves.not_final] at hfinal
  cases hfinal

/-- The request of an identifier after it was in some state, with all that is stored about it. -/
structure Kept (base : ApprovalRequest) (workflow : ApprovalWorkflow) (db : Database)
    (stored : ApprovalRequest) : Prop where
  found : db.requests base.approvalRequestId = some stored
  later : Later base stored
  decidedBy : db.workflows stored.organizationId stored.workflowId stored.workflowVersion =
    some workflow
  standing : Standing workflow.stages stored db.decisions db.grants

variable {base stored : ApprovalRequest} {workflow : ApprovalWorkflow} {db next : Database}

theorem Kept.undecided (h : Kept base workflow db stored) (hstep : Undecided db next) :
    ∃ updated, Kept base workflow next updated := by
  have hcount : grantCount next.grants stored.approvalRequestId =
      grantCount db.grants stored.approvalRequestId := by
    unfold grantCount
    rw [hstep.grants]
  have hstanding : Standing workflow.stages stored next.decisions next.grants :=
    h.standing.congr (fun _ => by rw [hstep.decisions])
      (fun _ hd _ => by rwa [hstep.decisions] at hd) hcount
  rcases hstep.requests base.approvalRequestId with hsame | ⟨found, updated, hfound, hupdated, hmoved⟩
  · exact ⟨stored, hsame.trans h.found, h.later, hstep.workflows ▸ h.decidedBy, hstanding⟩
  · obtain rfl := Option.some.inj (h.found.symm.trans hfound)
    refine ⟨updated, hupdated, h.later.trans hmoved.later, ?_, hstanding.moved hmoved⟩
    obtain ⟨status, reasonCode, -, rfl⟩ := hmoved
    exact hstep.workflows ▸ h.decidedBy

theorem Kept.other {recording : Recording} {found : ApprovalRequest}
    (h : Kept base workflow db stored) (hstep : Recorded recording found db next)
    (hother : base.approvalRequestId ≠ recording.decision.approvalRequestId) :
    Kept base workflow next stored := by
  have hid := db.indexed _ stored h.found
  have hdecision : recording.decision.approvalRequestId ≠ stored.approvalRequestId := by
    rw [hid]
    exact Ne.symm hother
  refine ⟨(hstep.others _ hother).trans h.found, h.later, hstep.workflows ▸ h.decidedBy,
    h.standing.congr (fun stage => ?_) (fun d hd hsame => ?_) ?_⟩
  · rw [hstep.decisions, approvals_concat]
    simp [hdecision]
  · rw [hstep.decisions, List.mem_append, List.mem_singleton] at hd
    rcases hd with hd | rfl
    · exact hd
    · exact absurd hsame hdecision
  · have hgrant : (recording.update found).approvalRequestId ≠ stored.approvalRequestId := by
      change found.approvalRequestId ≠ _
      rwa [db.indexed _ found hstep.found]
    rw [hstep.grants]
    unfold grantCount withGrant
    split
    · split
      · rfl
      · simp [grantOf, hgrant]
    · rfl

theorem Kept.recorded {recording : Recording} {found : ApprovalRequest} {s : Review}
    (h : Kept base workflow db stored) (hvalid : ValidStages workflow.stages)
    (hstep : Recorded recording found db next)
    (hsame : base.approvalRequestId = recording.decision.approvalRequestId)
    (hsupports : s.Supports recording) (hcurrent : s.IsCurrent db) :
    Kept base workflow next (recording.update stored) := by
  obtain ⟨request, workflow', stage, approver, decisions, decision, hrequest, hworkflow, hdecisions,
    hopen, hstage, heligible, hrecording⟩ := hsupports
  obtain ⟨-, -, heq⟩ := recordingOf_ok hrecording
  have hdecision : recording.decision.approvalRequestId = request.approvalRequestId := by
    rw [heq]
    rfl
  have hrevision : recording.revision = request.revision := by rw [heq]
  obtain rfl : found = stored :=
    Option.some.inj (hstep.found.symm.trans (hsame ▸ h.found))
  have hguard := hstep.guard
  simp only [Recording.guard, decide_eq_true_eq] at hguard
  obtain ⟨⟨stored', hstored', -, hread⟩, hfoundWorkflow⟩ := hcurrent request hrequest
  obtain rfl : found = stored' := by
    rw [← hdecision, ← hsame, h.found] at hstored'
    exact Option.some.inj hstored'
  obtain ⟨rfl, hreadDecisions⟩ := hread (hrevision.symm.trans hguard.2.1.symm)
  obtain rfl : workflow = workflow' :=
    Option.some.inj (h.decidedBy.symm.trans (hfoundWorkflow workflow' hworkflow))
  obtain rfl := hreadDecisions decisions hdecisions
  have hrecordable : Recordable workflow found stage approver db.decisions decision recording :=
    ⟨hopen, hstage, heligible, hrecording⟩
  refine ⟨hsame ▸ hstep.updated, h.later.trans ⟨?_, ?_, rfl⟩, ?_, ?_⟩
  · exact hrecordable.currentStageSequence_le h.standing
  · intro hfinal
    rcases isOpen_iff.mp hopen with hstatus | hstatus <;> simp [hstatus, RequestStatus.isFinal] at hfinal
  · exact hstep.workflows ▸ h.decidedBy
  · rw [hstep.decisions, hstep.grants]
    exact h.standing.recorded hvalid hrecordable

/-- The request is kept, and what every operation has read is current. -/
def Sound (base : ApprovalRequest) (workflow : ApprovalWorkflow) (w : ApprovalWorld) : Prop :=
  (∃ stored, Kept base workflow w.store stored) ∧
    ∀ i, (w.states reviewing (fun _ => {}) i).IsCurrent w.store

theorem invariant_sound (base : ApprovalRequest) (hvalid : ValidStages workflow.stages) :
    Invariant perform reviewing (fun _ => {}) (fun _ _ => True) (Sound base workflow) where
  replies _ _ _ _ _ _ _ _ _ := trivial
  keeps w i answer op rest hsound _ hthread hallowed := by
    obtain ⟨⟨stored, hkept⟩, hcurrent⟩ := hsound
    constructor
    · rw [World.turn_perform hthread]
      rcases perform_cases w.store op answer with hstep | ⟨recording, found, rfl, hstep⟩
      · exact hkept.undecided hstep
      · by_cases hsame : base.approvalRequestId = recording.decision.approvalRequestId
        · exact ⟨_, hkept.recorded hvalid hstep hsame hallowed (hcurrent i)⟩
        · exact ⟨stored, hkept.other hstep hsame⟩
    · intro j
      rw [World.states_turn hthread, World.turn_perform hthread]
      by_cases hj : j = i
      · subst hj
        rw [Function.update_self]
        exact (hcurrent j).next op answer
      · rw [Function.update_of_ne hj]
        exact fun request hrequest =>
          (hcurrent j request hrequest).step (stepped_perform w.store op answer)

structure Opened (hasPermission : Text → Bool) (db : Database) (request : ApprovalRequest)
    (workflow : ApprovalWorkflow) : Prop where
  stored : db.requests request.approvalRequestId = some request
  status : request.status = .pending
  sequence : request.currentStageSequence = 1
  undecided : ∀ d ∈ db.decisions, d.approvalRequestId ≠ request.approvalRequestId
  ungranted : ∀ grant ∈ db.grants, grant.approvalRequestId ≠ request.approvalRequestId
  decidedBy : db.workflows request.organizationId request.workflowId request.workflowVersion =
    some workflow
  valid : validateWorkflowDefinition hasPermission workflow = []

theorem Opened.standing {hasPermission : Text → Bool} {request : ApprovalRequest}
    (h : Opened hasPermission db request workflow) :
    Standing workflow.stages request db.decisions db.grants := by
  have hvalid := validStages_of_valid h.valid
  have happrovals (stage : ApprovalStage) :
      approvals db.decisions request.approvalRequestId stage = [] := by
    rw [approvals, List.filter_eq_nil_iff]
    intro d hd
    simp [h.undecided d hd]
  have hcount : grantCount db.grants request.approvalRequestId = 0 :=
    grantCount_eq_zero.mpr h.ungranted
  constructor
  · have hlength := List.length_pos_iff.mpr hvalid.nonempty
    rw [h.sequence]
    omega
  · intro stage _
    constructor <;> simp [happrovals]
  · intro stage hstage hlt
    have hposition := hvalid.position_le hstage
    rw [h.sequence] at hlt
    omega
  · exact fun d hd hid => absurd hid (h.undecided d hd)
  · exact fun d hd hid => absurd hid (h.undecided d hd)
  · exact fun d hd hid => absurd hid (h.undecided d hd)
  · exact fun _ => hcount
  · intro hgranted
    rw [h.status] at hgranted
    cases hgranted
  · rw [hcount]
    exact Nat.zero_le 1
  · intro hpositive
    rw [hcount] at hpositive
    exact absurd hpositive (lt_irrefl 0)

def Decided (stages : List ApprovalStage) (request : ApprovalRequest)
    (decisions : List ApprovalDecision) (stage : ApprovalStage) : Prop :=
  Reached request decisions stage ∧ Qualified stages request decisions stage

theorem exists_sound {hasPermission : Text → Bool} {request : ApprovalRequest}
    (entries : ℕ → Entry) (calls : List (ℕ × Answer))
    (h : Opened hasPermission db request workflow) :
    Sound request workflow (worldAfter db entries calls) ∧
      (worldAfter db entries calls).Monitored reviewing (fun _ => {}) fun _ _ _ => True := by
  have hvalid := validStages_of_valid h.valid
  apply (invariant_sound request hvalid).after
  · refine ⟨⟨request, h.stored, Later.refl request, h.decidedBy, h.standing⟩, fun i other hother => ?_⟩
    cases hother
  · exact fun i => program_follows (entries i)
  · exact guarded_of_forall fun _ _ _ => trivial

theorem Decided.congr {stages : List ApprovalStage} {request stored : ApprovalRequest}
    {decisions : List ApprovalDecision} {stage : ApprovalStage}
    (h : Decided stages stored decisions stage)
    (hid : stored.approvalRequestId = request.approvalRequestId)
    (hrequester : stored.requesterActorId = request.requesterActorId) :
    Decided stages request decisions stage := by
  obtain ⟨hreached, hdistinct, hexcluded, hprevious⟩ := h
  unfold Reached at hreached
  unfold isRequester at hexcluded
  rw [hid] at hreached hdistinct hexcluded hprevious
  rw [hrequester] at hexcluded
  exact ⟨hreached, hdistinct, hexcluded, hprevious⟩

theorem later_of_prefix {hasPermission : Text → Bool} {request earlier : ApprovalRequest}
    {entries : ℕ → Entry} {before calls : List (ℕ × Answer)}
    (h : Opened hasPermission db request workflow) ( hprefix : before <+: calls)
    (hearlier : (worldAfter db entries before).store.requests request.approvalRequestId =
      some earlier) :
    ∃ stored, (worldAfter db entries calls).store.requests request.approvalRequestId = some stored ∧
      Later earlier stored := by
  obtain ⟨⟨⟨stored, hkept⟩, hcurrent⟩, hmonitored⟩ :=
    exists_sound entries before h
  obtain rfl := Option.some.inj (hkept.found.symm.trans hearlier)
  have hid := (worldAfter db entries before).store.indexed _ stored hearlier
  obtain ⟨rest, rfl⟩ := hprefix
  have hsound : Sound stored workflow (worldAfter db entries before) :=
    ⟨⟨stored, hid.symm ▸ hearlier, Later.refl stored, hkept.decidedBy, hkept.standing⟩, hcurrent⟩
  obtain ⟨⟨⟨last, hlast⟩, -⟩, -⟩ := (invariant_sound stored (validStages_of_valid h.valid)).after
    hsound hmonitored (guarded_of_forall fun _ (_ : _ ∈ rest) _ => trivial)
  unfold worldAfter
  rw [after_append]
  exact ⟨last, hid ▸ hlast.found, hlast.later⟩

/-- A request is approved, with one grant, only after all its stages have been decided as they ask
for; its stages do not go back, and a rejection, a cancellation, an invalidation and an expiry stay. -/
theorem approved_after_all_stages {hasPermission : Text → Bool} {request : ApprovalRequest}
    {entries : ℕ → Entry} {calls : List (ℕ × Answer)}
    (h : Opened hasPermission db request workflow) :
    ∃ stored, (worldAfter db entries calls).store.requests request.approvalRequestId = some stored ∧
      (stored.status.isGranted = true →
        grantCount (worldAfter db entries calls).store.grants request.approvalRequestId = 1) ∧
      grantCount (worldAfter db entries calls).store.grants request.approvalRequestId ≤ 1 ∧
      (0 < grantCount (worldAfter db entries calls).store.grants request.approvalRequestId →
        ∀ stage ∈ workflow.stages, Decided workflow.stages request
          (worldAfter db entries calls).store.decisions stage) ∧
      (∀ d ∈ (worldAfter db entries calls).store.decisions,
        d.approvalRequestId = request.approvalRequestId → d.decision = .reject →
          stored.status = .rejected) ∧
      ∀ before, before <+: calls → ∀ earlier,
        (worldAfter db entries before).store.requests request.approvalRequestId = some earlier →
          earlier.currentStageSequence ≤ stored.currentStageSequence ∧
            (earlier.status.isFinal = true → stored.status = earlier.status) := by
  obtain ⟨⟨⟨stored, hkept⟩, -⟩, -⟩ := exists_sound entries calls h
  have hid := (worldAfter db entries calls).store.indexed _ stored hkept.found
  have hstanding := hkept.standing
  refine ⟨stored, hkept.found, ?_, ?_, ?_, ?_, ?_⟩
  · exact hid ▸ hstanding.granted
  · exact hid ▸ hstanding.atMostOne
  · intro hpositive stage hstage
    have hdecided : Decided workflow.stages stored _ stage :=
      ⟨hstanding.approved (hid ▸ hpositive) stage hstage, hstanding.qualified stage hstage⟩
    exact hdecided.congr hid hkept.later.requester
  · exact fun d hd hsame => hstanding.rejected d hd (hsame.trans hid.symm)
  · intro before hprefix earlier hearlier
    obtain ⟨last, hlast, hlater⟩ := later_of_prefix h hprefix hearlier
    obtain rfl := Option.some.inj (hkept.found.symm.trans hlast)
    exact ⟨hlater.sequence, hlater.final⟩

private def oneStage : ApprovalWorkflow where
  organizationId := ascii "org"
  stableWorkflowId := ascii "apw"
  version := 1
  name := ascii "Release"
  stages := [{ stageId := ascii "stage_1"
               sequence := .number (.ofNat 1)
               requiredDecisionCount := .number (.ofNat 1) }]
  expirationMs := .number (.ofNat 3600000)

private def pendingRequest : ApprovalRequest where
  approvalRequestId := ascii "apr"
  organizationId := ascii "org"
  workflowId := ascii "apw"
  workflowVersion := 1
  requesterActorId := ascii "requester"
  permission := ascii "connection.invoke"
  resourceId := ascii "connection"
  requestFingerprint := ascii "fingerprint"
  expiresAt := 3600000
  status := .pending
  currentStageSequence := 1
  revision := 0

private def emptyDatabase : Database where
  clock := 0
  requests _ := none
  indexed := indexed_none
  decisions := []
  grants := []
  workflows _ _ _ := some oneStage

private def approving : Entry :=
  .decideApprovalRequest (ascii "apr") (ascii "approve")
    { scope := { organizationId := ascii "org" }, approverActorId := ascii "approver" }

private def approvingTurn : ℕ × Answer :=
  (0, { approver := some { id := ascii "approver", externalUserId := ascii "external" } })

theorem decided_by_one_approver :
    0 < grantCount (worldAfter (emptyDatabase.store pendingRequest) (fun _ => approving)
      (List.replicate 8 approvingTurn)).store.grants pendingRequest.approvalRequestId ∧
    ∀ stage ∈ oneStage.stages, Decided oneStage.stages pendingRequest
      (worldAfter (emptyDatabase.store pendingRequest) (fun _ => approving)
        (List.replicate 8 approvingTurn)).store.decisions stage := by
  have hopened : Opened (fun _ => true) (emptyDatabase.store pendingRequest) pendingRequest
      oneStage := by
    refine ⟨?_, rfl, rfl, ?_, ?_, rfl, ?_⟩
    · simp [requests_store]
    · exact fun d hd => absurd hd List.not_mem_nil
    · exact fun grant hgrant => absurd hgrant List.not_mem_nil
    · decide +kernel
  have hrun : 0 < grantCount (worldAfter (emptyDatabase.store pendingRequest) (fun _ => approving)
      (List.replicate 8 approvingTurn)).store.grants pendingRequest.approvalRequestId →
      ∀ stage ∈ oneStage.stages, Decided oneStage.stages pendingRequest
        (worldAfter (emptyDatabase.store pendingRequest) (fun _ => approving)
          (List.replicate 8 approvingTurn)).store.decisions stage := by
    obtain ⟨-, -, -, -, hdecided, -⟩ := approved_after_all_stages hopened
    exact hdecided
  have hgranted : 0 < grantCount (worldAfter (emptyDatabase.store pendingRequest)
      (fun _ => approving) (List.replicate 8 approvingTurn)).store.grants
        pendingRequest.approvalRequestId := by decide +kernel
  exact ⟨hgranted, hrun hgranted⟩

end GhostBridge.Approvals
