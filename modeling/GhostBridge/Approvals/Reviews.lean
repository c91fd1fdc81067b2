import GhostBridge.Approvals.Decisions
import GhostBridge.Approvals.Stages

/-!
# What a decision follows from

A decision is recorded from documents that were read before.
-/

namespace GhostBridge.Approvals

open Ecma Machine

structure Review where
  request : Option ApprovalRequest := none
  workflow : Option ApprovalWorkflow := none
  decisions : Option (List ApprovalDecision) := none

namespace Review

def isAbout (s : Review) (organizationId id : Text) : Bool :=
  s.request.any fun request =>
    request.organizationId = organizationId ∧ request.approvalRequestId = id

def hasWorkflow (s : Review) (organizationId stableWorkflowId : Text) (version : ℕ) : Bool :=
  s.request.any fun request => request.organizationId = organizationId ∧
    request.workflowId = stableWorkflowId ∧ request.workflowVersion = version

def next (s : Review) : (op : Op) → Reply op → Review
  | .findRequest _ _, .ok (some request) => { request := some request }
  | .expireRequest _ _, .ok (some request) => { request := some request }
  | .findWorkflow organizationId stableWorkflowId version, .ok (some workflow) =>
    if s.hasWorkflow organizationId stableWorkflowId version then
      { s with workflow := some workflow }
    else s
  | .findDecisions organizationId id, .ok decisions =>
    if s.isAbout organizationId id then { s with decisions := some decisions } else s
  | _, _ => s

def Supports (s : Review) (recording : Recording) : Prop :=
  ∃ request workflow stage approver decisions decision,
    s.request = some request ∧ s.workflow = some workflow ∧ s.decisions = some decisions ∧
    request.status.isOpen = true ∧ currentStage workflow request = some stage ∧
    checkEligibility request stage (some approver) = .ok approver ∧
    recordingOf workflow request stage approver decisions decision = .ok recording

end Review

def reviewing : Monitor Op Reply Review where
  next := Review.next
  allowed
    | s, .record recording => s.Supports recording
    | _, _ => True
  replies _ _ _ := True

def Op.isQuiet : Op → Bool
  | .record _ => false
  | .execute _ => false
  | _ => true

def Quiet {α : Type} (flow : Flow α) : Prop := flow.Ensures (fun op => op.isQuiet = true) fun _ => True

section Calm

variable {α β S : Type} {m : Monitor Op Reply S}

theorem Quiet.follows_bind (hm : ∀ t op, op.isQuiet = true → m.allowed t op) {x : Flow α}
    {f : α → Flow β} {post : S → Except Failure β → Prop} (h : Quiet x) {s : S}
    (herror : ∀ t e, post t (.error e)) (hrest : ∀ t a, (f a).Follows m post t) :
    (x >>= f).Follows m post s :=
  Async.Ensures.follows_bind_of (R := fun _ => True) h
    (fun t op _ hop => ⟨hm t op hop, fun _ => trivial⟩) trivial (fun t e _ => herror t e)
    fun t a _ _ => hrest t a

theorem Quiet.follows (hm : ∀ t op, op.isQuiet = true → m.allowed t op) {x : Flow α} (h : Quiet x)
    (s : S) : x.Follows m (fun _ _ => True) s :=
  (Program.Performs.follows_of (R := fun _ => True) h
    (fun t op _ hop => ⟨hm t op hop, fun _ => trivial⟩) trivial).mono fun _ _ _ => trivial

end Calm

theorem reviewing_calm (s : Review) (op : Op) (h : op.isQuiet = true) : reviewing.allowed s op := by
  cases op <;> trivial

theorem quiet_bind {α β : Type} {x : Flow α} {f : α → Flow β} (hx : Quiet x)
    (hf : ∀ a, Quiet (f a)) : Quiet (x >>= f) := by
  unfold Quiet
  rw [Async.ensures_bind]
  exact hx.mono (fun _ h => h) fun a _ => hf a

theorem quiet_throw {α : Type} {failure : Failure} : Quiet (throw failure : Flow α) := by
  simp [Quiet]

theorem quiet_pure {α : Type} {a : α} : Quiet (pure a : Flow α) := by
  simp [Quiet]

theorem quiet_lift {α : Type} {outcome : Checked α} : Quiet (liftM outcome : Flow α) := by
  simp [Quiet]

theorem quiet_ask {op : Op} (h : op.isQuiet = true) : Quiet (Async.ask op : Flow (Reply op)) := by
  simpa [Quiet] using h

theorem quiet_reply {α : Type} {op : Op} (h : op.isQuiet = true) {f : Reply op → Checked α} :
    Quiet (do let reply ← Async.ask op; f reply) :=
  quiet_bind (quiet_ask h) fun _ => quiet_lift

theorem quiet_if {α : Type} {condition : Prop} [Decidable condition] {x y : Flow α} (hx : Quiet x)
    (hy : Quiet y) : Quiet (if condition then x else y) := by
  split
  · exact hx
  · exact hy

theorem quiet_invalidateApprovalRequest (id : Text) (reasonCode : String) (organizationId : Text) :
    Quiet (invalidateApprovalRequest id reasonCode organizationId) := by
  unfold invalidateApprovalRequest
  apply quiet_bind (quiet_reply rfl)
  intro closed
  cases closed with
  | none => exact quiet_pure
  | some updated => exact quiet_bind (quiet_reply rfl) fun _ => quiet_pure

theorem quiet_cancelApprovalRequest (id : Text) (scope : Scope) :
    Quiet (cancelApprovalRequest id scope) := by
  unfold cancelApprovalRequest
  apply quiet_bind (quiet_reply rfl)
  intro _
  apply quiet_bind (quiet_reply rfl)
  intro closed
  apply quiet_bind quiet_lift
  intro request
  exact quiet_bind (quiet_reply rfl) fun _ => quiet_pure

theorem quiet_expireIfNeeded (request : ApprovalRequest) : Quiet (expireIfNeeded request) := by
  unfold expireIfNeeded
  apply quiet_if quiet_pure
  apply quiet_bind (quiet_ask rfl)
  intro now
  apply quiet_if quiet_pure
  exact quiet_bind (quiet_ask rfl) fun _ => quiet_bind quiet_lift fun _ => quiet_pure

theorem quiet_getApprovalRequest (id : Text) (scope : Scope) :
    Quiet (getApprovalRequest id scope) := by
  unfold getApprovalRequest
  apply quiet_bind (quiet_reply rfl)
  intro _
  apply quiet_bind (quiet_reply rfl)
  intro found
  apply quiet_bind quiet_lift
  intro request
  apply quiet_bind (quiet_expireIfNeeded request)
  intro _
  exact quiet_bind (quiet_reply rfl) fun _ => quiet_pure

theorem quiet_invalidateWhen (condition : Bool) (request : ApprovalRequest) (reasonCode : String)
    (failure : Failure) : Quiet (invalidateWhen condition request reasonCode failure) :=
  quiet_if (quiet_bind (quiet_invalidateApprovalRequest _ _ _) fun _ => quiet_throw) quiet_pure

theorem quiet_assertApproversActive (request : ApprovalRequest)
    (decisions : List ApprovalDecision) : Quiet (assertApproversActive request decisions) := by
  induction decisions with
  | nil => exact quiet_pure
  | cons decision decisions ih =>
    apply quiet_bind (quiet_reply rfl)
    intro approver
    exact quiet_bind (quiet_invalidateWhen _ _ _ _) fun _ => ih

theorem quiet_validateGrantForWorkflow (action : Action) (allowConsumed : Bool)
    (workflow : ApprovalWorkflow) : Quiet (validateGrantForWorkflow action allowConsumed workflow) := by
  unfold validateGrantForWorkflow
  apply quiet_bind quiet_lift
  intro _
  apply quiet_bind (quiet_reply rfl)
  intro found
  apply quiet_bind quiet_lift
  intro request
  apply quiet_bind quiet_lift
  intro _
  apply quiet_bind (quiet_ask rfl)
  intro now
  apply quiet_bind (quiet_invalidateWhen _ _ _ _)
  intro _
  apply quiet_bind quiet_lift
  intro _
  apply quiet_bind (quiet_invalidateWhen _ _ _ _)
  intro _
  apply quiet_bind (quiet_reply rfl)
  intro grant
  apply quiet_bind quiet_lift
  intro _
  apply quiet_bind (quiet_reply rfl)
  intro decisions
  exact quiet_bind (quiet_assertApproversActive _ _) fun _ => quiet_pure

theorem quiet_validateGrants (action : Action) (allowConsumed : Bool)
    (workflows : List ApprovalWorkflow) : Quiet (validateGrants action allowConsumed workflows) := by
  induction workflows with
  | nil => exact quiet_pure
  | cons workflow workflows ih =>
    apply quiet_bind (quiet_validateGrantForWorkflow _ _ _)
    intro approved
    exact quiet_bind ih fun _ => quiet_pure

theorem quiet_consumeApprovalGrants (approvals : List Approved) :
    Quiet (consumeApprovalGrants approvals) := by
  induction approvals with
  | nil => exact quiet_pure
  | cons approved approvals ih =>
    apply quiet_bind (quiet_reply rfl)
    intro _
    apply quiet_if
    · exact quiet_bind ih fun _ => quiet_pure
    · exact quiet_bind (quiet_reply rfl) fun _ => quiet_bind ih fun _ => quiet_pure

theorem quiet_markApprovedExecutionFailure (failure : Failure) (approvals : List Approved) :
    Quiet (markApprovedExecutionFailure failure approvals) := by
  induction approvals with
  | nil => exact quiet_pure
  | cons approved approvals ih =>
    exact quiet_bind (quiet_if (quiet_reply rfl) quiet_pure) fun _ => ih

theorem quiet_enforceApproval (action : Action) (allowConsumed : Bool) :
    Quiet (enforceApproval action allowConsumed) :=
  quiet_bind (quiet_reply rfl) fun _ => quiet_validateGrants _ _ _

theorem follows_orMarkFailure {α S : Type} {m : Monitor Op Reply S} {approvals : List Approved}
    (hm : ∀ t op, op.isQuiet = true → m.allowed t op) {flow : Flow α} {s : S}
    {post : S → Checked α → Prop} (h : flow.Follows m post s) :
    (orMarkFailure approvals flow).Follows m (fun t r => ∀ a, r = .ok a → post t r) s := by
  unfold orMarkFailure
  rw [Async.follows_tryCatch]
  refine h.mono fun t r hr => ?_
  cases r with
  | ok a => exact fun _ _ => hr
  | error failure =>
    rw [Async.recovers_error]
    apply Quiet.follows_bind hm
    · unfold Quiet
      rw [Async.ensures_attempt]
      exact Async.Performs.mono (quiet_markApprovedExecutionFailure failure approvals)
        fun _ _ => trivial
    · intro _ _ a ha
      cases ha
    · intro _ _ a ha
      cases ha

theorem follows_orMarkFailure_trivial {α S : Type} {m : Monitor Op Reply S}
    {approvals : List Approved} (hm : ∀ t op, op.isQuiet = true → m.allowed t op) {flow : Flow α}
    {s : S} (h : flow.Follows m (fun _ _ => True) s) :
    (orMarkFailure approvals flow).Follows m (fun _ _ => True) s :=
  (follows_orMarkFailure hm h).mono fun _ _ _ => trivial

theorem follows_invoke (execution : Execution) (s : Review) :
    execution.invoke.Follows reviewing (fun _ _ => True) s := by
  unfold Execution.invoke
  apply (quiet_enforceApproval _ _).follows_bind reviewing_calm fun _ _ => trivial
  intro t enforced
  rw [Async.follows_bind]
  refine (follows_orMarkFailure reviewing_calm
    ((quiet_consumeApprovalGrants enforced).follows reviewing_calm t)).mono fun u r _ => ?_
  cases r with
  | error failure => trivial
  | ok approvals =>
    rw [Async.goesOn_ok]
    apply follows_orMarkFailure_trivial reviewing_calm
    exact ⟨trivial, fun _ _ => trivial⟩

theorem follows_expireIfNeeded {request : ApprovalRequest} {s : Review}
    (h : s.request = some request) :
    (expireIfNeeded request).Follows reviewing
      (fun t r => ∀ current, r = .ok current → t.request = some current) s := by
  unfold expireIfNeeded
  split
  · simpa using h
  apply Async.follows_asking trivial
  intro now _
  split
  · simpa [reviewing, Review.next] using h
  apply Async.follows_asking trivial
  intro reply _
  apply Async.follows_check
  · simp
  intro expired hreply
  subst hreply
  cases expired with
  | none => simpa [reviewing, Review.next] using h
  | some expired => simp [reviewing, Review.next]

theorem ensures_assertAuthorized :
    assertAuthorized.Ensures (· = .assertAuthorized) fun _ => True := by
  unfold assertAuthorized
  rw [Async.ensures_bind, Async.ensures_ask]
  exact ⟨rfl, fun _ => by simp⟩

theorem ensures_assertAllAuthorized (permissions : List Text) :
    (assertAllAuthorized permissions).Ensures (· = .assertAuthorized) fun _ => True := by
  induction permissions with
  | nil => simp [assertAllAuthorized]
  | cons permission permissions ih =>
    unfold assertAllAuthorized
    rw [Async.ensures_bind]
    exact ensures_assertAuthorized.mono (fun _ h => h) fun _ _ => ih

theorem ensures_assertStageEligibility (request : ApprovalRequest) (stage : ApprovalStage)
    (identity : Option Approver) :
    (assertStageEligibility request stage identity).Ensures (· = .assertAuthorized)
      fun approver => checkEligibility request stage identity = .ok approver := by
  unfold assertStageEligibility
  rw [Async.ensures_bind, Async.ensures_monadLift]
  intro approver happrover
  rw [Async.ensures_bind]
  apply ensures_assertAuthorized.mono fun _ h => h
  intro _ _
  rw [Async.ensures_bind]
  apply (ensures_assertAllAuthorized _).mono fun _ h => h
  intro _ _
  rwa [Async.ensures_pure]

theorem quiet_of_ensures {α : Type} {x : Flow α} {post : α → Prop}
    (h : x.Ensures (· = .assertAuthorized) post) : Quiet x :=
  h.mono (fun op hop => by rw [hop]; rfl) fun _ _ => trivial

theorem quiet_reviewApprovalRequest (id decision : Text) (input : DecisionInput) :
    Quiet (reviewApprovalRequest id decision input) := by
  unfold reviewApprovalRequest
  apply quiet_bind quiet_lift
  intro kind
  apply quiet_bind (quiet_reply rfl)
  intro found
  apply quiet_bind quiet_lift
  intro found
  apply quiet_bind (quiet_expireIfNeeded found)
  intro request
  apply quiet_bind quiet_lift
  intro _
  apply quiet_bind (quiet_reply rfl)
  intro _
  apply quiet_bind quiet_lift
  intro _
  apply quiet_bind (quiet_reply rfl)
  intro workflow
  apply quiet_bind quiet_lift
  intro workflow
  apply quiet_bind quiet_lift
  intro stage
  apply quiet_bind quiet_lift
  intro _
  apply quiet_bind (quiet_reply rfl)
  intro identity
  apply quiet_bind (quiet_of_ensures (ensures_assertStageEligibility request stage identity))
  intro approver
  exact quiet_bind (quiet_reply rfl) fun _ => quiet_lift

def Review.Prepares (s : Review) (outcome : Checked Recording) : Prop :=
  ∀ recording, outcome = .ok recording → s.Supports recording

theorem prepares_error (s : Review) (failure : Failure) : s.Prepares (.error failure) := by
  intro recording h
  cases h

theorem follows_reviewApprovalRequest (id decision : Text) (input : DecisionInput) (s : Review) :
    (reviewApprovalRequest id decision input).Follows reviewing Review.Prepares s := by
  unfold reviewApprovalRequest
  apply Async.follows_check (prepares_error s)
  intro kind _
  apply Async.follows_reply trivial fun _ _ _ => prepares_error _ _
  intro reply found _ hreply
  apply Async.follows_check (prepares_error _)
  intro found hfound
  rw [orThrow_ok] at hfound
  subst hreply hfound
  rw [Async.follows_bind]
  refine (follows_expireIfNeeded rfl).mono fun t r hr => ?_
  cases r with
  | error failure => exact prepares_error t failure
  | ok request =>
    have hrequest := hr request rfl
    rw [Async.goesOn_ok]
    apply Async.follows_check (prepares_error t)
    intro _ _
    apply Async.follows_reply trivial fun _ _ _ => prepares_error _ _
    intro _ _ _ _
    apply Async.follows_check (prepares_error _)
    intro _ hopen
    apply Async.follows_reply trivial fun _ _ _ => prepares_error _ _
    intro reply workflow _ hreply
    apply Async.follows_check (prepares_error _)
    intro workflow hworkflow
    rw [orThrow_ok] at hworkflow
    subst hreply hworkflow
    have hnext : reviewing.next t (.findWorkflow request.organizationId request.workflowId
        request.workflowVersion) (.ok (some workflow)) = { t with workflow := some workflow } := by
      simp [reviewing, Review.next, Review.hasWorkflow, hrequest]
    apply Async.follows_check (prepares_error _)
    intro stage hstage
    rw [orThrow_ok] at hstage
    apply Async.follows_check (prepares_error _)
    intro _ _
    apply Async.follows_reply trivial fun _ _ _ => prepares_error _ _
    intro _ identity _ _
    apply (ensures_assertStageEligibility request stage identity).follows_bind
    · intro op hop
      subst hop
      exact ⟨trivial, fun _ => rfl⟩
    · exact prepares_error _
    intro approver happrover
    obtain ⟨rfl, -⟩ := checkEligibility_ok happrover
    apply Async.follows_reply trivial fun _ _ _ => prepares_error _ _
    intro reply decisions _ hreply
    subst hreply
    have hdecisions : reviewing.next { t with workflow := some workflow }
        (.findDecisions request.organizationId request.approvalRequestId) (.ok decisions) =
          { t with workflow := some workflow, decisions := some decisions } := by
      simp [reviewing, Review.next, Review.isAbout, hrequest]
    rw [Async.follows_monadLift]
    intro recording hrecording
    have hsupports : Review.Supports
        { t with workflow := some workflow, decisions := some decisions } recording :=
      ⟨request, workflow, stage, approver, decisions, kind, hrequest, rfl, rfl,
        by simpa [assertOpen] using hopen, hstage, happrover, hrecording⟩
    change (reviewing.next (reviewing.next t (.findWorkflow request.organizationId
      request.workflowId request.workflowVersion) (.ok (some workflow)))
        (.findDecisions request.organizationId request.approvalRequestId) (.ok decisions)).Supports _
    rw [hnext, hdecisions]
    exact hsupports

theorem follows_decideApprovalRequest (id decision : Text) (input : DecisionInput) (s : Review) :
    (decideApprovalRequest id decision input).Follows reviewing (fun _ _ => True) s := by
  unfold decideApprovalRequest
  rw [Async.follows_bind]
  refine (follows_reviewApprovalRequest id decision input s).mono fun t r hprepares => ?_
  cases r with
  | error failure => trivial
  | ok recording =>
    rw [Async.goesOn_ok]
    apply Async.follows_asking (hprepares recording rfl)
    exact fun _ _ => trivial

end GhostBridge.Approvals
