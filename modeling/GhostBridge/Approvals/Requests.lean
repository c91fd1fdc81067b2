import GhostBridge.Approvals.Workflows
import GhostBridge.Ecma.Outcome
import GhostBridge.Machine.Threads

/-!
# Approval requests

The documents of an approval (the request, its decisions, its grant) and the operations of the
service on them, each one atomic step of the database.
-/

namespace GhostBridge.Approvals

open Ecma Machine

inductive RequestStatus where
  | draft
  | pending
  | partiallyApproved
  | approved
  | rejected
  | expired
  | cancelled
  | invalidated
  | consumed
  | executionFailed
  | recoveryRequired
deriving DecidableEq

/-- `['PENDING', 'PARTIALLY_APPROVED']`. -/
def RequestStatus.isOpen (status : RequestStatus) : Bool :=
  [.pending, .partiallyApproved].contains status

/-- `['PENDING', 'PARTIALLY_APPROVED', 'APPROVED']`. -/
def RequestStatus.isClosable (status : RequestStatus) : Bool :=
  [.pending, .partiallyApproved, .approved].contains status

structure ApprovalRequest where
  approvalRequestId : Text
  organizationId : Text
  workspaceId : Text := []
  workflowId : Text
  workflowVersion : ℕ
  requesterActorId : Text
  permission : Text
  resourceId : Text
  requestFingerprint : Text
  expiresAt : Int
  status : RequestStatus
  currentStageSequence : Int
  revision : ℕ
  invalidationReasonCode : Text := []
deriving DecidableEq

/-- `$set: { status, invalidationReasonCode }, $inc: { revision: 1 }`. -/
def ApprovalRequest.moveTo (request : ApprovalRequest) (status : RequestStatus)
    (reasonCode : Text) : ApprovalRequest :=
  { request with
    status := status
    invalidationReasonCode := reasonCode
    revision := request.revision + 1 }

inductive DecisionKind where
  | approve
  | reject
deriving DecidableEq

structure RoleBinding where
  /-- `scopeType === 'organization'`. -/
  organizationWide : Bool
  workspaceId : Text
  roleKey : Text
deriving DecidableEq

/-- An `EnterpriseUser`, as far as it decides who may approve. -/
structure Approver where
  id : Text
  externalUserId : Text
  externalWorkspaceIds : List Text := []
  roleBindings : List RoleBinding := []
  teamIds : List Text := []
deriving DecidableEq

structure ApprovalDecision where
  approvalRequestId : Text
  organizationId : Text
  stageId : Text
  stageSequence : Int
  approver : Approver
  decision : DecisionKind
  requestRevision : ℕ
deriving DecidableEq

def ApprovalDecision.approverActorId (decision : ApprovalDecision) : Text := decision.approver.id

inductive GrantStatus where
  | active
  | consumed
  | expired
  | revoked
  | invalidated
deriving DecidableEq

structure ApprovalGrant where
  approvalRequestId : Text
  organizationId : Text
  requesterActorId : Text
  permission : Text
  resourceId : Text
  requestFingerprint : Text
  expiresAt : Int
  status : GrantStatus
  singleUse : Bool
deriving DecidableEq

inductive Failure where
  /-- An `AppError` with the reason of its metadata. -/
  | app (status : ℕ) (code reasonCode message : String)
  | duplicateKey
  | unavailable
deriving DecidableEq

abbrev Checked (α : Type) := Except Failure α

def approvalError (status : ℕ) (code message : String) : Failure := .app status code code message

theorem indexed_none (id : Text) (request : ApprovalRequest)
    (h : (none : Option ApprovalRequest) = some request) : request.approvalRequestId = id := by
  cases h

/-- The clock, the requests by their identifiers, the decisions and the grants; the workflows that
are active do not change. -/
structure Database where
  clock : Int
  requests : Text → Option ApprovalRequest
  indexed : ∀ id request, requests id = some request → request.approvalRequestId = id
  decisions : List ApprovalDecision
  grants : List ApprovalGrant
  workflows : Text → Text → ℕ → Option ApprovalWorkflow

structure Recording where
  decision : ApprovalDecision
  revision : ℕ
  nextStatus : RequestStatus
  nextStage : Int
  singleUseGrant : Bool
deriving DecidableEq

def Recording.guard (recording : Recording) (request : ApprovalRequest) : Bool :=
  request.organizationId = recording.decision.organizationId ∧
    request.revision = recording.revision ∧ request.status.isOpen ∧
    request.currentStageSequence = recording.decision.stageSequence

def Recording.update (recording : Recording) (request : ApprovalRequest) : ApprovalRequest :=
  { request with
    status := recording.nextStatus
    currentStageSequence := recording.nextStage
    revision := request.revision + 1 }

/-- `unique_approver_decision_per_stage`. -/
def sameDecisionKey (a b : ApprovalDecision) : Bool :=
  a.organizationId = b.organizationId ∧ a.approvalRequestId = b.approvalRequestId ∧
    a.stageId = b.stageId ∧ a.approverActorId = b.approverActorId

def grantOf (request : ApprovalRequest) (singleUse : Bool) : ApprovalGrant where
  approvalRequestId := request.approvalRequestId
  organizationId := request.organizationId
  requesterActorId := request.requesterActorId
  permission := request.permission
  resourceId := request.resourceId
  requestFingerprint := request.requestFingerprint
  expiresAt := request.expiresAt
  status := .active
  singleUse := singleUse

def withGrant (grants : List ApprovalGrant) (request : ApprovalRequest) (singleUse : Bool) :
    List ApprovalGrant :=
  if grants.any (·.approvalRequestId = request.approvalRequestId) then grants
  else grants ++ [grantOf request singleUse]

namespace Database

variable (db : Database)

def store (request : ApprovalRequest) : Database :=
  { db with
    requests := Function.update db.requests request.approvalRequestId (some request)
    indexed := by
      intro id stored hstored
      by_cases hid : id = request.approvalRequestId
      · subst hid
        simp only [Function.update_self, Option.some.injEq] at hstored
        rw [hstored]
      · rw [Function.update_of_ne hid] at hstored
        exact db.indexed id stored hstored }

/-- `findOne({ approvalRequestId, organizationId })`. -/
def findRequest (id organizationId : Text) : Option ApprovalRequest :=
  (db.requests id).filter (·.organizationId = organizationId)

/-- `ApprovalDecision.find({ organizationId, approvalRequestId })`. -/
def findDecisions (organizationId id : Text) : List ApprovalDecision :=
  db.decisions.filter fun d => d.organizationId = organizationId ∧ d.approvalRequestId = id

/-- `ApprovalGrant.findOne({ approvalRequestId, organizationId })`. -/
def findGrant (id organizationId : Text) : Option ApprovalGrant :=
  db.grants.find? fun g => g.approvalRequestId = id ∧ g.organizationId = organizationId

def issueGrant (request : ApprovalRequest) (singleUse : Bool) : Database :=
  { db with grants := withGrant db.grants request singleUse }

/-- `ApprovalRequest.findOneAndUpdate({ approvalRequestId, ...filter }, update, { new: true })`. -/
def updateRequest (id : Text) (filter : ApprovalRequest → Bool)
    (update : ApprovalRequest → ApprovalRequest) : Checked (Option ApprovalRequest) × Database :=
  match (db.requests id).filter filter with
  | none => (.ok none, db)
  | some stored => (.ok (some (update stored)), db.store (update stored))

/-- `ApprovalGrant.updateOne({ approvalRequestId, ...filter }, { $set: { status } })`. -/
def updateGrants (filter : ApprovalGrant → Bool) (status : GrantStatus) : Database :=
  { db with grants := db.grants.map fun g => if filter g then { g with status := status } else g }

def record (recording : Recording) : Checked ApprovalRequest × Database :=
  if db.decisions.any (sameDecisionKey recording.decision) then (.error .duplicateKey, db)
  else
    match (db.requests recording.decision.approvalRequestId).filter recording.guard with
    | none =>
      (.error (approvalError 409 "APPROVAL_STAGE_CONFLICT"
        "Approval request changed before the decision was recorded."), db)
    | some stored =>
      let updated := recording.update stored
      let decided := { db.store updated with decisions := db.decisions ++ [recording.decision] }
      (.ok updated,
        if recording.nextStatus = .approved then decided.issueGrant updated recording.singleUseGrant
        else decided)

def consume (id : Text) : Checked Unit × Database :=
  match db.grants.find? (·.approvalRequestId = id), db.requests id with
  | some grant, some request =>
    if grant.status = .active ∧ db.clock < grant.expiresAt then
      if request.status = .approved then
        (.ok (), (db.updateGrants (·.approvalRequestId = id) .consumed).store
          (request.moveTo .consumed request.invalidationReasonCode))
      else (.error (approvalError 409 "APPROVAL_GRANT_ALREADY_CONSUMED"
        "Approval request was already consumed."), db)
    else (.error (approvalError 409 "APPROVAL_GRANT_ALREADY_CONSUMED"
      "Approval grant was already consumed."), db)
  | _, _ => (.error (approvalError 409 "APPROVAL_GRANT_ALREADY_CONSUMED"
      "Approval grant was already consumed."), db)

end Database

inductive Closure where
  | cancelled
  | invalidated (reasonCode : String)
deriving DecidableEq

namespace Closure

def status : Closure → RequestStatus
  | .cancelled => .cancelled
  | .invalidated _ => .invalidated

def reasonCode : Closure → String
  | .cancelled => "APPROVAL_CANCELLED"
  | .invalidated reasonCode => reasonCode

def grantStatus : Closure → GrantStatus
  | .cancelled => .revoked
  | .invalidated _ => .invalidated

end Closure

/-- What an invocation found when its approval was enforced. -/
structure Approved where
  request : ApprovalRequest
  grant : ApprovalGrant
deriving DecidableEq

/-- `options.recoveryRequired ? 'RECOVERY_REQUIRED' : 'EXECUTION_FAILED'`. -/
def failedStatus (recoveryRequired : Bool) : RequestStatus :=
  if recoveryRequired then .recoveryRequired else .executionFailed

inductive Op where
  /-- `new Date()`. -/
  | clock
  | assertAuthorized
  | findRequest (id organizationId : Text)
  /-- `findOne({ approvalRequestId: { $in: ids }, organizationId, workflowId, workflowVersion })`. -/
  | findRequestOf (ids : List Text) (organizationId workflowId : Text) (workflowVersion : ℕ)
  | findWorkflow (organizationId stableWorkflowId : Text) (version : ℕ)
  | matchingWorkflows
  /-- `approverIdentity(organizationId, actorId)`. -/
  | approverIdentity (organizationId actorId : Text)
  | findDecisions (organizationId id : Text)
  | findGrant (id organizationId : Text)
  | expireRequest (id : Text) (revision : ℕ)
  | record (recording : Recording)
  /-- The update of `cancelApprovalRequest` and `invalidateApprovalRequest`. -/
  | closeRequest (id organizationId : Text) (closure : Closure)
  | closeGrant (id organizationId : Text) (closure : Closure)
  /-- `assertOperationalAccess(...)`, for a grant that an invocation is about to use. -/
  | operationalAccess (approved : Approved)
  | consume (id : Text)
  /-- What an invocation does once its approval has been consumed. -/
  | execute (approvals : List Approved)
  /-- The update of `markApprovedExecutionFailure`. -/
  | failRequest (id organizationId : Text) (recoveryRequired : Bool) (reasonCode : String)

abbrev Reply : Op → Type
  | .clock => Int
  | .assertAuthorized => Checked Unit
  | .findRequest _ _ => Checked (Option ApprovalRequest)
  | .findRequestOf _ _ _ _ => Checked (Option ApprovalRequest)
  | .findWorkflow _ _ _ => Checked (Option ApprovalWorkflow)
  | .matchingWorkflows => Checked (List ApprovalWorkflow)
  | .approverIdentity _ _ => Checked (Option Approver)
  | .findDecisions _ _ => Checked (List ApprovalDecision)
  | .findGrant _ _ => Checked (Option ApprovalGrant)
  | .expireRequest _ _ => Checked (Option ApprovalRequest)
  | .record _ => Checked ApprovalRequest
  | .closeRequest _ _ _ => Checked (Option ApprovalRequest)
  | .closeGrant _ _ _ => Checked Unit
  | .operationalAccess _ => Checked Unit
  | .consume _ => Checked Unit
  | .execute _ => Checked Unit
  | .failRequest _ _ _ _ => Checked (Option ApprovalRequest)

abbrev Flow := Async Op Reply Failure

structure Answer where
  /-- How long the clock has gone on before the operation. -/
  elapsed : ℕ := 0
  unavailable : Bool := false
  failure : Option Failure := none
  approver : Option Approver := none
  workflows : List ApprovalWorkflow := []
  choice : ℕ := 0

def Answer.available {α : Type} (answer : Answer) (db : Database) (result : Checked α × Database) :
    Checked α × Database :=
  if answer.unavailable then (.error .unavailable, db) else result

def Answer.verdict (answer : Answer) : Checked Unit :=
  answer.failure.elim (.ok ()) .error

def Database.findRequestsOf (db : Database) (ids : List Text) (organizationId workflowId : Text)
    (workflowVersion : ℕ) : List ApprovalRequest :=
  (ids.filterMap db.requests).filter fun request =>
    request.organizationId = organizationId ∧ request.workflowId = workflowId ∧
      request.workflowVersion = workflowVersion

def performAt (db : Database) : (op : Op) → Answer → Reply op × Database
  | .clock, _ => (db.clock, db)
  | .assertAuthorized, answer => (answer.verdict, db)
  | .findRequest id organizationId, answer =>
    answer.available db (.ok (db.findRequest id organizationId), db)
  | .findRequestOf ids organizationId workflowId workflowVersion, answer =>
    answer.available db
      (.ok (db.findRequestsOf ids organizationId workflowId workflowVersion)[answer.choice]?, db)
  | .findWorkflow organizationId stableWorkflowId version, answer =>
    answer.available db (.ok (db.workflows organizationId stableWorkflowId version), db)
  | .matchingWorkflows, answer => answer.available db (.ok answer.workflows, db)
  | .approverIdentity _ _, answer => answer.available db (.ok answer.approver, db)
  | .findDecisions organizationId id, answer =>
    answer.available db (.ok (db.findDecisions organizationId id), db)
  | .findGrant id organizationId, answer =>
    answer.available db (.ok (db.findGrant id organizationId), db)
  | .expireRequest id revision, answer =>
    answer.available db (db.updateRequest id
      (fun request => request.status.isOpen ∧ request.expiresAt ≤ db.clock ∧
        request.revision = revision)
      (·.moveTo .expired (ascii "APPROVAL_EXPIRED")))
  | .record recording, answer => answer.available db (db.record recording)
  | .closeRequest id organizationId closure, answer =>
    answer.available db (db.updateRequest id
      (fun request => request.organizationId = organizationId ∧ request.status.isClosable)
      (·.moveTo closure.status (ascii closure.reasonCode)))
  | .closeGrant id organizationId closure, answer =>
    answer.available db (.ok (), db.updateGrants
      (fun g => g.approvalRequestId = id ∧ g.organizationId = organizationId ∧ g.status = .active)
      closure.grantStatus)
  | .operationalAccess _, answer => (answer.verdict, db)
  | .consume id, answer => answer.available db (db.consume id)
  | .execute _, answer => (answer.verdict, db)
  | .failRequest id organizationId recoveryRequired reasonCode, answer =>
    answer.available db (db.updateRequest id
      (fun request => request.organizationId = organizationId ∧ request.status = .consumed)
      (·.moveTo (failedStatus recoveryRequired) (ascii reasonCode)))

def perform : Perform Database Op Answer Reply := fun db op answer =>
  performAt { db with clock := db.clock + answer.elapsed } op answer

end GhostBridge.Approvals
