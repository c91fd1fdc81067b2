import GhostBridge.Approvals.Requests
import GhostBridge.Ecma.Text

/-!
# Decisions on an approval request

An approver decides the stage that a request is in.
-/

namespace GhostBridge.Approvals

open Ecma Machine

def currentTime : Flow Int := Async.ask Op.clock

def assertAuthorized : Flow Unit := do
  let reply ← Async.ask .assertAuthorized
  reply

def findRequest (id organizationId : Text) : Flow (Option ApprovalRequest) := do
  let reply ← Async.ask (.findRequest id organizationId)
  reply

def findWorkflow (organizationId stableWorkflowId : Text) (version : ℕ) :
    Flow (Option ApprovalWorkflow) := do
  let reply ← Async.ask (.findWorkflow organizationId stableWorkflowId version)
  reply

def approverIdentity (organizationId actorId : Text) : Flow (Option Approver) := do
  let reply ← Async.ask (.approverIdentity organizationId actorId)
  reply

def findDecisions (organizationId id : Text) : Flow (List ApprovalDecision) := do
  let reply ← Async.ask (.findDecisions organizationId id)
  reply

def closeRequest (id organizationId : Text) (closure : Closure) : Flow (Option ApprovalRequest) := do
  let reply ← Async.ask (.closeRequest id organizationId closure)
  reply

def closeGrant (id organizationId : Text) (closure : Closure) : Flow Unit := do
  let reply ← Async.ask (.closeGrant id organizationId closure)
  reply

def bindingMatchesWorkspace (workspaceId : Text) (binding : RoleBinding) : Bool :=
  binding.organizationWide || binding.workspaceId = workspaceId

def notEligible (message : String) : Failure := approvalError 403 "APPROVER_NOT_ELIGIBLE" message

/-- `[approverId, approver.externalUserId].includes(request.requesterActorId)`. -/
def isRequester (approver : Approver) (request : ApprovalRequest) : Bool :=
  [approver.id, approver.externalUserId].contains request.requesterActorId

/-- The checks of `assertStageEligibility` on the documents. -/
def checkEligibility (request : ApprovalRequest) (stage : ApprovalStage) :
    Option Approver → Checked Approver
  | none => throw (notEligible "Approver is not eligible.")
  | some approver =>
    let eligible := stage.eligibleApprovers
    let bound := approver.roleBindings.filter (bindingMatchesWorkspace request.workspaceId)
    let roleKeys := (bound.map RoleBinding.roleKey).filter (· ≠ [])
    if eligible.requireHuman ∧ approver.externalUserId = [] then
      throw (notEligible "Approver is not eligible.")
    else if stage.excludeRequester ∧ isRequester approver request then
      throw (approvalError 403 "REQUESTER_SELF_APPROVAL_FORBIDDEN"
        "Requester self-approval is forbidden.")
    else if eligible.requireWorkspaceMembership ∧ request.workspaceId ≠ [] ∧
        request.workspaceId ∉ approver.externalWorkspaceIds ∧ bound = [] then
      throw (notEligible "Approver is not a workspace member.")
    else if eligible.roleKeys ≠ [] ∧ ¬eligible.roleKeys.any roleKeys.contains then
      throw (notEligible "Approver role constraint was not met.")
    else if eligible.teamIds ≠ [] ∧ ¬eligible.teamIds.any approver.teamIds.contains then
      throw (notEligible "Approver team constraint was not met.")
    else return approver

def assertAllAuthorized : List Text → Flow Unit
  | [] => return ()
  | _ :: permissions => do
    assertAuthorized
    assertAllAuthorized permissions

def assertStageEligibility (request : ApprovalRequest) (stage : ApprovalStage)
    (approver : Option Approver) : Flow Approver := do
  let approver ← checkEligibility request stage approver
  assertAuthorized
  assertAllAuthorized stage.eligibleApprovers.permissionIds
  return approver

def expireIfNeeded (request : ApprovalRequest) : Flow ApprovalRequest := do
  if !request.status.isOpen then return request
  else
    let now ← currentTime
    if now < request.expiresAt then return request
    else
      let reply ← Async.ask (.expireRequest request.approvalRequestId request.revision)
      let expired ← (reply : Checked _)
      return expired.getD request

/-- The tenant of a caller; a text that is missing is empty. -/
structure Scope where
  organizationId : Text
  workspaceId : Text := []

structure DecisionInput where
  scope : Scope
  stageId : Text := []
  /-- `input.approverActorId || input.approverId`. -/
  approverActorId : Text

def notFound : Failure :=
  approvalError 404 "APPROVAL_REQUEST_NOT_FOUND" "Approval request was not found."

def stageConflict (message : String) : Failure :=
  approvalError 409 "APPROVAL_STAGE_CONFLICT" message

def approverDuplicate (message : String) : Failure :=
  approvalError 409 "APPROVER_DUPLICATE" message

/-- `String(decision).toUpperCase()`, which is one of two. -/
def normalizedDecision (decision : Text) : Checked DecisionKind :=
  if decision.toUpperCase = ascii "APPROVE" then return .approve
  else if decision.toUpperCase = ascii "REJECT" then return .reject
  else throw (.app 400 "VALIDATION_ERROR" "" "Decision must be APPROVE or REJECT.")

/-- The stage that a request is in: `item.sequence === request.currentStageSequence`. -/
def currentStage (workflow : ApprovalWorkflow) (request : ApprovalRequest) : Option ApprovalStage :=
  workflow.stages.find? fun stage => stage.sequence.integer? = some request.currentStageSequence

def ApprovalDecision.approves (stage : ApprovalStage) (decision : ApprovalDecision) : Bool :=
  decision.stageId = stage.stageId ∧ decision.decision = .approve

def afterDecision (workflow : ApprovalWorkflow) (request : ApprovalRequest) (stage : ApprovalStage)
    (priorDecisions : List ApprovalDecision) : DecisionKind → RequestStatus × Int
  | .reject => (.rejected, request.currentStageSequence)
  | .approve =>
    if stage.required ≤ (priorDecisions.filter (ApprovalDecision.approves stage)).length + 1 then
      if workflow.stages.length ≤ stage.position then (.approved, request.currentStageSequence)
      else (.partiallyApproved, stage.position + 1)
    else (.partiallyApproved, request.currentStageSequence)

def decisionPayload (request : ApprovalRequest) (stage : ApprovalStage) (approver : Approver)
    (decision : DecisionKind) : ApprovalDecision where
  approvalRequestId := request.approvalRequestId
  organizationId := request.organizationId
  stageId := stage.stageId
  stageSequence := stage.position
  approver := approver
  decision := decision
  requestRevision := request.revision

def recordingOf (workflow : ApprovalWorkflow) (request : ApprovalRequest) (stage : ApprovalStage)
    (approver : Approver) (priorDecisions : List ApprovalDecision) (decision : DecisionKind) :
    Checked Recording :=
  if priorDecisions.any fun item =>
      item.stageId = stage.stageId ∧ item.approverActorId = approver.id then
    throw (approverDuplicate "Approver already decided this stage.")
  else if stage.excludePreviousStageApprovers ∧ priorDecisions.any fun item =>
      item.decision = .approve ∧ item.approverActorId = approver.id then
    throw (approverDuplicate "Approver cannot approve consecutive stages.")
  else
    let next := afterDecision workflow request stage priorDecisions decision
    return {
      decision := decisionPayload request stage approver decision
      revision := request.revision
      nextStatus := next.1
      nextStage := next.2
      singleUseGrant := workflow.singleUseGrant }

def assertOpen (request : ApprovalRequest) : Checked Unit :=
  throwWhen (!request.status.isOpen) (approvalError 409
    (if request.status = .expired then "APPROVAL_EXPIRED" else "APPROVAL_STAGE_CONFLICT")
    "Approval request is not open for decisions.")

def decisionFailure : Failure → Failure
  | .duplicateKey => approverDuplicate "Approver already decided this stage."
  | failure => failure

def recordDecision (recording : Recording) : Flow ApprovalRequest := do
  let reply ← Async.ask (.record recording)
  Except.mapError decisionFailure reply

/-- `decideApprovalRequest` up to its transaction. -/
def reviewApprovalRequest (approvalRequestId decision : Text) (input : DecisionInput) :
    Flow Recording := do
  let decision ← normalizedDecision decision
  let found ← findRequest approvalRequestId input.scope.organizationId
  let found ← orThrow notFound found
  let request ← expireIfNeeded found
  throwWhen (request.workspaceId ≠ [] ∧ input.scope.workspaceId ≠ [] ∧
    request.workspaceId ≠ input.scope.workspaceId) notFound
  -- `assertRegionalWriteAuthority(...)`
  assertAuthorized
  assertOpen request
  let workflow ← findWorkflow request.organizationId request.workflowId request.workflowVersion
  let workflow ← orThrow
    (approvalError 409 "APPROVAL_INVALIDATED" "Approval workflow is unavailable.") workflow
  let stage ← orThrow (stageConflict "Approval stage is inconsistent.")
    (currentStage workflow request)
  throwWhen (input.stageId ≠ [] ∧ input.stageId ≠ stage.stageId)
    (stageConflict "Approval stages must be completed in order.")
  let identity ← approverIdentity input.scope.organizationId input.approverActorId
  let approver ← assertStageEligibility request stage identity
  let priorDecisions ← findDecisions request.organizationId request.approvalRequestId
  recordingOf workflow request stage approver priorDecisions decision

def decideApprovalRequest (approvalRequestId decision : Text) (input : DecisionInput) :
    Flow ApprovalRequest := do
  let recording ← reviewApprovalRequest approvalRequestId decision input
  recordDecision recording

def getApprovalRequest (approvalRequestId : Text) (scope : Scope) :
    Flow (ApprovalRequest × List ApprovalDecision) := do
  assertAuthorized
  let found ← findRequest approvalRequestId scope.organizationId
  let found ← orThrow notFound found
  let request ← expireIfNeeded found
  let decisions ← findDecisions scope.organizationId approvalRequestId
  return (request, decisions)

def cancelApprovalRequest (approvalRequestId : Text) (scope : Scope) : Flow ApprovalRequest := do
  assertAuthorized
  let request ← closeRequest approvalRequestId scope.organizationId .cancelled
  let request ← orThrow
    (approvalError 404 "APPROVAL_REQUEST_NOT_FOUND" "Open approval request was not found.") request
  closeGrant approvalRequestId scope.organizationId .cancelled
  return request

def invalidateApprovalRequest (approvalRequestId : Text) (reasonCode : String)
    (organizationId : Text) : Flow (Option ApprovalRequest) := do
  match ← closeRequest approvalRequestId organizationId (.invalidated reasonCode) with
  | none => return none
  | some updated =>
    closeGrant approvalRequestId organizationId (.invalidated reasonCode)
    return some updated

end GhostBridge.Approvals

/-!
## The use of a grant

An action that needs an approval names the requests that were approved for it. The approval is
enforced first, and consumed later, right before the action is executed. The worker of a durable
invocation accepts a grant that has been consumed already.
-/

namespace GhostBridge.Approvals

open Ecma Machine

/-- What an approval is enforced for; a text that is missing is empty. The fingerprint is over the
action and the workflow. -/
structure Action where
  organizationId : Text
  workspaceId : Text := []
  requesterActorId : Text
  permission : Text
  resourceId : Text
  approvalRequestIds : List Text
  fingerprint : ApprovalWorkflow → Text

def findRequestOf (ids : List Text) (organizationId : Text) (workflow : ApprovalWorkflow) :
    Flow (Option ApprovalRequest) := do
  let reply ← Async.ask
    (.findRequestOf ids organizationId workflow.stableWorkflowId workflow.version)
  reply

def findGrant (id organizationId : Text) : Flow (Option ApprovalGrant) := do
  let reply ← Async.ask (.findGrant id organizationId)
  reply

def matchingWorkflows : Flow (List ApprovalWorkflow) := do
  let reply ← Async.ask .matchingWorkflows
  reply

def invalidateWhen (condition : Bool) (request : ApprovalRequest) (reasonCode : String)
    (failure : Failure) : Flow Unit :=
  if condition then do
    let _ ← invalidateApprovalRequest request.approvalRequestId reasonCode request.organizationId
    throw failure
  else return ()

def RequestStatus.refusal : RequestStatus → String
  | .rejected => "APPROVAL_REJECTED"
  | .invalidated => "APPROVAL_INVALIDATED"
  | _ => "APPROVAL_PENDING"

def RequestStatus.isUsable (allowConsumed : Bool) (status : RequestStatus) : Bool :=
  status = .approved ∨ allowConsumed ∧ status = .consumed

def GrantStatus.isUsable (allowConsumed : Bool) (status : GrantStatus) : Bool :=
  status = .active ∨ allowConsumed ∧ status = .consumed

/-- The checks of `validateGrantForWorkflow` on the grant. -/
def checkGrant (action : Action) (fingerprint : Text) (allowConsumed : Bool) :
    Option ApprovalGrant → Checked ApprovalGrant
  | none => throw (approvalError 403 "APPROVAL_INVALIDATED" "Approval grant is unavailable.")
  | some grant =>
    if grant.requestFingerprint ≠ fingerprint then
      throw (approvalError 403 "APPROVAL_INVALIDATED" "Approval grant is unavailable.")
    else if !grant.status.isUsable allowConsumed then
      throw (approvalError 403
        (if grant.status = .consumed then "APPROVAL_GRANT_ALREADY_CONSUMED"
          else "APPROVAL_INVALIDATED") "Approval grant is not active.")
    else if grant.requesterActorId ≠ action.requesterActorId ∨
        grant.resourceId ≠ action.resourceId ∨ grant.permission ≠ action.permission then
      throw (approvalError 403 "APPROVAL_FINGERPRINT_MISMATCH"
        "Approval grant is bound to another action.")
    else return grant

def assertApproversActive (request : ApprovalRequest) : List ApprovalDecision → Flow Unit
  | [] => return ()
  | decision :: decisions => do
    let activeApprover ← approverIdentity request.organizationId decision.approverActorId
    invalidateWhen activeApprover.isNone request "APPROVER_NOT_ELIGIBLE"
      (approvalError 403 "APPROVER_NOT_ELIGIBLE" "An approver is no longer eligible.")
    assertApproversActive request decisions

def validateGrantForWorkflow (action : Action) (allowConsumed : Bool) (workflow : ApprovalWorkflow) :
    Flow Approved := do
  throwWhen action.approvalRequestIds.isEmpty
    (approvalError 403 "APPROVAL_REQUIRED" "Approval is required for this action.")
  let found ← findRequestOf action.approvalRequestIds action.organizationId workflow
  let request ← orThrow (approvalError 403 "APPROVAL_REQUEST_NOT_FOUND"
    "A matching approval request was not found.") found
  throwWhen (request.workspaceId ≠ [] ∧ request.workspaceId ≠ action.workspaceId)
    (approvalError 403 "APPROVAL_TENANT_MISMATCH" "Approval scope does not match the action.")
  let now ← currentTime
  invalidateWhen (request.expiresAt ≤ now) request "APPROVAL_EXPIRED"
    (approvalError 403 "APPROVAL_EXPIRED" "Approval has expired.")
  throwWhen (!request.status.isUsable allowConsumed)
    (approvalError 403 request.status.refusal "Approval is not valid for execution.")
  invalidateWhen (request.requestFingerprint ≠ action.fingerprint workflow) request
    "APPROVAL_FINGERPRINT_MISMATCH" (approvalError 403 "APPROVAL_FINGERPRINT_MISMATCH"
      "Approval fingerprint does not match the action.")
  let found ← findGrant request.approvalRequestId request.organizationId
  let grant ← checkGrant action (action.fingerprint workflow) allowConsumed found
  let decisions ← findDecisions request.organizationId request.approvalRequestId
  assertApproversActive request (decisions.filter (·.decision = .approve))
  return { request := request, grant := grant }

def validateGrants (action : Action) (allowConsumed : Bool) :
    List ApprovalWorkflow → Flow (List Approved)
  | [] => return []
  | workflow :: workflows => do
    let approved ← validateGrantForWorkflow action allowConsumed workflow
    let approvals ← validateGrants action allowConsumed workflows
    return approved :: approvals

/-- The approvals of `enforceApproval(action, options)`; there are none when none is required. -/
def enforceApproval (action : Action) (allowConsumed : Bool) : Flow (List Approved) := do
  let workflows ← matchingWorkflows
  validateGrants action allowConsumed workflows

def Approved.isSettled (approved : Approved) : Bool :=
  approved.grant.status = .consumed ∨ !approved.grant.singleUse

def Approved.consumed (approved : Approved) : Approved :=
  { approved with grant := { approved.grant with status := .consumed } }

def operationalAccess (approved : Approved) : Flow Unit := do
  let reply ← Async.ask (.operationalAccess approved)
  reply

def consumeGrant (approved : Approved) : Flow Unit := do
  let reply ← Async.ask (.consume approved.request.approvalRequestId)
  reply

def consumeApprovalGrants : List Approved → Flow (List Approved)
  | [] => return []
  | approved :: approvals => do
    operationalAccess approved
    if approved.isSettled then
      let rest ← consumeApprovalGrants approvals
      return approved :: rest
    else
      consumeGrant approved
      let rest ← consumeApprovalGrants approvals
      return approved.consumed :: rest

def failureReason : Failure → String
  | .app _ code reasonCode _ => if reasonCode = "" then code else reasonCode
  | _ => "INTERNAL_ERROR"

def isRecoveryRequired : Failure → Bool
  | .app _ code _ _ => code = "INVOCATION_RECOVERY_REQUIRED"
  | _ => false

def failRequest (failure : Failure) (approved : Approved) : Flow (Option ApprovalRequest) :=
  if approved.grant.status = .consumed then do
    let reply ← Async.ask
      (.failRequest approved.request.approvalRequestId approved.request.organizationId
        (isRecoveryRequired failure) (failureReason failure))
    reply
  else return none

def markApprovedExecutionFailure (failure : Failure) : List Approved → Flow Unit
  | [] => return ()
  | approved :: approvals => do
    let _ ← failRequest failure approved
    markApprovedExecutionFailure failure approvals

def orMarkFailure {α : Type} (approvals : List Approved) (flow : Flow α) : Flow α :=
  tryCatch flow fun failure => do
    let _ ← (markApprovedExecutionFailure failure approvals).attempt
    throw failure

/-- One execution of an invocation. A durable one is executed by a worker, and again when it is
retried. -/
structure Execution where
  invocationId : Text
  durable : Bool
  action : Action

def execute (approvals : List Approved) : Flow Unit := do
  let reply ← Async.ask (.execute approvals)
  reply

def Execution.invoke (execution : Execution) : Flow Unit := do
  let enforced ← enforceApproval execution.action execution.durable
  let approvals ← orMarkFailure enforced (consumeApprovalGrants enforced)
  orMarkFailure approvals (execute approvals)

end GhostBridge.Approvals
