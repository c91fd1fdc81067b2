import GhostBridge.Delegation.Grants
import GhostBridge.Machine.Threads

/-!
# Delegated invocations

What is left of a grant changes by updates of the database, each one atomic step.
-/

namespace GhostBridge.Delegation

open Ecma Machine

inductive InvocationStatus where
  | prepared
  | approvalRequired
  | invoking
  | succeeded
  | failed
  | cancelled
  | rejected
deriving DecidableEq

/-- An `InterAgentDelegationInvocation`. -/
structure Invocation where
  id : ObjectId
  organizationId : Text
  workspaceId : Text
  delegationGrantId : ObjectId
  idempotencyKeyHash : Text
  invocationOrdinal : ℕ
  status : InvocationStatus := .prepared
deriving DecidableEq

/-- An `InterAgentDelegationReference`. -/
structure Reference where
  delegationGrantId : ObjectId
  delegationInvocationId : ObjectId
  organizationId : Text
  workspaceId : Text
  orchestrationRunId : Option ObjectId
  issuedAt : Int
  expiresAt : Int
  consumedAt : Option Int := none
  invalidatedAt : Option Int := none
deriving DecidableEq

inductive ApprovalStatus where
  | pending
  | partiallyApproved
  | approved
  | rejected
  | expired
  | invalidated
  | cancelled
deriving DecidableEq

/-- `TERMINAL_GRANT_STATUSES`. -/
def GrantStatus.isTerminal (status : GrantStatus) : Bool :=
  status ∈ [exhausted, expired, revoked, completed, rejected]

structure Digests where
  /-- `secureDigest('inter-agent-invocation-idempotency', key)`. -/
  idempotencyKey : Text → Text
  /-- `secureDigest('internal-delegation-reference', token)`. -/
  reference : Text → Text

inductive GrantChange where
  /-- The approval of a grant is in; the scheduler names the request for it. -/
  | activate (approvalRequestId : Option Text := none)
  | settle (expired : Bool) (approvalRequestId : Option Text := none)
  | reserve (key : Text) (scope : Scope) (now : Int) (firstUsedAt : Int)
  | expire
  | exhaust (invocationLimit : ℕ)
  | revoke (scope : Scope)
  | close (run : ObjectId) (scope : Scope) (completed : Bool)
deriving DecidableEq

def Grant.isIn (grant : Grant) (scope : Scope) : Bool :=
  grant.terms.organizationId = scope.organizationId ∧ grant.terms.workspaceId = scope.workspaceId

def GrantChange.filter (digests : Digests) : GrantChange → Grant → Bool
  | .activate approvalRequestId, grant | .settle _ approvalRequestId, grant =>
    grant.state.status = .pending ∧
      (approvalRequestId.isSome → grant.state.approvalRequestId = approvalRequestId)
  | .reserve key scope now _, grant =>
    grant.isIn scope ∧ grant.state.status = .active ∧ grant.terms.validFrom ≤ now ∧
      now < grant.terms.expiresAt ∧ grant.state.invocationCount < grant.terms.invocationLimit ∧
      digests.idempotencyKey key ∉ grant.state.idempotencyReservationHashes
  | .expire, grant => grant.state.status = .active
  | .exhaust invocationLimit, grant =>
    grant.state.status = .active ∧ invocationLimit ≤ grant.state.invocationCount
  | .revoke scope, grant =>
    grant.isIn scope ∧ (grant.state.status = .pending ∨ grant.state.status = .active)
  | .close run scope _, grant =>
    grant.terms.orchestrationRunId = some run ∧ grant.isIn scope ∧
      (grant.state.status = .pending ∨ grant.state.status = .active)

def GrantChange.update (digests : Digests) : GrantChange → GrantState → GrantState
  | .activate _, state => { state with status := .active }
  | .settle expired _, state => { state with status := if expired then .expired else .rejected }
  | .reserve key _ _ firstUsedAt, state =>
    { state with
      invocationCount := state.invocationCount + 1
      idempotencyReservationHashes :=
        state.idempotencyReservationHashes ++ [digests.idempotencyKey key]
      firstUsedAt := some firstUsedAt }
  | .expire, state => { state with status := .expired }
  | .exhaust _, state => { state with status := .exhausted }
  | .revoke _, state => { state with status := .revoked }
  | .close _ _ completed, state =>
    { state with status := if completed then .completed else .revoked }

/-- `findOneAndUpdate(filter, update, { new: true })` of one grant. -/
def GrantChange.apply (digests : Digests) (change : GrantChange) (grant : Grant) : Option Grant :=
  if change.filter digests grant then some { grant with state := change.update digests grant.state }
  else none

inductive InvocationChange where
  | start
  | succeed
  | fail (scope : Scope)
deriving DecidableEq

def InvocationChange.filter : InvocationChange → Invocation → Bool
  | .start, invocation => invocation.status ∈ [.prepared, .failed]
  | .succeed, invocation => invocation.status ∈ [.prepared, .invoking, .failed]
  | .fail scope, invocation =>
    invocation.organizationId = scope.organizationId ∧ invocation.workspaceId = scope.workspaceId ∧
      invocation.status ∈ [.prepared, .approvalRequired, .invoking, .failed]

def InvocationChange.status : InvocationChange → InvocationStatus
  | .start => .invoking
  | .succeed => .succeeded
  | .fail _ => .failed

/-- A check of other services, or of the data that is delegated. -/
inductive Stage where
  /-- The authorization, the operational state and the reason code. -/
  | revocation
  | regionalAuthority
  /-- The contract and its hashes, the identities, the authorization, the operational state, the
  classification and the payload. -/
  | preparation
  | completion
deriving DecidableEq

inductive Op where
  /-- `new Date()`. -/
  | clock
  /-- `crypto.randomBytes(32)`. -/
  | randomToken
  | check (stage : Stage)
  | findGrant (id : ObjectId) (scope : Scope)
  | findInvocation (grantId : ObjectId) (key : Text)
  /-- The request for approval, expired where its time is over. -/
  | findApproval (approvalRequestId : Option Text)
  | changeGrant (id : ObjectId) (change : GrantChange)
  /-- `updateMany(filter, update)` of the grants of a run. -/
  | closeGrants (run : ObjectId) (scope : Scope) (completed : Bool)
  | insertInvocation (scope : Scope) (grantId : ObjectId) (key : Text) (ordinal : ℕ)
  | changeInvocation (grantId id : ObjectId) (change : InvocationChange)
  | insertReference (token : Text) (reference : Reference)
  | consumeReference (token : Text) (scope : Scope) (grantId invocationId : ObjectId) (now : Int)
  /-- The references of a grant, or of a run, are no longer valid. -/
  | invalidateReferences (grantId run : Option ObjectId) (now : Int)
  /-- `invokeThroughRuntimeGateway`. -/
  | invoke (grantId invocationId : ObjectId)

abbrev Reply : Op → Type
  | .clock => Int
  | .randomToken => Text
  | .check _ => Created Unit
  | .findGrant _ _ => Created (Option Grant)
  | .findInvocation _ _ => Created (Option Invocation)
  | .findApproval _ => Created (Option ApprovalStatus)
  | .changeGrant _ _ => Created (Option Grant)
  | .closeGrants _ _ _ => Created Unit
  | .insertInvocation _ _ _ _ => Created Invocation
  | .changeInvocation _ _ _ => Created (Option Invocation)
  | .insertReference _ _ => Created Unit
  | .consumeReference _ _ _ _ _ => Created (Option Reference)
  | .invalidateReferences _ _ _ => Created Unit
  | .invoke _ _ => Created Unit

abbrev Flow := Async Op Reply Failure

/-- The clock, the grants by their identifiers, the invocations, and the references by the digests
of their tokens. -/
structure Database where
  clock : Int := 0
  grants : ObjectId → Option Grant
  invocations : List Invocation := []
  references : Text → Option Reference := fun _ => none

structure Answer where
  /-- How long the clock has gone on before the operation. -/
  elapsed : ℕ := 0
  /-- What a check or a call of another service fails with, if it fails. -/
  failure : Option Failure := none
  unavailable : Bool := false
  token : Text := []
  approval : Option ApprovalStatus := none
  newId : ObjectId

def Answer.available {α : Type} (answer : Answer) (db : Database) (result : Created α × Database) :
    Created α × Database :=
  if answer.unavailable then (.error .unavailable, db) else result

def Answer.outcome (answer : Answer) : Created Unit :=
  match answer.failure with
  | some failure => .error failure
  | none => .ok ()

namespace Database

def findGrant (db : Database) (id : ObjectId) (scope : Scope) : Option Grant :=
  (db.grants id).filter fun grant => grant.isIn scope

def findInvocation (db : Database) (grantId : ObjectId) (hash : Text) : Option Invocation :=
  db.invocations.find? fun invocation =>
    invocation.delegationGrantId = grantId ∧ invocation.idempotencyKeyHash = hash

def changeGrant (digests : Digests) (db : Database) (id : ObjectId) (change : GrantChange) :
    Option Grant × Database :=
  match (db.grants id).bind (change.apply digests) with
  | none => (none, db)
  | some grant => (some grant, { db with grants := Function.update db.grants id (some grant) })

def closeGrants (digests : Digests) (db : Database) (change : GrantChange) : Database :=
  { db with
    grants := fun id => (db.grants id).map fun grant => (change.apply digests grant).getD grant }

/-- The indexes `unique_grant_invocation_ordinal` and `unique_grant_invocation_idempotency`, and the
one of identifiers. -/
def insertInvocation (db : Database) (invocation : Invocation) : Created Invocation × Database :=
  if db.invocations.any fun other =>
      other.id = invocation.id ∨ other.delegationGrantId = invocation.delegationGrantId ∧
        (other.invocationOrdinal = invocation.invocationOrdinal ∨
          other.idempotencyKeyHash = invocation.idempotencyKeyHash) then
    (.error .duplicateKey, db)
  else (.ok invocation, { db with invocations := db.invocations ++ [invocation] })

def changeInvocation (db : Database) (id : ObjectId) (change : InvocationChange) :
    Option Invocation × Database :=
  match db.invocations.find? fun invocation => invocation.id = id ∧ change.filter invocation with
  | none => (none, db)
  | some found =>
    let changed := { found with status := change.status }
    (some changed, { db with
      invocations := db.invocations.map fun invocation =>
        if invocation.id = id then changed else invocation })

def insertReference (db : Database) (hash : Text) (reference : Reference) :
    Created Unit × Database :=
  match db.references hash with
  | some _ => (.error .duplicateKey, db)
  | none => (.ok (), { db with references := Function.update db.references hash (some reference) })

def consumeReference (db : Database) (hash : Text) (scope : Scope) (grantId invocationId : ObjectId)
    (now : Int) : Option Reference × Database :=
  match (db.references hash).filter fun reference =>
      reference.organizationId = scope.organizationId ∧ reference.workspaceId = scope.workspaceId ∧
        reference.delegationGrantId = grantId ∧ reference.delegationInvocationId = invocationId ∧
        now < reference.expiresAt ∧ reference.consumedAt = none ∧
        reference.invalidatedAt = none with
  | none => (none, db)
  | some reference =>
    let consumed := { reference with consumedAt := some now }
    (some consumed, { db with references := Function.update db.references hash (some consumed) })

def invalidateReferences (db : Database) (grantId run : Option ObjectId) (now : Int) : Database :=
  { db with
    references := fun hash => (db.references hash).map fun reference =>
      if (grantId = some reference.delegationGrantId ∨
          run.isSome ∧ reference.orchestrationRunId = run) ∧
          reference.consumedAt = none ∧ reference.invalidatedAt = none then
        { reference with invalidatedAt := some now }
      else reference }

end Database

def performAt (digests : Digests) (db : Database) : (op : Op) → Answer → Reply op × Database
  | .clock, _ => (db.clock, db)
  | .randomToken, answer => (answer.token, db)
  | .check _, answer => (answer.outcome, db)
  | .findGrant id scope, answer => answer.available db (.ok (db.findGrant id scope), db)
  | .findInvocation grantId key, answer =>
    answer.available db (.ok (db.findInvocation grantId (digests.idempotencyKey key)), db)
  | .findApproval _, answer => answer.available db (.ok answer.approval, db)
  | .changeGrant id change, answer =>
    let (grant, changed) := db.changeGrant digests id change
    answer.available db (.ok grant, changed)
  | .closeGrants run scope completed, answer =>
    answer.available db (.ok (), db.closeGrants digests (.close run scope completed))
  | .insertInvocation scope grantId key ordinal, answer =>
    answer.available db (db.insertInvocation
      { id := answer.newId
        organizationId := scope.organizationId
        workspaceId := scope.workspaceId
        delegationGrantId := grantId
        idempotencyKeyHash := digests.idempotencyKey key
        invocationOrdinal := ordinal })
  | .changeInvocation _ id change, answer =>
    let (invocation, changed) := db.changeInvocation id change
    answer.available db (.ok invocation, changed)
  | .insertReference token reference, answer =>
    answer.available db (db.insertReference (digests.reference token) reference)
  | .consumeReference token scope grantId invocationId now, answer =>
    let (reference, changed) :=
      db.consumeReference (digests.reference token) scope grantId invocationId now
    answer.available db (.ok reference, changed)
  | .invalidateReferences grantId run now, answer =>
    answer.available db (.ok (), db.invalidateReferences grantId run now)
  | .invoke _ _, answer => (answer.outcome, db)

def perform (digests : Digests) : Perform Database Op Answer Reply := fun db op answer =>
  performAt digests { db with clock := db.clock + answer.elapsed } op answer

structure Options where
  /-- `options.now`. -/
  now : Option Int := none

def currentTime (options : Options) : Flow Int :=
  match options.now with
  | some now => pure now
  | none => Async.ask Op.clock

def check (stage : Stage) : Flow Unit := do
  let reply ← Async.ask (.check stage)
  reply

def changeGrant (id : ObjectId) (change : GrantChange) : Flow (Option Grant) := do
  let reply ← Async.ask (.changeGrant id change)
  reply

def changeInvocation (grantId id : ObjectId) (change : InvocationChange) :
    Flow (Option Invocation) := do
  let reply ← Async.ask (.changeInvocation grantId id change)
  reply

def findInvocation (grantId : ObjectId) (key : Text) : Flow (Option Invocation) := do
  let reply ← Async.ask (.findInvocation grantId key)
  reply

def grantNotFound : Failure :=
  .app 404 "INTER_AGENT_GRANT_NOT_FOUND" "Delegation grant was not found."

def scopedGrant (id : ObjectId) (scope : Scope) : Flow Grant := do
  let reply ← Async.ask (.findGrant id scope)
  match ← reply with
  | some grant => return grant
  | none => throw grantNotFound

def activateApprovedGrant (id : ObjectId) (grant : Grant) : Flow Grant := do
  if grant.state.status ≠ .pending then return grant
  else
    let reply ← Async.ask (.findApproval grant.state.approvalRequestId)
    match ← reply with
    | none => throw (Failure.app 409 "APPROVAL_REQUEST_NOT_FOUND"
        "Delegation approval request is unavailable.")
    | some .approved => return (← changeGrant id .activate).getD grant
    | some .pending | some .partiallyApproved =>
      throw (Failure.app 409 "APPROVAL_PENDING" "Delegation approval is pending.")
    | some status =>
      let _ ← changeGrant id (.settle (status = .expired))
      throw (Failure.app 403 (if status = .expired then "APPROVAL_EXPIRED" else "APPROVAL_REJECTED")
        "Delegation approval was not granted.")

def inactiveCode (status : GrantStatus) (otherwise : String) : String :=
  match status with
  | .revoked => "INTER_AGENT_GRANT_REVOKED"
  | .expired => "INTER_AGENT_GRANT_EXPIRED"
  | .exhausted => "INTER_AGENT_GRANT_EXHAUSTED"
  | _ => otherwise

def reservationCode : Option GrantStatus → String
  | some .pending => "APPROVAL_PENDING"
  | some .revoked => "INTER_AGENT_GRANT_REVOKED"
  | some .expired => "INTER_AGENT_GRANT_EXPIRED"
  | _ => "INTER_AGENT_GRANT_EXHAUSTED"

def markExhausted (id : ObjectId) (reserved : Grant) : Flow Grant := do
  if reserved.terms.invocationLimit ≤ reserved.state.invocationCount then
    let _ ← changeGrant id (.exhaust reserved.terms.invocationLimit)
    return { reserved with state := { reserved.state with status := .exhausted } }
  else return reserved

def unreserved (digests : Digests) (id : ObjectId) (key : Text) (scope : Scope) (now : Int) :
    Flow (Grant × Bool) := do
  let reply ← Async.ask (.findGrant id scope)
  let existing ← reply
  if existing.any fun grant =>
      digests.idempotencyKey key ∈ grant.state.idempotencyReservationHashes then
    match existing with
    | some grant => return (grant, true)
    | none => throw grantNotFound
  else
    if existing.any fun grant =>
        grant.terms.expiresAt ≤ now ∧ grant.state.status = .active then
      let _ ← changeGrant id .expire
    throw (Failure.app 409 (reservationCode (existing.map fun grant => grant.state.status))
      "Delegation grant cannot reserve another invocation.")

def reserveGrantInvocation (digests : Digests) (id : ObjectId) (grant : Grant) (key : Text)
    (scope : Scope) (options : Options) : Flow (Grant × Bool) := do
  let now ← currentTime options
  match ← changeGrant id (.reserve key scope now (grant.state.firstUsedAt.getD now)) with
  | none => unreserved digests id key scope now
  | some reserved => return (← markExhausted id reserved, false)

def internalReferenceLifetimeMs : Int := 5 * 60 * 1000

def issueDelegationReference (id : ObjectId) (grant : Grant) (invocation : Invocation)
    (options : Options) : Flow Text := do
  let now ← currentTime options
  let token ← Async.ask .randomToken
  let reply ← Async.ask (.insertReference token
    { delegationGrantId := id
      delegationInvocationId := invocation.id
      organizationId := grant.terms.organizationId
      workspaceId := grant.terms.workspaceId
      orchestrationRunId := grant.terms.orchestrationRunId
      issuedAt := now
      expiresAt := min grant.terms.expiresAt (now + internalReferenceLifetimeMs) })
  reply
  return token

def consumeDelegationReference (token : Text) (scope : Scope) (grantId invocationId : ObjectId)
    (options : Options) : Flow Reference := do
  let now ← currentTime options
  let reply ← Async.ask (.consumeReference token scope grantId invocationId now)
  match ← reply with
  | some reference => return reference
  | none => throw (Failure.app 403 "INTER_AGENT_REFERENCE_INVALID"
      "Internal delegation reference is invalid or expired.")

structure ExecuteInput where
  grantId : Text
  scope : Scope
  idempotencyKey : Option Text := none
  sourceNodeRunId : Option Text := none
  targetNodeRunId : Option Text := none

def idText (id : Option ObjectId) : Text := (id.map Subtype.val).getD []

def invocationKey (input : ExecuteInput) (terms : Terms) : Text :=
  input.idempotencyKey.getD (idText terms.orchestrationRunId ++ ascii ":" ++
    idText terms.sourceNodeRunId ++ ascii ":" ++ idText terms.targetNodeRunId ++ ascii ":" ++
    terms.contractId.val)

def isForeignNode (named : Option Text) (node : Option ObjectId) : Bool :=
  named.any fun text => idOf text ≠ idText node

def checkGrant (input : ExecuteInput) (grant : Grant) (replayAllowed : Bool) (now : Int) :
    Created Unit := do
  throwWhen (!replayAllowed ∧ grant.state.status ≠ .active)
    (.app 409 (inactiveCode grant.state.status "INTER_AGENT_GRANT_INACTIVE")
      "Delegation grant is not active.")
  throwWhen (now < grant.terms.validFrom ∨ grant.terms.expiresAt ≤ now)
    (.app 409 "INTER_AGENT_GRANT_EXPIRED" "Delegation grant is outside its validity window.")
  throwWhen (isForeignNode input.sourceNodeRunId grant.terms.sourceNodeRunId)
    (.app 403 "INTER_AGENT_SOURCE_IDENTITY_MISMATCH" "Source node is not authorized by this grant.")
  throwWhen (isForeignNode input.targetNodeRunId grant.terms.targetNodeRunId)
    (.app 403 "INTER_AGENT_TARGET_IDENTITY_MISMATCH" "Target node is not authorized by this grant.")

def createInvocation (scope : Scope) (grantId : ObjectId) (key : Text) (ordinal : ℕ) :
    Flow Invocation := do
  tryCatch (do
    let reply ← Async.ask (.insertInvocation scope grantId key ordinal)
    reply) fun error => do
      if error ≠ .duplicateKey then throw error
      else
        match ← findInvocation grantId key with
        | some invocation => return invocation
        | none => throw error

structure PreparedInvocation where
  grantId : ObjectId
  grant : Grant
  invocation : Invocation
  reference : Text
  idempotencyReplayed : Bool

/-- `prepareDelegatedInvocation` once the grant has been read. -/
def prepareUnderGrant (digests : Digests) (input : ExecuteInput) (options : Options) (now : Int)
    (id : ObjectId) (found : Grant) : Flow PreparedInvocation := do
  let key := invocationKey input found.terms
  let existing ← findInvocation id key
  check .regionalAuthority
  let grant ← activateApprovedGrant id found
  checkGrant input grant existing.isSome now
  check .preparation
  let (reserved, replayed) ← match existing with
    | some _ => pure (grant, true)
    | none => reserveGrantInvocation digests id grant key input.scope options
  let invocation ← match existing with
    | some invocation => pure invocation
    | none => createInvocation input.scope id key reserved.state.invocationCount
  let reference ← issueDelegationReference id reserved invocation options
  return ⟨id, reserved, invocation, reference, existing.isSome || replayed⟩

def prepareDelegatedInvocation (digests : Digests) (input : ExecuteInput) (options : Options) :
    Flow PreparedInvocation := do
  let now ← currentTime options
  let id ← orThrow grantNotFound (castObjectId input.grantId)
  let found ← scopedGrant id input.scope
  prepareUnderGrant digests input options now id found

def completeDelegatedInvocation (prepared : PreparedInvocation) : Flow Invocation := do
  check .regionalAuthority
  check .completion
  let changed ← changeInvocation prepared.grantId prepared.invocation.id .succeed
  return changed.getD prepared.invocation

def failDelegatedInvocation (prepared : PreparedInvocation) (scope : Scope) : Flow Unit := do
  let _ ← changeInvocation prepared.grantId prepared.invocation.id (.fail scope)

def startDelegatedInvocation (prepared : PreparedInvocation) (scope : Scope) (options : Options) :
    Flow Unit := do
  let _ ← consumeDelegationReference prepared.reference scope prepared.grantId
    prepared.invocation.id options
  let _ ← changeInvocation prepared.grantId prepared.invocation.id .start
  let reply ← Async.ask (.invoke prepared.grantId prepared.invocation.id)
  reply

def executeDelegatedInvocation (digests : Digests) (input : ExecuteInput) (options : Options) :
    Flow Unit := do
  let prepared ← prepareDelegatedInvocation digests input options
  tryCatch (do
    startDelegatedInvocation prepared input.scope options
    let _ ← completeDelegatedInvocation prepared) fun error => do
      failDelegatedInvocation prepared input.scope
      throw error

def revokeGrantRecord (grantText : Text) (scope : Scope) : Flow Grant := do
  let now ← Async.ask Op.clock
  let id ← orThrow Failure.cast (castObjectId grantText)
  let grant ← match ← changeGrant id (.revoke scope) with
    | some grant => pure grant
    | none => do
      let grant ← scopedGrant id scope
      if grant.state.status ≠ .revoked then
        throw (Failure.app 409 "INTER_AGENT_GRANT_TERMINAL" "Delegation grant is already terminal.")
      else pure grant
  let reply ← Async.ask (.invalidateReferences (some id) none now)
  reply
  return grant

def revokeGrant (grantText : Text) (scope : Scope) : Flow Unit := do
  check .revocation
  let _ ← revokeGrantRecord grantText scope

def closeRunGrants (run : ObjectId) (completed : Bool) (scope : Scope) : Flow Unit := do
  let now ← Async.ask Op.clock
  let reply ← Async.ask (.closeGrants run scope completed)
  reply
  let reply ← Async.ask (.invalidateReferences none (some run) now)
  reply

/-- The part of `markNodeFromApproval` that changes the grant of a node. -/
def markNodeFromApproval (grantId : ObjectId) (approvalRequestId : Text) (status : ApprovalStatus) :
    Flow Unit := do
  if status = .approved then
    let _ ← changeGrant grantId (.activate (some approvalRequestId))
  else if status ∈ [.rejected, .expired, .invalidated, .cancelled] then
    let _ ← changeGrant grantId (.settle (status = .expired) (some approvalRequestId))

end GhostBridge.Delegation
