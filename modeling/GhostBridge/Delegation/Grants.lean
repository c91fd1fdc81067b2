import GhostBridge.Ecma.Arrays
import GhostBridge.Ecma.Text
import GhostBridge.Ecma.OrderedMap
import GhostBridge.Ecma.Outcome

/-!
# Delegation grants

A grant lets one agent call another under a contract.
-/

namespace GhostBridge.Delegation

open Ecma

def isHexDigit (u : UInt16) : Bool := (0x30 ≤ u && u ≤ 0x39) || (0x61 ≤ u && u ≤ 0x66)

def isObjectId (text : Text) : Bool := text.length = 24 && text.all isHexDigit

/-- An identifier of the database, as the database spells it. -/
abbrev ObjectId := {text : Text // isObjectId text = true}

def castObjectId (text : Text) : Option ObjectId :=
  if h : isObjectId text.toLowerCase = true then some ⟨text.toLowerCase, h⟩ else none

instance neZeroTen : @NeZero ℕ Zero.ofOfNat0 10 := ⟨Nat.succ_ne_zero 9⟩

def digitId (n : Fin 10) : ObjectId :=
  ⟨List.replicate 24 (0x30 + UInt16.ofNat n), by revert n; decide⟩

/-- `idOf` of a text. -/
def idOf (text : Text) : Text := text.trimmed

theorem isHexDigit_unit {u : UInt16} (h : isHexDigit u = true) :
    lowerUnit u = [u] ∧ isWhitespace u = false := by
  have hrange : 0x30 ≤ u.toNat ∧ u.toNat ≤ 0x39 ∨ 0x61 ≤ u.toNat ∧ u.toNat ≤ 0x66 := by
    simpa [isHexDigit, UInt16.le_iff_toNat_le] using h
  constructor
  · have hcapital : ¬(0x41 ≤ u && u ≤ 0x5a) = true := by
      simp only [Bool.and_eq_true, decide_eq_true_eq, UInt16.le_iff_toNat_le]
      change ¬(0x41 ≤ u.toNat ∧ u.toNat ≤ 0x5a)
      omega
    unfold lowerUnit
    rw [if_neg hcapital]
    split
    · simp at hrange
    · simp at hrange
    · rfl
  · simp [isWhitespace, UInt16.le_iff_toNat_le, ← UInt16.toNat_inj]
    omega

theorem isWhitespace_unit {u : UInt16} (h : isWhitespace u = true) :
    lowerUnit u = [u] ∧ isHexDigit u = false := by
  have hhex : isHexDigit u = false := by
    by_contra hdigit
    rw [(isHexDigit_unit (Bool.eq_true_of_not_eq_false hdigit)).2] at h
    cases h
  refine ⟨?_, hhex⟩
  have hcapital : ¬(0x41 ≤ u && u ≤ 0x5a) = true := by
    intro hcapital
    simp [UInt16.le_iff_toNat_le] at hcapital
    simp [isWhitespace, UInt16.le_iff_toNat_le, ← UInt16.toNat_inj] at h
    omega
  unfold lowerUnit
  rw [if_neg hcapital]
  split
  · exact absurd h (by decide)
  · exact absurd h (by decide)
  · rfl

theorem castObjectId_val (id : ObjectId) : castObjectId id.val = some id := by
  have hunits : ∀ u ∈ id.val, isHexDigit u = true := by
    have h := id.property
    simp only [isObjectId, Bool.and_eq_true, List.all_eq_true] at h
    exact h.2
  have hlower : id.val.toLowerCase = id.val := by
    have hflat (text : Text) (h : ∀ u ∈ text, isHexDigit u = true) : text.toLowerCase = text := by
      induction text with
      | nil => rfl
      | cons u text ih =>
        have hrest := ih fun v hv => h v (List.mem_cons_of_mem u hv)
        unfold Text.toLowerCase at hrest ⊢
        rw [List.flatMap_cons, hrest, (isHexDigit_unit (h u List.mem_cons_self)).1]
        rfl
    exact hflat id.val hunits
  unfold castObjectId
  simp only [hlower, id.property, dif_pos]

theorem idOf_of_cast {text : Text} {id : ObjectId} (h : castObjectId text = some id) :
    idOf text = text := by
  unfold castObjectId at h
  split at h
  · next hid =>
    simp only [isObjectId, Bool.and_eq_true, List.all_eq_true] at hid
    apply Text.trimmed_of_forall
    intro u hu
    by_contra hblank
    obtain ⟨hlower, hhex⟩ := isWhitespace_unit (Bool.eq_true_of_not_eq_false hblank)
    have hmem : u ∈ text.toLowerCase := List.mem_flatMap.mpr ⟨u, hu, by simp [hlower]⟩
    rw [hid.2 u hmem] at hhex
    cases hhex
  · cases h

def platformMaximumDelegationDepth : ℕ := 5

def maximumInvocationLimit : ℕ := 1000

abbrev Depth := {depth : ℕ // 1 ≤ depth ∧ depth ≤ platformMaximumDelegationDepth}

inductive ContractStatus where
  | draft
  | active
  | archived
deriving DecidableEq

/-- An `InterAgentDataContract`. -/
structure Contract where
  id : ObjectId
  organizationId : Text
  workspaceId : Text
  version : ℕ
  status : ContractStatus
  sourceCapability : Text
  sourceOperation : Text
  targetCapability : Text
  targetOperation : Text
  purposeCode : Text
  maximumDelegationDepth : Depth
  allowFurtherDelegation : Bool
  validFrom : Int
  expiresAt : Int

inductive GrantStatus where
  | pending
  | active
  | exhausted
  | expired
  | revoked
  | completed
  | rejected
deriving DecidableEq

structure Terms where
  organizationId : Text
  workspaceId : Text
  orchestrationRunId : Option ObjectId
  sourceNodeRunId : Option ObjectId
  targetNodeRunId : Option ObjectId
  contractId : ObjectId
  contractVersion : ℕ
  sourcePassportId : ObjectId
  sourceConnectionId : ObjectId
  targetPassportId : ObjectId
  targetConnectionId : ObjectId
  sourceCapability : Text
  sourceOperation : Text
  targetCapability : Text
  targetOperation : Text
  purposeCode : Text
  invocationLimit : ℕ
  validFrom : Int
  expiresAt : Int
  delegationDepth : Depth
  maximumDelegationDepth : Depth
  allowFurtherDelegation : Bool
  parentDelegationGrantId : Option ObjectId
  passportPath : List Text
deriving DecidableEq

structure GrantState where
  status : GrantStatus
  invocationCount : ℕ := 0
  idempotencyReservationHashes : List Text := []
  approvalRequestId : Option Text := none
  firstUsedAt : Option Int := none
deriving DecidableEq

/-- An `InterAgentDelegationGrant`. -/
structure Grant where
  terms : Terms
  state : GrantState
deriving DecidableEq

abbrev Grants := OrderedMap ObjectId Grant

structure Scope where
  organizationId : Text
  workspaceId : Text
deriving DecidableEq

/-- An `OrchestrationNodeRun`. -/
structure NodeRun where
  id : ObjectId
  passportId : Option ObjectId
  passportVersion : Text
  connectionId : Option ObjectId
  capability : Text
  operation : Text

/-- A `PassportConnection`. -/
structure Connection where
  passportId : ObjectId

/-- An `AgentPassport`. -/
structure Passport where
  version : Text

/-- What the other collections and services answer while a grant is created. Each lookup has the
filter of the code: a connection is connected to the workspace, a passport is valid, an entry of
the catalog is available. -/
structure Directory (Entry : Type) where
  contracts : List Contract
  nodeRun : Text → Option NodeRun
  connection : ObjectId → Option Connection
  passport : ObjectId → Option Passport
  entry : ObjectId → ObjectId → Option Entry
  /-- The selector and the capability of a contract match the source. -/
  matchesSource : Contract → Entry → Bool
  matchesTarget : Contract → Entry → Bool
  /-- `approvalForGrant`: the identifier of a request for approval where one is needed. -/
  approval : Contract → Terms → Option Text

inductive Failure where
  | app (status : ℕ) (code message : String)
  | cast
  | duplicateKey
  | unavailable
deriving DecidableEq

abbrev Created (α : Type) := Except Failure α

/-- What `Number` makes of a value: nothing of a value that is missing or 0. -/
inductive Numeral where
  | missing
  | integer (n : Int)
  | other
deriving DecidableEq

/-- `Number(value || fallback)`, where it is an integer. -/
def Numeral.orElse (fallback : Int) : Numeral → Option Int
  | missing => some fallback
  | integer n => some n
  | other => none

/-- What a grant is created from. A text that is missing or empty is absent. -/
structure GrantInput where
  contractId : Text
  contractVersion : Int
  orchestrationRunId : Option Text := none
  sourceNodeRunId : Option Text := none
  targetNodeRunId : Option Text := none
  sourcePassportId : Option Text := none
  sourcePassportVersion : Option Text := none
  sourceConnectionId : Option Text := none
  targetPassportId : Option Text := none
  targetPassportVersion : Option Text := none
  targetConnectionId : Option Text := none
  parentDelegationGrantId : Option Text := none
  delegationDepth : Numeral := .missing
  invocationLimit : Numeral := .missing
  expiresAt : Option Int := none

/-- Who a grant is between. A text that is missing is empty. -/
structure Identity where
  orchestrationRunId : Option Text
  sourceNodeRunId : Option Text
  targetNodeRunId : Option Text
  sourcePassportId : Text
  sourcePassportVersion : Text
  sourceConnectionId : Text
  targetPassportId : Text
  targetPassportVersion : Text
  targetConnectionId : Text

def grantIdentity (input : GrantInput) (sourceNode targetNode : Option NodeRun) : Identity :=
  let passportId (node : Option NodeRun) := (node.bind NodeRun.passportId).map Subtype.val
  let connectionId (node : Option NodeRun) := (node.bind NodeRun.connectionId).map Subtype.val
  let version (node : Option NodeRun) := node.map NodeRun.passportVersion
  { orchestrationRunId := input.orchestrationRunId
    sourceNodeRunId := input.sourceNodeRunId <|> sourceNode.map (·.id.val)
    targetNodeRunId := input.targetNodeRunId <|> targetNode.map (·.id.val)
    sourcePassportId := (input.sourcePassportId <|> passportId sourceNode).getD []
    sourcePassportVersion := (input.sourcePassportVersion <|> version sourceNode).getD []
    sourceConnectionId := (input.sourceConnectionId <|> connectionId sourceNode).getD []
    targetPassportId := (input.targetPassportId <|> passportId targetNode).getD []
    targetPassportVersion := (input.targetPassportVersion <|> version targetNode).getD []
    targetConnectionId := (input.targetConnectionId <|> connectionId targetNode).getD [] }

variable {Entry : Type}

structure Actors (Entry : Type) where
  sourceCatalog : Entry
  targetCatalog : Entry

def loadGrantActors (directory : Directory Entry) (identity : Identity) : Created (Actors Entry) := do
  let sourceConnectionId ← orThrow .cast (castObjectId identity.sourceConnectionId)
  let targetConnectionId ← orThrow .cast (castObjectId identity.targetConnectionId)
  let sourcePassportId ← orThrow .cast (castObjectId identity.sourcePassportId)
  let targetPassportId ← orThrow .cast (castObjectId identity.targetPassportId)
  let unavailable : Failure := .app 409 "INTER_AGENT_IDENTITY_UNAVAILABLE"
    "A delegated source or target identity is unavailable."
  let sourceConnection ← orThrow unavailable (directory.connection sourceConnectionId)
  let targetConnection ← orThrow unavailable (directory.connection targetConnectionId)
  let sourcePassport ← orThrow unavailable (directory.passport sourcePassportId)
  let targetPassport ← orThrow unavailable (directory.passport targetPassportId)
  let sourceCatalog ← orThrow unavailable (directory.entry sourcePassportId sourceConnectionId)
  let targetCatalog ← orThrow unavailable (directory.entry targetPassportId targetConnectionId)
  throwWhen (sourceConnection.passportId ≠ sourcePassportId ∨
      targetConnection.passportId ≠ targetPassportId)
    (.app 409 "INTER_AGENT_IDENTITY_MISMATCH" "Delegation identity binding is invalid.")
  throwWhen (sourcePassport.version ≠ identity.sourcePassportVersion ∨
      targetPassport.version ≠ identity.targetPassportVersion)
    (.app 409 "INTER_AGENT_PASSPORT_VERSION_MISMATCH"
      "Delegation passport version no longer matches its frozen identity.")
  return ⟨sourceCatalog, targetCatalog⟩

structure Standing where
  depth : Depth
  parent : Option ObjectId
  passportPath : List Text

def depthInvalid (message : String) : Failure :=
  .app 403 "DATA_CONTRACT_DELEGATION_DEPTH_INVALID" message

def requestedDepth (input : GrantInput) (contract : Contract) : Created Depth :=
  let failure := depthInvalid "Delegation depth exceeds the allowed bound."
  match input.delegationDepth.orElse (if input.parentDelegationGrantId.isSome then 2 else 1) with
  | none => throw failure
  | some depth =>
    if h : 1 ≤ depth.toNat ∧ depth.toNat ≤ platformMaximumDelegationDepth then
      if depth.toNat ≤ contract.maximumDelegationDepth.val then return ⟨depth.toNat, h⟩
      else throw failure
    else throw failure

def findGrant (grants : Grants) (scope : Scope) (id : ObjectId) : Option Grant :=
  (grants.get? id).filter fun grant =>
    grant.terms.organizationId = scope.organizationId ∧ grant.terms.workspaceId = scope.workspaceId

def validateParentGrant (grants : Grants) (input : GrantInput) (contract : Contract)
    (identity : Identity) (scope : Scope) : Created Standing := do
  let depth ← requestedDepth input contract
  match input.parentDelegationGrantId with
  | none =>
    return ⟨depth, none, [idOf identity.sourcePassportId, idOf identity.targetPassportId]⟩
  | some parentText =>
    let furtherDenied (message : String) : Failure :=
      .app 403 "INTER_AGENT_FURTHER_DELEGATION_DENIED" message
    throwWhen (!contract.allowFurtherDelegation)
      (furtherDenied "Further delegation is not authorized by this contract.")
    let parentId ← orThrow .cast (castObjectId parentText)
    let notPermitted := furtherDenied "Parent delegation does not permit transfer of authority."
    let parent ← orThrow notPermitted (findGrant grants scope parentId)
    throwWhen (parent.state.status ≠ .active ∨ !parent.terms.allowFurtherDelegation) notPermitted
    throwWhen (depth.val ≠ parent.terms.delegationDepth.val + 1 ∨
        parent.terms.maximumDelegationDepth.val < depth.val)
      (depthInvalid "Delegation depth does not match the parent grant.")
    throwWhen (parent.terms.targetPassportId.val ≠ idOf identity.sourcePassportId)
      (.app 403 "INTER_AGENT_GRANT_PARENT_INVALID" "Parent target must be the child source.")
    let path := parent.terms.passportPath ++ [idOf identity.targetPassportId]
    throwWhen ((distinct path).length ≠ path.length)
      (.app 409 "INTER_AGENT_DELEGATION_CYCLE" "Delegation passport cycle was rejected.")
    return ⟨depth, some parentId, path⟩

/-- The key of `unique_run_inter_agent_grant`, for the grants of a run. -/
def Terms.runKey (terms : Terms) : Option (ObjectId × Option ObjectId × Option ObjectId × ObjectId) :=
  terms.orchestrationRunId.map fun run =>
    (run, terms.sourceNodeRunId, terms.targetNodeRunId, terms.contractId)

def castReference : Option Text → Created (Option ObjectId)
  | none => .ok none
  | some text => some <$> orThrow .cast (castObjectId text)

def findContract (directory : Directory Entry) (input : GrantInput) (scope : Scope) (now : Int) :
    Option Contract :=
  directory.contracts.find? fun contract =>
    castObjectId input.contractId = some contract.id ∧
      contract.organizationId = scope.organizationId ∧ contract.workspaceId = scope.workspaceId ∧
      contract.version = input.contractVersion ∧ contract.status = .active ∧
      contract.validFrom ≤ now ∧ now < contract.expiresAt

def findNode (directory : Directory Entry) (id : Option Text) : Option NodeRun :=
  id.bind directory.nodeRun

def grantTerms (input : GrantInput) (identity : Identity) (contract : Contract) (scope : Scope)
    (now : Int) (standing : Standing) (invocationLimit : ℕ) : Created Terms := do
  let oneHour : Int := 60 * 60 * 1000
  return {
    organizationId := scope.organizationId
    workspaceId := scope.workspaceId
    orchestrationRunId := ← castReference identity.orchestrationRunId
    sourceNodeRunId := ← castReference identity.sourceNodeRunId
    targetNodeRunId := ← castReference identity.targetNodeRunId
    contractId := contract.id
    contractVersion := contract.version
    sourcePassportId := ← orThrow .cast (castObjectId identity.sourcePassportId)
    sourceConnectionId := ← orThrow .cast (castObjectId identity.sourceConnectionId)
    targetPassportId := ← orThrow .cast (castObjectId identity.targetPassportId)
    targetConnectionId := ← orThrow .cast (castObjectId identity.targetConnectionId)
    sourceCapability := contract.sourceCapability
    sourceOperation := contract.sourceOperation
    targetCapability := contract.targetCapability
    targetOperation := contract.targetOperation
    purposeCode := contract.purposeCode
    invocationLimit
    validFrom := max now contract.validFrom
    expiresAt := min contract.expiresAt (input.expiresAt.getD (now + oneHour))
    delegationDepth := standing.depth
    maximumDelegationDepth := contract.maximumDelegationDepth
    allowFurtherDelegation := contract.allowFurtherDelegation
    parentDelegationGrantId := standing.parent
    passportPath := standing.passportPath }

def Grant.created (terms : Terms) (approvalRequestId : Option Text) : Grant where
  terms
  state := { status := if approvalRequestId.isSome then .pending else .active, approvalRequestId }

def preparedGrant (directory : Directory Entry) (grants : Grants) (input : GrantInput)
    (scope : Scope) (now : Int) : Created Grant := do
  let contract ← orThrow (.app 409 "DATA_CONTRACT_INACTIVE"
    "An active immutable contract version is required.") (findContract directory input scope now)
  let sourceNode := findNode directory input.sourceNodeRunId
  let targetNode := findNode directory input.targetNodeRunId
  let identity := grantIdentity input sourceNode targetNode
  let actors ← loadGrantActors directory identity
  throwWhen (!directory.matchesSource contract actors.sourceCatalog)
    (.app 403 "DATA_CONTRACT_SELECTOR_INVALID"
      "Frozen source agent does not match the contract selector.")
  throwWhen (!directory.matchesTarget contract actors.targetCatalog)
    (.app 403 "DATA_CONTRACT_SELECTOR_INVALID"
      "Frozen target agent does not match the contract selector.")
  throwWhen (sourceNode.any fun node =>
      node.capability ≠ contract.sourceCapability ∨ node.operation ≠ contract.sourceOperation)
    (.app 409 "INTER_AGENT_CAPABILITY_MISMATCH"
      "Source node capability does not match the contract.")
  throwWhen (targetNode.any fun node =>
      node.capability ≠ contract.targetCapability ∨ node.operation ≠ contract.targetOperation)
    (.app 409 "INTER_AGENT_CAPABILITY_MISMATCH"
      "Target node capability does not match the contract.")
  let standing ← validateParentGrant grants input contract identity scope
  let invocationLimit ← orThrow (.app 400 "INTER_AGENT_INVOCATION_LIMIT_INVALID"
    "Invocation limit is invalid.") ((input.invocationLimit.orElse 1).filter fun limit =>
      1 ≤ limit ∧ limit ≤ (maximumInvocationLimit : Int))
  let terms ← grantTerms input identity contract scope now standing invocationLimit.toNat
  return Grant.created terms (directory.approval contract terms)

/-- The grant that is created under a new identifier, and the grants with it. A grant of a run that
is there already is returned in its place. -/
def createGrantRecord (directory : Directory Entry) (grants : Grants) (id : ObjectId)
    (input : GrantInput) (scope : Scope) (now : Int) : Created (Grant × Grants) := do
  let grant ← preparedGrant directory grants input scope now
  if grants.has id then throw .duplicateKey
  else
    match grants.entries.find? fun entry =>
        grant.terms.runKey.isSome ∧ entry.2.terms.runKey = grant.terms.runKey with
    | none => return (grant, grants.set id grant)
    | some entry => return (entry.2, grants)

end GhostBridge.Delegation
