import GhostBridge.Ecma.OrderedMap
import GhostBridge.Ecma.Value
import GhostBridge.Machine.Runs
import GhostBridge.ProtocolCore.SecretFields
import GhostBridge.Trust.Host

/-!
# Issuer review

The review state of each known issuer, moved by four operations.
-/

namespace GhostBridge.Trust

open Ecma Machine

structure Url where
  href : Text
  origin : Text
  protocol : Text
  username : Text
  password : Text
  hostname : Text
  pathname : Text
  search : Text
  hash : Text

/-- The functions that the workflow takes from the runtime and from the transport. -/
structure ReviewRuntime where
  /-- `new URL(text)`; none when it throws. -/
  parseUrl : Text → Option Url
  toLowerCase : Text → Text
  /-- `net.isIP(text)`. -/
  isIP : Text → Nat
  isPublicAddress : Text → Bool
  /-- `Date.parse(text)`; none is `NaN`. -/
  dateParse : Text → Option Int
  /-- `new Date(value).toISOString()`; none when it throws. -/
  isoDate : Value → Option Text
  /-- `new Date(time).toISOString()`; none when it throws. -/
  isoTime : Int → Option Text

structure IssuerOptions where
  localTestMode : Bool := false
  allowedLocalIssuers : List Text := []

/-- `hostname.replace(/^\[|\]$/g, '')`. -/
def stripBrackets (hostname : Text) : Text :=
  let opened := if hostname.head? = some 0x5b then hostname.tail else hostname
  if opened.getLast? = some 0x5d then opened.dropLast else opened

variable (runtime : ReviewRuntime)

def isLocalHostname (hostname : Text) : Bool :=
  let host := runtime.toLowerCase (stripBrackets hostname)
  host == ascii "localhost" || host == ascii "::1" || (ascii "127.").isPrefixOf host

def isPrivateIp (hostname : Text) : Bool :=
  let host := stripBrackets hostname
  runtime.isIP host != 0 && !runtime.isPublicAddress host

def normalizeIssuerId (value : Value) (options : IssuerOptions) : Checked Text := do
  let url ← orThrow
    (trustError .issuerInvalid "The issuer identifier is not a valid absolute URI.")
    ((value.orElse (.string [])).toText? >>= runtime.parseUrl)
  throwWhen (!url.username.isEmpty || !url.password.isEmpty)
    (trustError .issuerInvalid "Issuer identifiers must not contain user information.")
  throwWhen (!url.hash.isEmpty)
    (trustError .issuerInvalid "Issuer identifiers must not contain fragments.")
  throwWhen (!url.search.isEmpty)
    (trustError .issuerInvalid "Issuer identifiers must not contain a query.")
  throwWhen (url.pathname != ascii "/" && !url.pathname.isEmpty)
    (trustError .issuerInvalid "Issuer identifiers must identify an HTTPS origin.")
  let isLocal := isLocalHostname runtime url.hostname
  throwWhen (url.protocol != ascii "https:" &&
      !(options.localTestMode && url.protocol == ascii "http:" && isLocal))
    (trustError .issuerInvalid "Remote issuer identifiers must use HTTPS.")
  throwWhen (isLocal && !options.localTestMode)
    (trustError .unsafeDiscoveryTarget
      "Local issuer destinations require explicit local test mode.")
  throwWhen (!isLocal && isPrivateIp runtime url.hostname)
    (trustError .unsafeDiscoveryTarget "Private-network issuer destinations are rejected.")
  stepWhen (options.localTestMode && isLocal) do
    let allowed ← options.allowedLocalIssuers.mapM fun item =>
      orThrow .runtimeError (runtime.parseUrl item)
    throwWhen (!(allowed.map fun url => runtime.toLowerCase url.origin).contains
        (runtime.toLowerCase url.origin))
      (trustError .unsafeDiscoveryTarget "The local issuer is not explicitly allowlisted.")
  pure (runtime.toLowerCase url.origin)

/-- `ISSUER_REVIEW_STATES`. -/
inductive IssuerReviewState where
  | discovered
  | pendingReview
  | approved
  | approvedWithLimits
  | suspended
  | blocked
  | expiredReview
  | revoked
deriving DecidableEq

namespace IssuerReviewState

def name : IssuerReviewState → Text
  | discovered => ascii "discovered"
  | pendingReview => ascii "pending_review"
  | approved => ascii "approved"
  | approvedWithLimits => ascii "approved_with_limits"
  | suspended => ascii "suspended"
  | blocked => ascii "blocked"
  | expiredReview => ascii "expired_review"
  | revoked => ascii "revoked"

/-- `ISSUER_REVIEW_TRANSITIONS`. -/
def transitions : IssuerReviewState → List IssuerReviewState
  | discovered => [pendingReview, blocked]
  | pendingReview => [approved, approvedWithLimits, suspended, blocked]
  | approved => [pendingReview, suspended, blocked, expiredReview, revoked]
  | approvedWithLimits => [pendingReview, approved, suspended, blocked, expiredReview, revoked]
  | suspended => [pendingReview, blocked, revoked]
  | blocked => [pendingReview, revoked]
  | expiredReview => [pendingReview, blocked, revoked]
  | revoked => []

def event : IssuerReviewState → Value
  | pendingReview => .string (ascii "trust.issuer.review_requested")
  | approved => .string (ascii "trust.issuer.approved")
  | approvedWithLimits => .string (ascii "trust.issuer.approved")
  | blocked => .string (ascii "trust.issuer.blocked")
  | suspended => .string (ascii "trust.issuer.suspended")
  | expiredReview => .string (ascii "trust.issuer.review_expired")
  | revoked => .string (ascii "trust.issuer.revoked")
  | discovered => .undefined

end IssuerReviewState

def supportedDecisions : List IssuerReviewState :=
  [.approved, .approvedWithLimits, .suspended, .blocked, .revoked]

/-- `String(value).slice(0, maximum)`. -/
def boundedText (value : Value) (maximum : Nat) : Checked Text := do
  let text ← orThrow .runtimeError value.toText?
  pure (text.take maximum)

def boundedStringArray (value : Value) (maximumEntries maximumLength : Nat) : Checked Value :=
  match value with
  | .undefined => pure (.array [])
  | .array items => do
    throwWhen (maximumEntries < items.length)
      (trustError .trustPolicyDenied "Issuer review evidence exceeds its allowed bounds.")
    throwWhen (!items.all fun item =>
        match item with
        | .string s => !s.isEmpty && s.length ≤ maximumLength
        | _ => false)
      (trustError .trustPolicyDenied "Issuer review evidence contains an invalid value.")
    pure (.array items)
  | _ => throw (trustError .trustPolicyDenied "Issuer review evidence exceeds its allowed bounds.")

def boundedOptionalUrl (value : Value) (issuerId : Text) : Checked Value :=
  match value with
  | .undefined => pure .undefined
  | value => do
    let parsed ← orThrow .runtimeError (value.toText? >>= runtime.parseUrl)
    stepWhen (parsed.protocol != ascii "https:") do
      let issuer ← orThrow .runtimeError (runtime.parseUrl issuerId)
      throwWhen (issuer.protocol == ascii "https:")
        (trustError .trustPolicyDenied "Public issuer evidence URLs must use HTTPS.")
    throwWhen (!parsed.username.isEmpty || !parsed.password.isEmpty || !parsed.hash.isEmpty)
      (trustError .trustPolicyDenied "Public issuer evidence URL is unsafe.")
    pure (.string parsed.href)

/-- `redactPublicData(value)`, whose errors are not trust errors. -/
def redactedData (value : Value) : Checked Value :=
  match ProtocolCore.redactPublicData value with
  | .ok redacted => .ok redacted
  | .error _ => .error .runtimeError

/-- `value ? redactPublicData(value) : undefined`. -/
def redactedWhenPresent (value : Value) : Checked Value :=
  if value.isTruthy then redactedData value else pure .undefined

/-- `REVOCATION_FRESHNESS`. -/
def revocationFreshnessNames : List Text :=
  [ascii "fresh", ascii "nearing_expiry", ascii "stale", ascii "unavailable", ascii "invalid",
    ascii "rollback_detected"]

def issuerReviewEvidence (input : Value) (issuerId : Text) : Checked Value := do
  let source := (input.field (ascii "evidence")).orElse input
  let name (field : String) : Value := source.field (ascii field)
  let displayName ← boundedText ((name "displayName").orElse (.string issuerId)) 200
  let rootKeyThumbprints ← boundedStringArray (name "rootKeyThumbprints") 16 100
  let operationalKeyCount :=
    boundedInteger (name "operationalKeyCount").integer? 0 DefaultTrustLimits.maximumKeys 0
  let supportedAlgorithms ← boundedStringArray (name "supportedAlgorithms") 8 32
  let metadataValidity ←
    boundedText ((name "metadataValidity").orElse (.string (ascii "not_evaluated"))) 40
  let trustProfile ← boundedText (((name "trustProfile").orElse (name "trustProfileVersion")).orElse
    (.string (ascii "ghostbridge-trust/0.1-draft"))) 100
  let publicSecurityPolicy ← boundedOptionalUrl runtime (name "publicSecurityPolicy") issuerId
  let publicPrivacyPolicy ← boundedOptionalUrl runtime (name "publicPrivacyPolicy") issuerId
  let publicDocumentation ← boundedOptionalUrl runtime (name "publicDocumentation") issuerId
  let registryEvidence ← redactedWhenPresent (name "registryEvidence")
  let conformanceEvidence ← redactedWhenPresent (name "conformanceEvidence")
  let knownWarnings ← boundedStringArray (name "knownWarnings") 32 100
  let freshness := name "revocationFreshness"
  let evidence : List (Text × Value) :=
    [(ascii "issuerId", .string issuerId), (ascii "displayName", .string displayName),
      (ascii "httpsOrigin", .string issuerId), (ascii "rootKeyThumbprints", rootKeyThumbprints),
      (ascii "operationalKeyCount", .number (.ofNat operationalKeyCount.toNat)),
      (ascii "supportedAlgorithms", supportedAlgorithms),
      (ascii "metadataValidity", .string metadataValidity),
      (ascii "trustProfile", .string trustProfile),
      (ascii "publicSecurityPolicy", publicSecurityPolicy),
      (ascii "publicPrivacyPolicy", publicPrivacyPolicy),
      (ascii "publicDocumentation", publicDocumentation),
      (ascii "registryEvidence", registryEvidence),
      (ascii "conformanceEvidence", conformanceEvidence), (ascii "knownWarnings", knownWarnings),
      (ascii "revocationFreshness",
        if revocationFreshnessNames.any fun name => freshness.strictEq (.string name) then freshness
        else .string (ascii "unavailable"))]
  pure (.object (evidence.filter fun m => !m.2.isUndefined))

def policyDenied (message : String) : Failure := trustError .trustPolicyDenied message

def memberWhen (name : String) (value : Option Text) : List (Text × Value) :=
  value.toList.map fun text => (ascii name, .string text)

def normalizeIssuerApprovalScope (scope : Value) (now : Int) : Checked Value := do
  let _ ← validatePlainTrustData scope {} true
  let kind := scope.field (ascii "scope")
  throwWhen (!(kind.strictEq (.string (ascii "organization")) ||
      kind.strictEq (.string (ascii "workspace"))))
    (policyDenied "Issuer approval scope must be organization or workspace.")
  let workspaceId := scope.field (ascii "workspaceId")
  throwWhen (kind.strictEq (.string (ascii "workspace")) && !workspaceId.isTruthy)
    (policyDenied "Workspace issuer approval requires a workspace identifier.")
  let expiresAt := scope.field (ascii "expiresAt")
  stepWhen expiresAt.isTruthy do
    let text ← orThrow .runtimeError expiresAt.toText?
    throwWhen ((runtime.dateParse text).any (· ≤ now))
      (policyDenied "Issuer approval expiration must be in the future.")
  let riskCeiling := (scope.field (ascii "riskCeiling")).orElse (.string (ascii "low"))
  throwWhen (!([ascii "low", ascii "moderate", ascii "high", ascii "critical"].any fun name =>
      riskCeiling.strictEq (.string name)))
    (policyDenied "Issuer approval risk ceiling is invalid.")
  let workspace ← (if workspaceId.isTruthy then some <$> boundedText workspaceId 200 else pure none)
  let selectedAgentIds ← boundedStringArray (scope.field (ascii "selectedAgentIds")) 256 200
  let selectedCapabilityKeys ←
    boundedStringArray (scope.field (ascii "selectedCapabilityKeys")) 256 200
  let expiry ← (if expiresAt.isTruthy then
      some <$> orThrow .runtimeError (runtime.isoDate expiresAt)
    else pure none)
  pure (.object ([(ascii "scope", kind)] ++ memberWhen "workspaceId" workspace ++
    [(ascii "selectedAgentIds", selectedAgentIds),
      (ascii "selectedCapabilityKeys", selectedCapabilityKeys), (ascii "riskCeiling", riskCeiling)] ++
    memberWhen "expiresAt" expiry))

structure IssuerReviewRecord where
  issuerId : Text
  state : IssuerReviewState
  evidence : Value
  approvedScope : Value
  discoveredAt : Text
  updatedAt : Text
  reviewedAt : Option Text
  reviewedBy : Value
  reasonCode : Option Text
deriving DecidableEq

/-- The records of a workflow, and the issuer options it was made with. -/
structure IssuerReviewWorkflow where
  records : OrderedMap Text IssuerReviewRecord
  issuerOptions : IssuerOptions

/-- What one operation takes from outside: the times that the clock shows at its first and at its
second reading, and the audit sink. -/
structure ReviewContext where
  now : Int
  scopeNow : Int
  audit : Value → Value → Checked Unit

namespace IssuerReviewWorkflow

/-- `new IssuerReviewWorkflow(options)`. -/
def create (issuerOptions : IssuerOptions) : IssuerReviewWorkflow := ⟨.empty, issuerOptions⟩

def record? (workflow : IssuerReviewWorkflow) (issuerId : Text) : Option IssuerReviewRecord :=
  workflow.records.get? issuerId

def store (workflow : IssuerReviewWorkflow) (record : IssuerReviewRecord) : IssuerReviewWorkflow :=
  { workflow with records := workflow.records.set record.issuerId record }

def optionalText : Option Text → Value
  | some text => .string text
  | none => .undefined

def emit (context : ReviewContext) (event : Value) (record : IssuerReviewRecord) : Checked Unit := do
  let fields ← redactedData (.object [(ascii "issuerId", .string record.issuerId),
    (ascii "state", .string record.state.name), (ascii "reviewedBy", record.reviewedBy),
    (ascii "reasonCode", optionalText record.reasonCode),
    (ascii "updatedAt", .string record.updatedAt)])
  context.audit event fields

def commit (workflow : IssuerReviewWorkflow) (context : ReviewContext) (event : Value)
    (record : IssuerReviewRecord) : Checked IssuerReviewRecord × IssuerReviewWorkflow :=
  (emit context event record *> pure record, workflow.store record)

/-- The record that `discover` stores. -/
def discovered (workflow : IssuerReviewWorkflow) (context : ReviewContext) (input : Value) :
    Checked IssuerReviewRecord := do
  let _ ← validatePlainTrustData input {} true
  let issuer ← orThrow .runtimeError (input.get (ascii "issuerId"))
  let issuerId ← normalizeIssuerId runtime issuer workflow.issuerOptions
  let now ← orThrow .runtimeError (runtime.isoTime context.now)
  let evidence ← issuerReviewEvidence runtime input issuerId
  pure (match workflow.record? issuerId with
    | some existing =>
      { existing with issuerId := issuerId, evidence := evidence, updatedAt := now }
    | none =>
      { issuerId := issuerId, state := .discovered, evidence := evidence
        approvedScope := .undefined, discoveredAt := now, updatedAt := now, reviewedAt := none
        reviewedBy := .undefined, reasonCode := none })

def discover (workflow : IssuerReviewWorkflow) (context : ReviewContext) (input : Value) :
    Checked IssuerReviewRecord × IssuerReviewWorkflow :=
  match workflow.discovered runtime context input with
  | .error failure => (.error failure, workflow)
  | .ok record =>
    workflow.commit context
      (.string (if (workflow.record? record.issuerId).isSome then
        ascii "trust.issuer.metadata_verified" else ascii "trust.issuer.discovered")) record

/-- `{ scope: 'organization' }`. -/
def organizationScope : Value := .object [(ascii "scope", .string (ascii "organization"))]

def givenScope (next : IssuerReviewState) (input : Value) (scopeNow : Int) :
    Checked (Option Value) := do
  let approvedScope := input.field (ascii "approvedScope")
  if approvedScope.isTruthy then
    some <$> normalizeIssuerApprovalScope runtime approvedScope scopeNow
  else if next = .approved then pure (some organizationScope)
  else pure none

/-- `reviewedBy.slice(0, 200)`, which texts and arrays have. -/
def sliceReviewer : Value → Checked Value
  | .string s => pure (.string (s.take 200))
  | .array items => pure (.array (items.take 200))
  | _ => throw .runtimeError

/-- The record that `#transition` stores. -/
def transitioned (workflow : IssuerReviewWorkflow) (context : ReviewContext) (issuer : Value)
    (next : IssuerReviewState) (input : Value) : Checked IssuerReviewRecord := do
  let _ ← validatePlainTrustData input {} true
  let issuerId ← normalizeIssuerId runtime issuer workflow.issuerOptions
  let current ← orThrow (trustError .issuerNotTrusted
    "The issuer has not been discovered for administrator review.") (workflow.record? issuerId)
  throwWhen (!current.state.transitions.contains next)
    (policyDenied "The issuer review state transition is not allowed.")
  let now ← orThrow .runtimeError (runtime.isoTime context.now)
  let _ ← orThrow .runtimeError (input.get (ascii "approvedScope"))
  let scope ← givenScope runtime next input context.scopeNow
  let reviewedBy := input.field (ascii "reviewedBy")
  let reviewer ← (if reviewedBy.isTruthy then sliceReviewer reviewedBy else pure current.reviewedBy)
  let reasonCode := input.field (ascii "reasonCode")
  let reason ← (if reasonCode.isTruthy then some <$> boundedText reasonCode 100
    else pure current.reasonCode)
  pure
    { current with
      issuerId := issuerId, state := next, approvedScope := scope.getD current.approvedScope
      reviewedBy := reviewer, reasonCode := reason
      reviewedAt := if reviewedBy.isTruthy then some now else current.reviewedAt
      updatedAt := now }

def transition (workflow : IssuerReviewWorkflow) (context : ReviewContext) (issuer : Value)
    (next : IssuerReviewState) (input : Value) :
    Checked IssuerReviewRecord × IssuerReviewWorkflow :=
  match workflow.transitioned runtime context issuer next input with
  | .error failure => (.error failure, workflow)
  | .ok record => workflow.commit context next.event record

/-- What `decide` checks before the transition. -/
def checkDecision (decision : IssuerReviewState) (input : Value) : Checked Unit := do
  throwWhen (!supportedDecisions.contains decision)
    (policyDenied "The issuer review decision is not supported.")
  let reviewedBy ← orThrow .runtimeError (input.get (ascii "reviewedBy"))
  throwWhen (match reviewedBy with
      | .string s => s.isBlank
      | _ => true)
    (policyDenied "An administrator identity is required for an issuer review decision.")
  throwWhen (decision == .approvedWithLimits && !(input.field (ascii "approvedScope")).isTruthy)
    (policyDenied "A limited issuer approval requires an explicit approved scope.")

/-- `context = {}`. -/
def contextInput : Value → Value
  | .undefined => .object []
  | input => input

inductive Operation where
  | discover (input : Value)
  | requestReview (issuer input : Value)
  | decide (issuer : Value) (decision : IssuerReviewState) (input : Value)
  | expire (issuer input : Value)

def run (workflow : IssuerReviewWorkflow) (context : ReviewContext) :
    Operation → Checked IssuerReviewRecord × IssuerReviewWorkflow
  | .discover input => workflow.discover runtime context input
  | .requestReview issuer input =>
    workflow.transition runtime context issuer .pendingReview (contextInput input)
  | .decide issuer decision input =>
    match checkDecision decision (contextInput input) with
    | .error failure => (.error failure, workflow)
    | .ok () => workflow.transition runtime context issuer decision (contextInput input)
  | .expire issuer input =>
    workflow.transition runtime context issuer .expiredReview (contextInput input)

def step (workflow : IssuerReviewWorkflow) (call : ReviewContext × Operation) :
    IssuerReviewWorkflow := (workflow.run runtime call.1 call.2).2

variable {runtime} {workflow : IssuerReviewWorkflow} {context : ReviewContext}

def Operation.move? : Operation → Option (Value × IssuerReviewState × Value)
  | .discover _ => none
  | .requestReview issuer input => some (issuer, .pendingReview, contextInput input)
  | .decide issuer decision input => some (issuer, decision, contextInput input)
  | .expire issuer input => some (issuer, .expiredReview, contextInput input)

def Operation.check : Operation → Checked Unit
  | .decide _ decision input => checkDecision decision (contextInput input)
  | _ => pure ()

/-- A record that `discover` stores keeps what is known of the issuer. -/
structure Rediscovered (workflow : IssuerReviewWorkflow) (record : IssuerReviewRecord) : Prop where
  known : ∀ existing, workflow.record? record.issuerId = some existing →
    record.state = existing.state ∧ record.approvedScope = existing.approvedScope ∧
      record.reviewedBy = existing.reviewedBy
  unknown : workflow.record? record.issuerId = none → record.state = .discovered

structure Transitioned (runtime : ReviewRuntime) (workflow : IssuerReviewWorkflow)
    (context : ReviewContext) (issuer : Value) (next : IssuerReviewState) (input : Value)
    (record : IssuerReviewRecord) : Prop where
  normalized : normalizeIssuerId runtime issuer workflow.issuerOptions = .ok record.issuerId
  state : record.state = next
  allowed : ∃ current scope, workflow.record? record.issuerId = some current ∧
    next ∈ current.state.transitions ∧
    givenScope runtime next input context.scopeNow = .ok scope ∧
    record.approvedScope = scope.getD current.approvedScope
  reviewer : (input.field (ascii "reviewedBy")).isTruthy →
    sliceReviewer (input.field (ascii "reviewedBy")) = .ok record.reviewedBy

theorem rediscovered_of_ok {input : Value} {record : IssuerReviewRecord}
    (h : workflow.discovered runtime context input = .ok record) : Rediscovered workflow record := by
  simp only [discovered, bind_ok, pure_ok] at h
  obtain ⟨_, _, _, _, issuerId, _, now, _, evidence, _, rfl⟩ := h
  split
  · next existing hexisting =>
    refine ⟨fun other hother => ?_, fun hnone => ?_⟩
    · obtain rfl := Option.some.inj (hexisting.symm.trans hother)
      exact ⟨rfl, rfl, rfl⟩
    · cases hexisting.symm.trans hnone
  · next hnone =>
    refine ⟨fun other hother => ?_, fun _ => rfl⟩
    cases hnone.symm.trans hother

theorem transitioned_of_ok {issuer input : Value} {next : IssuerReviewState}
    {record : IssuerReviewRecord}
    (h : workflow.transitioned runtime context issuer next input = .ok record) :
    Transitioned runtime workflow context issuer next input record := by
  simp only [transitioned, bind_ok, orThrow_ok, throwWhen_ok, exists_unit, pure_ok,
    Bool.not_eq_false', List.contains_iff_mem] at h
  obtain ⟨_, _, issuerId, hissuer, current, hcurrent, hnext, now, _, _, _, scope, hscope, reviewer,
    hreviewer, _, _, rfl⟩ := h
  refine ⟨hissuer, rfl, ⟨current, scope, hcurrent, hnext, hscope, rfl⟩, fun hpresent => ?_⟩
  rwa [if_pos hpresent] at hreviewer

theorem run_cases (runtime : ReviewRuntime) (workflow : IssuerReviewWorkflow)
    (context : ReviewContext) (operation : Operation) :
    (∃ failure, workflow.run runtime context operation = (.error failure, workflow)) ∨
    ∃ event record, workflow.run runtime context operation = workflow.commit context event record ∧
      ((operation.move? = none ∧ Rediscovered workflow record) ∨
        ∃ issuer next input, operation.move? = some (issuer, next, input) ∧
          operation.check = .ok () ∧
          Transitioned runtime workflow context issuer next input record) := by
  have htransition (issuer : Value) (next : IssuerReviewState) (input : Value)
      (hmove : operation.move? = some (issuer, next, input)) (hcheck : operation.check = .ok ()) :
      (∃ failure, workflow.transition runtime context issuer next input =
        (.error failure, workflow)) ∨
      ∃ event record, workflow.transition runtime context issuer next input =
          workflow.commit context event record ∧
        ((operation.move? = none ∧ Rediscovered workflow record) ∨
          ∃ issuer next input, operation.move? = some (issuer, next, input) ∧
            operation.check = .ok () ∧
            Transitioned runtime workflow context issuer next input record) := by
    unfold transition
    cases hok : workflow.transitioned runtime context issuer next input with
    | error failure => exact .inl ⟨failure, rfl⟩
    | ok record =>
      exact .inr ⟨next.event, record, rfl,
        .inr ⟨issuer, next, input, hmove, hcheck, transitioned_of_ok hok⟩⟩
  cases operation with
  | discover input =>
    cases hok : workflow.discovered runtime context input with
    | error failure => exact .inl ⟨failure, by rw [run, discover, hok]⟩
    | ok record =>
      exact .inr ⟨.string _, record, by rw [run, discover, hok], .inl ⟨rfl, rediscovered_of_ok hok⟩⟩
  | requestReview issuer input => exact htransition _ _ _ rfl rfl
  | expire issuer input => exact htransition _ _ _ rfl rfl
  | decide issuer decision input =>
    cases hcheck : checkDecision decision (contextInput input) with
    | error failure => exact .inl ⟨failure, by simp only [run, hcheck]⟩
    | ok _ =>
      simp only [run, hcheck]
      exact htransition _ _ _ rfl hcheck

theorem record?_store_self (workflow : IssuerReviewWorkflow) (record : IssuerReviewRecord) :
    (workflow.store record).record? record.issuerId = some record :=
  OrderedMap.get?_set_self _ _ _

theorem record?_store_of_ne {issuerId : Text} {record : IssuerReviewRecord}
    (h : issuerId ≠ record.issuerId) :
    (workflow.store record).record? issuerId = workflow.record? issuerId :=
  OrderedMap.get?_set_of_ne _ h _

theorem run_error {operation : Operation} {failure : Failure}
    (h : (workflow.run runtime context operation).1 = .error failure) :
    (workflow.run runtime context operation).2 = workflow ∨
      ∃ event record, (workflow.run runtime context operation).2 = workflow.store record ∧
        emit context event record = .error failure := by
  rcases run_cases runtime workflow context operation with ⟨_, hrun⟩ | ⟨event, record, hrun, -⟩
  · exact .inl (by rw [hrun])
  · refine .inr ⟨event, record, by rw [hrun, commit], ?_⟩
    rw [hrun, commit] at h
    cases hemit : emit context event record with
    | error other =>
      rw [hemit] at h
      cases h
      rfl
    | ok _ =>
      rw [hemit] at h
      cases h

def state? (workflow : IssuerReviewWorkflow) (issuerId : Text) : Option IssuerReviewState :=
  (workflow.record? issuerId).map (·.state)

def grant? (workflow : IssuerReviewWorkflow) (issuerId : Text) : Option (Value × Value) :=
  (workflow.record? issuerId).map fun record => (record.approvedScope, record.reviewedBy)

theorem step_cases (runtime : ReviewRuntime) (workflow : IssuerReviewWorkflow)
    (call : ReviewContext × Operation) (issuerId : Text) :
    (workflow.step runtime call).record? issuerId = workflow.record? issuerId ∨
    ∃ record, record.issuerId = issuerId ∧
      (workflow.step runtime call).record? issuerId = some record ∧
      ((call.2.move? = none ∧ Rediscovered workflow record) ∨
        ∃ issuer next input, call.2.move? = some (issuer, next, input) ∧
          call.2.check = .ok () ∧
          Transitioned runtime workflow call.1 issuer next input record) := by
  rcases run_cases runtime workflow call.1 call.2 with ⟨_, hrun⟩ | ⟨event, record, hrun, hstored⟩
  · exact .inl (by rw [step, hrun])
  · have hstep : workflow.step runtime call = workflow.store record := by rw [step, hrun, commit]
    rw [hstep]
    by_cases hid : issuerId = record.issuerId
    · subst hid
      exact .inr ⟨record, rfl, record?_store_self workflow record, hstored⟩
    · exact .inl (record?_store_of_ne hid)

theorem state?_step (runtime : ReviewRuntime) (call : ReviewContext × Operation) {issuerId : Text}
    {state : IssuerReviewState} (hstate : workflow.state? issuerId = some state) :
    (workflow.step runtime call).state? issuerId = some state ∧
        (workflow.step runtime call).grant? issuerId = workflow.grant? issuerId ∨
      ∃ issuer next input, call.2.move? = some (issuer, next, input) ∧
        next ∈ state.transitions ∧ (workflow.step runtime call).state? issuerId = some next := by
  obtain ⟨existing, hexisting, rfl⟩ := Option.map_eq_some_iff.mp hstate
  rcases step_cases runtime workflow call issuerId with hsame | ⟨record, rfl, hrecord, hkind⟩
  · exact .inl ⟨by rw [state?, hsame, hexisting]; rfl, by rw [grant?, grant?, hsame]⟩
  · rcases hkind with ⟨-, hagain⟩ | ⟨issuer, next, input, hmove, -, hmoved⟩
    · obtain ⟨hsame, hscope, hreviewer⟩ := hagain.known existing hexisting
      refine .inl ⟨by rw [state?, hrecord, Option.map_some, hsame], ?_⟩
      rw [grant?, grant?, hrecord, hexisting, Option.map_some, Option.map_some, hscope, hreviewer]
    · obtain ⟨current, _, hcurrent, hallowed, -⟩ := hmoved.allowed
      obtain rfl := Option.some.inj (hexisting.symm.trans hcurrent)
      exact .inr ⟨issuer, next, input, hmove, hallowed, by
        rw [state?, hrecord, Option.map_some, hmoved.state]⟩

def IsApproved (state : IssuerReviewState) : Prop := state = .approved ∨ state = .approvedWithLimits

theorem not_mem_transitions_self {state : IssuerReviewState} : state ∉ state.transitions := by
  cases state <;> decide

theorem grant?_step {call : ReviewContext × Operation} {issuerId : Text} {state : IssuerReviewState}
    (hbefore : workflow.state? issuerId = some state)
    (hafter : (workflow.step runtime call).state? issuerId = some state) :
    (workflow.step runtime call).grant? issuerId = workflow.grant? issuerId := by
  rcases state?_step runtime call hbefore with h | ⟨_, next, _, _, hallowed, hnext⟩
  · exact h.2
  · obtain rfl := Option.some.inj (hafter.symm.trans hnext)
    exact absurd hallowed not_mem_transitions_self

/-- The decision that approved an issuer: it names an administrator and gives or implies the scope,
and the record carries both. -/
structure Decided (runtime : ReviewRuntime) (options : IssuerOptions) (context : ReviewContext)
    (issuer : Value) (state : IssuerReviewState) (input : Value) (issuerId : Text)
    (grant : Option (Value × Value)) : Prop where
  issuer : normalizeIssuerId runtime issuer options = .ok issuerId
  granted : ∃ reviewer scope, input.field (ascii "reviewedBy") = .string reviewer ∧
    reviewer.isBlank = false ∧ givenScope runtime state input context.scopeNow = .ok (some scope) ∧
    grant = some (scope, .string (reviewer.take 200))

theorem givenScope_some {state : IssuerReviewState} {input : Value} {scopeNow : Int}
    {scope : Option Value} (happroved : IsApproved state)
    (hgiven : (state == .approvedWithLimits && !(input.field (ascii "approvedScope")).isTruthy) = false)
    (hscope : givenScope runtime state input scopeNow = .ok scope) : ∃ granted, scope = some granted := by
  simp only [givenScope] at hscope
  by_cases hpresent : (input.field (ascii "approvedScope")).isTruthy = true
  · rw [if_pos hpresent, map_ok] at hscope
    obtain ⟨granted, -, rfl⟩ := hscope
    exact ⟨granted, rfl⟩
  · rw [if_neg hpresent] at hscope
    rcases happroved with rfl | rfl
    · rw [if_pos rfl, pure_ok] at hscope
      exact ⟨organizationScope, hscope.symm⟩
    · simp [hpresent] at hgiven

theorem decided_of_entry {call : ReviewContext × Operation} {issuerId : Text}
    {state : IssuerReviewState} (happroved : IsApproved state)
    (hbefore : workflow.state? issuerId ≠ some state)
    (hafter : (workflow.step runtime call).state? issuerId = some state) :
    ∃ issuer input, call.2 = .decide issuer state input ∧
      Decided runtime workflow.issuerOptions call.1 issuer state (contextInput input) issuerId
        ((workflow.step runtime call).grant? issuerId) := by
  rcases step_cases runtime workflow call issuerId with hsame | ⟨record, rfl, hrecord, hkind⟩
  · rw [state?, hsame] at hafter
    exact absurd hafter hbefore
  have hstate : record.state = state := by simpa [state?, hrecord] using hafter
  rcases hkind with ⟨-, hagain⟩ | ⟨issuer, next, input, hmove, hcheck, hmoved⟩
  · -- A discovery leads to no approval: it keeps the state of an issuer or starts at `discovered`.
    exfalso
    cases hknown : workflow.record? record.issuerId with
    | none =>
      rw [hagain.unknown hknown] at hstate
      subst hstate
      rcases happroved with h | h <;> cases h
    | some existing =>
      rw [(hagain.known existing hknown).1] at hstate
      exact hbefore (by rw [state?, hknown, Option.map_some, hstate])
  · obtain rfl : next = state := hmoved.state.symm.trans hstate
    cases hoperation : call.2 with
    | decide issuer' decision input' =>
      rw [hoperation] at hmove hcheck
      cases hmove
      simp only [Operation.check, checkDecision, bind_ok, throwWhen_ok, orThrow_ok, exists_unit] at hcheck
      obtain ⟨-, reviewedBy, hget, hblank, hgiven⟩ := hcheck
      have hfield := Value.field_eq_of_get hget
      cases reviewedBy with
      | string reviewer =>
        have hpresent : ((contextInput input').field (ascii "reviewedBy")).isTruthy := by
          rw [hfield]
          cases reviewer with
          | nil => cases hblank
          | cons _ _ => rfl
        have hreviewer := hmoved.reviewer hpresent
        rw [hfield, sliceReviewer, pure_ok] at hreviewer
        obtain ⟨current, scope, -, -, hscope, hrecorded⟩ := hmoved.allowed
        obtain ⟨granted, rfl⟩ := givenScope_some happroved hgiven hscope
        refine ⟨issuer, input', rfl, hmoved.normalized, reviewer, granted, hfield, hblank, hscope, ?_⟩
        rw [grant?, hrecord, Option.map_some, hrecorded, ← hreviewer, Option.getD_some]
      | _ => cases hblank
    | discover _ => rw [hoperation] at hmove; cases hmove
    | requestReview _ _ =>
      rw [hoperation] at hmove
      cases hmove
      rcases happroved with h | h <;> cases h
    | expire _ _ =>
      rw [hoperation] at hmove
      cases hmove
      rcases happroved with h | h <;> cases h

theorem issuerOptions_step (workflow : IssuerReviewWorkflow) (call : ReviewContext × Operation) :
    (workflow.step runtime call).issuerOptions = workflow.issuerOptions := by
  rcases run_cases runtime workflow call.1 call.2 with ⟨_, hrun⟩ | ⟨event, record, hrun, -⟩
  · rw [step, hrun]
  · rw [step, hrun]
    rfl

theorem issuerOptions_after (workflow : IssuerReviewWorkflow)
    (calls : List (ReviewContext × Operation)) :
    (after (step runtime) workflow calls).issuerOptions = workflow.issuerOptions :=
  after_induction (I := fun w => w.issuerOptions = workflow.issuerOptions) rfl
    fun w call hw _ => (issuerOptions_step w call).trans hw

theorem revoked_after {issuerId : Text} (hrevoked : workflow.state? issuerId = some .revoked)
    (calls : List (ReviewContext × Operation)) :
    (after (step runtime) workflow calls).state? issuerId = some .revoked := by
  refine after_induction (I := fun w : IssuerReviewWorkflow => w.state? issuerId = some .revoked)
    hrevoked ?_
  intro w call hw _
  rcases state?_step runtime call hw with h | ⟨_, next, _, _, hallowed, _⟩
  · exact h.1
  · cases hallowed

theorem discover_keeps (workflow : IssuerReviewWorkflow) (context : ReviewContext) (input : Value)
    {issuerId : Text} {state : IssuerReviewState} (hstate : workflow.state? issuerId = some state) :
    (workflow.step runtime (context, .discover input)).state? issuerId = some state ∧
      (workflow.step runtime (context, .discover input)).grant? issuerId =
        workflow.grant? issuerId := by
  rcases state?_step runtime (context, .discover input) hstate with h | ⟨_, _, _, hmove, _⟩
  · exact h
  · cases hmove

theorem approved_after {options : IssuerOptions} {calls : List (ReviewContext × Operation)}
    {issuerId : Text} {state : IssuerReviewState} (happroved : IsApproved state)
    (hstate : (after (step runtime) (create options) calls).state? issuerId = some state) :
    ∃ before context issuer input rest,
      calls = before ++ (context, .decide issuer state input) :: rest ∧
      (after (step runtime) (create options) before).state? issuerId ≠ some state ∧
      (∀ more, more <+: rest → (after (step runtime) (create options)
        (before ++ (context, .decide issuer state input) :: more)).state? issuerId = some state) ∧
      Decided runtime options context issuer state (contextInput input) issuerId
        ((after (step runtime) (create options) calls).grant? issuerId) := by
  obtain ⟨before, call, rest, rfl, hbefore, hsince⟩ :=
    exists_last_entry (P := fun w : IssuerReviewWorkflow => w.state? issuerId = some state)
      (by simp [state?, create, record?, OrderedMap.empty, OrderedMap.get?]) hstate
  have hentry := hsince [] List.nil_prefix
  rw [after_append, after_cons, after_nil] at hentry
  obtain ⟨issuer, input, hcall, hdecided⟩ := decided_of_entry happroved hbefore hentry
  obtain ⟨context, operation⟩ := call
  obtain rfl : operation = .decide issuer state input := hcall
  rw [issuerOptions_after] at hdecided
  refine ⟨before, context, issuer, input, rest, rfl, hbefore, hsince, ?_⟩
  have hkept : (after (step runtime) (step runtime (after (step runtime) (create options) before)
      (context, .decide issuer state input)) rest).grant? issuerId =
      (step runtime (after (step runtime) (create options) before)
        (context, .decide issuer state input)).grant? issuerId := by
    refine eq_of_kept (P := fun w : IssuerReviewWorkflow => w.state? issuerId = some state)
      (f := fun w : IssuerReviewWorkflow => w.grant? issuerId) (fun more hmore => ?_)
      fun w call hw hnext => grant?_step hw hnext
    have h := hsince more hmore
    rwa [after_append, after_cons] at h
  rwa [after_append, after_cons, hkept]

private def exampleIssuer : Text := ascii "https://issuer.example"

private def exampleUrl : Url :=
  { href := ascii "https://issuer.example/", origin := exampleIssuer, protocol := ascii "https:"
    username := [], password := [], hostname := ascii "issuer.example", pathname := ascii "/"
    search := [], hash := [] }

private def epoch : Text := ascii "1970-01-01T00:00:00.000Z"

private def exampleRuntime : ReviewRuntime :=
  { parseUrl := fun text => if text = exampleIssuer then some exampleUrl else none
    toLowerCase := List.map Regex.lowerAscii
    isIP := fun _ => 0
    isPublicAddress := fun _ => false
    dateParse := fun _ => none
    isoDate := fun _ => none
    isoTime := fun _ => some epoch }

private def silent : ReviewContext := ⟨0, 0, fun _ _ => .ok ()⟩

private def discovery : Operation := .discover (.object [(ascii "issuerId", .string exampleIssuer)])

private def approval : List (ReviewContext × Operation) :=
  [(silent, discovery), (silent, .requestReview (.string exampleIssuer) .undefined),
    (silent, .decide (.string exampleIssuer) .approved
      (.object [(ascii "reviewedBy", .string (ascii "admin"))]))]

end IssuerReviewWorkflow

end GhostBridge.Trust
