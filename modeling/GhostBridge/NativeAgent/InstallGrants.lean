import GhostBridge.NativeAgent.Agent

/-!
# Redemption of install grants

The two ways to redeem a grant: as one transaction of the file store, and in maps.
-/

namespace GhostBridge.NativeAgent

open Ecma Machine ProtocolCore

def assertGrantScope (runtime : Runtime) (grant scope : Value) (now : Int) (allowRedeemed : Bool) :
    Checked Unit := do
  throwWhen ((parseDate runtime (grant.field (ascii "expiresAt"))).any (· ≤ now))
    (protocolError .installGrantExpired "The Install Grant has expired.")
  throwWhen (hasStatus grant "revoked")
    (protocolError .revoked "The Install Grant has been revoked.")
  throwWhen (hasStatus grant "redeemed" && !allowRedeemed)
    (protocolError .installGrantAlreadyRedeemed "The Install Grant was already redeemed.")
  let organizationScope := scope.field (ascii "organizationScope")
  throwWhen (!organizationScope.isTruthy)
    (protocolError .scopeRequired "Organization scope is required.")
  throwWhen (!(grant.field (ascii "organizationScope")).strictEq organizationScope)
    (protocolError .scopeMismatch "The Install Grant organization scope does not match.")
  let workspaceScope := grant.field (ascii "workspaceScope")
  throwWhen (workspaceScope.isTruthy &&
      !workspaceScope.strictEq (scope.field (ascii "workspaceScope")))
    (protocolError .scopeMismatch "The Install Grant workspace scope does not match.")

/-- The binding that a mode other than `none` needs is missing, or belongs to another scope. -/
def lacksBinding (scope selectedMode organizationScope workspaceScope : Value) : Bool :=
  let binding := scope.field (ascii "authenticationBinding")
  !selectedMode.strictEq (.string (ascii "none")) &&
    (!binding.isTruthy ||
      (!(binding.field (ascii "credentialReference")).isTruthy &&
        !(binding.field (ascii "transportBindingReference")).isTruthy) ||
      !(binding.field (ascii "authenticationMode")).strictEq selectedMode ||
      !(binding.field (ascii "organizationScope")).strictEq organizationScope ||
      !sameOptional (binding.field (ascii "workspaceScope")) workspaceScope)

/-- `selectedAuthenticationMode === 'none' ? 'not_required' : 'verified_and_bound'`. -/
def authenticationState (selectedMode : Value) : Value :=
  .string (if selectedMode.strictEq (.string (ascii "none")) then ascii "not_required"
    else ascii "verified_and_bound")

/-- `binding.credentialReference || binding.transportBindingReference`. -/
def bindingReference (scope : Value) : Value :=
  let binding := scope.field (ascii "authenticationBinding")
  (binding.field (ascii "credentialReference")).orElse
    (binding.field (ascii "transportBindingReference"))

/-- `revocations/connection/${connectionId}`. -/
def revocationReference (connectionId : Text) : Value :=
  .string (ascii "revocations/connection/" ++ connectionId)

def publicConnection (connection : Value) : List (String × Value) :=
  let name (field : String) : String × Value := (field, connection.field (ascii field))
  let present (field : String) : List (String × Value) :=
    Value.optional (connection.field (ascii field)).isTruthy field (connection.field (ascii field))
  [("protocolVersion", .string protocolVersion), name "connectionId", name "agentId",
    name "passportVersion", name "organizationScope"] ++ present "workspaceScope" ++
  [name "status", name "authenticationMode", name "authenticationState"] ++ present "hostAudience" ++
  [name "enabledCapabilityKeys", name "disabledCapabilityKeys", name "createdAt",
    name "revocationReference"]

namespace Agent

variable (agent : Agent)

/-- `scope.authenticationMode || authenticationModes[0]`. -/
def selectedMode (scope : Value) : Value :=
  (scope.field (ascii "authenticationMode")).orElse (.string (agent.authenticationModes.headD []))

def supportedMode (scope : Value) : Checked Value := do
  throwWhen (!namesInclude agent.authenticationModes (agent.selectedMode scope))
    (protocolError .noCompatibleAuthenticationMode
      "The selected authentication mode is not supported.")
  pure (agent.selectedMode scope)

def capabilitiesDenied : Failure :=
  protocolError .authorizationDenied
    "The requested capability enablement is not authorized by the Install Grant."

def bindingRequired : Failure :=
  protocolError .authenticationRequired
    "The selected authentication mode requires a scope-bound opaque binding."

/-- `scope.hostAudience || options.hostAudience`. -/
def audience (scope : Value) : Value := (scope.field (ascii "hostAudience")).orElse agent.hostAudience

/-- What a request asks for: its mode, and the capabilities that it approves. -/
structure RedemptionRequest where
  selectedMode : Value
  approved : List Value

def checkRequest (scope : Value) : Checked RedemptionRequest := do
  let organizationScope := scope.field (ascii "organizationScope")
  throwWhen (!organizationScope.isTruthy)
    (protocolError .scopeRequired "Organization scope is required.")
  let selected ← agent.supportedMode scope
  let approved ← (match scope.field (ascii "approvedCapabilityKeys") with
    | .array items => pure items
    | _ => throw capabilitiesDenied)
  throwWhen approved.isEmpty capabilitiesDenied
  throwWhen (lacksBinding scope selected organizationScope (scope.field (ascii "workspaceScope")))
    bindingRequired
  pure ⟨selected, approved⟩

def checkTrusted (grant : Value) (keyHash : Text) : Checked (List Value) := do
  let invalid := protocolError .installGrantInvalid "The Install Grant trusted context is invalid."
  let same (field : String) (expected : Value) : Bool := (grant.field (ascii field)).strictEq expected
  throwWhen (!grant.isTruthy || !same "keyHash" (.string keyHash) ||
    !same "issuer" (agent.passport.field (ascii "issuer")) ||
    !same "agentId" (agent.passport.field (ascii "agentId"))) invalid
  match grant.field (ascii "allowedCapabilityKeys") with
  | .array allowed => pure allowed
  | _ => throw invalid

def connectionCandidate (grant scope selected : Value) (enabled allowed : List Value)
    (connectionId now : Text) : Value :=
  let workspaceScope := grant.field (ascii "workspaceScope")
  .record ([("connectionId", .string connectionId),
      ("agentId", agent.passport.field (ascii "agentId")),
      ("passportVersion", agent.passport.field (ascii "passportVersion")),
      ("organizationScope", grant.field (ascii "organizationScope"))] ++
    Value.optional workspaceScope.isTruthy "workspaceScope" workspaceScope ++
    [("status", .string (ascii "active")), ("authenticationMode", selected),
      ("authenticationState", authenticationState selected)] ++
    Value.optional (scope.field (ascii "authenticationBinding")).isTruthy
      "authenticationBindingReference" (bindingReference scope) ++
    Value.optional (agent.audience scope).isTruthy "hostAudience" (agent.audience scope) ++
    [("enabledCapabilityKeys", .array enabled),
      ("disabledCapabilityKeys", .array (withoutEnabled allowed enabled)),
      ("createdAt", .string now), ("revocationReference", revocationReference connectionId)])

def redemptionInput (scope : Value) (keyHash now : Text) (enabled : List Value)
    (connection : Value) : Value :=
  let workspaceScope := scope.field (ascii "workspaceScope")
  .record ([("keyHash", .string keyHash), ("now", .string now),
      ("organizationScope", scope.field (ascii "organizationScope"))] ++
    Value.optional workspaceScope.isTruthy "workspaceScope" workspaceScope ++
    [("approvedCapabilityKeys", .array enabled), ("connection", connection)])

/-- `installGrantRedemptionSafeMessage(errorCode)` of the codes that are passed on. -/
def redemptionMessage : ProtocolErrorCode → Option String
  | .installGrantInvalid => some "The Install Grant is invalid."
  | .installGrantExpired => some "The Install Grant has expired."
  | .installGrantAlreadyRedeemed => some "The Install Grant was already redeemed."
  | .scopeMismatch => some "The Install Grant scope does not match."
  | .authorizationDenied =>
    some "The requested capability enablement is not authorized by the Install Grant."
  | .revoked => some "The Install Grant has been revoked."
  | _ => none

def redemptionFailure (failure : Failure) : Failure :=
  let closed := protocolError .installGrantInvalid
    "The Install Grant redemption transaction failed closed."
  match failure with
  | .protocol error =>
    ((redemptionMessage error.errorCode).map (protocolError error.errorCode)).getD closed
  | .runtimeError => closed

def passRedemption : Checked Redemption → Checked Redemption
  | .ok redemption => .ok redemption
  | .error failure => .error (redemptionFailure failure)

def isDeepStrictEqual (v w : Value) : Bool :=
  decide (v.rebuild id .byName = w.rebuild id .byName)

def checkObservable (stored returned : Value) : Checked Unit := do
  let storedText ← boundedSerialize stored defaultLimits
  let returnedText ← boundedSerialize returned defaultLimits
  throwWhen (storedText != returnedText)
    (protocolError .installGrantInvalid
      "The Install Grant redemption transaction was not durably observable.")

def trustedContext (keyHash : Text) : Flow Value :=
  tryCatch (storeGet .installGrants (.string keyHash)) fun _ =>
    throw (protocolError .installGrantInvalid "The Install Grant trusted context was unavailable.")

def confirmRedemption (keyHash connectionId : Text) (expectedGrant candidate : Value)
    (redemption : Redemption) : Flow Unit := do
  throwWhen (!redemption.grant.isTruthy || !redemption.connection.isTruthy ||
      !isDeepStrictEqual redemption.grant expectedGrant ||
      !isDeepStrictEqual redemption.connection candidate)
    (protocolError .installGrantInvalid
      "The Install Grant redemption transaction returned invalid state.")
  let storedGrant ← storeGet .installGrants (.string keyHash)
  let storedConnection ← storeGet .connections (.string connectionId)
  checkObservable storedGrant redemption.grant
  checkObservable storedConnection redemption.connection

def redeemInstallGrantAtomically (key scope : Value) : Flow Value := do
  let request ← agent.checkRequest scope
  let keyHash ← digest (.record [("key", key)])
  let trustedGrant ← trustedContext keyHash
  let allowed ← agent.checkTrusted trustedGrant keyHash
  let checkedAt ← Async.ask .clock
  assertGrantScope agent.runtime.toRuntime trustedGrant scope checkedAt false
  let enabled := distinctValues request.approved
  throwWhen (enabled.any fun capabilityKey => !listed allowed capabilityKey) capabilitiesDenied
  let connectionId ← freshIdentifier "connection"
  let now ← timestamp agent.runtime
  let candidate :=
    agent.connectionCandidate trustedGrant scope request.selectedMode enabled allowed connectionId now
  let reply ← Async.ask
    (Op.redeemInstallGrant (redemptionInput scope keyHash now enabled candidate))
  let redemption ← passRedemption reply
  confirmRedemption keyHash connectionId
    (redeemedGrant trustedGrant (.string now) connectionId) candidate redemption
  pure (.record (publicConnection redemption.connection ++ [("idempotentReplay", .bool false)]))

def findGrant (keyHash : Text) : Flow Value := do
  let grant ← storeGet .installGrants (.string keyHash)
  throwWhen (!grant.isTruthy)
    (protocolError .installGrantInvalid "The Install Grant is invalid.")
  pure grant

/-- `scope.approvedCapabilityKeys`, or all capabilities of a fixture that approves them. -/
def approvedCapabilities (grant scope : Value) : Value :=
  let approved := scope.field (ascii "approvedCapabilityKeys")
  if approved.isTruthy then approved
  else if agent.mode == .localFixtureMode && agent.approveAllFixtureCapabilities then
    grant.field (ascii "allowedCapabilityKeys")
  else .undefined

def connectionRecord (grant scope selected : Value) (enabled allowed : List Value)
    (connectionId now : Text) : Value :=
  .record ([("connectionId", .string connectionId),
      ("agentId", agent.passport.field (ascii "agentId")),
      ("passportVersion", agent.passport.field (ascii "passportVersion")),
      ("organizationScope", grant.field (ascii "organizationScope")),
      ("workspaceScope", grant.field (ascii "workspaceScope")),
      ("status", .string (ascii "active")), ("authenticationMode", selected),
      ("authenticationState", authenticationState selected)] ++
    Value.optional (scope.field (ascii "authenticationBinding")).isTruthy
      "authenticationBindingReference" (bindingReference scope) ++
    [("hostAudience", agent.audience scope), ("enabledCapabilityKeys", .array enabled),
      ("disabledCapabilityKeys", .array (withoutEnabled allowed enabled)),
      ("createdAt", .string now), ("revocationReference", revocationReference connectionId)])

def replayedConnection (grant : Value) : Flow Value := do
  let connection ← storeGet .connections (grant.field (ascii "connectionId"))
  throwWhen (!connection.isTruthy)
    (protocolError .connectionNotActive "The redeemed Install Grant Connection was not found.")
  pure (.record (publicConnection connection ++ [("idempotentReplay", .bool true)]))

/-- The checks of `redeemInstallGrantRecord` once the scope is settled. -/
def checkRecord (grant scope : Value) : Checked (RedemptionRequest × List Value) := do
  let selected ← agent.supportedMode scope
  let approved ← (match agent.approvedCapabilities grant scope with
    | .array items => pure items
    | _ => throw capabilitiesDenied)
  throwWhen approved.isEmpty capabilitiesDenied
  let allowed ← itemsOf (grant.field (ascii "allowedCapabilityKeys"))
  throwWhen (approved.any fun key => !listed allowed key) capabilitiesDenied
  throwWhen (lacksBinding scope selected (grant.field (ascii "organizationScope"))
      (grant.field (ascii "workspaceScope"))) bindingRequired
  pure (⟨selected, approved⟩, allowed)

/-- Nothing is awaited in here. The map holds the grant itself, which is marked when it is found to
have expired. -/
def redeemInstallGrantRecord (keyHash : Text) (grant scope : Value) : Flow Value := do
  let checkedAt ← Async.ask .clock
  if (parseDate agent.runtime.toRuntime (grant.field (ascii "expiresAt"))).any (· ≤ checkedAt) then
    storePut .installGrants (.string keyHash) (grant.spread [("status", .string (ascii "expired"))])
  assertGrantScope agent.runtime.toRuntime grant scope checkedAt true
  if hasStatus grant "redeemed" then replayedConnection grant
  else do
    let checked ← agent.checkRecord grant scope
    let connectionId ← freshIdentifier "connection"
    let now ← timestamp agent.runtime
    let connection := agent.connectionRecord grant scope checked.1.selectedMode checked.1.approved
      checked.2 connectionId now
    storePut .connections (.string connectionId) connection
    storePut .installGrants (grant.field (ascii "keyHash"))
      (redeemedGrant grant (.string now) connectionId)
    pure (.record (publicConnection connection ++ [("idempotentReplay", .bool false)]))

/-- `redeemInstallGrant(key, scope)` outside production. -/
def redeemInstallGrantInMaps (key scope : Value) : Flow Value := do
  let keyHash ← digest (.record [("key", key)])
  let grant ← findGrant keyHash
  agent.redeemInstallGrantRecord keyHash grant scope

end Agent

end GhostBridge.NativeAgent
