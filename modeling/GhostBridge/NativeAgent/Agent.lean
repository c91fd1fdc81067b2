import GhostBridge.NativeAgent.Effects

/-!
# Native agents

What an agent is configured with.
-/

namespace GhostBridge.NativeAgent

open Ecma Machine ProtocolCore

inductive Mode where
  | localFixtureMode
  | developmentMode
  | productionMode
deriving DecidableEq

structure Registered where
  contract : Value
  approvalLimits : Value := .undefined
  policyDecisionReference : Value := .undefined
  delegationRequired : Value := .undefined

structure Agent where
  runtime : AgentRuntime
  mode : Mode
  passport : Value
  capabilities : List (Text × Registered) := []
  authenticationModes : List Text := [ascii "none"]
  hostAudience : Value := .undefined
  approveAllFixtureCapabilities : Bool := false
  /-- A `requestIntegrityVerifier` or an `approvalHandler` is there. -/
  verifiesRequestIntegrity : Bool := false
  handlesApprovals : Bool := false
  /-- `options.requestIntegrity`. -/
  requestIntegrity : Value := .undefined

namespace Agent

variable (agent : Agent)

/-- `productionMode`. -/
def isProduction : Bool := agent.mode == .productionMode

end Agent

abbrev AgentWorld := World AgentState Op Reply (Checked Value)

def epochRuntime : AgentRuntime where
  dateParse text :=
    if text = ascii "1970-01-01T00:00:00.000Z" then some 0
    else if text = ascii "1970-01-01T01:00:00.000Z" then some 3600000 else none
  toLowerCase := List.map Regex.lowerAscii
  urlProtocol _ := none
  isoTime milliseconds :=
    if milliseconds = 0 then some (ascii "1970-01-01T00:00:00.000Z")
    else if milliseconds = 3600000 then some (ascii "1970-01-01T01:00:00.000Z") else none
  dateParse_isoTime milliseconds text h := by
    split at h
    · next hzero => rw [← Option.some.inj h, hzero]; decide
    · split at h
      · next hhour => rw [← Option.some.inj h, hhour]; decide
      · cases h
  compileSchema _ := some fun _ => true

end GhostBridge.NativeAgent

/-!
## Approval challenges and decisions

Challenges that an agent issues, and the decisions that are submitted for them. A submission reads
its challenge, stores the decision, and then writes the status of the challenge.
-/

namespace GhostBridge.NativeAgent

open Ecma Machine ProtocolCore

def decisionRecord (decision challenge : Value) : Value :=
  let name (field : String) : String × Value := (field, challenge.field (ascii field))
  decision.spread [name "invocationId", name "organizationScope", name "workspaceScope",
    name "actionKey", name "approvalLimits", name "policyDecisionReference", name "expiresAt",
    ("used", .bool false)]

def decidedChallenge (decision challenge : Value) : Value :=
  let approved := (decision.field (ascii "decision")).strictEq (.string (ascii "approved"))
  challenge.spread
    [("status", .string (if approved then ascii "approved" else ascii "rejected"))]

namespace Agent

variable (agent : Agent)

/-- `decisions.putDecision(decision)`, or `decisions.set(decision.decisionId, decision)`. -/
def storeDecision (decision : Value) : Flow Unit := do
  if agent.isProduction then
    let reply ← Async.ask (.putDecision decision)
    reply
  else storePut .approvalDecisions (decision.field (ascii "decisionId")) decision

def submitApprovalDecisionForChallenge (challenge decision : Value) : Flow Value := do
  throwWhen (!challenge.isTruthy)
    (protocolError .approvalInvalid "The Approval Challenge was not found.")
  let now ← Async.ask .clock
  validateApprovalDecision agent.runtime.toRuntime decision challenge now
  agent.storeDecision (decisionRecord decision challenge)
  storePut .approvals (challenge.field (ascii "challengeId")) (decidedChallenge decision challenge)
  pure decision

def submitApprovalDecision (decision : Value) : Flow Value := do
  let challenge ← storeGet .approvals (decision.field (ascii "challengeId"))
  agent.submitApprovalDecisionForChallenge challenge decision

end Agent

structure Submission where
  decision : Value
  challenge : Option Value := none
  stored : Bool := false
  decided : Bool := false

structure Decides (decision challenge : Value) : Prop where
  pending : hasStatus challenge "pending" = true
  challengeId : (decision.field (ascii "challengeId")).strictEq
    (challenge.field (ascii "challengeId")) = true

def submissionMonitor : Monitor Op Reply Submission where
  next s op reply :=
    match op, reply with
    | .get .approvals _, .ok challenge => { s with challenge := some challenge }
    | .putDecision _, .ok () => { s with stored := true }
    | .put .approvals _ _, .ok () => { s with decided := true }
    | _, _ => s
  allowed s op :=
    match op with
    | .get .approvals key =>
      s.challenge = none ∧ s.stored = false ∧ s.decided = false ∧
        key = s.decision.field (ascii "challengeId")
    | .clock => True
    | .putDecision record => s.stored = false ∧ s.decided = false ∧ ∃ challenge,
        s.challenge = some challenge ∧ Decides s.decision challenge ∧
          record = decisionRecord s.decision challenge
    | .put .approvals key value => s.stored = true ∧ s.decided = false ∧ ∃ challenge,
        s.challenge = some challenge ∧ Decides s.decision challenge ∧
          key = challenge.field (ascii "challengeId") ∧
          value = decidedChallenge s.decision challenge
    | _ => False
  replies _ _ _ := True

theorem decides_of_valid {runtime : Runtime} {decision challenge : Value} {now : Int}
    (h : validateApprovalDecision runtime decision challenge now = .ok ()) :
    Decides decision challenge := by
  simp only [validateApprovalDecision, bind_ok, exists_unit, throwWhen_ok, Bool.not_eq_false'] at h
  obtain ⟨-, -, hsame, -, _, -, -, hpending, -⟩ := h
  exact ⟨hpending, hsame⟩

/-- A submission that returns has stored its decision and decided the challenge. -/
def Submitted (s : Submission) (result : Checked Value) : Prop :=
  (∀ value, result = .ok value → s.decided = true) ∧ (s.decided = true → s.stored = true)

private theorem submitted_error {s : Submission} (h : s.decided = false) (failure : Failure) :
    Submitted s (.error failure) :=
  ⟨fun _ hok => (nomatch hok), fun hdecided => absurd hdecided (by simp [h])⟩

theorem submitApprovalDecision_follows {agent : Agent} (hproduction : agent.isProduction = true)
    (decision : Value) :
    (agent.submitApprovalDecision decision).Follows submissionMonitor Submitted
      { decision := decision } := by
  unfold Agent.submitApprovalDecision
  simp only [Async.follows_bind, follows_storeGet]
  refine ⟨⟨rfl, rfl, rfl, rfl⟩, fun reply _ => ?_⟩
  cases reply with
  | error failure => exact submitted_error rfl failure
  | ok challenge =>
    let read : Submission := { decision := decision, challenge := some challenge }
    have hread (failure : Failure) : Submitted read (.error failure) := submitted_error rfl failure
    change (agent.submitApprovalDecisionForChallenge challenge decision).Follows submissionMonitor
      Submitted read
    unfold Agent.submitApprovalDecisionForChallenge
    refine Async.follows_check hread fun _ _ => ?_
    simp only [Async.follows_bind, Async.follows_ask]
    refine ⟨trivial, fun now _ => ?_⟩
    refine Async.follows_check hread fun _ hvalid => ?_
    have hdecides := decides_of_valid hvalid
    simp only [Agent.storeDecision, hproduction, if_true, Async.follows_bind, Async.follows_ask]
    refine ⟨⟨rfl, rfl, challenge, rfl, hdecides, rfl⟩, fun reply _ => ?_⟩
    cases reply with
    | error failure => exact submitted_error rfl failure
    | ok u =>
      simp only [Async.goesOn_ok, Async.follows_monadLift, Async.follows_bind, follows_storePut]
      refine ⟨⟨rfl, rfl, challenge, rfl, hdecides, rfl, rfl⟩, fun reply _ => ?_⟩
      cases reply with
      | error failure => exact submitted_error rfl failure
      | ok u => exact ⟨fun _ _ => rfl, fun _ => rfl⟩

end GhostBridge.NativeAgent
