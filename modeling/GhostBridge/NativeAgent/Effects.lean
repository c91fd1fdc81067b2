import GhostBridge.Machine.Threads
import GhostBridge.NativeAgent.Stores
import GhostBridge.ProtocolCore.Documents

/-!
# Operations of an agent

What the code of an agent does between two awaits: it reads the clock, calls the functions it was
configured with, works on the stores, and starts, cancels and ends executions.
-/

namespace GhostBridge.NativeAgent

open Ecma Machine ProtocolCore

/-- The functions that an agent is configured with, and the verifiers of the trust package. -/
inductive External where
  | requestIntegrityVerifier
  | verifyRequest
  | revocationResolver
  | authorizationHandler
  | approvalHandler
  | receiptIssuer
  | verifyTrustedReceipt
deriving DecidableEq

inductive Op where
  | clock
  | randomUUID
  | get (collection : Collection) (key : Value)
  | has (collection : Collection) (key : Value)
  | values (collection : Collection)
  | put (collection : Collection) (key value : Value)
  | delete (collection : Collection) (key : Value)
  | putDecision (decision : Value)
  | consumeApprovedDecision (criteria : Value)
  | commitTerminal (task receipt : Value) (expectedTaskStates : List Text)
  | redeemInstallGrant (input : Value)
  | call (external : External) (argument : Value)
  /-- The execution becomes active and its handler is called. -/
  | startHandler (taskId : Text) (receiptContext argument : Value)
  /-- The race of the handler against its abort signal ends; the execution is not active any
  more. -/
  | awaitHandler (taskId : Text)
  /-- A cancellation starts unless one is in progress; an active execution is aborted. -/
  | startCancellation (taskId : Text)
  /-- The outcome of a cancellation that another operation has started. -/
  | awaitCancellation (taskId : Text)
  | endCancellation (taskId : Text)
deriving DecidableEq

/-- How the race of a handler ended, and what had happened to its execution by then. -/
structure HandlerEnd where
  /-- What the handler returned or threw; none when the abort signal came first. -/
  settled : Option (Checked Value)
  aborted : Bool
  cancellationRequested : Bool
deriving DecidableEq

inductive CancellationStart where
  | inProgress
  | started (receiptContext : Option Value)
deriving DecidableEq

abbrev Reply : Op → Type
  | .clock => Int
  | .randomUUID => Text
  | .get _ _ => Checked Value
  | .has _ _ => Checked Bool
  | .values _ => List Value
  | .put _ _ _ => Checked Unit
  | .delete _ _ => Checked Unit
  | .putDecision _ => Checked Unit
  | .consumeApprovedDecision _ => Checked Value
  | .commitTerminal _ _ _ => Checked TerminalCommit
  | .redeemInstallGrant _ => Checked Redemption
  | .call _ _ => Checked Value
  | .startHandler _ _ _ => Checked Unit
  | .awaitHandler _ => HandlerEnd
  | .startCancellation _ => CancellationStart
  | .awaitCancellation _ => Checked Value
  | .endCancellation _ => Unit

abbrev Flow := Async Op Reply Failure

/-- `activeExecutions.get(taskId)`. -/
structure Execution where
  receiptContext : Value
  aborted : Bool := false
  cancellationRequested : Bool := false
deriving DecidableEq

structure AgentState where
  collections : Collections
  activeExecutions : Text → Option Execution := fun _ => none
  terminalOperations : Text → Bool := fun _ => false

structure Answer where
  now : Int := 0
  uuid : Text := []
  unavailable : Bool := false
  /-- What a function outside the agent returns or throws. -/
  outcome : Checked Value := .ok .undefined
  elapsed : Bool := false
  /-- The handler has not settled when its execution is aborted. -/
  pending : Bool := false

inductive Storage where
  | maps
  | file
deriving DecidableEq

/-- `store.set(key, value)` or `store.put(key, value)`. -/
def storageWrite (storage : Storage) (state : Collections) (unavailable : Bool)
    (collection : Collection) (key value : Value) : Checked Unit × Collections :=
  match storage with
  | .file => filePut state unavailable collection key value
  | .maps =>
    if unavailable then (.error .runtimeError, state)
    else (.ok (), state.set collection (mapKey key) value)

def storageGet (storage : Storage) (state : Collections) (collection : Collection) (key : Value) :
    Checked Value :=
  match storage with
  | .file => fileGet state collection key
  | .maps => .ok (state.get collection (mapKey key))

def storageHas (storage : Storage) (state : Collections) (collection : Collection) (key : Value) :
    Checked Bool :=
  match storage with
  | .file => fileHas state collection key
  | .maps => .ok ((state collection).has (mapKey key))

def storageValues (storage : Storage) (state : Collections) (collection : Collection) : List Value :=
  match storage with
  | .file => fileValues state collection
  | .maps => (state collection).entries.map Prod.snd

def storageDelete (storage : Storage) (state : Collections) (unavailable : Bool)
    (collection : Collection) (key : Value) : Checked Unit × Collections :=
  match storage with
  | .file =>
    exclusive .runtimeError state unavailable do
      let normalized ← validKey key
      pure ((), state.delete collection normalized)
  | .maps =>
    if unavailable then (.error .runtimeError, state)
    else (.ok (), state.delete collection (mapKey key))

variable (runtime : AgentRuntime)

def isMatchingApprovalDecision (decision criteria : Value) : Bool :=
  decision.isTruthy && (decision.field (ascii "decision")).strictEq (.string (ascii "approved")) &&
    (match criteria.field (ascii "approvalActionDigest") with
      | .string text => isActionDigest text
      | _ => false) &&
    sharesBinding decision criteria && expiresAfter runtime.toRuntime decision criteria

def mapConsume (state : Collections) (criteria : Value) : Checked Value × Collections :=
  let key := mapKey (criteria.field (ascii "decisionId"))
  let decision := state.get .approvalDecisions key
  if isMatchingApprovalDecision runtime decision criteria &&
      !(decision.field (ascii "used")).isTruthy then
    (.ok (usedDecision decision criteria),
      state.set .approvalDecisions key (usedDecision decision criteria))
  else (.ok .undefined, state)

def storageConsume (storage : Storage) (state : Collections) (unavailable : Bool)
    (criteria : Value) : Checked Value × Collections :=
  match storage with
  | .file => consumeApprovedDecision runtime.toRuntime state unavailable criteria
  | .maps => mapConsume runtime state criteria

def AgentState.onCollections {α : Type} (state : AgentState) (result : α × Collections) :
    α × AgentState := (result.1, { state with collections := result.2 })

def AgentState.awaitHandler (state : AgentState) (taskId : Text) (answer : Answer) :
    HandlerEnd × AgentState :=
  let execution := (state.activeExecutions taskId).getD ⟨.undefined, false, false⟩
  let aborted := execution.aborted || answer.elapsed
  (⟨if aborted && answer.pending then none else some answer.outcome, aborted,
      execution.cancellationRequested⟩,
    { state with activeExecutions := Function.update state.activeExecutions taskId none })

def AgentState.startCancellation (state : AgentState) (taskId : Text) :
    CancellationStart × AgentState :=
  if state.terminalOperations taskId then (.inProgress, state)
  else
    let execution := state.activeExecutions taskId
    (.started (execution.map Execution.receiptContext),
      { state with
        activeExecutions := Function.update state.activeExecutions taskId
          (execution.map fun e => { e with aborted := true, cancellationRequested := true })
        terminalOperations := Function.update state.terminalOperations taskId true })

def perform (storage : Storage) : Perform AgentState Op Answer Reply
  | state, .clock, answer => (answer.now, state)
  | state, .randomUUID, answer => (answer.uuid, state)
  | state, .get collection key, _ => (storageGet storage state.collections collection key, state)
  | state, .has collection key, _ => (storageHas storage state.collections collection key, state)
  | state, .values collection, _ => (storageValues storage state.collections collection, state)
  | state, .put collection key value, answer =>
    state.onCollections
      (storageWrite storage state.collections answer.unavailable collection key value)
  | state, .delete collection key, answer =>
    state.onCollections
      (storageDelete storage state.collections answer.unavailable collection key)
  | state, .putDecision decision, answer =>
    state.onCollections (putDecision state.collections answer.unavailable decision)
  | state, .consumeApprovedDecision criteria, answer =>
    state.onCollections
      (storageConsume runtime storage state.collections answer.unavailable criteria)
  | state, .commitTerminal task receipt expectedTaskStates, answer =>
    state.onCollections
      (commitTerminal state.collections answer.unavailable task receipt expectedTaskStates)
  | state, .redeemInstallGrant input, answer =>
    state.onCollections
      (redeemInstallGrant runtime.toRuntime state.collections answer.unavailable input)
  | state, .call _ _, answer => (answer.outcome, state)
  | state, .startHandler taskId receiptContext _, answer =>
    (answer.outcome.map fun _ => (),
      { state with
        activeExecutions :=
          Function.update state.activeExecutions taskId (some ⟨receiptContext, false, false⟩) })
  | state, .awaitHandler taskId, answer => state.awaitHandler taskId answer
  | state, .startCancellation taskId, _ => state.startCancellation taskId
  | state, .awaitCancellation _, answer => (answer.outcome, state)
  | state, .endCancellation taskId, _ =>
    ((), { state with
      terminalOperations := Function.update state.terminalOperations taskId false })

/-- `new Date(milliseconds).toISOString()`. -/
def isoText (milliseconds : Int) : Checked Text :=
  orThrow .runtimeError (runtime.isoTime milliseconds)

/-- `new Date(clock()).toISOString()`. -/
def timestamp : Flow Text := do
  let now ← Async.ask .clock
  isoText runtime now

/-- `${name}_${crypto.randomUUID()}`. -/
def freshIdentifier (name : String) : Flow Text := do
  let uuid ← Async.ask .randomUUID
  pure (ascii name ++ 0x5f :: uuid)

def storeGet (collection : Collection) (key : Value) : Flow Value := do
  let reply ← Async.ask (.get collection key)
  reply

def storePut (collection : Collection) (key value : Value) : Flow Unit := do
  let reply ← Async.ask (.put collection key value)
  reply

section Rules

variable {S : Type} {m : Monitor Op Reply S} {s : S} {collection : Collection} {key value : Value}

@[simp] theorem follows_storeGet {post : S → Checked Value → Prop} :
    (storeGet collection key).Follows m post s ↔
      m.allowed s (.get collection key) ∧ ∀ reply : Checked Value,
        m.replies s (.get collection key) reply →
          post (m.next s (.get collection key) reply) reply := by
  simp only [storeGet, Async.follows_bind, Async.follows_ask, Async.goesOn_ok,
    Async.follows_monadLift]

@[simp] theorem follows_storePut {post : S → Checked Unit → Prop} :
    (storePut collection key value).Follows m post s ↔
      m.allowed s (.put collection key value) ∧ ∀ reply : Checked Unit,
        m.replies s (.put collection key value) reply →
          post (m.next s (.put collection key value) reply) reply := by
  simp only [storePut, Async.follows_bind, Async.follows_ask, Async.goesOn_ok,
    Async.follows_monadLift]

variable {operations : Op → Prop}

variable {runtime : AgentRuntime}

section Alone

variable {storage : Storage} {answer : Answer} {a b : AgentState}

@[simp] theorem run_timestamp_ok {text : Text} :
    (timestamp runtime).run (perform runtime storage) answer a = (.ok text, b) ↔
      runtime.isoTime answer.now = some text ∧ b = a := by
  rw [show (timestamp runtime).run (perform runtime storage) answer a =
    (isoText runtime answer.now, a) from rfl, Prod.mk.injEq, isoText, orThrow_ok, eq_comm (a := a)]

@[simp] theorem run_freshIdentifier_ok {name : String} {text : Text} :
    (freshIdentifier name).run (perform runtime storage) answer a = (.ok text, b) ↔
      ascii name ++ 0x5f :: answer.uuid = text ∧ b = a := by
  rw [show (freshIdentifier name).run (perform runtime storage) answer a =
    (.ok (ascii name ++ 0x5f :: answer.uuid), a) from rfl, Prod.mk.injEq, Except.ok.injEq,
    eq_comm (a := a)]

@[simp] theorem run_storeGet_ok :
    (storeGet collection key).run (perform runtime storage) answer a = (.ok value, b) ↔
      storageGet storage a.collections collection key = .ok value ∧ b = a := by
  rw [show (storeGet collection key).run (perform runtime storage) answer a =
    (storageGet storage a.collections collection key, a) from rfl, Prod.mk.injEq, eq_comm (a := a)]

theorem run_storePut_maps_ok {u : Unit} (havailable : answer.unavailable = false) :
    (storePut collection key value).run (perform runtime .maps) answer a = (.ok u, b) ↔
      b = { a with collections := a.collections.set collection (mapKey key) value } := by
  have hwrite : (storePut collection key value).run (perform runtime .maps) answer a =
      (.ok (), { a with collections := a.collections.set collection (mapKey key) value }) := by
    change ((storageWrite .maps a.collections answer.unavailable collection key value).1,
      { a with
        collections := (storageWrite .maps a.collections answer.unavailable collection key value).2 }) = _
    rw [storageWrite, havailable]
    rfl
  rw [hwrite, Prod.mk.injEq, eq_comm (b := b)]
  simp

end Alone

end Rules

end GhostBridge.NativeAgent
