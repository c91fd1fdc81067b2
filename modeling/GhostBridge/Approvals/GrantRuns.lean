import GhostBridge.Approvals.DecisionRuns

/-!
# Runs over one grant

A grant that may be used once is consumed once.
-/

namespace GhostBridge.Approvals

open Ecma Machine

/-- What an execution has consumed, and what it has been allowed to use without consuming it. -/
structure Usage where
  consumed : List Text := []
  settled : List Approved := []

namespace Usage

def next (s : Usage) : (op : Op) → Reply op → Usage
  | .consume id, .ok _ => { s with consumed := id :: s.consumed }
  | .operationalAccess approved, .ok _ =>
    if approved.isSettled then { s with settled := approved :: s.settled } else s
  | _, _ => s

def Covers (s : Usage) (approved : Approved) : Prop :=
  approved.request.approvalRequestId ∈ s.consumed ∨ approved ∈ s.settled

end Usage

def usage : Monitor Op Reply Usage where
  next := Usage.next
  allowed
    | s, .execute approvals => ∀ approved ∈ approvals, s.Covers approved
    | _, _ => True
  replies _ _ _ := True

theorem usage_calm (s : Usage) (op : Op) (h : op.isQuiet = true) : usage.allowed s op := by
  cases op <;> trivial

/-- A state of an execution comes after another: it keeps what it has got past. -/
def Usage.Extends (s t : Usage) : Prop := ∀ approved, s.Covers approved → t.Covers approved

theorem Usage.Extends.refl (s : Usage) : s.Extends s := fun _ h => h

theorem Usage.Extends.trans {s t u : Usage} (hst : s.Extends t) (htu : t.Extends u) :
    s.Extends u := fun approved h => htu approved (hst approved h)

theorem extends_next (s : Usage) (op : Op) (reply : Reply op) :
    s.Extends (usage.next s op reply) := by
  intro approved h
  cases op with
  | consume id =>
    cases reply with
    | error failure => exact h
    | ok _ => exact Or.imp_left (List.mem_cons_of_mem id) h
  | operationalAccess other =>
    cases reply with
    | error failure => exact h
    | ok _ =>
      change Usage.Covers (if other.isSettled then _ else s) approved
      split
      · exact Or.imp_right (List.mem_cons_of_mem other) h
      · exact h
  | _ => exact h

def Usage.Consumes (s t : Usage) (outcome : Checked (List Approved)) : Prop :=
  s.Extends t ∧ ∀ used, outcome = .ok used → ∀ approved ∈ used, t.Covers approved

theorem consumes_error {s t : Usage} (h : s.Extends t) (failure : Failure) :
    s.Consumes t (.error failure) := by
  refine ⟨h, fun used hused => ?_⟩
  cases hused

theorem follows_consumeRest {approvals : List Approved} {used : Approved} {s t : Usage}
    (hextends : s.Extends t) (hcovers : t.Covers used)
    (ih : (consumeApprovalGrants approvals).Follows usage t.Consumes t) :
    (do let rest ← consumeApprovalGrants approvals; return used :: rest : Flow _).Follows usage
      s.Consumes t := by
  rw [Async.follows_bind]
  refine ih.mono fun u r hr => ?_
  have hlater : s.Extends u := fun approved h => hr.1 approved (hextends approved h)
  cases r with
  | error failure => exact consumes_error hlater failure
  | ok rest =>
    rw [Async.goesOn_ok, Async.follows_pure]
    refine ⟨hlater, fun all hall => ?_⟩
    obtain rfl := Except.ok.inj hall
    rw [List.forall_mem_cons]
    exact ⟨hr.1 used hcovers, hr.2 rest rfl⟩

theorem follows_consumeApprovalGrants (approvals : List Approved) (s : Usage) :
    (consumeApprovalGrants approvals).Follows usage s.Consumes s := by
  induction approvals generalizing s with
  | nil =>
    refine ⟨Usage.Extends.refl s, fun used hused => ?_⟩
    obtain rfl := Except.ok.inj hused
    exact fun approved hmem => absurd hmem List.not_mem_nil
  | cons approved approvals ih =>
    unfold consumeApprovalGrants
    apply Async.follows_reply trivial
    · exact fun reply failure _ => consumes_error (extends_next s _ reply) failure
    intro reply _ _ hreply
    subst hreply
    have haccess := extends_next s (.operationalAccess approved) (.ok ())
    split
    · next hsettled =>
      have hcovers : (usage.next s (.operationalAccess approved) (.ok ())).Covers approved := by
        right
        simp [usage, Usage.next, hsettled]
      exact follows_consumeRest haccess hcovers (ih _)
    · apply Async.follows_reply trivial
      · exact fun reply failure _ => consumes_error (haccess.trans (extends_next _ _ reply)) failure
      intro reply _ _ hreply
      subst hreply
      have hcovers : (usage.next (usage.next s (.operationalAccess approved) (.ok ()))
          (.consume approved.request.approvalRequestId) (.ok ())).Covers approved.consumed :=
        .inl List.mem_cons_self
      exact follows_consumeRest (haccess.trans (extends_next _ _ _)) hcovers (ih _)

theorem usage_invoke (execution : Execution) (s : Usage) :
    execution.invoke.Follows usage (fun _ _ => True) s := by
  unfold Execution.invoke
  apply (quiet_enforceApproval _ _).follows_bind usage_calm fun _ _ => trivial
  intro t enforced
  rw [Async.follows_bind]
  refine (follows_orMarkFailure usage_calm (follows_consumeApprovalGrants enforced t)).mono
    fun u r hr => ?_
  cases r with
  | error failure => trivial
  | ok approvals =>
    have hcovers := (hr approvals rfl).2 approvals rfl
    rw [Async.goesOn_ok]
    apply follows_orMarkFailure_trivial usage_calm
    exact ⟨hcovers, fun _ _ => trivial⟩

theorem usage_program (entry : Entry) : entry.program.Follows usage (fun _ _ => True) {} := by
  cases entry with
  | decideApprovalRequest id decision input =>
    unfold Entry.program discarding Approvals.decideApprovalRequest
    rw [Async.follows_bind]
    apply (quiet_reviewApprovalRequest id decision input).follows_bind usage_calm fun _ _ => trivial
    intro t recording
    apply Async.follows_asking trivial
    intro reply _
    cases reply <;> trivial
  | getApprovalRequest id scope =>
    exact (quiet_bind (quiet_getApprovalRequest id scope) fun _ => quiet_pure).follows usage_calm {}
  | cancelApprovalRequest id scope =>
    exact (quiet_bind (quiet_cancelApprovalRequest id scope) fun _ => quiet_pure).follows usage_calm {}
  | invalidateApprovalRequest id reasonCode organizationId =>
    exact (quiet_bind (quiet_invalidateApprovalRequest id reasonCode organizationId)
      fun _ => quiet_pure).follows usage_calm {}
  | invoke execution => exact usage_invoke execution {}

def Database.grantFor (db : Database) (id : Text) : Option ApprovalGrant :=
  db.grants.find? (·.approvalRequestId = id)

def GoesOn (grant next : ApprovalGrant) : Prop :=
  next = grant ∨ grant.status = .active ∧ ∃ status, next = { grant with status := status }

theorem grantFor_updateGrants (db : Database) (filter : ApprovalGrant → Bool) (status : GrantStatus)
    (id : Text) : (db.updateGrants filter status).grantFor id =
      (db.grantFor id).map fun g => if filter g then { g with status := status } else g := by
  unfold Database.grantFor Database.updateGrants
  rw [List.find?_map]
  congr 2
  funext g
  simp only [Function.comp_apply]
  split <;> rfl

theorem grantFor_withGrant {db : Database} {id : Text} {grant : ApprovalGrant}
    (h : db.grantFor id = some grant) (request : ApprovalRequest) (singleUse : Bool) :
    (withGrant db.grants request singleUse).find? (·.approvalRequestId = id) = some grant := by
  unfold withGrant
  split
  · exact h
  · rw [List.find?_append, show db.grants.find? (·.approvalRequestId = id) = some grant from h]
    rfl

structure Consumable (db : Database) (id : Text) (grant : ApprovalGrant)
    (request : ApprovalRequest) : Prop where
  grantFor : db.grantFor id = some grant
  active : grant.status = .active
  unexpired : db.clock < grant.expiresAt
  requests : db.requests id = some request
  approved : request.status = .approved

theorem consume_cases (db : Database) (id : Text) :
    (∃ failure, db.consume id = (.error failure, db)) ∨ ∃ grant request,
      Consumable db id grant request ∧ db.consume id = (.ok (),
        (db.updateGrants (·.approvalRequestId = id) .consumed).store
          (request.moveTo .consumed request.invalidationReasonCode)) := by
  unfold Database.consume
  split
  · next grant request hgrant hrequest =>
    split
    · next hactive =>
      split
      · next happroved =>
        exact .inr ⟨grant, request, ⟨hgrant, hactive.1, hactive.2, hrequest, happroved⟩, rfl⟩
      · exact .inl ⟨_, rfl⟩
    · exact .inl ⟨_, rfl⟩
  · exact .inl ⟨_, rfl⟩

theorem grantFor_id {db : Database} {id : Text} {grant : ApprovalGrant}
    (h : db.grantFor id = some grant) : grant.approvalRequestId = id := by
  simpa using List.find?_some h

theorem goesOn_updateGrants {db : Database} {id : Text} {grant : ApprovalGrant}
    {filter : ApprovalGrant → Bool} (status : GrantStatus) (h : db.grantFor id = some grant)
    (hfilter : filter grant = true → grant.status = .active) :
    ∃ next, (db.updateGrants filter status).grantFor id = some next ∧ GoesOn grant next := by
  rw [grantFor_updateGrants, h]
  refine ⟨_, rfl, ?_⟩
  dsimp only
  by_cases hmatch : filter grant = true
  · rw [if_pos hmatch]
    exact .inr ⟨hfilter hmatch, status, rfl⟩
  · rw [if_neg hmatch]
    exact .inl rfl

theorem goesOn_available {α : Type} {db : Database} {id : Text} {grant : ApprovalGrant}
    {answer : Answer} {result : Checked α × Database} (h : db.grantFor id = some grant)
    (hresult : ∃ next, result.2.grantFor id = some next ∧ GoesOn grant next) :
    ∃ next, (answer.available db result).2.grantFor id = some next ∧ GoesOn grant next := by
  unfold Answer.available
  split
  · exact ⟨grant, h, .inl rfl⟩
  · exact hresult

theorem goesOn_updateRequest {db : Database} {id : Text} {grant : ApprovalGrant}
    {answer : Answer} (h : db.grantFor id = some grant) (other : Text)
    (filter : ApprovalRequest → Bool) (update : ApprovalRequest → ApprovalRequest) :
    ∃ next, (answer.available db (db.updateRequest other filter update)).2.grantFor id = some next ∧
      GoesOn grant next := by
  apply goesOn_available h
  unfold Database.updateRequest
  split <;> exact ⟨grant, h, .inl rfl⟩

theorem grantFor_performAt {db : Database} {id : Text} {grant : ApprovalGrant}
    (h : db.grantFor id = some grant) (op : Op) (answer : Answer) :
    ∃ next, (performAt db op answer).2.grantFor id = some next ∧ GoesOn grant next := by
  have hread {α : Type} {reply : Checked α} :
      ∃ next, (answer.available db (reply, db)).2.grantFor id = some next ∧ GoesOn grant next :=
    goesOn_available h ⟨grant, h, .inl rfl⟩
  cases op with
  | clock => exact ⟨grant, h, .inl rfl⟩
  | assertAuthorized => exact ⟨grant, h, .inl rfl⟩
  | findRequest id organizationId => exact hread
  | findRequestOf ids organizationId workflowId workflowVersion => exact hread
  | findWorkflow organizationId stableWorkflowId version => exact hread
  | matchingWorkflows => exact hread
  | approverIdentity organizationId actorId => exact hread
  | findDecisions organizationId id => exact hread
  | findGrant id organizationId => exact hread
  | expireRequest other revision => exact goesOn_updateRequest h other _ _
  | record recording =>
    apply goesOn_available h
    unfold Database.record
    split
    · exact ⟨grant, h, .inl rfl⟩
    · split
      · exact ⟨grant, h, .inl rfl⟩
      · dsimp only
        split
        · exact ⟨grant, grantFor_withGrant h _ _, .inl rfl⟩
        · exact ⟨grant, h, .inl rfl⟩
  | closeRequest other organizationId closure => exact goesOn_updateRequest h other _ _
  | closeGrant other organizationId closure =>
    apply goesOn_available h
    apply goesOn_updateGrants _ h
    intro hfilter
    simp only [decide_eq_true_eq] at hfilter
    exact hfilter.2.2
  | operationalAccess approved => exact ⟨grant, h, .inl rfl⟩
  | consume other =>
    apply goesOn_available h
    rcases consume_cases db other with ⟨failure, hconsume⟩ | ⟨found, request, hfound, hconsume⟩
    · rw [hconsume]
      exact ⟨grant, h, .inl rfl⟩
    · rw [hconsume]
      apply goesOn_updateGrants _ h
      intro hsame
      rw [decide_eq_true_eq, grantFor_id h] at hsame
      subst hsame
      obtain rfl := Option.some.inj (h.symm.trans hfound.grantFor)
      exact hfound.active
  | execute approvals => exact ⟨grant, h, .inl rfl⟩
  | failRequest other organizationId recoveryRequired reasonCode =>
    exact goesOn_updateRequest h other _ _

theorem grantFor_perform {db : Database} {id : Text} {grant : ApprovalGrant}
    (h : db.grantFor id = some grant) (op : Op) (answer : Answer) :
    ∃ next, (perform db op answer).2.grantFor id = some next ∧ GoesOn grant next := by
  have hgrant : { db with clock := db.clock + answer.elapsed }.grantFor id = some grant := h
  exact grantFor_performAt hgrant op answer

def RequestStatus.isUsed (status : RequestStatus) : Bool :=
  [.consumed, .executionFailed, .recoveryRequired].contains status

structure UsedUp (db : Database) (id : Text) : Prop where
  grant : ∃ grant, db.grantFor id = some grant ∧ grant.status = .consumed
  request : ∃ request, db.requests id = some request ∧ request.status.isUsed = true

theorem moves_used {status next : RequestStatus} (h : status.Moves next)
    (hused : status.isUsed = true) : next.isUsed = true := by
  cases h with
  | expire hopen => rcases isOpen_iff.mp hopen with rfl | rfl <;> cases hused
  | close closure hclosable =>
    simp only [RequestStatus.isClosable, List.contains_cons, List.contains_nil, Bool.or_eq_true,
      beq_iff_eq, Bool.false_eq_true, or_false] at hclosable
    rcases hclosable with rfl | rfl | rfl <;> cases hused
  | consume => rfl
  | fail recoveryRequired => cases recoveryRequired <;> rfl

theorem UsedUp.perform {db : Database} {id : Text} (h : UsedUp db id) (op : Op) (answer : Answer) :
    UsedUp (perform db op answer).2 id := by
  obtain ⟨⟨grant, hgrant, hconsumed⟩, request, hrequest, hused⟩ := h
  constructor
  · obtain ⟨next, hnext, rfl | ⟨hactive, -⟩⟩ := grantFor_perform hgrant op answer
    · exact ⟨next, hnext, hconsumed⟩
    · rw [hconsumed] at hactive
      cases hactive
  · rcases perform_cases db op answer with hstep | ⟨recording, stored, -, hstep⟩
    · rcases hstep.requests id with hsame | ⟨stored, updated, hstored, hupdated, status, reason, hmoves, rfl⟩
      · exact ⟨request, hsame.trans hrequest, hused⟩
      · obtain rfl := Option.some.inj (hrequest.symm.trans hstored)
        exact ⟨_, hupdated, moves_used hmoves hused⟩
    · by_cases hsame : id = recording.decision.approvalRequestId
      · subst hsame
        obtain rfl := Option.some.inj (hrequest.symm.trans hstep.found)
        have hguard := hstep.guard
        simp only [Recording.guard, decide_eq_true_eq] at hguard
        rcases isOpen_iff.mp hguard.2.2.1 with hopen | hopen <;> rw [hopen] at hused <;> cases hused
      · exact ⟨request, (hstep.others id hsame).trans hrequest, hused⟩

theorem UsedUp.not_consumable {db : Database} {id : Text} (h : UsedUp db id) (answer : Answer) :
    (Approvals.perform db (.consume id) answer).1 ≠ .ok () := by
  intro hreply
  obtain ⟨hconsumed, -⟩ := available_ok hreply
  rcases consume_cases { db with clock := db.clock + answer.elapsed } id with
    ⟨failure, hconsume⟩ | ⟨grant, request, hconsumable, -⟩
  · rw [hconsume] at hconsumed
    cases hconsumed
  · obtain ⟨found, hfound, hstatus⟩ := h.grant
    obtain rfl := Option.some.inj (hfound.symm.trans hconsumable.grantFor)
    rw [hconsumable.active] at hstatus
    cases hstatus

theorem usedUp_of_consumed {db : Database} {id : Text} {answer : Answer}
    (h : (perform db (.consume id) answer).1 = .ok ()) :
    UsedUp (perform db (.consume id) answer).2 id := by
  obtain ⟨hconsumed, hnext⟩ := available_ok h
  rcases consume_cases { db with clock := db.clock + answer.elapsed } id with
    ⟨failure, hconsume⟩ | ⟨grant, request, hconsumable, hconsume⟩
  · rw [hconsume] at hconsumed
    cases hconsumed
  · rw [hconsume] at hnext
    change UsedUp (answer.available _ (Database.consume _ id)).2 id
    rw [hconsume, hnext]
    have hid := Database.indexed _ id request hconsumable.requests
    constructor
    · refine ⟨_, (grantFor_updateGrants _ _ _ id).trans (by rw [hconsumable.grantFor]; rfl), ?_⟩
      simp [grantFor_id hconsumable.grantFor]
    · refine ⟨request.moveTo .consumed request.invalidationReasonCode, ?_, rfl⟩
      rw [requests_store]
      exact if_pos hid.symm

def Agreeing (db : Database) : Prop :=
  ∀ id grant, db.grantFor id = some grant →
    ∃ request, db.requests id = some request ∧ grant.expiresAt = request.expiresAt

theorem expiresAt_perform {db : Database} {id : Text} {request : ApprovalRequest}
    (h : db.requests id = some request) (op : Op) (answer : Answer) :
    ∃ next, (perform db op answer).2.requests id = some next ∧
      next.expiresAt = request.expiresAt := by
  rcases perform_cases db op answer with hstep | ⟨recording, stored, -, hstep⟩
  · rcases hstep.requests id with hsame | ⟨stored, updated, hstored, hupdated, status, reason, -, rfl⟩
    · exact ⟨request, hsame.trans h, rfl⟩
    · obtain rfl := Option.some.inj (h.symm.trans hstored)
      exact ⟨_, hupdated, rfl⟩
  · by_cases hsame : id = recording.decision.approvalRequestId
    · subst hsame
      obtain rfl := Option.some.inj (h.symm.trans hstep.found)
      exact ⟨_, hstep.updated, rfl⟩
    · exact ⟨request, (hstep.others id hsame).trans h, rfl⟩

theorem grantFor_eq_none {db : Database} {id : Text} :
    db.grantFor id = none ↔ id ∉ db.grants.map ApprovalGrant.approvalRequestId := by
  simp [Database.grantFor]

theorem grantFor_issued {db : Database} {op : Op} {answer : Answer} {id : Text}
    {grant : ApprovalGrant} (hnone : db.grantFor id = none)
    (h : (perform db op answer).2.grantFor id = some grant) :
    ∃ request, (perform db op answer).2.requests id = some request ∧
      grant.expiresAt = request.expiresAt := by
  rw [grantFor_eq_none] at hnone
  have hmem := List.mem_of_find?_eq_some h
  have hid := grantFor_id h
  have hnew : grant ∉ db.grants := fun hold => hnone (hid ▸ List.mem_map_of_mem hold)
  rcases perform_cases db op answer with hstep | ⟨recording, stored, -, hstep⟩
  · have hnext := List.mem_map_of_mem (f := ApprovalGrant.approvalRequestId) hmem
    rw [hstep.grants, hid] at hnext
    exact absurd hnext hnone
  · rw [hstep.grants] at hmem
    split at hmem
    · unfold withGrant at hmem
      split at hmem
      · exact absurd hmem hnew
      · rw [List.mem_append, List.mem_singleton] at hmem
        obtain rfl := hmem.resolve_left hnew
        have hsame : id = recording.decision.approvalRequestId :=
          hid.symm.trans (db.indexed _ stored hstep.found)
        subst hsame
        exact ⟨_, hstep.updated, rfl⟩
    · exact absurd hmem hnew

theorem Agreeing.perform {db : Database} (h : Agreeing db) (op : Op) (answer : Answer) :
    Agreeing (perform db op answer).2 := by
  intro id next hnext
  cases hgrant : db.grantFor id with
  | none => exact grantFor_issued hgrant hnext
  | some grant =>
    obtain ⟨request, hrequest, hexpires⟩ := h id grant hgrant
    obtain ⟨updated, hupdated, hsame⟩ := expiresAt_perform hrequest op answer
    obtain ⟨found, hfound, hgoesOn⟩ := grantFor_perform hgrant op answer
    obtain rfl := Option.some.inj (hnext.symm.trans hfound)
    refine ⟨updated, hupdated, ?_⟩
    rw [hsame, ← hexpires]
    rcases hgoesOn with rfl | ⟨-, status, rfl⟩ <;> rfl

def Entry.invocation : Entry → Option Text
  | .invoke execution => some execution.invocationId
  | _ => none

def Approved.isSpent (approved : Approved) : Bool :=
  approved.grant.singleUse ∧ approved.grant.status = .consumed

/-- An operation gets a thread past the grant of a request: it consumes the grant, or it is allowed
for a grant that was found consumed. -/
def Passes (w : ApprovalWorld) (call : ℕ × Answer) (id : Text) : Prop :=
  (w.Next call.1 (.consume id) ∧ (perform w.store (.consume id) call.2).1 = .ok ()) ∨
    ∃ approved : Approved, approved.request.approvalRequestId = id ∧ approved.isSpent = true ∧
      w.Next call.1 (.operationalAccess approved) ∧
      (perform w.store (.operationalAccess approved) call.2).1 = .ok ()

def Executed (w : ApprovalWorld) (i : ℕ) (id : Text) : Prop :=
  ∃ approvals reply, w.Performed i (.execute approvals) reply ∧
    ∃ approved ∈ approvals, approved.grant.singleUse = true ∧
      approved.request.approvalRequestId = id

def Usable (db : Database) (now : Int) (id : Text) : Prop :=
  ∃ grant request, db.grantFor id = some grant ∧ db.requests id = some request ∧
    (grant.status = .active ∨ grant.status = .consumed) ∧ request.status.isGranted = true ∧
    now < grant.expiresAt ∧ now < request.expiresAt

/-- A grant that was found consumed is used only by the invocation that it was consumed for, and
before it expires. -/
def RetriesOnly (entries : ℕ → Entry) (w : ApprovalWorld) (call : ℕ × Answer) : Prop :=
  ∀ approved : Approved, approved.isSpent = true → w.Next call.1 (.operationalAccess approved) →
    (∃ j, w.Performed j (.consume approved.request.approvalRequestId) (.ok ()) ∧
      (entries j).invocation = (entries call.1).invocation) ∧
    ∀ grant, w.store.grantFor approved.request.approvalRequestId = some grant →
      w.store.clock + call.2.elapsed < grant.expiresAt

abbrev usages (w : ApprovalWorld) : ℕ → Usage := w.states usage fun _ => {}

structure Fenced (entries : ℕ → Entry) (w : ApprovalWorld) : Prop where
  agreeing : Agreeing w.store
  usedUp : ∀ i id, id ∈ (usages w i).consumed → UsedUp w.store id
  once : ∀ i j id, id ∈ (usages w i).consumed → id ∈ (usages w j).consumed → i = j
  settled : ∀ i, ∀ approved ∈ (usages w i).settled, approved.grant.singleUse = true →
    ∃ j, approved.request.approvalRequestId ∈ (usages w j).consumed ∧
      (entries j).invocation = (entries i).invocation
  executed : ∀ i approvals reply, w.Performed i (.execute approvals) reply →
    ∀ approved ∈ approvals, (usages w i).Covers approved

theorem mem_consumed_next {s : Usage} {id : Text} (h : id ∈ s.consumed) (op : Op)
    (reply : Reply op) : id ∈ (usage.next s op reply).consumed := by
  cases op with
  | consume other =>
    cases reply with
    | error failure => exact h
    | ok _ => exact List.mem_cons_of_mem other h
  | operationalAccess approved =>
    cases reply with
    | error failure => exact h
    | ok _ =>
      change id ∈ (if approved.isSettled then { s with settled := approved :: s.settled } else s).consumed
      split <;> exact h
  | _ => exact h

theorem consumed_next {s : Usage} {id : Text} {op : Op} {reply : Reply op}
    (h : id ∈ (usage.next s op reply).consumed) : id ∈ s.consumed ∨
      (⟨op, reply⟩ : (op : Op) × Reply op) = ⟨.consume id, .ok ()⟩ := by
  cases op with
  | consume other =>
    cases reply with
    | error failure => exact .inl h
    | ok _ =>
      rcases List.mem_cons.mp h with rfl | hold
      · exact .inr rfl
      · exact .inl hold
  | operationalAccess approved =>
    cases reply with
    | error failure => exact .inl h
    | ok _ =>
      change id ∈ (if approved.isSettled then { s with settled := approved :: s.settled } else s).consumed at h
      split at h <;> exact .inl h
  | _ => exact .inl h

theorem settled_next {s : Usage} {approved : Approved} {op : Op} {reply : Reply op}
    (h : approved ∈ (usage.next s op reply).settled) : approved ∈ s.settled ∨
      approved.isSettled = true ∧
        (⟨op, reply⟩ : (op : Op) × Reply op) = ⟨.operationalAccess approved, .ok ()⟩ := by
  cases op with
  | consume other =>
    cases reply with
    | error failure => exact .inl h
    | ok _ => exact .inl h
  | operationalAccess other =>
    cases reply with
    | error failure => exact .inl h
    | ok _ =>
      change approved ∈ (if other.isSettled then { s with settled := other :: s.settled } else s).settled at h
      split at h
      · next hsettled =>
        rcases List.mem_cons.mp h with rfl | hold
        · exact .inr ⟨hsettled, rfl⟩
        · exact .inl hold
      · exact .inl h
  | _ => exact .inl h

theorem isSpent_of_settled {approved : Approved} (h : approved.isSettled = true)
    (hsingle : approved.grant.singleUse = true) : approved.isSpent = true := by
  simp only [Approved.isSettled, hsingle, Bool.not_true, Bool.false_eq_true, or_false,
    decide_eq_true_eq] at h
  simp [Approved.isSpent, hsingle, h]

theorem consumed_of_performed {w : ApprovalWorld} {i : ℕ} {id : Text}
    (h : w.Performed i (.consume id) (.ok ())) : id ∈ (usages w i).consumed :=
  World.states_of_performed (P := fun s : Usage => id ∈ s.consumed)
    (fun _ op reply hs => mem_consumed_next hs op reply) (fun _ => List.mem_cons_self) h

theorem Fenced.turn {entries : ℕ → Entry} {w : ApprovalWorld} {i : ℕ} {answer : Answer} {op : Op}
    {rest : Reply op → Program Op Reply (Except Failure Unit)} (h : Fenced entries w)
    (hguard : RetriesOnly entries w (i, answer)) (hthread : w.thread i = .perform op rest)
    (hallowed : usage.allowed (usages w i) op) : Fenced entries (w.turn perform (i, answer)) := by
  have hstates : usages (w.turn perform (i, answer)) = Function.update (usages w) i
      (usage.next (usages w i) op (perform w.store op answer).1) :=
    World.states_turn hthread usage _ answer
  have hstore : (w.turn perform (i, answer)).store = (perform w.store op answer).2 := by
    rw [World.turn_perform hthread]
  have hconsumed {j : ℕ} {id : Text} (hj : id ∈ (usages w j).consumed) :
      id ∈ (usages (w.turn perform (i, answer)) j).consumed := by
    rw [hstates]
    by_cases hji : j = i
    · subst hji
      rw [Function.update_self]
      exact mem_consumed_next hj _ _
    · rwa [Function.update_of_ne hji]
  -- A thread has consumed a grant before, or it is this one and consumes it now.
  have hcases {j : ℕ} {id : Text} (hj : id ∈ (usages (w.turn perform (i, answer)) j).consumed) :
      id ∈ (usages w j).consumed ∨ j = i ∧
        (⟨op, (perform w.store op answer).1⟩ : (op : Op) × Reply op) = ⟨.consume id, .ok ()⟩ := by
    rw [hstates] at hj
    by_cases hji : j = i
    · subst hji
      rw [Function.update_self] at hj
      exact (consumed_next hj).imp_right fun hnew => ⟨rfl, hnew⟩
    · rw [Function.update_of_ne hji] at hj
      exact .inl hj
  have hfirst {j : ℕ} {id : Text} (hj : id ∈ (usages w j).consumed) :
      (⟨op, (perform w.store op answer).1⟩ : (op : Op) × Reply op) ≠ ⟨.consume id, .ok ()⟩ := by
    intro hnew
    obtain ⟨hop, hreply⟩ := Sigma.mk.inj hnew
    subst hop
    exact (h.usedUp j id hj).not_consumable answer (eq_of_heq hreply)
  constructor
  · rw [hstore]
    exact h.agreeing.perform op answer
  · intro j id hj
    rw [hstore]
    rcases hcases hj with hold | ⟨rfl, hnew⟩
    · exact (h.usedUp j id hold).perform op answer
    · obtain ⟨hop, hreply⟩ := Sigma.mk.inj hnew
      subst hop
      exact usedUp_of_consumed (eq_of_heq hreply)
  · intro j k id hj hk
    rcases hcases hj with hjold | ⟨hji, hnew⟩
    · rcases hcases hk with hkold | ⟨-, hnew⟩
      · exact h.once j k id hjold hkold
      · exact absurd hnew (hfirst hjold)
    · rcases hcases hk with hkold | ⟨hki, -⟩
      · exact absurd hnew (hfirst hkold)
      · exact hji.trans hki.symm
  · intro j approved hmem hsingle
    rw [hstates] at hmem
    have hold (hj : approved ∈ (usages w j).settled) :
        ∃ k, approved.request.approvalRequestId ∈
            (usages (w.turn perform (i, answer)) k).consumed ∧
          (entries k).invocation = (entries j).invocation := by
      obtain ⟨k, hk, hsame⟩ := h.settled j approved hj hsingle
      exact ⟨k, hconsumed hk, hsame⟩
    by_cases hji : j = i
    · subst hji
      rw [Function.update_self] at hmem
      rcases settled_next hmem with hj | ⟨hsettled, hnew⟩
      · exact hold hj
      · obtain ⟨hop, -⟩ := Sigma.mk.inj hnew
        subst hop
        obtain ⟨⟨k, hk, hsame⟩, -⟩ :=
          hguard approved (isSpent_of_settled hsettled hsingle) ⟨rest, hthread⟩
        exact ⟨k, hconsumed (consumed_of_performed hk), hsame⟩
    · rw [Function.update_of_ne hji] at hmem
      exact hold hmem
  · intro j approvals reply hperformed approved hmem
    have hold (hcovers : (usages w j).Covers approved) :
        (usages (w.turn perform (i, answer)) j).Covers approved := by
      rw [hstates]
      by_cases hji : j = i
      · subst hji
        rw [Function.update_self]
        exact extends_next _ _ _ approved hcovers
      · rwa [Function.update_of_ne hji]
    unfold World.Performed at hperformed
    rw [World.turn_perform hthread] at hperformed
    rcases List.mem_append.mp hperformed with hearlier | hlast
    · exact hold (h.executed j approvals reply hearlier approved hmem)
    · cases List.mem_singleton.mp hlast
      exact hold (hallowed approved hmem)

theorem invariant_fenced (entries : ℕ → Entry) :
    Invariant perform usage (fun _ => {}) (RetriesOnly entries) (Fenced entries) where
  replies _ _ _ _ _ _ _ _ _ := trivial
  keeps _ _ _ _ _ hfenced hguard hthread hallowed := hfenced.turn hguard hthread hallowed

theorem fenced_after {entries : ℕ → Entry} {db : Database} {calls : List (ℕ × Answer)}
    (hagreeing : Agreeing db) (hguard : Guarded (World.turn perform) (RetriesOnly entries)
      (.initial db fun i => (entries i).program) calls) :
    Fenced entries (worldAfter db entries calls) := by
  have hprograms : (World.initial db fun i => (entries i).program).Monitored usage (fun _ => {})
      fun _ _ _ => True := fun i => usage_program (entries i)
  have hinitial : Fenced entries (.initial db fun i => (entries i).program) := by
    refine ⟨hagreeing, ?_, ?_, ?_, ?_⟩
    · exact fun i id hmem => absurd hmem List.not_mem_nil
    · exact fun i j id hmem _ => absurd hmem List.not_mem_nil
    · exact fun i approved hmem _ => absurd hmem List.not_mem_nil
    · exact fun i approvals reply hmem => absurd hmem List.not_mem_nil
  exact ((invariant_fenced entries).after hinitial hprograms hguard).1

theorem Fenced.consumer {entries : ℕ → Entry} {w : ApprovalWorld} (h : Fenced entries w) {i : ℕ}
    {id : Text} (hexecuted : Executed w i id) :
    ∃ j, id ∈ (usages w j).consumed ∧ (entries j).invocation = (entries i).invocation := by
  obtain ⟨approvals, reply, hperformed, approved, hmem, hsingle, rfl⟩ := hexecuted
  rcases h.executed i approvals reply hperformed approved hmem with hconsumed | hsettled
  · exact ⟨i, hconsumed, rfl⟩
  · exact h.settled i approved hsettled hsingle

theorem Fenced.usable {entries : ℕ → Entry} {w : ApprovalWorld} (h : Fenced entries w)
    {call : ℕ × Answer} {id : Text} (hguard : RetriesOnly entries w call)
    (hpasses : Passes w call id) : Usable w.store (w.store.clock + call.2.elapsed) id := by
  rcases hpasses with ⟨-, hreply⟩ | ⟨approved, rfl, hspent, hnext, -⟩
  · obtain ⟨hconsumed, -⟩ := available_ok hreply
    rcases consume_cases { w.store with clock := w.store.clock + call.2.elapsed } id with
      ⟨failure, hconsume⟩ | ⟨grant, request, hconsumable, -⟩
    · rw [hconsume] at hconsumed
      cases hconsumed
    · obtain ⟨found, hfound, hexpires⟩ := h.agreeing id grant hconsumable.grantFor
      obtain rfl := Option.some.inj (hfound.symm.trans hconsumable.requests)
      refine ⟨grant, found, hconsumable.grantFor, hfound, .inl hconsumable.active, ?_,
        hconsumable.unexpired, hexpires ▸ hconsumable.unexpired⟩
      rw [hconsumable.approved]
      rfl
  · obtain ⟨⟨j, hj, -⟩, hunexpired⟩ := hguard approved hspent hnext
    obtain ⟨⟨grant, hgrant, hconsumed⟩, request, hrequest, hused⟩ :=
      h.usedUp j _ (consumed_of_performed hj)
    obtain ⟨found, hfound, hexpires⟩ := h.agreeing _ grant hgrant
    obtain rfl := Option.some.inj (hfound.symm.trans hrequest)
    have hnow := hunexpired grant hgrant
    refine ⟨grant, found, hgrant, hfound, .inr hconsumed, ?_, hnow, hexpires ▸ hnow⟩
    cases hstatus : found.status <;> rw [hstatus] at hused <;> first | rfl | cases hused

theorem exists_passes {entries : ℕ → Entry} {db : Database} {calls : List (ℕ × Answer)} {i : ℕ}
    {id : Text} (h : Fenced entries (worldAfter db entries calls))
    (hexecuted : Executed (worldAfter db entries calls) i id) :
    ∃ before answer rest, calls = before ++ (i, answer) :: rest ∧
      Passes (worldAfter db entries before) (i, answer) id := by
  obtain ⟨approvals, reply, hperformed, approved, hmem, hsingle, rfl⟩ := hexecuted
  have hcovers := h.executed i approvals reply hperformed approved hmem
  have hstart : ¬(usages (.initial db fun i => (entries i).program) i).Covers approved := by
    intro hcovers
    rcases hcovers with hmem | hmem <;> exact absurd hmem List.not_mem_nil
  obtain ⟨before, answer, rest, op, next, hcalls, hthread, hbefore, hafter⟩ :=
    World.exists_entry (P := fun s : Usage => s.Covers approved) hstart hcovers
  refine ⟨before, answer, rest, hcalls, ?_⟩
  rcases hafter with hconsumed | hsettled
  · rcases consumed_next hconsumed with hold | hnew
    · exact absurd (.inl hold) hbefore
    · obtain ⟨hop, hreply⟩ := Sigma.mk.inj hnew
      subst hop
      exact .inl ⟨⟨next, hthread⟩, eq_of_heq hreply⟩
  · rcases settled_next hsettled with hold | ⟨hisSettled, hnew⟩
    · exact absurd (.inr hold) hbefore
    · obtain ⟨hop, hreply⟩ := Sigma.mk.inj hnew
      subst hop
      exact .inr ⟨approved, rfl, isSpent_of_settled hisSettled hsingle, ⟨next, hthread⟩,
        eq_of_heq hreply⟩

/-- When a grant that was found consumed is used only for a retry, and in time, each grant that may
be used once lets one invocation execute, and only while it can be used. -/
theorem executed_by_one_invocation {entries : ℕ → Entry} {db : Database}
    {calls : List (ℕ × Answer)} (hagreeing : Agreeing db)
    (hguard : Guarded (World.turn perform) (RetriesOnly entries)
      (.initial db fun i => (entries i).program) calls) :
    (∀ i j id, Executed (worldAfter db entries calls) i id →
      Executed (worldAfter db entries calls) j id →
        (entries i).invocation = (entries j).invocation) ∧
    (∀ i id, Executed (worldAfter db entries calls) i id →
      ∃ before answer rest, calls = before ++ (i, answer) :: rest ∧
        Passes (worldAfter db entries before) (i, answer) id) ∧
    ∀ before call rest id, calls = before ++ call :: rest →
      Passes (worldAfter db entries before) call id →
        Usable (worldAfter db entries before).store
          ((worldAfter db entries before).store.clock + call.2.elapsed) id := by
  have hfenced := fenced_after hagreeing hguard
  refine ⟨?_, ?_, ?_⟩
  · intro i j id hi hj
    obtain ⟨k, hk, hki⟩ := hfenced.consumer hi
    obtain ⟨l, hl, hlj⟩ := hfenced.consumer hj
    obtain rfl := hfenced.once k l id hk hl
    exact hki.symm.trans hlj
  · exact fun i id hexecuted => exists_passes hfenced hexecuted
  · intro before call rest id hcalls hpasses
    subst hcalls
    rw [guarded_append] at hguard
    exact (fenced_after hagreeing hguard.1).usable hguard.2.1 hpasses

private def approvedRequest : ApprovalRequest where
  approvalRequestId := ascii "apr"
  organizationId := ascii "org"
  workflowId := ascii "apw"
  workflowVersion := 1
  requesterActorId := ascii "requester"
  permission := ascii "connection.invoke"
  resourceId := ascii "connection"
  requestFingerprint := ascii "fingerprint"
  expiresAt := 3600000
  status := .approved
  currentStageSequence := 1
  revision := 1

private def grantedDatabase : Database :=
  Database.store
    { clock := 0
      requests := fun _ => none
      indexed := indexed_none
      decisions := []
      grants := [grantOf approvedRequest true]
      workflows := fun _ _ _ => none } approvedRequest

private def releaseWorkflow : ApprovalWorkflow where
  organizationId := ascii "org"
  stableWorkflowId := ascii "apw"
  version := 1
  name := ascii "Release"
  stages := []
  expirationMs := .undefined

private def durableEntry (i : ℕ) : Entry :=
  .invoke {
    invocationId := ascii "inv_" ++ decimalDigits i
    durable := true
    action := {
      organizationId := ascii "org"
      requesterActorId := ascii "requester"
      permission := ascii "connection.invoke"
      resourceId := ascii "connection"
      approvalRequestIds := [ascii "apr"]
      fingerprint := fun _ => ascii "fingerprint" } }

private def workerTurn (i : ℕ) : ℕ × Answer := (i, { workflows := [releaseWorkflow] })

private def workerRun : List (ℕ × Answer) :=
  List.replicate 8 (workerTurn 0) ++ List.replicate 7 (workerTurn 1)

private def executionsOf (w : ApprovalWorld) : List (ℕ × List Approved) :=
  w.log.filterMap fun e => match e.2.1 with
    | .execute approvals => some (e.1, approvals)
    | _ => none

private def visiblyExecuted (w : ApprovalWorld) (i : ℕ) (id : Text) : Bool :=
  (executionsOf w).any fun e => e.1 = i ∧ e.2.any fun approved =>
    approved.grant.singleUse ∧ approved.request.approvalRequestId = id

private theorem executed_of_visibly {w : ApprovalWorld} {i : ℕ} {id : Text}
    (h : visiblyExecuted w i id = true) : Executed w i id := by
  simp only [visiblyExecuted, executionsOf, List.any_eq_true, List.mem_filterMap,
    decide_eq_true_eq] at h
  obtain ⟨⟨_, approvals⟩, ⟨⟨j, op, reply⟩, hmem, hop⟩, hi, approved, happroved, hgrant⟩ := h
  cases op with
  | execute found =>
    obtain ⟨rfl, rfl⟩ := Prod.mk.inj (Option.some.inj hop)
    subst hi
    exact ⟨found, reply, hmem, approved, happroved, hgrant⟩
  | _ => cases hop

/-- Both invocations are executed with one grant that may be used once. -/
theorem executed_by_two_invocations :
    Executed (worldAfter grantedDatabase durableEntry workerRun) 0 (ascii "apr") ∧
      Executed (worldAfter grantedDatabase durableEntry workerRun) 1 (ascii "apr") ∧
      (durableEntry 0).invocation ≠ (durableEntry 1).invocation := by
  refine ⟨executed_of_visibly ?_, executed_of_visibly ?_, by decide⟩
  · decide
  · decide

private def visiblyRetries (entries : ℕ → Entry) (w : ApprovalWorld) (call : ℕ × Answer) : Bool :=
  match w.thread call.1 with
  | .perform (.operationalAccess approved) _ => !approved.isSpent ||
    (w.log.any fun e => match e with
      | (j, ⟨.consume id, .ok _⟩) => id = approved.request.approvalRequestId ∧
        (entries j).invocation = (entries call.1).invocation
      | _ => false) && (w.store.grantFor approved.request.approvalRequestId).all fun grant =>
        w.store.clock + call.2.elapsed < grant.expiresAt
  | _ => true

private def visiblyRetriesRun (entries : ℕ → Entry) : ApprovalWorld → List (ℕ × Answer) → Bool
  | _, [] => true
  | w, call :: calls =>
    visiblyRetries entries w call && visiblyRetriesRun entries (w.turn perform call) calls

private theorem retriesOnly_of_visibly {entries : ℕ → Entry} {w : ApprovalWorld}
    {call : ℕ × Answer} (h : visiblyRetries entries w call = true) : RetriesOnly entries w call := by
  intro approved hspent hnext
  obtain ⟨next, hthread⟩ := hnext
  simp only [visiblyRetries, hthread, hspent, Bool.not_true, Bool.false_or, Bool.and_eq_true,
    List.any_eq_true] at h
  obtain ⟨⟨⟨j, op, reply⟩, hmem, hconsumed⟩, hunexpired⟩ := h
  refine ⟨?_, fun grant hgrant => by simpa [hgrant] using hunexpired⟩
  cases op with
  | consume id =>
    cases reply with
    | error failure => cases hconsumed
    | ok _ =>
      simp only [decide_eq_true_eq] at hconsumed
      obtain ⟨rfl, hsame⟩ := hconsumed
      exact ⟨j, hmem, hsame⟩
  | _ => cases hconsumed

private theorem guarded_of_visiblyRetries {entries : ℕ → Entry} {w : ApprovalWorld}
    {calls : List (ℕ × Answer)} (h : visiblyRetriesRun entries w calls = true) :
    Guarded (World.turn perform) (RetriesOnly entries) w calls := by
  induction calls generalizing w with
  | nil => trivial
  | cons call calls ih =>
    obtain ⟨hcall, hcalls⟩ := Bool.and_eq_true_iff.mp h
    exact ⟨retriesOnly_of_visibly hcall, ih hcalls⟩

private theorem agreeing_grantedDatabase : Agreeing grantedDatabase := by
  intro id grant hgrant
  have hid : grant = grantOf approvedRequest true := by
    simpa [grantedDatabase, Database.store] using List.mem_of_find?_eq_some hgrant
  have hsame := grantFor_id hgrant
  subst hid hsame
  exact ⟨approvedRequest, by simp [grantedDatabase, requests_store, grantOf], rfl⟩

/-- The worker that executes an invocation again gets past its grant. -/
theorem executed_by_one_invocation_retried : ∃ before answer rest,
    workerRun = before ++ (1, answer) :: rest ∧
      Passes (worldAfter grantedDatabase (fun _ => durableEntry 0) before) (1, answer)
        (ascii "apr") := by
  have hguard : Guarded (World.turn perform) (RetriesOnly fun _ => durableEntry 0)
      (.initial grantedDatabase fun _ => (durableEntry 0).program) workerRun :=
    guarded_of_visiblyRetries (by decide)
  have hexecuted : Executed (worldAfter grantedDatabase (fun _ => durableEntry 0) workerRun) 1
      (ascii "apr") := executed_of_visibly (by decide)
  exact (executed_by_one_invocation agreeing_grantedDatabase hguard).2.1 1 _ hexecuted

end GhostBridge.Approvals
