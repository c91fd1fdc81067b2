import GhostBridge.Approvals.GrantRuns
import GhostBridge.Ecma.Arrays
import GhostBridge.Machine.Program

/-!
# Consumption with its audit

The consumption of the approvals of an action in full: each grant that is consumed is entered in
the audit log before the next one is looked at, and the entry may fail.
-/

namespace GhostBridge.Approvals

open Ecma Machine

/-- `audit('approval.grant.consumed', ...)`. -/
inductive AuditEntry where
  | grantConsumed (approvalRequestId : Text)

abbrev AuditReply : AuditEntry → Type := fun _ => Checked Unit

abbrev AuditedOp := Op ⊕ AuditEntry

abbrev AuditedReply : AuditedOp → Type := EitherReply Reply AuditReply

abbrev AuditedFlow := Async AuditedOp AuditedReply Failure

def performAudited : Perform Database AuditedOp Answer AuditedReply
  | db, .inl op, answer => perform db op answer
  | db, .inr _, answer => (answer.verdict, { db with clock := db.clock + answer.elapsed })

namespace Audited

def operationalAccess (approved : Approved) : AuditedFlow Unit := do
  let reply ← Async.ask (.inl (.operationalAccess approved))
  reply

def consumeGrant (approved : Approved) : AuditedFlow Unit := do
  let reply ← Async.ask (.inl (.consume approved.request.approvalRequestId))
  reply

def audit (approved : Approved) : AuditedFlow Unit := do
  let reply ← Async.ask (.inr (.grantConsumed approved.request.approvalRequestId))
  reply

def consumeApprovalGrants : List Approved → AuditedFlow (List Approved)
  | [] => return []
  | approved :: approvals => do
    operationalAccess approved
    if approved.isSettled then
      let rest ← consumeApprovalGrants approvals
      return approved :: rest
    else
      consumeGrant approved
      audit approved
      let rest ← consumeApprovalGrants approvals
      return approved.consumed :: rest

def useApproval (action : Action) (allowConsumed : Bool) : AuditedFlow (List Approved) := do
  let enforced ← (enforceApproval action allowConsumed).extended
  consumeApprovalGrants enforced

end Audited

abbrev AuditedWorld := World Database AuditedOp AuditedReply (Except Failure (List Approved))

def auditedAfter (db : Database) (programs : ℕ → AuditedFlow (List Approved))
    (calls : List (ℕ × Answer)) : AuditedWorld :=
  after (World.turn performAudited) (.initial db programs) calls

/-- A request has one grant, and a grant that was consumed was consumed with its request. -/
structure Consistent (db : Database) : Prop where
  unique : (db.grants.map ApprovalGrant.approvalRequestId).Nodup
  together : ∀ id grant, db.grantFor id = some grant → grant.status = .consumed → UsedUp db id

theorem mem_grants_iff {db : Database} (h : (db.grants.map ApprovalGrant.approvalRequestId).Nodup)
    (grant : ApprovalGrant) :
    grant ∈ db.grants ↔ db.grantFor grant.approvalRequestId = some grant := by
  constructor
  · intro hmem
    have hfind := find?_key_of_mem h hmem
    simpa only [Database.grantFor, beq_eq_decide] using hfind
  · exact fun hfound => List.mem_of_find?_eq_some hfound

theorem grants_performAt (db : Database) (op : Op) (answer : Answer) :
    (performAt db op answer).2.grants = db.grants ∨
      (∃ request singleUse, (performAt db op answer).2.grants =
        withGrant db.grants request singleUse) ∨
      (∃ filter closure, (performAt db op answer).2.grants =
        (db.updateGrants filter (Closure.grantStatus closure)).grants) ∨
      ∃ other, op = .consume other ∧ (performAt db (.consume other) answer).1 = .ok () ∧
        (performAt db op answer).2.grants =
          (db.updateGrants (·.approvalRequestId = other) .consumed).grants := by
  have hupdate (id : Text) (filter : ApprovalRequest → Bool)
      (update : ApprovalRequest → ApprovalRequest) :
      (answer.available db (db.updateRequest id filter update)).2.grants = db.grants := by
    unfold Answer.available Database.updateRequest
    split
    · rfl
    · split <;> rfl
  have hread {α : Type} (reply : Checked α) :
      (answer.available db (reply, db)).2.grants = db.grants := by
    unfold Answer.available
    split <;> rfl
  cases op with
  | record recording =>
    simp only [performAt, Answer.available]
    split
    · exact .inl rfl
    · unfold Database.record
      split
      · exact .inl rfl
      · split
        · exact .inl rfl
        · dsimp only
          split
          · exact .inr (.inl ⟨_, _, rfl⟩)
          · exact .inl rfl
  | closeGrant id organizationId closure =>
    simp only [performAt, Answer.available]
    split
    · exact .inl rfl
    · exact .inr (.inr (.inl ⟨_, closure, rfl⟩))
  | consume id =>
    simp only [performAt, Answer.available]
    split
    · exact .inl rfl
    · rcases consume_cases db id with ⟨failure, hconsume⟩ | ⟨grant, request, -, hconsume⟩
      · rw [hconsume]
        exact .inl rfl
      · refine .inr (.inr (.inr ⟨id, rfl, ?_, ?_⟩))
        · rw [hconsume]
        · rw [hconsume]
          rfl
  | clock | assertAuthorized | operationalAccess | execute => exact .inl rfl
  | findRequest | findRequestOf | findWorkflow | matchingWorkflows | approverIdentity
  | findDecisions | findGrant => exact .inl (hread _)
  | expireRequest | closeRequest | failRequest => exact .inl (hupdate _ _ _)

theorem unique_withGrant {grants : List ApprovalGrant}
    (h : (grants.map ApprovalGrant.approvalRequestId).Nodup) (request : ApprovalRequest)
    (singleUse : Bool) :
    ((withGrant grants request singleUse).map ApprovalGrant.approvalRequestId).Nodup := by
  unfold withGrant
  split
  · exact h
  · next hnew =>
    rw [List.map_append, List.map_singleton, List.nodup_append]
    refine ⟨h, List.nodup_singleton _, ?_⟩
    intro id hid other hother hsame
    obtain ⟨grant, hgrant, rfl⟩ := List.mem_map.mp hid
    apply hnew
    rw [List.any_eq_true]
    refine ⟨grant, hgrant, ?_⟩
    rw [decide_eq_true_eq, hsame, List.mem_singleton.mp hother]
    rfl

theorem Consistent.perform {db : Database} (h : Consistent db) (op : Op) (answer : Answer) :
    Consistent (perform db op answer).2 := by
  let started : Database := { db with clock := db.clock + answer.elapsed }
  have hstarted (id : Text) : started.grantFor id = db.grantFor id := rfl
  constructor
  · change ((performAt started op answer).2.grants.map _).Nodup
    rcases grants_performAt started op answer with hsame | ⟨request, singleUse, hgrants⟩ |
      ⟨filter, closure, hgrants⟩ | ⟨other, -, -, hgrants⟩
    · rw [hsame]
      exact h.unique
    · rw [hgrants]
      exact unique_withGrant h.unique request singleUse
    · rw [hgrants, map_updateGrants]
      exact h.unique
    · rw [hgrants, map_updateGrants]
      exact h.unique
  · intro id next hnext hconsumed
    have hkept {grant : ApprovalGrant} (hgrant : db.grantFor id = some grant)
        (hstatus : grant.status = .consumed) : UsedUp (Approvals.perform db op answer).2 id :=
      (h.together id grant hgrant hstatus).perform op answer
    have hfound : ((performAt started op answer).2.grants.find? (·.approvalRequestId = id)) =
        some next := hnext
    rcases grants_performAt started op answer with hsame | ⟨request, singleUse, hgrants⟩ |
      ⟨filter, closure, hgrants⟩ | ⟨other, rfl, hreply, hgrants⟩
    · rw [hsame] at hfound
      exact hkept hfound hconsumed
    · rw [hgrants] at hfound
      cases hgrant : db.grantFor id with
      | some grant =>
        have hgrant' : started.grantFor id = some grant := hgrant
        rw [grantFor_withGrant hgrant'] at hfound
        obtain rfl := Option.some.inj hfound
        exact hkept hgrant hconsumed
      | none =>
        have hmem := List.mem_of_find?_eq_some hfound
        unfold withGrant at hmem
        have hnone : next ∉ started.grants := by
          intro hold
          have hid : next.approvalRequestId = id := by simpa using List.find?_some hfound
          exact grantFor_eq_none.mp hgrant (hid ▸ List.mem_map_of_mem hold)
        split at hmem
        · exact absurd hmem hnone
        · rw [List.mem_append, List.mem_singleton] at hmem
          rw [hmem.resolve_left hnone] at hconsumed
          cases hconsumed
    · rw [hgrants] at hfound
      have hfound' : (started.updateGrants filter closure.grantStatus).grantFor id = some next :=
        hfound
      rw [grantFor_updateGrants, Option.map_eq_some_iff] at hfound'
      obtain ⟨grant, hgrant, hsame⟩ := hfound'
      by_cases hfilter : filter grant = true
      · rw [if_pos hfilter] at hsame
        rw [← hsame] at hconsumed
        cases closure <;> cases hconsumed
      · rw [if_neg hfilter] at hsame
        rw [← hsame] at hconsumed
        exact hkept hgrant hconsumed
    · rw [hgrants] at hfound
      have hfound' : (started.updateGrants (·.approvalRequestId = other) .consumed).grantFor id =
          some next := hfound
      rw [grantFor_updateGrants, Option.map_eq_some_iff] at hfound'
      obtain ⟨grant, hgrant, hsame⟩ := hfound'
      by_cases hid : id = other
      · subst hid
        exact usedUp_of_consumed hreply
      · have hfilter : ¬(decide (grant.approvalRequestId = other) = true) := by
          have hgrant' : started.grantFor id = some grant := hgrant
          rw [decide_eq_true_eq, grantFor_id hgrant']
          exact hid
        rw [if_neg hfilter] at hsame
        rw [← hsame] at hconsumed
        exact hkept hgrant hconsumed

end GhostBridge.Approvals
