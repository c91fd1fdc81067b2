import GhostBridge.Approvals.Stages

/-!
# Steps of the database

One operation moves requests on without a decision, or records a decision with the change of its
request.
-/

namespace GhostBridge.Approvals

open Ecma Machine

structure Undecided (db next : Database) : Prop where
  decisions : next.decisions = db.decisions
  workflows : next.workflows = db.workflows
  grants : next.grants.map ApprovalGrant.approvalRequestId =
    db.grants.map ApprovalGrant.approvalRequestId
  requests : ∀ id, next.requests id = db.requests id ∨ ∃ stored updated,
    db.requests id = some stored ∧ next.requests id = some updated ∧ Moved stored updated

/-- A step in which a decision on a stored request is recorded. -/
structure Recorded (recording : Recording) (stored : ApprovalRequest) (db next : Database) :
    Prop where
  found : db.requests recording.decision.approvalRequestId = some stored
  guard : recording.guard stored = true
  updated : next.requests recording.decision.approvalRequestId = some (recording.update stored)
  others : ∀ id, id ≠ recording.decision.approvalRequestId → next.requests id = db.requests id
  decisions : next.decisions = db.decisions ++ [recording.decision]
  workflows : next.workflows = db.workflows
  grants : next.grants = if recording.nextStatus = .approved then
    withGrant db.grants (recording.update stored) recording.singleUseGrant else db.grants

theorem Undecided.refl (db : Database) : Undecided db db :=
  ⟨rfl, rfl, rfl, fun _ => .inl rfl⟩

theorem Undecided.available {α : Type} {answer : Answer} {db next : Database}
    {result : Checked α × Database} (h : Undecided db result.2)
    (hnext : next = (answer.available db result).2) : Undecided db next := by
  subst hnext
  unfold Answer.available
  split
  · exact Undecided.refl db
  · exact h

theorem requests_store (db : Database) (request : ApprovalRequest) (id : Text) :
    (db.store request).requests id =
      if id = request.approvalRequestId then some request else db.requests id := by
  simp [Database.store, Function.update_apply]

theorem undecided_updateRequest {db : Database} {id : Text} {filter : ApprovalRequest → Bool}
    {status : RequestStatus} {reasonCode : Text}
    (hmoves : ∀ request, filter request = true → request.status.Moves status) :
    Undecided db (db.updateRequest id filter (·.moveTo status reasonCode)).2 := by
  unfold Database.updateRequest
  split
  · exact Undecided.refl db
  · next stored hfound =>
    obtain ⟨hstored, hfilter⟩ := Option.filter_eq_some_iff.mp hfound
    refine ⟨rfl, rfl, rfl, fun other => ?_⟩
    rw [requests_store]
    by_cases hother : other = stored.approvalRequestId
    · have hid : other = id := hother.trans (db.indexed id stored hstored)
      subst hid
      refine .inr ⟨stored, _, hstored, if_pos ?_, status, reasonCode, hmoves stored hfilter, rfl⟩
      exact hother
    · exact .inl (if_neg hother)

theorem map_updateGrants (db : Database) (filter : ApprovalGrant → Bool) (status : GrantStatus) :
    (db.updateGrants filter status).grants.map ApprovalGrant.approvalRequestId =
      db.grants.map ApprovalGrant.approvalRequestId := by
  simp only [Database.updateGrants, List.map_map]
  apply List.map_congr_left
  intro grant _
  simp only [Function.comp_apply]
  split <;> rfl

theorem undecided_consume (db : Database) (id : Text) : Undecided db (db.consume id).2 := by
  unfold Database.consume
  split
  · next grant request hgrant hrequest =>
    split
    · split
      · next happroved =>
        refine ⟨rfl, rfl, map_updateGrants db _ _, fun other => ?_⟩
        rw [requests_store]
        by_cases hother : other = request.approvalRequestId
        · have hid : other = id := hother.trans (db.indexed id request hrequest)
          subst hid
          refine .inr ⟨request, _, hrequest, if_pos hother, .consumed, _, ?_, rfl⟩
          rw [happroved]
          exact .consume
        · exact .inl (if_neg hother)
      · exact Undecided.refl db
    · exact Undecided.refl db
  · exact Undecided.refl db

theorem record_cases (db : Database) (recording : Recording) :
    Undecided db (db.record recording).2 ∨
      ∃ stored, Recorded recording stored db (db.record recording).2 := by
  unfold Database.record
  split
  · exact .inl (Undecided.refl db)
  · split
    · exact .inl (Undecided.refl db)
    · next stored hfound =>
      obtain ⟨hstored, hguard⟩ := Option.filter_eq_some_iff.mp hfound
      have hid : (recording.update stored).approvalRequestId = recording.decision.approvalRequestId :=
        db.indexed _ stored hstored
      right
      dsimp only
      refine ⟨stored, hstored, hguard, ?_, fun other hother => ?_, ?_, ?_, ?_⟩
      · split <;> simp [Database.issueGrant, requests_store, hid]
      · split <;> simp [Database.issueGrant, requests_store, hid, hother]
      · split <;> rfl
      · split <;> rfl
      · split <;> rfl

theorem performAt_cases (db : Database) (op : Op) (answer : Answer) :
    Undecided db (performAt db op answer).2 ∨ ∃ recording stored, op = .record recording ∧
      Recorded recording stored db (performAt db op answer).2 := by
  have hread {α : Type} {reply : Checked α} : Undecided db (answer.available db (reply, db)).2 :=
    (Undecided.refl db).available rfl
  cases op with
  | clock => exact .inl (Undecided.refl db)
  | assertAuthorized => exact .inl (Undecided.refl db)
  | findRequest id organizationId => exact .inl hread
  | findRequestOf ids organizationId workflowId workflowVersion => exact .inl hread
  | findWorkflow organizationId stableWorkflowId version => exact .inl hread
  | matchingWorkflows => exact .inl hread
  | approverIdentity organizationId actorId => exact .inl hread
  | findDecisions organizationId id => exact .inl hread
  | findGrant id organizationId => exact .inl hread
  | expireRequest id revision =>
    refine .inl ((undecided_updateRequest fun request hfilter => ?_).available rfl)
    simp only [decide_eq_true_eq] at hfilter
    exact .expire hfilter.1
  | record recording =>
    by_cases havailable : answer.unavailable = true
    · exact .inl (by simpa [performAt, Answer.available, havailable] using Undecided.refl db)
    · simp only [performAt, Answer.available, havailable, if_false, Bool.false_eq_true]
      exact (record_cases db recording).imp_right fun ⟨stored, h⟩ => ⟨recording, stored, rfl, h⟩
  | closeRequest id organizationId closure =>
    refine .inl ((undecided_updateRequest fun request hfilter => ?_).available rfl)
    simp only [decide_eq_true_eq] at hfilter
    exact .close closure hfilter.2
  | closeGrant id organizationId closure =>
    exact .inl (Undecided.available
      ⟨rfl, rfl, map_updateGrants db _ _, fun _ => .inl rfl⟩ rfl)
  | operationalAccess approved => exact .inl (Undecided.refl db)
  | consume id => exact .inl ((undecided_consume db id).available rfl)
  | execute approvals => exact .inl (Undecided.refl db)
  | failRequest id organizationId recoveryRequired reasonCode =>
    refine .inl ((undecided_updateRequest fun request hfilter => ?_).available rfl)
    simp only [decide_eq_true_eq] at hfilter
    rw [hfilter.2]
    exact .fail recoveryRequired

theorem perform_cases (db : Database) (op : Op) (answer : Answer) :
    Undecided db (perform db op answer).2 ∨ ∃ recording stored, op = .record recording ∧
      Recorded recording stored db (perform db op answer).2 := by
  rcases performAt_cases { db with clock := db.clock + answer.elapsed } op answer with h | h
  · exact .inl ⟨h.decisions, h.workflows, h.grants, h.requests⟩
  · obtain ⟨recording, stored, hop, h⟩ := h
    exact .inr ⟨recording, stored, hop, h.found, h.guard, h.updated, h.others, h.decisions,
      h.workflows, h.grants⟩

end GhostBridge.Approvals
