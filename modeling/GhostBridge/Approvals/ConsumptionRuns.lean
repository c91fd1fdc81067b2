import GhostBridge.Approvals.Consumption

/-!
# Runs of consumption

Each grant is consumed in a transaction of its own, so what throws after the first one leaves it
consumed.
-/

namespace GhostBridge.Approvals

open Ecma Machine

structure Progress where
  watched : Bool
  seen : List Text := []
  consumed : List Text := []

namespace Progress

def next (s : Progress) : (op : AuditedOp) → AuditedReply op → Progress
  | .inl (.findGrant _ _), .ok (some grant) =>
    if grant.status = .consumed then { s with seen := grant.approvalRequestId :: s.seen } else s
  | .inl (.consume id), .ok _ => { s with consumed := id :: s.consumed }
  | _, _ => s

/-- The grant of the request has been consumed. -/
def Covers (s : Progress) (id : Text) : Prop := id ∈ s.seen ∨ id ∈ s.consumed

end Progress

def GoesThrough : (op : AuditedOp) → AuditedReply op → Prop
  | .inl (.operationalAccess _), reply => reply = .ok ()
  | .inl (.consume _), reply => reply = .ok ()
  | .inr _, reply => reply = .ok ()
  | _, _ => True

def FindsGrant : (op : AuditedOp) → AuditedReply op → Prop
  | .inl (.findGrant id _), reply => ∀ grant, reply = .ok (some grant) →
    grant.approvalRequestId = id
  | _, _ => True

def progress : Monitor AuditedOp AuditedReply Progress where
  next := Progress.next
  allowed _ _ := True
  replies s op reply :=
    FindsGrant op reply ∧ (s.watched = true → s.consumed ≠ [] → GoesThrough op reply)

theorem Progress.watched_next (s : Progress) (op : AuditedOp) (reply : AuditedReply op) :
    (progress.next s op reply).watched = s.watched := by
  change (Progress.next s op reply).watched = s.watched
  unfold Progress.next
  split
  · split <;> rfl
  · rfl
  · rfl

theorem Progress.Covers.next {s : Progress} {id : Text} (h : s.Covers id) (op : AuditedOp)
    (reply : AuditedReply op) : (progress.next s op reply).Covers id := by
  change (Progress.next s op reply).Covers id
  unfold Progress.next
  split
  · split
    · exact Or.imp_left (List.mem_cons_of_mem _) h
    · exact h
  · exact Or.imp_right (List.mem_cons_of_mem _) h
  · exact h

/-- How the approvals have been used: none is consumed by what throws, and all that may be used
once by what returns. -/
def Progress.Uses (s t : Progress) (outcome : Checked (List Approved)) : Prop :=
  (∀ id, s.Covers id → t.Covers id) ∧ match outcome with
    | .error _ => t.consumed = []
    | .ok used => ∀ approved ∈ used, approved.grant.singleUse = true →
      t.Covers approved.request.approvalRequestId

theorem uses_rest {approvals : List Approved} {used : Approved} {s t : Progress}
    (hextends : ∀ id, s.Covers id → t.Covers id)
    (hcovers : used.grant.singleUse = true → t.Covers used.request.approvalRequestId)
    (ih : (Audited.consumeApprovalGrants approvals).Follows progress t.Uses t) :
    (do let rest ← Audited.consumeApprovalGrants approvals
        return used :: rest : AuditedFlow _).Follows progress s.Uses t := by
  rw [Async.follows_bind]
  refine ih.mono fun u outcome hr => ?_
  have hlater : ∀ id, s.Covers id → u.Covers id := fun id h => hr.1 id (hextends id h)
  cases outcome with
  | error failure => exact ⟨hlater, hr.2⟩
  | ok rest =>
    rw [Async.goesOn_ok, Async.follows_pure]
    apply And.intro hlater
    intro approved hmem hsingle
    cases List.mem_cons.mp hmem with
    | inl hhead =>
      subst hhead
      exact hr.1 _ (hcovers hsingle)
    | inr hrest => exact hr.2 approved hrest hsingle

theorem consumed_eq_nil_of_error {s : Progress} (hwatched : s.watched = true)
    {op : AuditedOp} {reply : AuditedReply op} (hreply : progress.replies s op reply)
    (hfails : ¬GoesThrough op reply) : s.consumed = [] := by
  by_contra hnot
  exact hfails (hreply.2 hwatched hnot)

theorem uses_step {s t : Progress} {f : Unit → AuditedFlow (List Approved)} (op : AuditedOp)
    (check : AuditedReply op → Checked Unit) (hwatched : t.watched = true)
    (hextends : ∀ id, s.Covers id → t.Covers id)
    (hgoes : ∀ reply, GoesThrough op reply → check reply = .ok ())
    (hfailed : ∀ reply failure, check reply = .error failure → progress.next t op reply = t)
    (hrest : ∀ reply, check reply = .ok () →
      (f ()).Follows progress s.Uses (progress.next t op reply)) :
    ((do let reply ← Async.ask op; check reply : AuditedFlow Unit) >>= f).Follows progress s.Uses
      t := by
  rw [Async.follows_bind]
  apply Async.follows_asking trivial
  intro reply hreply
  rw [Async.follows_monadLift]
  cases hcheck : check reply with
  | ok u => exact hrest reply hcheck
  | error failure =>
    rw [Async.goesOn_error]
    have hnil : t.consumed = [] := by
      apply consumed_eq_nil_of_error hwatched hreply
      intro hgoes'
      rw [hgoes reply hgoes'] at hcheck
      cases hcheck
    rw [hfailed reply failure hcheck]
    exact ⟨hextends, hnil⟩

theorem uses_consumeApprovalGrants {approvals : List Approved} {s : Progress}
    (hwatched : s.watched = true)
    (hseen : ∀ approved ∈ approvals, approved.grant.status = .consumed →
      s.Covers approved.request.approvalRequestId) :
    (Audited.consumeApprovalGrants approvals).Follows progress s.Uses s := by
  induction approvals generalizing s with
  | nil => exact ⟨fun _ h => h, fun approved hmem => absurd hmem List.not_mem_nil⟩
  | cons approved approvals ih =>
    rw [List.forall_mem_cons] at hseen
    unfold Audited.consumeApprovalGrants Audited.operationalAccess
    apply uses_step (.inl (.operationalAccess approved)) (fun reply => reply) hwatched
      (fun _ h => h) (fun reply h => h) (fun reply failure h => rfl)
    intro reply _
    have hsame : progress.next s (.inl (.operationalAccess approved)) reply = s := rfl
    rw [hsame]
    split
    · next hsettled =>
      apply uses_rest (fun _ h => h) _ (ih hwatched hseen.2)
      intro hsingle
      apply hseen.1
      simpa [Approved.isSettled, hsingle] using hsettled
    · unfold Audited.consumeGrant Audited.audit
      apply uses_step (.inl (.consume approved.request.approvalRequestId)) (fun reply => reply)
        hwatched (fun _ h => h) (fun reply h => h)
      · intro reply failure hfailed
        subst hfailed
        rfl
      intro reply hreply
      subst hreply
      have hstill : (progress.next s (.inl (.consume approved.request.approvalRequestId))
          (.ok ())).watched = true := hwatched
      apply uses_step (.inr (.grantConsumed approved.request.approvalRequestId)) (fun reply => reply)
        hstill (fun id h => h.next _ _) (fun reply h => h) (fun reply failure h => rfl)
      intro reply _
      have hsame : progress.next (progress.next s (.inl (.consume
          approved.request.approvalRequestId)) (.ok ())) (.inr (.grantConsumed
          approved.request.approvalRequestId)) reply = progress.next s (.inl (.consume
          approved.request.approvalRequestId)) (.ok ()) := rfl
      rw [hsame]
      apply uses_rest (fun id h => h.next _ _)
      · intro _
        exact .inr List.mem_cons_self
      · apply ih hstill
        exact fun other hother hconsumed => (hseen.2 other hother hconsumed).next _ _

def Op.isUnnoticed : Op → Bool
  | .findGrant _ _ => false
  | .consume _ => false
  | _ => true

theorem unnoticed {s : Progress} (op : Op) (h : op.isUnnoticed = true) :
    Program.Unnoticed progress.restricted s op := by
  cases op with
  | findGrant | consume => cases h
  | _ => exact ⟨trivial, fun _ => rfl⟩

theorem ensures_invalidateWhen (condition : Bool) (request : ApprovalRequest) (reasonCode : String)
    (failure : Failure) : (invalidateWhen condition request reasonCode failure).Ensures
      (fun op => op.isUnnoticed = true) fun _ => True := by
  unfold invalidateWhen
  split
  · rw [Async.ensures_bind]
    unfold invalidateApprovalRequest closeRequest
    simp only [Async.ensures_bind, Async.ensures_ask, Async.ensures_monadLift]
    apply And.intro rfl
    intro reply closed _
    cases closed with
    | none => simp
    | some updated =>
      unfold closeGrant
      simp only [Async.ensures_bind, Async.ensures_ask, Async.ensures_monadLift]
      apply And.intro rfl
      simp
  · simp

theorem ensures_assertApproversActive (request : ApprovalRequest)
    (decisions : List ApprovalDecision) : (assertApproversActive request decisions).Ensures
      (fun op => op.isUnnoticed = true) fun _ => True := by
  induction decisions with
  | nil => simp [assertApproversActive]
  | cons decision decisions ih =>
    unfold assertApproversActive approverIdentity
    simp only [Async.ensures_bind, Async.ensures_ask, Async.ensures_monadLift, Op.isUnnoticed,
      true_and]
    intro reply approver _
    exact (ensures_invalidateWhen _ _ _ _).mono (fun _ h => h) fun _ _ => ih

/-- What an enforcement has seen: the consumed grants that it returns are among it, and nothing has
been consumed. -/
def Progress.Finds (s t : Progress) (outcome : Checked Approved) : Prop :=
  t.watched = s.watched ∧ t.consumed = s.consumed ∧ (∀ id, id ∈ s.seen → id ∈ t.seen) ∧
    ∀ approved, outcome = .ok approved → approved.grant.status = .consumed →
      approved.request.approvalRequestId ∈ t.seen

theorem Progress.Finds.error (s : Progress) (failure : Failure) : s.Finds s (.error failure) :=
  ⟨rfl, rfl, fun _ h => h, fun _ h => nomatch h⟩

theorem checkGrant_ok {action : Action} {fingerprint : Text} {allowConsumed : Bool}
    {found : Option ApprovalGrant} {grant : ApprovalGrant}
    (h : checkGrant action fingerprint allowConsumed found = .ok grant) : found = some grant := by
  unfold checkGrant at h
  split at h
  · cases h
  · split at h
    · cases h
    · split at h
      · cases h
      · split at h
        · cases h
        · rw [pure_ok.mp h]

theorem finds_validateGrantForWorkflow (action : Action) (allowConsumed : Bool)
    (workflow : ApprovalWorkflow) (s : Progress) :
    (validateGrantForWorkflow action allowConsumed workflow).Follows progress.restricted s.Finds
      s := by
  have herror := Progress.Finds.error s
  unfold validateGrantForWorkflow
  apply Async.follows_check herror
  intro _ _
  unfold findRequestOf
  apply Async.follows_reply trivial (fun _ failure _ => herror failure)
  intro _ found _ _
  apply Async.follows_check herror
  intro request _
  apply Async.follows_check herror
  intro _ _
  unfold currentTime
  apply Async.follows_asking trivial
  intro now _
  apply (ensures_invalidateWhen _ _ _ _).follows_bind unnoticed herror
  intro _ _
  apply Async.follows_check herror
  intro _ _
  apply (ensures_invalidateWhen _ _ _ _).follows_bind unnoticed herror
  intro _ _
  unfold findGrant
  apply Async.follows_reply trivial
  · intro reply failure hfailed
    subst hfailed
    exact herror failure
  intro reply found hreply hfound
  subst hfound
  have hstate : progress.restricted.next s (.findGrant request.approvalRequestId
      request.organizationId) (.ok found) = progress.next s (.inl (.findGrant
        request.approvalRequestId request.organizationId)) (.ok found) := rfl
  rw [hstate]
  generalize ht : progress.next s (.inl (.findGrant request.approvalRequestId
    request.organizationId)) (.ok found) = t
  have hlater : t.watched = s.watched ∧ t.consumed = s.consumed ∧
      (∀ id, id ∈ s.seen → id ∈ t.seen) ∧ ∀ grant, found = some grant → grant.status = .consumed →
        request.approvalRequestId ∈ t.seen := by
    subst ht
    cases found with
    | none => exact ⟨rfl, rfl, fun _ h => h, fun _ h => nomatch h⟩
    | some grant =>
      have hnext : progress.next s (.inl (.findGrant request.approvalRequestId
          request.organizationId)) (.ok (some grant)) = if grant.status = .consumed then
            { s with seen := grant.approvalRequestId :: s.seen } else s := rfl
      rw [hnext]
      by_cases hconsumed : grant.status = .consumed
      · rw [if_pos hconsumed]
        refine ⟨rfl, rfl, fun _ h => List.mem_cons_of_mem _ h, ?_⟩
        intro other _ _
        have hid : grant.approvalRequestId = request.approvalRequestId := hreply.1 grant rfl
        rw [← hid]
        exact List.mem_cons_self
      · rw [if_neg hconsumed]
        refine ⟨rfl, rfl, fun _ h => h, ?_⟩
        intro other hother hstatus
        rw [← Option.some.inj hother] at hstatus
        exact absurd hstatus hconsumed
  obtain ⟨hwatched, hconsumed, hseen, hfound⟩ := hlater
  have herror (failure : Failure) : s.Finds t (.error failure) :=
    ⟨hwatched, hconsumed, hseen, fun _ h => nomatch h⟩
  apply Async.follows_check herror
  intro grant hgrant
  unfold findDecisions
  apply Async.follows_reply trivial (fun _ failure _ => herror failure)
  intro _ decisions _ _
  apply (ensures_assertApproversActive _ _).follows_bind unnoticed herror
  intro _ _
  rw [Async.follows_pure]
  refine ⟨hwatched, hconsumed, hseen, ?_⟩
  intro approved happroved hstatus
  obtain rfl := Except.ok.inj happroved
  exact hfound grant (checkGrant_ok hgrant) hstatus

def Progress.FindsAll (s t : Progress) (outcome : Checked (List Approved)) : Prop :=
  t.watched = s.watched ∧ t.consumed = s.consumed ∧ (∀ id, id ∈ s.seen → id ∈ t.seen) ∧
    ∀ enforced, outcome = .ok enforced → ∀ approved ∈ enforced,
      approved.grant.status = .consumed → approved.request.approvalRequestId ∈ t.seen

theorem finds_validateGrants (action : Action) (allowConsumed : Bool)
    (workflows : List ApprovalWorkflow) (s : Progress) :
    (validateGrants action allowConsumed workflows).Follows progress.restricted s.FindsAll s := by
  induction workflows generalizing s with
  | nil =>
    refine ⟨rfl, rfl, fun _ h => h, ?_⟩
    intro enforced henforced
    obtain rfl := Except.ok.inj henforced
    exact fun approved hmem => absurd hmem List.not_mem_nil
  | cons workflow workflows ih =>
    rw [validateGrants, Async.follows_bind]
    refine (finds_validateGrantForWorkflow action allowConsumed workflow s).mono fun t outcome h => ?_
    obtain ⟨hwatched, hconsumed, hseen, hfirst⟩ := h
    cases outcome with
    | error failure => exact ⟨hwatched, hconsumed, hseen, fun _ h => nomatch h⟩
    | ok approved =>
      rw [Async.goesOn_ok, Async.follows_bind]
      refine (ih t).mono fun u outcome h => ?_
      obtain ⟨hwatched', hconsumed', hseen', hrest⟩ := h
      have hall := fun id h => hseen' id (hseen id h)
      cases outcome with
      | error failure =>
        exact ⟨hwatched'.trans hwatched, hconsumed'.trans hconsumed, hall, fun _ h => nomatch h⟩
      | ok enforced =>
        rw [Async.goesOn_ok, Async.follows_pure]
        refine ⟨hwatched'.trans hwatched, hconsumed'.trans hconsumed, hall, ?_⟩
        intro both hboth
        obtain rfl := Except.ok.inj hboth
        rw [List.forall_mem_cons]
        exact ⟨fun hstatus => hseen' _ (hfirst approved rfl hstatus), hrest enforced rfl⟩

theorem finds_enforceApproval (action : Action) (allowConsumed : Bool) (s : Progress) :
    (enforceApproval action allowConsumed).Follows progress.restricted s.FindsAll s := by
  unfold enforceApproval matchingWorkflows
  apply Async.follows_reply trivial
  · intro reply failure _
    exact ⟨rfl, rfl, fun _ h => h, fun _ h => nomatch h⟩
  · intro _ workflows _ _
    exact finds_validateGrants action allowConsumed workflows s

theorem uses_useApproval (action : Action) (allowConsumed : Bool) {s : Progress}
    (hwatched : s.watched = true) (hconsumed : s.consumed = []) :
    (Audited.useApproval action allowConsumed).Follows progress s.Uses s := by
  rw [Audited.useApproval, Async.follows_bind, Async.follows_extended]
  refine (finds_enforceApproval action allowConsumed s).mono fun t outcome h => ?_
  obtain ⟨hstill, hsame, hseen, henforced⟩ := h
  have hcovers : ∀ id, s.Covers id → t.Covers id := by
    intro id h
    cases h with
    | inl h => exact .inl (hseen id h)
    | inr h => exact .inr (hsame ▸ h)
  cases outcome with
  | error failure => exact ⟨hcovers, hsame.trans hconsumed⟩
  | ok enforced =>
    rw [Async.goesOn_ok]
    refine (uses_consumeApprovalGrants (hstill.trans hwatched) ?_).mono fun u outcome h => ?_
    · exact fun approved hmem hstatus => .inl (henforced enforced rfl approved hmem hstatus)
    · exact ⟨fun id hid => h.1 id (hcovers id hid), h.2⟩

def CanGoThrough (db : Database) : AuditedOp → Answer → Prop
  | .inl (.operationalAccess _), answer => answer.failure = none
  | .inl (.consume id), answer => answer.unavailable = false ∧ ∃ grant request,
    Consumable { db with clock := db.clock + answer.elapsed } id grant request
  | .inr _, answer => answer.failure = none
  | _, _ => True

theorem consume_of_consumable {db : Database} {id : Text} {grant : ApprovalGrant}
    {request : ApprovalRequest} (h : Consumable db id grant request) :
    (db.consume id).1 = .ok () := by
  have hgrant : db.grants.find? (·.approvalRequestId = id) = some grant := h.grantFor
  unfold Database.consume
  rw [hgrant, h.requests]
  dsimp only
  rw [if_pos ⟨h.active, h.unexpired⟩, if_pos h.approved]

theorem goesThrough_of_can {db : Database} {op : AuditedOp} {answer : Answer}
    (h : CanGoThrough db op answer) : GoesThrough op (performAudited db op answer).1 := by
  cases op with
  | inl op =>
    cases op with
    | operationalAccess approved =>
      change answer.verdict = .ok ()
      rw [Answer.verdict, show answer.failure = none from h]
      rfl
    | consume id =>
      obtain ⟨havailable, grant, request, hconsumable⟩ := h
      change (answer.available _ (Database.consume _ id)).1 = .ok ()
      rw [Answer.available, havailable, if_neg Bool.false_ne_true]
      exact consume_of_consumable hconsumable
    | _ => trivial
  | inr entry =>
    change answer.verdict = .ok ()
    rw [Answer.verdict, show answer.failure = none from h]
    rfl

def HasConsumed (w : AuditedWorld) (i : ℕ) : Prop := ∃ id, w.Performed i (.inl (.consume id)) (.ok ())

def SoundStep (i : ℕ) (w : AuditedWorld) (call : ℕ × Answer) : Prop :=
  call.1 = i → HasConsumed w i → ∀ op, w.Next i op → CanGoThrough w.store op call.2

section Runs

variable {i : ℕ}

abbrev startOf (i : ℕ) : ℕ → Progress := fun j => { watched := decide (j = i) }

abbrev progresses (i : ℕ) (w : AuditedWorld) : ℕ → Progress := w.states progress (startOf i)

theorem consumed_progress {s : Progress} {id : Text} {op : AuditedOp} {reply : AuditedReply op}
    (h : id ∈ (progress.next s op reply).consumed) : id ∈ s.consumed ∨
      (⟨op, reply⟩ : (op : AuditedOp) × AuditedReply op) = ⟨.inl (.consume id), .ok ()⟩ := by
  change id ∈ (Progress.next s op reply).consumed at h
  unfold Progress.next at h
  split at h
  · split at h <;> exact .inl h
  · cases List.mem_cons.mp h with
    | inl hid =>
      subst hid
      exact .inr rfl
    | inr hold => exact .inl hold
  · exact .inl h

theorem seen_progress {s : Progress} {id : Text} {op : AuditedOp} {reply : AuditedReply op}
    (h : id ∈ (progress.next s op reply).seen) : id ∈ s.seen ∨
      ∃ other organizationId grant, grant.approvalRequestId = id ∧ grant.status = .consumed ∧
        (⟨op, reply⟩ : (op : AuditedOp) × AuditedReply op) =
          ⟨.inl (.findGrant other organizationId), .ok (some grant)⟩ := by
  change id ∈ (Progress.next s op reply).seen at h
  unfold Progress.next at h
  split at h
  · next other organizationId grant =>
    split at h
    · next hconsumed =>
      cases List.mem_cons.mp h with
      | inl hid => exact .inr ⟨other, organizationId, grant, hid.symm, hconsumed, rfl⟩
      | inr hold => exact .inl hold
    · exact .inl h
  · exact .inl h
  · exact .inl h

/-- The database is consistent, and every grant that is known to be consumed is used up. -/
structure Upheld (i : ℕ) (w : AuditedWorld) : Prop where
  consistent : Consistent w.store
  usedUp : ∀ j id, (progresses i w j).Covers id → UsedUp w.store id

theorem Consistent.performAudited {db : Database} (h : Consistent db) (op : AuditedOp)
    (answer : Answer) : Consistent (performAudited db op answer).2 := by
  cases op with
  | inl op => exact h.perform op answer
  | inr entry => exact ⟨h.unique, fun id grant hgrant hconsumed =>
      let hused := h.together id grant hgrant hconsumed
      ⟨hused.grant, hused.request⟩⟩

theorem UsedUp.performAudited {db : Database} {id : Text} (h : UsedUp db id) (op : AuditedOp)
    (answer : Answer) : UsedUp (performAudited db op answer).2 id := by
  cases op with
  | inl op => exact h.perform op answer
  | inr entry => exact ⟨h.grant, h.request⟩

theorem found_of_findGrant {db : Database} {id organizationId : Text} {answer : Answer}
    {grant : ApprovalGrant}
    (h : (performAudited db (.inl (.findGrant id organizationId)) answer).1 = .ok (some grant)) :
    grant ∈ db.grants ∧ grant.approvalRequestId = id := by
  obtain ⟨hfound, -⟩ := available_ok h
  have hfind := Except.ok.inj hfound
  have hmatch := List.find?_some hfind
  rw [decide_eq_true_eq] at hmatch
  exact ⟨List.mem_of_find?_eq_some hfind, hmatch.1⟩

theorem Upheld.turn {w : AuditedWorld} {j : ℕ} {answer : Answer} {op : AuditedOp}
    {rest : AuditedReply op → Program AuditedOp AuditedReply (Except Failure (List Approved))}
    (h : Upheld i w) (hthread : w.thread j = .perform op rest) :
    Upheld i (w.turn performAudited (j, answer)) := by
  have hstore : (w.turn performAudited (j, answer)).store = (performAudited w.store op answer).2 := by
    rw [World.turn_perform hthread]
  constructor
  · rw [hstore]
    exact h.consistent.performAudited op answer
  · intro k id hcovers
    rw [hstore]
    have hold (hcovers : (progresses i w k).Covers id) :
        UsedUp (performAudited w.store op answer).2 id :=
      (h.usedUp k id hcovers).performAudited op answer
    rw [progresses, World.states_turn hthread] at hcovers
    by_cases hk : k = j
    · subst hk
      rw [Function.update_self] at hcovers
      cases hcovers with
      | inl hseen =>
        cases seen_progress hseen with
        | inl hseen => exact hold (.inl hseen)
        | inr hnew =>
          obtain ⟨other, organizationId, grant, hid, hconsumed, hstep⟩ := hnew
          obtain ⟨hop, hreply⟩ := Sigma.mk.inj hstep
          subst hop hid
          obtain ⟨hmem, -⟩ := found_of_findGrant (eq_of_heq hreply)
          have hgrant := (mem_grants_iff h.consistent.unique grant).mp hmem
          exact (h.consistent.together _ grant hgrant hconsumed).performAudited _ answer
      | inr hconsumed =>
        cases consumed_progress hconsumed with
        | inl hconsumed => exact hold (.inr hconsumed)
        | inr hnew =>
          obtain ⟨hop, hreply⟩ := Sigma.mk.inj hnew
          subst hop
          exact usedUp_of_consumed (eq_of_heq hreply)
    · rw [Function.update_of_ne hk] at hcovers
      exact hold hcovers

theorem watched_iff (w : AuditedWorld) (j : ℕ) : (progresses i w j).watched = true ↔ j = i := by
  have hsame : (progresses i w j).watched = decide (j = i) := by
    unfold progresses World.states
    generalize w.log = log
    induction log using List.reverseRecOn with
    | nil => rfl
    | append_singleton log e ih =>
      obtain ⟨k, op, reply⟩ := e
      rw [Monitor.state_concat]
      by_cases hk : j = k
      · subst hk
        rw [Function.update_self, Progress.watched_next, ih]
      · rw [Function.update_of_ne hk, ih]
  rw [hsame, decide_eq_true_eq]

theorem hasConsumed_of_consumed {w : AuditedWorld} (h : (progresses i w i).consumed ≠ []) :
    HasConsumed w i := by
  have hcases := World.states_cases (P := fun s : Progress => s.consumed ≠ [])
    (Q := fun op reply => ∃ id, (⟨op, reply⟩ : (op : AuditedOp) × AuditedReply op) =
      ⟨.inl (.consume id), .ok ()⟩) ?_ h
  · cases hcases with
    | inl hstart => exact absurd rfl hstart
    | inr hperformed =>
      obtain ⟨op, reply, hlog, id, hstep⟩ := hperformed
      refine ⟨id, ?_⟩
      unfold World.Performed at hlog ⊢
      rwa [hstep] at hlog
  · intro s op reply hnext
    obtain ⟨id, hid⟩ := List.exists_mem_of_ne_nil _ hnext
    cases consumed_progress hid with
    | inl hold => exact .inl (List.ne_nil_of_mem hold)
    | inr hnew => exact .inr ⟨id, hnew⟩

theorem invariant_upheld (i : ℕ) :
    Invariant performAudited progress (startOf i) (SoundStep i) (Upheld i) where
  replies w j answer op next _ hguard hthread _ := by
    constructor
    · cases op with
      | inl op =>
        cases op with
        | findGrant id organizationId => exact fun grant hreply => (found_of_findGrant hreply).2
        | _ => trivial
      | inr entry => trivial
    · intro hwatched hconsumed
      obtain rfl := (watched_iff w j).mp hwatched
      exact goesThrough_of_can (hguard rfl (hasConsumed_of_consumed hconsumed) op ⟨next, hthread⟩)
  keeps _ _ _ _ _ hupheld _ hthread _ := hupheld.turn hthread

end Runs

private def requestFor (requestId workflowId : Text) : ApprovalRequest where
  approvalRequestId := requestId
  organizationId := ascii "org"
  workflowId := workflowId
  workflowVersion := 1
  requesterActorId := ascii "requester"
  permission := ascii "connection.invoke"
  resourceId := ascii "connection"
  requestFingerprint := ascii "fingerprint"
  expiresAt := 3600000
  status := .approved
  currentStageSequence := 1
  revision := 1

private def releaseRequest : ApprovalRequest := requestFor (ascii "apr") (ascii "apw")

private def reviewRequest : ApprovalRequest := requestFor (ascii "apr2") (ascii "apw2")

private def twoGrants : Database :=
  Database.store
    (Database.store
      { clock := 0
        requests := fun _ => none
        indexed := indexed_none
        decisions := []
        grants := [grantOf releaseRequest true, grantOf reviewRequest true]
        workflows := fun _ _ _ => none } releaseRequest) reviewRequest

private def workflowOf (request : ApprovalRequest) : ApprovalWorkflow where
  organizationId := request.organizationId
  stableWorkflowId := request.workflowId
  version := 1
  name := ascii "Release"
  stages := []
  expirationMs := .undefined

private def releaseAction : Action where
  organizationId := ascii "org"
  requesterActorId := ascii "requester"
  permission := ascii "connection.invoke"
  resourceId := ascii "connection"
  approvalRequestIds := [ascii "apr", ascii "apr2"]
  fingerprint := fun _ => ascii "fingerprint"

private def releasePrograms : ℕ → AuditedFlow (List Approved) :=
  fun _ => Audited.useApproval releaseAction false

private def smoothTurn : ℕ × Answer :=
  (0, { workflows := [workflowOf releaseRequest, workflowOf reviewRequest] })

private def organizationSuspended : Failure :=
  .app 503 "ORGANIZATION_SUSPENDED" "ORGANIZATION_SUSPENDED"
    "Operation is unavailable in the current administrative state."

private def suspendedRun : List (ℕ × Answer) :=
  List.replicate 12 smoothTurn ++ [(0, { failure := some organizationSuspended })]

private def smoothRun : List (ℕ × Answer) := List.replicate 15 smoothTurn

private def visiblyConsumed (w : AuditedWorld) (i : ℕ) : Bool :=
  w.log.any fun e => match e.2 with
    | ⟨.inl (.consume _), .ok _⟩ => e.1 = i
    | _ => false

private theorem hasConsumed_of_visibly {w : AuditedWorld} {i : ℕ}
    (h : visiblyConsumed w i = true) : HasConsumed w i := by
  simp only [visiblyConsumed, List.any_eq_true] at h
  obtain ⟨⟨j, op, reply⟩, hmem, hconsumed⟩ := h
  cases op with
  | inl op =>
    cases op with
    | consume id =>
      cases reply with
      | error failure => cases hconsumed
      | ok _ =>
        simp only [decide_eq_true_eq] at hconsumed
        subst hconsumed
        exact ⟨id, hmem⟩
    | _ => cases hconsumed
  | inr entry => cases hconsumed

private def visiblyGoes (db : Database) : AuditedOp → Answer → Bool
  | .inl (.operationalAccess _), answer => answer.failure.isNone
  | .inl (.consume id), answer => !answer.unavailable &&
    (Database.consume { db with clock := db.clock + answer.elapsed } id).1.isOk
  | .inr _, answer => answer.failure.isNone
  | _, _ => true

private theorem canGoThrough_of_visibly {db : Database} {op : AuditedOp} {answer : Answer}
    (h : visiblyGoes db op answer = true) : CanGoThrough db op answer := by
  cases op with
  | inl op =>
    cases op with
    | operationalAccess approved => exact Option.isNone_iff_eq_none.mp h
    | consume id =>
      simp only [visiblyGoes, Bool.and_eq_true, Bool.not_eq_true'] at h
      apply And.intro h.1
      rcases consume_cases { db with clock := db.clock + answer.elapsed } id with
        ⟨failure, hconsume⟩ | ⟨grant, request, hconsumable, -⟩
      · rw [hconsume] at h
        cases h.2
      · exact ⟨grant, request, hconsumable⟩
    | _ => trivial
  | inr entry => exact Option.isNone_iff_eq_none.mp h

private def visiblyGoesRun : AuditedWorld → List (ℕ × Answer) → Bool
  | _, [] => true
  | w, call :: calls =>
    (match w.thread call.1 with
      | .perform op _ => visiblyGoes w.store op call.2
      | .done _ => true) && visiblyGoesRun (w.turn performAudited call) calls

private theorem sound_of_visibly {i : ℕ} {w : AuditedWorld} {calls : List (ℕ × Answer)}
    (h : visiblyGoesRun w calls = true) :
    Guarded (World.turn performAudited) (SoundStep i) w calls := by
  induction calls generalizing w with
  | nil => trivial
  | cons call calls ih =>
    obtain ⟨hcall, hcalls⟩ := Bool.and_eq_true_iff.mp h
    refine ⟨?_, ih hcalls⟩
    intro hi _ op hnext
    subst hi
    obtain ⟨next, hthread⟩ := hnext
    rw [hthread] at hcall
    exact canGoThrough_of_visibly hcall

private theorem consistent_twoGrants : Consistent twoGrants := by
  constructor
  · decide
  · intro id grant hgrant hconsumed
    have hmem : grant ∈ [grantOf releaseRequest true, grantOf reviewRequest true] :=
      List.mem_of_find?_eq_some hgrant
    have hactive : grant.status = .active := by
      simp only [List.mem_cons, List.not_mem_nil, or_false] at hmem
      rcases hmem with rfl | rfl <;> rfl
    rw [hactive] at hconsumed
    cases hconsumed

end GhostBridge.Approvals
