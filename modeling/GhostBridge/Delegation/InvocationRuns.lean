import GhostBridge.Delegation.Invocations

/-!
# Runs of delegated invocations

Any number of operations that run at the same time.
-/

namespace GhostBridge.Delegation

open Ecma Machine

variable {digests : Digests} {db : Database} {op : Op} {answer : Answer} {id : ObjectId}
  {grant : Grant}

def reservedKey (id : ObjectId) : (op : Op) × Reply op → Option Text
  | ⟨.changeGrant other (.reserve key _ _ _), .ok (some _)⟩ => if other = id then some key else none
  | _ => none

def GrantChange.key : GrantChange → Option Text
  | .reserve key _ _ _ => some key
  | _ => none

inductive Changes (id : ObjectId) (change : GrantChange) : Op → Prop
  | changeGrant : Changes id change (.changeGrant id change)
  | closeGrants {run : ObjectId} {scope : Scope} {completed : Bool}
      (hclose : change = .close run scope completed) : Changes id change (.closeGrants run scope completed)

def Becomes (digests : Digests) (id : ObjectId) (grant next : Grant) (e : (op : Op) × Reply op) :
    Prop :=
  next = grant ∧ reservedKey id e = none ∨
    ∃ change, Changes id change e.1 ∧ change.apply digests grant = some next ∧
      reservedKey id e = change.key

theorem becomes_changeGrant {other : ObjectId} {change : GrantChange}
    (hgrant : db.grants id = some grant) :
    ∃ next, (perform digests db (.changeGrant other change) answer).2.grants id = some next ∧
      Becomes digests id grant next ⟨.changeGrant other change,
        (perform digests db (.changeGrant other change) answer).1⟩ := by
  simp only [perform, performAt, Answer.available]
  by_cases hunavailable : answer.unavailable
  · simp only [hunavailable, if_true]
    exact ⟨grant, hgrant, .inl ⟨rfl, by cases change <;> rfl⟩⟩
  simp only [hunavailable, Bool.false_eq_true, if_false, Database.changeGrant]
  cases hfound : (db.grants other).bind (change.apply digests) with
  | none => exact ⟨grant, hgrant, .inl ⟨rfl, by cases change <;> rfl⟩⟩
  | some next =>
    by_cases hother : other = id
    · subst hother
      rw [hgrant] at hfound
      refine ⟨next, Function.update_self _ _ _, .inr ⟨change, .changeGrant, hfound, ?_⟩⟩
      cases change <;> simp [reservedKey, GrantChange.key]
    · refine ⟨grant, (Function.update_of_ne (Ne.symm hother) _ _).trans hgrant, .inl ⟨rfl, ?_⟩⟩
      cases change <;> simp [reservedKey, hother]

theorem becomes_closeGrants {run : ObjectId} {scope : Scope} {completed : Bool}
    (hgrant : db.grants id = some grant) :
    ∃ next, (perform digests db (.closeGrants run scope completed) answer).2.grants id = some next ∧
      Becomes digests id grant next ⟨.closeGrants run scope completed,
        (perform digests db (.closeGrants run scope completed) answer).1⟩ := by
  simp only [perform, performAt, Answer.available]
  by_cases hunavailable : answer.unavailable
  · simp only [hunavailable, if_true]
    exact ⟨grant, hgrant, .inl ⟨rfl, rfl⟩⟩
  simp only [hunavailable, Bool.false_eq_true, if_false, Database.closeGrants, hgrant,
    Option.map_some]
  cases hclosed : (GrantChange.close run scope completed).apply digests grant with
  | none => exact ⟨grant, rfl, .inl ⟨rfl, rfl⟩⟩
  | some next => exact ⟨next, rfl, .inr ⟨_, .closeGrants rfl, hclosed, rfl⟩⟩

def KeepsGrants : Op → Prop
  | .changeGrant _ _ | .closeGrants _ _ _ => False
  | _ => True

theorem grants_perform (h : KeepsGrants op) :
    (perform digests db op answer).2.grants = db.grants := by
  cases op <;> first
    | exact h.elim
    | rfl
    | skip
  all_goals
    simp only [perform, performAt, Answer.available]
    split
    · rfl
  all_goals
    simp only [Database.insertInvocation, Database.changeInvocation, Database.insertReference,
      Database.consumeReference, Database.invalidateReferences]
    try split
    all_goals rfl

theorem reservedKey_of_keeps (h : KeepsGrants op) (reply : Reply op) :
    reservedKey id ⟨op, reply⟩ = none := by
  cases op <;> first
    | exact h.elim
    | rfl

theorem perform_grant (digests : Digests) (op : Op) (answer : Answer)
    (hgrant : db.grants id = some grant) :
    ∃ next, (perform digests db op answer).2.grants id = some next ∧
      Becomes digests id grant next ⟨op, (perform digests db op answer).1⟩ := by
  have hkeeps (h : KeepsGrants op) :
      ∃ next, (perform digests db op answer).2.grants id = some next ∧
        Becomes digests id grant next ⟨op, (perform digests db op answer).1⟩ :=
    ⟨grant, by rw [grants_perform h, hgrant], .inl ⟨rfl, reservedKey_of_keeps h _⟩⟩
  cases op with
  | changeGrant other change => exact becomes_changeGrant hgrant
  | closeGrants run scope completed => exact becomes_closeGrants hgrant
  | _ => exact hkeeps trivial

theorem perform_no_grant (digests : Digests) (op : Op) (answer : Answer)
    (hnone : db.grants id = none) :
    (perform digests db op answer).2.grants id = none := by
  have hkeeps (h : KeepsGrants op) : (perform digests db op answer).2.grants id = none := by
    rw [grants_perform h, hnone]
  cases op with
  | changeGrant other change =>
    simp only [perform, performAt, Answer.available, Database.changeGrant]
    split
    · exact hnone
    cases hfound : (db.grants other).bind (change.apply digests) with
    | none => exact hnone
    | some next =>
      have hother : id ≠ other := by
        rintro rfl
        rw [hnone] at hfound
        cases hfound
      exact (Function.update_of_ne hother _ _).trans hnone
  | closeGrants run scope completed =>
    simp only [perform, performAt, Answer.available, Database.closeGrants]
    split
    · exact hnone
    · simp [hnone]
  | _ => exact hkeeps trivial

variable {change : GrantChange}

theorem apply_eq_some {next : Grant} : change.apply digests grant = some next ↔
    change.filter digests grant = true ∧
      { grant with state := change.update digests grant.state } = next := by
  unfold GrantChange.apply
  split
  · next h => simp [h]
  · next h => simp [h]

theorem filter_open (h : change.filter digests grant = true) :
    grant.state.status = .pending ∨ grant.state.status = .active := by
  cases change <;> simp only [GrantChange.filter, decide_eq_true_eq] at h
  case activate => exact .inl h.1
  case settle => exact .inl h.1
  case reserve => exact .inr h.2.1
  case expire => exact .inr h
  case exhaust => exact .inr h.1
  case revoke => exact h.2
  case close => exact h.2.2

theorem filter_of_terminal (h : grant.state.status.isTerminal = true) :
    change.filter digests grant = false := by
  by_contra hfilter
  rcases filter_open (Bool.eq_true_of_not_eq_false hfilter) with hopen | hopen
  · rw [hopen] at h
    cases h
  · rw [hopen] at h
    cases h

/-- A grant keeps its terms, and stays as it is once it is terminal. -/
def Onward (before after : ObjectId → Option Grant) : Prop :=
  ∀ id grant, before id = some grant → ∃ next, after id = some next ∧ next.terms = grant.terms ∧
    (grant.state.status.isTerminal = true → next = grant)

theorem Onward.refl (grants : ObjectId → Option Grant) : Onward grants grants :=
  fun _ grant h => ⟨grant, h, rfl, fun _ => rfl⟩

theorem Onward.trans {a b c : ObjectId → Option Grant} (hab : Onward a b) (hbc : Onward b c) :
    Onward a c := by
  intro id grant h
  obtain ⟨next, hnext, hterms, hterminal⟩ := hab id grant h
  obtain ⟨last, hlast, hterms', hterminal'⟩ := hbc id next hnext
  refine ⟨last, hlast, hterms'.trans hterms, fun h => ?_⟩
  have hsame := hterminal h
  exact (hterminal' (hsame ▸ h)).trans hsame

theorem onward_perform (digests : Digests) (db : Database) (op : Op) (answer : Answer) :
    Onward db.grants (perform digests db op answer).2.grants := by
  intro id grant hgrant
  obtain ⟨next, hnext, ⟨rfl, -⟩ | ⟨change, -, happly, -⟩⟩ :=
    perform_grant digests op answer hgrant
  · exact ⟨next, hnext, rfl, fun _ => rfl⟩
  · obtain ⟨hfilter, hupdate⟩ := apply_eq_some.mp happly
    refine ⟨next, hnext, by rw [← hupdate], fun hterminal => ?_⟩
    rw [filter_of_terminal hterminal] at hfilter
    cases hfilter

inductive Entry where
  | prepareDelegatedInvocation (input : ExecuteInput) (options : Options)
  | executeDelegatedInvocation (input : ExecuteInput) (options : Options)
  | revokeGrant (grantText : Text) (scope : Scope)
  | closeRunGrants (run : ObjectId) (completed : Bool) (scope : Scope)
  | markNodeFromApproval (grantId : ObjectId) (approvalRequestId : Text) (status : ApprovalStatus)

def Entry.program (digests : Digests) : Entry → Flow Unit
  | .prepareDelegatedInvocation input options => do
    let _ ← Delegation.prepareDelegatedInvocation digests input options
  | .executeDelegatedInvocation input options =>
    Delegation.executeDelegatedInvocation digests input options
  | .revokeGrant grantText scope => Delegation.revokeGrant grantText scope
  | .closeRunGrants run completed scope => Delegation.closeRunGrants run completed scope
  | .markNodeFromApproval grantId approvalRequestId status =>
    Delegation.markNodeFromApproval grantId approvalRequestId status

/-- Grants as they are created, with the requests for approval that have been made for them. -/
abbrev NewGrants := ObjectId → Option (Terms × Option Text)

def Database.created (grants : NewGrants) : Database where
  grants id := (grants id).map fun entry => Grant.created entry.1 entry.2

abbrev InvocationWorld := World Database Op Reply (Except Failure Unit)

def worldAfter (digests : Digests) (created : NewGrants) (entries : ℕ → Entry)
    (calls : List (ℕ × Answer)) : InvocationWorld :=
  after (World.turn (perform digests))
    (.initial (.created created) fun i => (entries i).program digests) calls

def grantAfter (digests : Digests) (created : NewGrants) (entries : ℕ → Entry)
    (calls : List (ℕ × Answer)) (id : ObjectId) : Option Grant :=
  (worldAfter digests created entries calls).store.grants id

variable {created : NewGrants} {entries : ℕ → Entry} {calls : List (ℕ × Answer)}

theorem worldAfter_concat (call : ℕ × Answer) :
    worldAfter digests created entries (calls ++ [call]) =
      (worldAfter digests created entries calls).turn (perform digests) call :=
  after_concat call

theorem onward_turn (digests : Digests) (w : InvocationWorld) (call : ℕ × Answer) :
    Onward w.store.grants (w.turn (perform digests) call).store.grants := by
  rcases World.turn_cases (perform digests) w call with ⟨hsame, -⟩ | ⟨op, next, -, hturn⟩
  · rw [hsame]
    exact Onward.refl _
  · rw [hturn]
    exact onward_perform digests w.store op call.2

theorem onward_of_prefix {before calls : List (ℕ × Answer)} ( hprefix : before <+: calls) :
    Onward (grantAfter digests created entries before)
      (grantAfter digests created entries calls) := by
  obtain ⟨rest, rfl⟩ := hprefix
  unfold grantAfter worldAfter
  rw [after_append]
  apply after_relates
    (R := fun v w : InvocationWorld => Onward v.store.grants w.store.grants)
  · exact fun _ => Onward.refl _
  · exact fun _ _ _ => Onward.trans
  · exact onward_turn digests

def reservedKeys (log : List (ℕ × (op : Op) × Reply op)) (id : ObjectId) : List Text :=
  log.filterMap fun e => reservedKey id e.2

/-- The reservations of a grant are counted, are of different keys, and stay within its limit. -/
structure Counted (digests : Digests) (state : GrantState) (limit : ℕ) (keys : List Text) :
    Prop where
  hashes : state.idempotencyReservationHashes = keys.map digests.idempotencyKey
  once : state.idempotencyReservationHashes.Nodup
  count : state.invocationCount = state.idempotencyReservationHashes.length
  limit : state.invocationCount ≤ limit

theorem Counted.changed {keys : List Text}
    (h : Counted digests grant.state grant.terms.invocationLimit keys)
    (hfilter : change.filter digests grant = true) :
    Counted digests (change.update digests grant.state) grant.terms.invocationLimit
      (keys ++ change.key.toList) := by
  cases change
  case reserve key scope now firstUsedAt =>
    simp only [GrantChange.filter, decide_eq_true_eq] at hfilter
    obtain ⟨-, -, -, -, hroom, hnew⟩ := hfilter
    constructor
    · simp only [GrantChange.update, GrantChange.key, Option.toList_some, List.map_append, h.hashes,
        List.map_cons, List.map_nil]
    · simp only [GrantChange.update]
      exact List.nodup_append.mpr ⟨h.once, List.nodup_singleton _, by
        intro hash hhash other hother heq
        obtain rfl := List.mem_singleton.mp hother
        exact hnew (heq ▸ hhash)⟩
    · simp only [GrantChange.update, List.length_append, List.length_singleton, h.count]
    · exact hroom
  all_goals
    simp only [GrantChange.key, Option.toList_none, List.append_nil]
    exact ⟨h.hashes, h.once, h.count, h.limit⟩

theorem counted_after (calls : List (ℕ × Answer)) (grant : Grant)
    (h : grantAfter digests created entries calls id = some grant) :
    Counted digests grant.state grant.terms.invocationLimit
      (reservedKeys (worldAfter digests created entries calls).log id) := by
  induction calls using List.reverseRecOn generalizing grant with
  | nil =>
    obtain ⟨entry, -, rfl⟩ := Option.map_eq_some_iff.mp h
    exact ⟨rfl, List.nodup_nil, rfl, Nat.zero_le _⟩
  | append_singleton calls call ih =>
    unfold grantAfter at h ih
    rw [worldAfter_concat] at h ⊢
    generalize worldAfter digests created entries calls = w at h ih
    rcases World.turn_cases (perform digests) w call with ⟨hsame, -⟩ | ⟨op, next, -, hturn⟩
    · rw [hsame] at h ⊢
      exact ih grant h
    · rw [hturn] at h ⊢
      cases hbefore : w.store.grants id with
      | none =>
        have hnone := perform_no_grant digests op call.2 hbefore
        rw [hnone] at h
        cases h
      | some stored =>
        obtain ⟨found, hfound, hbecomes⟩ :=
          perform_grant digests op call.2 hbefore
        obtain rfl := Option.some.inj (hfound.symm.trans h)
        have hcounted := ih stored hbefore
        have hkeys : reservedKeys (w.log ++ [(call.1, ⟨op, (perform digests w.store op call.2).1⟩)])
            id = reservedKeys w.log id ++
              (reservedKey id ⟨op, (perform digests w.store op call.2).1⟩).toList := by
          unfold reservedKeys
          rw [List.filterMap_append]
          cases hkey : reservedKey id ⟨op, (perform digests w.store op call.2).1⟩ <;> simp [hkey]
        rw [hkeys]
        rcases hbecomes with ⟨rfl, hnone⟩ | ⟨change, -, happly, hkey⟩
        · rw [hnone]
          simpa using hcounted
        · obtain ⟨hfilter, rfl⟩ := apply_eq_some.mp happly
          rw [hkey]
          exact hcounted.changed hfilter

/-- References stay, and a consumed one stays consumed. -/
def Spent (before after : Text → Option Reference) : Prop :=
  ∀ hash reference, before hash = some reference → reference.consumedAt ≠ none →
    ∃ next, after hash = some next ∧ next.consumedAt ≠ none

theorem Spent.refl (references : Text → Option Reference) : Spent references references :=
  fun _ reference h hspent => ⟨reference, h, hspent⟩

theorem Spent.trans {a b c : Text → Option Reference} (hab : Spent a b) (hbc : Spent b c) :
    Spent a c := by
  intro hash reference h hspent
  obtain ⟨next, hnext, hspent'⟩ := hab hash reference h hspent
  exact hbc hash next hnext hspent'

theorem spent_update {references : Text → Option Reference} {hash : Text} {reference : Reference}
    (h : ∀ stored, references hash = some stored → stored.consumedAt ≠ none →
      reference.consumedAt ≠ none) :
    Spent references (Function.update references hash (some reference)) := by
  intro other stored hstored hspent
  by_cases hother : other = hash
  · subst hother
    exact ⟨reference, Function.update_self _ _ _, h stored hstored hspent⟩
  · exact ⟨stored, (Function.update_of_ne hother _ _).trans hstored, hspent⟩

theorem spent_available {α : Type} {result : Created α × Database}
    (h : Spent db.references result.2.references) :
    Spent db.references (answer.available db result).2.references := by
  unfold Answer.available
  split
  · exact Spent.refl _
  · exact h

theorem spent_performAt (digests : Digests) (db : Database) (op : Op) (answer : Answer) :
    Spent db.references (performAt digests db op answer).2.references := by
  cases op with
  | insertReference token reference =>
    apply spent_available
    unfold Database.insertReference
    split
    · exact Spent.refl _
    · next hnone =>
      apply spent_update
      intro stored hstored
      rw [hnone] at hstored
      cases hstored
  | consumeReference token scope grantId invocationId now =>
    apply spent_available
    dsimp only
    split
    · exact Spent.refl _
    · apply spent_update
      intro stored _ _
      exact Option.some_ne_none now
  | invalidateReferences grantId run now =>
    apply spent_available
    intro hash reference hreference hspent
    simp only [Database.invalidateReferences, hreference, Option.map_some]
    refine ⟨_, rfl, ?_⟩
    rw [if_neg fun h => hspent h.2.1]
    exact hspent
  | changeGrant other change =>
    apply spent_available
    dsimp only
    split <;> exact Spent.refl _
  | insertInvocation scope grantId key ordinal =>
    apply spent_available
    unfold Database.insertInvocation
    split <;> exact Spent.refl _
  | changeInvocation grantId invocationId change =>
    apply spent_available
    dsimp only
    split <;> exact Spent.refl _
  | clock | randomToken | check | invoke => exact Spent.refl _
  | _ => exact spent_available (Spent.refl _)

theorem spent_of_prefix {before calls : List (ℕ × Answer)} ( hprefix : before <+: calls) :
    Spent (worldAfter digests created entries before).store.references
      (worldAfter digests created entries calls).store.references := by
  obtain ⟨rest, rfl⟩ := hprefix
  unfold worldAfter
  rw [after_append]
  apply after_relates
    (R := fun v w : InvocationWorld => Spent v.store.references w.store.references)
  · exact fun _ => Spent.refl _
  · exact fun _ _ _ => Spent.trans
  · intro w call
    rcases World.turn_cases (perform digests) w call with ⟨hsame, -⟩ | ⟨op, next, -, hturn⟩
    · rw [hsame]
      exact Spent.refl _
    · rw [hturn]
      exact spent_performAt digests
        { w.store with clock := w.store.clock + call.2.elapsed } op call.2

/-- The turn consumes the reference of a token. -/
def Consumes (digests : Digests) (w : InvocationWorld) (call : ℕ × Answer) (token : Text) : Prop :=
  ∃ scope grantId invocationId now reference,
    w.Next call.1 (.consumeReference token scope grantId invocationId now) ∧
      (perform digests w.store (.consumeReference token scope grantId invocationId now) call.2).1 =
        .ok (some reference)

theorem Consumes.spent {w : InvocationWorld} {call : ℕ × Answer} {token : Text}
    (h : Consumes digests w call token) :
    (∃ stored, w.store.references (digests.reference token) = some stored ∧
      stored.consumedAt = none) ∧
    ∃ next, (w.turn (perform digests) call).store.references (digests.reference token) = some next ∧
      next.consumedAt ≠ none := by
  obtain ⟨scope, grantId, invocationId, now, reference, ⟨rest, hthread⟩, hreply⟩ := h
  rw [World.turn_perform hthread]
  simp only [perform, performAt, Answer.available, Database.consumeReference] at hreply ⊢
  split at hreply
  · cases hreply
  next havailable =>
    rw [if_neg havailable]
    split at hreply
    · cases hreply
    next stored hfound =>
      obtain ⟨hget, hfilter⟩ := Option.filter_eq_some_iff.mp hfound
      simp only [decide_eq_true_eq] at hfilter
      exact ⟨⟨stored, hget, hfilter.2.2.2.2.2.1⟩, _, Function.update_self _ _ _,
        Option.some_ne_none now⟩

theorem consumed_once {before before' : List (ℕ × Answer)} {call call' : ℕ × Answer}
    {token token' : Text} (hsame : digests.reference token = digests.reference token')
    (hfirst : Consumes digests (worldAfter digests created entries before) call token)
    (hsecond : Consumes digests (worldAfter digests created entries before') call' token') :
    ¬before ++ [call] <+: before' := by
  intro hprefix
  obtain ⟨-, next, hnext, hspent⟩ := hfirst.spent
  obtain ⟨⟨stored, hstored, hfresh⟩, -⟩ := hsecond.spent
  rw [← worldAfter_concat] at hnext
  obtain ⟨last, hlast, hspent'⟩ := spent_of_prefix hprefix _ next hnext hspent
  rw [hsame] at hlast
  obtain rfl := Option.some.inj (hlast.symm.trans hstored)
  exact hspent' hfresh

end GhostBridge.Delegation
