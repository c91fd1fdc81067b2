import GhostBridge.NativeAgent.Agent

/-!
# Concurrent submissions

Submissions of decisions that run at the same time over the file store.
-/

namespace GhostBridge.NativeAgent

open Ecma Machine ProtocolCore

def submissionThreads (agent : Agent) (decisions : ℕ → Value) :
    ℕ → Program Op Reply (Checked Value) :=
  fun i => agent.submitApprovalDecision (decisions i)

abbrev submissions (decisions : ℕ → Value) (w : AgentWorld) : ℕ → Submission :=
  w.states submissionMonitor fun i => { decision := decisions i }

def challengeKey (decision : Value) : Checked Text :=
  validKey (decision.field (ascii "challengeId"))

/-- A submission has decided its challenge, or has failed without storing its decision. -/
def SubmissionSettled (decisions : ℕ → Value) (w : AgentWorld) (i : ℕ) : Prop :=
  (submissions decisions w i).decided = true ∨
    ((submissions decisions w i).stored = false ∧ ∃ failure, w.Ended i (.error failure))

/-- A challenge is read only when every other submission that has read it is settled. -/
def readsSettled (decisions : ℕ → Value) (w : AgentWorld) (call : ℕ × Answer) : Prop :=
  ∀ key, w.Next call.1 (.get .approvals key) → ∀ j, j ≠ call.1 →
    challengeKey (decisions j) = challengeKey (decisions call.1) →
    (submissions decisions w j).challenge.isSome = true → SubmissionSettled decisions w j

def OneDecisionEach (state : Collections) : Prop :=
  ∀ k k' d d' challenge, (state .approvalDecisions).get? k = some d →
    (state .approvalDecisions).get? k' = some d' → challengeKey d = .ok challenge →
    challengeKey d' = .ok challenge → k = k'

def DecidedOnce (state : Collections) : Prop :=
  ∀ k d challenge, (state .approvalDecisions).get? k = some d → challengeKey d = .ok challenge →
    hasStatus (state.get .approvals challenge) "pending" = false

section Invariant

variable {agent : Agent} {decisions : ℕ → Value} {w : AgentWorld} {i : ℕ}

structure WorksOn (decisions : ℕ → Value) (w : AgentWorld) (i : ℕ) (key : Text) (challenge : Value) :
    Prop where
  read : (submissions decisions w i).challenge = some challenge
  key_eq : challengeKey (decisions i) = .ok key
  unsettled : ¬SubmissionSettled decisions w i

structure SubmissionInvariant (decisions : ℕ → Value) (w : AgentWorld) : Prop where
  decision : ∀ i, (submissions decisions w i).decision = decisions i
  key : ∀ i, (submissions decisions w i).challenge.isSome = true →
    ∃ key, challengeKey (decisions i) = .ok key
  alone : ∀ i j key challenge challenge', WorksOn decisions w i key challenge →
    WorksOn decisions w j key challenge' → i = j
  current : ∀ i key challenge, WorksOn decisions w i key challenge →
    w.store.collections.get .approvals key = challenge
  /-- The challenge of a stored decision is decided, or is being decided. -/
  pending : ∀ k d key, (w.store.collections .approvalDecisions).get? k = some d →
    challengeKey d = .ok key →
    hasStatus (w.store.collections.get .approvals key) "pending" = false ∨
      ∃ j challenge, WorksOn decisions w j key challenge ∧ (submissions decisions w j).stored = true
  one : OneDecisionEach w.store.collections

theorem challengeKey_record (decision challenge : Value) :
    challengeKey (decisionRecord decision challenge) = challengeKey decision := by
  rw [challengeKey, challengeKey, decisionRecord,
    Value.field_spread_of_ne (by simp only [List.forall_mem_cons]; decide)]

theorem decidedChallenge_pending (decision challenge : Value) :
    hasStatus (decidedChallenge decision challenge) "pending" = false := by
  rw [hasStatus, decidedChallenge, Value.field_spread_single]
  split <;> decide

variable {op : Op} {next : Reply op → Program Op Reply (Checked Value)} {answer : Answer}

section Turn

variable (hthread : w.thread i = .perform op next)

include hthread

private theorem submissions_turn :
    submissions decisions (w.turn (perform agent.runtime .file) (i, answer)) =
      Function.update (submissions decisions w) i (submissionMonitor.next (submissions decisions w i)
        op (perform agent.runtime .file w.store op answer).1) :=
  World.states_turn hthread _ _ _

private theorem settled_iff : SubmissionSettled decisions w i ↔
    (submissions decisions w i).decided = true := by
  refine ⟨fun h => h.resolve_right ?_, .inl⟩
  rintro ⟨-, failure, hended⟩
  rw [World.Ended, hthread] at hended
  cases hended

private theorem worksOn_turn_of_ne {j : ℕ} (hj : j ≠ i) {key : Text} {challenge : Value} :
    WorksOn decisions (w.turn (perform agent.runtime .file) (i, answer)) j key challenge ↔
      WorksOn decisions w j key challenge := by
  have hsame : submissions decisions (w.turn (perform agent.runtime .file) (i, answer)) j =
      submissions decisions w j := by
    rw [submissions_turn hthread, Function.update_of_ne hj]
  have hended (r : Checked Value) :
      (w.turn (perform agent.runtime .file) (i, answer)).Ended j r ↔ w.Ended j r := by
    rw [World.turn_perform hthread, World.Ended, World.Ended]
    simp only [Function.update_of_ne hj]
  have hsettled : SubmissionSettled decisions (w.turn (perform agent.runtime .file) (i, answer)) j ↔
      SubmissionSettled decisions w j := by
    simp only [SubmissionSettled, hsame, hended]
  constructor
  · rintro ⟨hread, hkey, hunsettled⟩
    exact ⟨hsame ▸ hread, hkey, hsettled.not.mp hunsettled⟩
  · rintro ⟨hread, hkey, hunsettled⟩
    exact ⟨by rw [hsame, hread], hkey, hsettled.not.mpr hunsettled⟩

end Turn

private theorem SubmissionInvariant.quiet (h : SubmissionInvariant decisions w)
    (hthread : w.thread i = .perform op next)
    (hstore : (perform agent.runtime .file w.store op answer).2.collections = w.store.collections)
    (hnext : submissionMonitor.next (submissions decisions w i) op
      (perform agent.runtime .file w.store op answer).1 = submissions decisions w i) :
    SubmissionInvariant decisions (w.turn (perform agent.runtime .file) (i, answer)) := by
  have hsame : submissions decisions (w.turn (perform agent.runtime .file) (i, answer)) =
      submissions decisions w := by
    rw [submissions_turn hthread, hnext, Function.update_eq_self]
  have hcollections : (w.turn (perform agent.runtime .file) (i, answer)).store.collections =
      w.store.collections := by
    rw [World.turn_perform hthread, hstore]
  -- nobody starts to work on a challenge, and who has stored a decision goes on
  have hbefore {j : ℕ} {key : Text} {challenge : Value}
      (hj : WorksOn decisions (w.turn (perform agent.runtime .file) (i, answer)) j key challenge) :
      WorksOn decisions w j key challenge := by
    by_cases hij : j = i
    · subst hij
      refine ⟨hsame ▸ hj.read, hj.key_eq, fun hsettled => hj.unsettled (.inl ?_)⟩
      rw [hsame]
      exact (settled_iff hthread).mp hsettled
    · exact (worksOn_turn_of_ne hthread hij).mp hj
  have hafter {j : ℕ} {key : Text} {challenge : Value} (hj : WorksOn decisions w j key challenge)
      (hstored : (submissions decisions w j).stored = true) :
      WorksOn decisions (w.turn (perform agent.runtime .file) (i, answer)) j key challenge := by
    refine ⟨by rw [hsame, hj.read], hj.key_eq, ?_⟩
    rintro (hdecided | ⟨hnot, -⟩)
    · rw [hsame] at hdecided
      exact hj.unsettled (.inl hdecided)
    · rw [hsame, hstored] at hnot
      cases hnot
  refine ⟨?_, ?_, fun j j' key c c' hj hj' => h.alone j j' key c c' (hbefore hj) (hbefore hj'),
    fun j key c hj => ?_, fun k d key hd hkey => ?_, ?_⟩
  · rw [hsame]
    exact h.decision
  · rw [hsame]
    exact h.key
  · rw [hcollections]
    exact h.current j key c (hbefore hj)
  · rw [hcollections] at hd ⊢
    refine (h.pending k d key hd hkey).imp_right ?_
    rintro ⟨j, challenge, hj, hstored⟩
    exact ⟨j, challenge, hafter hj hstored, by rw [hsame, hstored]⟩
  · rw [hcollections]
    exact h.one

private theorem SubmissionInvariant.read (h : SubmissionInvariant decisions w) {key : Value}
    {next : Checked Value → Program Op Reply (Checked Value)} {challenge : Value}
    (hthread : w.thread i = .perform (.get .approvals key) next)
    (hnone : (submissions decisions w i).challenge = none)
    (hkey : key = (decisions i).field (ascii "challengeId"))
    (hguard : readsSettled decisions w (i, answer))
    (hread : fileGet w.store.collections .approvals key = .ok challenge) :
    SubmissionInvariant decisions (w.turn (perform agent.runtime .file) (i, answer)) := by
  have hreply : (perform agent.runtime .file w.store (.get .approvals key) answer).1 =
      .ok challenge := hread
  have hprogress : submissions decisions (w.turn (perform agent.runtime .file) (i, answer)) =
      Function.update (submissions decisions w) i
        { submissions decisions w i with challenge := some challenge } := by
    rw [submissions_turn hthread, hreply]
    rfl
  have hcollections : (w.turn (perform agent.runtime .file) (i, answer)).store.collections =
      w.store.collections := by
    rw [World.turn_perform hthread]
    rfl
  obtain ⟨k, hk⟩ : ∃ k, challengeKey (decisions i) = .ok k := by
    simp only [fileGet, bind_ok] at hread
    obtain ⟨k, hk, -⟩ := hread
    exact ⟨k, by rw [challengeKey, ← hkey, hk]⟩
  have hstored : w.store.collections.get .approvals k = challenge := by
    simp only [fileGet, bind_ok] at hread
    obtain ⟨k', hk', hread⟩ := hread
    obtain rfl : k' = k := Except.ok.inj (hk'.symm.trans (by rw [hkey]; exact hk))
    split at hread
    · next found hfound => rw [Collections.get, hfound, Option.getD_some, pure_ok.mp hread]
    · next hnone =>
      simp only [bind_ok, exists_unit, pure_ok] at hread
      rw [Collections.get, hnone, ← hread.2]
      rfl
  have hother {j : ℕ} (hij : j ≠ i) {key : Text} {c : Value} :
      WorksOn decisions (w.turn (perform agent.runtime .file) (i, answer)) j key c ↔
        WorksOn decisions w j key c := worksOn_turn_of_ne hthread hij
  -- who read the challenge before is settled
  have hnobody {j : ℕ} (hij : j ≠ i) {c : Value} (hj : WorksOn decisions w j k c) : False :=
    hj.unsettled (hguard key ⟨next, hthread⟩ j hij (by rw [hj.key_eq, hk])
      (by rw [hj.read]; rfl))
  have hself {key : Text} {c : Value}
      (hi : WorksOn decisions (w.turn (perform agent.runtime .file) (i, answer)) i key c) :
      key = k ∧ c = challenge := by
    have hc := hi.read
    rw [hprogress, Function.update_self, Option.some.injEq] at hc
    exact ⟨Except.ok.inj (hi.key_eq.symm.trans hk), hc.symm⟩
  refine ⟨fun j => ?_, fun j hj => ?_, fun j j' key c c' hj hj' => ?_, fun j key c hj => ?_,
    fun k' d key hd hkey' => ?_, ?_⟩
  · rw [hprogress]
    by_cases hij : j = i
    · subst hij
      rw [Function.update_self]
      exact h.decision j
    · rw [Function.update_of_ne hij]
      exact h.decision j
  · by_cases hij : j = i
    · exact ⟨k, hij ▸ hk⟩
    · rw [hprogress, Function.update_of_ne hij] at hj
      exact h.key j hj
  · by_cases hij : j = i
    · subst hij
      obtain ⟨rfl, -⟩ := hself hj
      by_contra hne
      exact hnobody (Ne.symm hne) ((hother (Ne.symm hne)).mp hj')
    · by_cases hij' : j' = i
      · subst hij'
        obtain ⟨rfl, -⟩ := hself hj'
        exact (hnobody hij ((hother hij).mp hj)).elim
      · exact h.alone j j' key c c' ((hother hij).mp hj) ((hother hij').mp hj')
  · rw [hcollections]
    by_cases hij : j = i
    · subst hij
      obtain ⟨rfl, rfl⟩ := hself hj
      exact hstored
    · exact h.current j key c ((hother hij).mp hj)
  · rw [hcollections] at hd ⊢
    refine (h.pending k' d key hd hkey').imp_right ?_
    rintro ⟨j, c, hj, hjstored⟩
    have hij : j ≠ i := by
      rintro rfl
      rw [hj.read] at hnone
      cases hnone
    exact ⟨j, c, (hother hij).mpr hj, by rw [hprogress, Function.update_of_ne hij, hjstored]⟩
  · rw [hcollections]
    exact h.one

private theorem SubmissionInvariant.store (h : SubmissionInvariant decisions w)
    {next : Checked Unit → Program Op Reply (Checked Value)} {challenge record : Value}
    {draft : Collections} (hthread : w.thread i = .perform (.putDecision record) next)
    (hrecord : record = decisionRecord (decisions i) challenge)
    (hnot : (submissions decisions w i).stored = false)
    (hundecided : (submissions decisions w i).decided = false)
    (hread : (submissions decisions w i).challenge = some challenge)
    (hdecides : Decides (decisions i) challenge)
    (hput : putDecision w.store.collections answer.unavailable record = (.ok (), draft)) :
    SubmissionInvariant decisions (w.turn (perform agent.runtime .file) (i, answer)) := by
  obtain ⟨-, -, id, -, hnew, rfl, -⟩ := putDecision_ok.mp hput
  have hreply : perform agent.runtime .file w.store (.putDecision record) answer =
      (.ok (), { w.store with
        collections := w.store.collections.set .approvalDecisions id record }) := by
    rw [perform, hput]
    rfl
  have hprogress : submissions decisions (w.turn (perform agent.runtime .file) (i, answer)) =
      Function.update (submissions decisions w) i
        { submissions decisions w i with stored := true } := by
    rw [submissions_turn hthread, hreply]
    rfl
  have hcollections : (w.turn (perform agent.runtime .file) (i, answer)).store.collections =
      w.store.collections.set .approvalDecisions id record := by
    rw [World.turn_perform hthread, hreply]
  have happrovals (key : Text) :
      (w.store.collections.set .approvalDecisions id record).get .approvals key =
        w.store.collections.get .approvals key :=
    Collections.get_set_of_collection_ne (by decide) _ _ _
  obtain ⟨k, hk⟩ := h.key i (by rw [hread]; rfl)
  have hworks : WorksOn decisions w i k challenge :=
    ⟨hread, hk, fun hsettled => by
      rw [settled_iff hthread, hundecided] at hsettled
      cases hsettled⟩
  have hworks' : WorksOn decisions (w.turn (perform agent.runtime .file) (i, answer)) i k
      challenge := by
    refine ⟨by rw [hprogress, Function.update_self]; exact hread, hk, ?_⟩
    rintro (hdecided | ⟨hstored, -⟩)
    · rw [hprogress, Function.update_self] at hdecided
      exact absurd hdecided (by simp [hundecided])
    · rw [hprogress, Function.update_self] at hstored
      cases hstored
  have hiff {j : ℕ} {key : Text} {c : Value} :
      WorksOn decisions (w.turn (perform agent.runtime .file) (i, answer)) j key c ↔
        WorksOn decisions w j key c := by
    by_cases hij : j = i
    · subst hij
      constructor
      · intro hj
        have hc := hj.read
        rw [hprogress, Function.update_self] at hc
        exact ⟨hc, hj.key_eq, hworks.unsettled⟩
      · intro hj
        refine ⟨by rw [hprogress, Function.update_self]; exact hj.read, hj.key_eq, ?_⟩
        exact hworks'.unsettled
    · exact worksOn_turn_of_ne hthread hij
  -- no decision is stored for a challenge that its only reader finds pending
  have hfirst {k' : Text} {d : Value} (hd : (w.store.collections .approvalDecisions).get? k' = some d)
      (hkey : challengeKey d = .ok k) : False := by
    rcases h.pending k' d k hd hkey with hstatus | ⟨j, c, hj, hstored⟩
    · rw [h.current i k challenge hworks, hdecides.pending] at hstatus
      cases hstatus
    · obtain rfl := h.alone j i k c challenge hj hworks
      rw [hnot] at hstored
      cases hstored
  have hrecordKey : challengeKey record = .ok k := by rw [hrecord, challengeKey_record, hk]
  have hget {k' : Text} {d : Value}
      (hd : ((w.store.collections.set .approvalDecisions id record) .approvalDecisions).get? k' =
        some d) : (k' = id ∧ d = record) ∨
        (k' ≠ id ∧ (w.store.collections .approvalDecisions).get? k' = some d) := by
    rw [Collections.set, Function.update_self] at hd
    by_cases hsame : k' = id
    · subst hsame
      rw [OrderedMap.get?_set_self, Option.some.injEq] at hd
      exact .inl ⟨rfl, hd.symm⟩
    · rw [OrderedMap.get?_set_of_ne _ hsame] at hd
      exact .inr ⟨hsame, hd⟩
  refine ⟨fun j => ?_, fun j hj => ?_,
    fun j j' key c c' hj hj' => h.alone j j' key c c' (hiff.mp hj) (hiff.mp hj'),
    fun j key c hj => ?_, fun k' d key hd hkey => ?_, ?_⟩
  · rw [hprogress]
    by_cases hij : j = i
    · subst hij
      rw [Function.update_self]
      exact h.decision j
    · rw [Function.update_of_ne hij]
      exact h.decision j
  · rw [hprogress] at hj
    by_cases hij : j = i
    · exact ⟨k, hij ▸ hk⟩
    · rw [Function.update_of_ne hij] at hj
      exact h.key j hj
  · rw [hcollections, happrovals]
    exact h.current j key c (hiff.mp hj)
  · rw [hcollections] at hd ⊢
    rw [happrovals]
    rcases hget hd with ⟨-, rfl⟩ | ⟨-, hd⟩
    · obtain rfl : k = key := Except.ok.inj (hrecordKey.symm.trans hkey)
      exact .inr ⟨i, challenge, hworks', by rw [hprogress, Function.update_self]⟩
    · refine (h.pending k' d key hd hkey).imp_right ?_
      rintro ⟨j, c, hj, hstored⟩
      refine ⟨j, c, hiff.mpr hj, ?_⟩
      rw [hprogress]
      by_cases hij : j = i
      · subst hij
        rw [Function.update_self]
      · rw [Function.update_of_ne hij, hstored]
  · rw [hcollections]
    intro k₁ k₂ d₁ d₂ key h₁ h₂ hkey₁ hkey₂
    rcases hget h₁ with ⟨rfl, rfl⟩ | ⟨-, g₁⟩ <;> rcases hget h₂ with ⟨rfl, rfl⟩ | ⟨-, g₂⟩
    · rfl
    · obtain rfl : k = key := Except.ok.inj (hrecordKey.symm.trans hkey₁)
      exact (hfirst g₂ hkey₂).elim
    · obtain rfl : k = key := Except.ok.inj (hrecordKey.symm.trans hkey₂)
      exact (hfirst g₁ hkey₁).elim
    · exact h.one k₁ k₂ d₁ d₂ key g₁ g₂ hkey₁ hkey₂

private theorem SubmissionInvariant.decide (h : SubmissionInvariant decisions w)
    {next : Checked Unit → Program Op Reply (Checked Value)} {challenge key value : Value}
    {draft : Collections} (hthread : w.thread i = .perform (.put .approvals key value) next)
    (hundecided : (submissions decisions w i).decided = false)
    (hread : (submissions decisions w i).challenge = some challenge)
    (hdecides : Decides (decisions i) challenge)
    (hkey : key = challenge.field (ascii "challengeId"))
    (hvalue : value = decidedChallenge (decisions i) challenge)
    (hput : filePut w.store.collections answer.unavailable .approvals key value = (.ok (), draft)) :
    SubmissionInvariant decisions (w.turn (perform agent.runtime .file) (i, answer)) := by
  obtain ⟨-, -, k, hk, rfl, -⟩ := filePut_ok.mp hput
  have hreply : perform agent.runtime .file w.store (.put .approvals key value) answer =
      (.ok (), { w.store with collections := w.store.collections.set .approvals k value }) := by
    rw [perform, storageWrite, hput]
    rfl
  have hprogress : submissions decisions (w.turn (perform agent.runtime .file) (i, answer)) =
      Function.update (submissions decisions w) i
        { submissions decisions w i with decided := true } := by
    rw [submissions_turn hthread, hreply]
    rfl
  have hcollections : (w.turn (perform agent.runtime .file) (i, answer)).store.collections =
      w.store.collections.set .approvals k value := by
    rw [World.turn_perform hthread, hreply]
  have hdecisions : (w.store.collections.set .approvals k value) .approvalDecisions =
      w.store.collections .approvalDecisions := Collections.set_of_ne (by decide) _ _
  have hchallenge : challengeKey (decisions i) = .ok k := by
    rw [challengeKey, validKey_congr hdecides.challengeId, ← hkey, hk]
  have hworks : WorksOn decisions w i k challenge :=
    ⟨hread, hchallenge, fun hsettled => by
      rw [settled_iff hthread, hundecided] at hsettled
      cases hsettled⟩
  have hsettled : SubmissionSettled decisions (w.turn (perform agent.runtime .file) (i, answer)) i :=
    .inl (by rw [hprogress, Function.update_self])
  -- the others work on other challenges
  have hother {j : ℕ} {key : Text} {c : Value}
      (hj : WorksOn decisions (w.turn (perform agent.runtime .file) (i, answer)) j key c) :
      WorksOn decisions w j key c ∧ j ≠ i ∧ key ≠ k := by
    have hij : j ≠ i := by
      rintro rfl
      exact hj.unsettled hsettled
    have hjw := (worksOn_turn_of_ne hthread hij).mp hj
    refine ⟨hjw, hij, ?_⟩
    rintro rfl
    exact hij (h.alone j i key c challenge hjw hworks)
  refine ⟨fun j => ?_, fun j hj => ?_,
    fun j j' key c c' hj hj' => h.alone j j' key c c' (hother hj).1 (hother hj').1,
    fun j key c hj => ?_, fun k' d key' hd hkey' => ?_, ?_⟩
  · rw [hprogress]
    by_cases hij : j = i
    · subst hij
      rw [Function.update_self]
      exact h.decision j
    · rw [Function.update_of_ne hij]
      exact h.decision j
  · rw [hprogress] at hj
    by_cases hij : j = i
    · exact ⟨k, hij ▸ hchallenge⟩
    · rw [Function.update_of_ne hij] at hj
      exact h.key j hj
  · obtain ⟨hjw, -, hne⟩ := hother hj
    rw [hcollections, Collections.get_set_of_ne hne]
    exact h.current j key c hjw
  · rw [hcollections] at hd ⊢
    rw [hdecisions] at hd
    by_cases hsame : key' = k
    · subst hsame
      rw [Collections.get_set_self, hvalue]
      exact .inl (decidedChallenge_pending _ _)
    · rw [Collections.get_set_of_ne hsame]
      refine (h.pending k' d key' hd hkey').imp_right ?_
      rintro ⟨j, c, hj, hstored⟩
      have hij : j ≠ i := by
        rintro rfl
        exact hsame (Except.ok.inj (hj.key_eq.symm.trans hchallenge))
      exact ⟨j, c, (worksOn_turn_of_ne hthread hij).mpr hj,
        by rw [hprogress, Function.update_of_ne hij, hstored]⟩
  · rw [hcollections]
    intro k₁ k₂ d₁ d₂ key' h₁ h₂ hkey₁ hkey₂
    rw [hdecisions] at h₁ h₂
    exact h.one k₁ k₂ d₁ d₂ key' h₁ h₂ hkey₁ hkey₂

end Invariant

theorem submissionInvariant (agent : Agent) (decisions : ℕ → Value) :
    Invariant (perform agent.runtime .file) submissionMonitor (fun i => { decision := decisions i })
      (readsSettled decisions) (SubmissionInvariant decisions) where
  replies _ _ _ _ _ _ _ _ _ := trivial
  keeps w i answer op next h hguard hthread hallowed := by
    cases op with
    | clock => exact h.quiet hthread rfl rfl
    | get collection key =>
      cases collection with
      | approvals =>
        obtain ⟨hnone, -, -, hkey⟩ := hallowed
        rw [h.decision i] at hkey
        cases hread : fileGet w.store.collections .approvals key with
        | ok challenge => exact h.read hthread hnone hkey hguard hread
        | error failure =>
          have hreply : (perform agent.runtime .file w.store (.get .approvals key) answer).1 =
              .error failure := hread
          exact h.quiet hthread rfl (by rw [hreply]; rfl)
      | _ => exact hallowed.elim
    | putDecision record =>
      obtain ⟨hnot, hundecided, challenge, hread, hdecides, hrecord⟩ := hallowed
      have hdecision : (submissions decisions w i).decision = decisions i := h.decision i
      rw [hdecision] at hdecides hrecord
      cases hput : putDecision w.store.collections answer.unavailable record with
      | mk reply draft =>
        cases reply with
        | ok u => exact h.store hthread hrecord hnot hundecided hread hdecides hput
        | error failure =>
          have hdraft : draft = w.store.collections :=
            (congrArg Prod.snd hput).symm.trans (exclusive_error (congrArg Prod.fst hput))
          have hreply : perform agent.runtime .file w.store (.putDecision record) answer =
              (.error failure, { w.store with collections := draft }) := by rw [perform, hput]; rfl
          exact h.quiet hthread (by rw [hreply]; exact hdraft) (by rw [hreply]; rfl)
    | put collection key value =>
      cases collection with
      | approvals =>
        obtain ⟨-, hundecided, challenge, hread, hdecides, hkey, hvalue⟩ := hallowed
        have hdecision : (submissions decisions w i).decision = decisions i := h.decision i
        rw [hdecision] at hdecides hvalue
        cases hput : filePut w.store.collections answer.unavailable .approvals key value with
        | mk reply draft =>
          cases reply with
          | ok u => exact h.decide hthread hundecided hread hdecides hkey hvalue hput
          | error failure =>
            have hdraft : draft = w.store.collections :=
              (congrArg Prod.snd hput).symm.trans (exclusive_error (congrArg Prod.fst hput))
            have hreply : perform agent.runtime .file w.store (.put .approvals key value) answer =
                (.error failure, { w.store with collections := draft }) := by
              rw [perform, storageWrite, hput]
              rfl
            exact h.quiet hthread (by rw [hreply]; exact hdraft) (by rw [hreply]; rfl)
      | _ => exact hallowed.elim
    | _ => exact hallowed.elim

def submissionStart (agent : Agent) (decisions : ℕ → Value) (store : Collections) : AgentWorld :=
  World.initial { collections := store } (submissionThreads agent decisions)

abbrev submissionsAfter (agent : Agent) (decisions : ℕ → Value) (store : Collections)
    (calls : List (ℕ × Answer)) : AgentWorld :=
  after (World.turn (perform agent.runtime .file)) (submissionStart agent decisions store) calls

/-- At most one decision is stored for each challenge, in every run in which no submission reads a
challenge that another one still works on. -/
theorem one_decision_each (agent : Agent) (hproduction : agent.isProduction = true)
    (decisions : ℕ → Value) (store : Collections) (hone : OneDecisionEach store)
    (hdecided : DecidedOnce store) (calls : List (ℕ × Answer))
    (hguard : Guarded (World.turn (perform agent.runtime .file)) (readsSettled decisions)
      (submissionStart agent decisions store) calls) :
    OneDecisionEach (submissionsAfter agent decisions store calls).store.collections := by
  have hfollows : (submissionStart agent decisions store).Monitored submissionMonitor
      (fun i => { decision := decisions i }) fun _ => Submitted :=
    fun i => submitApprovalDecision_follows hproduction (decisions i)
  refine ((submissionInvariant agent decisions).after ?_ hfollows hguard).1.one
  have hnobody {i : ℕ} {key : Text} {challenge : Value} :
      ¬WorksOn decisions (submissionStart agent decisions store) i key challenge :=
    fun h => nomatch h.read
  exact
    { decision := fun _ => rfl
      key := fun _ h => nomatch h
      alone := fun _ _ _ _ _ h => (hnobody h).elim
      current := fun _ _ _ h => (hnobody h).elim
      pending := fun k d key hd hkey => .inl (hdecided k d key hd hkey)
      one := hone }

theorem guarded_alone (agent : Agent) (decisions : ℕ → Value) {w : AgentWorld} {i : ℕ}
    {calls : List (ℕ × Answer)} (halone : ∀ j, j ≠ i → (submissions decisions w j).challenge = none)
    (hcalls : ∀ call ∈ calls, call.1 = i) :
    Guarded (World.turn (perform agent.runtime .file)) (readsSettled decisions) w calls := by
  induction calls generalizing w with
  | nil => trivial
  | cons call calls ih =>
    obtain ⟨i', answer⟩ := call
    obtain rfl : i' = i := hcalls (i', answer) List.mem_cons_self
    refine ⟨fun key _ j hj _ hsome => ?_, ih (fun j hj => ?_) fun c hc =>
      hcalls c (List.mem_cons_of_mem _ hc)⟩
    · rw [halone j hj] at hsome
      cases hsome
    · rcases World.turn_cases (perform agent.runtime .file) w (i', answer) with
        ⟨hturn, -⟩ | ⟨op, next, hthread, -⟩
      · rw [hturn]
        exact halone j hj
      · rw [submissions_turn hthread, Function.update_of_ne hj]
        exact halone j hj

private def exampleActionDigest : Value := .string (ascii "AAAAAAAAAAAAAAAAAAAAAAAAAAAAAAAAAAAAAAAAAAA")

private def exampleChallenge : Value :=
  let text (name value : String) : String × Value := (name, .string (ascii value))
  .record [text "challengeId" "c", text "invocationId" "i", text "organizationScope" "o",
    text "workspaceScope" "w", text "actionKey" "k", ("approvalActionDigest", exampleActionDigest), text "safeSummary" "s",
    ("requiredRoleCategories", .array []), ("approvalLimits", .record []),
    text "expiresAt" "1970-01-01T01:00:00.000Z", text "requestedBy" "a",
    text "policyDecisionReference" "p", text "status" "pending"]

private def exampleDecision (decisionId decision : String) : Value :=
  let text (name value : String) : String × Value := (name, .string (ascii value))
  .record [text "challengeId" "c", text "decisionId" decisionId, text "decision" decision,
    ("approvalActionDigest", exampleActionDigest), ("approvedLimits", .record []),
    text "decidedBy" "u", text "decidedAt" "1970-01-01T00:00:00.000Z", text "safeReasonCode" "r"]

private def exampleDecisions (i : ℕ) : Value :=
  if i = 0 then exampleDecision "yes" "approved" else exampleDecision "no" "rejected"

private def exampleApprover : Agent where
  runtime := epochRuntime
  mode := .productionMode
  passport := .record []

private def examplePending : Collections := Collections.empty.set .approvals (ascii "c") exampleChallenge

private def exampleRun : List (ℕ × Answer) := [(0, {}), (1, {}), (0, {}), (1, {}), (0, {}), (1, {})]

private theorem exampleRun_approved :
    ((submissionsAfter exampleApprover exampleDecisions examplePending exampleRun).store.collections
      .approvalDecisions).get? (ascii "yes") =
        some (decisionRecord (exampleDecisions 0) exampleChallenge) := by
  decide +kernel

private theorem exampleRun_rejected :
    ((submissionsAfter exampleApprover exampleDecisions examplePending exampleRun).store.collections
      .approvalDecisions).get? (ascii "no") =
        some (decisionRecord (exampleDecisions 1) exampleChallenge) := by
  decide +kernel

/-- A challenge yields an approval and a rejection. -/
theorem approved_and_rejected :
    (exampleDecisions 0).field (ascii "decisionId") ≠ (exampleDecisions 1).field (ascii "decisionId") ∧
      (OneDecisionEach examplePending ∧ DecidedOnce examplePending) ∧
      ¬OneDecisionEach (submissionsAfter exampleApprover exampleDecisions examplePending
        exampleRun).store.collections := by
  refine ⟨by decide, ⟨fun _ _ _ _ _ h => (nomatch h), fun _ _ _ h => (nomatch h)⟩, fun h => ?_⟩
  have hsame := h _ _ _ _ (ascii "c") exampleRun_approved exampleRun_rejected (by decide)
    (by decide)
  revert hsame
  decide

theorem one_decision_each_alone :
    OneDecisionEach (submissionsAfter exampleApprover exampleDecisions examplePending
      [(0, {}), (0, {}), (0, {}), (0, {})]).store.collections :=
  one_decision_each exampleApprover rfl exampleDecisions examplePending
    (fun _ _ _ _ _ h => nomatch h) (fun _ _ _ h => nomatch h) _
    (guarded_alone (i := 0) exampleApprover exampleDecisions (fun _ _ => rfl) (by simp))

end GhostBridge.NativeAgent
