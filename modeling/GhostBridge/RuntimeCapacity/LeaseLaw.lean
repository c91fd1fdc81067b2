import GhostBridge.RuntimeCapacity.LeaseStanding
import Mathlib.Data.List.Pairwise

/-!
# The law of leases

From what stands in every state: the limits, what a lease that was returned keeps, what a renewal
that reports success has found, and what an acquisition that throws leaves behind.
-/

namespace GhostBridge.RuntimeCapacity

open Ecma Machine

variable {settings : Settings} {calls : ℕ → Call} {w : CapacityWorld} {i k : ℕ} {op : Op}
  {answer : Answer} {lease : Lease}

theorem Standing.count_le (h : Standing settings calls w) (scope : Scope) :
    w.store.slots.countP (fun s => s.scope = scope ∧ w.store.clock < s.leaseExpiresAt) ≤
      settings.limit scope.scopeType := by
  apply countP_le_of_slots Slot.slotNumber
  · refine h.index.imp fun {a b} hfree ha hb hslot => ?_
    simp only [decide_eq_true_eq] at ha hb
    have hclash : a.clashes b = true := by
      simp only [Slot.clashes, decide_eq_true_eq]
      exact ⟨ha.1.trans hb.1.symm, hslot⟩
    rw [hclash] at hfree
    cases hfree
  · intro s hs hscope
    simp only [decide_eq_true_eq] at hscope
    rw [← hscope.1]
    exact h.numbers s hs

def HoldsBoth (store : Store) (lease : Lease) : Prop :=
  ∀ scopeType, ∃ s ∈ store.slots, s.leaseId = lease.leaseId ∧ s.scope = lease.scope scopeType ∧
    ∀ s' ∈ store.slots, s'.leaseId = lease.leaseId → s'.scope.scopeType = scopeType → s' = s

def Unexpired (store : Store) (leaseId : Text) : Prop :=
  ∀ s ∈ store.slots, s.leaseId = leaseId → store.clock < s.leaseExpiresAt

def HeldUntil (store : Store) (lease : Lease) (leaseExpiresAt : ℕ) : Prop :=
  ∀ scopeType, ∃ s ∈ store.slots, s.IsOf lease ∧ s.scope.scopeType = scopeType ∧
    s.leaseExpiresAt = leaseExpiresAt

theorem HeldUntil.held {store : Store} {leaseExpiresAt : ℕ}
    (h : HeldUntil store lease leaseExpiresAt) (scopeType : ScopeType) :
    ∃ s ∈ store.slots, s.IsOf lease ∧ s.scope.scopeType = scopeType := by
  obtain ⟨s, hs, hof, hscope, -⟩ := h scopeType
  exact ⟨s, hs, hof, hscope⟩

theorem Standing.eq_of_scopeType (h : Standing settings calls w) {a b : Slot}
    (ha : a ∈ w.store.slots) (hb : b ∈ w.store.slots) (hlease : a.leaseId = b.leaseId)
    (hscope : a.scope.scopeType = b.scope.scopeType) : a = b := by
  by_contra hne
  have hsymmetric : Std.Symm fun a b : Slot =>
      a.leaseId = b.leaseId → a.scope.scopeType ≠ b.scope.scopeType :=
    ⟨fun a b hab hlease hscope => hab hlease.symm hscope.symm⟩
  exact h.once.forall ha hb hne hlease hscope

theorem Standing.holdsBoth (h : Standing settings calls w)
    (hheld : ∀ scopeType, ∃ s ∈ w.store.slots, s.IsOf lease ∧ s.scope.scopeType = scopeType) :
    HoldsBoth w.store lease := by
  intro scopeType
  obtain ⟨s, hs, hof, hscope⟩ := hheld scopeType
  refine ⟨s, hs, hof.leaseId, ?_, ?_⟩
  · rw [hof.scope, hscope]
  · intro s' hs' hlease hscope'
    exact h.eq_of_scopeType hs' hs (hlease.trans hof.leaseId.symm) (hscope'.trans hscope.symm)

/-- Nothing of the lease has expired, and no release of it takes effect in the turn. -/
def Undisturbed (leaseId : Text) (w : CapacityWorld) (turn : ℕ × Answer) : Prop :=
  Unexpired w.store leaseId ∧
    ∀ workspaceId, w.Next turn.1 (.deleteMany workspaceId leaseId) → turn.2.fault = some .before

theorem ended_turn {result : Except Failure Outcome} (h : w.Ended k result) (turn : ℕ × Answer) :
    (w.turn perform turn).Ended k result := by
  obtain ⟨i, answer⟩ := turn
  rcases World.turn_cases perform w (i, answer) with ⟨hsame, -⟩ | ⟨op, next, hthread, hturn⟩
  · rw [hsame]
    exact h
  · have hne : k ≠ i := by
      rintro rfl
      rw [World.Ended, hthread] at h
      cases h
    rw [World.Ended, hturn]
    exact (Function.update_of_ne hne _ _).trans h

section Turn

variable {next : Reply op → Program Op Reply (Except Failure Outcome)} {leaseExpiresAt : ℕ}

theorem held_beside (h : Standing settings calls w) (hconducted : Conducted settings calls w)
    (hthread : w.thread i = .perform op next) (hid : op.leaseId? ≠ some lease.leaseId)
    (hheld : HeldUntil w.store lease leaseExpiresAt) :
    HeldUntil (w.turn perform (i, answer)).store lease leaseExpiresAt ∨
      ¬Unexpired (w.turn perform (i, answer)).store lease.leaseId := by
  obtain ⟨a, ha, haof, hascope, haexpires⟩ := hheld .workspace
  obtain ⟨b, hb, hbof, hbscope, hbexpires⟩ := hheld .connection
  have hexpired {s : Slot} (hs : s ∈ (w.turn perform (i, answer)).store.slots) (hof : s.IsOf lease)
      (hexpires : s.leaseExpiresAt ≤ (w.turn perform (i, answer)).store.clock) :
      ¬Unexpired (w.turn perform (i, answer)).store lease.leaseId :=
    fun hunexpired => absurd hexpires (Nat.not_le.mpr (hunexpired s hs hof.leaseId))
  rcases h.spares hconducted hthread ha (haof.leaseId ▸ hid) with
    ha' | ⟨haexpired, slot, now, hop, haclash⟩
  · rcases h.spares hconducted hthread hb (hbof.leaseId ▸ hid) with
      hb' | ⟨hbexpired, -⟩
    · left
      intro scopeType
      cases scopeType with
      | workspace => exact ⟨a, ha', haof, hascope, haexpires⟩
      | connection => exact ⟨b, hb', hbof, hbscope, hbexpires⟩
    · exact .inr (hexpired ha' haof (by omega))
  · right
    rcases h.spares hconducted hthread hb (hbof.leaseId ▸ hid) with
      hb' | ⟨-, slot', now', hop', hbclash⟩
    · exact hexpired hb' hbof (by omega)
    · -- One claim does not take slots of two scopes.
      obtain ⟨rfl, -⟩ := Op.findOneAndUpdate.inj (hop.symm.trans hop')
      simp only [Slot.clashes, decide_eq_true_eq] at haclash hbclash
      rw [haclash.1, ← hbclash.1, hbscope] at hascope
      cases hascope

theorem held_renewed {given : Lease} {now : ℕ}
    {rest : Reply (.updateMany given now leaseExpiresAt) →
      Program Op Reply (Except Failure Outcome)}
    (hsame : lease = { given with leaseExpiresAt := lease.leaseExpiresAt }) {e : ℕ}
    (hheld : HeldUntil w.store lease e)
    (hthread : w.thread i = .perform (.updateMany given now leaseExpiresAt) rest) :
    ∃ e', HeldUntil (w.turn perform (i, answer)).store lease e' := by
  rw [store_turn hthread]
  rcases renewed w.store answer given now leaseExpiresAt with ⟨hslots, -⟩ | ⟨hslots, -⟩
  · refine ⟨e, fun scopeType => ?_⟩
    rw [hslots]
    exact hheld scopeType
  have hrenewable {s : Slot} (hof : s.IsOf lease) (hexpires : s.leaseExpiresAt = e) :
      Store.isRenewable given now s = true ↔ now < e := by
    have hworkspace : s.scope.workspaceId = given.workspaceId := by
      rw [hof.scope, Lease.scope_workspaceId, hsame]
    have hinvocation : s.invocationId = given.invocationId := by
      rw [hof.invocationId, hsame]
    have hlease : s.leaseId = given.leaseId := by
      rw [hof.leaseId, hsame]
    simp only [Store.isRenewable, decide_eq_true_eq, hworkspace, hinvocation, hlease, hexpires,
      true_and]
  by_cases hnow : now < e
  · refine ⟨leaseExpiresAt, fun scopeType => ?_⟩
    obtain ⟨s, hs, hof, hscope, hexpires⟩ := hheld scopeType
    refine ⟨{ s with leaseExpiresAt := leaseExpiresAt }, ?_, hof.extended _, hscope, rfl⟩
    rw [hslots]
    exact List.mem_map.mpr ⟨s, hs, if_pos ((hrenewable hof hexpires).mpr hnow)⟩
  · refine ⟨e, fun scopeType => ?_⟩
    obtain ⟨s, hs, hof, hscope, hexpires⟩ := hheld scopeType
    refine ⟨s, ?_, hof, hscope, hexpires⟩
    rw [hslots]
    exact List.mem_map.mpr ⟨s, hs, if_neg fun hrenew => hnow ((hrenewable hof hexpires).mp hrenew)⟩

theorem held_turn (h : Standing settings calls w) (hdistinct : DistinctLeases calls)
    (hconducted : Conducted settings calls w) (hissued : Issued calls w (i, answer))
    (hthread : w.thread i = .perform op next) (hundisturbed : Undisturbed lease.leaseId w (i, answer))
    (hfor : (calls k).IsFor lease) (hne : i ≠ k) {e : ℕ} (hheld : HeldUntil w.store lease e) :
    (∃ e', HeldUntil (w.turn perform (i, answer)).store lease e') ∨
      ¬Unexpired (w.turn perform (i, answer)).store lease.leaseId := by
  by_cases hid : op.leaseId? = some lease.leaseId
  · left
    have hallowed := allowed_of_thread hconducted hthread
    have hcall : (progress settings calls w i).call = calls i := progress_call w i
    rcases actor hdistinct hconducted hissued hthread hfor hid with hi | ⟨given, hgiven, -, hreturned⟩
    · exact absurd hi hne
    have hsame := hreturned.isFor.unique hfor
    cases op with
    | clock => cases hid
    | findOneAndUpdate slot now =>
      obtain ⟨lease', scopeType, slotNumber, hclaims⟩ := hallowed
      have hacquires := hclaims.ready.isFor
      rw [hcall] at hacquires
      rw [hacquires] at hgiven
      cases hgiven
    | deleteMany workspaceId leaseId =>
      obtain rfl : leaseId = lease.leaseId := Option.some.inj hid
      have hfault := hundisturbed.2 workspaceId ⟨next, hthread⟩
      rcases deleted w.store answer workspaceId lease.leaseId with ⟨-, hslots, -⟩ | ⟨hnot, -⟩
      · refine ⟨e, fun scopeType => ?_⟩
        rw [store_turn hthread, hslots]
        exact hheld scopeType
      · exact absurd hfault hnot
    | updateMany given' now expiresAt =>
      obtain ⟨-, -, leaseDurationMs, hrenew, -⟩ := hallowed
      rw [hcall] at hrenew
      rw [hrenew] at hgiven
      obtain rfl : given' = given := Option.some.inj hgiven
      exact held_renewed hsame hheld hthread
  · exact (held_beside h hconducted hthread hid hheld).imp_left fun hheld' => ⟨e, hheld'⟩

theorem held_first (h : Standing settings calls w) (hconducted : Conducted settings calls w)
    (hthread : w.thread k = .perform op next)
    (hended : (w.turn perform (k, answer)).Ended k (.ok (.acquired (.leased lease)))) :
    (calls k).IsFor lease ∧
      (HeldUntil (w.turn perform (k, answer)).store lease lease.leaseExpiresAt ∨
        ¬Unexpired (w.turn perform (k, answer)).store lease.leaseId) := by
  obtain ⟨hfor, hclaimed, now, hnow, hexpires⟩ :=
    ends_of_ended (conducted_turn hconducted (k, answer)) hended
  rw [progress_call] at hfor
  refine ⟨hfor, ?_⟩
  have hallowed := allowed_of_thread hconducted hthread
  rw [progress_turn hthread, if_pos rfl] at hclaimed hnow
  have hclock : w.store.clock ≤ (perform w.store op answer).2.clock := by
    rw [perform_clock]
    exact Nat.le_add_right _ _
  rw [store_turn hthread]
  cases op with
  | clock =>
    have hnone : (progress settings calls w k).claimed = [] := hallowed.2
    have hsame : (progress settings calls w k).claimed = [.connection, .workspace] := hclaimed
    rw [hnone] at hsame
    cases hsame
  | findOneAndUpdate slot time =>
    obtain ⟨lease', scopeType, slotNumber, hclaims⟩ := hallowed
    have hbefore : (progress settings calls w k).claimed = scopeType.before := hclaims.ready.claimed
    have hnotYet : scopeType.before ≠ [.connection, .workspace] := by
      cases scopeType <;> decide
    have hclaim := claimed w.store answer slot time
    generalize (perform w.store (.findOneAndUpdate slot time) answer).1 = reply
      at hclaim hclaimed hnow
    generalize hslots : (perform w.store (.findOneAndUpdate slot time) answer).2.slots = slots
      at hclaim
    cases hclaim with
    | refused e hfault => cases e <;> exact absurd (hbefore.symm.trans hclaimed) hnotYet
    | put reply hfree hreply =>
      rcases hreply with rfl | ⟨rfl, -⟩
      · obtain ⟨hconnection, hworkspace⟩ := List.cons.inj hclaimed
        have hmem : slot ∈ (perform w.store (.findOneAndUpdate slot time) answer).2.slots := by
          rw [hslots]
          exact List.mem_append_right _ (List.mem_singleton_self _)
        have hslotOf : slot.IsOf lease := by
          have hfor' := hclaims.ready.isFor
          rw [progress_call] at hfor'
          rw [hclaims.slot_eq]
          exact (Slot.isOf_slot _ _ _ _).congr (hfor'.unique hfor)
        have hslotExpires : slot.leaseExpiresAt = lease.leaseExpiresAt := by
          have htime : time = now := Option.some.inj (hclaims.ready.read.symm.trans hnow)
          rw [hclaims.slot_eq, hexpires, ← htime]
          exact hclaims.ready.expires
        rcases h.between k lease now hfor hworkspace hclaims.ready.sound hnow with
          ⟨s, hs, hof, hscope, hsexpires⟩ | hexpired
        · left
          intro scopeType
          cases scopeType with
          | workspace =>
            refine ⟨s, ?_, hof, hscope, hsexpires.trans hexpires.symm⟩
            rw [hslots]
            refine List.mem_append_left _ (List.mem_filter.mpr ⟨hs, ?_⟩)
            simp only [Slot.clashes, Bool.not_eq_true', decide_eq_false_iff_not]
            intro hclash
            rw [hclash.1, hconnection] at hscope
            cases hscope
          | connection => exact ⟨slot, hmem, hslotOf, hconnection, hslotExpires⟩
        · right
          intro hunexpired
          have hlive := hunexpired slot hmem hslotOf.leaseId
          omega
      · exact absurd (hbefore.symm.trans hclaimed) hnotYet
  | deleteMany workspaceId leaseId =>
    have hnotYet : (progress settings calls w k).claimed ≠ [.connection, .workspace] := by
      obtain ⟨lease', -, -, ⟨-, hworkspace⟩ | hrelease⟩ := hallowed
      · rw [hworkspace]
        decide
      · rw [progress_call, hfor] at hrelease
        cases hrelease
    generalize (perform w.store (.deleteMany workspaceId leaseId) answer).1 = reply at hclaimed
    cases reply <;> exact absurd hclaimed hnotYet
  | updateMany given time expiresAt =>
    obtain ⟨-, -, leaseDurationMs, hrenew, -⟩ := hallowed
    rw [progress_call, hfor] at hrenew
    cases hrenew

end Turn

structure HeldSince (settings : Settings) (calls : ℕ → Call) (k : ℕ) (lease : Lease)
    (w : CapacityWorld) : Prop where
  standing : Standing settings calls w
  conducted : Conducted settings calls w
  ended : w.Ended k (.ok (.acquired (.leased lease)))
  held : (∃ e, HeldUntil w.store lease e) ∨ ¬Unexpired w.store lease.leaseId

theorem heldSince_turn (hdistinct : DistinctLeases calls) (h : HeldSince settings calls k lease w)
    (hfor : (calls k).IsFor lease) {turn : ℕ × Answer} (hissued : Issued calls w turn)
    (hundisturbed : Undisturbed lease.leaseId w turn) :
    HeldSince settings calls k lease (w.turn perform turn) := by
  refine ⟨standing_turn hdistinct h.standing h.conducted hissued, conducted_turn h.conducted turn,
    ended_turn h.ended turn, ?_⟩
  obtain ⟨i, answer⟩ := turn
  rcases World.turn_cases perform w (i, answer) with ⟨hsame, -⟩ | ⟨op, next, hthread, -⟩
  · rw [hsame]
    exact h.held
  · have hne : i ≠ k := by
      rintro rfl
      have hended := h.ended
      rw [World.Ended, hthread] at hended
      cases hended
    rcases h.held with ⟨e, hheld⟩ | hexpired
    · exact held_turn h.standing hdistinct h.conducted hissued hthread hundisturbed hfor hne hheld
    · exact absurd hundisturbed.1 hexpired

theorem Standing.renewable_of_count (h : Standing settings calls w) {given : Lease} {now : ℕ}
    (hcount : 2 ≤ w.store.slots.countP (Store.isRenewable given now)) (scopeType : ScopeType) :
    ∃ s ∈ w.store.slots, Store.isRenewable given now s = true ∧ s.scope.scopeType = scopeType := by
  by_contra hnone
  have hother {s : Slot} (hs : s ∈ w.store.slots) (hrenewable : Store.isRenewable given now s = true) :
      s.scope.scopeType ≠ scopeType :=
    fun hscope => hnone ⟨s, hs, hrenewable, hscope⟩
  have hone : w.store.slots.countP (Store.isRenewable given now) ≤ 1 := by
    apply countP_le_of_slots fun _ => 1
    · refine h.once.imp_of_mem fun {a b} hmem hmem' honce ha hb => ?_
      have hscope : a.scope.scopeType = b.scope.scopeType := by
        have hleft := hother hmem ha
        have hright := hother hmem' hb
        revert hleft hright
        cases a.scope.scopeType <;> cases b.scope.scopeType <;> cases scopeType <;> decide
      simp only [Store.isRenewable, decide_eq_true_eq] at ha hb
      exact absurd hscope (honce (ha.2.2.1.trans hb.2.2.1.symm))
    · intro s _ _
      exact ⟨le_rfl, le_rfl⟩
  omega

variable {clock : ℕ} {turns : List (ℕ × Answer)}

theorem ended_after {result : Except Failure Outcome} (h : w.Ended k result)
    (turns : List (ℕ × Answer)) : (after (World.turn perform) w turns).Ended k result :=
  after_induction (I := fun w : CapacityWorld => w.Ended k result) h
    fun _ turn hended _ => ended_turn hended turn

theorem IssuedRun.of_append {before rest : List (ℕ × Answer)}
    (h : IssuedRun settings clock calls (before ++ rest)) :
    IssuedRun settings clock calls before :=
  ((guarded_append before rest).mp h).1

theorem renewal_of_turn (h : Standing settings calls w) (hdistinct : DistinctLeases calls)
    (hconducted : Conducted settings calls w) (hissued : Issued calls w (i, answer))
    {next : Reply op → Program Op Reply (Except Failure Outcome)}
    (hthread : w.thread i = .perform op next)
    (hnot : ¬2 ≤ (progress settings calls w i).matched)
    (hmatched : 2 ≤ (progress settings calls (w.turn perform (i, answer)) i).matched) :
    ∃ given leaseDurationMs now,
      calls i = .renew true (some (.leased given)) leaseDurationMs ∧
      (progress settings calls (w.turn perform (i, answer)) i).now = some now ∧
      (∀ scopeType, ∃ s ∈ w.store.slots, s.IsOf given ∧ s.scope.scopeType = scopeType) ∧
      HeldUntil (w.turn perform (i, answer)).store given
        (now + leaseDuration settings leaseDurationMs) := by
  have hallowed := allowed_of_thread hconducted hthread
  rw [progress_turn hthread, if_pos rfl] at hmatched ⊢
  rw [store_turn hthread]
  cases op with
  | clock => exact absurd hmatched hnot
  | findOneAndUpdate slot time =>
    generalize (perform w.store (.findOneAndUpdate slot time) answer).1 = reply at hmatched
    rcases reply with e | claimed
    · cases e <;> exact absurd hmatched hnot
    · exact absurd hmatched hnot
  | deleteMany workspaceId leaseId =>
    generalize (perform w.store (.deleteMany workspaceId leaseId) answer).1 = reply at hmatched
    cases reply <;> exact absurd hmatched hnot
  | updateMany given now leaseExpiresAt =>
    obtain ⟨hnow, -, leaseDurationMs, hrenew, rfl⟩ := hallowed
    rw [progress_call] at hrenew
    have hgiven : (calls i).given = some given := by
      rw [hrenew]
      rfl
    obtain ⟨k, hreturned⟩ := returned_of_given hconducted hissued hgiven
    rcases renewed w.store answer given now (now + leaseDuration settings leaseDurationMs) with
      ⟨-, e, herror⟩ | ⟨hslots, hcount⟩
    · rw [herror] at hmatched
      exact absurd hmatched hnot
    generalize (perform w.store (.updateMany given now
      (now + leaseDuration settings leaseDurationMs)) answer).1 = reply at hmatched hcount ⊢
    cases reply with
    | error e => exact absurd hmatched hnot
    | ok matchedCount =>
      have hfound := h.renewable_of_count (hcount matchedCount rfl ▸ hmatched)
      have hof {s : Slot} (hs : s ∈ w.store.slots)
          (hrenewable : Store.isRenewable given now s = true) : s.IsOf given := by
        simp only [Store.isRenewable, decide_eq_true_eq] at hrenewable
        exact (h.owner hdistinct hs hreturned.isFor hrenewable.2.2.1).1
      refine ⟨given, leaseDurationMs, now, hrenew, hnow, fun scopeType => ?_, fun scopeType => ?_⟩
      · obtain ⟨s, hs, hrenewable, hscope⟩ := hfound scopeType
        exact ⟨s, hs, hof hs hrenewable, hscope⟩
      · obtain ⟨s, hs, hrenewable, hscope⟩ := hfound scopeType
        refine ⟨{ s with leaseExpiresAt := now + leaseDuration settings leaseDurationMs }, ?_,
          (hof hs hrenewable).extended _, hscope, rfl⟩
        rw [hslots]
        exact List.mem_map.mpr ⟨s, hs, if_pos hrenewable⟩

theorem ended_of_matched (hconducted : Conducted settings calls w) {given : Lease}
    {leaseDurationMs : Option ℕ} (hcall : calls i = .renew true (some (.leased given)) leaseDurationMs)
    (hmatched : 2 ≤ (progress settings calls w i).matched) {now : ℕ}
    (hnow : (progress settings calls w i).now = some now) : ∃ result, w.Ended i result := by
  cases hthread : w.thread i with
  | done result => exact ⟨result, hthread⟩
  | perform op next =>
    have hallowed := allowed_of_thread hconducted hthread
    have hcall' : (progress settings calls w i).call = _ := (progress_call w i).trans hcall
    cases op with
    | clock =>
      rw [hallowed.1] at hnow
      cases hnow
    | findOneAndUpdate slot time =>
      obtain ⟨lease', scopeType, slotNumber, hclaims⟩ := hallowed
      have hfor := hclaims.ready.isFor
      rw [hcall'] at hfor
      cases hfor
    | deleteMany workspaceId leaseId =>
      obtain ⟨lease', -, -, ⟨hfor, -⟩ | hrelease⟩ := hallowed
      · rw [hcall'] at hfor
        cases hfor
      · rw [hcall'] at hrelease
        cases hrelease
    | updateMany given' time leaseExpiresAt =>
      rw [hallowed.2.1] at hmatched
      cases hmatched

theorem renewal_of_ended (hdistinct : DistinctLeases calls)
    (hissued : IssuedRun settings clock calls turns)
    (hended : (capacityWorld settings clock calls turns).Ended i (.ok (.renewed (some lease)))) :
    ∃ before answer rest, turns = before ++ (i, answer) :: rest ∧
      HoldsBoth (capacityWorld settings clock calls before).store lease ∧
      (capacityWorld settings clock calls (before ++ [(i, answer)])).Ended i
        (.ok (.renewed (some lease))) ∧
      HoldsBoth (capacityWorld settings clock calls (before ++ [(i, answer)])).store lease ∧
      HeldUntil (capacityWorld settings clock calls (before ++ [(i, answer)])).store lease
        lease.leaseExpiresAt := by
  have hmatched := (ends_of_ended (standing_after hdistinct hissued).2 hended).1
  have hnone : ¬2 ≤ ((World.initial ⟨clock, []⟩ fun i => (calls i).program settings :
      CapacityWorld).states (conduct settings) (fun j => { call := calls j }) i).matched := by
    intro htwo
    cases htwo
  obtain ⟨before, answer, rest, op, next, rfl, hthread, hnot, hnow⟩ :=
    World.exists_entry (P := fun s : Progress => 2 ≤ s.matched) hnone hmatched
  refine ⟨before, answer, rest, rfl, ?_⟩
  have hguarded := (guarded_append before ((i, answer) :: rest)).mp hissued
  obtain ⟨hstanding, hconducted⟩ := standing_after hdistinct hguarded.1
  have hissuedTurn : Issued calls (capacityWorld settings clock calls before) (i, answer) :=
    hguarded.2.1
  have hthread' : (capacityWorld settings clock calls before).thread i = .perform op next := hthread
  have hturn : capacityWorld settings clock calls (before ++ [(i, answer)]) =
      (capacityWorld settings clock calls before).turn perform (i, answer) := after_concat _
  have hend : capacityWorld settings clock calls (before ++ (i, answer) :: rest) =
      after (World.turn perform)
        ((capacityWorld settings clock calls before).turn perform (i, answer)) rest :=
    after_append before ((i, answer) :: rest)
  have hstanding' := standing_turn hdistinct hstanding hconducted hissuedTurn
  have hconducted' := conducted_turn hconducted (i, answer)
  have hmatched' : 2 ≤ (progress settings calls
      ((capacityWorld settings clock calls before).turn perform (i, answer)) i).matched := by
    rw [progress_turn hthread', if_pos rfl]
    exact hnow
  obtain ⟨given, leaseDurationMs, now, hcall, hread, hheld, hheld'⟩ :=
    renewal_of_turn hstanding hdistinct hconducted hissuedTurn hthread' hnot hmatched'
  -- The operation has ended in this turn, with the result that it has at the end.
  obtain ⟨result, hresult⟩ := ended_of_matched hconducted' hcall hmatched' hread
  have hover := ended_after hresult rest
  rw [← hend] at hover
  obtain rfl : result = .ok (.renewed (some lease)) :=
    Program.done.inj ((hover : World.thread _ i = _).symm.trans hended)
  obtain ⟨-, given', leaseDurationMs', now', hcall', hread', hlease⟩ :=
    ends_of_ended hconducted' hresult
  rw [progress_call, hcall] at hcall'
  cases hcall'
  obtain rfl : now = now' := Option.some.inj (hread.symm.trans hread')
  have hsame : lease = { given with leaseExpiresAt := lease.leaseExpiresAt } := by
    rw [hlease]
  have hexpires : lease.leaseExpiresAt = now + leaseDuration settings leaseDurationMs := by
    rw [hlease]
  have hheldLease : HeldUntil ((capacityWorld settings clock calls before).turn perform
      (i, answer)).store lease lease.leaseExpiresAt := by
    intro scopeType
    obtain ⟨s, hs, hof, hscope, hsexpires⟩ := hheld' scopeType
    exact ⟨s, hs, hof.congr hsame, hscope, hsexpires.trans hexpires.symm⟩
  rw [hturn]
  refine ⟨hstanding.holdsBoth fun scopeType => ?_, hresult, hstanding'.holdsBoth hheldLease.held,
    hheldLease⟩
  obtain ⟨s, hs, hof, hscope⟩ := hheld scopeType
  exact ⟨s, hs, hof.congr hsame, hscope⟩

/-- Where the database fails in an acquisition, its lease has no slot and is given none, or the
deletion takes effect. -/
def Tolerable (calls : ℕ → Call) (w : CapacityWorld) (turn : ℕ × Answer) : Prop :=
  ∀ connection invocationId leaseId,
    calls turn.1 = .acquire true connection invocationId leaseId →
    turn.2.fault = none ∨
      (turn.2.fault = some .before ∧ ∀ s ∈ w.store.slots, s.leaseId ≠ leaseId) ∨
      turn.2.fault = some .after ∧ ∃ workspaceId leaseId, w.Next turn.1 (.deleteMany workspaceId leaseId)

/-- An acquisition that is not sound any more has no slot. -/
def Cleared (settings : Settings) (calls : ℕ → Call) (w : CapacityWorld) : Prop :=
  ∀ j lease, (calls j).IsFor lease → ¬(progress settings calls w j).Sound →
    ∀ s ∈ w.store.slots, s.leaseId ≠ lease.leaseId

section Turn

variable {next : Reply op → Program Op Reply (Except Failure Outcome)}

theorem absent_turn (hdistinct : DistinctLeases calls) (hconducted : Conducted settings calls w)
    (hthread : w.thread i = .perform op next) {j : ℕ} (hfor : (calls j).IsFor lease)
    (habsent : ∀ s ∈ w.store.slots, s.leaseId ≠ lease.leaseId)
    (hclaims : ∀ slot now, op = .findOneAndUpdate slot now → i ≠ j) :
    ∀ s ∈ (w.turn perform (i, answer)).store.slots, s.leaseId ≠ lease.leaseId := by
  have hallowed := allowed_of_thread hconducted hthread
  intro s hs
  rw [store_turn hthread] at hs
  rcases slots_performed w.store op answer with hkept | ⟨slot, now, rfl, hslots, -⟩
  · obtain ⟨stored, hstored, hsame⟩ := hkept.mem hs
    rw [hsame]
    exact habsent stored hstored
  · rw [hslots] at hs
    rcases List.mem_append.mp hs with hold | hnew
    · exact habsent s (List.mem_filter.mp hold).1
    · obtain rfl := List.mem_singleton.mp hnew
      obtain ⟨lease', scopeType, slotNumber, hslot⟩ := hallowed
      have hfor' := hslot.ready.isFor
      rw [progress_call] at hfor'
      rw [hslot.slot_eq]
      intro hlease
      have hsame : lease'.leaseId = lease.leaseId := hlease
      exact hclaims _ _ rfl
        (hdistinct i j lease.leaseId (hsame ▸ hfor'.leaseId?) hfor.leaseId?)

theorem cleared_turn (h : Standing settings calls w) (hdistinct : DistinctLeases calls)
    (hconducted : Conducted settings calls w) (hcleared : Cleared settings calls w)
    (htolerable : Tolerable calls w (i, answer)) (hthread : w.thread i = .perform op next) :
    Cleared settings calls (w.turn perform (i, answer)) := by
  intro j lease hfor hunsound
  have hallowed := allowed_of_thread hconducted hthread
  by_cases hearlier : (progress settings calls w j).Sound
  · -- The operation becomes unsound in this turn.
    obtain rfl : j = i := by
      by_contra hne
      rw [progress_turn hthread, if_neg hne] at hunsound
      exact hunsound hearlier
    rw [progress_turn hthread, if_pos rfl] at hunsound
    have hfault := htolerable _ _ _ hfor
    cases op with
    | clock => exact absurd hearlier hunsound
    | findOneAndUpdate slot now =>
      have hclaim := claimed w.store answer slot now
      intro s hs
      rw [store_turn hthread] at hs
      generalize (perform w.store (.findOneAndUpdate slot now) answer).1 = reply at hclaim hunsound
      generalize (perform w.store (.findOneAndUpdate slot now) answer).2.slots = slots
        at hclaim hs
      have hnext : ¬∃ workspaceId leaseId, w.Next j (.deleteMany workspaceId leaseId) := by
        rintro ⟨workspaceId, leaseId, next', hnext⟩
        rw [hthread] at hnext
        cases hnext
      cases hclaim with
      | refused e hcase =>
        rcases hfault with hnone | ⟨-, habsent⟩ | ⟨-, hdelete⟩
        · rcases hcase with rfl | hsome
          · exact absurd hearlier hunsound
          · exact absurd hnone hsome
        · exact habsent s hs
        · exact absurd hdelete hnext
      | put reply hfree hreply =>
        rcases hreply with rfl | ⟨rfl, hafter⟩
        · exact absurd hearlier hunsound
        · change answer.fault = none ∨ _ at hfault
          rw [hafter] at hfault
          rcases hfault with hnone | ⟨hbefore, -⟩ | ⟨-, hdelete⟩
          · cases hnone
          · cases hbefore
          · exact absurd hdelete hnext
    | deleteMany workspaceId leaseId =>
      rcases deleted w.store answer workspaceId leaseId with ⟨hbefore, hslots, -⟩ | ⟨-, hslots⟩
      · intro s hs
        rw [store_turn hthread, hslots] at hs
        change answer.fault = none ∨ _ at hfault
        rw [hbefore] at hfault
        rcases hfault with hnone | ⟨-, habsent⟩ | ⟨hafter, -⟩
        · cases hnone
        · exact habsent s hs
        · cases hafter
      · intro s hs hlease
        rw [store_turn hthread, hslots] at hs
        obtain ⟨hmem, hkept⟩ := List.mem_filter.mp hs
        obtain ⟨lease', hworkspace, hid, ⟨hfor', -⟩ | hrelease⟩ := hallowed
        · rw [progress_call] at hfor'
          have hof := (h.owner hdistinct hmem hfor hlease).1.congr (hfor.unique hfor')
          have hheld : Store.isHeldBy workspaceId leaseId s = true := by
            simp only [Store.isHeldBy, decide_eq_true_eq]
            refine ⟨?_, hof.leaseId.trans hid⟩
            rw [hof.scope, Lease.scope_workspaceId, hworkspace]
          rw [hheld] at hkept
          cases hkept
        · rw [progress_call, hfor] at hrelease
          cases hrelease
    | updateMany given now leaseExpiresAt =>
      obtain ⟨-, -, leaseDurationMs, hrenew, -⟩ := hallowed
      rw [progress_call, hfor] at hrenew
      cases hrenew
  · apply absent_turn hdistinct hconducted hthread hfor (hcleared j lease hfor hearlier)
    rintro slot now rfl rfl
    obtain ⟨lease', scopeType, slotNumber, hslot⟩ := hallowed
    exact hearlier hslot.ready.sound

end Turn

/-- In every turn the database fails only where an acquisition can bear it. -/
def TolerableRun (settings : Settings) (clock : ℕ) (calls : ℕ → Call) (turns : List (ℕ × Answer)) :
    Prop :=
  Guarded (World.turn perform) (Tolerable calls)
    (.initial ⟨clock, []⟩ fun i => (calls i).program settings) turns

theorem cleared_after (hdistinct : DistinctLeases calls)
    (hissued : IssuedRun settings clock calls turns)
    (htolerable : TolerableRun settings clock calls turns) :
    Cleared settings calls (capacityWorld settings clock calls turns) := by
  have hkept : (Standing settings calls (capacityWorld settings clock calls turns) ∧
      Conducted settings calls (capacityWorld settings clock calls turns)) ∧
      Cleared settings calls (capacityWorld settings clock calls turns) := by
    refine (hissued.and htolerable).after_induction
      (I := fun w => (Standing settings calls w ∧ Conducted settings calls w) ∧
        Cleared settings calls w) ?_ ?_
    · refine ⟨⟨standing_initial, fun i => follows_program settings (calls i)⟩, ?_⟩
      intro _ _ _ _ s hs
      exact absurd hs List.not_mem_nil
    · rintro w ⟨i, answer⟩ ⟨⟨hstanding, hconducted⟩, hcleared⟩ ⟨hturn, hfault⟩
      refine ⟨⟨standing_turn hdistinct hstanding hconducted hturn,
        conducted_turn hconducted (i, answer)⟩, ?_⟩
      rcases World.turn_cases perform w (i, answer) with ⟨hsame, -⟩ | ⟨op, next, hthread, -⟩
      · rw [hsame]
        exact hcleared
      · exact cleared_turn hstanding hdistinct hconducted hcleared hfault hthread
  exact hkept.2

structure CapacityLaw (settings : Settings) (clock : ℕ) (calls : ℕ → Call)
    (turns : List (ℕ × Answer)) : Prop where
  /-- The unexpired leases of a scope are within its limit. -/
  limits : ∀ scope, (capacityWorld settings clock calls turns).store.slots.countP (fun s =>
      s.scope = scope ∧ (capacityWorld settings clock calls turns).store.clock < s.leaseExpiresAt) ≤
    settings.limit scope.scopeType
  /-- A lease that was returned has exactly one slot of each scope until it expires or is
  released. -/
  held : ∀ before i answer rest lease, turns = before ++ (i, answer) :: rest →
    (∀ result, ¬(capacityWorld settings clock calls before).Ended i result) →
    (capacityWorld settings clock calls (before ++ [(i, answer)])).Ended i
      (.ok (.acquired (.leased lease))) →
    Guarded (World.turn perform) (Undisturbed lease.leaseId)
      (capacityWorld settings clock calls (before ++ [(i, answer)])) rest →
    Unexpired (capacityWorld settings clock calls turns).store lease.leaseId →
    HoldsBoth (capacityWorld settings clock calls turns).store lease
  released : ∀ before i answer persistenceAvailable lease, before ++ [(i, answer)] <+: turns →
    calls i = .release persistenceAvailable (some (.leased lease)) →
    ∀ s ∈ (capacityWorld settings clock calls before).store.slots, s.leaseId ≠ lease.leaseId →
      s ∈ (capacityWorld settings clock calls (before ++ [(i, answer)])).store.slots
  /-- A renewal that reports success has both slots of its lease. -/
  renewed : ∀ i lease,
    (capacityWorld settings clock calls turns).Ended i (.ok (.renewed (some lease))) →
    ∃ before answer rest, turns = before ++ (i, answer) :: rest ∧
      HoldsBoth (capacityWorld settings clock calls before).store lease ∧
      (capacityWorld settings clock calls (before ++ [(i, answer)])).Ended i
        (.ok (.renewed (some lease))) ∧
      HoldsBoth (capacityWorld settings clock calls (before ++ [(i, answer)])).store lease ∧
      HeldUntil (capacityWorld settings clock calls (before ++ [(i, answer)])).store lease
        lease.leaseExpiresAt
  /-- An acquisition that throws leaves no slot, where the database fails only tolerably. -/
  thrown : TolerableRun settings clock calls turns →
    ∀ i persistenceAvailable connection invocationId leaseId e,
      calls i = .acquire persistenceAvailable connection invocationId leaseId →
      (capacityWorld settings clock calls turns).Ended i (.error e) →
      ∀ s ∈ (capacityWorld settings clock calls turns).store.slots, s.leaseId ≠ leaseId

theorem held_of_returned (hdistinct : DistinctLeases calls) {before rest : List (ℕ × Answer)}
    (hissued : IssuedRun settings clock calls (before ++ (i, answer) :: rest))
    (hrunning : ∀ result, ¬(capacityWorld settings clock calls before).Ended i result)
    (hended : (capacityWorld settings clock calls (before ++ [(i, answer)])).Ended i
      (.ok (.acquired (.leased lease))))
    (hundisturbed : Guarded (World.turn perform) (Undisturbed lease.leaseId)
      (capacityWorld settings clock calls (before ++ [(i, answer)])) rest)
    (hunexpired : Unexpired
      (capacityWorld settings clock calls (before ++ (i, answer) :: rest)).store lease.leaseId) :
    HoldsBoth (capacityWorld settings clock calls (before ++ (i, answer) :: rest)).store lease := by
  have hguarded := (guarded_append before ((i, answer) :: rest)).mp hissued
  obtain ⟨hstanding, hconducted⟩ := standing_after hdistinct hguarded.1
  have hissuedTurn : Issued calls (capacityWorld settings clock calls before) (i, answer) :=
    hguarded.2.1
  have hturn : capacityWorld settings clock calls (before ++ [(i, answer)]) =
      (capacityWorld settings clock calls before).turn perform (i, answer) := after_concat _
  have hend : capacityWorld settings clock calls (before ++ (i, answer) :: rest) =
      after (World.turn perform)
        ((capacityWorld settings clock calls before).turn perform (i, answer)) rest :=
    after_append before ((i, answer) :: rest)
  rw [hturn] at hended hundisturbed
  rw [hend] at hunexpired ⊢
  rcases World.turn_cases perform (capacityWorld settings clock calls before) (i, answer) with
    ⟨-, result, hover⟩ | ⟨op, next, hthread, -⟩
  · exact absurd hover (hrunning result)
  obtain ⟨hfor, hheld⟩ := held_first hstanding hconducted hthread hended
  have hfirst : HeldSince settings calls i lease
      ((capacityWorld settings clock calls before).turn perform (i, answer)) :=
    ⟨standing_turn hdistinct hstanding hconducted hissuedTurn,
      conducted_turn hconducted (i, answer), hended, hheld.imp_left fun h => ⟨_, h⟩⟩
  have hlast := (hguarded.2.2.and hundisturbed).after_induction
    (I := HeldSince settings calls i lease) hfirst
    fun w turn h hturn => heldSince_turn hdistinct h hfor hturn.1 hturn.2
  rcases hlast.held with ⟨e, hheld⟩ | hexpired
  · exact hlast.standing.holdsBoth hheld.held
  · exact absurd hunexpired hexpired

theorem released_spares {persistenceAvailable : Bool} (hconducted : Conducted settings calls w)
    (hcall : calls i = .release persistenceAvailable (some (.leased lease))) {s : Slot}
    (hs : s ∈ w.store.slots) (hlease : s.leaseId ≠ lease.leaseId) :
    s ∈ (w.turn perform (i, answer)).store.slots := by
  rcases World.turn_cases perform w (i, answer) with ⟨hsame, -⟩ | ⟨op, next, hthread, -⟩
  · rw [hsame]
    exact hs
  have hallowed := allowed_of_thread hconducted hthread
  have hcall' : (progress settings calls w i).call = _ := (progress_call w i).trans hcall
  rw [store_turn hthread]
  cases op with
  | clock => exact hs
  | findOneAndUpdate slot now =>
    obtain ⟨lease', scopeType, slotNumber, hclaims⟩ := hallowed
    have hfor := hclaims.ready.isFor
    rw [hcall'] at hfor
    cases hfor
  | deleteMany workspaceId leaseId =>
    obtain ⟨lease', -, hid, ⟨hfor, -⟩ | hrelease⟩ := hallowed
    · rw [hcall'] at hfor
      cases hfor
    · rw [hcall'] at hrelease
      cases hrelease
      rcases deleted w.store answer workspaceId leaseId with ⟨-, hslots, -⟩ | ⟨-, hslots⟩
      · rw [hslots]
        exact hs
      · rw [hslots]
        refine List.mem_filter.mpr ⟨hs, ?_⟩
        simp only [Store.isHeldBy, Bool.not_eq_true', decide_eq_false_iff_not]
        exact fun hheld => hlease (hheld.2.trans hid.symm)
  | updateMany given now leaseExpiresAt =>
    obtain ⟨-, -, leaseDurationMs, hrenew, -⟩ := hallowed
    rw [hcall'] at hrenew
    cases hrenew

theorem capacity_law (hdistinct : DistinctLeases calls)
    (hissued : IssuedRun settings clock calls turns) : CapacityLaw settings clock calls turns where
  limits := (standing_after hdistinct hissued).1.count_le
  held := by
    rintro before i answer rest lease rfl hrunning hended hundisturbed hunexpired
    exact held_of_returned hdistinct hissued hrunning hended hundisturbed hunexpired
  released := by
    intro before i answer persistenceAvailable lease hbefore hcall s hs hlease
    have hissued' : IssuedRun settings clock calls before := by
      obtain ⟨rest, rfl⟩ := hbefore
      rw [List.append_assoc] at hissued
      exact hissued.of_append
    rw [show capacityWorld settings clock calls (before ++ [(i, answer)]) =
      (capacityWorld settings clock calls before).turn perform (i, answer) from after_concat _]
    exact released_spares (standing_after hdistinct hissued').2 hcall hs hlease
  renewed _ _ hended := renewal_of_ended hdistinct hissued hended
  thrown := by
    intro htolerable i persistenceAvailable connection invocationId leaseId e hcall hended s hs hid
    obtain ⟨hstanding, hconducted⟩ := standing_after hdistinct hissued
    have hcleared := cleared_after hdistinct hissued htolerable
    obtain ⟨j, lease, hfor, hof, -⟩ := hstanding.owned s hs
    obtain rfl : j = i := by
      apply hdistinct j i leaseId
      · rw [hfor.leaseId?, ← hof.leaseId, hid]
      · rw [hcall]
        rfl
    have hnot := hcleared j lease hfor
    rcases ends_of_ended hconducted hended with hunsound | hclaimed
    · exact hnot hunsound s hs hof.leaseId
    · rcases (hstanding.owner hdistinct hs hfor hof.leaseId).2 with hmem | hunsound
      · rw [hclaimed] at hmem
        cases hmem
      · exact hnot hunsound s hs hof.leaseId

private def oneSlot : Settings := ⟨60000, 1, 1⟩

private def oneLease : ℕ → Call
  | 0 => .acquire true ⟨ascii "connection", ascii "workspace"⟩ (ascii "invocation") (ascii "lease")
  | _ + 1 => .release true none

private theorem oneLease_distinct : DistinctLeases oneLease := by
  have hzero : ∀ i leaseId, (oneLease i).leaseId? = some leaseId → i = 0 := by
    intro i leaseId h
    cases i with
    | zero => rfl
    | succ i => cases h
  intro i j leaseId hi hj
  rw [hzero i leaseId hi, hzero j leaseId hj]

private theorem oneLease_issued (turns : List (ℕ × Answer)) :
    IssuedRun oneSlot 0 oneLease turns := by
  apply guarded_of_forall
  rintro ⟨i, answer⟩ - w lease hgiven
  cases i with
  | zero => cases hgiven
  | succ i => cases hgiven

theorem capacity_law_one_lease : CapacityLaw oneSlot 0 oneLease [(0, {}), (0, {}), (0, {})] :=
  capacity_law oneLease_distinct (oneLease_issued _)

/-- The database fails in the claim of the slot of the connection, and the slot of the workspace
stays taken. -/
theorem acquisition_keeps_slot : ¬∀ settings clock calls turns, DistinctLeases calls →
    IssuedRun settings clock calls turns →
    ∀ i persistenceAvailable connection invocationId leaseId e,
      calls i = .acquire persistenceAvailable connection invocationId leaseId →
      (capacityWorld settings clock calls turns).Ended i (.error e) →
      ∀ s ∈ (capacityWorld settings clock calls turns).store.slots, s.leaseId = leaseId →
        s.leaseExpiresAt ≤ (capacityWorld settings clock calls turns).store.clock := by
  intro hall
  have hslots : (capacityWorld oneSlot 0 oneLease
      [(0, {}), (0, {}), (0, { fault := some .before })]).store.slots =
      [⟨⟨ascii "workspace", .workspace, ascii "workspace"⟩, 1, ascii "connection",
        ascii "invocation", ascii "lease", 0, 60000⟩] := rfl
  have hexpired := hall oneSlot 0 oneLease [(0, {}), (0, {}), (0, { fault := some .before })]
    oneLease_distinct (oneLease_issued _) 0 _ _ _ _ .unavailable rfl rfl _
    (hslots ▸ List.mem_singleton_self _) rfl
  exact absurd hexpired (by decide)

end GhostBridge.RuntimeCapacity
