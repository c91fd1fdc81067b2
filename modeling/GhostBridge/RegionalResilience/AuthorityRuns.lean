import GhostBridge.RegionalResilience.Authority

/-!
# Runs over one write authority

Any number of operations of the service that run at the same time.
-/

namespace GhostBridge.RegionalResilience

open Ecma Machine

structure Later (stored next : Authority) : Prop where
  authorityEpoch : stored.authorityEpoch ≤ next.authorityEpoch
  leaseEpoch : stored.leaseEpoch ≤ next.leaseEpoch
  region : stored.authorityEpoch = next.authorityEpoch →
    stored.activeRegionId = next.activeRegionId
  status : stored.leaseEpoch = next.leaseEpoch → next.status = .active → stored.status = .active

theorem Later.refl (stored : Authority) : Later stored stored :=
  ⟨le_rfl, le_rfl, fun _ => rfl, fun _ h => h⟩

theorem Later.trans {a b c : Authority} (hab : Later a b) (hbc : Later b c) : Later a c where
  authorityEpoch := hab.authorityEpoch.trans hbc.authorityEpoch
  leaseEpoch := hab.leaseEpoch.trans hbc.leaseEpoch
  region h := by
    have hb : a.authorityEpoch = b.authorityEpoch :=
      hab.authorityEpoch.antisymm (h ▸ hbc.authorityEpoch)
    rw [hab.region hb]
    exact hbc.region (hb.symm.trans h)
  status h hc := by
    have hb : a.leaseEpoch = b.leaseEpoch := hab.leaseEpoch.antisymm (h ▸ hbc.leaseEpoch)
    exact hab.status hb (hbc.status (hb.symm.trans h) hc)

theorem Change.later {change : Change} {stored : Authority} (h : change.filter stored = true) :
    Later stored (change.update stored) := by
  cases change with
  | renew input now leaseDurationMs => exact ⟨le_rfl, le_rfl, fun _ => rfl, fun _ h => h⟩
  | freeze input now =>
    refine ⟨le_rfl, le_rfl, fun _ => rfl, fun _ hactive => ?_⟩
    cases hactive
  | transfer input transitionId leaseId now leaseDurationMs =>
    simp only [filter, decide_eq_true_eq] at h
    constructor
    · simp only [update]
      omega
    · simp only [update]
      omega
    · intro hsame
      simp only [update] at hsame
      omega
    · intro hsame
      simp only [update] at hsame
      omega

/-- An authority stays, and its states come one after another. -/
def Onward (before after : Text → Option Authority) : Prop :=
  ∀ key stored, before key = some stored → ∃ next, after key = some next ∧ Later stored next

theorem Onward.refl (authorities : Text → Option Authority) : Onward authorities authorities :=
  fun _ stored h => ⟨stored, h, Later.refl stored⟩

theorem Onward.trans {a b c : Text → Option Authority} (hab : Onward a b) (hbc : Onward b c) :
    Onward a c := by
  intro key stored h
  obtain ⟨next, hnext, hlater⟩ := hab key stored h
  obtain ⟨last, hlast, hlater'⟩ := hbc key next hnext
  exact ⟨last, hlast, hlater.trans hlater'⟩

theorem onward_store {db : Database} {key : Text} {authority : Authority}
    (h : ∀ stored, db.authorities key = some stored → Later stored authority) :
    Onward db.authorities (db.store key authority).authorities := by
  intro other stored hstored
  unfold Database.store
  by_cases hkey : other = key
  · subst hkey
    exact ⟨authority, Function.update_self _ _ _, h stored hstored⟩
  · exact ⟨stored, (Function.update_of_ne hkey _ _).trans hstored, Later.refl stored⟩

theorem onward_available {α : Type} {answer : Answer} (db : Database)
    {result : Checked α × Database} (h : Onward db.authorities result.2.authorities) :
    Onward db.authorities (answer.available db result).2.authorities := by
  unfold Answer.available
  split
  · exact Onward.refl _
  · exact h

theorem onward_performAt (db : Database) (op : Op) (answer : Answer) :
    Onward db.authorities (performAt db op answer).2.authorities := by
  cases op with
  | clock => exact Onward.refl _
  | randomUUID => exact Onward.refl _
  | configurationExists keys => exact onward_available db (Onward.refl _)
  | findOne key => exact onward_available db (Onward.refl _)
  | findReplay key transitionId targetRegionId targetEpoch =>
    exact onward_available db (Onward.refl _)
  | insertTransition transitionId => exact onward_available db (Onward.refl _)
  | create authority =>
    apply onward_available db
    unfold Database.create
    split
    · exact Onward.refl _
    · next hnone =>
      apply onward_store
      intro stored hstored
      rw [hnone] at hstored
      cases hstored
  | change key change =>
    apply onward_available db
    unfold Database.applyChange
    split
    · exact Onward.refl _
    · next stored hfound =>
      obtain ⟨hget, hfilter⟩ := Option.filter_eq_some_iff.mp hfound
      apply onward_store
      intro other hother
      obtain rfl := Option.some.inj (hget.symm.trans hother)
      exact Change.later hfilter

theorem onward_perform (db : Database) (op : Op) (answer : Answer) :
    Onward db.authorities (perform db op answer).2.authorities :=
  onward_performAt { db with clock := db.clock + answer.elapsed } op answer

inductive Entry where
  | acquireInitialAuthority (input : AcquireInput) (options : Options)
  | renewAuthority (input : RenewInput) (options : Options)
  | freezeAuthority (input : FreezeInput) (options : Options)
  | transferAuthority (input : TransferInput) (options : Options)
  | assertRegionalWriteAuthority (input : WriteInput) (options : Options)

inductive Outcome where
  | authority (authority : Authority)
  | assertion (assertion : Assertion)

def returning {α : Type} (wrap : α → Outcome) (flow : Flow α) : Flow Outcome := do
  let result ← flow
  return wrap result

def Entry.program (settings : Settings) : Entry → Flow Outcome
  | .acquireInitialAuthority input options =>
    returning .authority (RegionalResilience.acquireInitialAuthority input options)
  | .renewAuthority input options =>
    returning .authority (RegionalResilience.renewAuthority input options)
  | .freezeAuthority input options =>
    returning .authority (RegionalResilience.freezeAuthority input options)
  | .transferAuthority input options =>
    returning .authority (RegionalResilience.transferAuthority input options)
  | .assertRegionalWriteAuthority input options =>
    returning .assertion (RegionalResilience.assertRegionalWriteAuthority settings input options)

abbrev AuthorityWorld := World Database Op Reply (Except Failure Outcome)

def worldAfter (settings : Settings) (db : Database) (entries : ℕ → Entry)
    (calls : List (ℕ × Answer)) : AuthorityWorld :=
  after (World.turn perform) (.initial db fun i => (entries i).program settings) calls

variable {settings : Settings} {db : Database} {entries : ℕ → Entry} {calls : List (ℕ × Answer)}
  {key : Text}

def recordAfter (settings : Settings) (db : Database) (entries : ℕ → Entry)
    (calls : List (ℕ × Answer)) (key : Text) : Option Authority :=
  (worldAfter settings db entries calls).store.authorities key

theorem onward_turn (w : AuthorityWorld) (call : ℕ × Answer) :
    Onward w.store.authorities (w.turn perform call).store.authorities := by
  rcases World.turn_cases perform w call with ⟨hsame, -⟩ | ⟨op, next, -, hturn⟩
  · rw [hsame]
    exact Onward.refl _
  · rw [hturn]
    exact onward_perform w.store op call.2

theorem later_of_prefix {before calls : List (ℕ × Answer)} ( hprefix : before <+: calls)
    {stored : Authority} (h : recordAfter settings db entries before key = some stored) :
    ∃ next, recordAfter settings db entries calls key = some next ∧ Later stored next := by
  obtain ⟨rest, rfl⟩ := hprefix
  unfold recordAfter worldAfter
  rw [after_append]
  have honward : ∀ w : AuthorityWorld,
      Onward w.store.authorities (after (World.turn perform) w rest).store.authorities := by
    intro w
    apply after_relates
      (R := fun v w : AuthorityWorld => Onward v.store.authorities w.store.authorities)
    · exact fun w => Onward.refl _
    · exact fun _ _ _ => Onward.trans
    · exact onward_turn
  exact honward _ key stored h

def Applies (w : AuthorityWorld) (call : ℕ × Answer) (key : Text) (change : Change) : Prop :=
  w.Next call.1 (.change key change) ∧
    ∃ next, (perform w.store (.change key change) call.2).1 = .ok (some next)

theorem Applies.stored {w : AuthorityWorld} {call : ℕ × Answer} {change : Change}
    (h : Applies w call key change) :
    ∃ stored, w.store.authorities key = some stored ∧ change.filter stored = true ∧
      (w.turn perform call).store.authorities key = some (change.update stored) := by
  obtain ⟨⟨rest, hthread⟩, next, hreply⟩ := h
  rw [World.turn_perform hthread]
  simp only [perform, performAt, Answer.available, Database.applyChange] at hreply ⊢
  split at hreply
  · cases hreply
  next havailable =>
    rw [if_neg havailable]
    cases hfound : (w.store.authorities key).filter change.filter with
    | none =>
      simp only [hfound] at hreply
      cases hreply
    | some stored =>
      obtain ⟨hget, hfilter⟩ := Option.filter_eq_some_iff.mp hfound
      exact ⟨stored, hget, hfilter, Function.update_self _ _ _⟩

theorem transfer_once {before before' : List (ℕ × Answer)} {call call' : ℕ × Answer}
    {input : TransferInput} {transitionId leaseId transitionId' leaseId' : Text}
    {now duration now' duration' : Int}
    (hfirst : Applies (worldAfter settings db entries before) call key
      (.transfer input transitionId leaseId now duration))
    (hsecond : Applies (worldAfter settings db entries before') call' key
      (.transfer input transitionId' leaseId' now' duration')) : ¬before ++ [call] <+: before' := by
  intro hprefix
  obtain ⟨stored, -, hfilter, hnext⟩ := hfirst.stored
  obtain ⟨stored', hstored', hfilter', -⟩ := hsecond.stored
  have hafter : recordAfter settings db entries (before ++ [call]) key = some
      ((Change.transfer input transitionId leaseId now duration).update stored) := by
    unfold recordAfter worldAfter
    rw [after_concat]
    exact hnext
  obtain ⟨last, hlast, hlater⟩ := later_of_prefix hprefix hafter
  obtain rfl := Option.some.inj (hlast.symm.trans hstored')
  have hepoch := hlater.authorityEpoch
  simp only [Change.filter, decide_eq_true_eq] at hfilter'
  simp only [Change.update] at hepoch
  omega

theorem renewed_lease {before earlier : List (ℕ × Answer)} {call : ℕ × Answer} {input : RenewInput}
    {now duration : Int} {stored : Authority}
    (h : Applies (worldAfter settings db entries before) call key (.renew input now duration))
    ( hprefix : earlier <+: before) (hstored : recordAfter settings db entries earlier key = some stored) :
    ∃ leaseEpoch, input.leaseEpoch = some leaseEpoch ∧ stored.leaseEpoch ≤ leaseEpoch ∧
      (stored.leaseEpoch = leaseEpoch → stored.status = .active) := by
  obtain ⟨current, hcurrent, hfilter, -⟩ := h.stored
  simp only [Change.filter, decide_eq_true_eq] at hfilter
  obtain ⟨-, -, -, hepoch, -, hactive, -⟩ := hfilter
  obtain ⟨last, hlast, hlater⟩ := later_of_prefix hprefix hstored
  obtain rfl := Option.some.inj (hlast.symm.trans hcurrent)
  exact ⟨last.leaseEpoch, hepoch, hlater.leaseEpoch, fun hsame => hlater.status hsame hactive⟩

/-- What an assertion has read: the authority that it resolved to, under its key, and the times
since then. -/
structure Progress where
  resolved : Option (Text × Authority) := none
  readings : List Int := []

def Progress.next (s : Progress) : (op : Op) → Reply op → Progress
  | .findOne key, .ok (some authority) => { resolved := some (key, authority) }
  | .clock, now => { s with readings := now :: s.readings }
  | _, _ => s

def conduct : Monitor Op Reply Progress where
  next := Progress.next
  allowed _ _ := True
  replies _ _ _ := True

structure Current (settings : Settings) (input : WriteInput) (authority : Authority) (now : Int) :
    Prop where
  status : authority.status = .active
  unexpired : now < authority.leaseExpiresAt
  region : authority.activeRegionId =
    orText input.regionId (orText input.executionRegionId settings.serviceRegionId)
  authorityEpoch : ∀ carried ∈ input.authorityEpoch, carried = some authority.authorityEpoch
  leaseEpoch : ∀ carried ∈ input.authorityLeaseEpoch, carried = some authority.leaseEpoch

theorem isStale_eq_false {carried : Option Numeral} {current : Int} :
    isStale carried current = false ↔ ∀ numeral ∈ carried, numeral = some current := by
  cases carried <;> simp [isStale]

theorem checkAuthority_ok {input : WriteInput} {record authority : Authority} {now : Int}
    {context : RuntimeContext} (hstatus : record.status = .active)
    (h : checkAuthority settings input record now = .ok (.enforced authority context)) :
    authority = record ∧ Current settings input record now := by
  unfold checkAuthority at h
  dsimp only at h
  split at h
  · cases h
  next hlease =>
    split at h
    · cases h
    next hregion =>
      split at h
      · cases h
      next hepoch =>
        split at h
        · cases h
        next hleaseEpoch =>
          simp only [pure_ok, Assertion.enforced.injEq] at h
          rw [Bool.not_eq_true, isStale_eq_false] at hepoch hleaseEpoch
          exact ⟨h.1.symm, hstatus, not_le.mp hlease, not_not.mp hregion, hepoch, hleaseEpoch⟩

/-- What is known when an operation ends: an enforced assertion has resolved to an authority that
its context is current under. -/
def Entry.Ends (settings : Settings) (s : Progress) : Entry → Except Failure Outcome → Prop
  | .assertRegionalWriteAuthority input options, .ok (.assertion (.enforced authority _)) =>
    ∃ key now, s.resolved = some (key, authority) ∧ Current settings input authority now ∧
      (options.now = some now ∨ now ∈ s.readings)
  | _, _ => True

theorem follows_regionalModeEnabled {α : Type} {s : Progress} {input : WriteInput}
    {f : Bool → Flow α} {post : Progress → Except Failure α → Prop}
    (herror : ∀ e, post s (.error e)) (hrest : ∀ enabled, (f enabled).Follows conduct post s) :
    (regionalModeEnabled settings input >>= f).Follows conduct post s := by
  unfold regionalModeEnabled
  split
  · exact hrest true
  split
  · exact hrest false
  · rw [Async.follows_bind]
    apply Async.follows_check
    · exact herror
    intro keys _
    rw [Async.follows_bind]
    refine ⟨trivial, fun reply _ => ?_⟩
    cases reply with
    | error e => exact herror e
    | ok enabled => exact hrest enabled

theorem follows_resolveAuthority (s : Progress) (keys : List Text) :
    (resolveAuthority keys).Follows conduct (fun t r => ∀ authority, r = .ok (some authority) →
      ∃ key, t.resolved = some (key, authority)) s := by
  induction keys generalizing s with
  | nil =>
    intro authority h
    cases h
  | cons key keys ih =>
    unfold resolveAuthority findOne
    rw [Async.follows_bind, Async.follows_bind]
    refine ⟨trivial, fun reply _ => ?_⟩
    rcases reply with e | (_ | authority)
    · intro authority h
      cases h
    · exact ih s
    · intro found h
      obtain rfl := Option.some.inj (Except.ok.inj h)
      exact ⟨key, rfl⟩

theorem follows_assertRegionalWriteAuthority (s : Progress) (input : WriteInput)
    (options : Options) :
    (assertRegionalWriteAuthority settings input options).Follows conduct (fun t r =>
      ∀ authority context, r = .ok (.enforced authority context) → ∃ key now,
        t.resolved = some (key, authority) ∧ Current settings input authority now ∧
          (options.now = some now ∨ now ∈ t.readings)) s := by
  unfold assertRegionalWriteAuthority
  apply follows_regionalModeEnabled
  · intro e authority context h
    cases h
  intro enabled
  split
  · intro authority context h
    cases h
  rw [Async.follows_bind, Async.follows_tryCatch]
  apply Async.follows_check
  · intro e authority context h
    cases h
  intro keys _
  refine (follows_resolveAuthority s keys).mono fun t r hresolved => ?_
  rcases r with e | (_ | record)
  · intro authority context h
    cases h
  · intro authority context h
    cases h
  obtain ⟨key, hkey⟩ := hresolved record rfl
  simp only [Async.recovers_ok, Async.goesOn_ok]
  by_cases hstatus : record.status = .active
  · rw [if_neg (by simpa using hstatus)]
    have hcheck (u : Progress) (now : Int) (hu : u.resolved = some (key, record))
        (hnow : options.now = some now ∨ now ∈ u.readings) (authority : Authority)
        (context : RuntimeContext)
        (h : checkAuthority settings input record now = .ok (.enforced authority context)) :
        ∃ key now, u.resolved = some (key, authority) ∧ Current settings input authority now ∧
          (options.now = some now ∨ now ∈ u.readings) := by
      obtain ⟨rfl, hcurrent⟩ := checkAuthority_ok hstatus h
      exact ⟨key, now, hu, hcurrent, hnow⟩
    unfold currentTime
    cases hgiven : options.now with
    | some now =>
      rw [hgiven] at hcheck
      exact hcheck t now hkey (.inl rfl)
    | none =>
      rw [hgiven] at hcheck
      rw [Async.follows_bind]
      refine ⟨trivial, fun now _ => ?_⟩
      exact hcheck (t.next .clock now) now hkey (.inr List.mem_cons_self)
  · rw [if_pos hstatus]
    intro authority context h
    cases h

theorem program_follows (settings : Settings) (entry : Entry) :
    (entry.program settings).Follows conduct (fun t r => entry.Ends settings t r) {} := by
  cases entry with
  | assertRegionalWriteAuthority input options =>
    unfold Entry.program returning
    rw [Async.follows_bind]
    refine (follows_assertRegionalWriteAuthority {} input options).mono fun t r h => ?_
    rcases r with e | (_ | ⟨authority, context⟩)
    · trivial
    · trivial
    · exact h authority context rfl
  | _ => exact Program.follows_of_forall (fun _ _ => trivial) fun _ _ => trivial

theorem monitored (settings : Settings) (db : Database) (entries : ℕ → Entry)
    (calls : List (ℕ × Answer)) :
    (worldAfter settings db entries calls).Monitored conduct (fun _ => {})
      fun i s r => (entries i).Ends settings s r := by
  have htrivial : Invariant perform conduct (fun _ => {}) (fun _ _ => True)
      fun _ : AuthorityWorld => True := ⟨fun _ _ _ _ _ _ _ _ _ => trivial,
        fun _ _ _ _ _ _ _ _ _ => trivial⟩
  refine (htrivial.after trivial ?_ (guarded_of_forall fun _ _ _ => trivial)).2
  exact fun i => program_follows settings (entries i)

theorem clock_perform (db : Database) (op : Op) (answer : Answer) :
    (perform db op answer).2.clock = db.clock + answer.elapsed := by
  unfold perform
  cases op <;> simp only [performAt, Answer.available] <;> try rfl
  all_goals
    split
    · rfl
  all_goals
    simp only [Database.create, Database.applyChange]
    try split
    all_goals rfl

theorem clock_of_prefix {before calls : List (ℕ × Answer)} ( hprefix : before <+: calls) :
    (worldAfter settings db entries before).store.clock ≤
      (worldAfter settings db entries calls).store.clock := by
  obtain ⟨rest, rfl⟩ := hprefix
  unfold worldAfter
  rw [after_append]
  apply after_relates (R := fun v w : AuthorityWorld => v.store.clock ≤ w.store.clock)
  · exact fun _ => le_rfl
  · exact fun _ _ _ => le_trans
  · intro w call
    rcases World.turn_cases perform w call with ⟨hsame, -⟩ | ⟨op, next, -, hturn⟩
    · rw [hsame]
    · rw [hturn, clock_perform]
      omega

/-- The authority was read from its key in a turn of the operation, and the times have been read
since then. -/
structure ReadFrom (settings : Settings) (db : Database) (entries : ℕ → Entry)
    (calls : List (ℕ × Answer)) (i : ℕ) (key : Text) (authority : Authority)
    (since : Int → Prop) : Prop where
  exists_turn : ∃ before answer rest, calls = before ++ (i, answer) :: rest ∧
    (worldAfter settings db entries before).Next i (.findOne key) ∧
    recordAfter settings db entries before key = some authority ∧
    ∀ now, since now →
      (worldAfter settings db entries (before ++ [(i, answer)])).store.clock ≤ now

theorem readFrom_resolved (i : ℕ) (authority : Authority)
    (h : ((worldAfter settings db entries calls).states conduct (fun _ => {}) i).resolved =
      some (key, authority)) :
    ReadFrom settings db entries calls i key authority
      (· ∈ ((worldAfter settings db entries calls).states conduct (fun _ => {}) i).readings) := by
  induction calls using List.reverseRecOn with
  | nil => cases h
  | append_singleton calls call ih =>
    have hconcat : worldAfter settings db entries (calls ++ [call]) =
        (worldAfter settings db entries calls).turn perform call := after_concat call
    rw [hconcat] at h ⊢
    -- an operation that leaves what has been resolved may still read the clock
    have hearlier (readings : List Int) (hresolved : ((worldAfter settings db entries calls).states
        conduct (fun _ => {}) i).resolved = some (key, authority))
        (hreadings : ∀ now ∈ readings, now ∈ ((worldAfter settings db entries calls).states conduct
            (fun _ => {}) i).readings ∨
          now = (worldAfter settings db entries calls).store.clock + call.2.elapsed) :
        ReadFrom settings db entries (calls ++ [call]) i key authority (· ∈ readings) := by
      obtain ⟨before, answer, rest, rfl, hnext, hrecord, hsince⟩ := (ih hresolved).exists_turn
      refine ⟨before, answer, rest ++ [call], by simp, hnext, hrecord, fun now hnow => ?_⟩
      rcases hreadings now hnow with hold | rfl
      · exact hsince now hold
      · have hclock : (worldAfter settings db entries (before ++ [(i, answer)])).store.clock ≤
            (worldAfter settings db entries (before ++ (i, answer) :: rest)).store.clock :=
          clock_of_prefix ⟨rest, by simp⟩
        omega
    rcases World.states_turn_cases perform (worldAfter settings db entries calls) call conduct
      (fun _ => {}) i with hsame | ⟨hi, op, next, hthread, hstate⟩
    · rw [hsame] at h ⊢
      exact hearlier _ h fun now hnow => .inl hnow
    · rw [hstate] at h ⊢
      change (Progress.next _ op _).resolved = _ at h
      change ReadFrom _ _ _ _ _ _ _ (· ∈ (Progress.next _ op _).readings)
      cases op with
      | clock =>
        apply hearlier _ h
        intro now hnow
        exact (List.mem_cons.mp hnow).symm
      | findOne other =>
        cases hreply : (perform (worldAfter settings db entries calls).store (.findOne other)
          call.2).1 with
        | error e =>
          rw [hreply] at h
          exact hearlier _ h fun now hnow => .inl hnow
        | ok found =>
          rw [hreply] at h
          cases found with
          | none => exact hearlier _ h fun now hnow => .inl hnow
          | some record =>
            obtain ⟨rfl, rfl⟩ : other = key ∧ record = authority := by
              simpa [Progress.next] using h
            have hstored : recordAfter settings db entries calls other = some record := by
              simp only [perform, performAt, Answer.available] at hreply
              split at hreply
              · cases hreply
              · exact Except.ok.inj hreply
            refine ⟨calls, call.2, [], by rw [← hi], ⟨next, hthread⟩, hstored, ?_⟩
            intro now hnow
            cases hnow
      | _ => exact hearlier _ h fun now hnow => .inl hnow

structure AuthorityLaw (settings : Settings) (db : Database) (entries : ℕ → Entry)
    (calls : List (ℕ × Answer)) (key : Text) : Prop where
  epochs : ∀ before later stored, before <+: later → later <+: calls →
    recordAfter settings db entries before key = some stored →
    ∃ next, recordAfter settings db entries later key = some next ∧
      stored.authorityEpoch ≤ next.authorityEpoch ∧ stored.leaseEpoch ≤ next.leaseEpoch
  regions : ∀ before before' stored stored', before <+: calls → before' <+: calls →
    recordAfter settings db entries before key = some stored →
    recordAfter settings db entries before' key = some stored' →
    stored.authorityEpoch = stored'.authorityEpoch → stored.activeRegionId = stored'.activeRegionId
  /-- The transfers of one input are applied at most once. -/
  transfers : ∀ before call rest before' call' rest' input transitionId leaseId now duration
      transitionId' leaseId' now' duration',
    calls = before ++ call :: rest → calls = before' ++ call' :: rest' →
    Applies (worldAfter settings db entries before) call key
      (.transfer input transitionId leaseId now duration) →
    Applies (worldAfter settings db entries before') call' key
      (.transfer input transitionId' leaseId' now' duration') → before = before'
  /-- A lease that is renewed has not been frozen nor handed over. -/
  renewals : ∀ before call rest input now duration, calls = before ++ call :: rest →
    Applies (worldAfter settings db entries before) call key (.renew input now duration) →
    ∀ earlier stored, earlier <+: before →
    recordAfter settings db entries earlier key = some stored →
    ∃ leaseEpoch, input.leaseEpoch = some leaseEpoch ∧ stored.leaseEpoch ≤ leaseEpoch ∧
      (stored.leaseEpoch = leaseEpoch → stored.status = .active)
  /-- A write is allowed under the record that it resolves to only in the epochs and within the
  lease of the record: the epochs that its context carries are those of the record, which are at
  least those of all earlier states, and its time is before the end of the lease. The time is the
  one that the write is given, or one after the record has been read. -/
  writes : ∀ i input options authority context,
    entries i = .assertRegionalWriteAuthority input options →
    (worldAfter settings db entries calls).Ended i (.ok (.assertion (.enforced authority context))) →
    ∃ key' before answer rest now, calls = before ++ (i, answer) :: rest ∧
      (worldAfter settings db entries before).Next i (.findOne key') ∧
      recordAfter settings db entries before key' = some authority ∧
      Current settings input authority now ∧
      (options.now = some now ∨
        (worldAfter settings db entries (before ++ [(i, answer)])).store.clock ≤ now) ∧
      ∀ earlier stored, earlier <+: before →
        recordAfter settings db entries earlier key' = some stored →
        stored.authorityEpoch ≤ authority.authorityEpoch ∧ stored.leaseEpoch ≤ authority.leaseEpoch

theorem authority_law (settings : Settings) (db : Database) (entries : ℕ → Entry)
    (calls : List (ℕ × Answer)) (key : Text) : AuthorityLaw settings db entries calls key where
  epochs before later stored hbefore _ hstored := by
    obtain ⟨next, hnext, hlater⟩ := later_of_prefix hbefore hstored
    exact ⟨next, hnext, hlater.authorityEpoch, hlater.leaseEpoch⟩
  regions before before' stored stored' hbefore hbefore' hstored hstored' hepoch := by
    rcases List.prefix_or_prefix_of_prefix hbefore hbefore' with h | h
    · obtain ⟨next, hnext, hlater⟩ := later_of_prefix h hstored
      obtain rfl := Option.some.inj (hnext.symm.trans hstored')
      exact hlater.region hepoch
    · obtain ⟨next, hnext, hlater⟩ := later_of_prefix h hstored'
      obtain rfl := Option.some.inj (hnext.symm.trans hstored)
      exact (hlater.region hepoch.symm).symm
  transfers before call rest before' call' rest' _ _ _ _ _ _ _ _ _ h h' hfirst hsecond := by
    rcases before_or_after (h.symm.trans h') with hsame | hless | hgreater
    · exact hsame
    · exact absurd hless (transfer_once hfirst hsecond)
    · exact absurd hgreater (transfer_once hsecond hfirst)
  renewals before call rest input now duration _ happlies earlier stored hearlier hstored :=
    renewed_lease happlies hearlier hstored
  writes i input options authority context hentry hended := by
    have hends := monitored settings db entries calls i
    rw [hended] at hends
    change (entries i).Ends settings _ _ at hends
    rw [hentry] at hends
    obtain ⟨key', now, hresolved, hcurrent, hnow⟩ := hends
    obtain ⟨before, answer, rest, hcalls, hnext, hrecord, hsince⟩ :=
      (readFrom_resolved i authority hresolved).exists_turn
    refine ⟨key', before, answer, rest, now, hcalls, hnext, hrecord, hcurrent,
      hnow.imp_right (hsince now), fun earlier stored hearlier hstored => ?_⟩
    obtain ⟨next, hnext, hlater⟩ := later_of_prefix hearlier hstored
    obtain rfl := Option.some.inj (hnext.symm.trans hrecord)
    exact ⟨hlater.authorityEpoch, hlater.leaseEpoch⟩

end GhostBridge.RegionalResilience
