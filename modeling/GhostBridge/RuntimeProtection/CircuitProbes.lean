import GhostBridge.Machine.Counts
import GhostBridge.RuntimeProtection.CircuitRuns

/-!
# Outstanding probes

Calls of a runtime that were admitted as probes and have not ended.
-/

namespace GhostBridge.RuntimeProtection

open Ecma Machine

def grantedClaim : (op : Op) × Reply op → Bool
  | ⟨.change change, .ok (some _)⟩ => change.claims
  | _ => false

def running (w : CircuitWorld) (i : ℕ) : Bool :=
  match w.thread i with
  | .done _ => false
  | .perform _ _ => true

def OutstandingProbe (w : CircuitWorld) (i : ℕ) : Prop :=
  (∃ entry ∈ w.log, entry.1 = i ∧ grantedClaim entry.2 = true) ∧ running w i = true

instance (w : CircuitWorld) (i : ℕ) : Decidable (OutstandingProbe w i) :=
  inferInstanceAs (Decidable (_ ∧ _))

/-- A result that is recorded in the half-open state takes the place of a probe: it is the result of
a probe, or the counter holds more probes than are outstanding. A failure is recorded there only
when no other probe is outstanding. -/
def ProbesAccounted (settings : CircuitSettings) (w : CircuitWorld) (call : ℕ × Answer) : Prop :=
  ∀ change stored, w.Next call.1 (.change change) → w.store.breaker = some stored →
    change.filter settings stored = true → stored.state = .halfOpen →
    match change with
    | .success _ _ => OutstandingProbe w call.1 ∨
        AtMost (OutstandingProbe w) (stored.probesInFlight - 1)
    | .release _ => OutstandingProbe w call.1 ∨
        AtMost (OutstandingProbe w) (stored.probesInFlight - 1)
    | .failure _ _ _ => ∀ i, OutstandingProbe w i → i = call.1
    | _ => True

variable {settings : CircuitSettings} {entries : ℕ → Entry} {w : CircuitWorld}

section Turn

variable {i : ℕ} {op : Op} {next : Reply op → Program Op Reply (Except Failure Unit)}
  {answer : Answer}

theorem outstanding_turn (hthread : w.thread i = .perform op next) {j : ℕ}
    (h : OutstandingProbe (turn settings w (i, answer)) j) : OutstandingProbe w j ∨
      j = i ∧ grantedClaim ⟨op, (perform settings w.store op answer).1⟩ = true := by
  obtain ⟨⟨entry, hmem, rfl, hgranted⟩, hrunning⟩ := h
  rw [turn, World.turn_perform hthread] at hmem
  have hbefore : running w entry.1 = true := by
    by_cases hj : entry.1 = i
    · rw [running, hj, hthread]
    · rw [running, turn, World.turn_perform hthread] at hrunning
      simp only [Function.update_of_ne hj] at hrunning
      exact hrunning
  rcases List.mem_append.mp hmem with hmem | hmem
  · exact .inl ⟨⟨entry, hmem, rfl, hgranted⟩, hbefore⟩
  · obtain rfl := List.mem_singleton.mp hmem
    exact .inr ⟨rfl, hgranted⟩

theorem perform_quiet (h : ∀ change updated,
      (⟨op, (perform settings w.store op answer).1⟩ : (op : Op) × Reply op) ≠
        ⟨.change change, .ok (some updated)⟩) :
    (perform settings w.store op answer).2.breaker = w.store.breaker ∨
      (w.store.breaker = none ∧ (perform settings w.store op answer).2.breaker = some {}) := by
  rcases (perform_breaker settings w.store op answer).2 with
    hsame | hinserted | ⟨change, stored, updated, rfl, havailable, hstored, ⟨hfilter, -⟩, -⟩
  · exact .inl hsame
  · exact .inr hinserted
  · refine absurd ?_ (h change (change.update settings stored))
    simp [perform, performAt, Answer.available, havailable, applyChange, hstored,
      Option.filter_some, hfilter]

theorem perform_granted {change : Change} {updated : Breaker}
    (h : (perform settings w.store (.change change) answer).1 = .ok (some updated)) :
    ∃ stored, w.store.breaker = some stored ∧ Changes settings change stored updated ∧
      (perform settings w.store (.change change) answer).2.breaker = some updated := by
  simp only [perform, performAt, Answer.available, applyChange] at h ⊢
  split at h
  · cases h
  · next havailable =>
    rw [if_neg havailable]
    split at h
    · cases h
    · next stored hstored =>
      obtain ⟨hget, hfilter⟩ := Option.filter_eq_some_iff.mp hstored
      obtain rfl := Option.some.inj (Except.ok.inj h)
      exact ⟨stored, hget, ⟨hfilter, rfl⟩, rfl⟩

theorem ended_of_settled
    (hmonitored : (turn settings w (i, answer)).Monitored conduct (fun i => (entries i).start)
      fun _ _ _ => True)
    (hsettled : ((turn settings w (i, answer)).states conduct (fun i => (entries i).start) i).settled =
      true) : running (turn settings w (i, answer)) i = false := by
  have hfollows := hmonitored i
  unfold running
  cases hnow : (turn settings w (i, answer)).thread i with
  | done result => rfl
  | perform op next =>
    rw [hnow] at hfollows
    have hfree : ((turn settings w (i, answer)).states conduct (fun i => (entries i).start) i).settled =
        false := by
      have hallowed := hfollows.1
      cases op with
      | change change => exact hallowed.1
      | _ => exact hallowed
    rw [hsettled] at hfree
    cases hfree

end Turn

def accounted : Option Breaker → Int
  | some breaker => if breaker.state = .halfOpen then breaker.storedProbes else 0
  | none => 0

theorem accounted_halfOpen {breaker : Breaker} (h : breaker.state = .halfOpen) :
    accounted (some breaker) = breaker.storedProbes := if_pos h

theorem accounted_of_ne {breaker : Breaker} (h : breaker.state ≠ .halfOpen) :
    accounted (some breaker) = 0 := if_neg h

structure ProbesBounded (settings : CircuitSettings) (w : CircuitWorld) : Prop where
  accounted : AtMost (OutstandingProbe w) (accounted w.store.breaker)
  bounded : AtMost (OutstandingProbe w) settings.halfOpenMaxProbes

theorem atMost_remaining {stored : Breaker} {i : ℕ} {Q : ℕ → Prop}
    (hcount : AtMost (OutstandingProbe w) stored.storedProbes)
    (hplace : OutstandingProbe w i ∨ AtMost (OutstandingProbe w) (stored.probesInFlight - 1))
    (hQ : ∀ j, Q j → OutstandingProbe w j ∧ j ≠ i) : AtMost Q stored.remainingProbes := by
  rcases hplace with hprobe | hfew
  · have hpos : 1 ≤ stored.storedProbes := by
      simpa using hcount {i} (by simpa using hprobe)
    have hinFlight : stored.probesInFlight = stored.storedProbes := by
      rw [Breaker.probesInFlight, if_neg (by omega)]
    refine (hcount.erase hprobe hQ).le ?_
    rw [Breaker.remainingProbes, hinFlight]
    exact le_max_right _ _
  · exact (hfew.mono fun j hj => (hQ j hj).1).le (le_max_right _ _)

theorem room_of_claimProbe {stored breaker : Breaker}
    (hfilter : (Change.claimProbe breaker).filter settings stored = true) :
    stored.state = .halfOpen ∧ stored.storedProbes + 1 ≤ settings.halfOpenMaxProbes := by
  simp only [Change.filter, decide_eq_true_eq] at hfilter
  obtain ⟨-, hstate, hroom⟩ := hfilter
  have hpos := settings.halfOpenMaxProbes_range.1
  refine ⟨hstate, ?_⟩
  unfold Breaker.storedProbes
  cases hprobes : stored.halfOpenProbesInFlight with
  | none => exact hpos
  | some probes =>
    simp only [hprobes, Option.all_some, decide_eq_true_eq] at hroom
    exact hroom

theorem probesBounded_change {i : ℕ} {answer : Answer} {change : Change} {stored updated : Breaker}
    {next : Reply (.change change) → Program Op Reply (Except Failure Unit)}
    (hI : CircuitInvariant entries w)
    (hmonitored : w.Monitored conduct (fun i => (entries i).start) fun _ _ _ => True)
    (hthread : w.thread i = .perform (.change change) next)
    (hreply : (perform settings w.store (.change change) answer).1 = .ok (some updated))
    (hstored : w.store.breaker = some stored) (hchange : Changes settings change stored updated)
    (hguard : ProbesAccounted settings w (i, answer)) (hbounded : ProbesBounded settings w) :
    AtMost (OutstandingProbe (turn settings w (i, answer))) (accounted (some updated)) ∧
      AtMost (OutstandingProbe (turn settings w (i, answer))) settings.halfOpenMaxProbes := by
  obtain ⟨hcount, hmax⟩ := hbounded
  rw [hstored] at hcount
  have hbase := (base_eq_stored hI hmonitored ⟨next, hthread⟩ hstored hchange).1
  have hplace := hguard change stored ⟨next, hthread⟩ hstored hchange.filter
  have hclaim (j : ℕ) (hj : OutstandingProbe (turn settings w (i, answer)) j) :
      OutstandingProbe w j ∨ j = i := (outstanding_turn hthread hj).imp_right And.left
  -- a call that records a result has ended with it
  have hresult (hnot : change.claims = false) (j : ℕ)
      (hj : OutstandingProbe (turn settings w (i, answer)) j) : OutstandingProbe w j ∧ j ≠ i := by
    have hrunning : running (turn settings w (i, answer)) i = false := by
      have hnext : CircuitInvariant entries (turn settings w (i, answer)) ∧
          (turn settings w (i, answer)).Monitored conduct (fun i => (entries i).start)
            fun _ _ _ => True :=
        (circuitInvariant settings entries).turn hI hmonitored trivial
      apply ended_of_settled hnext.2
      rw [turn, World.states_turn hthread, Function.update_self, hreply]
      change (if change.claims = true then _ else _ : Progress).settled = true
      rw [hnot]
      rfl
    refine ⟨(outstanding_turn hthread hj).resolve_right ?_, ?_⟩
    · rintro ⟨-, hgranted⟩
      rw [hreply] at hgranted
      exact Bool.false_ne_true (hnot.symm.trans hgranted)
    · rintro rfl
      rw [hj.2] at hrunning
      cases hrunning
  have hless (hnot : change.claims = false) :
      AtMost (OutstandingProbe (turn settings w (i, answer))) settings.halfOpenMaxProbes :=
    hmax.mono fun j hj => (hresult hnot j hj).1
  have hempty (hstate : stored.state ≠ .halfOpen) (j : ℕ) : ¬OutstandingProbe w j := by
    rw [accounted_of_ne hstate] at hcount
    exact atMost_zero.mp hcount j
  obtain rfl := hchange.next_eq
  have hfilter := hchange.filter
  cases change with
  | halfOpen breaker now =>
    simp only [Change.filter, decide_eq_true_eq] at hfilter
    have hone : AtMost (OutstandingProbe (turn settings w (i, answer))) 1 := by
      rw [accounted_of_ne (by rw [hfilter.2.1]; decide)] at hcount
      simpa using hcount.insert hclaim
    exact ⟨hone, hone.le settings.halfOpenMaxProbes_range.1⟩
  | claimProbe breaker =>
    obtain ⟨hstate, hroom⟩ := room_of_claimProbe hfilter
    rw [accounted_halfOpen hstate] at hcount
    have hmore := hcount.insert hclaim
    refine ⟨?_, hmore.le hroom⟩
    rw [accounted_halfOpen (by exact hstate)]
    exact hmore
  | success breaker now =>
    obtain rfl := hbase breaker rfl
    refine ⟨?_, hless rfl⟩
    by_cases hstate : breaker.state = .halfOpen
    · rw [accounted_halfOpen hstate] at hcount
      have hremaining := atMost_remaining hcount (hplace hstate) (hresult rfl)
      by_cases hcloses : breaker.closes settings = true
      · simp only [Breaker.closes, decide_eq_true_eq] at hcloses
        rw [hcloses.2.2] at hremaining
        rw [accounted_of_ne]
        · exact hremaining
        · simp [Change.update, successUpdate, Breaker.closes, hcloses]
      · rw [accounted_halfOpen]
        · simpa [Change.update, successUpdate, Breaker.storedProbes, hstate] using hremaining
        · simp [Change.update, successUpdate, hcloses, hstate]
    · rw [accounted_of_ne]
      · exact atMost_zero.mpr fun j hj => hempty hstate j (hresult rfl j hj).1
      · simp [Change.update, successUpdate, Breaker.closes, hstate]
  | release breaker =>
    obtain rfl := hbase breaker rfl
    refine ⟨?_, hless rfl⟩
    simp only [Change.filter, decide_eq_true_eq] at hfilter
    rw [accounted_halfOpen hfilter.2] at hcount
    rw [accounted_halfOpen (by exact hfilter.2)]
    exact atMost_remaining hcount (hplace hfilter.2) (hresult rfl)
  | rateLimit rateLimitedUntil now errorMetadata =>
    exact ⟨hcount.mono fun j hj => (hresult rfl j hj).1, hless rfl⟩
  | failure breaker errorMetadata now =>
    obtain rfl := hbase breaker rfl
    refine ⟨?_, hless rfl⟩
    rw [accounted_of_ne]
    · refine atMost_zero.mpr fun j hj => ?_
      obtain ⟨hbefore, hne⟩ := hresult rfl j hj
      by_cases hstate : breaker.state = .halfOpen
      · exact hne (hplace hstate j hbefore)
      · exact hempty hstate j hbefore
    · simp only [Change.update, failureUpdate]
      split <;> decide

theorem probesBounded_turn {call : ℕ × Answer} (hI : CircuitInvariant entries w)
    (hmonitored : w.Monitored conduct (fun i => (entries i).start) fun _ _ _ => True)
    (hguard : ProbesAccounted settings w call) (hbounded : ProbesBounded settings w) :
    ProbesBounded settings (turn settings w call) := by
  obtain ⟨i, answer⟩ := call
  rcases World.turn_cases (perform settings) w (i, answer) with ⟨hidle, -⟩ | ⟨op, next, hthread, hdone⟩
  · rwa [turn, hidle]
  have hstore : (turn settings w (i, answer)).store = (perform settings w.store op answer).2 := by
    rw [turn, hdone]
  by_cases hgranted : ∃ change updated,
      (⟨op, (perform settings w.store op answer).1⟩ : (op : Op) × Reply op) =
        ⟨.change change, .ok (some updated)⟩
  · obtain ⟨change, updated, heq⟩ := hgranted
    obtain rfl : op = .change change := congrArg Sigma.fst heq
    have hreply : (perform settings w.store (.change change) answer).1 = .ok (some updated) := by
      simpa using heq
    obtain ⟨stored, hstored, hchange, hupdated⟩ := perform_granted hreply
    obtain ⟨hcount, hmax⟩ := probesBounded_change hI hmonitored hthread hreply hstored hchange
      hguard hbounded
    refine ⟨?_, hmax⟩
    rw [hstore, hupdated]
    exact hcount
  · push Not at hgranted
    have hsame (j : ℕ) (hj : OutstandingProbe (turn settings w (i, answer)) j) :
        OutstandingProbe w j := by
      refine (outstanding_turn hthread hj).resolve_right ?_
      rintro ⟨-, hclaim⟩
      unfold grantedClaim at hclaim
      split at hclaim
      · next change updated heq => exact hgranted change updated heq
      · cases hclaim
    have haccounted : accounted (perform settings w.store op answer).2.breaker =
        accounted w.store.breaker := by
      rcases perform_quiet hgranted with hquiet | ⟨hnone, hinserted⟩
      · rw [hquiet]
      · rw [hnone, hinserted]
        rfl
    refine ⟨?_, hbounded.bounded.mono hsame⟩
    rw [hstore, haccounted]
    exact hbounded.accounted.mono hsame

def runtimeCalls (admission options : ℕ → Options) (i : ℕ) : Entry :=
  .runtimeCall (admission i) (options i)

/-- In every run whose results are all accounted for, no more probes are outstanding than allowed. -/
theorem probes_bounded (settings : CircuitSettings) (db : Database)
    (hcounters : ∀ stored, db.breaker = some stored → stored.CountersNonneg)
    (admission options : ℕ → Options) (calls : List (ℕ × Answer))
    (haccounted : Guarded (turn settings) (ProbesAccounted settings)
      (worldAfter settings db (runtimeCalls admission options) []) calls)
    (probes : Finset ℕ)
    (hprobes : ∀ i ∈ probes,
      OutstandingProbe (worldAfter settings db (runtimeCalls admission options) calls) i) :
    (probes.card : Int) ≤ settings.halfOpenMaxProbes := by
  obtain ⟨hI, hmonitored⟩ := circuit_reached settings db (runtimeCalls admission options) []
  have hnone (i : ℕ) :
      ¬OutstandingProbe (worldAfter settings db (runtimeCalls admission options) []) i := by
    rintro ⟨⟨entry, hmem, -⟩, -⟩
    exact (List.not_mem_nil hmem).elim
  have hstart : ProbesBounded settings (worldAfter settings db (runtimeCalls admission options) []) := by
    have hzero := atMost_zero.mpr hnone
    have hpos := settings.halfOpenMaxProbes_range.1
    refine ⟨hzero.le ?_, hzero.le (by omega)⟩
    change 0 ≤ accounted db.breaker
    cases hdb : db.breaker with
    | none => exact le_rfl
    | some stored =>
      change 0 ≤ if stored.state = .halfOpen then stored.storedProbes else 0
      split
      · exact (hcounters stored hdb).storedProbes
      · exact le_rfl
  have hreached := haccounted.after_induction
    (I := fun w : CircuitWorld =>
      (CircuitInvariant (runtimeCalls admission options) w ∧
        w.Monitored conduct (fun i => (runtimeCalls admission options i).start) fun _ _ _ => True) ∧
      ProbesBounded settings w) ⟨⟨hI, hmonitored⟩, hstart⟩ ?_
  · exact hreached.2.bounded probes hprobes
  · rintro w call ⟨⟨hI, hmonitored⟩, hbounded⟩ hguard
    refine ⟨?_, probesBounded_turn hI hmonitored hguard hbounded⟩
    exact (circuitInvariant settings _).turn hI hmonitored trivial

private def visiblyAccounted (w : CircuitWorld) (i : ℕ) : Bool :=
  match w.thread i with
  | .perform (.change (.failure _ _ _)) _ => false
  | .perform (.change change) _ => change.claims || decide (OutstandingProbe w i)
  | _ => true

private def visiblyAccountedRun (settings : CircuitSettings) : CircuitWorld → List (ℕ × Answer) → Bool
  | _, [] => true
  | w, call :: calls =>
    visiblyAccounted w call.1 && visiblyAccountedRun settings (turn settings w call) calls

private theorem probesAccounted_of_visibly {call : ℕ × Answer}
    (h : visiblyAccounted w call.1 = true) : ProbesAccounted settings w call := by
  rintro change stored ⟨next, hthread⟩ - - -
  rw [visiblyAccounted, hthread] at h
  cases change with
  | halfOpen breaker now => trivial
  | claimProbe breaker => trivial
  | success breaker now => exact .inl (of_decide_eq_true h)
  | release breaker => exact .inl (of_decide_eq_true h)
  | rateLimit rateLimitedUntil now errorMetadata => trivial
  | failure breaker errorMetadata now => cases h

private theorem guarded_of_visibly {calls : List (ℕ × Answer)}
    (h : visiblyAccountedRun settings w calls = true) :
    Guarded (turn settings) (ProbesAccounted settings) w calls := by
  induction calls generalizing w with
  | nil => trivial
  | cons call calls ih =>
    obtain ⟨hcall, hcalls⟩ := Bool.and_eq_true_iff.mp h
    exact ⟨probesAccounted_of_visibly hcall, ih hcalls⟩

private def twiceSettings : CircuitSettings :=
  { CircuitSettings.standard with
    halfOpenMaxProbes := 2
    successThresholdToClose := 2
    halfOpenMaxProbes_range := by decide
    successThresholdToClose_range := by decide }

private def openBreaker : Database := { breaker := some { state := .open, openUntil := some 0 } }

private def oneSucceeds : List (ℕ × Answer) :=
  [(0, {}), (0, {}), (0, {}), (1, {}), (1, {}), (1, {}), (0, {}), (0, {}), (0, {}), (0, {})]

theorem probes_bounded_one_succeeds : (({1} : Finset ℕ).card : Int) ≤ 2 := by
  refine probes_bounded twiceSettings openBreaker ?_ (fun _ => {}) (fun _ => {}) oneSucceeds ?_ {1} ?_
  · rintro _ ⟨⟩
    exact ⟨le_rfl, le_rfl, le_rfl, by simp, le_rfl, le_rfl⟩
  · exact guarded_of_visibly (by decide)
  · decide

private def probeSettings : CircuitSettings :=
  { CircuitSettings.standard with
    failureThreshold := 1
    failureThreshold_range := CircuitSettings.standard.successThresholdToClose_range }

private def timedOut : Answer := { finish := .failure { code := ascii "ETIMEDOUT" } }

/-- Two calls are admitted; the first one fails and opens the breaker. When it is half-open for a
probe, the second one fails. The next probe is admitted while the first is outstanding. -/
private def twoProbes : List (ℕ × Answer) :=
  [(0, {}), (0, {}), (1, {}), (1, {}), (0, timedOut), (0, {}), (0, {}), (0, {}),
    (2, { elapsed := 30000 }), (2, {}), (2, {}), (1, timedOut), (1, {}), (1, {}), (1, {}),
    (3, { elapsed := 30000 }), (3, {}), (3, {})]

private abbrev twoProbesWorld : CircuitWorld :=
  worldAfter probeSettings {} (runtimeCalls (fun _ => {}) fun _ => {}) twoProbes

private theorem twoProbes_outstanding : ∀ i ∈ ({2, 3} : Finset ℕ), OutstandingProbe twoProbesWorld i := by
  decide +kernel

private theorem twoProbes_halfOpen :
    twoProbesWorld.store.breaker.map Breaker.state = some .halfOpen := by
  decide +kernel

/-- Two probes are outstanding in the half-open state where one is allowed. -/
theorem two_probes_outstanding : ¬∀ (settings : CircuitSettings) (db : Database)
    (admission options : ℕ → Options) (calls : List (ℕ × Answer)) (probes : Finset ℕ),
    (∀ stored, db.breaker = some stored → stored.CountersNonneg) →
    (worldAfter settings db (runtimeCalls admission options) calls).store.breaker.map
      Breaker.state = some .halfOpen →
    (∀ i ∈ probes,
      OutstandingProbe (worldAfter settings db (runtimeCalls admission options) calls) i) →
    (probes.card : Int) ≤ settings.halfOpenMaxProbes := by
  intro h
  have hcard := h probeSettings {} (fun _ => {}) (fun _ => {}) twoProbes {2, 3} (by simp)
    twoProbes_halfOpen twoProbes_outstanding
  exact absurd hcard (by decide)

end GhostBridge.RuntimeProtection
