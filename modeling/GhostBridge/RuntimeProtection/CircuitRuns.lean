import GhostBridge.RuntimeProtection.CircuitConduct

/-!
# Runs over one circuit breaker

Any number of operations of the service that run at the same time over one breaker.
-/

namespace GhostBridge.RuntimeProtection

open Ecma Machine

inductive Entry where
  | evaluateCircuit (options : Options)
  | recordCircuitSuccess (options : Options)
  | recordCircuitFailure (errorMetadata : ErrorMetadata) (options : Options)
  | recordRateLimit (errorMetadata : ErrorMetadata) (now : Int)
  | releaseCircuitProbe (options : Options)
  | runtimeCall (admission options : Options)

namespace Entry

def program (settings : CircuitSettings) : Entry → Flow Unit
  | .evaluateCircuit options => discarding (RuntimeProtection.evaluateCircuit settings options)
  | .recordCircuitSuccess options =>
    discarding (RuntimeProtection.recordCircuitSuccess settings options)
  | .recordCircuitFailure errorMetadata options =>
    discarding (RuntimeProtection.recordCircuitFailure settings errorMetadata options)
  | .recordRateLimit errorMetadata now =>
    discarding (RuntimeProtection.recordRateLimit settings errorMetadata now)
  | .releaseCircuitProbe options =>
    discarding (RuntimeProtection.releaseCircuitProbe settings options)
  | .runtimeCall admission options => RuntimeProtection.runtimeCall settings admission options

def given : Entry → List Int
  | .evaluateCircuit options => options.now.toList
  | .recordCircuitSuccess options => options.now.toList
  | .recordCircuitFailure _ options => options.now.toList
  | .recordRateLimit _ now => [now]
  | .releaseCircuitProbe options => options.now.toList
  | .runtimeCall admission options => admission.now.toList ++ options.now.toList

def start (entry : Entry) : Progress := { readings := entry.given }

theorem program_follows (settings : CircuitSettings) (entry : Entry) :
    Conducts entry.start (fun _ _ => True) (entry.program settings) := by
  have hs : entry.start.settled = false := rfl
  cases entry with
  | evaluateCircuit options =>
    apply conducts_discarding
    exact (conducts_evaluateCircuit hs (by simp [start, given])).mono fun _ _ _ => trivial
  | recordCircuitSuccess options =>
    apply conducts_discarding
    exact conducts_recordCircuitSuccess hs (by simp [start, given])
  | recordCircuitFailure errorMetadata options =>
    apply conducts_discarding
    exact conducts_recordCircuitFailure hs (by simp [start, given])
  | recordRateLimit errorMetadata now =>
    apply conducts_discarding
    exact conducts_recordRateLimit hs
  | releaseCircuitProbe options =>
    apply conducts_discarding
    exact conducts_releaseCircuitProbe hs
  | runtimeCall admission options =>
    apply conducts_runtimeCall hs
    · intro now hnow
      simp [start, given, Option.mem_def.mp hnow]
    · intro now hnow
      simp [start, given, Option.mem_def.mp hnow]

end Entry

abbrev CircuitWorld := World Database Op Reply (Except Failure Unit)

variable {settings : CircuitSettings} {entries : ℕ → Entry} {w : CircuitWorld} {call : ℕ × Answer}

abbrev turn (settings : CircuitSettings) : CircuitWorld → ℕ × Answer → CircuitWorld :=
  World.turn (perform settings)

def worldAfter (settings : CircuitSettings) (db : Database) (entries : ℕ → Entry)
    (calls : List (ℕ × Answer)) : CircuitWorld :=
  after (turn settings) (.initial db fun i => (entries i).program settings) calls

theorem worldAfter_concat (settings : CircuitSettings) (db : Database) (entries : ℕ → Entry)
    (calls : List (ℕ × Answer)) (call : ℕ × Answer) :
    worldAfter settings db entries (calls ++ [call]) =
      turn settings (worldAfter settings db entries calls) call :=
  after_concat call

/-- The states of a breaker before and after a change of it. -/
structure Changes (settings : CircuitSettings) (change : Change) (stored next : Breaker) : Prop where
  filter : change.filter settings stored = true
  next_eq : next = change.update settings stored

theorem perform_breaker (settings : CircuitSettings) (db : Database) (op : Op) (answer : Answer) :
    (perform settings db op answer).2.clock = db.clock + answer.elapsed ∧
      ((perform settings db op answer).2.breaker = db.breaker ∨
        (db.breaker = none ∧ (perform settings db op answer).2.breaker = some {}) ∨
        ∃ change stored next, op = .change change ∧ answer.unavailable = false ∧
          db.breaker = some stored ∧ Changes settings change stored next ∧
          (perform settings db op answer).2.breaker = some next) := by
  cases op with
  | clock => exact ⟨rfl, .inl rfl⟩
  | callRuntime => exact ⟨rfl, .inl rfl⟩
  | findOne =>
    simp only [perform, performAt, Answer.available]
    split <;> exact ⟨rfl, .inl rfl⟩
  | upsert =>
    simp only [perform, performAt, Answer.available, upsert]
    split
    · exact ⟨rfl, .inl rfl⟩
    split
    · split <;> exact ⟨rfl, .inl rfl⟩
    · next hnone => exact ⟨rfl, .inr (.inl ⟨hnone, rfl⟩)⟩
  | change change =>
    simp only [perform, performAt, Answer.available, applyChange]
    split
    · exact ⟨rfl, .inl rfl⟩
    next havailable =>
      split
      · exact ⟨rfl, .inl rfl⟩
      · next stored hstored =>
        obtain ⟨hget, hfilter⟩ := Option.filter_eq_some_iff.mp hstored
        exact ⟨rfl, .inr (.inr ⟨change, stored, _, rfl, by simpa using havailable, hget,
          ⟨hfilter, rfl⟩, rfl⟩)⟩

theorem perform_reply (s : Progress) (settings : CircuitSettings) (db : Database) (op : Op)
    (answer : Answer) :
    (∀ b ∈ (s.next op (perform settings db op answer).1).seen,
      b ∈ s.seen ∨ (perform settings db op answer).2.breaker = some b) ∧
    (∀ now ∈ (s.next op (perform settings db op answer).1).readings,
      now ∈ s.readings ∨ now = db.clock + answer.elapsed) := by
  cases op with
  | clock =>
    refine ⟨fun b hb => .inl hb, fun now hnow => ?_⟩
    exact (List.mem_cons.mp hnow).symm
  | callRuntime => exact ⟨fun b hb => .inl hb, fun now hnow => .inl hnow⟩
  | findOne =>
    simp only [perform, performAt, Answer.available]
    split
    · exact ⟨fun b hb => .inl hb, fun now hnow => .inl hnow⟩
    · cases hdb : db.breaker with
      | none => exact ⟨fun b hb => .inl hb, fun now hnow => .inl hnow⟩
      | some stored =>
        refine ⟨fun b hb => ?_, fun now hnow => .inl hnow⟩
        rcases List.mem_cons.mp hb with rfl | hb
        · exact .inr rfl
        · exact .inl hb
  | upsert =>
    simp only [perform, performAt, Answer.available, upsert]
    split
    · exact ⟨fun b hb => .inl hb, fun now hnow => .inl hnow⟩
    · cases hdb : db.breaker with
      | none =>
        refine ⟨fun b hb => ?_, fun now hnow => .inl hnow⟩
        rcases List.mem_cons.mp hb with rfl | hb
        · exact .inr rfl
        · exact .inl hb
      | some stored =>
        by_cases hraced : answer.raced = true
        · simp only [hraced, if_true]
          exact ⟨fun b hb => .inl hb, fun now hnow => .inl hnow⟩
        · simp only [hraced]
          refine ⟨fun b hb => ?_, fun now hnow => .inl hnow⟩
          rcases List.mem_cons.mp hb with rfl | hb
          · exact .inr rfl
          · exact .inl hb
  | change change =>
    have hsame (reply : Checked (Option Breaker)) : (s.next (.change change) reply).seen = s.seen ∧
        (s.next (.change change) reply).readings = s.readings := by
      rcases reply with e | (_ | updated)
      · exact ⟨rfl, rfl⟩
      · exact ⟨rfl, rfl⟩
      · change (if change.claims then { s with probe := true } else { s with settled := true }).seen =
            s.seen ∧ (if change.claims then { s with probe := true }
              else { s with settled := true }).readings = s.readings
        split <;> exact ⟨rfl, rfl⟩
    rw [(hsame _).1, (hsame _).2]
    exact ⟨fun b hb => .inl hb, fun now hnow => .inl hnow⟩

theorem Change.update_version (settings : CircuitSettings) (change : Change) (stored : Breaker) :
    (change.update settings stored).version = stored.version + 1 := by
  cases change <;> rfl

theorem Change.version_of_filter {change : Change} {stored breaker : Breaker}
    (h : change.filter settings stored = true) (hbase : change.base = some breaker) :
    stored.version = breaker.version := by
  cases change <;> simp_all [Change.base, Change.filter]

def Earlier (breaker : Breaker) (current : Option Breaker) : Prop :=
  ∃ stored, current = some stored ∧ (breaker = stored ∨ breaker.version < stored.version)

theorem Earlier.of_changes {breaker stored next : Breaker} {change : Change}
    (h : Earlier breaker (some stored)) (hchange : Changes settings change stored next) :
    Earlier breaker (some next) := by
  obtain ⟨_, hstored, hearlier⟩ := h
  obtain rfl := Option.some.inj hstored
  have hversion : next.version = stored.version + 1 := by
    rw [hchange.next_eq, Change.update_version]
  refine ⟨next, rfl, .inr ?_⟩
  rcases hearlier with rfl | hlt
  · omega
  · omega

structure CircuitInvariant (entries : ℕ → Entry) (w : CircuitWorld) : Prop where
  snapshots : ∀ i, ∀ breaker ∈ (w.states conduct (fun i => (entries i).start) i).seen,
    Earlier breaker w.store.breaker
  times : ∀ i, ∀ now ∈ (w.states conduct (fun i => (entries i).start) i).readings,
    now ∈ (entries i).given ∨ now ≤ w.store.clock

theorem circuitInvariant (settings : CircuitSettings) (entries : ℕ → Entry) :
    Invariant (perform settings) conduct (fun i => (entries i).start) (fun _ _ => True)
      (CircuitInvariant entries) where
  replies _ _ _ _ _ _ _ _ _ := trivial
  keeps w i answer op next hI _ hthread _ := by
    obtain ⟨hclock, hbreaker⟩ := perform_breaker settings w.store op answer
    have hearlier {breaker : Breaker} (h : Earlier breaker w.store.breaker) :
        Earlier breaker (perform settings w.store op answer).2.breaker := by
      rcases hbreaker with hsame | ⟨hnone, _⟩ | ⟨change, stored, b, _, _, hstored, hchange, hnext⟩
      · rwa [hsame]
      · obtain ⟨stored, hstored, _⟩ := h
        simp [hnone] at hstored
      · rw [hnext]
        exact Earlier.of_changes (hstored ▸ h) hchange
    have hnow {now : Int} (h : now ≤ w.store.clock) :
        now ≤ (perform settings w.store op answer).2.clock := by
      rw [hclock]
      omega
    obtain ⟨hseen, hreadings⟩ :=
      perform_reply (w.states conduct (fun i => (entries i).start) i) settings w.store op answer
    constructor
    · intro j breaker hmem
      rw [World.states_turn hthread] at hmem
      rw [World.turn_perform hthread]
      by_cases hj : j = i
      · subst hj
        rw [Function.update_self] at hmem
        rcases hseen breaker hmem with h | h
        · exact hearlier (hI.snapshots j breaker h)
        · exact ⟨breaker, h, .inl rfl⟩
      · rw [Function.update_of_ne hj] at hmem
        exact hearlier (hI.snapshots j breaker hmem)
    · intro j now hmem
      rw [World.states_turn hthread] at hmem
      rw [World.turn_perform hthread]
      by_cases hj : j = i
      · subst hj
        rw [Function.update_self] at hmem
        rcases hreadings now hmem with h | rfl
        · exact (hI.times j now h).imp_right hnow
        · exact .inr (by rw [hclock])
      · rw [Function.update_of_ne hj] at hmem
        exact (hI.times j now hmem).imp_right hnow

theorem circuit_reached (settings : CircuitSettings) (db : Database) (entries : ℕ → Entry)
    (calls : List (ℕ × Answer)) :
    CircuitInvariant entries (worldAfter settings db entries calls) ∧
      (worldAfter settings db entries calls).Monitored conduct (fun i => (entries i).start)
        fun _ _ _ => True := by
  apply (circuitInvariant settings entries).after
  · exact ⟨fun i breaker h => (List.not_mem_nil h).elim, fun i now h => .inl h⟩
  · exact fun i => (entries i).program_follows settings
  · exact guarded_of_forall fun _ _ _ => trivial

theorem base_eq_stored {change : Change} {stored next : Breaker} (hI : CircuitInvariant entries w)
    (hmonitored : w.Monitored conduct (fun i => (entries i).start) fun _ _ _ => True) {i : ℕ}
    (hnext : w.Next i (.change change)) (hstored : w.store.breaker = some stored)
    (hchange : Changes settings change stored next) :
    (∀ breaker, change.base = some breaker → breaker = stored) ∧
      change.Checks (w.states conduct (fun i => (entries i).start) i) := by
  obtain ⟨rest, hthread⟩ := hnext
  have hfollows := hmonitored i
  rw [hthread] at hfollows
  obtain ⟨⟨_, hbase, hchecks⟩, _⟩ := hfollows
  refine ⟨fun breaker hb => ?_, hchecks⟩
  obtain ⟨_, hget, hearlier⟩ := hI.snapshots i breaker (hbase breaker hb)
  obtain rfl := Option.some.inj (hstored.symm.trans hget)
  rcases hearlier with rfl | hlt
  · rfl
  · have := Change.version_of_filter hchange.filter hb
    omega

structure LawfulTurn (settings : CircuitSettings) (entries : ℕ → Entry) (w : CircuitWorld)
    (call : ℕ × Answer) : Prop where
  /-- The open state is left for a probe, claimed at or after `openUntil`. -/
  leavesOpen : ∀ stored next, w.store.breaker = some stored →
    (turn settings w call).store.breaker = some next → stored.state = .open → next.state ≠ .open →
    next.state = .halfOpen ∧ ∃ breaker now, w.Next call.1 (.change (.halfOpen breaker now)) ∧
      stored.openUntil.any (· ≤ now) ∧ (now ∈ (entries call.1).given ∨ now ≤ w.store.clock)
  /-- The breaker becomes closed by a success in the half-open state, with enough successes. -/
  closes : ∀ stored next, w.store.breaker = some stored →
    (turn settings w call).store.breaker = some next → stored.state ≠ .closed →
    next.state = .closed →
    stored.state = .halfOpen ∧ settings.successThresholdToClose ≤ stored.successCountSinceClose + 1 ∧
      ∃ breaker now, w.Next call.1 (.change (.success breaker now))
  counters : (∀ stored, w.store.breaker = some stored → stored.CountersNonneg) →
    ∀ next, (turn settings w call).store.breaker = some next → next.CountersNonneg

/-- The turn records a failure in an open breaker, and with it the failure window holds too few
failures. -/
def ClosesByFailure (settings : CircuitSettings) (w : CircuitWorld) (call : ℕ × Answer) : Prop :=
  ∃ breaker errorMetadata now stored,
    w.Next call.1 (.change (.failure breaker errorMetadata now)) ∧ call.2.unavailable = false ∧
      w.store.breaker = some stored ∧ stored.version = breaker.version ∧ stored.state = .open ∧
      stored.failuresWith settings now (classifyCircuitFailure errorMetadata).weight <
        settings.failureThreshold

section Law

variable {change : Change} {stored next : Breaker} {s : Progress}

theorem Breaker.CountersNonneg.storedProbes (h : stored.CountersNonneg) : 0 ≤ stored.storedProbes := by
  unfold Breaker.storedProbes
  cases hprobes : stored.halfOpenProbesInFlight with
  | none => exact le_rfl
  | some probes => exact h.halfOpenProbesInFlight probes hprobes

theorem Breaker.remainingProbes_nonneg (breaker : Breaker) : 0 ≤ breaker.remainingProbes :=
  le_max_left _ _

theorem Changes.counters (hchange : Changes settings change stored next) (hchecks : change.Checks s)
    (hbase : ∀ breaker, change.base = some breaker → breaker = stored)
    (h : stored.CountersNonneg) : next.CountersNonneg := by
  obtain ⟨h₁, h₂, h₃, h₄, h₅, h₆⟩ := h
  obtain rfl := hchange.next_eq
  have hstored := Breaker.CountersNonneg.storedProbes ⟨h₁, h₂, h₃, h₄, h₅, h₆⟩
  have hone {n : Int} (hn : 0 ≤ n) : 0 ≤ n + 1 := by omega
  cases change with
  | halfOpen breaker now => exact ⟨h₁, h₂, h₃, by simp [Change.update, halfOpenUpdate], hone h₅, hone h₆⟩
  | claimProbe breaker =>
    refine ⟨h₁, h₂, h₃, ?_, hone h₅, hone h₆⟩
    rintro _ ⟨⟩
    exact hone hstored
  | success breaker now =>
    obtain rfl := hbase breaker rfl
    refine ⟨le_rfl, hone h₂, le_rfl, ?_, h₅, hone h₆⟩
    rintro _ ⟨⟩
    split
    · exact breaker.remainingProbes_nonneg
    · exact le_rfl
  | release breaker =>
    refine ⟨h₁, h₂, h₃, ?_, h₅, hone h₆⟩
    rintro _ ⟨⟩
    exact breaker.remainingProbes_nonneg
  | rateLimit rateLimitedUntil now errorMetadata => exact ⟨h₁, h₂, h₃, h₄, h₅, hone h₆⟩
  | failure breaker errorMetadata now =>
    obtain rfl := hbase breaker rfl
    have hweight := (classifyCircuitFailure_counts errorMetadata hchecks).1
    refine ⟨?_, ?_, ?_, ?_, h₅, hone h₆⟩
    · simp only [Change.update, failureUpdate, hweight]
      exact hone h₁
    · simp only [Change.update, failureUpdate]
      split
      · exact le_rfl
      · exact h₂
    · simp only [Change.update, failureUpdate, Breaker.failuresWith, hweight]
      split <;> omega
    · rintro _ ⟨⟩
      exact le_rfl

theorem Changes.leavesOpen (hchange : Changes settings change stored next) (hchecks : change.Checks s)
    (hbase : ∀ breaker, change.base = some breaker → breaker = stored)
    (hopen : stored.state = .open) (hleft : next.state ≠ .open) :
    (next.state = .halfOpen ∧ ∃ breaker now, change = .halfOpen breaker now ∧
      stored.openUntil.any (· ≤ now) ∧ now ∈ s.readings) ∨
    (next.state = .closed ∧ ∃ breaker errorMetadata now, change = .failure breaker errorMetadata now ∧
      stored.failuresWith settings now (classifyCircuitFailure errorMetadata).weight <
        settings.failureThreshold) := by
  obtain rfl := hchange.next_eq
  have hfilter := hchange.filter
  cases change with
  | halfOpen breaker now =>
    simp only [Change.filter, decide_eq_true_eq] at hfilter
    exact .inl ⟨rfl, breaker, now, rfl, hfilter.2.2.1, hchecks.2⟩
  | claimProbe breaker =>
    simp only [Change.filter, decide_eq_true_eq] at hfilter
    exact absurd (hopen.symm.trans hfilter.2.1) (by decide)
  | success breaker now =>
    obtain rfl := hbase breaker rfl
    exact absurd hopen hchecks
  | release breaker => exact absurd hopen hleft
  | rateLimit rateLimitedUntil now errorMetadata => exact absurd hopen hleft
  | failure breaker errorMetadata now =>
    obtain rfl := hbase breaker rfl
    simp only [Change.update, failureUpdate, Breaker.shouldOpen] at hleft ⊢
    by_cases hthreshold : settings.failureThreshold ≤
        breaker.failuresWith settings now (classifyCircuitFailure errorMetadata).weight
    · simp [hthreshold] at hleft
    · refine .inr ⟨?_, breaker, errorMetadata, now, rfl, by omega⟩
      simp [hthreshold, hopen]

theorem Changes.closes (hchange : Changes settings change stored next)
    (hbase : ∀ breaker, change.base = some breaker → breaker = stored)
    (hnot : stored.state ≠ .closed) (hclosed : next.state = .closed) :
    (stored.state = .halfOpen ∧ settings.successThresholdToClose ≤ stored.successCountSinceClose + 1 ∧
      ∃ breaker now, change = .success breaker now) ∨ stored.state = .open := by
  obtain rfl := hchange.next_eq
  cases change with
  | halfOpen breaker now => cases hclosed
  | claimProbe breaker => exact absurd hclosed hnot
  | success breaker now =>
    obtain rfl := hbase breaker rfl
    by_cases hcloses : breaker.closes settings = true
    · simp only [Breaker.closes, decide_eq_true_eq] at hcloses
      exact .inl ⟨hcloses.1, hcloses.2.1, breaker, now, rfl⟩
    · simp only [Change.update, successUpdate, hcloses, Bool.false_eq_true, if_false] at hclosed
      exact absurd hclosed hnot
  | release breaker => exact absurd hclosed hnot
  | rateLimit rateLimitedUntil now errorMetadata => exact absurd hclosed hnot
  | failure breaker errorMetadata now =>
    obtain rfl := hbase breaker rfl
    cases hstate : breaker.state with
    | closed => exact absurd hstate hnot
    | «open» => exact .inr rfl
    | halfOpen => simp [Change.update, failureUpdate, Breaker.shouldOpen, hstate] at hclosed

end Law

structure ChangesBy (settings : CircuitSettings) (entries : ℕ → Entry) (w : CircuitWorld)
    (call : ℕ × Answer) (change : Change) (stored next : Breaker) : Prop where
  performs : w.Next call.1 (.change change)
  available : call.2.unavailable = false
  changes : Changes settings change stored next
  base : ∀ breaker, change.base = some breaker → breaker = stored
  checks : change.Checks (w.states conduct (fun i => (entries i).start) call.1)

section Reached

variable (hI : CircuitInvariant entries w)
  (hmonitored : w.Monitored conduct (fun i => (entries i).start) fun _ _ _ => True)

include hI hmonitored

theorem turn_breaker {stored next : Breaker} (hstored : w.store.breaker = some stored)
    (hnext : (turn settings w call).store.breaker = some next) :
    next = stored ∨ ∃ change, ChangesBy settings entries w call change stored next := by
  obtain ⟨i, answer⟩ := call
  rcases World.turn_cases (perform settings) w (i, answer) with
    ⟨hidle, -⟩ | ⟨op, rest, hthread, hdone⟩
  · rw [turn, hidle, hstored] at hnext
    exact .inl (Option.some.inj hnext).symm
  · rw [turn, hdone] at hnext
    rcases (perform_breaker settings w.store op answer).2 with
      hsame | ⟨hnone, -⟩ | ⟨change, stored', next', rfl, havailable, hstored', hchange, hnext'⟩
    · rw [hsame, hstored] at hnext
      exact .inl (Option.some.inj hnext).symm
    · simp [hnone] at hstored
    · obtain rfl := Option.some.inj (hstored.symm.trans hstored')
      obtain rfl := Option.some.inj (hnext.symm.trans hnext')
      obtain ⟨hbase, hchecks⟩ := base_eq_stored hI hmonitored ⟨rest, hthread⟩ hstored hchange
      exact .inr ⟨change, ⟨rest, hthread⟩, havailable, hchange, hbase, hchecks⟩

theorem turn_failure {breaker stored : Breaker} {errorMetadata : ErrorMetadata} {now : Int}
    (hnext : w.Next call.1 (.change (.failure breaker errorMetadata now)))
    (havailable : call.2.unavailable = false) (hstored : w.store.breaker = some stored)
    (hversion : stored.version = breaker.version) : breaker = stored ∧
      (turn settings w call).store.breaker =
        some (failureUpdate settings stored errorMetadata now stored) := by
  obtain ⟨i, answer⟩ := call
  have hfilter : (Change.failure breaker errorMetadata now).filter settings stored = true := by
    simpa [Change.filter] using hversion
  obtain rfl := (base_eq_stored hI hmonitored hnext hstored ⟨hfilter, rfl⟩).1 breaker rfl
  obtain ⟨rest, hthread⟩ := hnext
  change answer.unavailable = false at havailable
  refine ⟨rfl, ?_⟩
  rw [turn, World.turn_perform hthread]
  simp only [perform, performAt, Answer.available, havailable, applyChange, hstored,
    Option.filter_some, hfilter, Bool.false_eq_true, if_false, if_true, Change.update]

theorem turn_leavesOpen (hnot : ¬ClosesByFailure settings w call) {stored next : Breaker}
    (hstored : w.store.breaker = some stored)
    (hnext : (turn settings w call).store.breaker = some next) (hopen : stored.state = .open)
    (hleft : next.state ≠ .open) :
    next.state = .halfOpen ∧ ∃ breaker now, w.Next call.1 (.change (.halfOpen breaker now)) ∧
      stored.openUntil.any (· ≤ now) ∧ (now ∈ (entries call.1).given ∨ now ≤ w.store.clock) := by
  rcases turn_breaker hI hmonitored hstored hnext with rfl | ⟨change, h⟩
  · exact absurd hopen hleft
  rcases h.changes.leavesOpen h.checks h.base hopen hleft with
    ⟨hhalfOpen, breaker, now, rfl, huntil, hnow⟩ | ⟨-, breaker, errorMetadata, now, rfl, hfew⟩
  · exact ⟨hhalfOpen, breaker, now, h.performs, huntil, hI.times call.1 now hnow⟩
  · have hversion := Change.version_of_filter h.changes.filter rfl
    exact absurd ⟨breaker, errorMetadata, now, stored, h.performs, h.available, hstored, hversion,
      hopen, hfew⟩ hnot

theorem turn_counters (hcounters : ∀ stored, w.store.breaker = some stored → stored.CountersNonneg)
    {next : Breaker} (hnext : (turn settings w call).store.breaker = some next) :
    next.CountersNonneg := by
  cases hstored : w.store.breaker with
  | some stored =>
    rcases turn_breaker hI hmonitored hstored hnext with rfl | ⟨change, h⟩
    · exact hcounters next hstored
    · exact h.changes.counters h.checks h.base (hcounters stored hstored)
  | none =>
    obtain ⟨i, answer⟩ := call
    rcases World.turn_cases (perform settings) w (i, answer) with ⟨hidle, -⟩ | ⟨op, rest, -, hdone⟩
    · rw [turn, hidle, hstored] at hnext
      cases hnext
    rw [turn, hdone] at hnext
    rcases (perform_breaker settings w.store op answer).2 with
      hsame | ⟨-, hinserted⟩ | ⟨-, stored, -, -, -, hsome, -⟩
    · rw [hsame, hstored] at hnext
      cases hnext
    · obtain rfl := Option.some.inj (hinserted.symm.trans hnext)
      exact ⟨le_rfl, le_rfl, le_rfl, by simp, le_rfl, le_rfl⟩
    · rw [hstored] at hsome
      cases hsome

theorem lawfulTurn_iff :
    LawfulTurn settings entries w call ↔ ¬ClosesByFailure settings w call := by
  constructor
  · rintro hlawful ⟨breaker, errorMetadata, now, stored, hperforms, havailable, hstored, hversion,
      hopen, hfew⟩
    obtain ⟨rfl, hturn⟩ := turn_failure hI hmonitored hperforms havailable hstored hversion
    have hclosed : (failureUpdate settings breaker errorMetadata now breaker).state = .closed := by
      simp [failureUpdate, Breaker.shouldOpen, hopen, not_le.mpr hfew]
    have hleft := (hlawful.leavesOpen breaker _ hstored hturn hopen (by rw [hclosed]; decide)).1
    rw [hclosed] at hleft
    cases hleft
  · intro hnot
    refine ⟨fun stored next => turn_leavesOpen hI hmonitored hnot, ?_,
      fun h next => turn_counters hI hmonitored h⟩
    intro stored next hstored hnext hnotClosed hclosed
    rcases turn_breaker hI hmonitored hstored hnext with rfl | ⟨change, h⟩
    · exact absurd hclosed hnotClosed
    rcases h.changes.closes h.base hnotClosed hclosed with ⟨hhalf, henough, b, now, rfl⟩ | hopen
    · exact ⟨hhalf, henough, b, now, h.performs⟩
    · have hleft := (turn_leavesOpen hI hmonitored hnot hstored hnext hopen
        (by rw [hclosed]; decide)).1
      rw [hclosed] at hleft
      cases hleft

end Reached

def LawfulRun (settings : CircuitSettings) (db : Database) (entries : ℕ → Entry)
    (calls : List (ℕ × Answer)) : Prop :=
  ∀ before call rest, calls = before ++ call :: rest →
    LawfulTurn settings entries (worldAfter settings db entries before) call

/-- A run is lawful if and only if none of its turns closes the open breaker by a failure. In every
run the counters are never negative. -/
theorem circuit_runs_lawful_iff (settings : CircuitSettings) (db : Database) (entries : ℕ → Entry)
    (calls : List (ℕ × Answer)) :
    (LawfulRun settings db entries calls ↔
      ∀ before call rest, calls = before ++ call :: rest →
        ¬ClosesByFailure settings (worldAfter settings db entries before) call) ∧
    ((∀ stored, db.breaker = some stored → stored.CountersNonneg) →
      ∀ stored, (worldAfter settings db entries calls).store.breaker = some stored →
        stored.CountersNonneg) := by
  have hreached (before : List (ℕ × Answer)) := circuit_reached settings db entries before
  constructor
  · constructor
    · intro h before call rest hcalls
      exact (lawfulTurn_iff (hreached before).1 (hreached before).2).mp (h before call rest hcalls)
    · intro h before call rest hcalls
      exact (lawfulTurn_iff (hreached before).1 (hreached before).2).mpr (h before call rest hcalls)
  · intro hcounters
    induction calls using List.reverseRecOn with
    | nil => exact hcounters
    | append_singleton calls call ih =>
      intro stored hstored
      rw [worldAfter_concat] at hstored
      exact turn_counters (hreached calls).1 (hreached calls).2 ih hstored

private def exampleFailures (_ : ℕ) : Entry :=
  .recordCircuitFailure { code := ascii "ETIMEDOUT" } {}

private def exampleCalls : List (ℕ × Answer) :=
  (List.range 5).flatMap (fun i => List.replicate 3 (i, ({} : Answer))) ++
    ([(5, { elapsed := 61000 }), (5, {})] : List (ℕ × Answer))

private def exampleLate : ℕ × Answer := (5, {})

private theorem exampleCalls_open :
    ((worldAfter .standard {} exampleFailures exampleCalls).store.breaker.map
      Breaker.state) = some .open := by
  decide +kernel

private theorem exampleLate_closed :
    ((turn .standard (worldAfter .standard {} exampleFailures exampleCalls)
      exampleLate).store.breaker.map Breaker.state) = some .closed := by
  decide +kernel

/-- The late failure closes the open breaker. -/
theorem late_failure_closes : ¬∀ (settings : CircuitSettings) (db : Database)
    (entries : ℕ → Entry) (calls : List (ℕ × Answer)), LawfulRun settings db entries calls := by
  intro h
  have hlawful := h .standard {} exampleFailures (exampleCalls ++ [exampleLate]) exampleCalls
    exampleLate [] rfl
  obtain ⟨stored, hstored, hopen⟩ := Option.map_eq_some_iff.mp exampleCalls_open
  obtain ⟨next, hnext, hclosed⟩ := Option.map_eq_some_iff.mp exampleLate_closed
  have hleft := (hlawful.leavesOpen stored next hstored hnext hopen (by rw [hclosed]; decide)).1
  rw [hclosed] at hleft
  cases hleft

end GhostBridge.RuntimeProtection
