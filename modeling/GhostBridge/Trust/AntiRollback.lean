import GhostBridge.Ecma.OrderedMap
import GhostBridge.Ecma.Value
import GhostBridge.Machine.Runs
import GhostBridge.Trust.PlainData
import GhostBridge.Trust.Host

/-!
# Anti-rollback store

The newest sequence of each kind of document of each issuer, with the digest that was seen at
that sequence.
-/

namespace GhostBridge.Trust

open Ecma Machine

structure ObservedSequence where
  sequence : Int
  digest : Text
deriving DecidableEq

/-- The arguments of `observe`. -/
structure Observation where
  documentKind : Text
  issuer : Text
  sequence : Value
  documentOrDigest : Value
  contiguous : Bool := false
  previousDigest : Value := .undefined

structure AntiRollbackStore where
  sequences : OrderedMap Text ObservedSequence

namespace Observation

/-- `typeof documentOrDigest === 'string' ? documentOrDigest : digest(documentOrDigest)`. -/
def documentDigest (observation : Observation) : Checked Text :=
  match observation.documentOrDigest with
  | .string s => pure s
  | document => digest document

def rollbackCode (observation : Observation) : TrustErrorCode :=
  if observation.documentKind = ascii "revocation" then .revocationRollback
  else .issuerMetadataRollback

end Observation

namespace AntiRollbackStore

def create : AntiRollbackStore := ⟨.empty⟩

def sequenceKey (documentKind issuer : Text) : Text := documentKind ++ 0x3a :: issuer

def stored (store : AntiRollbackStore) (documentKind issuer : Text) : Option ObservedSequence :=
  store.sequences.get? (sequenceKey documentKind issuer)

/-- What `observe` checks; none when the sequence is the stored one. -/
def check (store : AntiRollbackStore) (o : Observation) : Checked (Int × Option ObservedSequence) := do
  let sequence ← orThrow (trustError .proofInvalid "A sequence must be a positive integer.")
    o.sequence.safeInteger?
  throwWhen (sequence < 1) (trustError .proofInvalid "A sequence must be a positive integer.")
  let documentDigest ← o.documentDigest
  match store.stored o.documentKind o.issuer with
  | none => pure (sequence, some ⟨sequence, documentDigest⟩)
  | some previous =>
    throwWhen (sequence < previous.sequence)
      (trustError o.rollbackCode "A trust-document rollback was detected.")
    if sequence = previous.sequence then
      throwWhen (documentDigest != previous.digest)
        (trustError o.rollbackCode "Trust-document content changed at the same sequence.")
      pure (previous.sequence, none)
    else
      throwWhen (o.contiguous && sequence != previous.sequence + 1)
        (trustError o.rollbackCode "A contiguous trust-document sequence was skipped.")
      throwWhen (o.previousDigest.isTruthy && !o.previousDigest.strictEq (.string previous.digest))
        (trustError o.rollbackCode "The trust-document previous digest is invalid.")
      pure (sequence, some ⟨sequence, documentDigest⟩)

def observe (store : AntiRollbackStore) (o : Observation) : Checked Int × AntiRollbackStore :=
  match store.check o with
  | .error failure => (.error failure, store)
  | .ok (sequence, none) => (.ok sequence, store)
  | .ok (sequence, some observed) =>
    (.ok sequence, ⟨store.sequences.set (sequenceKey o.documentKind o.issuer) observed⟩)

def step (store : AntiRollbackStore) (o : Observation) : AntiRollbackStore := (store.observe o).2

theorem sequenceKey_inj {kind kind' issuer issuer' : Text} (hkind : 0x3a ∉ kind)
    (hkind' : 0x3a ∉ kind') :
    sequenceKey kind issuer = sequenceKey kind' issuer' ↔ kind = kind' ∧ issuer = issuer' :=
  Text.append_cons_inj hkind hkind'

variable {store : AntiRollbackStore} {o : Observation}

/-- The observation has this sequence and this digest. -/
def Shows (o : Observation) (sequence : Int) (digest : Text) : Prop :=
  o.sequence.safeInteger? = some sequence ∧ 1 ≤ sequence ∧ o.documentDigest = .ok digest

/-- What a call of `observe` does. -/
theorem observe_cases (store : AntiRollbackStore) (o : Observation) :
    (∃ failure, store.observe o = (.error failure, store)) ∨
    (∃ current, store.stored o.documentKind o.issuer = some current ∧
      Shows o current.sequence current.digest ∧
      store.observe o = (.ok current.sequence, store)) ∨
    (∃ sequence digest, Shows o sequence digest ∧
      (∀ current, store.stored o.documentKind o.issuer = some current →
        current.sequence < sequence ∧ (o.contiguous = true → sequence = current.sequence + 1)) ∧
      store.observe o = (.ok sequence,
        ⟨store.sequences.set (sequenceKey o.documentKind o.issuer) ⟨sequence, digest⟩⟩)) := by
  unfold observe
  cases hcheck : store.check o with
  | error failure => exact .inl ⟨failure, rfl⟩
  | ok outcome =>
    simp only [check, bind_ok, orThrow_ok, throwWhen_ok, exists_unit, decide_eq_false_iff_not,
      Int.not_lt] at hcheck
    obtain ⟨sequence, hsafe, hpositive, digest, hdigest, h⟩ := hcheck
    split at h
    · next hnone =>
      obtain rfl := pure_ok.mp h
      exact .inr (.inr ⟨sequence, digest, ⟨hsafe, hpositive, hdigest⟩, by simp [hnone], rfl⟩)
    · next current hcurrent =>
      simp only [bind_ok, throwWhen_ok, exists_unit, decide_eq_false_iff_not, Int.not_lt] at h
      obtain ⟨hle, h⟩ := h
      split at h
      · next hsame =>
        simp only [bind_ok, throwWhen_ok, exists_unit, pure_ok, bne_eq_false_iff_eq] at h
        obtain ⟨rfl, rfl⟩ := h
        subst hsame
        exact .inr (.inl ⟨current, hcurrent, ⟨hsafe, hpositive, hdigest⟩, rfl⟩)
      · next hne =>
        simp only [bind_ok, throwWhen_ok, exists_unit, pure_ok, Bool.and_eq_false_imp,
          bne_eq_false_iff_eq] at h
        obtain ⟨hnext, _, rfl⟩ := h
        refine .inr (.inr ⟨sequence, digest, ⟨hsafe, hpositive, hdigest⟩, fun other hother => ?_, rfl⟩)
        obtain rfl : current = other := Option.some.inj (hcurrent.symm.trans hother)
        exact ⟨by omega, hnext⟩

theorem observe_accepts {sequence : Int} {digest : Text} (hshows : Shows o sequence digest)
    (hplace : ∀ current, store.stored o.documentKind o.issuer = some current →
      current = ⟨sequence, digest⟩ ∨
        current.sequence < sequence ∧ (o.contiguous = true → sequence = current.sequence + 1) ∧
          (o.previousDigest.isTruthy = true →
            o.previousDigest.strictEq (.string current.digest) = true)) :
    (store.observe o).1 = .ok sequence := by
  obtain ⟨hsafe, hpositive, hdigest⟩ := hshows
  have hnotSmall : decide (sequence < 1) = false := decide_eq_false (by omega)
  cases hstored : store.stored o.documentKind o.issuer with
  | none =>
    simp only [observe, check, hsafe, hdigest, hstored, orThrow, ok_bind, throwWhen, hnotSmall]
    rfl
  | some current =>
    obtain rfl | ⟨hlt, hnext, hprevious⟩ := hplace current hstored
    · have hnotOlder : decide (sequence < sequence) = false := decide_eq_false (Int.lt_irrefl _)
      have hsame : (digest != digest) = false := bne_self_eq_false digest
      simp only [observe, check, hsafe, hdigest, hstored, orThrow, ok_bind, throwWhen, hnotSmall,
        hnotOlder, if_true, hsame]
      rfl
    · have hnotOlder : decide (sequence < current.sequence) = false := decide_eq_false (by omega)
      have hskipped : (o.contiguous && sequence != current.sequence + 1) = false := by
        simpa using hnext
      have hnamed : (o.previousDigest.isTruthy &&
          !o.previousDigest.strictEq (.string current.digest)) = false := by
        simpa using hprevious
      simp only [observe, check, hsafe, hdigest, hstored, orThrow, ok_bind, throwWhen, hnotSmall,
        hnotOlder, if_neg hlt.ne', hskipped, hnamed]
      rfl

theorem previousDigest_of_observed {current : ObservedSequence} {sequence : Int}
    (hcurrent : store.stored o.documentKind o.issuer = some current)
    (hobserved : (store.observe o).1 = .ok sequence) (hlt : current.sequence < sequence)
    (htruthy : o.previousDigest.isTruthy = true) :
    o.previousDigest.strictEq (.string current.digest) = true := by
  obtain ⟨observed, hcheck⟩ : ∃ observed, store.check o = .ok (sequence, observed) := by
    rw [observe] at hobserved
    split at hobserved
    · cases hobserved
    · next found hcheck =>
      obtain rfl := Except.ok.inj hobserved
      exact ⟨none, hcheck⟩
    · next found observed hcheck =>
      obtain rfl := Except.ok.inj hobserved
      exact ⟨some observed, hcheck⟩
  simp only [check, hcurrent, bind_ok, exists_unit] at hcheck
  obtain ⟨found, _, _, _, _, _, hcheck⟩ := hcheck
  split at hcheck
  · simp only [bind_ok, exists_unit, pure_ok, Prod.mk.injEq] at hcheck
    obtain ⟨_, rfl, _⟩ := hcheck
    omega
  · simp only [bind_ok, throwWhen_ok, exists_unit, htruthy, Bool.true_and,
      Bool.not_eq_false'] at hcheck
    exact hcheck.2.1

theorem observe_rejected {failure : Failure} (h : (store.observe o).1 = .error failure) :
    (store.observe o).2 = store := by
  obtain ⟨_, hobserve⟩ | ⟨_, _, _, hobserve⟩ | ⟨_, _, _, _, hobserve⟩ := observe_cases store o
  · rw [hobserve]
  · rw [hobserve]
  · rw [hobserve] at h
    cases h

theorem stored_of_accepted (h : (store.observe o).1.isOk = true) :
    ∃ observed, (store.observe o).2.stored o.documentKind o.issuer = some observed ∧
      Shows o observed.sequence observed.digest := by
  obtain ⟨_, hobserve⟩ | ⟨current, hcurrent, hshows, hobserve⟩ | ⟨sequence, digest, hshows, _, hobserve⟩ :=
    observe_cases store o
  · rw [hobserve] at h
    cases h
  · exact ⟨current, by rw [hobserve, hcurrent], hshows⟩
  · exact ⟨⟨sequence, digest⟩, by rw [hobserve]; exact OrderedMap.get?_set_self _ _ _, hshows⟩

theorem Shows.unique {m n : Int} {d e : Text} (h : Shows o m d) (h' : Shows o n e) :
    m = n ∧ d = e :=
  ⟨Option.some.inj (h.1.symm.trans h'.1), Except.ok.inj (h.2.2.symm.trans h'.2.2)⟩

theorem stored_of_shows {sequence : Int} {digest : Text} (h : (store.observe o).1.isOk = true)
    (hshows : Shows o sequence digest) :
    (store.observe o).2.stored o.documentKind o.issuer = some ⟨sequence, digest⟩ := by
  obtain ⟨observed, hstored, hobserved⟩ := stored_of_accepted h
  obtain ⟨rfl, rfl⟩ := hobserved.unique hshows
  exact hstored

section Runs

variable {documentKind issuer : Text}

def About (o : Observation) (documentKind issuer : Text) : Prop :=
  o.documentKind = documentKind ∧ o.issuer = issuer

/-- The step lemma: what is stored for a pair changes by an accepted newer observation of that
pair only. -/
theorem stored_step (store : AntiRollbackStore) (issuer : Text) (hkind : 0x3a ∉ documentKind) (ho : 0x3a ∉ o.documentKind) :
    (store.step o).stored documentKind issuer = store.stored documentKind issuer ∨
    ∃ sequence digest, About o documentKind issuer ∧ Shows o sequence digest ∧
      (store.observe o).1 = .ok sequence ∧
      (store.step o).stored documentKind issuer = some ⟨sequence, digest⟩ ∧
      ∀ current, store.stored documentKind issuer = some current →
        current.sequence < sequence ∧ (o.contiguous = true → sequence = current.sequence + 1) := by
  rw [step]
  obtain ⟨_, hobserve⟩ | ⟨_, _, _, hobserve⟩ | ⟨sequence, digest, hshows, hnext, hobserve⟩ :=
    observe_cases store o
  · exact .inl (by rw [hobserve])
  · exact .inl (by rw [hobserve])
  · rw [hobserve]
    by_cases habout : About o documentKind issuer
    · obtain ⟨rfl, rfl⟩ := habout
      exact .inr ⟨sequence, digest, ⟨rfl, rfl⟩, hshows, rfl, OrderedMap.get?_set_self _ _ _, hnext⟩
    · refine .inl (OrderedMap.get?_set_of_ne _ (fun hkey => habout ?_) _)
      obtain ⟨hkind, hissuer⟩ := (sequenceKey_inj hkind ho).mp hkey
      exact ⟨hkind.symm, hissuer.symm⟩

/-- The store has a sequence from `sequence` on, with this digest if it is that very one. -/
def Remembers (documentKind issuer : Text) (sequence : Int) (digest : Text)
    (store : AntiRollbackStore) : Prop :=
  ∃ later, store.stored documentKind issuer = some later ∧ sequence ≤ later.sequence ∧
    (sequence = later.sequence → digest = later.digest)

theorem remembers_after (store : AntiRollbackStore) {sequence : Int} {digest : Text} {calls : List Observation}
    (hkind : 0x3a ∉ documentKind) (hcalls : ∀ o ∈ calls, 0x3a ∉ o.documentKind)
    (h : Remembers documentKind issuer sequence digest store) :
    Remembers documentKind issuer sequence digest (after step store calls) := by
  refine after_induction h fun s o ⟨later, hlater, hle, hsame⟩ ho => ?_
  obtain hstored | ⟨n, d, _, _, _, hstored, hnext⟩ :=
    stored_step s issuer hkind (hcalls o ho)
  · exact ⟨later, by rw [hstored, hlater], hle, hsame⟩
  · have hlt := (hnext later hlater).1
    exact ⟨⟨n, d⟩, hstored, by change sequence ≤ n; omega,
      fun heq => by change sequence = n at heq; omega⟩

theorem accepted_ordered {a b : Observation} {calls : List Observation} {m n : Int} {d e : Text}
    (hkind : 0x3a ∉ documentKind) (hcalls : ∀ o ∈ calls, 0x3a ∉ o.documentKind)
    (ha : About a documentKind issuer) (hb : About b documentKind issuer)
    (hafirst : (store.observe a).1.isOk = true)
    (hblast : ((after step (store.step a) calls).observe b).1.isOk = true)
    (hm : Shows a m d) (hn : Shows b n e) : m ≤ n ∧ (m = n → d = e) := by
  obtain ⟨rfl, rfl⟩ := ha
  obtain ⟨first, hfirst, hshows⟩ := stored_of_accepted hafirst
  obtain rfl : first.sequence = m := Option.some.inj (hshows.1.symm.trans hm.1)
  obtain rfl : first.digest = d := Except.ok.inj (hshows.2.2.symm.trans hm.2.2)
  have hremembers : Remembers a.documentKind a.issuer first.sequence first.digest
      ((after step (store.step a) calls).step b) := by
    have hb' : 0x3a ∉ b.documentKind := hb.1 ▸ hkind
    have hcalls' : ∀ o ∈ calls ++ [b], 0x3a ∉ o.documentKind := by
      simpa [or_imp, forall_and] using ⟨hcalls, hb'⟩
    have hafter := remembers_after (store.step a) hkind hcalls'
      ⟨first, hfirst, le_rfl, fun _ => rfl⟩
    rwa [after_concat] at hafter
  obtain ⟨last, hlast, hshows'⟩ := stored_of_accepted hblast
  rw [hb.1, hb.2] at hlast
  obtain ⟨later, hlater, hle, hsame⟩ := hremembers
  obtain rfl : last = later := Option.some.inj (hlast.symm.trans hlater)
  obtain rfl : last.sequence = n := Option.some.inj (hshows'.1.symm.trans hn.1)
  obtain rfl : last.digest = e := Except.ok.inj (hshows'.2.2.symm.trans hn.2.2)
  exact ⟨hle, hsame⟩

theorem contiguous_observed {first last : ObservedSequence} {calls : List Observation}
    (hkind : 0x3a ∉ documentKind) (hcalls : ∀ o ∈ calls, 0x3a ∉ o.documentKind)
    (hcontiguous : ∀ o ∈ calls, About o documentKind issuer → o.contiguous = true)
    (hfirst : store.stored documentKind issuer = some first)
    (hlast : (after step store calls).stored documentKind issuer = some last) {n : Int}
    (hn : first.sequence < n ∧ n ≤ last.sequence) :
    ∃ before o rest, calls = before ++ o :: rest ∧ About o documentKind issuer ∧
      ((after step store before).observe o).1 = .ok n := by
  induction calls generalizing store first with
  | nil =>
    obtain rfl : first = last := Option.some.inj (hfirst.symm.trans hlast)
    omega
  | cons o calls ih =>
    rw [List.forall_mem_cons] at hcalls hcontiguous
    have hrest {next : ObservedSequence} (hnext : (store.step o).stored documentKind issuer = some next)
        (hlt : next.sequence < n) : ∃ before p rest, o :: calls = before ++ p :: rest ∧
          About p documentKind issuer ∧ ((after step store before).observe p).1 = .ok n := by
      obtain ⟨before, p, rest, rfl, hp, haccepted⟩ :=
        ih hcalls.2 hcontiguous.2 hnext hlast ⟨hlt, hn.2⟩
      exact ⟨o :: before, p, rest, rfl, hp, haccepted⟩
    obtain hstored | ⟨m, d, habout, _, haccepted, hstored, hnext⟩ :=
      stored_step store issuer hkind hcalls.1
    · exact hrest (hstored.trans hfirst) hn.1
    · have hm := (hnext first hfirst).2 (hcontiguous.1 habout)
      by_cases hlt : m < n
      · exact hrest hstored hlt
      · obtain rfl : m = n := by omega
        exact ⟨[], o, calls, rfl, habout, haccepted⟩

end Runs

end AntiRollbackStore

/-- For every kind of document and issuer: a rejected observation changes nothing; what is stored
never goes back and keeps its digest while it is current; accepted observations come in order and
show one digest at one sequence; and a contiguous observation moves on by one at most, so that
contiguous runs observe every sequence on their way. -/
theorem anti_rollback (documentKind issuer : Text) (hkind : 0x3a ∉ documentKind)
    (store : AntiRollbackStore) (calls : List Observation)
    (hcalls : ∀ o ∈ calls, 0x3a ∉ o.documentKind) :
    (∀ o failure, (store.observe o).1 = .error failure → (store.observe o).2 = store) ∧
    (∀ earlier, store.stored documentKind issuer = some earlier →
      ∃ later, (after AntiRollbackStore.step store calls).stored documentKind issuer = some later ∧
        earlier.sequence ≤ later.sequence ∧
        (earlier.sequence = later.sequence → earlier.digest = later.digest)) ∧
    (∀ a b m n d e, AntiRollbackStore.About a documentKind issuer →
      AntiRollbackStore.About b documentKind issuer →
      (store.observe a).1.isOk = true →
      ((after AntiRollbackStore.step (store.step a) calls).observe b).1.isOk = true →
      AntiRollbackStore.Shows a m d → AntiRollbackStore.Shows b n e →
      m ≤ n ∧ (m = n → d = e)) ∧
    (∀ o current n, AntiRollbackStore.About o documentKind issuer → o.contiguous = true →
      store.stored documentKind issuer = some current → (store.observe o).1 = .ok n →
      n = current.sequence ∨ n = current.sequence + 1) ∧
    (∀ first last n,
      (∀ o ∈ calls, AntiRollbackStore.About o documentKind issuer → o.contiguous = true) →
      store.stored documentKind issuer = some first →
      (after AntiRollbackStore.step store calls).stored documentKind issuer = some last →
      first.sequence < n → n ≤ last.sequence →
      ∃ before o rest, calls = before ++ o :: rest ∧
        AntiRollbackStore.About o documentKind issuer ∧
        ((after AntiRollbackStore.step store before).observe o).1 = .ok n) := by
  refine ⟨fun o failure => AntiRollbackStore.observe_rejected, fun earlier hearlier => ?_,
    fun a b m n d e ha hb => AntiRollbackStore.accepted_ordered hkind hcalls ha hb,
    fun o current n ho hcontiguous hcurrent haccepted => ?_,
    fun first last n hcontiguous hfirst hlast hlt hle =>
      AntiRollbackStore.contiguous_observed hkind hcalls hcontiguous hfirst hlast ⟨hlt, hle⟩⟩
  · exact AntiRollbackStore.remembers_after store hkind hcalls ⟨earlier, hearlier, le_rfl, fun _ => rfl⟩
  · obtain ⟨rfl, rfl⟩ := ho
    obtain ⟨_, hobserve⟩ | ⟨found, hfound, _, hobserve⟩ | ⟨m, _, _, hnext, hobserve⟩ :=
      AntiRollbackStore.observe_cases store o
    · rw [hobserve] at haccepted
      cases haccepted
    · obtain rfl : found = current := Option.some.inj (hfound.symm.trans hcurrent)
      rw [hobserve] at haccepted
      exact .inl (Except.ok.inj haccepted).symm
    · rw [hobserve] at haccepted
      obtain rfl : m = n := Except.ok.inj haccepted
      exact .inr ((hnext current hcurrent).2 hcontiguous)

/-- Three contiguous observations from an empty store. -/
theorem anti_rollback_contiguous :
    let observed (sequence : Nat) : Observation :=
      ⟨ascii "revocation", ascii "https://issuer.example", .number (.ofNat sequence),
        .string (ascii "digest"), true, .undefined⟩
    ∃ before o rest, [observed 2, observed 3] = before ++ o :: rest ∧
      AntiRollbackStore.About o (ascii "revocation") (ascii "https://issuer.example") ∧
      ((after AntiRollbackStore.step (AntiRollbackStore.create.step (observed 1)) before).observe
        o).1 = .ok 2 := by
  intro observed
  refine (anti_rollback (ascii "revocation") (ascii "https://issuer.example") (by decide)
    (AntiRollbackStore.create.step (observed 1)) [observed 2, observed 3] ?_).2.2.2.2
    ⟨1, ascii "digest"⟩ ⟨3, ascii "digest"⟩ 2 ?_ (by decide +kernel) (by decide +kernel)
    (by decide) (by decide)
  · simp only [List.forall_mem_cons]
    exact ⟨by decide, by decide, List.forall_mem_nil _⟩
  · simp only [List.forall_mem_cons]
    exact ⟨fun _ => rfl, fun _ => rfl, List.forall_mem_nil _⟩

end GhostBridge.Trust
