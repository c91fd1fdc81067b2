import GhostBridge.Ecma.OrderedMap
import GhostBridge.Ecma.Value
import GhostBridge.Machine.Runs
import GhostBridge.Trust.Proof

/-!
# Revocation sets

A set is validated, then cached for its issuer.
-/

namespace GhostBridge.Trust

open Ecma Machine

def revocationSetFields : List Text :=
  [ascii "protocolVersion", ascii "trustProfileVersion", ascii "revocationSetId", ascii "issuer",
    ascii "sequence", ascii "generatedAt", ascii "nextUpdate", ascii "status",
    ascii "previousSetDigest", ascii "entries", ascii "proof"]

def revocationEntryFields : List Text :=
  [ascii "subjectType", ascii "subjectReference", ascii "status", ascii "reasonCode",
    ascii "effectiveAt"]

structure RevocationSet where
  document : Value
  sequence : Int
  safe : (document.field (ascii "sequence")).safeInteger? = some sequence

instance : DecidableEq RevocationSet := fun a b =>
  decidable_of_iff (a.document = b.document) (by
    refine ⟨fun h => ?_, fun h => h ▸ rfl⟩
    have hsequence : some a.sequence = some b.sequence := by rw [← a.safe, ← b.safe, h]
    cases a; cases b; simp_all)

inductive RevocationFreshness where
  | fresh
  | nearingExpiry
  | stale
  | invalid
deriving DecidableEq

structure RevocationOptions extends VerifyOptions where
  maximumEntries : Option Nat := none
  minimumSequence : Option Int := none
  previousSet : Option RevocationSet := none
  allowSignedCheckpoint : Bool := false

/-- The result of a validation, without its constant member. -/
structure RevocationVerification where
  sequence : Int
  freshness : RevocationFreshness
  digest : Text
deriving DecidableEq

def documentDigest (document : Value) : Checked Text := do
  let payload ← withoutProof document
  digest payload

def rollback (message : String) : Failure := trustError .revocationRollback message

def revocationFreshness (host : Host) (document : Value) (clock : Option Int) :
    Checked RevocationFreshness := do
  let generatedAt ← parseDate host (document.field (ascii "generatedAt"))
  let nextUpdate ← parseDate host (document.field (ascii "nextUpdate"))
  match generatedAt, nextUpdate with
  | some generatedAt, some nextUpdate =>
    let now := clockValue host clock
    if nextUpdate ≤ generatedAt then pure .invalid
    else if nextUpdate < now then pure .stale
    else if 5 * (nextUpdate - now) ≤ nextUpdate - generatedAt ∧ nextUpdate - now ≤ 60000 then
      pure .nearingExpiry
    else pure .fresh
  | _, _ => pure .invalid

def checkSequence (document : Value) (sequence : Int) (options : RevocationOptions) :
    Checked Unit := do
  throwWhen (sequence < 1)
    (trustError .revocationSetInvalid "The revocation-set sequence is invalid.")
  throwWhen (options.minimumSequence.any (sequence < ·))
    (rollback "A revocation-set rollback was detected.")
  match options.previousSet with
  | some previous =>
    throwWhen (!(document.field (ascii "issuer")).strictEq (previous.document.field (ascii "issuer")))
      (rollback "The revocation-set issuer chain is invalid.")
    throwWhen (sequence != previous.sequence + 1)
      (rollback "The revocation-set sequence must be contiguous.")
    let previousDigest ← documentDigest previous.document
    throwWhen (!(document.field (ascii "previousSetDigest")).strictEq (.string previousDigest))
      (rollback "The revocation-set digest chain is invalid.")
  | none =>
    throwWhen (1 < sequence && !options.allowSignedCheckpoint)
      (rollback "A non-initial revocation set requires its verified predecessor.")

def checkSubjects : List Value → List Text → Checked Unit
  | [], _ => pure ()
  | entry :: entries, seen => do
    requireFields entry revocationEntryFields .revocationSetInvalid
    let subjectType ← orThrow .runtimeError (entry.field (ascii "subjectType")).toText?
    let subjectReference ← orThrow .runtimeError (entry.field (ascii "subjectReference")).toText?
    let key := subjectType ++ ascii ":" ++ subjectReference
    throwWhen (seen.contains key)
      (trustError .revocationSetInvalid "The revocation set contains duplicate subjects.")
    checkSubjects entries (key :: seen)

def validateRevocationSet (host : Host) (document jwks : Value) (options : RevocationOptions) :
    Checked RevocationVerification := do
  let maximumEntries := limitOr options.maximumEntries DefaultTrustLimits.maximumRevocationEntries
  let _ ← validatePlainTrustData document
    { maximumBytes :=
        some (limitOr options.maximumBytes DefaultTrustLimits.maximumCanonicalBytes)
      maximumArrayLength := some maximumEntries } true
  requireFields document revocationSetFields .revocationSetInvalid
  let sequence ← orThrow
    (trustError .revocationSetInvalid "The revocation-set sequence is invalid.")
    (document.field (ascii "sequence")).safeInteger?
  checkSequence document sequence options
  let entries ← orThrow
    (trustError .revocationSetInvalid "The revocation-set entry list is invalid.")
    (match document.field (ascii "entries") with
      | .array entries => some entries
      | _ => none)
  throwWhen (maximumEntries < entries.length)
    (trustError .revocationSetInvalid "The revocation-set entry list is invalid.")
  checkSubjects entries []
  let _ ← verifyDocument host document jwks
    { options.toVerifyOptions with
      purpose := .string (ascii "revocation_signing")
      expectedIssuer := options.expectedIssuer.orElse (document.field (ascii "issuer")) }
  let freshness ← revocationFreshness host document options.clock
  let digest ← documentDigest document
  pure ⟨sequence, freshness, digest⟩

theorem validateRevocationSet_ok {host : Host} {document jwks : Value}
    {options : RevocationOptions} {verification : RevocationVerification}
    (h : validateRevocationSet host document jwks options = .ok verification) :
    (document.field (ascii "sequence")).safeInteger? = some verification.sequence ∧
      1 ≤ verification.sequence ∧ documentDigest document = .ok verification.digest := by
  simp only [validateRevocationSet, bind_ok, orThrow_ok, throwWhen_ok, exists_unit, pure_ok] at h
  obtain ⟨_, _, _, sequence, hsafe, hsequence, _, _, _, _, _, _, _, _, digest, hdigest, rfl⟩ := h
  simp only [checkSequence, bind_ok, throwWhen_ok, exists_unit, decide_eq_false_iff_not,
    Int.not_lt] at hsequence
  exact ⟨hsafe, hsequence.1, hdigest⟩

theorem checkSequence_ok {document : Value} {sequence : Int} {options : RevocationOptions} :
    checkSequence document sequence options = .ok () ↔
      1 ≤ sequence ∧ (∀ minimum, options.minimumSequence = some minimum → minimum ≤ sequence) ∧
        (∀ previous, options.previousSet = some previous →
          (document.field (ascii "issuer")).strictEq (previous.document.field (ascii "issuer")) =
              true ∧
            sequence = previous.sequence + 1 ∧
            ∃ previousDigest, documentDigest previous.document = .ok previousDigest ∧
              (document.field (ascii "previousSetDigest")).strictEq (.string previousDigest) =
                true) ∧
        (options.previousSet = none → 1 < sequence → options.allowSignedCheckpoint = true) := by
  have hminimum : options.minimumSequence.any (sequence < ·) = false ↔
      ∀ minimum, options.minimumSequence = some minimum → minimum ≤ sequence := by
    cases options.minimumSequence <;> simp
  simp only [checkSequence, bind_ok, throwWhen_ok, exists_unit, hminimum, decide_eq_false_iff_not,
    Int.not_lt]
  cases options.previousSet with
  | none => simp
  | some previous => simp

def RevocationOptions.proofOptions (options : RevocationOptions) (document : Value) :
    VerifyOptions :=
  { options.toVerifyOptions with
    purpose := .string (ascii "revocation_signing")
    expectedIssuer := options.expectedIssuer.orElse (document.field (ascii "issuer")) }

structure ValidatedSet (host : Host) (document jwks : Value) (options : RevocationOptions)
    (verification : RevocationVerification) : Prop where
  plain : validatePlainTrustData document
    { maximumBytes := some (limitOr options.maximumBytes DefaultTrustLimits.maximumCanonicalBytes)
      maximumArrayLength := some
        (limitOr options.maximumEntries DefaultTrustLimits.maximumRevocationEntries) } true =
      .ok document
  fields : requireFields document revocationSetFields .revocationSetInvalid = .ok ()
  safe : (document.field (ascii "sequence")).safeInteger? = some verification.sequence
  position : checkSequence document verification.sequence options = .ok ()
  subjects : ∃ entries, document.field (ascii "entries") = .array entries ∧
    entries.length ≤
      limitOr options.maximumEntries DefaultTrustLimits.maximumRevocationEntries ∧
    checkSubjects entries [] = .ok ()
  proof : ∃ result, verifyDocument host document jwks (options.proofOptions document) = .ok result
  freshness : revocationFreshness host document options.clock = .ok verification.freshness
  digest : documentDigest document = .ok verification.digest

theorem validateRevocationSet_iff {host : Host} {document jwks : Value}
    {options : RevocationOptions} {verification : RevocationVerification} :
    validateRevocationSet host document jwks options = .ok verification ↔
      ValidatedSet host document jwks options verification := by
  constructor
  · intro h
    simp only [validateRevocationSet, bind_ok, orThrow_ok, throwWhen_ok, exists_unit, pure_ok,
      decide_eq_false_iff_not, not_lt] at h
    obtain ⟨_, hplain, hfields, sequence, hsafe, hposition, entries, hentries, hlength, hsubjects,
      result, hproof, freshness, hfreshness, digest, hdigest, rfl⟩ := h
    have harray : document.field (ascii "entries") = .array entries := by
      split at hentries
      · next found hfound => rw [hfound, Option.some.inj hentries]
      · cases hentries
    have hsame := (validatePlainTrustData_ok hplain).2
    exact ⟨hsame ▸ hplain, hfields, hsafe, hposition, ⟨entries, harray, hlength, hsubjects⟩,
      ⟨result, hproof⟩, hfreshness, hdigest⟩
  · intro h
    obtain ⟨entries, hentries, hlength, hsubjects⟩ := h.subjects
    obtain ⟨result, hproof⟩ := h.proof
    refine bind_ok.mpr ⟨document, h.plain, bind_ok.mpr ⟨(), h.fields, ?_⟩⟩
    refine bind_ok.mpr ⟨_, orThrow_ok.mpr h.safe, bind_ok.mpr ⟨(), h.position, ?_⟩⟩
    refine bind_ok.mpr ⟨entries, orThrow_ok.mpr (by rw [hentries]), ?_⟩
    refine bind_ok.mpr ⟨(), throwWhen_ok.mpr (decide_eq_false (not_lt.mpr hlength)), ?_⟩
    refine bind_ok.mpr ⟨(), hsubjects, bind_ok.mpr ⟨result, hproof, ?_⟩⟩
    exact bind_ok.mpr ⟨_, h.freshness, bind_ok.mpr ⟨_, h.digest, rfl⟩⟩

def RevocationSet.ofValidated {host : Host} {document jwks : Value} {options : RevocationOptions}
    {verification : RevocationVerification}
    (h : validateRevocationSet host document jwks options = .ok verification) : RevocationSet :=
  ⟨document, verification.sequence, (validateRevocationSet_ok h).1⟩

structure RevocationRecord where
  set : RevocationSet
  verification : RevocationVerification
  digest : Text
deriving DecidableEq

/-- One record for each issuer, and no more than the maximum. -/
structure RevocationCache where
  maximumEntries : Nat
  positive : 1 ≤ maximumEntries
  records : OrderedMap Text RevocationRecord
  bounded : records.size ≤ maximumEntries

namespace RevocationCache

instance : DecidableEq RevocationCache := fun a b =>
  decidable_of_iff (a.maximumEntries = b.maximumEntries ∧ a.records = b.records) (by
    cases a; cases b; simp)

/-- `new RevocationCache({ maximumEntries })`. -/
def create (maximumEntries : Option Int) : RevocationCache where
  maximumEntries := (boundedInteger maximumEntries 1 1000 100).toNat
  positive := by
    cases maximumEntries <;> simp only [boundedInteger] <;> omega
  records := .empty
  bounded := Nat.zero_le _

def get (cache : RevocationCache) (issuer : Text) : Option RevocationRecord :=
  cache.records.get? issuer

def check (cache : RevocationCache) (issuer : Text) (set : RevocationSet) :
    Checked (Text × Bool) := do
  let digest ← documentDigest set.document
  match cache.get issuer with
  | none => pure (digest, false)
  | some current =>
    if set.sequence = current.set.sequence then
      throwWhen (digest != current.digest)
        (rollback "Revocation content changed at the same sequence.")
      pure (digest, true)
    else
      throwWhen (set.sequence != current.set.sequence + 1)
        (rollback "A non-contiguous revocation-set sequence was rejected.")
      throwWhen (!(set.document.field (ascii "previousSetDigest")).strictEq (.string current.digest))
        (rollback "The revocation-set previous digest is invalid.")
      pure (digest, false)

/-- `this.records.set(issuer, record); this.trim()`. -/
def store (cache : RevocationCache) (issuer : Text) (record : RevocationRecord) :
    RevocationCache :=
  { cache with
    records := (cache.records.set issuer record).trim cache.maximumEntries
    bounded := OrderedMap.size_trim_le _ _ }

def put (cache : RevocationCache) (issuer : Text) (set : RevocationSet)
    (verification : RevocationVerification) :
    Checked (Option RevocationRecord) × RevocationCache :=
  match cache.check issuer set with
  | .error failure => (.error failure, cache)
  | .ok (_, true) => (.ok (cache.get issuer), cache)
  | .ok (digest, false) =>
    let stored := cache.store issuer ⟨set, verification, digest⟩
    (.ok (stored.get issuer), stored)

def invalidate (cache : RevocationCache) (issuer : Text) : RevocationCache :=
  { cache with
    records := cache.records.delete issuer
    bounded := (OrderedMap.size_filter_le _ _).trans cache.bounded }

inductive Call where
  | put (issuer : Text) (set : RevocationSet) (verification : RevocationVerification)
  | invalidate (issuer : Text)

def Call.issuer : Call → Text
  | .put issuer _ _ => issuer
  | .invalidate issuer => issuer

def step (cache : RevocationCache) : Call → RevocationCache
  | .put issuer set verification => (cache.put issuer set verification).2
  | .invalidate issuer => cache.invalidate issuer

def Holds (cache : RevocationCache) (issuer : Text) : Prop := (cache.get issuer).isSome = true

variable {cache : RevocationCache} {issuer other : Text} {set : RevocationSet}
  {verification : RevocationVerification}

theorem check_ok {digest : Text} {same : Bool} (h : cache.check issuer set = .ok (digest, same)) :
    documentDigest set.document = .ok digest ∧
      (same = false ∧ cache.get issuer = none ∨
        ∃ current, cache.get issuer = some current ∧
          (same = true ∧ set.sequence = current.set.sequence ∧ digest = current.digest ∨
            same = false ∧ set.sequence = current.set.sequence + 1)) := by
  simp only [check, bind_ok] at h
  obtain ⟨documentDigest, hdigest, h⟩ := h
  split at h
  · next hnone =>
    simp only [pure_ok, Prod.mk.injEq] at h
    obtain ⟨rfl, rfl⟩ := h
    exact ⟨hdigest, .inl ⟨rfl, hnone⟩⟩
  · next current hcurrent =>
    split at h
    · next hsequence =>
      simp only [bind_ok, throwWhen_ok, exists_unit, pure_ok, Prod.mk.injEq,
        bne_eq_false_iff_eq] at h
      obtain ⟨hsame, rfl, rfl⟩ := h
      exact ⟨hdigest, .inr ⟨current, hcurrent, .inl ⟨rfl, hsequence, hsame⟩⟩⟩
    · simp only [bind_ok, throwWhen_ok, exists_unit, pure_ok, Prod.mk.injEq,
        bne_eq_false_iff_eq] at h
      obtain ⟨hnext, _, rfl, rfl⟩ := h
      exact ⟨hdigest, .inr ⟨current, hcurrent, .inr ⟨rfl, hnext⟩⟩⟩

/-- What a call of `put` does. -/
theorem put_cases (cache : RevocationCache) (issuer : Text) (set : RevocationSet)
    (verification : RevocationVerification) :
    (∃ failure, cache.put issuer set verification = (.error failure, cache)) ∨
    (∃ digest current, documentDigest set.document = .ok digest ∧
      cache.get issuer = some current ∧ set.sequence = current.set.sequence ∧
      digest = current.digest ∧ cache.put issuer set verification = (.ok (some current), cache)) ∨
    (∃ digest, documentDigest set.document = .ok digest ∧
      (∀ current, cache.get issuer = some current → set.sequence = current.set.sequence + 1) ∧
      cache.put issuer set verification =
        (.ok ((cache.store issuer ⟨set, verification, digest⟩).get issuer),
          cache.store issuer ⟨set, verification, digest⟩)) := by
  unfold put
  cases hcheck : cache.check issuer set with
  | error failure => exact .inl ⟨failure, rfl⟩
  | ok outcome =>
    obtain ⟨digest, same⟩ := outcome
    obtain ⟨hdigest, ⟨rfl, hnone⟩ | ⟨current, hcurrent, ⟨rfl, hsequence, hsame⟩ | ⟨rfl, hnext⟩⟩⟩ :=
      check_ok hcheck
    · exact .inr (.inr ⟨digest, hdigest, by simp [hnone], rfl⟩)
    · exact .inr (.inl ⟨digest, current, hdigest, hcurrent, hsequence, hsame, by rw [hcurrent]⟩)
    · refine .inr (.inr ⟨digest, hdigest, fun other hother => ?_, rfl⟩)
      rwa [← Option.some.inj (hcurrent.symm.trans hother)]

theorem put_stores {digest : Text} (hdigest : documentDigest set.document = .ok digest)
    (hnext : ∀ current, cache.get issuer = some current →
      set.sequence = current.set.sequence + 1 ∧
        (set.document.field (ascii "previousSetDigest")).strictEq (.string current.digest) = true) :
    cache.put issuer set verification =
      (.ok ((cache.store issuer ⟨set, verification, digest⟩).get issuer),
        cache.store issuer ⟨set, verification, digest⟩) := by
  have hcheck : cache.check issuer set = .ok (digest, false) := by
    rw [check, hdigest, ok_bind]
    split
    · rfl
    · next current hcurrent =>
      obtain ⟨hsequence, hprevious⟩ := hnext current hcurrent
      rw [if_neg (by omega), hprevious, hsequence]
      simp [throwWhen, pure, Except.pure]
  simp only [put, hcheck]

theorem get_store_self (cache : RevocationCache) (issuer : Text) (record : RevocationRecord) :
    (cache.store issuer record).get issuer = some record :=
  OrderedMap.get?_trim_set_self cache.positive cache.bounded issuer record

theorem get_store_single (hsingle : cache.maximumEntries = 1) (hne : other ≠ issuer)
    (record : RevocationRecord) : (cache.store issuer record).get other = none := by
  have hself := OrderedMap.get?_eq_some.mp (get_store_self cache issuer record)
  have hsize : (cache.store issuer record).records.entries.length ≤ 1 :=
    hsingle ▸ (cache.store issuer record).bounded
  rw [Option.eq_none_iff_forall_ne_some]
  intro found hfound
  have hother := OrderedMap.get?_eq_some.mp hfound
  obtain ⟨e, he⟩ := List.length_eq_one_iff.mp (hsize.antisymm (List.length_pos_of_mem hself))
  rw [he, List.mem_singleton] at hself hother
  exact hne (congrArg Prod.fst (hother.trans hself.symm))

theorem get_store_of_ne (cache : RevocationCache) {issuer other : Text} (hne : other ≠ issuer)
    (record : RevocationRecord) {found : RevocationRecord}
    (h : (cache.store issuer record).get other = some found) : cache.get other = some found := by
  have hset := OrderedMap.get?_of_get?_trim h
  rwa [OrderedMap.get?_set_of_ne _ hne] at hset

def NotOlder (issuer : Text) (set : RevocationSet) (cache : RevocationCache) : Prop :=
  ∀ record, cache.get issuer = some record →
    set.sequence ≤ record.set.sequence ∧
      (set.sequence = record.set.sequence → documentDigest set.document = .ok record.digest)

theorem notOlder_of_put (h : (cache.put issuer set verification).1.isOk = true) :
    NotOlder issuer set (cache.put issuer set verification).2 := by
  obtain ⟨failure, hput⟩ | ⟨digest, current, hdigest, hcurrent, hsequence, hsame, hput⟩ |
    ⟨digest, hdigest, _, hput⟩ := put_cases cache issuer set verification
  · rw [hput] at h
    cases h
  · rw [hput]
    intro record hrecord
    obtain rfl : current = record := Option.some.inj (hcurrent.symm.trans hrecord)
    exact ⟨hsequence.le, fun _ => hsame ▸ hdigest⟩
  · rw [hput]
    intro record hrecord
    obtain rfl := Option.some.inj ((get_store_self cache issuer _).symm.trans hrecord)
    exact ⟨le_rfl, fun _ => hdigest⟩

theorem notOlder_next {earlier : RevocationSet} (hheld : cache.Holds issuer)
    (hearlier : NotOlder issuer earlier cache)
    (h : (cache.put issuer set verification).1.isOk = true) :
    earlier.sequence ≤ set.sequence ∧
      (earlier.sequence = set.sequence →
        documentDigest earlier.document = documentDigest set.document) := by
  obtain ⟨held, hget⟩ := Option.isSome_iff_exists.mp hheld
  obtain ⟨hle, hsame⟩ := hearlier held hget
  obtain ⟨failure, hput⟩ | ⟨digest, current, hdigest, hcurrent, hsequence, hdigests, _⟩ |
    ⟨digest, _, hnext, _⟩ := put_cases cache issuer set verification
  · rw [hput] at h
    cases h
  · obtain rfl : current = held := Option.some.inj (hcurrent.symm.trans hget)
    refine ⟨hsequence ▸ hle, fun heq => ?_⟩
    rw [hsame (heq.trans hsequence), hdigest, hdigests]
  · have hnext := hnext held hget
    exact ⟨by omega, fun heq => by omega⟩

theorem notOlder_step {earlier : RevocationSet} (call : Call) (hearlier : NotOlder issuer earlier cache)
    (hheld : cache.Holds issuer) : NotOlder issuer earlier (cache.step call) := by
  cases call with
  | invalidate other =>
    intro record hrecord
    change (cache.records.delete other).get? issuer = some record at hrecord
    by_cases hother : issuer = other
    · rw [hother, OrderedMap.get?_delete_self] at hrecord
      cases hrecord
    · rw [OrderedMap.get?_delete_of_ne _ hother] at hrecord
      exact hearlier record hrecord
  | put other set verification =>
    change NotOlder issuer earlier (cache.put other set verification).2
    obtain ⟨failure, hput⟩ | ⟨_, current, _, _, _, _, hput⟩ | ⟨digest, hdigest, hnext, hput⟩ :=
      put_cases cache other set verification
    · rwa [hput]
    · rwa [hput]
    · rw [hput]
      intro record hrecord
      by_cases hother : issuer = other
      · subst hother
        obtain ⟨held, hget⟩ := Option.isSome_iff_exists.mp hheld
        obtain ⟨hle, _⟩ := hearlier held hget
        have hnext := hnext held hget
        obtain rfl := Option.some.inj ((get_store_self cache issuer _).symm.trans hrecord)
        exact ⟨by change earlier.sequence ≤ set.sequence; omega,
          fun heq => by change earlier.sequence = set.sequence at heq; omega⟩
      · exact hearlier record (get_store_of_ne cache hother _ hrecord)

structure Fits (cache : RevocationCache) (issuers : List Text) : Prop where
  keys : ∀ e ∈ cache.records.entries, e.1 ∈ issuers
  room : issuers.length ≤ cache.maximumEntries

theorem holds_step {issuers : List Text} (call : Call) (hfits : cache.Fits issuers)
    (hcall : call.issuer ∈ issuers) (hkept : ∀ other, call = .invalidate other → other ≠ issuer)
    (hheld : cache.Holds issuer) :
    (cache.step call).Fits issuers ∧ (cache.step call).Holds issuer := by
  cases call with
  | invalidate other =>
    have hne : issuer ≠ other := (hkept other rfl).symm
    refine ⟨⟨fun e he => hfits.keys e (List.mem_of_mem_filter he), hfits.room⟩, ?_⟩
    change ((cache.records.delete other).get? issuer).isSome = true
    rwa [OrderedMap.get?_delete_of_ne _ hne]
  | put other set verification =>
    change (cache.put other set verification).2.Fits issuers ∧
      (cache.put other set verification).2.Holds issuer
    obtain ⟨failure, hput⟩ | ⟨_, current, _, _, _, _, hput⟩ | ⟨digest, _, _, hput⟩ :=
      put_cases cache other set verification
    · rw [hput]
      exact ⟨hfits, hheld⟩
    · rw [hput]
      exact ⟨hfits, hheld⟩
    · rw [hput]
      have hkeys : ∀ e ∈ (cache.records.set other ⟨set, verification, digest⟩).entries,
          e.1 ∈ issuers := fun e he => by
        rcases OrderedMap.mem_set.mp he with rfl | ⟨_, he⟩
        · exact hcall
        · exact hfits.keys e he
      have hstore : (cache.store other ⟨set, verification, digest⟩).records =
          cache.records.set other ⟨set, verification, digest⟩ :=
        OrderedMap.trim_of_size_le ((OrderedMap.size_le_of_keys hkeys).trans hfits.room)
      refine ⟨⟨hstore ▸ hkeys, hfits.room⟩, ?_⟩
      rw [Holds, get, hstore]
      by_cases hother : issuer = other
      · rw [hother, OrderedMap.get?_set_self]
        rfl
      · rwa [OrderedMap.get?_set_of_ne _ hother]

theorem put_monotone (first second : RevocationSet) (v w : RevocationVerification)
    (between : List Call) (hfirst : (cache.put issuer first v).1.isOk = true)
    (hheld : Guarded step (fun cache _ => cache.Holds issuer) (cache.put issuer first v).2
      (between ++ [.put issuer second w]))
    (hsecond : ((after step (cache.put issuer first v).2 between).put issuer second w).1.isOk =
      true) :
    first.sequence ≤ second.sequence ∧
      (first.sequence = second.sequence →
        documentDigest first.document = documentDigest second.document) := by
  rw [guarded_append] at hheld
  have hbetween : NotOlder issuer first (after step (cache.put issuer first v).2 between) :=
    hheld.1.after_induction (notOlder_of_put hfirst) fun s call hs hg => notOlder_step call hs hg
  exact notOlder_next hheld.2.1 hbetween hsecond

theorem held_of_room {issuers : List Text} {calls : List Call} (hfits : cache.Fits issuers)
    (hheld : cache.Holds issuer)
    (hcalls : ∀ call ∈ calls, call.issuer ∈ issuers ∧ call ≠ .invalidate issuer) :
    Guarded step (fun cache _ => cache.Holds issuer) cache calls := by
  induction calls generalizing cache with
  | nil => trivial
  | cons call calls ih =>
    rw [List.forall_mem_cons] at hcalls
    obtain ⟨⟨hissuer, hkept⟩, hcalls⟩ := hcalls
    have hstep := holds_step call hfits hissuer (fun other h hsame => hkept (by rw [h, hsame])) hheld
    exact ⟨hheld, ih hstep.1 hstep.2 hcalls⟩

theorem put_rejected {failure : Failure}
    (h : (cache.put issuer set verification).1 = .error failure) :
    (cache.put issuer set verification).2 = cache := by
  obtain ⟨_, hput⟩ | ⟨_, _, _, _, _, _, hput⟩ | ⟨_, _, _, hput⟩ :=
    put_cases cache issuer set verification
  · rw [hput]
  · rw [hput]
  · rw [hput] at h
    cases h

end RevocationCache

/-- A rejected set changes nothing. An accepted set is not older than the ones accepted before
it, nor another set of the same sequence, while the record of its issuer stays in the cache; and
it stays while the calls name no more issuers than the cache has room for. -/
theorem revocation_sets_monotone (issuer : Text) :
    (∀ (cache : RevocationCache) (set : RevocationSet) (v : RevocationVerification)
      (failure : Failure), (cache.put issuer set v).1 = .error failure →
        (cache.put issuer set v).2 = cache) ∧
    (∀ (cache : RevocationCache) (first second : RevocationSet) (v w : RevocationVerification)
      (between : List RevocationCache.Call),
      (cache.put issuer first v).1.isOk = true →
      Guarded RevocationCache.step (fun cache _ => cache.Holds issuer)
        (cache.put issuer first v).2 (between ++ [.put issuer second w]) →
      ((after RevocationCache.step (cache.put issuer first v).2 between).put issuer second
        w).1.isOk = true →
      first.sequence ≤ second.sequence ∧
        (first.sequence = second.sequence →
          documentDigest first.document = documentDigest second.document)) ∧
    (∀ (cache : RevocationCache) (issuers : List Text) (calls : List RevocationCache.Call),
      cache.Fits issuers → cache.Holds issuer →
      (∀ call ∈ calls, call.issuer ∈ issuers ∧ call ≠ .invalidate issuer) →
      Guarded RevocationCache.step (fun cache _ => cache.Holds issuer) cache calls) :=
  ⟨fun _ _ _ _ => RevocationCache.put_rejected,
    fun _ first second v w between => RevocationCache.put_monotone first second v w between,
    fun _ _ _ => RevocationCache.held_of_room⟩

def revocationDocument (issuer : Text) (sequence : Nat) (previousSetDigest : Text) : Value :=
  .object [(ascii "issuer", .string issuer), (ascii "sequence", .number (.ofNat sequence)),
    (ascii "previousSetDigest", .string previousSetDigest)]

def firstSet : RevocationSet :=
  ⟨revocationDocument (ascii "a") 1 (ascii "none"), 1, by decide +kernel⟩

def secondSet : RevocationSet :=
  ⟨revocationDocument (ascii "a") 2 (ascii "sha256-C2CqsDMBLwyAAOujGkhpPLEADAF003CMfe_Vxwo_yus"), 2,
    by decide +kernel⟩

def otherSet : RevocationSet :=
  ⟨revocationDocument (ascii "b") 1 (ascii "none"), 1, by decide +kernel⟩

def verifiedFresh : RevocationVerification := ⟨1, .fresh, []⟩

def firstRecord : RevocationRecord :=
  ⟨firstSet, verifiedFresh, ascii "sha256-C2CqsDMBLwyAAOujGkhpPLEADAF003CMfe_Vxwo_yus"⟩

def secondRecord : RevocationRecord :=
  ⟨secondSet, verifiedFresh, ascii "sha256-EDWx-b6aor8Y4bJy5JACsNYmkeFlh8QGHD74Pdaij58"⟩

def otherRecord : RevocationRecord :=
  ⟨otherSet, verifiedFresh, ascii "sha256-5BQ5C6lrmBsXoElqw59AHrarhapLjL72VB8EF5opeoI"⟩

private theorem firstSet_digest : documentDigest firstSet.document = .ok firstRecord.digest := by
  decide +kernel

private theorem secondSet_digest : documentDigest secondSet.document = .ok secondRecord.digest := by
  decide +kernel

private theorem otherSet_digest : documentDigest otherSet.document = .ok otherRecord.digest := by
  decide +kernel

def firstCached : RevocationCache := (RevocationCache.create (some 1)).store (ascii "a") firstRecord

def newestCached : RevocationCache := firstCached.store (ascii "a") secondRecord

def otherCached : RevocationCache := newestCached.store (ascii "b") otherRecord

private theorem put_first : (RevocationCache.create (some 1)).put (ascii "a") firstSet verifiedFresh =
    (.ok (firstCached.get (ascii "a")), firstCached) :=
  RevocationCache.put_stores firstSet_digest fun _ h => nomatch h

private theorem put_second : firstCached.put (ascii "a") secondSet verifiedFresh =
    (.ok (newestCached.get (ascii "a")), newestCached) := by
  refine RevocationCache.put_stores secondSet_digest fun current h => ?_
  obtain rfl := Option.some.inj ((RevocationCache.get_store_self _ _ _).symm.trans h)
  exact ⟨rfl, by decide⟩

private theorem newestCached_other : newestCached.get (ascii "b") = none :=
  RevocationCache.get_store_single rfl (by decide) _

private theorem otherCached_first : otherCached.get (ascii "a") = none :=
  RevocationCache.get_store_single rfl (by decide) _

private theorem put_other : newestCached.put (ascii "b") otherSet verifiedFresh =
    (.ok (otherCached.get (ascii "b")), otherCached) := by
  refine RevocationCache.put_stores otherSet_digest fun current h => ?_
  rw [newestCached_other] at h
  cases h

private theorem put_again : (otherCached.put (ascii "a") firstSet verifiedFresh).1 =
    .ok (some firstRecord) := by
  have hput : otherCached.put (ascii "a") firstSet verifiedFresh =
      (.ok ((otherCached.store (ascii "a") firstRecord).get (ascii "a")),
        otherCached.store (ascii "a") firstRecord) := by
    refine RevocationCache.put_stores firstSet_digest fun current h => ?_
    rw [otherCached_first] at h
    cases h
  rw [hput, RevocationCache.get_store_self]

/-- One record is kept as long as its issuer is the only one. -/
theorem revocation_sets_monotone_single :
    firstSet.sequence ≤ secondSet.sequence ∧
      (firstSet.sequence = secondSet.sequence →
        documentDigest firstSet.document = documentDigest secondSet.document) := by
  refine (revocation_sets_monotone (ascii "a")).2.1 (.create (some 1)) firstSet secondSet
    verifiedFresh verifiedFresh [] ?_ ⟨?_, trivial⟩ ?_
  · rw [put_first]
    rfl
  · rw [put_first]
    exact Option.isSome_iff_exists.mpr ⟨_, RevocationCache.get_store_self _ _ _⟩
  · rw [put_first, after_nil, put_second]
    rfl

/-- A second issuer evicts the only record, and the older set of the first is accepted again. -/
theorem revocation_reopened_by_eviction :
    let calls : List RevocationCache.Call :=
      [.put (ascii "a") firstSet verifiedFresh, .put (ascii "a") secondSet verifiedFresh]
    (after RevocationCache.step (.create (some 1)) calls).get (ascii "a") = some secondRecord ∧
      ((after RevocationCache.step (.create (some 1))
        (calls ++ [.put (ascii "b") otherSet verifiedFresh])).put (ascii "a") firstSet
          verifiedFresh).1 = .ok (some firstRecord) ∧
      firstRecord.set.sequence < secondRecord.set.sequence := by
  refine ⟨?_, ?_, by decide⟩
  · rw [after_cons, after_cons, after_nil, RevocationCache.step, RevocationCache.step, put_first,
      put_second]
    exact RevocationCache.get_store_self _ _ _
  · rw [after_append, after_cons, after_cons, after_cons, after_nil, after_nil,
      RevocationCache.step, RevocationCache.step, RevocationCache.step, put_first, put_second,
      put_other, put_again]

end GhostBridge.Trust
