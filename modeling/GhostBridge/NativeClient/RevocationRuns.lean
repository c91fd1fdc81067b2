import GhostBridge.NativeClient.Installation
import GhostBridge.Trust.SignedRevocation

/-!
# The revocation sets of a client

A set that a client is served is validated next to the one that its cache holds, observed by the
store against rollbacks, and cached when it is newer.
-/

namespace GhostBridge.NativeClient

open Ecma Machine Trust

/-- A call of the client, with the settings that it merges and what the network answers. -/
inductive RevocationCall where
  /-- `discoverIssuer(issuerId)` observes the metadata that it was answered. -/
  | discoverIssuer (issuer : Text) (metadataSequence documentDigest : Value)
  | getRevocationSet (dateNow : Int) (settings : TrustSettings) (services : Services)
      (passportTrust : PassportTrust)

def metadataObservation (issuer : Text) (metadataSequence documentDigest : Value) :
    Observation where
  documentKind := ascii "metadata"
  issuer := issuer
  sequence := metadataSequence
  documentOrDigest := documentDigest

/-- The answer of `getRevocationSet` at a time, and the state after it. -/
def getRevocationSetAt (host : Host) (state : TrustState) (dateNow : Int)
    (settings : TrustSettings) (services : Services) (passportTrust : PassportTrust) :
    Trust.Checked CurrentRevocation × TrustState :=
  getRevocationSet { host with dateNow := dateNow } settings services state passportTrust

def revocationStep (host : Host) (state : TrustState) : RevocationCall → TrustState
  | .discoverIssuer issuer metadataSequence documentDigest =>
    let observation := metadataObservation issuer metadataSequence documentDigest
    { state with trustAntiRollback := state.trustAntiRollback.step observation }
  | .getRevocationSet dateNow settings services passportTrust =>
    (getRevocationSetAt host state dateNow settings services passportTrust).2

def issuerOf (passportTrust : PassportTrust) : Text :=
  textOf (passportTrust.metadata.field (ascii "issuerId"))

def Accepts (host : Host) (state : TrustState) (issuer : Text) (current : CurrentRevocation) :
    RevocationCall → Prop
  | .discoverIssuer _ _ _ => False
  | .getRevocationSet dateNow settings services passportTrust =>
    issuerOf passportTrust = issuer ∧
      (getRevocationSetAt host state dateNow settings services passportTrust).1 = .ok current

def Rejects (host : Host) (state : TrustState) : RevocationCall → Prop
  | .discoverIssuer _ _ _ => False
  | .getRevocationSet dateNow settings services passportTrust =>
    ∃ failure,
      (getRevocationSetAt host state dateNow settings services passportTrust).1 = .error failure

def RevocationCall.Under (settings : TrustSettings) : RevocationCall → Prop
  | .discoverIssuer _ _ _ => False
  | .getRevocationSet _ merged _ _ => merged = settings

namespace TrustState

def newest (state : TrustState) (issuer : Text) : Option ObservedSequence :=
  state.trustAntiRollback.stored (ascii "revocation") issuer

/-- What is cached for an issuer is the newest set that the store has seen of it. -/
structure Coherent (state : TrustState) : Prop where
  positive : ∀ issuer newest, state.newest issuer = some newest → 1 ≤ newest.sequence
  cached : ∀ issuer record, state.revocationCache.get issuer = some record →
    documentDigest record.set.document = .ok record.digest ∧
      state.newest issuer = some ⟨record.set.sequence, record.digest⟩

end TrustState

section Steps

variable {state next : TrustState} {issuer : Text}

def Continues (earlier : ObservedSequence) (current : CurrentRevocation) : Prop :=
  current.verification.sequence = earlier.sequence + 1 ∧
    current.document.field (ascii "previousSetDigest") = .string earlier.digest

/-- No set of the issuer is cached, and the caller answers for the place of the set in the chain:
it supplies the earlier set, or takes the signed set as a checkpoint. -/
def TakenOnTrust (state : TrustState) (issuer : Text) (settings : TrustSettings)
    (earlier : ObservedSequence) (current : CurrentRevocation) : Prop :=
  state.revocationCache.get issuer = none ∧
    ((current.document.field (ascii "previousSetDigest")).isTruthy = true →
      current.document.field (ascii "previousSetDigest") = .string earlier.digest) ∧
    match settings.previousSet with
    | none => settings.allowSignedCheckpoint = true
    | some supplied => current.verification.sequence = supplied.sequence + 1 ∧
        documentDigest supplied.document = .ok earlier.digest

/-- What an accepted set is to the newest one that was accepted before it. -/
def Onward (state : TrustState) (issuer : Text) (settings : TrustSettings)
    (earlier : ObservedSequence) (current : CurrentRevocation) : Prop :=
  earlier = ⟨current.verification.sequence, current.verification.digest⟩ ∨
    earlier.sequence < current.verification.sequence ∧
      (Continues earlier current ∨ TakenOnTrust state issuer settings earlier current)

theorem newest_metadata (host : Host) (state : TrustState) (issuer other : Text)
    (metadataSequence documentDigest : Value) :
    (revocationStep host state
        (.discoverIssuer other metadataSequence documentDigest)).newest issuer =
      state.newest issuer := by
  have hkind : (0x3a : UInt16) ∉ ascii "revocation" := by decide
  have hmetadata : (0x3a : UInt16) ∉ ascii "metadata" := by decide
  obtain hstored | ⟨_, _, habout, _⟩ := AntiRollbackStore.stored_step state.trustAntiRollback issuer
    hkind (show 0x3a ∉ (metadataObservation other metadataSequence documentDigest).documentKind
      from hmetadata)
  · exact hstored
  · have hne : ascii "metadata" ≠ ascii "revocation" := by decide
    exact absurd habout.1 hne

theorem coherent_metadata (host : Host) (h : state.Coherent) (other : Text)
    (metadataSequence documentDigest : Value) :
    (revocationStep host state (.discoverIssuer other metadataSequence documentDigest)).Coherent := by
  constructor
  · intro issuer newest hnewest
    rw [newest_metadata] at hnewest
    exact h.positive issuer newest hnewest
  · intro issuer record hrecord
    rw [newest_metadata]
    exact h.cached issuer record hrecord

theorem newest_observed_of_ne {store : AntiRollbackStore} {other : Text} (hne : issuer ≠ other)
    (document : Value) (digest : Text) (contiguous : Bool) :
    (store.observe (revocationObservation other document digest contiguous)).2.stored
        (ascii "revocation") issuer = store.stored (ascii "revocation") issuer := by
  have hkind : (0x3a : UInt16) ∉ ascii "revocation" := by decide
  obtain hstored | ⟨_, _, habout, _⟩ := AntiRollbackStore.stored_step store issuer hkind
    (show 0x3a ∉ (revocationObservation other document digest contiguous).documentKind from hkind)
  · exact hstored
  · exact absurd habout.2.symm hne

theorem put_validated {set : RevocationSet} {verification : RevocationVerification}
    {settings : TrustSettings} {issuerId : Value} (h : state.Coherent)
    (hdigest : documentDigest set.document = .ok verification.digest)
    (hposition : checkSequence set.document set.sequence (revocationOptions settings issuerId
      set.document (state.revocationCache.get issuer)) = .ok ())
    (hnewer : ∀ record, state.revocationCache.get issuer = some record →
      record.set.sequence < set.sequence) :
    state.revocationCache.put issuer set verification =
      (.ok (some ⟨set, verification, verification.digest⟩),
        state.revocationCache.store issuer ⟨set, verification, verification.digest⟩) := by
  rw [RevocationCache.put_stores hdigest]
  · rw [RevocationCache.get_store_self]
  · intro current hcurrent
    obtain ⟨-, -, hprevious, -⟩ := checkSequence_ok.mp hposition
    have hlt := hnewer current hcurrent
    have hset : (revocationOptions settings issuerId set.document
        (state.revocationCache.get issuer)).previousSet = some current.set := by
      simp [revocationOptions, hcurrent, set.safe, hlt]
    obtain ⟨-, hsequence, digest, hrecorded, hnamed⟩ := hprevious _ hset
    obtain rfl := Except.ok.inj (hrecorded.symm.trans (h.cached issuer current hcurrent).1)
    exact ⟨hsequence, hnamed⟩

theorem coherent_stored {set : RevocationSet} {verification : RevocationVerification}
    {store : AntiRollbackStore} (h : state.Coherent)
    (hdigest : documentDigest set.document = .ok verification.digest)
    (hpositive : 1 ≤ set.sequence)
    (hstored : store.stored (ascii "revocation") issuer =
      some ⟨set.sequence, verification.digest⟩)
    (hothers : ∀ other, other ≠ issuer →
      store.stored (ascii "revocation") other = state.newest other) :
    TrustState.Coherent ⟨state.revocationCache.store issuer
      ⟨set, verification, verification.digest⟩, store⟩ := by
  constructor
  · intro other newest hnewest
    change store.stored (ascii "revocation") other = some newest at hnewest
    by_cases hother : other = issuer
    · rw [hother, hstored] at hnewest
      obtain rfl := Option.some.inj hnewest
      exact hpositive
    · rw [hothers other hother] at hnewest
      exact h.positive other newest hnewest
  · intro other record hrecord
    change documentDigest record.set.document = .ok record.digest ∧
      store.stored (ascii "revocation") other = some ⟨record.set.sequence, record.digest⟩
    by_cases hother : other = issuer
    · subst hother
      obtain rfl := Option.some.inj ((RevocationCache.get_store_self _ _ _).symm.trans hrecord)
      exact ⟨hdigest, hstored⟩
    · rw [hothers other hother]
      exact h.cached other record (RevocationCache.get_store_of_ne _ hother _ hrecord)

theorem coherent_repeated {record : RevocationRecord} {store : AntiRollbackStore}
    (h : state.Coherent) (hrecord : state.revocationCache.get issuer = some record)
    (hstored : store.stored (ascii "revocation") issuer =
      some ⟨record.set.sequence, record.digest⟩)
    (hothers : ∀ other, other ≠ issuer →
      store.stored (ascii "revocation") other = state.newest other) :
    TrustState.Coherent ⟨state.revocationCache, store⟩ := by
  have hkept (other : Text) : store.stored (ascii "revocation") other = state.newest other := by
    by_cases hother : other = issuer
    · rw [hother, hstored, (h.cached issuer record hrecord).2]
    · exact hothers other hother
  constructor
  · intro other newest hnewest
    exact h.positive other newest ((hkept other).symm.trans hnewest)
  · intro other found hfound
    obtain ⟨hdigest, hnewest⟩ := h.cached other found hfound
    exact ⟨hdigest, (hkept other).trans hnewest⟩

theorem onward_of_observed {set : RevocationSet} {verification : RevocationVerification}
    {settings : TrustSettings} {issuerId : Value} {earlier : ObservedSequence}
    (h : state.Coherent) (hearlier : state.newest issuer = some earlier)
    (hsequence : verification.sequence = set.sequence)
    (hlt : earlier.sequence < set.sequence)
    (hposition : checkSequence set.document set.sequence (revocationOptions settings issuerId
      set.document (state.revocationCache.get issuer)) = .ok ())
    (hnamed : (set.document.field (ascii "previousSetDigest")).isTruthy = true →
      set.document.field (ascii "previousSetDigest") = .string earlier.digest) :
    Onward state issuer settings earlier ⟨set.document, verification⟩ := by
  obtain ⟨-, -, hprevious, hfirst⟩ := checkSequence_ok.mp hposition
  refine .inr ⟨hsequence ▸ hlt, ?_⟩
  cases hcached : state.revocationCache.get issuer with
  | some record =>
    left
    obtain ⟨hrecorded, hnewest⟩ := h.cached issuer record hcached
    obtain rfl := Option.some.inj (hnewest.symm.trans hearlier)
    have hset : (revocationOptions settings issuerId set.document
        (state.revocationCache.get issuer)).previousSet = some record.set := by
      have hnewer : record.set.sequence < set.sequence := hlt
      simp [revocationOptions, hcached, set.safe, hnewer]
    obtain ⟨-, hnext, digest, hdigest, hnames⟩ := hprevious _ hset
    obtain rfl := Except.ok.inj (hdigest.symm.trans hrecorded)
    exact ⟨hsequence.trans hnext, (Value.strictEq_string _ _).mp hnames⟩
  | none =>
    right
    have hpositive := h.positive issuer earlier hearlier
    refine ⟨hcached, hnamed, ?_⟩
    simp only [revocationOptions, hcached, Option.map_none, Option.filter_none, Option.none_or,
      Option.any_none, Bool.or_false] at hprevious hfirst
    cases hsupplied : settings.previousSet with
    | none => exact hfirst hsupplied (by omega)
    | some supplied =>
      obtain ⟨-, hnext, digest, hdigest, hnames⟩ := hprevious supplied hsupplied
      rw [Value.strictEq_string] at hnames
      have hsame := hnamed (by rw [hnames, Value.isTruthy, documentDigest_isEmpty hdigest]; rfl)
      rw [hnames] at hsame
      injection hsame with hsame
      exact ⟨hsequence.trans hnext, hsame ▸ hdigest⟩

/-- The call accepted the set, and its issuer is on it now. -/
structure Admitted (state next : TrustState) (issuer : Text) (settings : TrustSettings)
    (current : CurrentRevocation) : Prop where
  coherent : next.Coherent
  sequence : (current.document.field (ascii "sequence")).safeInteger? =
    some current.verification.sequence
  digest : documentDigest current.document = .ok current.verification.digest
  newest : next.newest issuer =
    some ⟨current.verification.sequence, current.verification.digest⟩
  others : ∀ other, other ≠ issuer → next.newest other = state.newest other
  onward : ∀ earlier, state.newest issuer = some earlier →
    Onward state issuer settings earlier current

theorem observed_set {store : AntiRollbackStore} {set : RevocationSet} {digest : Text}
    {contiguous : Bool} {n : Int}
    (hobserved : (store.observe (revocationObservation issuer set.document digest contiguous)).1 =
      .ok n) :
    (store.observe (revocationObservation issuer set.document digest contiguous)).2.stored
        (ascii "revocation") issuer = some ⟨set.sequence, digest⟩ ∧
      ∀ earlier, store.stored (ascii "revocation") issuer = some earlier →
        earlier = ⟨set.sequence, digest⟩ ∨
          earlier.sequence < set.sequence ∧
            ((set.document.field (ascii "previousSetDigest")).isTruthy = true →
              set.document.field (ascii "previousSetDigest") = .string earlier.digest) := by
  have hshown {sequence : Int} {shown : Text} (hshows : AntiRollbackStore.Shows
      (revocationObservation issuer set.document digest contiguous) sequence shown) :
      sequence = set.sequence ∧ shown = digest := by
    obtain ⟨hsafe, -, hdigest⟩ := hshows
    exact ⟨Option.some.inj (hsafe.symm.trans set.safe), (Except.ok.inj hdigest).symm⟩
  obtain ⟨failure, hobserve⟩ | ⟨current, hcurrent, hshows, hobserve⟩ |
    ⟨sequence, shown, hshows, hnext, hobserve⟩ :=
    AntiRollbackStore.observe_cases store
      (revocationObservation issuer set.document digest contiguous)
  · rw [hobserve] at hobserved
    cases hobserved
  · obtain ⟨hsequence, hdigest⟩ := hshown hshows
    have hsame : current = ⟨set.sequence, digest⟩ := by
      rw [← hsequence, ← hdigest]
    rw [hobserve]
    refine ⟨hsame ▸ hcurrent, fun earlier hearlier => .inl ?_⟩
    exact (Option.some.inj (hearlier.symm.trans hcurrent)).trans hsame
  · obtain ⟨rfl, rfl⟩ := hshown hshows
    rw [hobserve]
    refine ⟨OrderedMap.get?_set_self _ _ _, fun earlier hearlier => .inr ?_⟩
    have hlt := (hnext earlier hearlier).1
    refine ⟨hlt, fun htruthy => ?_⟩
    have haccepted : (store.observe (revocationObservation issuer set.document shown
        contiguous)).1 = .ok set.sequence := by
      rw [hobserve]
    exact (Value.strictEq_string _ _).mp
      (AntiRollbackStore.previousDigest_of_observed hearlier haccepted hlt htruthy)

theorem admitRevocationSet_eq {set : RevocationSet} {verification : RevocationVerification}
    {settings : TrustSettings} {issuerId : Value} (h : state.Coherent)
    (hdigest : documentDigest set.document = .ok verification.digest)
    (hposition : checkSequence set.document set.sequence (revocationOptions settings issuerId
      set.document (state.revocationCache.get issuer)) = .ok ()) {n : Int}
    (hobserved : (state.trustAntiRollback.observe (revocationObservation issuer set.document
      verification.digest (state.revocationCache.get issuer).isSome)).1 = .ok n) :
    admitRevocationSet state issuer set verification =
      (.ok (), ⟨if (state.revocationCache.get issuer).all
            fun record => decide (record.set.sequence < set.sequence) then
          state.revocationCache.store issuer ⟨set, verification, verification.digest⟩
        else state.revocationCache,
        (state.trustAntiRollback.observe (revocationObservation issuer set.document
          verification.digest (state.revocationCache.get issuer).isSome)).2⟩) := by
  unfold admitRevocationSet
  simp only [hobserved]
  split
  · next hnewer =>
    rw [put_validated h hdigest hposition]
    · rfl
    · intro record hrecord
      rw [hrecord] at hnewer
      exact of_decide_eq_true hnewer
  · rfl

theorem admitRevocationSet_cases {set : RevocationSet} {verification : RevocationVerification}
    {settings : TrustSettings} {issuerId : Value} (h : state.Coherent)
    (hsequence : verification.sequence = set.sequence)
    (hdigest : documentDigest set.document = .ok verification.digest)
    (hposition : checkSequence set.document set.sequence (revocationOptions settings issuerId
      set.document (state.revocationCache.get issuer)) = .ok ()) :
    (∃ failure, admitRevocationSet state issuer set verification = (.error failure, state)) ∨
      ∃ next, admitRevocationSet state issuer set verification = (.ok (), next) ∧
        Admitted state next issuer settings ⟨set.document, verification⟩ := by
  have hpositive := (checkSequence_ok.mp hposition).1
  cases hobserved : (state.trustAntiRollback.observe (revocationObservation issuer set.document
      verification.digest (state.revocationCache.get issuer).isSome)).1 with
  | error failure =>
    left
    refine ⟨failure, ?_⟩
    have hsame := AntiRollbackStore.observe_rejected hobserved
    simp only [admitRevocationSet, hobserved, hsame]
  | ok n =>
    right
    obtain ⟨hnewest, hplace⟩ := observed_set hobserved
    have hothers (other : Text) (hother : other ≠ issuer) :
        (state.trustAntiRollback.observe (revocationObservation issuer set.document
          verification.digest (state.revocationCache.get issuer).isSome)).2.stored
            (ascii "revocation") other = state.newest other :=
      newest_observed_of_ne hother _ _ _
    refine ⟨_, admitRevocationSet_eq h hdigest hposition hobserved, ?_, hsequence ▸ set.safe,
      hdigest, hsequence ▸ hnewest, hothers, fun earlier hearlier => ?_⟩
    · split
      · exact coherent_stored h hdigest hpositive hnewest hothers
      · next hnotNewer =>
        obtain ⟨record, hrecord, hle⟩ : ∃ record,
            state.revocationCache.get issuer = some record ∧ set.sequence ≤ record.set.sequence := by
          rw [Bool.not_eq_true, Option.all_eq_false] at hnotNewer
          simpa using hnotNewer
        obtain hsame | ⟨hlt, -⟩ := hplace _ (h.cached issuer record hrecord).2
        · exact coherent_repeated h hrecord (hsame ▸ hnewest) hothers
        · exact absurd hlt (not_lt.mpr hle)
    · obtain hsame | ⟨hlt, hnamed⟩ := hplace earlier hearlier
      · exact .inl (hsequence ▸ hsame)
      · exact onward_of_observed h hearlier hsequence hlt hposition hnamed

theorem getRevocationSet_cases (host : Host) (settings : TrustSettings) (services : Services)
    (passportTrust : PassportTrust) (h : state.Coherent) :
    (∃ failure, getRevocationSet host settings services state passportTrust =
        (.error failure, state)) ∨
      ∃ current next, getRevocationSet host settings services state passportTrust =
          (.ok current, next) ∧
        Admitted state next (issuerOf passportTrust) settings current := by
  unfold getRevocationSet
  simp only
  split
  · next failure _ => exact .inl ⟨failure, rfl⟩
  · next document _ =>
    split
    · next failure _ => exact .inl ⟨failure, rfl⟩
    · next verification hvalid =>
      have hdigest := (validateRevocationSet_ok hvalid).2.2
      obtain ⟨failure, hadmitted⟩ | ⟨next, hadmitted, hnext⟩ :=
        admitRevocationSet_cases h (rfl : _ = (RevocationSet.ofValidated hvalid).sequence) hdigest
          (validateRevocationSet_iff.mp hvalid).position
      · left
        exact ⟨failure, by rw [hadmitted]; rfl⟩
      · right
        exact ⟨⟨document, verification⟩, next, by rw [hadmitted]; rfl, hnext⟩

theorem getRevocationSet_accepts {host : Host} {settings : TrustSettings} {services : Services}
    {passportTrust : PassportTrust} {document : Value} {verification : RevocationVerification}
    (h : state.Coherent) (hissuer : issuerOf passportTrust = issuer)
    (hdocument : orAnswer settings.revocationSet
      (services.requestRevocationSet passportTrust.metadata) = .ok document)
    (hvalid : validateRevocationSet host document passportTrust.jwks (revocationOptions settings
      (passportTrust.metadata.field (ascii "issuerId")) document
        (state.revocationCache.get issuer)) = .ok verification)
    (hplace : ∀ newest, state.newest issuer = some newest →
      newest = ⟨verification.sequence, verification.digest⟩ ∨
        newest.sequence < verification.sequence ∧
          ((state.revocationCache.get issuer).isSome = true →
            verification.sequence = newest.sequence + 1) ∧
          document.field (ascii "previousSetDigest") = .string newest.digest) :
    (getRevocationSet host settings services state passportTrust).1 =
        .ok ⟨document, verification⟩ ∧
      (state.newest issuer = none →
        (getRevocationSet host settings services state passportTrust).2.revocationCache =
          state.revocationCache.store issuer
            ⟨.ofValidated hvalid, verification, verification.digest⟩) := by
  subst hissuer
  have hvalidated := validateRevocationSet_iff.mp hvalid
  have hobserved : (state.trustAntiRollback.observe (revocationObservation (issuerOf passportTrust)
      document verification.digest
        (state.revocationCache.get (issuerOf passportTrust)).isSome)).1 =
          .ok verification.sequence := by
    have hpositive := (checkSequence_ok.mp hvalidated.position).1
    apply AntiRollbackStore.observe_accepts ⟨hvalidated.safe, hpositive, rfl⟩
    intro newest hnewest
    obtain hsame | ⟨hlt, hnext, hnamed⟩ := hplace newest hnewest
    · exact .inl hsame
    · exact .inr ⟨hlt, hnext, fun _ => (Value.strictEq_string _ _).mpr hnamed⟩
  have hadmitted : admitRevocationSet state (issuerOf passportTrust) (.ofValidated hvalid)
      verification = _ :=
    admitRevocationSet_eq h hvalidated.digest hvalidated.position hobserved
  have hcall : getRevocationSet host settings services state passportTrust =
      (.ok ⟨document, verification⟩, (admitRevocationSet state (issuerOf passportTrust)
        (.ofValidated hvalid) verification).2) := by
    unfold getRevocationSet
    simp only [hdocument]
    split
    · next failure hfailed => cases hvalid.symm.trans hfailed
    · next found hfound =>
      obtain rfl := Except.ok.inj (hvalid.symm.trans hfound)
      change (Except.map _ (admitRevocationSet state (issuerOf passportTrust)
        (.ofValidated hvalid) verification).1,
          (admitRevocationSet state (issuerOf passportTrust) (.ofValidated hvalid)
            verification).2) = _
      rw [hadmitted]
      rfl
  rw [hcall]
  refine ⟨rfl, fun hnone => ?_⟩
  have hcached : state.revocationCache.get (issuerOf passportTrust) = none := by
    by_contra hsome
    obtain ⟨record, hrecord⟩ := Option.ne_none_iff_exists'.mp hsome
    have hnewest := (h.cached _ record hrecord).2
    rw [hnone] at hnewest
    cases hnewest
  rw [hadmitted]
  simp [hcached]

theorem revocationStep_cases (host : Host) (issuer : Text) (call : RevocationCall)
    (h : state.Coherent) :
    (revocationStep host state call).Coherent ∧
      ((revocationStep host state call).newest issuer = state.newest issuer ∧
          (∀ current, ¬ Accepts host state issuer current call) ∨
        ∃ settings current, call.Under settings ∧ Accepts host state issuer current call ∧
          Admitted state (revocationStep host state call) issuer settings current) := by
  cases call with
  | discoverIssuer other metadataSequence documentDigest =>
    refine ⟨coherent_metadata host h other metadataSequence documentDigest, .inl ⟨?_, ?_⟩⟩
    · exact newest_metadata host state issuer other metadataSequence documentDigest
    · exact fun current haccepts => haccepts
  | getRevocationSet dateNow settings services passportTrust =>
    obtain ⟨failure, hrejected⟩ | ⟨current, next, haccepted, hadmitted⟩ :=
      getRevocationSet_cases { host with dateNow := dateNow } settings services passportTrust h
    · rw [revocationStep, getRevocationSetAt, hrejected]
      refine ⟨h, .inl ⟨rfl, fun current ⟨_, haccepts⟩ => ?_⟩⟩
      rw [getRevocationSetAt, hrejected] at haccepts
      cases haccepts
    · rw [revocationStep, getRevocationSetAt, haccepted]
      refine ⟨hadmitted.coherent, ?_⟩
      by_cases hissuer : issuerOf passportTrust = issuer
      · right
        refine ⟨settings, current, rfl, ⟨hissuer, ?_⟩, hissuer ▸ hadmitted⟩
        rw [getRevocationSetAt, haccepted]
      · left
        exact ⟨hadmitted.others issuer (Ne.symm hissuer), fun _ haccepts => hissuer haccepts.1⟩

theorem admitted_of_accepts {host : Host} {call : RevocationCall} {current : CurrentRevocation}
    (h : state.Coherent) (haccepts : Accepts host state issuer current call) :
    ∃ settings, call.Under settings ∧
      Admitted state (revocationStep host state call) issuer settings current := by
  obtain ⟨-, ⟨-, hnone⟩ | ⟨settings, found, hunder, hfound, hadmitted⟩⟩ :=
    revocationStep_cases host issuer call h
  · exact absurd haccepts (hnone current)
  · cases call with
    | discoverIssuer => cases haccepts
    | getRevocationSet =>
      obtain rfl := Except.ok.inj (haccepts.2.symm.trans hfound.2)
      exact ⟨settings, hunder, hadmitted⟩

theorem revocationStep_rejected {host : Host} {call : RevocationCall} (h : state.Coherent)
    (hrejects : Rejects host state call) : revocationStep host state call = state := by
  cases call with
  | discoverIssuer => cases hrejects
  | getRevocationSet dateNow settings services passportTrust =>
    obtain ⟨failure, hrejected⟩ := hrejects
    obtain ⟨_, hsame⟩ | ⟨_, _, haccepted, _⟩ :=
      getRevocationSet_cases { host with dateNow := dateNow } settings services passportTrust h
    · rw [revocationStep, getRevocationSetAt, hsame]
    · rw [getRevocationSetAt, haccepted] at hrejected
      cases hrejected

end Steps

section Runs

variable {host : Host} {state : TrustState} {issuer : Text} {calls : List RevocationCall}

theorem coherent_after (h : state.Coherent) : (after (revocationStep host) state calls).Coherent :=
  after_induction h fun _ call hs _ => (revocationStep_cases host [] call hs).1

/-- The newest set of the issuer is this one or a later one, and has its digest if it is this one. -/
def Remembered (issuer : Text) (earlier : ObservedSequence) (state : TrustState) : Prop :=
  ∃ newest, state.newest issuer = some newest ∧ earlier.sequence ≤ newest.sequence ∧
    (earlier.sequence = newest.sequence → earlier.digest = newest.digest)

theorem remembered_onward {settings : TrustSettings} {current : CurrentRevocation}
    {earlier newest : ObservedSequence} (hle : earlier.sequence ≤ newest.sequence)
    (hsame : earlier.sequence = newest.sequence → earlier.digest = newest.digest)
    (h : Onward state issuer settings newest current) :
    earlier.sequence ≤ current.verification.sequence ∧
      (earlier.sequence = current.verification.sequence →
        earlier.digest = current.verification.digest) := by
  obtain rfl | ⟨hlt, -⟩ := h
  · exact ⟨hle, hsame⟩
  · exact ⟨hle.trans hlt.le, fun heq => absurd heq (by omega)⟩

theorem remembered_after {earlier : ObservedSequence} (h : state.Coherent)
    (hnewest : state.newest issuer = some earlier) :
    Remembered issuer earlier (after (revocationStep host) state calls) := by
  suffices hboth : (after (revocationStep host) state calls).Coherent ∧
      Remembered issuer earlier (after (revocationStep host) state calls) from hboth.2
  apply after_induction (I := fun s => s.Coherent ∧ Remembered issuer earlier s)
  · exact ⟨h, earlier, hnewest, le_rfl, fun _ => rfl⟩
  · intro s call ⟨hs, newest, hlast, hle, hsame⟩ _
    obtain ⟨hcoherent, ⟨hkept, -⟩ | ⟨settings, current, -, -, hadmitted⟩⟩ :=
      revocationStep_cases host issuer call hs
    · exact ⟨hcoherent, newest, hkept.trans hlast, hle, hsame⟩
    · have honward := remembered_onward hle hsame (hadmitted.onward newest hlast)
      exact ⟨hcoherent, _, hadmitted.newest, honward⟩

def NoneAccepted (host : Host) (issuer : Text) (state : TrustState)
    (calls : List RevocationCall) : Prop :=
  Guarded (revocationStep host) (fun s call => ∀ current, ¬ Accepts host s issuer current call)
    state calls

theorem newest_of_noneAccepted (h : state.Coherent)
    (hnone : NoneAccepted host issuer state calls) :
    (after (revocationStep host) state calls).newest issuer = state.newest issuer := by
  have hboth := hnone.after_induction
    (I := fun s => s.Coherent ∧ s.newest issuer = state.newest issuer) ⟨h, rfl⟩
    fun s call ⟨hs, hsame⟩ hrefused => ?_
  · exact hboth.2
  · obtain ⟨hcoherent, ⟨hkept, -⟩ | ⟨_, current, -, haccepts, -⟩⟩ :=
      revocationStep_cases host issuer call hs
    · exact ⟨hcoherent, hkept.trans hsame⟩
    · exact absurd haccepts (hrefused current)

/-- What holds of a client in one state, whatever it is asked for from there on. -/
structure InOrder (host : Host) (state : TrustState) : Prop where
  cached : ∀ issuer record, state.revocationCache.get issuer = some record →
    ∃ newest, state.newest issuer = some newest ∧ newest.sequence ≤ record.set.sequence
  rejected : ∀ call, Rejects host state call → revocationStep host state call = state
  shown : ∀ issuer current call, Accepts host state issuer current call →
    (current.document.field (ascii "sequence")).safeInteger? =
        some current.verification.sequence ∧
      documentDigest current.document = .ok current.verification.digest
  ordered : ∀ issuer first second between a b, Accepts host state issuer a first →
    Accepts host (after (revocationStep host) state (first :: between)) issuer b second →
      a.verification.sequence ≤ b.verification.sequence ∧
        (a.verification.sequence = b.verification.sequence →
          documentDigest a.document = documentDigest b.document)
  linked : ∀ issuer first second between a b, Accepts host state issuer a first →
    NoneAccepted host issuer (revocationStep host state first) between →
    Accepts host (after (revocationStep host) state (first :: between)) issuer b second →
    a.verification.sequence < b.verification.sequence →
      Continues ⟨a.verification.sequence, a.verification.digest⟩ b ∨
        ∃ settings, second.Under settings ∧
          TakenOnTrust (after (revocationStep host) state (first :: between)) issuer settings
            ⟨a.verification.sequence, a.verification.digest⟩ b

theorem inOrder_of_coherent (h : state.Coherent) : InOrder host state where
  cached issuer record hrecord := ⟨_, (h.cached issuer record hrecord).2, le_rfl⟩
  rejected call hrejects := revocationStep_rejected h hrejects
  shown issuer current call haccepts := by
    obtain ⟨_, -, hadmitted⟩ := admitted_of_accepts h haccepts
    exact ⟨hadmitted.sequence, hadmitted.digest⟩
  ordered issuer first second between a b hfirst hsecond := by
    obtain ⟨_, -, hadmitted⟩ := admitted_of_accepts h hfirst
    have hremembered : Remembered issuer ⟨a.verification.sequence, a.verification.digest⟩
        (after (revocationStep host) (revocationStep host state first) between) :=
      remembered_after hadmitted.coherent hadmitted.newest
    obtain ⟨newest, hnewest, hle, hsame⟩ := hremembered
    obtain ⟨settings, -, hlast⟩ := admitted_of_accepts (coherent_after hadmitted.coherent) hsecond
    have honward := remembered_onward hle hsame (hlast.onward newest hnewest)
    refine ⟨honward.1, fun heq => ?_⟩
    have hdigest : a.verification.digest = b.verification.digest := honward.2 heq
    rw [hadmitted.digest, hlast.digest, hdigest]
  linked issuer first second between a b hfirst hnone hsecond hlt := by
    obtain ⟨_, -, hadmitted⟩ := admitted_of_accepts h hfirst
    obtain ⟨settings, hunder, hlast⟩ :=
      admitted_of_accepts (coherent_after hadmitted.coherent) hsecond
    have hnewest := (newest_of_noneAccepted hadmitted.coherent hnone).trans hadmitted.newest
    obtain hsame | ⟨-, hcontinues | htrusted⟩ := hlast.onward _ hnewest
    · exact absurd (congrArg ObservedSequence.sequence hsame) hlt.ne
    · exact .inl hcontinues
    · exact .inr ⟨settings, hunder, htrusted⟩

/-- Along every run of a client, the accepted sets of an issuer come in order and show one digest
at one sequence; a newer one follows on its predecessor, unless none is cached and the caller
answers for its place. What is rejected changes nothing, and the cache is never behind the store. -/
theorem revocation_sets_in_order (host : Host) (state : TrustState) (h : state.Coherent)
    (calls : List RevocationCall) : InOrder host (after (revocationStep host) state calls) :=
  inOrder_of_coherent (coherent_after h)

end Runs

/-! ## A forgotten issuer

An issuer signs its first set with one key, then with another, and its fifth set as a checkpoint.
The cache has room for one issuer. -/

section ForgottenIssuer

theorem coherent_create (maximumEntries : Option Int) :
    TrustState.Coherent ⟨RevocationCache.create maximumEntries, .create⟩ := by
  constructor
  · intro issuer newest hnewest
    cases hnewest
  · intro issuer record hrecord
    cases hrecord

private def setPayloadOf (issuer : String) (sequence : ℕ) (previousSetDigest : String) : Value :=
  .object [(ascii "protocolVersion", .string (ascii "ghostbridge/0.1-draft")),
    (ascii "trustProfileVersion", .string (ascii "ghostbridge-trust/0.1-draft")),
    (ascii "revocationSetId", .string (ascii "s")), (ascii "issuer", .string (ascii issuer)),
    (ascii "generatedAt", newYear),
    (ascii "nextUpdate", .string (ascii "2027-01-01T00:00:00.000Z")),
    (ascii "status", .string (ascii "active")),
    (ascii "previousSetDigest", .string (ascii previousSetDigest)),
    (ascii "sequence", .number (.ofNat sequence)), (ascii "entries", .array [])]

private structure SignedPayloadOf where
  kid : String
  x : String
  thumbprint : String
  payload : Value
  signature : String

namespace SignedPayloadOf

private def bytes (s : SignedPayloadOf) : Bytes := Base64Url.decode (ascii s.signature)

private def document (s : SignedPayloadOf) : Value :=
  recordedDocument (ascii s.kid) s.payload s.bytes

private def key (s : SignedPayloadOf) : Value :=
  signingJwk (ascii s.kid) (ascii s.x) (ascii s.thumbprint) (ascii "revocation_signing")

private def jwks (s : SignedPayloadOf) : Value := .object [(ascii "keys", .array [s.key])]

end SignedPayloadOf

private def signedByFirst (payload : Value) (signature : String) : SignedPayloadOf :=
  ⟨"k1", "FfWXq3WAGFqffURjIsk75sEzOz7cn9luDwhDGTu9Xj0",
    "LgcH0TbCKoRrt1NMhP8XJsjpadruUurO3I35x25xRCk", payload, signature⟩

private def signedBySecond (payload : Value) (signature : String) : SignedPayloadOf :=
  ⟨"k2", "K_LBpVifNUg4htrTyq25eGGs7AJES28qQZlRmnJfSbc",
    "Qn4GuvPYgWUizXGwkbCnd9CwGCxwwnEoGDI050bZzv4", payload, signature⟩

private def initialPayload : Value := setPayloadOf "https://issuer.example" 1 "none"

private def initialSet : SignedPayloadOf := signedByFirst initialPayload
  "PZr3YDO6vqJ9Xm6BBpDrVjJUi5mtkdVjf3zkrzYDWOn9JhPgXHH2gDsk0MVxaL9_wOTzRD0AYWWKrLgBWBdTDw"

private def signedAgain : SignedPayloadOf := signedBySecond initialPayload
  "xfJnmTBmnWA-zXnqR1ue4aSyWJdRjXa_OAuvB_3GexdXJDBojY5BNNlXj9ya0TATnTdQB5ilXsZWl4RKNkiBAA"

private def foreignSet : SignedPayloadOf := signedByFirst
  (setPayloadOf "https://other.example" 1 "none")
  "Q8U9L92b1OtUktEpkkQ3wLPxEflOE8yq2fRjGaCgr6mwqy78PVOx5d0qLSFzah0Ot-zgtw_1xVgpTIX1hWCUDg"

private def fifthSet : SignedPayloadOf := signedByFirst
  (setPayloadOf "https://issuer.example" 5 "sha256-fMLksAWEUohwSaQL0APCZFvmeDT54f-3jFmKEeZ4JRs")
  "hTXf5QXsP7bfgNlSvHJGSNYE2mEA8G5qZsO-MpkM0-bqBxGIjm_aPQE4sNojLOhPXGfIaOr2I_LjLrAHE8MiCw"

private def servedSets : List SignedPayloadOf := [initialSet, signedAgain, foreignSet, fifthSet]

private def servingHost : Host :=
  recordedHost 1780272000000 recordedDates (servedSets.map fun s =>
    ⟨ascii s.x, signingInput (ascii s.kid) s.payload, s.bytes⟩)

private theorem servedSets_signable : ∀ s ∈ servedSets,
    Signable servingHost (ascii s.kid) s.payload ∧
      validateTimeWindow servingHost s.payload servingHost.dateNow none none = .ok () ∧
      validateJwks servingHost s.jwks {} = .ok ⟨s.jwks, [s.key]⟩ := by
  simp only [servedSets, List.forall_mem_cons]
  refine ⟨⟨⟨by decide, rfl, ?_, ?_, ?_⟩, ?_, ?_⟩, ⟨⟨by decide, rfl, ?_, ?_, ?_⟩, ?_, ?_⟩,
    ⟨⟨by decide, rfl, ?_, ?_, ?_⟩, ?_, ?_⟩, ⟨⟨by decide, rfl, ?_, ?_, ?_⟩, ?_, ?_⟩,
    List.forall_mem_nil _⟩ <;> decide +kernel

private theorem servedSets_keyed : ∀ s ∈ servedSets,
    s.bytes.length = 64 ∧ s.key.field (ascii "kid") = .string (ascii s.kid) ∧
      servingHost.createPublicKey (stripJwkMetadata s.key) = some (ascii s.x) ∧
      SuitableKey servingHost s.key revocationSigning (issuanceMember s.payload) ∧
      issuanceMember s.payload = newYear := by
  have hwindow {key : Value} (hnotBefore : parseDate servingHost (key.field (ascii "notBefore")) =
      .ok (some 1735689600000)) (hexpiresAt : parseDate servingHost (key.field (ascii "expiresAt")) =
      .ok (some 1798761600000)) : ∃ time notBefore expiresAt : Int,
        parseDate servingHost newYear = .ok (some time) ∧
        parseDate servingHost (key.field (ascii "notBefore")) = .ok (some notBefore) ∧
        parseDate servingHost (key.field (ascii "expiresAt")) = .ok (some expiresAt) ∧
        notBefore ≤ time ∧ time < expiresAt :=
    ⟨1767225600000, 1735689600000, 1798761600000, by decide, hnotBefore, hexpiresAt, by decide,
      by decide⟩
  simp only [servedSets, List.forall_mem_cons]
  refine ⟨⟨by decide, rfl, rfl, ⟨fun _ => by decide, by decide, hwindow rfl rfl⟩, rfl⟩,
    ⟨by decide, rfl, rfl, ⟨fun _ => by decide, by decide, hwindow rfl rfl⟩, rfl⟩,
    ⟨by decide, rfl, rfl, ⟨fun _ => by decide, by decide, hwindow rfl rfl⟩, rfl⟩,
    ⟨by decide, rfl, rfl, ⟨fun _ => by decide, by decide, hwindow rfl rfl⟩, rfl⟩,
    List.forall_mem_nil _⟩

private theorem served_verified (s : SignedPayloadOf) (hmem : s ∈ servedSets) : ∃ result,
    verifyDocument servingHost s.document s.jwks { purpose := revocationSigning } =
      .ok (result, s.payload) := by
  obtain ⟨hsignable, hwindow, hjwks⟩ := servedSets_signable s hmem
  obtain ⟨hlength, hkid, hpublicKey, hsuitable, hissued⟩ := servedSets_keyed s hmem
  have hverify : servingHost.verify (ascii s.x) (signingInput (ascii s.kid) s.payload) s.bytes =
      true := recordedHost_verify.mpr (List.mem_map.mpr ⟨s, hmem, rfl⟩)
  have hobject : (issuanceMember s.payload).isObjectLike = false := by
    rw [hissued]
    rfl
  obtain ⟨result, hresult, -⟩ := hsignable.verified hlength hobject hwindow hjwks hkid hpublicKey
    hverify hsuitable
  exact ⟨result, hresult⟩

private theorem served_complete (s : SignedPayloadOf) (hmem : s ∈ servedSets) :
    CompleteSet s.document := by
  have hfield {name : Text} (hname : name ≠ ascii "proof") :
      s.document.field name = s.payload.field name :=
    (servedSets_signable s hmem).1.field_recorded hname
  have hfields : ∀ s ∈ servedSets, requireFields s.document revocationSetFields
      .revocationSetInvalid = .ok () := by
    simp only [servedSets, List.forall_mem_cons]
    refine ⟨?_, ?_, ?_, ?_, List.forall_mem_nil _⟩ <;> decide
  have hpayload : ∀ s ∈ servedSets, s.payload.field (ascii "entries") = .array [] ∧
      s.payload.field (ascii "generatedAt") = newYear ∧
      s.payload.field (ascii "nextUpdate") = .string (ascii "2027-01-01T00:00:00.000Z") := by
    simp only [servedSets, List.forall_mem_cons]
    exact ⟨⟨rfl, rfl, rfl⟩, ⟨rfl, rfl, rfl⟩, ⟨rfl, rfl, rfl⟩, ⟨rfl, rfl, rfl⟩, List.forall_mem_nil _⟩
  obtain ⟨hentries, hgeneratedAt, hnextUpdate⟩ := hpayload s hmem
  refine ⟨hfields s hmem, ⟨[], (hfield (by decide)).trans hentries, Nat.zero_le _, rfl⟩, ?_⟩
  simp only [List.forall_mem_cons]
  rw [hfield (by decide), hfield (by decide), hgeneratedAt, hnextUpdate]
  exact ⟨rfl, rfl, List.forall_mem_nil _⟩

private def servedIssuer (s : SignedPayloadOf) : Text := textOf (s.payload.field (ascii "issuer"))

private theorem served_fields (s : SignedPayloadOf) (hmem : s ∈ servedSets) :
    s.document.field (ascii "issuer") = .string (servedIssuer s) ∧
      s.payload.field (ascii "issuer") = .string (servedIssuer s) ∧
      (Value.string (servedIssuer s)).isTruthy = true := by
  have hpayload : ∀ s ∈ servedSets, s.payload.field (ascii "issuer") = .string (servedIssuer s) ∧
      (Value.string (servedIssuer s)).isTruthy = true := by
    simp only [servedSets, List.forall_mem_cons]
    exact ⟨⟨rfl, rfl⟩, ⟨rfl, rfl⟩, ⟨rfl, rfl⟩, ⟨rfl, rfl⟩, List.forall_mem_nil _⟩
  obtain ⟨hissuer, htruthy⟩ := hpayload s hmem
  refine ⟨?_, hissuer, htruthy⟩
  rw [← hissuer]
  exact (servedSets_signable s hmem).1.field_recorded (by decide)

private def serving (s : SignedPayloadOf) (allowSignedCheckpoint : Bool) : RevocationCall :=
  .getRevocationSet 1780272000000
    { required := true
      hostAudience := .string (ascii "h")
      organizationPolicy := {}
      revocationSet := s.document
      allowSignedCheckpoint := allowSignedCheckpoint }
    { validatePassport := fun _ => .error .runtimeError
      getIssuerMetadata := fun _ => .error .runtimeError
      validateIssuerMetadata := fun _ _ => .error .runtimeError
      getIssuerKeys := fun _ => .error .runtimeError
      requestRevocationSet := fun _ => .error .runtimeError }
    { metadataProof := ⟨.undefined, .undefined, .undefined, .undefined, .undefined⟩
      proof := ⟨.undefined, .undefined, .undefined, .undefined, .undefined⟩
      policy := trustResult .verifiedAndTrusted []
      metadata := .object [(ascii "issuerId", .string (servedIssuer s))]
      jwks := s.jwks }

private theorem serving_accepted {state : TrustState} (h : state.Coherent) (s : SignedPayloadOf)
    (hmem : s ∈ servedSets) {sequence : Int} {digest : Text} (allowSignedCheckpoint : Bool)
    (hsequence : (s.payload.field (ascii "sequence")).safeInteger? = some sequence)
    (hpositive : 1 ≤ sequence)
    (hdigest : Trust.digest s.payload = .ok digest)
    (hcached : ∀ record, state.revocationCache.get (servedIssuer s) = some record →
      record.set.sequence = sequence)
    (hcheckpoint : 1 < sequence → allowSignedCheckpoint = true)
    (hplace : ∀ newest, state.newest (servedIssuer s) = some newest → newest = ⟨sequence, digest⟩ ∨
      newest.sequence < sequence ∧ state.revocationCache.get (servedIssuer s) = none ∧
        s.payload.field (ascii "previousSetDigest") = .string newest.digest) :
    ∃ verification, Accepts servingHost state (servedIssuer s) ⟨s.document, verification⟩
        (serving s allowSignedCheckpoint) ∧ verification.sequence = sequence ∧
      verification.digest = digest ∧
      (state.newest (servedIssuer s) = none → ∃ record,
        (revocationStep servingHost state (serving s allowSignedCheckpoint)).revocationCache =
          state.revocationCache.store (servedIssuer s) record) := by
  obtain ⟨hdocumentIssuer, hpayloadIssuer, htruthy⟩ := served_fields s hmem
  obtain ⟨result, hproof⟩ := served_verified s hmem
  have hfield {name : Text} (hname : name ≠ ascii "proof") :
      s.document.field name = s.payload.field name :=
    (servedSets_signable s hmem).1.field_recorded hname
  have hsafe : (s.document.field (ascii "sequence")).safeInteger? = some sequence := by
    rw [hfield (by decide), hsequence]
  cases hcall : serving s allowSignedCheckpoint with
  | discoverIssuer => cases hcall
  | getRevocationSet dateNow settings services passportTrust =>
    injection hcall with hdateNow hsettings hservices hpassportTrust
    have hissuer : issuerOf passportTrust = servedIssuer s := by
      rw [← hpassportTrust]
      rfl
    have hissuerId : passportTrust.metadata.field (ascii "issuerId") =
        .string (servedIssuer s) := by
      rw [← hpassportTrust]
      rfl
    have hjwks : passportTrust.jwks = s.jwks := by rw [← hpassportTrust]
    have hhost : { servingHost with dateNow := dateNow } = servingHost := by
      rw [← hdateNow]
      rfl
    have hprevious : (revocationOptions settings (.string (servedIssuer s)) s.document
        (state.revocationCache.get (servedIssuer s))).previousSet = none := by
      subst hsettings
      simp only [revocationOptions, hsafe, Option.or_none]
      cases hget : state.revocationCache.get (servedIssuer s) with
      | none => rfl
      | some record => simp [hcached record hget]
    have hposition : checkSequence s.document sequence (revocationOptions settings
        (.string (servedIssuer s)) s.document (state.revocationCache.get (servedIssuer s))) =
          .ok () := by
      refine checkSequence_ok.mpr ⟨hpositive, fun minimum hminimum => ?_, ?_, fun _ hlt => ?_⟩
      · obtain ⟨record, hget, rfl⟩ := Option.map_eq_some_iff.mp hminimum
        exact (hcached record hget).le
      · intro previous hsome
        rw [hprevious] at hsome
        cases hsome
      · subst hsettings
        simp [revocationOptions, hcheckpoint hlt]
    have hoptions : DefaultOptions s.document (revocationOptions settings
        (.string (servedIssuer s)) s.document (state.revocationCache.get (servedIssuer s))) := by
      subst hsettings
      exact ⟨rfl, rfl, .inr hdocumentIssuer.symm⟩
    obtain ⟨verification, hvalid, rfl⟩ := validateRevocationSet_of_proof hproof
      ⟨hpayloadIssuer, htruthy, by simp⟩ hdocumentIssuer hoptions (served_complete s hmem) hsafe
      hposition
    have hdigests : verification.digest = digest := by
      have hpayload := (verifyDocument_ok.mp hproof).2.1
      have hshown : documentDigest s.document = .ok digest := by
        rw [documentDigest, hpayload]
        exact hdigest
      exact Except.ok.inj ((validateRevocationSet_iff.mp hvalid).digest.symm.trans hshown)
    have hdocument : orAnswer settings.revocationSet
        (services.requestRevocationSet passportTrust.metadata) = .ok s.document := by
      have hobject : s.document.isTruthy = true := by
        obtain ⟨members, hmembers, -⟩ :=
          withoutProof_ok.mp (verifyDocument_ok.mp hproof).2.1
        rw [hmembers]
        rfl
      subst hsettings
      exact if_pos hobject
    rw [← hjwks, ← hissuerId] at hvalid
    obtain ⟨hanswer, hstores⟩ := getRevocationSet_accepts h hissuer hdocument hvalid
      fun newest hnewest => by
        obtain hsame | ⟨hlt, hnone, hnamed⟩ := hplace newest hnewest
        · exact .inl (hdigests ▸ hsame)
        · refine .inr ⟨hlt, fun hsome => ?_, (hfield (by decide)).trans hnamed⟩
          rw [hnone] at hsome
          cases hsome
    refine ⟨verification, ⟨hissuer, ?_⟩, rfl, hdigests, fun hnone => ?_⟩
    · rw [getRevocationSetAt, hhost, hanswer]
    · rw [revocationStep, getRevocationSetAt, hhost]
      exact ⟨_, hstores hnone⟩

private def smallCache : TrustState := ⟨RevocationCache.create (some 1), .create⟩

private theorem smallCache_coherent : smallCache.Coherent := coherent_create (some 1)

private theorem newest_smallCache (issuer : Text) : smallCache.newest issuer = none := rfl

private def initialDigest : Text := ascii "sha256-fMLksAWEUohwSaQL0APCZFvmeDT54f-3jFmKEeZ4JRs"

private theorem served_digests :
    Trust.digest initialPayload = .ok initialDigest ∧
      Trust.digest foreignSet.payload =
        .ok (ascii "sha256-6Pj3QOCPxl5HxrsAJSxA_v_yn5QAC4nOZZTn3ZX8Ue8") ∧
      Trust.digest fifthSet.payload =
        .ok (ascii "sha256-T3agCqQmpew_2RmcCwvj38Q8OESCDMvxRIKxiFS3_mc") := by
  decide +kernel

private theorem served_sequences :
    (initialPayload.field (ascii "sequence")).safeInteger? = some 1 ∧
      (foreignSet.payload.field (ascii "sequence")).safeInteger? = some 1 ∧
      (fifthSet.payload.field (ascii "sequence")).safeInteger? = some 5 := by
  decide +kernel

private theorem foreign_digest : ∃ digest, Trust.digest foreignSet.payload = .ok digest :=
  ⟨_, served_digests.2.1⟩

private theorem fifth_digest : ∃ digest, Trust.digest fifthSet.payload = .ok digest :=
  ⟨_, served_digests.2.2⟩

private theorem initial_accepted : ∃ verification record,
    Accepts servingHost smallCache (servedIssuer initialSet) ⟨initialSet.document, verification⟩
        (serving initialSet false) ∧
      verification.sequence = 1 ∧ verification.digest = initialDigest ∧
      (revocationStep servingHost smallCache (serving initialSet false)).revocationCache =
        smallCache.revocationCache.store (servedIssuer initialSet) record := by
  obtain ⟨verification, haccepts, hsequence, hdigest, hstored⟩ :=
    serving_accepted smallCache_coherent initialSet (by simp [servedSets]) false
      served_sequences.1 (by decide) served_digests.1 (fun record hrecord => by cases hrecord)
      (by simp)
      (fun newest hnewest => by cases hnewest)
  obtain ⟨record, hrecord⟩ := hstored rfl
  exact ⟨verification, record, haccepts, hsequence, hdigest, hrecord⟩

private theorem signedAgain_accepted {state : TrustState} (h : state.Coherent)
    (hnewest : state.newest (servedIssuer initialSet) = some ⟨1, initialDigest⟩) :
    ∃ verification, Accepts servingHost state (servedIssuer initialSet)
        ⟨signedAgain.document, verification⟩ (serving signedAgain false) ∧
      verification.sequence = 1 := by
  have hcached (record : RevocationRecord)
      (hrecord : state.revocationCache.get (servedIssuer signedAgain) = some record) :
      record.set.sequence = 1 := by
    have hsame := (h.cached _ record hrecord).2.symm.trans hnewest
    exact congrArg ObservedSequence.sequence (Option.some.inj hsame)
  obtain ⟨verification, haccepts, hsequence, -, -⟩ :=
    serving_accepted h signedAgain (by simp [servedSets]) false served_sequences.1 (by decide)
      served_digests.1 hcached (by simp)
      (fun newest hfound => .inl (Option.some.inj (hfound.symm.trans hnewest)))
  exact ⟨verification, haccepts, hsequence⟩

private theorem foreign_accepted {state : TrustState} (h : state.Coherent)
    (hnone : state.newest (servedIssuer foreignSet) = none)
    (hsingle : state.revocationCache.maximumEntries = 1) :
    (revocationStep servingHost state (serving foreignSet false)).revocationCache.get
        (servedIssuer initialSet) = none ∧
      (revocationStep servingHost state (serving foreignSet false)).newest
        (servedIssuer initialSet) = state.newest (servedIssuer initialSet) := by
  obtain ⟨digest, hdigest⟩ := foreign_digest
  have hcached (record : RevocationRecord)
      (hrecord : state.revocationCache.get (servedIssuer foreignSet) = some record) :
      record.set.sequence = 1 := by
    have hnewest := (h.cached _ record hrecord).2
    rw [hnone] at hnewest
    cases hnewest
  obtain ⟨verification, haccepts, -, -, hstored⟩ :=
    serving_accepted h foreignSet (by simp [servedSets]) false served_sequences.2.1 (by decide)
      hdigest hcached (by simp) (fun newest hfound => by rw [hnone] at hfound; cases hfound)
  obtain ⟨record, hrecord⟩ := hstored hnone
  obtain ⟨_, -, hadmitted⟩ := admitted_of_accepts h haccepts
  have hne : servedIssuer initialSet ≠ servedIssuer foreignSet := by decide
  rw [hrecord]
  exact ⟨RevocationCache.get_store_single hsingle hne record, hadmitted.others _ hne⟩

private theorem fifth_accepted {state : TrustState} (h : state.Coherent)
    (hforgotten : state.revocationCache.get (servedIssuer initialSet) = none)
    (hnewest : state.newest (servedIssuer initialSet) = some ⟨1, initialDigest⟩) :
    ∃ verification, Accepts servingHost state (servedIssuer initialSet)
        ⟨fifthSet.document, verification⟩ (serving fifthSet true) ∧
      verification.sequence = 5 := by
  obtain ⟨digest, hdigest⟩ := fifth_digest
  have hcached (record : RevocationRecord)
      (hrecord : state.revocationCache.get (servedIssuer fifthSet) = some record) :
      record.set.sequence = 5 := by
    cases hforgotten.symm.trans hrecord
  obtain ⟨verification, haccepts, hsequence, -, -⟩ :=
    serving_accepted h fifthSet (by simp [servedSets]) true served_sequences.2.2 (by decide)
      hdigest hcached (fun _ => rfl) fun newest hfound => by
        obtain rfl := Option.some.inj (hfound.symm.trans hnewest)
        exact .inr ⟨by decide, hforgotten, rfl⟩
  exact ⟨verification, haccepts, hsequence⟩

/-- Two different documents of one sequence are accepted one after the other; and after another
issuer has taken the place in the cache, the fifth set is accepted right after the first. -/
theorem revocation_sets_not_linked : ∃ first again fifth : CurrentRevocation,
    Accepts servingHost smallCache (servedIssuer initialSet) first (serving initialSet false) ∧
      Accepts servingHost (after (revocationStep servingHost) smallCache [serving initialSet false])
        (servedIssuer initialSet) again (serving signedAgain false) ∧
      again.verification.sequence = first.verification.sequence ∧ again.document ≠ first.document ∧
      NoneAccepted servingHost (servedIssuer initialSet)
        (revocationStep servingHost smallCache (serving initialSet false))
        [serving foreignSet false] ∧
      Accepts servingHost (after (revocationStep servingHost) smallCache
          [serving initialSet false, serving foreignSet false])
        (servedIssuer initialSet) fifth (serving fifthSet true) ∧
      fifth.verification.sequence ≠ first.verification.sequence + 1 := by
  obtain ⟨verification, record, haccepts, hsequence, hdigest, hstored⟩ := initial_accepted
  obtain ⟨_, -, hadmitted⟩ := admitted_of_accepts smallCache_coherent haccepts
  have hnewest : (revocationStep servingHost smallCache (serving initialSet false)).newest
      (servedIssuer initialSet) = some ⟨1, initialDigest⟩ := by
    rw [hadmitted.newest, ← hsequence, ← hdigest]
  have hforeign : (revocationStep servingHost smallCache (serving initialSet false)).newest
      (servedIssuer foreignSet) = none :=
    (hadmitted.others _ (by decide)).trans (newest_smallCache _)
  have hsingle : (revocationStep servingHost smallCache
      (serving initialSet false)).revocationCache.maximumEntries = 1 := by
    rw [hstored]
    rfl
  obtain ⟨hforgotten, hkept⟩ := foreign_accepted hadmitted.coherent hforeign hsingle
  obtain ⟨again, hagain, hagainSequence⟩ := signedAgain_accepted hadmitted.coherent hnewest
  have hcoherent := (revocationStep_cases servingHost (servedIssuer initialSet)
    (serving foreignSet false) hadmitted.coherent).1
  obtain ⟨fifth, hfifth, hfifthSequence⟩ :=
    fifth_accepted hcoherent hforgotten (hkept.trans hnewest)
  refine ⟨⟨initialSet.document, verification⟩, ⟨signedAgain.document, again⟩,
    ⟨fifthSet.document, fifth⟩, ?_⟩
  rw [after_cons, after_nil, after_cons, after_cons, after_nil]
  refine ⟨haccepts, hagain, hagainSequence.trans hsequence.symm, ?_, ⟨?_, trivial⟩, hfifth, ?_⟩
  · intro hsame
    have hkids := congrArg (fun document : Value =>
      (document.field (ascii "proof")).field (ascii "kid")) hsame
    simp only [SignedPayloadOf.document,
      (servedSets_signable signedAgain (by simp [servedSets])).1.field_proof_kid,
      (servedSets_signable initialSet (by simp [servedSets])).1.field_proof_kid] at hkids
    cases hkids
  · intro current hother
    exact absurd hother.1 (by decide)
  · rw [hfifthSequence, hsequence]
    decide

/-- A new client that is served a set, one that was signed again, and one of another issuer. -/
theorem revocation_sets_in_order_served :
    InOrder servingHost (after (revocationStep servingHost) smallCache
      [serving initialSet false, serving signedAgain false, serving foreignSet false]) :=
  revocation_sets_in_order servingHost smallCache smallCache_coherent _

end ForgottenIssuer

end GhostBridge.NativeClient
