import GhostBridge.Issuer.RevocationSets

/-!
# Issuer and verifier agree on revocation sets

When calls do not overlap and keep to the sequence, a verifier accepts the sets in the order in
which they are issued.
-/

namespace GhostBridge.Issuer

open Ecma Machine Trust

section Verifiers

variable {host : Host} {jwks : Value} {issuer : Text} {verifier : Verifier}
  {state : RevocationState} {document : Value}

/-- The set that the verifier has accepted last is the last one of the issuer. -/
structure Holding (issuer : Text) (verifier : Verifier) (set : RevocationSet) (digest : Text) :
    Prop where
  previousSet : verifier.previousSet = some set
  issued : set.document.field (ascii "issuer") = .string issuer
  documentDigest : documentDigest set.document = .ok digest
  cached : ∃ verification, verifier.cache.get issuer = some ⟨set, verification, digest⟩
  stored : verifier.store.stored (ascii "revocation") issuer = some ⟨set.sequence, digest⟩

structure Fresh (issuer : Text) (verifier : Verifier) : Prop where
  previousSet : verifier.previousSet = none
  cached : verifier.cache.get issuer = none
  stored : verifier.store.stored (ascii "revocation") issuer = none

def UpToDate (issuer : Text) (state : RevocationState) (verifier : Verifier) : Prop :=
  match state.lastRevocationSet with
  | none => state.revocationSequence = 0 ∧ Fresh issuer verifier
  | some last => ∃ (set : RevocationSet) (digest : Text), set.document = last ∧
      set.sequence = (state.revocationSequence : Int) ∧ Holding issuer verifier set digest

theorem upToDate_create (issuer : Text) (maximumEntries : Option Int) :
    UpToDate issuer ⟨0, none⟩ (.create maximumEntries) :=
  ⟨rfl, rfl, rfl, rfl⟩

theorem checkSequence_next (h : UpToDate issuer state verifier) {digest : Text}
    (hprevious : previousSetDigest state = .ok digest)
    (hissuer : document.field (ascii "issuer") = .string issuer)
    (hdigest : document.field (ascii "previousSetDigest") = .string digest) :
    checkSequence document (state.revocationSequence + 1)
      { previousSet := verifier.previousSet } = .ok () := by
  refine checkSequence_ok.mpr ⟨by omega, fun minimum hminimum => ?_, fun previous hsome => ?_,
    fun hnone hlt => ?_⟩
  · cases hminimum
  · unfold UpToDate previousSetDigest at *
    cases hlast : state.lastRevocationSet with
    | none =>
      simp only [hlast] at h
      exact absurd (h.2.previousSet.symm.trans hsome) (by simp)
    | some last =>
      simp only [hlast] at h hprevious
      obtain ⟨set, shown, rfl, hsequence, hholding⟩ := h
      obtain rfl := Option.some.inj (hholding.previousSet.symm.trans hsome)
      refine ⟨?_, by rw [hsequence], digest, hprevious, ?_⟩
      · rw [hissuer, hholding.issued]
        simp
      · rw [hdigest]
        simp
  · unfold UpToDate at h
    cases hlast : state.lastRevocationSet with
    | none =>
      simp only [hlast] at h
      omega
    | some last =>
      simp only [hlast] at h
      obtain ⟨set, shown, -, -, hholding⟩ := h
      exact absurd (hholding.previousSet.symm.trans hnone) (by simp)

theorem put_next {set : RevocationSet} {verification : RevocationVerification} {digest : Text}
    (h : UpToDate issuer state verifier) (hprevious : previousSetDigest state = .ok digest)
    (hshown : documentDigest set.document = .ok verification.digest)
    (hsequence : set.sequence = state.revocationSequence + 1)
    (hdigest : set.document.field (ascii "previousSetDigest") = .string digest) :
    verifier.cache.put issuer set verification =
      (.ok ((verifier.cache.store issuer ⟨set, verification, verification.digest⟩).get issuer),
        verifier.cache.store issuer ⟨set, verification, verification.digest⟩) := by
  apply RevocationCache.put_stores hshown
  intro current hcurrent
  unfold UpToDate at h
  unfold previousSetDigest at hprevious
  cases hlast : state.lastRevocationSet with
  | none =>
    simp only [hlast] at h
    cases h.2.cached.symm.trans hcurrent
  | some last =>
    simp only [hlast] at h hprevious
    obtain ⟨held, shown, rfl, hheld, hholding⟩ := h
    obtain ⟨_, hcached⟩ := hholding.cached
    obtain rfl := Option.some.inj (hcached.symm.trans hcurrent)
    refine ⟨by rw [hsequence, hheld], ?_⟩
    have hsame : shown = digest := Except.ok.inj (hholding.documentDigest.symm.trans hprevious)
    rw [hdigest, hsame]
    simp

theorem observe_next {set : RevocationSet} {digest shown : Text}
    (h : UpToDate issuer state verifier) (hprevious : previousSetDigest state = .ok digest)
    (hsequence : set.sequence = state.revocationSequence + 1)
    (hdigest : set.document.field (ascii "previousSetDigest") = .string digest) :
    (verifier.store.observe (setObservation issuer set.document shown)).1 = .ok set.sequence ∧
      (verifier.store.observe (setObservation issuer set.document shown)).2.stored
        (ascii "revocation") issuer = some ⟨set.sequence, shown⟩ := by
  have hshows : AntiRollbackStore.Shows (setObservation issuer set.document shown) set.sequence
      shown := ⟨set.safe, by omega, rfl⟩
  have hobserved : (verifier.store.observe (setObservation issuer set.document shown)).1 =
      .ok set.sequence := by
    apply AntiRollbackStore.observe_accepts hshows
    intro current hcurrent
    change verifier.store.stored (ascii "revocation") issuer = some current at hcurrent
    unfold UpToDate at h
    unfold previousSetDigest at hprevious
    cases hlast : state.lastRevocationSet with
    | none =>
      simp only [hlast] at h
      cases h.2.stored.symm.trans hcurrent
    | some last =>
      simp only [hlast] at h hprevious
      obtain ⟨held, known, rfl, hheld, hholding⟩ := h
      obtain rfl := Option.some.inj (hholding.stored.symm.trans hcurrent)
      have hsame : known = digest := Except.ok.inj (hholding.documentDigest.symm.trans hprevious)
      refine .inr ⟨?_, fun _ => ?_, fun _ => ?_⟩
      · change held.sequence < set.sequence
        omega
      · change set.sequence = held.sequence + 1
        omega
      · change (set.document.field (ascii "previousSetDigest")).strictEq (.string known) = true
        rw [hdigest, hsame]
        simp
  refine ⟨hobserved, ?_⟩
  have haccepted : (verifier.store.observe (setObservation issuer set.document shown)).1.isOk =
      true := by
    rw [hobserved]
    rfl
  exact AntiRollbackStore.stored_of_shows haccepted hshows

theorem accept_next {verification : RevocationVerification} {digest : Text}
    (h : UpToDate issuer state verifier) (hprevious : previousSetDigest state = .ok digest)
    (hvalid : validateRevocationSet host document jwks { previousSet := verifier.previousSet } =
      .ok verification)
    (hsequence : verification.sequence = state.revocationSequence + 1)
    (hissuer : document.field (ascii "issuer") = .string issuer)
    (hdigest : document.field (ascii "previousSetDigest") = .string digest) :
    ∃ next, verifier.accept host jwks issuer document = .ok next ∧
      UpToDate issuer ⟨state.revocationSequence + 1, some document⟩ next := by
  have hshown := (validateRevocationSet_iff.mp hvalid).digest
  have hput : verifier.cache.put issuer (.ofValidated hvalid) verification = _ :=
    put_next h hprevious hshown hsequence hdigest
  have hobserve : (verifier.store.observe (setObservation issuer document
        verification.digest)).1 = .ok verification.sequence ∧
      (verifier.store.observe (setObservation issuer document verification.digest)).2.stored
        (ascii "revocation") issuer = some ⟨verification.sequence, verification.digest⟩ :=
    observe_next (show UpToDate issuer state verifier from h) hprevious
      (show (RevocationSet.ofValidated hvalid).sequence = _ from hsequence) hdigest
  obtain ⟨hobserved, hstored⟩ := hobserve
  refine ⟨⟨some (.ofValidated hvalid), verifier.cache.store issuer
    ⟨.ofValidated hvalid, verification, verification.digest⟩,
    (verifier.store.observe (setObservation issuer document verification.digest)).2⟩, ?_, ?_⟩
  · unfold Verifier.accept
    split
    · next failure hfailed => cases hvalid.symm.trans hfailed
    · next found hfound =>
      obtain rfl := Except.ok.inj (hvalid.symm.trans hfound)
      simp only [hput, hobserved, ok_bind]
      rfl
  · refine ⟨.ofValidated hvalid, verification.digest, rfl, hsequence, rfl, hissuer, hshown,
      ⟨verification, RevocationCache.get_store_self _ _ _⟩, hstored⟩

end Verifiers

def purposed (signer : Signer) (purpose : Value) : Signer :=
  { signer with sign := fun message context => signer.sign message { context with purpose := purpose } }

theorem signDocument_purposed (host : Host) (document purpose : Value) (signer : Signer) :
    signDocument host document signer { purpose := purpose } =
      signDocument host document (purposed signer purpose) {} := rfl

theorem holdsKey_purposed {host : Host} {signer : Signer} {key purpose : Value}
    (h : HoldsKey host signer key) : HoldsKey host (purposed signer purpose) key := by
  obtain ⟨publicKey, hpublicKey, hcorrect⟩ := h.correct
  exact ⟨h.kid, publicKey, hpublicKey, fun message context => hcorrect message _⟩

section Signed

variable {host : Host} {toolkit : IssuerToolkit} {input : RevocationInput} {now digest : Text}
  {sequence signed : Value} {signer : Signer}

def generationTime (input : RevocationInput) (now : Text) : Value :=
  input.generatedAt.orElse (.string now)

theorem issuanceMember_payload (hissued : (issuanceMember
      (revocationPayload toolkit input now sequence digest)).isTruthy = true) :
    issuanceMember (revocationPayload toolkit input now sequence digest) =
      generationTime input now := by
  have hmember : issuanceMember (revocationPayload toolkit input now sequence digest) =
      (generationTime input now).orElse .undefined := rfl
  rw [hmember] at hissued ⊢
  rw [Value.orElse] at hissued ⊢
  split
  · rfl
  · next hfalsy =>
    rw [if_neg hfalsy] at hissued
    cases hissued

theorem window_payload : validateTimeWindow host
    (revocationPayload toolkit input now sequence digest) host.dateNow none none = .ok () := rfl

structure SignedFrom (host : Host) (payload signed : Value) : Prop where
  unsigned : withoutProof signed = .ok payload
  fields : ∀ name, name ≠ ascii "proof" → signed.field name = payload.field name
  proof : isMissing (signed.field (ascii "proof")) = false
  visited : visit {} payload 0 = .ok ()
  issued : signedIssuanceTime host payload = .ok (issuanceMember payload)

theorem signedFrom_of_signDocument {payload : Value} (hpayload : withoutProof payload = .ok payload)
    (h : signDocument host payload signer {} = .ok signed) : SignedFrom host payload signed := by
  obtain ⟨members, created, hmembers, hnot, rfl⟩ := signDocument_ok h
  obtain rfl := Except.ok.inj (hpayload.symm.trans hmembers)
  have hkept : members.filter (fun m => m.1 != ascii "proof") = members := by
    apply List.filter_eq_self.mpr
    intro m hm
    simpa using fun hname : m.1 = ascii "proof" => hnot (hname ▸ List.mem_map_of_mem hm)
  constructor
  · refine withoutProof_ok.mpr ⟨_, rfl, ?_⟩
    rw [List.filter_append, hkept]
    simp
  · intro name hname
    have hother : (name == ascii "proof") = false := beq_eq_false_iff_ne.mpr hname
    simp [Value.field, List.lookup_append, List.lookup_cons, List.lookup_nil, hother]
  · have hnone : members.lookup (ascii "proof") = none :=
      List.lookup_eq_none_iff.mpr fun m hm => by
        simpa using fun hname : ascii "proof" = m.1 => hnot (hname ▸ List.mem_map_of_mem hm)
    simp [Value.field, List.lookup_append, hnone, CreatedProof.proof, proofObject, isMissing]
  · exact created.visited
  · obtain ⟨hissued, -⟩ := signedIssuanceTime_ok created.issuedAt_ok
    rw [← hissued]
    exact created.issuedAt_ok

/-- The update, the entries and the subjects that a verifier asks for. -/
structure CompleteInput (input : RevocationInput) : Prop where
  nextUpdate : isMissing input.nextUpdate = false
  nextUpdateText : input.nextUpdate.toText?.isSome = true
  entries : input.entries.isTruthy = false ∨
    ∃ entries, input.entries = .array entries ∧ checkSubjects entries [] = .ok ()

private theorem isMissing_of_truthy {value : Value} (h : value.isTruthy = true) :
    isMissing value = false := by
  cases value with
  | string text => simpa [Value.isTruthy, isMissing] using h
  | undefined => cases h
  | null => cases h
  | _ => rfl

private theorem isMissing_orElse {value fallback : Value} (h : isMissing fallback = false) :
    isMissing (value.orElse fallback) = false := by
  rw [Value.orElse]
  split
  · next htruthy => exact isMissing_of_truthy htruthy
  · exact h

theorem completeSet_signed (hinput : CompleteInput input)
    (hsequence : isMissing sequence = false) (hdigest : digest.isEmpty = false)
    (h : SignedFrom host (revocationPayload toolkit input now sequence digest) signed) :
    CompleteSet signed := by
  obtain ⟨members, rfl, -⟩ := withoutProof_ok.mp h.unsigned
  obtain ⟨-, hissued, time, htime⟩ := signedIssuanceTime_ok h.issued
  have hgenerated := issuanceMember_payload hissued
  rw [hgenerated] at hissued htime
  have hfield {name : Text} (hname : name ≠ ascii "proof") := h.fields name hname
  constructor
  · refine requireFields_ok.mpr ⟨rfl, ?_⟩
    simp only [revocationSetFields, List.forall_mem_cons]
    refine ⟨?_, ?_, ?_, ?_, ?_, ?_, ?_, ?_, ?_, ?_, ?_, List.forall_mem_nil _⟩
    · rw [hfield (by decide)]
      exact isMissing_of_truthy toolkit.protocolVersion_truthy
    · rw [hfield (by decide)]
      rfl
    · rw [hfield (by decide)]
      exact isMissing_orElse rfl
    · rw [hfield (by decide)]
      exact List.isEmpty_eq_false_iff.mpr toolkit.issuerId_nonempty
    · rw [hfield (by decide)]
      exact hsequence
    · rw [hfield (by decide)]
      exact isMissing_of_truthy hissued
    · rw [hfield (by decide)]
      exact hinput.nextUpdate
    · rw [hfield (by decide)]
      exact isMissing_orElse rfl
    · rw [hfield (by decide)]
      exact hdigest
    · rw [hfield (by decide)]
      exact isMissing_orElse rfl
    · exact h.proof
  · have hentries : ∃ entries, input.entries.orElse (.array []) = .array entries ∧
        checkSubjects entries [] = .ok () := by
      obtain hfalsy | ⟨entries, hentries, hsubjects⟩ := hinput.entries
      · exact ⟨[], by rw [Value.orElse, hfalsy]; rfl, rfl⟩
      · exact ⟨entries, by rw [hentries]; rfl, hsubjects⟩
    obtain ⟨entries, hentries, hsubjects⟩ := hentries
    refine ⟨entries, (hfield (by decide)).trans hentries, ?_, hsubjects⟩
    have hvisited := h.visited
    rw [revocationPayload, visit_object] at hvisited
    have hmember := (hvisited.2 (ascii "entries", input.entries.orElse (.array []))
      (by simp)).2
    rw [hentries, visit_array] at hmember
    exact hmember.2.1
  · simp only [List.forall_mem_cons]
    rw [hfield (by decide), hfield (by decide)]
    refine ⟨?_, hinput.nextUpdateText, List.forall_mem_nil _⟩
    simp only [parseDate, bind_ok, orThrow_ok] at htime
    obtain ⟨text, htext, -⟩ := htime
    exact Option.isSome_iff_exists.mpr ⟨text, htext⟩

end Signed

section Calls

variable {host : Host} {toolkit : IssuerToolkit} {state : RevocationState}
  {jwks : Value} {validatedJwks : ValidatedJwks} {pending : PendingSet}

theorem requestedSequence_next {input : RevocationInput} {value : Value} {sequence : ℕ}
    (hbound : state.revocationSequence < 2 ^ 53)
    (hnext : input.sequence.isTruthy = true →
      input.sequence.safeInteger? = some ((state.revocationSequence : Int) + 1))
    (h : requestedSequence state input = .ok (value, sequence)) :
    value.safeInteger? = some ((state.revocationSequence : Int) + 1) ∧
      sequence = state.revocationSequence + 1 ∧ sequence < 2 ^ 53 := by
  simp only [requestedSequence, bind_ok, orThrow_ok, throwWhen_ok, exists_unit, pure_ok,
    Prod.mk.injEq] at h
  obtain ⟨z, hsafe, -, rfl, rfl⟩ := h
  have hz : z = (state.revocationSequence : Int) + 1 := by
    cases htruthy : input.sequence.isTruthy with
    | true =>
      rw [Value.orElse, htruthy, if_pos rfl, hnext htruthy] at hsafe
      exact (Option.some.inj hsafe).symm
    | false =>
      rw [Value.orElse, htruthy, if_neg (by simp)] at hsafe
      change (Number.ofNat (state.revocationSequence + 1)).safeInteger? = some z at hsafe
      by_cases hlt : state.revocationSequence + 1 < 2 ^ 53
      · rw [Number.safeInteger?_ofNat hlt] at hsafe
        exact (Option.some.inj hsafe).symm
      · rw [show state.revocationSequence + 1 = 2 ^ 53 by omega,
          Number.safeInteger?_ofNat_limit] at hsafe
        cases hsafe
  subst hz
  have hlt := Value.safeInteger?_lt hsafe
  exact ⟨hsafe, by omega, by omega⟩

theorem beginRevocationSet_ok {request : RevocationRequest}
    (h : beginRevocationSet toolkit state request = .ok pending) :
    ∃ value digest, requestedSequence state request.input = .ok (value, pending.sequence) ∧
      previousSetDigest state = .ok digest ∧ pending.payload =
        revocationPayload toolkit request.input request.now value digest ∧
      pending.request = request ∧ pending.found = state := by
  simp only [beginRevocationSet, bind_ok, pure_ok, Prod.exists] at h
  obtain ⟨value, sequence, hsequence, digest, hdigest, signer, -, rfl⟩ := h
  exact ⟨value, digest, hsequence, hdigest, rfl, rfl, rfl⟩

theorem previousSetDigest_isEmpty {digest : Text} (h : previousSetDigest state = .ok digest) :
    digest.isEmpty = false := by
  unfold previousSetDigest at h
  split at h
  · exact documentDigest_isEmpty h
  · obtain rfl := pure_ok.mp h
    rfl

/-- A call that ends in the state in which it began, and what it may ask for. -/
structure Orderly (host : Host) (keys : List Value) (state : RevocationState)
    (pending : PendingSet) : Prop where
  alone : pending.found = state
  next : pending.request.input.sequence.isTruthy = true →
    pending.request.input.sequence.safeInteger? = some ((state.revocationSequence : Int) + 1)
  input : CompleteInput pending.request.input
  generatedAt :
    (generationTime pending.request.input pending.request.now).isObjectLike = false
  key : ∃ key ∈ keys, HoldsKey host pending.signer key ∧ SuitableKey host key revocationSigning
    (generationTime pending.request.input pending.request.now)

theorem accept_signed {signed : Value} {verifier : Verifier}
    (hjwks : validateJwks host jwks {} = .ok validatedJwks)
    (hbound : state.revocationSequence < 2 ^ 53)
    (hbegun : beginRevocationSet toolkit pending.found pending.request = .ok pending)
    (hsigned : pending.sign host = .ok signed)
    (horderly : Orderly host validatedJwks.keys state pending)
    (hverifier : UpToDate toolkit.issuerId state verifier) :
    pending.sequence = state.revocationSequence + 1 ∧ pending.sequence < 2 ^ 53 ∧
      (signed.field (ascii "sequence")).safeInteger? =
        some ((state.revocationSequence : Int) + 1) ∧
      ∃ next, verifier.accept host jwks toolkit.issuerId signed = .ok next ∧
        UpToDate toolkit.issuerId ⟨state.revocationSequence + 1, some signed⟩ next := by
  rw [horderly.alone] at hbegun
  obtain ⟨value, digest, hrequested, hprevious, hpayload, -, -⟩ := beginRevocationSet_ok hbegun
  obtain ⟨hsafe, hsequence, hlt⟩ := requestedSequence_next hbound horderly.next hrequested
  rw [PendingSet.sign, signDocument_purposed, hpayload] at hsigned
  have hfrom := signedFrom_of_signDocument rfl hsigned
  have hmissing : isMissing value = false := by
    cases value with
    | number n => rfl
    | _ => cases hsafe
  have hcomplete := completeSet_signed horderly.input hmissing
    (previousSetDigest_isEmpty hprevious) hfrom
  obtain ⟨-, hissued, -⟩ := signedIssuanceTime_ok hfrom.issued
  have hgenerated := issuanceMember_payload hissued
  obtain ⟨key, hkey, hholds, hsuitable⟩ := horderly.key
  rw [← hgenerated] at hsuitable
  obtain ⟨result, hproof⟩ := verifyDocument_signDocument hsigned rfl
    (hgenerated ▸ horderly.generatedAt) window_payload hjwks hkey (holdsKey_purposed hholds) hsuitable
  have hissuer : signed.field (ascii "issuer") = .string toolkit.issuerId :=
    hfrom.fields _ (by decide)
  have hsigned' : (signed.field (ascii "sequence")).safeInteger? =
      some ((state.revocationSequence : Int) + 1) := by
    rw [hfrom.fields _ (by decide)]
    exact hsafe
  have hdigest : signed.field (ascii "previousSetDigest") = .string digest :=
    hfrom.fields _ (by decide)
  have htruthy : (Value.string toolkit.issuerId).isTruthy = true := by
    rw [Value.isTruthy, List.isEmpty_eq_false_iff.mpr toolkit.issuerId_nonempty]
    rfl
  have hoptions : DefaultOptions signed { previousSet := verifier.previousSet } :=
    ⟨rfl, rfl, .inl rfl⟩
  obtain ⟨verification, hvalid, hverified⟩ := validateRevocationSet_of_proof hproof
    ⟨rfl, htruthy, (Value.strictEq_string _ _).mpr rfl⟩ hissuer hoptions hcomplete hsigned'
    (checkSequence_next hverifier hprevious hissuer hdigest)
  exact ⟨hsequence, hlt, hsigned',
    accept_next hverifier hprevious hvalid hverified hissuer hdigest⟩

end Calls

section Runs

variable {host : Host} {toolkit : IssuerToolkit} {jwks : Value} {validatedJwks : ValidatedJwks}

def OrderlyStep (host : Host) (keys : List Value) (world : IssuerWorld) : IssuerStep → Prop
  | .start _ _ => True
  | .finish call => ∀ pending, world.pending call = some pending →
      (pending.sign host).isOk = true → Orderly host keys world.state pending

/-- A verifier accepts the issued sets in their order. -/
def Accepted (host : Host) (jwks : Value) (issuer : Text) (maximumEntries : Option Int)
    (issued : List Value) (verifier : Verifier) : Prop :=
  issued.foldlM (Verifier.accept host jwks issuer) (.create maximumEntries) = .ok verifier

def Consecutive (issued : List Value) : Prop :=
  ∀ (k : ℕ) (signed : Value), issued[k]? = some signed →
    (signed.field (ascii "sequence")).safeInteger? = some ((k : Int) + 1)

structure Agreed (host : Host) (toolkit : IssuerToolkit) (jwks : Value)
    (maximumEntries : Option Int) (world : IssuerWorld) : Prop where
  bound : world.state.revocationSequence < 2 ^ 53
  count : world.issued.length = world.state.revocationSequence
  consecutive : Consecutive world.issued
  begun : ∀ call pending, world.pending call = some pending →
    beginRevocationSet toolkit pending.found pending.request = .ok pending
  accepted : ∃ verifier, Accepted host jwks toolkit.issuerId maximumEntries world.issued verifier ∧
    UpToDate toolkit.issuerId world.state verifier

theorem agreed_initial (maximumEntries : Option Int) :
    Agreed host toolkit jwks maximumEntries .initial where
  bound := by decide
  count := rfl
  consecutive k signed h := by cases h
  begun call pending h := by cases h
  accepted := ⟨.create maximumEntries, rfl, upToDate_create toolkit.issuerId maximumEntries⟩

theorem begun_update {world : IssuerWorld} {maximumEntries : Option Int} {call : ℕ}
    (h : Agreed host toolkit jwks maximumEntries world) (other : ℕ) (pending : PendingSet)
    (hpending : Function.update world.pending call none other = some pending) :
    beginRevocationSet toolkit pending.found pending.request = .ok pending := by
  rw [Function.update_apply] at hpending
  split at hpending
  · cases hpending
  · exact h.begun other pending hpending

theorem agreed_step {world : IssuerWorld} {maximumEntries : Option Int}
    (hjwks : validateJwks host jwks {} = .ok validatedJwks) (step : IssuerStep)
    (h : Agreed host toolkit jwks maximumEntries world)
    (hstep : OrderlyStep host validatedJwks.keys world step) :
    Agreed host toolkit jwks maximumEntries (issuerStep host toolkit world step) := by
  cases step with
  | start call request =>
    cases hbegin : beginRevocationSet toolkit world.state request with
    | error failure =>
      simp only [issuerStep, hbegin]
      exact h
    | ok begun =>
      simp only [issuerStep, hbegin]
      refine ⟨h.bound, h.count, h.consecutive, fun other pending hpending => ?_, h.accepted⟩
      change Function.update world.pending call (some begun) other = some pending at hpending
      rw [Function.update_apply] at hpending
      split at hpending
      · obtain rfl := Option.some.inj hpending
        obtain ⟨_, _, _, _, _, hrequest, hfound⟩ := beginRevocationSet_ok hbegin
        rw [hrequest, hfound]
        exact hbegin
      · exact h.begun other pending hpending
  | finish call =>
    cases hcall : world.pending call with
    | none =>
      simp only [issuerStep, hcall]
      exact h
    | some pending =>
      cases hsigned : pending.sign host with
      | error failure =>
        simp only [issuerStep, hcall, hsigned]
        exact ⟨h.bound, h.count, h.consecutive, begun_update h, h.accepted⟩
      | ok signed =>
        simp only [issuerStep, hcall, hsigned]
        obtain ⟨verifier, haccepted, hupToDate⟩ := h.accepted
        have horderly := hstep pending hcall (by rw [hsigned]; rfl)
        obtain ⟨hsequence, hlt, hshown, next, hnext, hlast⟩ := accept_signed hjwks h.bound
          (h.begun call pending hcall) hsigned horderly hupToDate
        refine ⟨hlt, ?_, ?_, begun_update h, next, ?_, ?_⟩
        · rw [List.length_append, h.count, hsequence]
          rfl
        · intro k other hother
          obtain hlt | rfl | hgt := Nat.lt_trichotomy k world.issued.length
          · rw [List.getElem?_append_left hlt] at hother
            exact h.consecutive k other hother
          · rw [List.getElem?_concat_length] at hother
            obtain rfl := Option.some.inj hother
            rw [h.count]
            exact hshown
          · rw [List.getElem?_eq_none (by simp; omega)] at hother
            cases hother
        · rw [Accepted, List.foldlM_append]
          exact bind_ok.mpr ⟨verifier, haccepted, bind_ok.mpr ⟨next, hnext, rfl⟩⟩
        · rw [hsequence]
          exact hlast

theorem Consecutive.unique {issued : List Value} (h : Consecutive issued) {a b : Value}
    (ha : a ∈ issued) (hb : b ∈ issued) (hsame : (a.field (ascii "sequence")).safeInteger? =
      (b.field (ascii "sequence")).safeInteger?) : a = b := by
  obtain ⟨i, hi⟩ := List.mem_iff_getElem?.mp ha
  obtain ⟨j, hj⟩ := List.mem_iff_getElem?.mp hb
  rw [h i a hi, h j b hj] at hsame
  have hij : i = j := by
    have hsequence := Option.some.inj hsame
    omega
  rw [hij, hj] at hi
  exact (Option.some.inj hi).symm

/-- In a run whose calls do not overlap and keep to the sequence, no two different sets have one
sequence, and a verifier accepts the sets in the order of their sequences. -/
theorem issued_sets_accepted (host : Host) (toolkit : IssuerToolkit) (jwks : Value)
    (validatedJwks : ValidatedJwks) (hjwks : validateJwks host jwks {} = .ok validatedJwks)
    (steps : List IssuerStep) (hsteps : Guarded (issuerStep host toolkit)
      (OrderlyStep host validatedJwks.keys) .initial steps) (maximumEntries : Option Int) :
    (∀ a ∈ (after (issuerStep host toolkit) .initial steps).issued,
      ∀ b ∈ (after (issuerStep host toolkit) .initial steps).issued,
        (a.field (ascii "sequence")).safeInteger? = (b.field (ascii "sequence")).safeInteger? →
          a = b) ∧
      Consecutive (after (issuerStep host toolkit) .initial steps).issued ∧
      ∃ verifier, Accepted host jwks toolkit.issuerId maximumEntries
        (after (issuerStep host toolkit) .initial steps).issued verifier := by
  have hagreed : Agreed host toolkit jwks maximumEntries
      (after (issuerStep host toolkit) .initial steps) :=
    hsteps.after_induction (agreed_initial maximumEntries) fun world step hworld hstep =>
      agreed_step hjwks step hworld hstep
  obtain ⟨verifier, haccepted, -⟩ := hagreed.accepted
  exact ⟨fun a ha b hb => hagreed.consecutive.unique ha hb, hagreed.consecutive, verifier,
    haccepted⟩

end Runs

section Overlap

private def overlapToolkit : IssuerToolkit :=
  ⟨ascii "https://issuer.example", .string (ascii "ghostbridge/0.1-draft"), by decide, by decide⟩

private def overlapInput (revocationSetId : String) : RevocationInput where
  revocationSetId := .string (ascii revocationSetId)
  generatedAt := newYear
  nextUpdate := .string (ascii "2027-01-01T00:00:00.000Z")

private def overlapPayload (revocationSetId : String) : Value :=
  revocationPayload overlapToolkit (overlapInput revocationSetId) [] (.number (.ofNat 1))
    (ascii "none")

private def overlapSignatures : List RecordedSignature :=
  [⟨issuerX, signingInput (ascii "k1") (overlapPayload "first"), Base64Url.decode (ascii
      "Q5GNIavXYbvq8d0LR4hy_mFRlOqXTR53GkiDqmifzZVJMjn3eJx9EjIESptwUcbS1xGAmb46vNT4nI3DopElDg")⟩,
    ⟨issuerX, signingInput (ascii "k1") (overlapPayload "second"), Base64Url.decode (ascii
      "gPtCYuEtLZBaPneXF1U8YHN_oz3e7-RuTo6aVRa0iWF-7IojsKE_ZQy4yHsLvYaqc18VaGmYLnQY9m6zDgqMCw")⟩]

private def overlapHost : Host := recordedHost 1780272000000 recordedDates overlapSignatures

private def overlapSigner : Signer := recordedSigner (ascii "k1") issuerX overlapSignatures

private def overlapKey : Value :=
  signingJwk (ascii "k1") issuerX (ascii "LgcH0TbCKoRrt1NMhP8XJsjpadruUurO3I35x25xRCk")
    (ascii "revocation_signing")

private def overlapJwks : Value := .object [(ascii "keys", .array [overlapKey])]

private def overlapRequest (revocationSetId : String) : RevocationRequest :=
  ⟨overlapInput revocationSetId, .ok overlapSigner, []⟩

private def overlapPending (revocationSetId : String) : PendingSet :=
  ⟨overlapRequest revocationSetId, ⟨0, none⟩, 1, overlapPayload revocationSetId, overlapSigner⟩

private theorem overlap_begins (revocationSetId : String) :
    beginRevocationSet overlapToolkit ⟨0, none⟩ (overlapRequest revocationSetId) =
      .ok (overlapPending revocationSetId) := by
  have hrequested : requestedSequence ⟨0, none⟩ (overlapInput revocationSetId) =
      .ok (.number (.ofNat 1), 1) := by
    have hsafe := Number.safeInteger?_ofNat (show 1 < 2 ^ 53 by decide)
    simp only [requestedSequence, overlapInput, Value.orElse, Value.isTruthy]
    change (orThrow _ (Number.ofNat 1).safeInteger? >>= _) = _
    rw [hsafe]
    rfl
  simp only [beginRevocationSet, overlapRequest, hrequested, ok_bind]
  rfl

private theorem overlap_signs : ∀ revocationSetId ∈ ["first", "second"],
    ((overlapPending revocationSetId).sign overlapHost).isOk = true := by
  decide +kernel

/-- Two calls that overlap issue two sets of one sequence. -/
theorem overlapping_sets_share_a_sequence : ∃ first second : Value,
    (after (issuerStep overlapHost overlapToolkit) .initial
      [.start 0 (overlapRequest "first"), .start 1 (overlapRequest "second"), .finish 0,
        .finish 1]).issued = [first, second] ∧ first ≠ second ∧
      (first.field (ascii "sequence")).safeInteger? =
        (second.field (ascii "sequence")).safeInteger? := by
  obtain ⟨first, hfirst⟩ := exists_of_isOk (overlap_signs "first" (by simp))
  obtain ⟨second, hsecond⟩ := exists_of_isOk (overlap_signs "second" (by simp))
  refine ⟨first, second, ?_, fun hsame => ?_, ?_⟩
  · simp only [after_cons, after_nil, issuerStep, IssuerWorld.initial, overlap_begins,
      Function.update_self, Function.update_of_ne (show (0 : ℕ) ≠ 1 by decide),
      Function.update_of_ne (show (1 : ℕ) ≠ 0 by decide), hfirst, hsecond]
    rfl
  · have hone := (signedFrom_of_signDocument rfl hfirst).fields (ascii "revocationSetId") (by decide)
    have htwo := (signedFrom_of_signDocument rfl hsecond).fields (ascii "revocationSetId") (by decide)
    rw [hsame, htwo] at hone
    revert hone
    decide
  · have hone := (signedFrom_of_signDocument rfl hfirst).fields (ascii "sequence") (by decide)
    have htwo := (signedFrom_of_signDocument rfl hsecond).fields (ascii "sequence") (by decide)
    rw [hone, htwo]
    rfl

private theorem validateJwks_overlap :
    validateJwks overlapHost overlapJwks {} = .ok ⟨overlapJwks, [overlapKey]⟩ := by
  decide +kernel

private theorem orderly_first :
    Orderly overlapHost [overlapKey] ⟨0, none⟩ (overlapPending "first") where
  alone := rfl
  next htruthy := by cases htruthy
  input := ⟨rfl, rfl, .inl rfl⟩
  generatedAt := rfl
  key := by
    refine ⟨overlapKey, List.mem_cons_self, holdsKey_recorded (by decide) rfl rfl,
      ⟨fun _ => by decide, by decide, ?_⟩⟩
    exact ⟨1767225600000, 1735689600000, 1798761600000, by decide, by decide, by decide +kernel,
      by decide, by decide⟩

theorem issued_sets_accepted_one : Consecutive
    (after (issuerStep overlapHost overlapToolkit) .initial
      [.start 0 (overlapRequest "first"), .finish 0]).issued := by
  have hguarded : Guarded (issuerStep overlapHost overlapToolkit)
      (OrderlyStep overlapHost [overlapKey]) .initial
      [.start 0 (overlapRequest "first"), .finish 0] := by
    refine ⟨trivial, fun pending hpending _ => ?_, trivial⟩
    simp only [issuerStep, IssuerWorld.initial, overlap_begins, Function.update_self] at hpending ⊢
    obtain rfl := Option.some.inj hpending
    exact orderly_first
  exact (issued_sets_accepted overlapHost overlapToolkit overlapJwks _ validateJwks_overlap _
    hguarded none).2.1

end Overlap

end GhostBridge.Issuer
