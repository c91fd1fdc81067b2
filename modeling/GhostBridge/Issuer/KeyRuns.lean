import GhostBridge.Issuer.KeyLifecycle

/-!
# Runs of an issuer's operations on keys

Keys are created and destroyed, sign and move.
-/

namespace GhostBridge.Issuer

open Ecma Machine Operation Trust ProtocolCore

variable {PrivateKey : Type} {keys : IssuerKeys PrivateKey}

theorem auditable_texts {texts : List Text} (hlength : texts.length ≤ 256)
    (h : ∀ text ∈ texts, text.length ≤ 65536) : Auditable (.array (texts.map .string)) := by
  have hitems : removeUndefinedItems (texts.map Value.string) = texts.map .string := by
    clear hlength h
    induction texts with
    | nil => rfl
    | cons text texts ih =>
      rw [List.map_cons, removeUndefinedItems, ih]
      rfl
  right
  rw [removeUndefined, hitems, plain_array, List.length_map, List.forall_mem_map]
  exact ⟨by decide, hlength, fun text htext => (plain_string text).mpr ⟨by decide, h text htext⟩⟩

theorem requestedPurposes_ok {purpose : Value} {purposes : List Text}
    (h : requestedPurposes purpose = .ok purposes) :
    Auditable (.array (purposes.map .string)) := by
  simp only [requestedPurposes, bind_ok, throwWhen_ok, exists_unit, pure_ok] at h
  obtain ⟨found, hfound, -, rfl⟩ := h
  have hsupported : ∀ text ∈ distinct found, text ∈ keyPurposes := by
    intro text htext
    rw [mem_distinct] at htext
    obtain ⟨i, hi⟩ := List.mem_iff_getElem.mp htext
    obtain ⟨hlt, rfl⟩ := hi
    have hmapped := mapM_ok.mp hfound
    obtain ⟨hlength, hall⟩ := List.forall₂_iff_get.mp hmapped
    have hone := hall i (by omega) hlt
    simp only [List.get_eq_getElem] at hone
    split at hone
    · split at hone
      · next hcontains =>
        obtain rfl := pure_ok.mp hone
        exact List.contains_iff_mem.mp hcontains
      · cases hone
    · cases hone
  have hlength : (distinct found).length ≤ keyPurposes.length :=
    ((nodup_distinct found).subperm hsupported).length_le
  apply auditable_texts
  · exact hlength.trans (by decide)
  · intro text htext
    have hbound : ∀ purpose ∈ keyPurposes, purpose.length ≤ 65536 := by decide
    exact hbound text (hsupported text htext)

theorem requestedKid_ok {request : KeyRequest PrivateKey} {kid : Text}
    (h : requestedKid request = .ok kid) : isKeyIdentifier kid = true := by
  simp only [requestedKid, bind_ok, throwWhen_ok, exists_unit, pure_ok] at h
  obtain ⟨_, -, hkid, rfl⟩ := h
  simpa using hkid

theorem generatedRecord_ok {request : KeyRequest PrivateKey} {kid : Text} {purposes : List Text}
    {record : KeyRecord PrivateKey} (h : generatedRecord request kid purposes = .ok record) :
    record.metadata.state = .generated := by
  simp only [generatedRecord, bind_ok, pure_ok] at h
  obtain ⟨_, -, _, -, rfl⟩ := h
  rfl

theorem listPublicKeys_generated {kid : Text} {record : KeyRecord PrivateKey}
    (hfresh : keys.records.has kid = false) (hstate : record.metadata.state = .generated) :
    (keys.store kid record).listPublicKeys false = keys.listPublicKeys false := by
  have hentries : (keys.store kid record).records.entries =
      keys.records.entries ++ [(kid, record)] := by
    unfold IssuerKeys.store OrderedMap.set
    rw [dif_neg (by rw [hfresh]; decide)]
  unfold IssuerKeys.listPublicKeys
  rw [hentries, List.map_append, List.filter_append]
  simp [hstate]

theorem regular_created {kid : Text} {record : KeyRecord PrivateKey} (hsound : Sound keys)
    (hkid : isKeyIdentifier kid = true) (hfresh : keys.records.has kid = false)
    (hnew : kid ∉ keys.destroyed) (hstate : record.metadata.state = .generated) :
    Regular keys ((.ok record.metadata : Except KeyFailure KeyMetadata),
      keys.store kid record) := by
  have hnone : keys.records.get? kid = none := by
    rw [OrderedMap.has_eq_isSome] at hfresh
    exact Option.not_isSome_iff_eq_none.mp (by rw [hfresh]; decide)
  have hother {other : Text} (hne : other ≠ kid) :
      (keys.store kid record).records.get? other = keys.records.get? other :=
    OrderedMap.get?_set_of_ne _ hne record
  refine ⟨⟨fun other found hfound => ?_, fun other hdestroyed => ?_⟩, ⟨fun other found hfound => ?_,
    fun _ h => h⟩, fun hfalse => (by cases hfalse),
    fun hchanged => absurd (listPublicKeys_generated hfresh hstate) hchanged⟩
  · by_cases hne : other = kid
    · rw [hne]
      exact hkid
    · rw [hother hne] at hfound
      exact hsound.identified other found hfound
  · have hne : other ≠ kid := fun heq => hnew (heq ▸ hdestroyed)
    rw [hother hne]
    exact hsound.forgotten other hdestroyed
  · have hne : other ≠ kid := by
      rintro rfl
      cases hnone.symm.trans hfound
    rw [← hother hne] at hfound
    exact .inl ⟨found, hfound, .refl found⟩

theorem regular_createKey {request : KeyRequest PrivateKey} (hsound : Sound keys)
    (hproper : Proper keys (.createKey request)) :
    Regular keys (perform (createKey request) keys) := by
  unfold createKey
  cases hkid : requestedKid request with
  | error failure =>
    rw [perform_bind_error (by rw [perform_lift])]
    exact regular_unchanged hsound _
  | ok kid =>
    rw [perform_bind_ok (by rw [perform_lift]), perform_bind_ok perform_get]
    cases hhas : keys.records.has kid with
    | true =>
      rw [perform_bind_error (show perform (liftM (throwWhen true _)) keys = (.error _, keys) from
        rfl)]
      exact regular_unchanged hsound _
    | false =>
      rw [perform_bind_ok (show perform (liftM (throwWhen false _)) keys = (.ok (), keys) from rfl)]
      cases hpurposes : requestedPurposes request.purpose with
      | error failure =>
        rw [perform_bind_error (by rw [perform_lift])]
        exact regular_unchanged hsound _
      | ok purposes =>
        rw [perform_bind_ok (by rw [perform_lift])]
        cases hrecord : generatedRecord request kid purposes with
        | error failure =>
          rw [perform_bind_error (by rw [perform_lift])]
          exact regular_unchanged hsound _
        | ok record =>
          have hemit : emit [(ascii "kid", .string kid),
              (ascii "purpose", .array (purposes.map .string))] = .ok () := by
            apply emit_ok
            simp only [List.forall_mem_cons]
            exact ⟨⟨by decide, auditable_kid (requestedKid_ok hkid)⟩,
              ⟨by decide, requestedPurposes_ok hpurposes⟩, List.forall_mem_nil _⟩
          rw [perform_bind_ok (by rw [perform_lift]), perform_bind_ok (perform_modify _),
            perform_lift_bind_ok hemit, perform_getPublicKey_store]
          exact regular_created hsound (requestedKid_ok hkid) hhas (hproper kid hkid)
            (generatedRecord_ok hrecord)

theorem regular_destroyTestKey {kid : Text} (hsound : Sound keys)
    (hproper : Proper keys (.destroyTestKey kid)) :
    Regular keys (perform (destroyTestKey kid) keys) := by
  unfold destroyTestKey
  cases hrecord : keys.records.get? kid with
  | none =>
    obtain ⟨failure, hfailure⟩ := perform_requireRecord_none hrecord
    rw [perform_bind_error hfailure]
    exact regular_unchanged hsound _
  | some record =>
    have hemit : emit [(ascii "kid", .string kid)] = .ok () := by
      apply emit_ok
      simp only [List.forall_mem_cons]
      exact ⟨⟨by decide, auditable_kid (hsound.identified kid record hrecord)⟩,
        List.forall_mem_nil _⟩
    rw [perform_bind_ok (perform_requireRecord hrecord), perform_bind_ok (perform_modify _),
      perform_lift_bind_ok hemit, perform_pure]
    have hother {other : Text} (hne : other ≠ kid) :
        (keys.records.delete kid).get? other = keys.records.get? other :=
      OrderedMap.get?_delete_of_ne _ hne
    refine ⟨⟨fun other found hfound => ?_, fun other hdestroyed => ?_⟩,
      ⟨fun other found hfound => ?_, fun other h => List.mem_cons_of_mem _ h⟩,
      fun hfalse => (by cases hfalse), fun hchanged => absurd ?_ hchanged⟩
    · by_cases hne : other = kid
      · rw [hne]
        exact hsound.identified kid record hrecord
      · exact hsound.identified other found ((hother hne).symm.trans hfound)
    · by_cases hne : other = kid
      · rw [hne]
        exact OrderedMap.get?_delete_self _ _
      · exact (hother hne).trans
          (hsound.forgotten other ((List.mem_cons.mp hdestroyed).resolve_left hne))
    · by_cases hne : other = kid
      · exact .inr (hne ▸ List.mem_cons_self)
      · exact .inl ⟨found, (hother hne).trans hfound, .refl found⟩
    · have hstate := hproper record hrecord
      change ((keys.records.entries.filter fun e => !(e.1 == kid)).map _).filter _ = _
      unfold IssuerKeys.listPublicKeys
      rw [List.filter_map, List.filter_map, List.filter_filter]
      congr 1
      apply List.filter_congr
      intro entry hentry
      by_cases hne : entry.1 = kid
      · have hsame : keys.records.get? kid = some entry.2 :=
          OrderedMap.get?_eq_some.mpr (hne ▸ hentry)
        obtain rfl := Option.some.inj (hrecord.symm.trans hsame)
        simp [hne, hstate]
      · simp [hne]

theorem readOnly_requireRecord (kid : Text) :
    ReadOnly (requireRecord kid : KeyOperation PrivateKey (KeyRecord PrivateKey)) :=
  readOnly_get.bind fun _ => readOnly_lift _

theorem readOnly_sign (cryptoSign : PrivateKey → Bytes → Bytes) (kid : Text) (data : Bytes)
    (context : SigningContext) : ReadOnly (sign cryptoSign kid data context) :=
  (readOnly_requireRecord kid).bind fun _ => (readOnly_lift _).bind fun _ =>
    (readOnly_lift _).bind fun _ => (readOnly_lift _).bind fun _ => readOnly_pure _

theorem perform_requireRecord_ok {kid : Text} {record : KeyRecord PrivateKey}
    {last : IssuerKeys PrivateKey} (h : perform (requireRecord kid) keys = (.ok record, last)) :
    keys.records.get? kid = some record ∧ last = keys := by
  cases hfound : keys.records.get? kid with
  | none =>
    obtain ⟨failure, hfailure⟩ := perform_requireRecord_none hfound
    cases hfailure.symm.trans h
  | some found =>
    obtain ⟨houtcome, rfl⟩ := Prod.mk.inj ((perform_requireRecord hfound).symm.trans h)
    exact ⟨congrArg some (Except.ok.inj houtcome), rfl⟩

/-- A signature is made by an active key that has the purpose, where one is asked for. -/
structure SignedBy (cryptoSign : PrivateKey → Bytes → Bytes) (record : KeyRecord PrivateKey)
    (data : Bytes) (purpose : Value) (signature : Bytes) : Prop where
  active : record.metadata.state = .active
  purpose : purpose.isTruthy = true → ∃ name ∈ record.metadata.purpose, purpose = .string name
  signature : signature = cryptoSign record.privateKey data

theorem sign_ok {cryptoSign : PrivateKey → Bytes → Bytes} {kid : Text} {data : Bytes}
    {context : SigningContext} {signature : Bytes} {last : IssuerKeys PrivateKey}
    (h : perform (sign cryptoSign kid data context) keys = (.ok signature, last)) :
    ∃ record, keys.records.get? kid = some record ∧
      SignedBy cryptoSign record data context.purpose signature := by
  unfold sign at h
  simp only [bind_returns, perform_lift, perform_pure, Prod.mk.injEq, throwWhen_ok, exists_unit,
    Except.ok.injEq] at h
  obtain ⟨record, found, hrecord, _, ⟨hactive, -⟩, _, -, _, ⟨hpurpose, -⟩, hsignature, -⟩ := h
  obtain ⟨hrecord, -⟩ := perform_requireRecord_ok hrecord
  refine ⟨record, hrecord, by simpa using hactive, fun htruthy => ?_, hsignature.symm⟩
  rw [htruthy, Bool.true_and, Bool.not_eq_false'] at hpurpose
  obtain ⟨value, hvalue, hsame⟩ := List.any_eq_true.mp hpurpose
  obtain ⟨name, hname, rfl⟩ := List.mem_map.mp hvalue
  refine ⟨name, hname, ?_⟩
  cases hcontext : context.purpose <;> simp_all [Value.sameValueZero]

section Runs

variable {cryptoSign : PrivateKey → Bytes → Bytes}

theorem regular_call (call : KeyCall PrivateKey) (hsound : Sound keys)
    (hproper : Proper keys call) : Regular keys (perform (call.operation cryptoSign) keys) := by
  cases call with
  | createKey request => exact (regular_createKey hsound hproper).map _
  | prepublishKey kid sequence now => exact (regular_moveKey hsound hproper).map _
  | activateKey kid sequence now =>
    refine (regular_moveKey hsound fun hadmitted => ⟨hproper hadmitted, ?_⟩).map _
    obtain ⟨record, -, hadmits⟩ := hadmitted
    exact positive_finite (hadmits.numbered (.inl rfl))
  | beginRotation oldKeyId newKeyId sequence now =>
    exact (regular_beginRotation hsound hproper).map _
  | retireKey kid sequence now =>
    refine (regular_moveKey hsound fun hadmitted => ⟨hproper hadmitted, ?_⟩).map _
    obtain ⟨record, -, hadmits⟩ := hadmitted
    exact positive_finite (hadmits.numbered (.inr (.inr rfl)))
  | compromiseKey kid options now => exact (regular_compromiseKey hsound hproper).map _
  | revokeKey kid options now => exact (regular_revokeKey hsound hproper).map _
  | sign kid data context =>
    have hunchanged := readOnly_sign cryptoSign kid data context keys
    refine Regular.map _ ?_
    rcases hperform : perform (sign cryptoSign kid data context) keys with ⟨outcome, last⟩
    rw [hperform] at hunchanged
    change last = keys at hunchanged
    rw [hunchanged]
    exact regular_unchanged hsound _
  | transitionKeyState kid nextState options now =>
    refine (regular_error hsound ?_).map _
    apply transition_refused
    intro record next hrecord hnamed hadmits
    exact hproper next hnamed ⟨record, hrecord, hadmits⟩
  | destroyTestKey kid => exact (regular_destroyTestKey hsound hproper).map _

theorem sound_initial (metadataSequence : Number) :
    Sound (IssuerKeys.initial metadataSequence : IssuerKeys PrivateKey) :=
  ⟨fun kid record h => (by cases h), fun kid h => (by cases h)⟩

variable {calls : List (KeyCall PrivateKey)}

theorem sound_after (hsound : Sound keys)
    (hcalls : Guarded (keyStep cryptoSign) Proper keys calls) :
    Sound (after (keyStep cryptoSign) keys calls) :=
  hcalls.after_induction hsound fun _ call hsound hproper => (regular_call call hsound hproper).sound

theorem keeps_after (hsound : Sound keys)
    (hcalls : Guarded (keyStep cryptoSign) Proper keys calls) :
    Keeps keys (after (keyStep cryptoSign) keys calls) := by
  have hboth : Sound (after (keyStep cryptoSign) keys calls) ∧
      Keeps keys (after (keyStep cryptoSign) keys calls) :=
    hcalls.after_induction (I := fun last => Sound last ∧ Keeps keys last) ⟨hsound, .refl keys⟩
      fun last call h hproper =>
        have hregular : Regular last (perform (call.operation cryptoSign) last) :=
          regular_call call h.1 hproper
        ⟨hregular.sound, h.2.trans hregular.keeps⟩
  exact hboth.2

theorem Keeps.follows {kid : Text} {record record' : KeyRecord PrivateKey}
    {keys' : IssuerKeys PrivateKey} (h : Keeps keys keys') (hsound : Sound keys')
    (hrecord : keys.records.get? kid = some record)
    (hrecord' : keys'.records.get? kid = some record') : Follows record record' := by
  rcases h.kept kid record hrecord with ⟨found, hfound, hfollows⟩ | hdestroyed
  · obtain rfl := Option.some.inj (hfound.symm.trans hrecord')
    exact hfollows
  · cases (hsound.forgotten kid hdestroyed).symm.trans hrecord'

structure KeepsLifecycle (cryptoSign : PrivateKey → Bytes → Bytes)
    (first : IssuerKeys PrivateKey) (calls : List (KeyCall PrivateKey)) : Prop where
  /-- A signature comes from an active key with the purpose. -/
  signed : ∀ before kid data context rest signature,
    calls = before ++ .sign kid data context :: rest →
    keyAnswer cryptoSign (after (keyStep cryptoSign) first before) (.sign kid data context) =
      .ok (some signature) →
    ∃ record, (after (keyStep cryptoSign) first before).records.get? kid = some record ∧
      SignedBy cryptoSign record data context.purpose signature
  /-- A key that was retired, compromised or revoked does not sign. -/
  spent : ∀ before between kid data context rest record,
    calls = before ++ between ++ .sign kid data context :: rest →
    (after (keyStep cryptoSign) first before).records.get? kid = some record → Spent record →
    (keyAnswer cryptoSign (after (keyStep cryptoSign) first (before ++ between))
      (.sign kid data context)).isOk = false
  one : ∀ before between rest kid record record', calls = before ++ between ++ rest →
    (after (keyStep cryptoSign) first before).records.get? kid = some record →
    (after (keyStep cryptoSign) first (before ++ between)).records.get? kid = some record' →
    SameKey record record'
  /-- The sequence rises with every change of what is published. -/
  rises : ∀ before call rest, calls = before ++ call :: rest →
    (after (keyStep cryptoSign) first (before ++ [call])).listPublicKeys false ≠
      (after (keyStep cryptoSign) first before).listPublicKeys false →
    Below (after (keyStep cryptoSign) first before).metadataSequence
      (after (keyStep cryptoSign) first (before ++ [call])).metadataSequence
  unchanged : ∀ before call rest, calls = before ++ call :: rest →
    (keyAnswer cryptoSign (after (keyStep cryptoSign) first before) call).isOk = false →
    after (keyStep cryptoSign) first (before ++ [call]) = after (keyStep cryptoSign) first before

theorem sign_of_answer {kid : Text} {data : Bytes} {context : SigningContext}
    {signature : Option Bytes}
    (h : keyAnswer cryptoSign keys (.sign kid data context) = .ok signature) :
    ∃ made last, signature = some made ∧
      perform (sign cryptoSign kid data context) keys = (.ok made, last) := by
  rcases hperform : perform (KeyCall.operation cryptoSign (.sign kid data context)) keys with
    ⟨outcome, last⟩
  rw [keyAnswer, hperform] at h
  change outcome = .ok signature at h
  subst h
  obtain ⟨made, middle, hsign, hdone⟩ := bind_returns.mp hperform
  rw [perform_pure, Prod.mk.injEq, Except.ok.injEq] at hdone
  exact ⟨made, middle, hdone.1.symm, hsign⟩

/-- A run whose calls are proper keeps to the lifecycle. -/
theorem proper_runs_keep_lifecycle (cryptoSign : PrivateKey → Bytes → Bytes)
    (metadataSequence : Number) (calls : List (KeyCall PrivateKey))
    (hcalls : Guarded (keyStep cryptoSign) Proper (.initial metadataSequence) calls) :
    KeepsLifecycle cryptoSign (.initial metadataSequence) calls := by
  have hsound {before rest : List (KeyCall PrivateKey)} (h : calls = before ++ rest) :
      Sound (after (keyStep cryptoSign) (.initial metadataSequence) before) := by
    rw [h] at hcalls
    exact sound_after (sound_initial metadataSequence) ((guarded_append before rest).mp hcalls).1
  have hkeeps {before between rest : List (KeyCall PrivateKey)}
      (h : calls = before ++ between ++ rest) :
      Keeps (after (keyStep cryptoSign) (.initial metadataSequence) before)
        (after (keyStep cryptoSign) (.initial metadataSequence) (before ++ between)) := by
    have hbefore := hsound (show calls = before ++ (between ++ rest) by
      rw [h, List.append_assoc])
    rw [h, List.append_assoc] at hcalls
    have hrest := ((guarded_append before _).mp hcalls).2
    rw [after_append]
    exact keeps_after hbefore ((guarded_append between rest).mp hrest).1
  have hregular {before rest : List (KeyCall PrivateKey)} {call : KeyCall PrivateKey}
      (h : calls = before ++ call :: rest) :
      Regular (after (keyStep cryptoSign) (.initial metadataSequence) before)
        (perform (call.operation cryptoSign)
          (after (keyStep cryptoSign) (.initial metadataSequence) before)) := by
    have hbefore := hsound h
    rw [h] at hcalls
    exact regular_call call hbefore ((guarded_append before _).mp hcalls).2.1
  constructor
  · intro before kid data context rest signature _ hanswer
    obtain ⟨made, last, hmade, hsign⟩ := sign_of_answer hanswer
    obtain rfl := Option.some.inj hmade
    exact sign_ok hsign
  · intro before between kid data context rest record h hrecord hspent
    by_contra hok
    rw [Bool.not_eq_false] at hok
    obtain ⟨signature, hsignature⟩ := exists_of_isOk hok
    obtain ⟨made, last, -, hsign⟩ := sign_of_answer hsignature
    obtain ⟨record', hrecord', hsigned⟩ := sign_ok hsign
    have hfollows := (hkeeps h).follows (hsound h) hrecord hrecord'
    have hlater := hfollows.spent hspent
    rw [Spent, hsigned.active] at hlater
    revert hlater
    decide
  · intro before between rest kid record record' h hrecord hrecord'
    exact ((hkeeps h).follows (hsound h) hrecord hrecord').same
  · intro before call rest h hchanged
    rw [after_concat] at hchanged ⊢
    exact (hregular h).rises hchanged
  · intro before call rest h hthrows
    rw [after_concat]
    exact (hregular h).unchanged hthrows

end Runs

section Examples

private def exampleSign : ℕ → Bytes → Bytes := fun _ _ => []

private def exampleJwk (x : String) : Value :=
  .object [(ascii "crv", .string (ascii "Ed25519")), (ascii "x", .string (ascii x)),
    (ascii "kty", .string (ascii "OKP"))]

private def exampleRequest (kid : String) (x : String) (privateKey : ℕ) : KeyRequest ℕ where
  kid := .string (ascii kid)
  purpose := .array [.string (ascii "passport_signing")]
  randomKid := ascii "test_0"
  pair := ⟨exampleJwk x, privateKey⟩
  now := ascii "2026-01-01T00:00:00.000Z"
  expiry := some (ascii "2027-01-01T00:00:00.000Z")

private def firstKey : KeyCall ℕ :=
  .createKey (exampleRequest "k1" "FfWXq3WAGFqffURjIsk75sEzOz7cn9luDwhDGTu9Xj0" 1)

private def secondKey : KeyCall ℕ :=
  .createKey (exampleRequest "k1" "K_LBpVifNUg4htrTyq25eGGs7AJES28qQZlRmnJfSbc" 2)

private def sequenceOne : Value := .number (.ofNat 1)

private def sequenceTwo : Value := .number (.ofNat 2)

private abbrev reached (calls : List (KeyCall ℕ)) : IssuerKeys ℕ :=
  after (keyStep exampleSign) (.initial (.ofNat 1)) calls

private abbrev heldKey (calls : List (KeyCall ℕ)) : Option ℕ :=
  ((reached calls).records.get? (ascii "k1")).map KeyRecord.privateKey

private abbrev heldState (calls : List (KeyCall ℕ)) : Option KeyState :=
  ((reached calls).records.get? (ascii "k1")).map fun record => record.metadata.state

private def failedRotation : KeyCall ℕ :=
  .beginRotation (ascii "k0") (ascii "k1") sequenceTwo []

private theorem recreated_rotated :
    (heldKey [firstKey] = some 1 ∧
        heldKey [firstKey, .destroyTestKey (ascii "k1"), secondKey] = some 2) ∧
      heldState [firstKey, .prepublishKey (ascii "k1") sequenceOne []] = some .prepublished ∧
      heldState [firstKey, .prepublishKey (ascii "k1") sequenceOne [], failedRotation] =
        some .active ∧
      (keyAnswer exampleSign (reached [firstKey, .prepublishKey (ascii "k1") sequenceOne []])
        failedRotation).isOk = false := by
  decide +kernel

/-- A destroyed key's identifier denotes another key, and a rotation from a key that is not there
throws after it has activated the new key. -/
theorem lifecycle_not_kept :
    ¬KeepsLifecycle exampleSign (.initial (.ofNat 1))
        [firstKey, .destroyTestKey (ascii "k1"), secondKey] ∧
      ¬KeepsLifecycle exampleSign (.initial (.ofNat 1))
        [firstKey, .prepublishKey (ascii "k1") sequenceOne [], failedRotation] := by
  constructor
  · intro h
    obtain ⟨hfirst, hsecond⟩ := recreated_rotated.1
    obtain ⟨record, hrecord, hone⟩ := Option.map_eq_some_iff.mp hfirst
    obtain ⟨record', hrecord', htwo⟩ := Option.map_eq_some_iff.mp hsecond
    have hsame := h.one [firstKey] [.destroyTestKey (ascii "k1"), secondKey] [] (ascii "k1") record
      record' rfl hrecord hrecord'
    have hprivate := hsame.privateKey
    rw [hone, htwo] at hprivate
    cases hprivate
  · intro h
    obtain ⟨hbefore, hafter, hthrows⟩ := recreated_rotated.2
    have hsame := h.unchanged [firstKey, .prepublishKey (ascii "k1") sequenceOne []] failedRotation
      [] rfl hthrows
    change reached [firstKey, .prepublishKey (ascii "k1") sequenceOne [], failedRotation] =
      reached [firstKey, .prepublishKey (ascii "k1") sequenceOne []] at hsame
    rw [heldState] at hbefore hafter
    rw [hsame, hbefore] at hafter
    cases hafter

private theorem room_example : ∀ n ∈ [1, 2], Room (.ofNat n) := by
  have hall : ∀ n ∈ [1, 2], (Number.ofNat n).le ((Number.ofNat n).add (.ofNat 1)) = true ∧
      ((Number.ofNat n).add (.ofNat 1)).le (.ofNat n) = false ∧
      ProtocolCore.isFinite ((Number.ofNat n).add (.ofNat 1)) = true := by
    decide +kernel
  intro n hn
  obtain ⟨hle, hback, hfinite⟩ := hall n hn
  exact ⟨⟨hle, hback⟩, hfinite⟩

private abbrev createdKeys : IssuerKeys ℕ := keyStep exampleSign (.initial (.ofNat 1)) firstKey

private abbrev prepublishedKeys : IssuerKeys ℕ :=
  keyStep exampleSign createdKeys (.prepublishKey (ascii "k1") sequenceOne [])

private theorem sequences_reached : createdKeys.metadataSequence = .ofNat 1 ∧
    prepublishedKeys.metadataSequence = .ofNat 2 := by
  decide +kernel

theorem proper_runs_keep_lifecycle_activated :
    KeepsLifecycle exampleSign (.initial (.ofNat 1))
      [firstKey, .prepublishKey (ascii "k1") sequenceOne [],
        .activateKey (ascii "k1") sequenceTwo []] := by
  apply proper_runs_keep_lifecycle
  obtain ⟨hfirst, hsecond⟩ := sequences_reached
  have hsafe := Number.safeInteger?_ofNat (show 1 < 2 ^ 53 by decide)
  have hpositive : Positive sequenceOne := ⟨_, hsafe, by decide⟩
  have hroom : Room createdKeys.metadataSequence := by
    rw [hfirst]
    exact room_example 1 (by simp)
  have hlater : Room prepublishedKeys.metadataSequence := by
    rw [hsecond]
    exact room_example 2 (by simp)
  refine ⟨fun kid _ hmem => (by cases hmem), fun _ => ⟨hroom, positive_finite hpositive⟩,
    fun _ => hlater, trivial⟩

end Examples

end GhostBridge.Issuer
