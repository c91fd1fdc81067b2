import GhostBridge.Issuer.Keys
import GhostBridge.Machine.Runs

/-!
# The lifecycle of the keys of an issuer

Only active keys sign.
-/

namespace GhostBridge.Issuer

open Ecma Machine Operation Trust

variable {PrivateKey : Type} {keys keys' : IssuerKeys PrivateKey}

/-- `a < b`. -/
def Below (a b : Number) : Prop := a.le b = true ∧ b.le a = false

structure Room (metadataSequence : Number) : Prop where
  below : Below metadataSequence (metadataSequence.add (.ofNat 1))
  finite : ProtocolCore.isFinite (metadataSequence.add (.ofNat 1)) = true

def FiniteSequence (sequence : Value) : Prop :=
  ∃ n, (sequence.orElse (.number (.ofNat 0))).toNumber? = some n ∧ ProtocolCore.isFinite n = true

/-- The key of this identifier may move to the state. -/
def Admitted (keys : IssuerKeys PrivateKey) (kid : Text) (next : KeyState) (sequence : Value) :
    Prop :=
  ∃ record, keys.records.get? kid = some record ∧ Admits record next sequence

def Rotates (keys : IssuerKeys PrivateKey) (newKeyId : Text) (sequence : Value) : Prop :=
  ∃ record, keys.records.get? newKeyId = some record ∧ record.metadata.state = .prepublished ∧
    Positive sequence

/-- What a call must be, in the state before it, so as not to go wrong. -/
def Proper (keys : IssuerKeys PrivateKey) : KeyCall PrivateKey → Prop
  | .createKey request => ∀ kid, requestedKid request = .ok kid → kid ∉ keys.destroyed
  | .prepublishKey kid sequence _ => Admitted keys kid .prepublished sequence →
      Room keys.metadataSequence ∧ Auditable sequence ∧ FiniteSequence sequence
  | .activateKey kid sequence _ => Admitted keys kid .active sequence → Room keys.metadataSequence
  | .beginRotation oldKeyId newKeyId sequence _ => Rotates keys newKeyId sequence →
      Room keys.metadataSequence ∧
        (oldKeyId = newKeyId ∨ Admitted keys oldKeyId .retiring sequence)
  | .retireKey kid sequence _ => Admitted keys kid .retired sequence → Room keys.metadataSequence
  | .compromiseKey kid options now => Admitted keys kid .compromised .undefined →
      Room keys.metadataSequence ∧
        Auditable ((defaultOptions options).field (ascii "sequence")) ∧
        Auditable (((defaultOptions options).field (ascii "at")).orElse (.string now))
  | .revokeKey kid options _ => Admitted keys kid .revoked .undefined →
      Room keys.metadataSequence ∧ (defaultOptions options).isNullish = false ∧
        Auditable ((defaultOptions options).field (ascii "sequence"))
  | .sign _ _ _ => True
  | .transitionKeyState kid nextState options _ => ∀ next, KeyState.named nextState = some next →
      Admitted keys kid next ((defaultOptions options).field (ascii "sequence")) →
        next = .compromised ∧ (defaultOptions options).isNullish = true
  | .destroyTestKey kid => ∀ record, keys.records.get? kid = some record →
      record.metadata.state = .generated

def Spent (record : KeyRecord PrivateKey) : Prop :=
  record.metadata.state ∈ [.retired, .compromised, .revoked]

structure SameKey (record record' : KeyRecord PrivateKey) : Prop where
  privateKey : record'.privateKey = record.privateKey
  material : SameMaterial record.metadata record'.metadata

structure Follows (record record' : KeyRecord PrivateKey) : Prop where
  same : SameKey record record'
  spent : Spent record → Spent record'

theorem Follows.refl (record : KeyRecord PrivateKey) : Follows record record :=
  ⟨⟨rfl, ⟨rfl, rfl, rfl⟩⟩, id⟩

theorem Follows.trans {first second third : KeyRecord PrivateKey} (h : Follows first second)
    (h' : Follows second third) : Follows first third where
  same := ⟨h'.same.privateKey.trans h.same.privateKey, h.same.material.trans h'.same.material⟩
  spent hspent := h'.spent (h.spent hspent)

/-- Keys stay under their identifiers, or are destroyed. -/
structure Keeps (keys keys' : IssuerKeys PrivateKey) : Prop where
  kept : ∀ kid record, keys.records.get? kid = some record →
    (∃ record', keys'.records.get? kid = some record' ∧ Follows record record') ∨
      kid ∈ keys'.destroyed
  destroyed : ∀ kid ∈ keys.destroyed, kid ∈ keys'.destroyed

theorem Keeps.refl (keys : IssuerKeys PrivateKey) : Keeps keys keys :=
  ⟨fun _ record h => .inl ⟨record, h, .refl record⟩, fun _ h => h⟩

theorem Keeps.trans {first second third : IssuerKeys PrivateKey} (h : Keeps first second)
    (h' : Keeps second third) : Keeps first third := by
  constructor
  · intro kid record hrecord
    rcases h.kept kid record hrecord with ⟨record', hrecord', hfollows⟩ | hdestroyed
    · rcases h'.kept kid record' hrecord' with ⟨last, hlast, hlater⟩ | hdestroyed
      · exact .inl ⟨last, hlast, hfollows.trans hlater⟩
      · exact .inr hdestroyed
    · exact .inr (h'.destroyed kid hdestroyed)
  · intro kid hkid
    exact h'.destroyed kid (h.destroyed kid hkid)

/-- Identifiers have their form, and those of destroyed keys denote nothing. -/
structure Sound (keys : IssuerKeys PrivateKey) : Prop where
  identified : ∀ kid record, keys.records.get? kid = some record → isKeyIdentifier kid = true
  forgotten : ∀ kid ∈ keys.destroyed, keys.records.get? kid = none

structure Regular {α : Type} (keys : IssuerKeys PrivateKey)
    (outcome : Except KeyFailure α × IssuerKeys PrivateKey) : Prop where
  sound : Sound outcome.2
  keeps : Keeps keys outcome.2
  unchanged : outcome.1.isOk = false → outcome.2 = keys
  rises : outcome.2.listPublicKeys false ≠ keys.listPublicKeys false →
    Below keys.metadataSequence outcome.2.metadataSequence

section Regular

variable {α β : Type}

theorem regular_unchanged (h : Sound keys) (outcome : Except KeyFailure α) :
    Regular keys (outcome, keys) :=
  ⟨h, .refl keys, fun _ => rfl, fun hchanged => absurd rfl hchanged⟩

theorem Regular.map {x : KeyOperation PrivateKey α} (f : α → β)
    (h : Regular keys (perform x keys)) :
    Regular keys (perform (x >>= fun a => pure (f a)) keys) := by
  rcases hx : perform x keys with ⟨outcome, last⟩
  rw [hx] at h
  cases outcome with
  | ok a =>
    rw [perform_bind_ok hx, perform_pure]
    exact ⟨h.sound, h.keeps, fun hfalse => (by cases hfalse), h.rises⟩
  | error failure =>
    rw [perform_bind_error hx]
    exact ⟨h.sound, h.keeps, fun _ => h.unchanged rfl, h.rises⟩

theorem regular_error {x : KeyOperation PrivateKey α} (hsound : Sound keys)
    (h : ∃ failure, perform x keys = (.error failure, keys)) : Regular keys (perform x keys) := by
  obtain ⟨failure, h⟩ := h
  rw [h]
  exact regular_unchanged hsound _

end Regular

theorem stored_follows {kid : Text} {record record' : KeyRecord PrivateKey} (h : Sound keys)
    (hrecord : keys.records.get? kid = some record) (hfollows : Follows record record') :
    Sound (keys.store kid record') ∧ Keeps keys (keys.store kid record') := by
  have hother {other : Text} (hne : other ≠ kid) :
      (keys.store kid record').records.get? other = keys.records.get? other :=
    OrderedMap.get?_set_of_ne _ hne record'
  refine ⟨⟨fun other found hfound => ?_, fun other hother' => ?_⟩, ?_, fun _ h => h⟩
  · by_cases hne : other = kid
    · rw [hne]
      exact h.identified kid record hrecord
    · rw [hother hne] at hfound
      exact h.identified other found hfound
  · have hnone := h.forgotten other hother'
    by_cases hne : other = kid
    · rw [hne, hrecord] at hnone
      cases hnone
    · rw [hother hne]
      exact hnone
  · intro other found hfound
    by_cases hne : other = kid
    · rw [hne] at hfound
      obtain rfl := Option.some.inj (hrecord.symm.trans hfound)
      rw [hne]
      exact .inl ⟨record', get?_store record', hfollows⟩
    · rw [← hother hne] at hfound
      exact .inl ⟨found, hfound, .refl found⟩

theorem follows_moved {record : KeyRecord PrivateKey} {next : KeyState} {options : Value}
    {now : Text} {moved : KeyMetadata} (hnext : next ∈ record.metadata.state.transitions)
    (h : record.metadata.moved next options now = .ok moved) :
    Follows record { record with metadata := moved } := by
  obtain ⟨hstate, hmaterial, -, -⟩ := moved_ok h
  refine ⟨⟨rfl, hmaterial⟩, fun hspent => ?_⟩
  have hclosed (state : KeyState) (hstate : state ∈ [KeyState.retired, .compromised, .revoked])
      (hnext : next ∈ state.transitions) : next ∈ [KeyState.retired, .compromised, .revoked] := by
    revert hstate hnext
    cases state <;> cases next <;> decide
  change moved.state ∈ _
  rw [hstate]
  exact hclosed _ hspent hnext

theorem ne_nan_of_isFinite {n : Number} (h : ProtocolCore.isFinite n = true) : n ≠ .nan := by
  rintro rfl
  cases h

theorem below_max {a b n : Number} (h : Below a b) (hb : b ≠ .nan) (hn : n ≠ .nan) :
    Below a (b.max n) := by
  have hle : b.le (b.max n) = true := by
    rcases Number.max_cases hb hn with ⟨hmax, hle⟩ | ⟨hmax, -⟩
    · rw [hmax]
      exact hle
    · rw [hmax]
      exact Number.le_refl_of_ne_nan hb
  refine ⟨Number.le_trans h.1 hle, ?_⟩
  by_contra hback
  rw [Bool.not_eq_false] at hback
  cases (Number.le_trans hle hback).symm.trans h.2

theorem advancedSequence_room {metadataSequence : Number} {sequence : Value}
    (hroom : Room metadataSequence) (hsequence : FiniteSequence sequence) :
    ∃ advanced, advancedSequence metadataSequence sequence = .ok advanced ∧
      Below metadataSequence advanced ∧ ProtocolCore.isFinite advanced = true := by
  obtain ⟨n, hn, hfinite⟩ := hsequence
  have hone := ne_nan_of_isFinite hroom.finite
  have hother := ne_nan_of_isFinite hfinite
  refine ⟨_, ?_, below_max hroom.below hone hother, ?_⟩
  · unfold advancedSequence
    rw [hn]
    rfl
  · rcases Number.max_cases hone hother with ⟨hmax, -⟩ | ⟨hmax, -⟩
    · rw [hmax]
      exact hfinite
    · rw [hmax]
      exact hroom.finite

theorem positive_finite {sequence : Value} (h : Positive sequence) :
    Auditable sequence ∧ FiniteSequence sequence := by
  obtain ⟨n, hsafe, -⟩ := h
  cases sequence with
  | number m =>
    have hfinite : ProtocolCore.isFinite m = true := by
      cases m with
      | finite x => rfl
      | _ => cases hsafe
    refine ⟨auditable_number hfinite, ?_⟩
    rcases Value.orElse_eq (.number m) (.number (.ofNat 0)) with heq | heq
    · exact ⟨m, by rw [heq]; rfl, hfinite⟩
    · exact ⟨.ofNat 0, by rw [heq]; rfl, by rw [Number.ofNat_zero]; rfl⟩
  | _ => cases hsafe

section Operations

variable {kid : Text} {sequence options : Value} {now : Text}

structure MovedTo (keys : IssuerKeys PrivateKey) (kid : Text) (next : KeyState) (options : Value)
    (now : Text) (moved : KeyMetadata) (last : IssuerKeys PrivateKey) : Prop where
  step : ∃ record, keys.records.get? kid = some record ∧
    next ∈ record.metadata.state.transitions ∧
    record.metadata.moved next options now = .ok moved ∧
    last.records = (keys.store kid { record with metadata := moved }).records
  destroyed : last.destroyed = keys.destroyed

theorem MovedTo.kept {next : KeyState} {moved : KeyMetadata} {last : IssuerKeys PrivateKey}
    (hsound : Sound keys) (h : MovedTo keys kid next options now moved last) :
    Sound last ∧ Keeps keys last := by
  obtain ⟨⟨record, hrecord, hnext, hmoved, hrecords⟩, hdestroyed⟩ := h
  obtain ⟨hsound', hkeeps⟩ := stored_follows hsound hrecord (follows_moved hnext hmoved)
  constructor
  · constructor
    · rw [hrecords]
      exact hsound'.identified
    · rw [hrecords, hdestroyed]
      exact hsound'.forgotten
  · constructor
    · rw [hrecords, hdestroyed]
      exact hkeeps.kept
    · rw [hdestroyed]
      exact fun _ h => h

/-- `prepublishKey`, `activateKey` and `retireKey` throw and change nothing, or move the key and
raise the sequence. -/
theorem moveKey_cases (now : Text) {next : KeyState} (hsound : Sound keys)
    (hproper : Admitted keys kid next sequence →
      Room keys.metadataSequence ∧ Auditable sequence ∧ FiniteSequence sequence) :
    (∃ failure, perform (moveKey next kid sequence now) keys = (.error failure, keys)) ∨
      ∃ moved last, perform (moveKey next kid sequence now) keys = (.ok moved, last) ∧
        MovedTo keys kid next (sequenceOptions sequence) now moved last ∧
        Below keys.metadataSequence last.metadataSequence ∧
        ProtocolCore.isFinite last.metadataSequence = true := by
  by_cases hadmitted : Admitted keys kid next sequence
  · obtain ⟨record, hrecord, hadmits⟩ := hadmitted
    obtain ⟨hroom, hauditable, hfinite⟩ := hproper ⟨record, hrecord, hadmits⟩
    have hkid := hsound.identified kid record hrecord
    have hadmits' : Admits record next ((sequenceOptions sequence).field (ascii "sequence")) :=
      hadmits
    obtain ⟨moved, hmoved, htransition⟩ := transition_admitted (sequenceOptions sequence) now
      hkid hrecord hadmits' rfl hauditable
    obtain ⟨advanced, hadvanced, hbelow, hfinite'⟩ := advancedSequence_room hroom hfinite
    have hemit : emit [(ascii "kid", .string kid), (ascii "metadataSequence", .number advanced)] =
        .ok () := by
      apply emit_ok
      simp only [List.forall_mem_cons]
      exact ⟨⟨by decide, auditable_kid hkid⟩, ⟨by decide, auditable_number hfinite'⟩,
        List.forall_mem_nil _⟩
    have hadvanced' : advancedSequence
        (keys.store kid { record with metadata := moved }).metadataSequence sequence =
          .ok advanced := hadvanced
    right
    refine ⟨moved, { keys.store kid { record with metadata := moved } with
      metadataSequence := advanced }, ?_, ⟨⟨record, hrecord, hadmits.transition, hmoved, rfl⟩, rfl⟩,
      hbelow, hfinite'⟩
    unfold moveKey
    rw [perform_bind_ok htransition, perform_bind_ok perform_get,
      perform_lift_bind_ok hadvanced', perform_bind_ok (perform_modify _),
      perform_lift_bind_ok hemit, perform_pure]
  · left
    obtain ⟨failure, hfailure⟩ := transition_refused keys kid next.name (sequenceOptions sequence)
      now fun record other hrecord hnamed hadmits => by
        obtain rfl := Option.some.inj ((named_name next).symm.trans hnamed)
        exact absurd ⟨record, hrecord, hadmits⟩ hadmitted
    exact ⟨failure, by rw [moveKey, perform_bind_error hfailure]⟩

theorem regular_moveKey {next : KeyState} (hsound : Sound keys)
    (hproper : Admitted keys kid next sequence →
      Room keys.metadataSequence ∧ Auditable sequence ∧ FiniteSequence sequence) :
    Regular keys (perform (moveKey next kid sequence now) keys) := by
  rcases moveKey_cases now hsound hproper with hrefused | ⟨moved, last, h, hmoved,
    hbelow, -⟩
  · exact regular_error hsound hrefused
  · obtain ⟨hsound', hkeeps⟩ := hmoved.kept hsound
    rw [h]
    exact ⟨hsound', hkeeps, fun hfalse => (by cases hfalse), fun _ => hbelow⟩

theorem rotation_step {oldKeyId newKeyId : Text} {moved : KeyMetadata}
    {last : IssuerKeys PrivateKey} (hmoved : MovedTo keys newKeyId .active
      (sequenceOptions sequence) now moved last) (hpositive : Positive sequence)
    (hold : oldKeyId = newKeyId ∨ Admitted keys oldKeyId .retiring sequence) :
    Admitted last oldKeyId .retiring sequence := by
  obtain ⟨⟨record, -, -, hstate, hrecords⟩, -⟩ := hmoved
  by_cases hsame : oldKeyId = newKeyId
  · refine ⟨{ record with metadata := moved }, ?_, ⟨?_, fun _ => hpositive⟩⟩
    · rw [hrecords, hsame]
      exact get?_store _
    · change KeyState.retiring ∈ moved.state.transitions
      rw [(moved_ok hstate).1]
      decide
  · obtain ⟨old, hfound, hadmits⟩ := hold.resolve_left hsame
    refine ⟨old, ?_, hadmits⟩
    rw [hrecords, ← hfound]
    exact OrderedMap.get?_set_of_ne _ hsame _

theorem regular_beginRotation {oldKeyId newKeyId : Text} (hsound : Sound keys)
    (hproper : Proper keys (.beginRotation oldKeyId newKeyId sequence now)) :
    Regular keys (perform (beginRotation oldKeyId newKeyId sequence now) keys) := by
  cases hrecord : keys.records.get? newKeyId with
  | none =>
    apply regular_error hsound
    obtain ⟨failure, hfailure⟩ := perform_requireRecord_none hrecord
    exact ⟨failure, by
      rw [beginRotation, perform_bind_error (by rw [getKeyState, perform_bind_error hfailure])]⟩
  | some record =>
    have hstate : perform (getKeyState newKeyId) keys = (.ok record.metadata.state, keys) := by
      rw [getKeyState, perform_bind_ok (perform_requireRecord hrecord), perform_pure]
    unfold beginRotation
    rw [perform_bind_ok hstate]
    by_cases hprepublished : record.metadata.state = .prepublished
    · have hpass (failure : KeyFailure) :
          throwWhen (record.metadata.state != .prepublished) failure = .ok () := by
        rw [hprepublished]
        rfl
      rw [perform_lift_bind_ok (hpass _)]
      have hactivates : Admitted keys newKeyId .active sequence →
          Room keys.metadataSequence ∧ Auditable sequence ∧ FiniteSequence sequence := by
        rintro ⟨found, hfound, hadmits⟩
        have hpositive := hadmits.numbered (.inl rfl)
        exact ⟨(hproper ⟨record, hrecord, hprepublished, hpositive⟩).1, positive_finite hpositive⟩
      rcases moveKey_cases now hsound hactivates with ⟨failure, hfailure⟩ | ⟨next, last, hnext,
        hmoved, hbelow, hfinite⟩
      · rw [perform_bind_error (show perform (activateKey newKeyId sequence now) keys = _ from
          hfailure)]
        exact regular_unchanged hsound _
      · rw [perform_bind_ok (show perform (activateKey newKeyId sequence now) keys = _ from hnext)]
        obtain ⟨hsound', hkeeps⟩ := hmoved.kept hsound
        have hpositive : Positive sequence := by
          obtain ⟨⟨_, -, -, hstep, -⟩, -⟩ := hmoved
          exact (moved_ok hstep).2.2.1 (.inl rfl)
        obtain ⟨-, hold⟩ := hproper ⟨record, hrecord, hprepublished, hpositive⟩
        obtain ⟨old, hfound, hadmits⟩ := rotation_step hmoved hpositive hold
        have holdKid := hsound'.identified oldKeyId old hfound
        obtain ⟨previous, hprevious, htransition⟩ := transition_admitted
          (sequenceOptions sequence) now holdKid hfound hadmits rfl (positive_finite hpositive).1
        obtain ⟨hsound'', hkeeps'⟩ := stored_follows hsound' hfound
          (follows_moved hadmits.transition hprevious)
        have hemit : emit [(ascii "oldKeyId", .string oldKeyId),
            (ascii "newKeyId", .string newKeyId),
            (ascii "metadataSequence", .number
              (last.store oldKeyId { old with metadata := previous }).metadataSequence)] =
              .ok () := by
          apply emit_ok
          simp only [List.forall_mem_cons]
          exact ⟨⟨by decide, auditable_kid holdKid⟩,
            ⟨by decide, auditable_kid (hsound.identified newKeyId record hrecord)⟩,
            ⟨by decide, auditable_number hfinite⟩, List.forall_mem_nil _⟩
        rw [perform_bind_ok htransition, perform_bind_ok perform_get, perform_lift_bind_ok hemit,
          perform_pure]
        exact ⟨hsound'', hkeeps.trans hkeeps', fun hfalse => (by cases hfalse), fun _ => hbelow⟩
    · have hthrow (failure : KeyFailure) :
          throwWhen (record.metadata.state != .prepublished) failure = .error failure := by
        simp [throwWhen, hprepublished]
      rw [perform_bind_error (by rw [perform_lift, hthrow])]
      exact regular_unchanged hsound _

theorem regular_incremented {record : KeyRecord PrivateKey} {next : KeyState} {moved : KeyMetadata}
    (hsound : Sound keys) (hrecord : keys.records.get? kid = some record)
    (hnext : next ∈ record.metadata.state.transitions)
    (hmoved : record.metadata.moved next options now = .ok moved)
    (hroom : Room keys.metadataSequence) : Regular keys
      ((.ok moved : Except KeyFailure KeyMetadata),
        (keys.store kid { record with metadata := moved }).incremented) := by
  obtain ⟨hsound', hkeeps⟩ := stored_follows hsound hrecord (follows_moved hnext hmoved)
  exact ⟨⟨hsound'.identified, hsound'.forgotten⟩, ⟨hkeeps.kept, hkeeps.destroyed⟩,
    fun hfalse => (by cases hfalse), fun _ => hroom.below⟩

theorem regular_compromiseKey (hsound : Sound keys)
    (hproper : Proper keys (.compromiseKey kid options now)) :
    Regular keys (perform (compromiseKey kid options now) keys) := by
  unfold compromiseKey
  cases hnullish : (defaultOptions options).isNullish with
  | true =>
    obtain ⟨failure, hfailure⟩ := option_error hnullish "at"
    rw [perform_bind_error (by rw [perform_lift, hfailure])]
    exact regular_unchanged hsound _
  | false =>
    rw [perform_lift_bind_ok (option_ok hnullish "at"),
      perform_lift_bind_ok (option_ok hnullish "sequence")]
    have hnot : ¬Numbered .compromised := by simp [Numbered]
    by_cases hadmitted : Admitted keys kid .compromised .undefined
    · obtain ⟨hroom, hsequence, htime⟩ := hproper hadmitted
      obtain ⟨record, hrecord, hadmits⟩ := hadmitted
      have hkid := hsound.identified kid record hrecord
      obtain ⟨moved, hmoved, htransition⟩ := transition_admitted
        (.object [(ascii "at", (defaultOptions options).field (ascii "at")),
          (ascii "sequence", (defaultOptions options).field (ascii "sequence"))])
        now hkid hrecord ⟨hadmits.transition, fun h => absurd h hnot⟩ rfl hsequence
      obtain ⟨-, -, -, hcompromised⟩ := moved_ok hmoved
      have hemit : emit [(ascii "kid", .string kid), (ascii "at", moved.compromisedAt)] =
          .ok () := by
        apply emit_ok
        simp only [List.forall_mem_cons]
        rw [(hcompromised rfl).2]
        exact ⟨⟨by decide, auditable_kid hkid⟩, ⟨by decide, htime⟩, List.forall_mem_nil _⟩
      rw [perform_bind_ok htransition, perform_bind_ok (perform_modify _),
        perform_lift_bind_ok hemit, perform_pure]
      exact regular_incremented hsound hrecord hadmits.transition hmoved hroom
    · obtain ⟨failure, hfailure⟩ := transition_refused keys kid KeyState.compromised.name
        (.object [(ascii "at", (defaultOptions options).field (ascii "at")),
          (ascii "sequence", (defaultOptions options).field (ascii "sequence"))])
        now fun record other hrecord hnamed hadmits => by
          obtain rfl := Option.some.inj ((named_name .compromised).symm.trans hnamed)
          exact absurd ⟨record, hrecord, hadmits.transition, fun h => absurd h hnot⟩ hadmitted
      rw [perform_bind_error hfailure]
      exact regular_unchanged hsound _

theorem regular_revokeKey (hsound : Sound keys)
    (hproper : Proper keys (.revokeKey kid options now)) :
    Regular keys (perform (revokeKey kid options now) keys) := by
  unfold revokeKey
  have hnot : ¬Numbered .revoked := by simp [Numbered]
  by_cases hadmitted : Admitted keys kid .revoked .undefined
  · obtain ⟨hroom, hoptions, hsequence⟩ := hproper hadmitted
    obtain ⟨record, hrecord, hadmits⟩ := hadmitted
    have hkid := hsound.identified kid record hrecord
    obtain ⟨moved, hmoved, htransition⟩ := transition_admitted (defaultOptions options) now
      hkid hrecord ⟨hadmits.transition, fun h => absurd h hnot⟩ hoptions hsequence
    have hemit : emit [(ascii "kid", .string kid)] = .ok () := by
      apply emit_ok
      simp only [List.forall_mem_cons]
      exact ⟨⟨by decide, auditable_kid hkid⟩, List.forall_mem_nil _⟩
    rw [perform_bind_ok htransition, perform_bind_ok (perform_modify _),
      perform_lift_bind_ok hemit, perform_pure]
    exact regular_incremented hsound hrecord hadmits.transition hmoved hroom
  · obtain ⟨failure, hfailure⟩ := transition_refused keys kid KeyState.revoked.name
      (defaultOptions options) now fun record other hrecord hnamed hadmits => by
        obtain rfl := Option.some.inj ((named_name .revoked).symm.trans hnamed)
        exact absurd ⟨record, hrecord, hadmits.transition, fun h => absurd h hnot⟩ hadmitted
    rw [perform_bind_error hfailure]
    exact regular_unchanged hsound _

end Operations

end GhostBridge.Issuer
