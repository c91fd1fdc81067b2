import GhostBridge.NativeClient.Installation

/-!
# Installations after previews

Where trust is required, a preview succeeds only with everything verified.
-/

namespace GhostBridge.NativeClient

open Ecma Machine

inductive ClientCall where
  | previewInstall (options : InstallOptions) (services : PreviewServices)
  | install (arguments : InstallArguments)
  | installFromGrant (options : InstallOptions) (services : InstallServices)
  | redeemInstallGrant (grant : Text) (scope : InstallScope) (answer : Checked ConnectionResponse)

def clientStep (client : ClientConfig) (state : ClientState) : ClientCall → ClientState
  | .previewInstall options services => (previewInstall client state options services).2
  | .install arguments => (install client state arguments).2
  | .installFromGrant options services => (installFromGrant client state options services).2
  | .redeemInstallGrant grant scope answer => (redeemInstallGrant state grant scope answer).2

/-- Everything is verified, the policy trusts the issuer, and the revocation set is current. -/
structure InstallTrust.Verified (trust : InstallTrust) : Prop where
  installResolution : trust.installResolution.isSome = true
  connectionOffer : trust.connectionOffer.isSome = true
  policy : trust.passport.policy.category = .verifiedAndTrusted
  revocation : trust.revocation.any (isCurrent ·.verification.freshness) = true

/-- A preview for the grant and the scope succeeded, with everything verified. -/
def Previewed (history : List InstallEvent) (grant : Text) (scope : InstallScope) : Prop :=
  ∃ trust, .previewed grant scope (some trust) ∈ history ∧ trust.Verified

def StoredAfterPreview (history : List InstallEvent) : Prop :=
  ∀ before connection grant scope after,
    history = before ++ .stored connection grant scope :: after → Previewed before grant scope

theorem storedAfterPreview_concat {history : List InstallEvent} {event : InstallEvent} :
    StoredAfterPreview (history ++ [event]) ↔ StoredAfterPreview history ∧
      ∀ connection grant scope, event = .stored connection grant scope →
        Previewed history grant scope := by
  constructor
  · intro h
    refine ⟨fun before connection grant scope after hhistory => ?_, ?_⟩
    · exact h before connection grant scope (after ++ [event])
        (by rw [hhistory, List.append_assoc, List.cons_append])
    · rintro connection grant scope rfl
      exact h history connection grant scope [] rfl
  · rintro ⟨hhistory, hevent⟩ before connection grant scope after heq
    rcases List.eq_nil_or_concat after with rfl | ⟨after, last, rfl⟩
    · obtain ⟨rfl, hlast⟩ := List.append_inj' heq rfl
      exact hevent connection grant scope (List.singleton_inj.mp hlast)
    · rw [List.concat_eq_append, ← List.cons_append, ← List.append_assoc] at heq
      obtain ⟨hbefore, -⟩ := List.append_inj' heq rfl
      exact hhistory before connection grant scope after hbefore

theorem StoredAfterPreview.of_earlier {history later : List InstallEvent}
    (h : StoredAfterPreview later) (hearlier : history <+: later) : StoredAfterPreview history := by
  obtain ⟨rest, rfl⟩ := hearlier
  intro before connection grant scope after hhistory
  exact h before connection grant scope (after ++ rest)
    (by rw [hhistory, List.append_assoc, List.cons_append])

/-- The agent's answer is that of an active connection. -/
def Accepted (answer : Checked ConnectionResponse) (response : ConnectionResponse) : Prop :=
  answer = .ok response ∧ response.protocolVersion = ProtocolCore.protocolVersion ∧
    response.connectionId ≠ [] ∧ response.status = ascii "active"

section Calls

variable {client : ClientConfig} {state : ClientState}

theorem redeemInstallGrant_cases (state : ClientState) (grant : Text) (scope : InstallScope)
    (answer : Checked ConnectionResponse) :
    (redeemInstallGrant state grant scope answer).2.installPreviews = state.installPreviews ∧
      (((∀ response, ¬ Accepted answer response) ∧
          (redeemInstallGrant state grant scope answer).2.history = state.history) ∨
        ∃ response, Accepted answer response ∧
          (redeemInstallGrant state grant scope answer).2.history =
            state.history ++ [.stored response grant scope]) := by
  unfold redeemInstallGrant
  split
  next failure =>
    refine ⟨rfl, .inl ⟨fun response haccepted => ?_, rfl⟩⟩
    cases haccepted.1
  next response =>
    split
    next hactive => exact ⟨rfl, .inr ⟨response, ⟨rfl, hactive⟩, rfl⟩⟩
    next hactive =>
      refine ⟨rfl, .inl ⟨fun other haccepted => ?_, rfl⟩⟩
      obtain rfl := Except.ok.inj haccepted.1
      exact hactive haccepted.2

variable (client) in
theorem previewInstall_cases (state : ClientState) (options : InstallOptions)
    (services : PreviewServices) :
    ((∃ failure, (previewInstall client state options services).1 = .error failure) ∧
      (previewInstall client state options services).2.installPreviews = state.installPreviews ∧
      (previewInstall client state options services).2.history = state.history) ∨
    ∃ scope resolution trust key record,
      installScope options = .ok scope ∧
      (establishTrust client services.toServices state.trust resolution).1 = .ok trust ∧
      installGrantCacheKey options.grant scope client.trust = .ok key ∧
      (previewInstall client state options services).1 = .ok record ∧
      (previewInstall client state options services).2.installPreviews =
        state.installPreviews.set key record ∧
      (previewInstall client state options services).2.history =
        state.history ++ [.previewed options.grant scope trust] := by
  unfold previewInstall
  split
  next failure hresolve => exact .inl ⟨⟨failure, rfl⟩, rfl, rfl⟩
  next scope resolution hresolve =>
    have hscope : installScope options = .ok scope := by
      simp only [resolveInstallation, bind_ok, exists_unit, pure_ok, Prod.mk.injEq] at hresolve
      obtain ⟨_, hscope, -, -, -, _, -, -, -, rfl, -⟩ := hresolve
      exact hscope
    simp only
    split
    next failure htrust => exact .inl ⟨⟨failure, rfl⟩, rfl, rfl⟩
    next trust htrust =>
      split
      next failure hrecord => exact .inl ⟨⟨failure, rfl⟩, rfl, rfl⟩
      next key record hrecord =>
        have hkey : installGrantCacheKey options.grant scope client.trust = .ok key := by
          simp only [previewRecord, bind_ok, pure_ok, Prod.mk.injEq] at hrecord
          obtain ⟨_, -, _, hkey, rfl, -⟩ := hrecord
          exact hkey
        exact .inr ⟨scope, resolution, trust, key, record, hscope, htrust, hkey, rfl, rfl, rfl⟩

theorem authenticateGrant_ok {key mode : Text} {handler : Option (Checked Value)}
    {next : ClientState} (h : authenticateGrant state key mode handler = .ok next) :
    next.installPreviews = state.installPreviews ∧ next.history = state.history := by
  unfold authenticateGrant at h
  split at h
  · split at h
    · cases h
    · simp only [bind_ok, pure_ok] at h
      obtain ⟨_, -, rfl⟩ := h
      exact ⟨rfl, rfl⟩
  · cases h
    exact ⟨rfl, rfl⟩

variable (client) in
theorem installPreviewed_cases (state : ClientState) (options : InstallOptions)
    (services : InstallServices) (scope : InstallScope) (key : Text) (record : PreviewRecord) :
    (installPreviewed client state options services scope key record).2.installPreviews =
        state.installPreviews ∧
      ((installPreviewed client state options services scope key record).2.history =
          state.history ∨
        ∃ response, (installPreviewed client state options services scope key record).2.history =
          state.history ++ [.stored response options.grant scope]) := by
  unfold installPreviewed
  simp only
  split
  · exact ⟨rfl, .inl rfl⟩
  next next hnext =>
    obtain ⟨hpreviews, hhistory⟩ := authenticateGrant_ok hnext
    split
    · exact ⟨hpreviews, .inl hhistory⟩
    · obtain ⟨hkept, ⟨-, hsame⟩ | ⟨response, -, hstored⟩⟩ :=
        redeemInstallGrant_cases next options.grant scope services.redemption
      · exact ⟨hkept.trans hpreviews, .inl (hsame.trans hhistory)⟩
      · exact ⟨hkept.trans hpreviews, .inr ⟨response, by rw [hstored, hhistory]⟩⟩

variable (client) in
theorem installFromGrant_cases (state : ClientState) (options : InstallOptions)
    (services : InstallServices) :
    let next := (installFromGrant client state options services).2
    (next.installPreviews = state.installPreviews ∧
      (next.history = state.history ∨
        ∃ response scope key record, installScope options = .ok scope ∧
          installGrantCacheKey options.grant scope client.trust = .ok key ∧
          state.installPreviews.get? key = some record ∧
          next.history = state.history ++ [.stored response options.grant scope])) ∨
    ∃ scope resolution trust key record,
      (establishTrust client services.preview.toServices state.trust resolution).1 = .ok trust ∧
      installGrantCacheKey options.grant scope client.trust = .ok key ∧
      next.installPreviews = state.installPreviews.set key record ∧
      (next.history = state.history ++ [.previewed options.grant scope trust] ∨
        ∃ response, next.history = (state.history ++ [.previewed options.grant scope trust]) ++
          [.stored response options.grant scope]) := by
  unfold installFromGrant
  split
  · exact .inl ⟨rfl, .inl rfl⟩
  next scope key htarget =>
    have hscope : installScope options = .ok scope ∧
        installGrantCacheKey options.grant scope client.trust = .ok key := by
      simp only [installTarget, bind_ok, exists_unit, pure_ok, Prod.mk.injEq] at htarget
      obtain ⟨_, hscope, -, -, _, hkey, rfl, rfl⟩ := htarget
      exact ⟨hscope, hkey⟩
    split
    next record hrecord =>
      obtain ⟨hpreviews, hhistory | ⟨response, hhistory⟩⟩ :=
        installPreviewed_cases client state options services scope key record
      · exact .inl ⟨hpreviews, .inl hhistory⟩
      · exact .inl ⟨hpreviews, .inr ⟨response, scope, key, record, hscope.1, hscope.2, hrecord,
          hhistory⟩⟩
    next hrecord =>
      simp only
      rcases previewInstall_cases client state options services.preview with
        ⟨⟨failure, hfailure⟩, hpreviews, hhistory⟩ |
          ⟨scope', resolution, trust, key', record, hscope', htrust, hkey', hrecorded, hpreviews,
            hhistory⟩
      · rw [hfailure]
        exact .inl ⟨hpreviews, .inl hhistory⟩
      · obtain rfl : scope' = scope := Except.ok.inj (hscope'.symm.trans hscope.1)
        rw [hrecorded]
        obtain ⟨hkept, hsame | ⟨response, hstored⟩⟩ := installPreviewed_cases client
          (previewInstall client state options services.preview).2 options services scope' key
            record
        · exact .inr ⟨scope', resolution, trust, key', record, htrust, hkey',
            hkept.trans hpreviews, .inl (hsame.trans hhistory)⟩
        · exact .inr ⟨scope', resolution, trust, key', record, htrust, hkey',
            hkept.trans hpreviews, .inr ⟨response, by rw [hstored, hhistory]⟩⟩

theorem whenProved_isSome {document : Value} {verification : Trust.Checked Trust.VerificationResult}
    {result : Option Trust.VerificationResult}
    (hproof : (document.field (ascii "proof")).isTruthy = true)
    (h : whenProved document verification = .ok result) : result.isSome = true := by
  rw [whenProved, if_pos hproof, map_ok] at h
  obtain ⟨_, -, rfl⟩ := h
  rfl

theorem establishTrust_verified {settings : TrustSettings} {services : Services}
    {trustState : TrustState} {resolution : Value} {trust : Option InstallTrust}
    (hsettings : client.trust = some settings) (hrequired : settings.required = true)
    (h : (establishTrust client services trustState resolution).1 = .ok trust) :
    ∃ verified, trust = some verified ∧ verified.Verified := by
  unfold establishTrust at h
  rw [hsettings] at h
  simp only [hrequired, Bool.true_and, if_true] at h
  split at h
  · cases h
  next hproofs =>
    split at h
    · split at h
      · cases h
      next established hestablished =>
        simp only [requireRevocation] at h
        split at h
        · cases h
        next revocation hrevocation =>
          split at h
          next hcurrent =>
            cases h
            simp only [verifyDocuments, bind_ok, ofTrust_ok, throwWhen_ok, exists_unit, pure_ok,
              hrequired, Bool.true_and] at hestablished
            obtain ⟨passportTrust, -, capabilityTrust, -, installTrust, hinstall, connectionTrust,
              hconnection, hpolicy, rfl⟩ := hestablished
            simp only [hasProofs, Bool.not_eq_true, Bool.not_eq_false', Bool.and_eq_true] at hproofs
            exact ⟨_, rfl,
              { installResolution := whenProved_isSome hproofs.1.2 hinstall
                connectionOffer := whenProved_isSome hproofs.2 hconnection
                policy := by simpa using hpolicy
                revocation := hcurrent }⟩
          · cases h
    · cases h

variable (client) in
/-- The cache has what was previewed, and what was previewed is verified. -/
structure ClientState.Sound (state : ClientState) : Prop where
  cached : ∀ key record, state.installPreviews.get? key = some record →
    ∃ grant scope trust, .previewed grant scope trust ∈ state.history ∧
      installGrantCacheKey grant scope client.trust = .ok key
  verified : ∀ grant scope trust, .previewed grant scope trust ∈ state.history →
    ∃ verified, trust = some verified ∧ verified.Verified

theorem ClientState.Sound.congr {next : ClientState} (h : state.Sound client)
    (hpreviews : next.installPreviews = state.installPreviews)
    (hhistory : next.history = state.history) : next.Sound client := by
  constructor
  · rw [hpreviews, hhistory]
    exact h.cached
  · rw [hhistory]
    exact h.verified

theorem ClientState.Sound.stored {next : ClientState} (h : state.Sound client)
    {response : ConnectionResponse} {grant : Text} {scope : InstallScope}
    (hpreviews : next.installPreviews = state.installPreviews)
    (hhistory : next.history = state.history ++ [.stored response grant scope]) :
    next.Sound client := by
  constructor
  · rw [hpreviews, hhistory]
    intro key record hrecord
    obtain ⟨grant, scope, trust, hmem, hkey⟩ := h.cached key record hrecord
    exact ⟨grant, scope, trust, List.mem_append_left _ hmem, hkey⟩
  · rw [hhistory]
    intro grant scope trust hmem
    rcases List.mem_append.mp hmem with hmem | hmem
    · exact h.verified grant scope trust hmem
    · cases List.mem_singleton.mp hmem

theorem ClientState.Sound.previewed {next : ClientState} (h : state.Sound client) {key : Text}
    {record : PreviewRecord} {grant : Text} {scope : InstallScope} {trust : Option InstallTrust}
    (hkey : installGrantCacheKey grant scope client.trust = .ok key)
    (htrust : ∃ verified, trust = some verified ∧ verified.Verified)
    (hpreviews : next.installPreviews = state.installPreviews.set key record)
    (hhistory : next.history = state.history ++ [.previewed grant scope trust]) :
    next.Sound client := by
  constructor
  · rw [hpreviews, hhistory]
    intro other found hfound
    by_cases hother : other = key
    · subst hother
      exact ⟨grant, scope, trust, List.mem_append_right _ List.mem_cons_self, hkey⟩
    · rw [state.installPreviews.get?_set_of_ne hother] at hfound
      obtain ⟨grant, scope, trust, hmem, hkey⟩ := h.cached other found hfound
      exact ⟨grant, scope, trust, List.mem_append_left _ hmem, hkey⟩
  · rw [hhistory]
    intro other otherScope found hmem
    rcases List.mem_append.mp hmem with hmem | hmem
    · exact h.verified other otherScope found hmem
    · cases List.mem_singleton.mp hmem
      exact htrust

variable (client) in
/-- An installation shares its key in the cache with no preview for another grant or scope. -/
def KeysApart (state : ClientState) : ClientCall → Prop
  | .installFromGrant options _ | .install (.options options _) =>
    ∀ scope key, installScope options = .ok scope →
      installGrantCacheKey options.grant scope client.trust = .ok key →
        ∀ grant other trust, .previewed grant other trust ∈ state.history →
          installGrantCacheKey grant other client.trust = .ok key →
            grant = options.grant ∧ other = scope
  | _ => True

/-- A redemption that is called by itself and accepted is one of a grant and a scope that were
previewed. -/
def RedeemsPreviewed (state : ClientState) : ClientCall → Prop
  | .redeemInstallGrant grant scope answer | .install (.grant grant scope answer) =>
    ∀ response, Accepted answer response → Previewed state.history grant scope
  | _ => True

/-- What one call does to a run: the invariant, the history, and the law. -/
structure StepLaw (client : ClientConfig) (state next : ClientState) (redeems : Prop) : Prop where
  sound : next.Sound client
  extends_ : state.history <+: next.history
  law : StoredAfterPreview state.history → (StoredAfterPreview next.history ↔ redeems)

theorem stepLaw_redeem (hsound : state.Sound client) (grant : Text) (scope : InstallScope)
    (answer : Checked ConnectionResponse) :
    StepLaw client state (redeemInstallGrant state grant scope answer).2
      (∀ response, Accepted answer response → Previewed state.history grant scope) := by
  obtain ⟨hpreviews, ⟨hnone, hhistory⟩ | ⟨response, haccepted, hhistory⟩⟩ :=
    redeemInstallGrant_cases state grant scope answer
  · refine ⟨hsound.congr hpreviews hhistory, by rw [hhistory], fun hlaw => ?_⟩
    rw [hhistory]
    exact ⟨fun _ response haccepted => absurd haccepted (hnone response), fun _ => hlaw⟩
  · refine ⟨hsound.stored hpreviews hhistory, ⟨_, hhistory.symm⟩, fun hlaw => ?_⟩
    rw [hhistory, storedAfterPreview_concat]
    constructor
    · intro hstored other _
      exact hstored.2 response grant scope rfl
    · intro hredeems
      refine ⟨hlaw, fun connection grant' scope' hevent => ?_⟩
      cases hevent
      exact hredeems response haccepted

theorem stepLaw_install {settings : TrustSettings} (hsettings : client.trust = some settings)
    (hrequired : settings.required = true) (hsound : state.Sound client) (options : InstallOptions)
    (services : InstallServices)
    (hkeys : KeysApart client state (.installFromGrant options services)) :
    StepLaw client state (installFromGrant client state options services).2 True := by
  rcases installFromGrant_cases client state options services with
    ⟨hpreviews, hhistory | ⟨response, scope, key, record, hscope, hkey, hrecord, hhistory⟩⟩ |
      ⟨scope, resolution, trust, key, record, htrust, hkey, hpreviews, hhistory⟩
  · refine ⟨hsound.congr hpreviews hhistory, by rw [hhistory], fun hlaw => ?_⟩
    rw [hhistory]
    exact ⟨fun _ => trivial, fun _ => hlaw⟩
  · refine ⟨hsound.stored hpreviews hhistory, ⟨_, hhistory.symm⟩, fun hlaw => ?_⟩
    rw [hhistory, storedAfterPreview_concat]
    refine ⟨fun _ => trivial, fun _ => ⟨hlaw, fun connection grant scope' hevent => ?_⟩⟩
    cases hevent
    -- the record in the cache is one of a preview, and the keys tell the previews apart
    obtain ⟨grant, other, trust, hmem, hother⟩ := hsound.cached key record hrecord
    obtain ⟨rfl, rfl⟩ := hkeys scope key hscope hkey grant other trust hmem hother
    obtain ⟨verified, rfl, hverified⟩ := hsound.verified _ _ _ hmem
    exact ⟨verified, hmem, hverified⟩
  · obtain ⟨verified, rfl, hverified⟩ := establishTrust_verified hsettings hrequired htrust
    -- the state between the preview and the redemption
    let previewed : ClientState :=
      { state with
        installPreviews := state.installPreviews.set key record
        history := state.history ++ [.previewed options.grant scope (some verified)] }
    have hpreviewed : previewed.Sound client :=
      hsound.previewed hkey ⟨verified, rfl, hverified⟩ rfl rfl
    have hprevious : state.history <+: previewed.history := ⟨_, rfl⟩
    have hbetween (hlaw : StoredAfterPreview state.history) :
        StoredAfterPreview previewed.history :=
      storedAfterPreview_concat.mpr ⟨hlaw, fun _ _ _ hevent => by cases hevent⟩
    rcases hhistory with hhistory | ⟨response, hhistory⟩
    · refine ⟨hpreviewed.congr hpreviews hhistory, hhistory ▸ hprevious, fun hlaw => ?_⟩
      rw [hhistory]
      exact ⟨fun _ => trivial, fun _ => hbetween hlaw⟩
    · refine ⟨hpreviewed.stored hpreviews hhistory, ?_, fun hlaw => ?_⟩
      · rw [hhistory]
        exact hprevious.trans (List.prefix_append _ _)
      · rw [hhistory, storedAfterPreview_concat]
        refine ⟨fun _ => trivial, fun _ => ⟨hbetween hlaw, fun connection grant other hevent => ?_⟩⟩
        cases hevent
        exact ⟨verified, List.mem_append_right _ List.mem_cons_self, hverified⟩

theorem stepLaw_preview {settings : TrustSettings} (hsettings : client.trust = some settings)
    (hrequired : settings.required = true) (hsound : state.Sound client) (options : InstallOptions)
    (services : PreviewServices) :
    StepLaw client state (previewInstall client state options services).2 True := by
  rcases previewInstall_cases client state options services with
    ⟨-, hpreviews, hhistory⟩ | ⟨scope, resolution, trust, key, record, -, htrust, hkey, -,
      hpreviews, hhistory⟩
  · refine ⟨hsound.congr hpreviews hhistory, by rw [hhistory], fun hlaw => ?_⟩
    rw [hhistory]
    exact ⟨fun _ => trivial, fun _ => hlaw⟩
  · have hverified := establishTrust_verified hsettings hrequired htrust
    refine ⟨hsound.previewed hkey hverified hpreviews hhistory, ⟨_, hhistory.symm⟩, fun hlaw => ?_⟩
    rw [hhistory, storedAfterPreview_concat]
    exact ⟨fun _ => trivial, fun _ => ⟨hlaw, fun _ _ _ hevent => by cases hevent⟩⟩

theorem stepLaw {settings : TrustSettings} (hsettings : client.trust = some settings)
    (hrequired : settings.required = true) (hsound : state.Sound client) (call : ClientCall)
    (hkeys : KeysApart client state call) :
    StepLaw client state (clientStep client state call) (RedeemsPreviewed state call) := by
  cases call with
  | previewInstall options services =>
    exact stepLaw_preview hsettings hrequired hsound options services
  | installFromGrant options services =>
    exact stepLaw_install hsettings hrequired hsound options services hkeys
  | redeemInstallGrant grant scope answer => exact stepLaw_redeem hsound grant scope answer
  | install arguments =>
    cases arguments with
    | options options services =>
      exact stepLaw_install hsettings hrequired hsound options services hkeys
    | grant grant scope answer => exact stepLaw_redeem hsound grant scope answer

theorem history_prefix {settings : TrustSettings} (hsettings : client.trust = some settings)
    (hrequired : settings.required = true) (calls : List ClientCall)
    (hsound : state.Sound client)
    (hkeys : Guarded (clientStep client) (KeysApart client) state calls) :
    state.history <+: (after (clientStep client) state calls).history := by
  induction calls generalizing state with
  | nil => exact List.prefix_rfl
  | cons call calls ih =>
    have hstep := stepLaw hsettings hrequired hsound call hkeys.1
    exact hstep.extends_.trans (ih hstep.sound hkeys.2)

theorem stored_iff_of_sound {settings : TrustSettings} (hsettings : client.trust = some settings)
    (hrequired : settings.required = true) (calls : List ClientCall) (hsound : state.Sound client)
    (hlaw : StoredAfterPreview state.history)
    (hkeys : Guarded (clientStep client) (KeysApart client) state calls) :
    StoredAfterPreview (after (clientStep client) state calls).history ↔
      Guarded (clientStep client) RedeemsPreviewed state calls := by
  induction calls generalizing state with
  | nil => exact ⟨fun _ => trivial, fun _ => hlaw⟩
  | cons call calls ih =>
    have hstep := stepLaw hsettings hrequired hsound call hkeys.1
    have hlater := history_prefix hsettings hrequired calls hstep.sound hkeys.2
    constructor
    · intro hstored
      have hnext := hstored.of_earlier hlater
      exact ⟨(hstep.law hlaw).mp hnext, (ih hstep.sound hnext hkeys.2).mp hstored⟩
    · intro hredeems
      have hnext := (hstep.law hlaw).mpr hredeems.1
      exact (ih hstep.sound hnext hkeys.2).mpr hredeems.2

end Calls

def newClient (trust : TrustState) : ClientState := { trust := trust }

theorem newClient_sound (client : ClientConfig) (trust : TrustState) :
    (newClient trust).Sound client where
  cached key record hrecord := by cases hrecord
  verified grant scope trust hmem := by cases hmem

theorem storedAfterPreview_nil : StoredAfterPreview [] := by
  intro before connection grant scope after heq
  simp at heq

private def requiringClient : ClientConfig where
  host := ⟨fun _ => none, 0, id, Unit, fun _ => none, fun _ _ _ => false⟩
  trust := some { required := true, hostAudience := .string (ascii "h"), organizationPolicy := {} }

private def untouchedTrust : TrustState := ⟨Trust.RevocationCache.create none, .create⟩

private def exampleScope : InstallScope := ⟨ascii "o", none⟩

private def activeConnection : ConnectionResponse :=
  ⟨ProtocolCore.protocolVersion, ascii "c", ascii "active"⟩

private def refusedCalls : List ClientCall :=
  [.redeemInstallGrant (ascii "g") exampleScope
    (.error (.sdk "INSTALL_GRANT_EXPIRED" "The Install Grant has expired."))]

end GhostBridge.NativeClient
