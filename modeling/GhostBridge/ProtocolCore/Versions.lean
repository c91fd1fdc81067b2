import GhostBridge.Ecma.Arrays
import GhostBridge.Ecma.Decimal
import GhostBridge.ProtocolCore.PlainData

/-!
# Version negotiation

Each peer chooses among the versions that both support: its own preference, then the other's, then
the highest number.
-/

namespace GhostBridge.ProtocolCore

open Ecma

def protocolVersion : Text := ascii "ghostbridge/0.1-draft"

structure ParsedVersion where
  raw : Text
  major : Number
  minor : Number
  channel : Text
  draft : Bool
deriving DecidableEq

def unsupportedVersion : Failure :=
  protocolError .unsupportedProtocolVersion "The protocol version is not supported."

def isLowerLetter (u : UInt16) : Bool := 0x61 ≤ u && u ≤ 0x7a

/-- `(?:-([a-z][a-z0-9-]*))?$`; no channel is empty. -/
def parseChannel : Text → Option Text
  | [] => some []
  | 0x2d :: u :: rest =>
    if isLowerLetter u && rest.all (fun v => isLowerLetter v || isDigit v || v == 0x2d) then
      some (u :: rest)
    else none
  | _ => none

/-- `/^ghostbridge\/(\d+)\.(\d+)(?:-([a-z][a-z0-9-]*))?$/`. -/
def matchVersion (value : Text) : Option (Text × Text × Text) := do
  let rest ← if (ascii "ghostbridge/").isPrefixOf value then some (value.drop 12) else none
  let major := rest.takeWhile isDigit
  let minorText ← match rest.dropWhile isDigit with
    | 0x2e :: after => some after
    | _ => none
  let minor := minorText.takeWhile isDigit
  if major.isEmpty || minor.isEmpty then none
  else
    let channel ← parseChannel (minorText.dropWhile isDigit)
    some (major, minor, channel)

def parseProtocolVersion (value : Text) : Checked ParsedVersion := do
  let (major, minor, channel) ← orThrow unsupportedVersion (matchVersion value)
  pure
    { raw := value
      major := .ofDecimal false (digitsValue major) 0
      minor := .ofDecimal false (digitsValue minor) 0
      channel := if channel.isEmpty then ascii "stable" else channel
      draft := decide (ascii "draft" <:+: channel) }

def validateProtocolVersion (value : Text) (supportedVersions : List Text) : Checked Text := do
  let _ ← parseProtocolVersion value
  throwWhen (!supportedVersions.contains value)
    (protocolError .unsupportedProtocolVersion "The protocol version is not supported."
      { supportedVersions := supportedVersions.take 20 })
  pure value

structure VersionSelection where
  selectedVersion : Text
  stability : Text
  warnings : List String
deriving DecidableEq

def versionSelection (version : Text) : Checked VersionSelection := do
  let parsed ← parseProtocolVersion version
  pure ⟨version, if parsed.draft then ascii "experimental" else ascii "stable",
    if parsed.draft then ["Selected protocol version is an experimental draft."] else []⟩

def magnitude : Number → Nat
  | .finite x => x.units
  | _ => unitsLimit

/-- The number of `a` is higher than the number of `b`; the channel does not count. -/
def Outranks (a b : ParsedVersion) : Prop :=
  magnitude b.major < magnitude a.major ∨
    (magnitude b.major = magnitude a.major ∧ magnitude b.minor < magnitude a.minor)

/-- `right.major - left.major || right.minor - left.minor` is not positive. -/
def SortsBefore (left right : ParsedVersion) : Prop := ¬Outranks right left

instance (a b : ParsedVersion) : Decidable (SortsBefore a b) :=
  inferInstanceAs (Decidable (¬(_ ∨ (_ ∧ _))))

structure NegotiationInput where
  localSupported : List Text := [protocolVersion]
  remoteSupported : List Text
  localPreferred : Text := protocolVersion
  remotePreferred : Option Text := none
  signedOrHighImpact : Bool := false
  requestedVersion : Option Text := none

def compatibleVersions (input : NegotiationInput) : Checked (List Text) := do
  throwWhen input.remoteSupported.isEmpty
    (protocolError .unsupportedProtocolVersion
      "The peer did not advertise a supported protocol version.")
  let localVersions ← input.localSupported.mapM parseProtocolVersion
  let remoteVersions ← input.remoteSupported.mapM parseProtocolVersion
  let remote := distinct (remoteVersions.map ParsedVersion.raw)
  pure ((distinct (localVersions.map ParsedVersion.raw)).filter remote.contains)

/-- `compatible.map(parseProtocolVersion).sort(..)[0].raw`. -/
def highestVersion (compatible : List Text) : Checked Text := do
  let parsed ← compatible.mapM parseProtocolVersion
  let highest ← orThrow .runtimeError (parsed.insertionSort SortsBefore).head?
  pure highest.raw

def preferences (input : NegotiationInput) : List Text :=
  input.localPreferred :: input.remotePreferred.toList

def selectVersion (input : NegotiationInput) (compatible : List Text) : Checked Text :=
  match (preferences input).find? compatible.contains with
  | some preferred => pure preferred
  | none => highestVersion compatible

def negotiateVersion (input : NegotiationInput) : Checked VersionSelection := do
  let compatible ← compatibleVersions input
  match input.requestedVersion with
  | some requestedVersion =>
    let _ ← validateProtocolVersion requestedVersion compatible
    versionSelection requestedVersion
  | none =>
    throwWhen compatible.isEmpty
      (protocolError .unsupportedProtocolVersion
        "No mutually supported protocol version is available."
        { supportedVersions := distinct input.localSupported })
    let selected ← selectVersion input compatible
    throwWhen (input.signedOrHighImpact && !input.localPreferred.isEmpty &&
        selected != input.localPreferred)
      (protocolError .unsupportedProtocolVersion
        "Silent version downgrade is not allowed for this message.")
    versionSelection selected

theorem parseProtocolVersion_raw {value : Text} {parsed : ParsedVersion}
    (h : parseProtocolVersion value = .ok parsed) : parsed.raw = value := by
  simp only [parseProtocolVersion, bind_ok, orThrow_ok, pure_ok] at h
  obtain ⟨_, _, rfl⟩ := h
  rfl

theorem map_raw_of_mapM {versions : List Text} {parsed : List ParsedVersion}
    (h : versions.mapM parseProtocolVersion = .ok parsed) : parsed.map ParsedVersion.raw = versions := by
  have hparsed := mapM_ok.mp h
  induction hparsed with
  | nil => rfl
  | cons hhead htail ih => rw [List.map_cons, parseProtocolVersion_raw hhead, ih (mapM_ok.mpr htail)]

theorem compatibleVersions_ok {input : NegotiationInput} {compatible : List Text}
    (h : compatibleVersions input = .ok compatible) :
    compatible = (distinct input.localSupported).filter (distinct input.remoteSupported).contains := by
  simp only [compatibleVersions, bind_ok, throwWhen_ok, exists_unit, pure_ok] at h
  obtain ⟨_, localVersions, hlocal, remoteVersions, hremote, rfl⟩ := h
  rw [map_raw_of_mapM hlocal, map_raw_of_mapM hremote]

def FirstHighest (versions : List Text) (version : Text) : Prop :=
  ∃ parsed highest, versions.mapM parseProtocolVersion = .ok parsed ∧
    IsFirst SortsBefore parsed highest ∧ highest.raw = version

theorem FirstHighest.unique {versions : List Text} {v w : Text} (hv : FirstHighest versions v)
    (hw : FirstHighest versions w) : v = w := by
  obtain ⟨parsed, p, hparsed, hp, rfl⟩ := hv
  obtain ⟨parsed', q, hparsed', hq, rfl⟩ := hw
  obtain rfl : parsed = parsed' := Except.ok.inj (hparsed.symm.trans hparsed')
  rw [hp.unique hq]

theorem sortsBefore_total (a b : ParsedVersion) : SortsBefore a b ∨ SortsBefore b a := by
  unfold SortsBefore Outranks
  omega

theorem sortsBefore_trans (a b c : ParsedVersion) (hab : SortsBefore a b) (hbc : SortsBefore b c) :
    SortsBefore a c := by
  unfold SortsBefore Outranks at *
  omega

theorem firstHighest_of_ok {versions : List Text} {version : Text}
    (h : highestVersion versions = .ok version) : FirstHighest versions version := by
  simp only [highestVersion, bind_ok, orThrow_ok, pure_ok] at h
  obtain ⟨parsed, hparsed, highest, hhead, rfl⟩ := h
  obtain ⟨rest, hsorted⟩ := List.head?_eq_some_iff.mp hhead
  exact ⟨parsed, highest, hparsed,
    isFirst_of_insertionSort sortsBefore_total sortsBefore_trans hsorted, rfl⟩

structure Peer where
  supported : List Text
  preferred : Option Text := none
  signedOrHighImpact : Bool := false

def Peer.ownPreference (peer : Peer) : Text := peer.preferred.getD protocolVersion

def negotiationOf (own other : Peer) : NegotiationInput where
  localSupported := own.supported
  remoteSupported := other.supported
  localPreferred := own.ownPreference
  remotePreferred := other.preferred
  signedOrHighImpact := own.signedOrHighImpact

def Mutual (a b : Peer) (version : Text) : Prop := version ∈ a.supported ∧ version ∈ b.supported

def mutualVersions (own other : Peer) : List Text :=
  (distinct own.supported).filter (distinct other.supported).contains

instance (a b : Peer) (version : Text) : Decidable (Mutual a b version) :=
  inferInstanceAs (Decidable (_ ∧ _))

theorem mutual_comm {a b : Peer} {version : Text} : Mutual a b version ↔ Mutual b a version :=
  and_comm

theorem mem_mutualVersions {own other : Peer} {version : Text} :
    version ∈ mutualVersions own other ↔ Mutual own other version := by
  simp [mutualVersions, Mutual]

inductive Chooses (own other : Peer) : Text → Prop
  | own (hown : Mutual own other own.ownPreference) : Chooses own other own.ownPreference
  | announced {version : Text} (hown : ¬Mutual own other own.ownPreference)
    (hother : other.preferred = some version) (hmutual : Mutual own other version) :
    Chooses own other version
  | highest {version : Text} (hown : ¬Mutual own other own.ownPreference)
    (hother : ∀ p, other.preferred = some p → ¬Mutual own other p)
    (hfirst : FirstHighest (mutualVersions own other) version) : Chooses own other version

theorem versionSelection_selected {version : Text} {selection : VersionSelection}
    (h : versionSelection version = .ok selection) : selection.selectedVersion = version := by
  simp only [versionSelection, bind_ok, pure_ok] at h
  obtain ⟨_, _, rfl⟩ := h
  rfl

theorem chooses_of_ok {own other : Peer} {selection : VersionSelection}
    (h : negotiateVersion (negotiationOf own other) = .ok selection) :
    Chooses own other selection.selectedVersion := by
  simp only [negotiateVersion, bind_ok] at h
  obtain ⟨compatible, hcompatible, h⟩ := h
  simp only [negotiationOf, bind_ok, throwWhen_ok, exists_unit] at h
  obtain ⟨_, selected, hselected, _, hselection⟩ := h
  rw [versionSelection_selected hselection]
  obtain rfl : compatible = mutualVersions own other := compatibleVersions_ok hcompatible
  have hcontains {version : Text} :
      (mutualVersions own other).contains version = true ↔ Mutual own other version := by
    rw [List.contains_iff_mem, mem_mutualVersions]
  simp only [selectVersion, preferences, List.find?_cons] at hselected
  split at hselected
  · next preferred hfind =>
    obtain rfl := pure_ok.mp hselected
    split at hfind
    · next hown =>
      obtain rfl := Option.some.inj hfind
      exact .own (hcontains.mp hown)
    · next hown =>
      have hown : ¬Mutual own other own.ownPreference := fun hm => by
        rw [hcontains.mpr hm] at hown
        cases hown
      cases hother : other.preferred with
      | none => simp [hother] at hfind
      | some p =>
        have hp := List.find?_some hfind
        have hmem := List.mem_of_find?_eq_some hfind
        obtain rfl : preferred = p := by simpa [hother] using hmem
        exact .announced hown hother (hcontains.mp hp)
  · next hfind =>
    split at hfind
    · cases hfind
    · next hown =>
      have hnot : ¬Mutual own other own.ownPreference := fun hm => by
        rw [hcontains.mpr hm] at hown
        cases hown
      refine .highest hnot (fun p hp hm => ?_) (firstHighest_of_ok hselected)
      simp only [hp, Option.toList_some, List.find?_eq_none, List.mem_singleton, forall_eq] at hfind
      exact hfind (hcontains.mpr hm)

def draftPeer : Peer :=
  { supported := [protocolVersion, ascii "ghostbridge/0.2"], preferred := some protocolVersion }

def nextPeer : Peer :=
  { supported := [protocolVersion, ascii "ghostbridge/0.2"]
    preferred := some (ascii "ghostbridge/0.2") }

def draftOnlyPeer : Peer := { supported := [protocolVersion] }

def draftSelection : VersionSelection :=
  ⟨protocolVersion, ascii "experimental", ["Selected protocol version is an experimental draft."]⟩

end GhostBridge.ProtocolCore
