import GhostBridge.Ecma.HexNumbers
import GhostBridge.Ecma.IpAddresses
import GhostBridge.Ecma.Text

/-!
# Canonical texts of IPv6 addresses

`canonicalIpv6` reads an address as eight groups, and accepts the text that it would write for
them.
-/

namespace GhostBridge.SchemaValidation

open Ecma

def isIpv6Unit (u : UInt16) : Bool := isLowerHex u || u == 0x3a

/-- `/^[0-9a-f]{1,4}$/u`. -/
def isGroupText (group : Text) : Bool :=
  1 ≤ group.length && group.length ≤ 4 && group.all isLowerHex

def groupTexts (half : Text) : List Text := if half = [] then [] else half.splitOn 0x3a

/-- The groups on the left and on the right of `::`, all of them on the left without it. -/
def splitGroups (value : Text) : List Text × List Text :=
  if Text.includes (ascii "::") value then
    let halves := Text.splitAround (ascii "::") value
    (groupTexts ((halves[0]?).getD []), groupTexts ((halves[1]?).getD []))
  else (groupTexts value, [])

def parseIpv6 (value : Value) : Option (List ℕ) :=
  match value with
  | .string value =>
    let compressed := Text.includes (ascii "::") value
    if value.length < 2 || 39 < value.length || !value.all isIpv6Unit then none
    else if compressed &&
        Text.indexOf? (ascii "::") value != Text.lastIndexOf? (ascii "::") value then none
    else
      let (left, right) := splitGroups value
      let explicit := left ++ right
      if !explicit.all isGroupText then none
      else if !compressed && explicit.length != 8 || compressed && 8 ≤ explicit.length then none
      else
        let groups :=
          if compressed then
            left.map parseHex ++ List.replicate (8 - explicit.length) 0 ++ right.map parseHex
          else explicit.map parseHex
        if groups.length = 8 then some groups else none
  | _ => none

structure ZeroRun where
  start : ℕ
  length : ℕ

def bestLength : Option ZeroRun → ℕ
  | none => 0
  | some best => best.length

/-- The loop of `encodeCanonicalIpv6` from an index on, where the groups from there are left.
There is no run while `bestStart` is -1. -/
def bestZeroRun (index : ℕ) (best : Option ZeroRun) : List ℕ → Option ZeroRun
  | [] => best
  | group :: rest =>
    if group ≠ 0 then bestZeroRun (index + 1) best rest
    else
      let length := 1 + (rest.takeWhile (· == 0)).length
      bestZeroRun (index + length)
        (if 2 ≤ length ∧ bestLength best < length then some ⟨index, length⟩ else best)
        (rest.dropWhile (· == 0))
termination_by groups => groups.length
decreasing_by
  · exact Nat.lt_succ_self _
  · exact Nat.lt_succ_of_le (List.dropWhile_sublist _).length_le

def joinGroups (groups : List Text) : Text := List.intercalate [0x3a] groups

def encodeCanonicalIpv6 (groups : List ℕ) : Text :=
  let rendered := groups.map hexNumeral
  match bestZeroRun 0 none groups with
  | none => joinGroups rendered
  | some best =>
    joinGroups (rendered.take best.start) ++ ascii "::" ++
      joinGroups (rendered.drop (best.start + best.length))

def isIpv4Mapped (groups : List ℕ) : Bool :=
  (groups.take 5).all (· == 0) && groups[5]? == some 0xffff

def canonicalIpv6 (value : Value) : Bool :=
  match parseIpv6 value with
  | none => false
  | some groups => !isIpv4Mapped groups && value.strictEq (.string (encodeCanonicalIpv6 groups))

structure Ipv6Address where
  groups : List ℕ
  length_groups : groups.length = 8
  group_lt : ∀ group ∈ groups, group < 2 ^ 16

structure WritesGroup (part : Text) (group : ℕ) : Prop where
  nonempty : 1 ≤ part.length
  short : part.length ≤ 4
  digits : ∀ u ∈ part, (digitValue? u).isSome = true
  value : parseHex part = group

/-- Parts between colons; the last two groups may be written as an IPv4 address. -/
inductive WritesGroups : List Text → List ℕ → Prop where
  | nil : WritesGroups [] []
  | group {part : Text} {group : ℕ} {parts : List Text} {groups : List ℕ}
      (hpart : WritesGroup part group) (hparts : WritesGroups parts groups) :
      WritesGroups (part :: parts) (group :: groups)
  | ipv4 {part : Text} {address : ℕ} (hpart : ipv4Value part = some address) :
      WritesGroups [part] [address / 65536, address % 65536]

/-- The texts of an address: its eight groups, or the groups around `::`, which stands for at least
one group of zeros. -/
inductive Denotes : Text → List ℕ → Prop where
  | explicit {parts : List Text} {groups : List ℕ} (hparts : WritesGroups parts groups)
      (hlength : groups.length = 8) : Denotes (joinGroups parts) groups
  | compressed {left right : List Text} {before behind : List ℕ}
      (hleft : List.Forall₂ WritesGroup left before) (hright : WritesGroups right behind)
      (hlength : before.length + behind.length < 8) :
      Denotes (joinGroups left ++ ascii "::" ++ joinGroups right)
        (before ++ List.replicate (8 - (before.length + behind.length)) 0 ++ behind)

def IsZeroRun (groups : List ℕ) (start length : ℕ) : Prop :=
  ∀ i, start ≤ i → i < start + length → groups[i]? = some 0

structure ShortGroup (part : Text) (group : ℕ) : Prop extends WritesGroup part group where
  lower : ∀ u ∈ part, isLowerHex u = true
  no_leading_zero : part.head? = some 0x30 → part = [0x30]

/-- The run is of two groups or more, and the first of the longest ones. -/
structure IsBestRun (groups : List ℕ) (run : ZeroRun) : Prop where
  zeros : IsZeroRun groups run.start run.length
  long : 2 ≤ run.length
  best : ∀ start length, IsZeroRun groups start length →
    length < run.length ∨ length = run.length ∧ run.start ≤ start

/-- The first of the longest runs of zeros is compressed, if one has two groups or more. -/
inductive CanonicalForm (groups : List ℕ) : Text → Prop where
  | explicit {parts : List Text} (hparts : List.Forall₂ ShortGroup parts groups)
      (hruns : ∀ start length, IsZeroRun groups start length → length < 2) :
      CanonicalForm groups (joinGroups parts)
  | compressed {left right : List Text} {run : ZeroRun} (hrun : IsBestRun groups run)
      (hleft : List.Forall₂ ShortGroup left (groups.take run.start))
      (hright : List.Forall₂ ShortGroup right (groups.drop (run.start + run.length))) :
      CanonicalForm groups (joinGroups left ++ ascii "::" ++ joinGroups right)

structure BestBefore (groups : List ℕ) (index : ℕ) (best : Option ZeroRun) : Prop where
  within : ∀ start length, IsZeroRun groups start length → 0 < length → start < index →
    start + length ≤ index
  none : best = .none → ∀ start length, IsZeroRun groups start length → start < index → length < 2
  starts : ∀ run, best = .some run → run.start < index
  some : ∀ run, best = .some run → IsZeroRun groups run.start run.length ∧ 2 ≤ run.length ∧
    ∀ start length, IsZeroRun groups start length → start < index →
      length < run.length ∨ length = run.length ∧ run.start ≤ start

variable {groups : List ℕ} {index : ℕ} {best : Option ZeroRun}

theorem BestBefore.skip (h : BestBefore groups index best) {group : ℕ}
    (hgroup : groups[index]? = .some group) (hne : group ≠ 0) :
    BestBefore groups (index + 1) best := by
  have hhere : ∀ length, IsZeroRun groups index length → length = 0 := by
    intro length hrun
    by_contra hpos
    have hzero := hrun index (Nat.le_refl index) (by omega)
    rw [hgroup] at hzero
    exact hne (Option.some.inj hzero)
  constructor
  · intro start length hrun hpos hstart
    rcases Nat.lt_succ_iff_lt_or_eq.mp hstart with hbefore | rfl
    · have hwithin := h.within start length hrun hpos hbefore
      omega
    · have hnil := hhere length hrun
      omega
  · intro hnone start length hrun hstart
    rcases Nat.lt_succ_iff_lt_or_eq.mp hstart with hbefore | rfl
    · exact h.none hnone start length hrun hbefore
    · have hnil := hhere length hrun
      omega
  · intro run hrun
    exact Nat.lt_succ_of_lt (h.starts run hrun)
  · intro run hrun
    obtain ⟨hzeros, hlong, hbest⟩ := h.some run hrun
    refine ⟨hzeros, hlong, ?_⟩
    intro start length hother hstart
    rcases Nat.lt_succ_iff_lt_or_eq.mp hstart with hbefore | rfl
    · exact hbest start length hother hbefore
    · have hnil := hhere length hother
      omega

theorem BestBefore.take (h : BestBefore groups index best) {length : ℕ} (hpos : 0 < length)
    (hrun : IsZeroRun groups index length) (hend : groups[index + length]? ≠ .some 0) :
    BestBefore groups (index + length)
      (if 2 ≤ length ∧ bestLength best < length then .some ⟨index, length⟩ else best) := by
  have hinside : ∀ start other, IsZeroRun groups start other → 0 < other → index ≤ start →
      start < index + length → start + other ≤ index + length := by
    intro start other hother hotherPos hle hlt
    by_contra hover
    exact hend (hother (index + length) (by omega) (by omega))
  constructor
  · intro start other hother hotherPos hstart
    by_cases hbefore : start < index
    · have hwithin := h.within start other hother hotherPos hbefore
      omega
    · exact hinside start other hother hotherPos (by omega) hstart
  · intro hnone start other hother hstart
    split at hnone
    next => cases hnone
    next hworse =>
      subst hnone
      have hshort : length < 2 := by
        by_contra hlong
        apply hworse
        simp only [bestLength]
        omega
      by_cases hbefore : start < index
      · exact h.none rfl start other hother hbefore
      · by_contra hlong
        have hle := hinside start other hother (by omega) (by omega) hstart
        omega
  · intro run hbest
    split at hbest
    next =>
      cases hbest
      exact Nat.lt_add_of_pos_right hpos
    next =>
      have hstarts := h.starts run hbest
      omega
  · intro run hbest
    split at hbest
    next hbetter =>
      cases hbest
      refine ⟨hrun, hbetter.1, ?_⟩
      intro start other hother hstart
      by_cases hbefore : start < index
      · cases best with
        | none =>
          have hshort := h.none rfl start other hother hbefore
          left
          show other < length
          omega
        | some run =>
          obtain ⟨-, -, hall⟩ := h.some run rfl
          have hbound := hall start other hother hbefore
          simp only [bestLength] at hbetter
          left
          show other < length
          omega
      · rcases Nat.eq_zero_or_pos other with rfl | hotherPos
        · exact .inl hpos
        · have hle := hinside start other hother hotherPos (by omega) hstart
          simp only
          omega
    next hworse =>
      subst hbest
      obtain ⟨hzeros, hlong, hall⟩ := h.some run rfl
      refine ⟨hzeros, hlong, ?_⟩
      intro start other hother hstart
      by_cases hbefore : start < index
      · exact hall start other hother hbefore
      · have hle : length ≤ run.length := by
          by_contra hmore
          apply hworse
          simp only [bestLength]
          omega
        rcases Nat.eq_zero_or_pos other with rfl | hotherPos
        · exact .inl (by omega)
        · have hother := hinside start other hother hotherPos (by omega) hstart
          have hfirst := h.starts run rfl
          omega

private theorem leadingZeros (rest : List ℕ) :
    (∀ i < (rest.takeWhile (· == 0)).length, rest[i]? = .some 0) ∧
      rest[(rest.takeWhile (· == 0)).length]? ≠ .some 0 ∧
      rest.drop (rest.takeWhile (· == 0)).length = rest.dropWhile (· == 0) := by
  induction rest with
  | nil => simp
  | cons group rest ih =>
    by_cases hzero : group = 0
    · subst hzero
      obtain ⟨hzeros, hend, hdrop⟩ := ih
      refine ⟨?_, by simpa using hend, by simpa using hdrop⟩
      intro i hi
      cases i with
      | zero => rfl
      | succ i => exact hzeros i (by simpa using hi)
    · simp [hzero]

theorem bestZeroRun_before {rest : List ℕ} (h : BestBefore groups index best)
    (hrest : groups.drop index = rest) :
    ∃ last, groups.length ≤ last ∧ BestBefore groups last (bestZeroRun index best rest) := by
  induction index, best, rest using bestZeroRun.induct with
  | case1 index best =>
    rw [bestZeroRun]
    exact ⟨index, List.drop_eq_nil_iff.mp hrest, h⟩
  | case2 index best group rest hgroup ih =>
    rw [bestZeroRun, if_pos hgroup]
    have hhere : groups[index]? = .some group := by
      rw [← Nat.add_zero index, ← List.getElem?_drop, hrest]
      rfl
    apply ih (h.skip hhere hgroup)
    rw [← List.drop_drop, hrest]
    rfl
  | case3 index best group rest hgroup length ih =>
    rw [bestZeroRun, if_neg hgroup]
    have hzero : group = 0 := by simpa using hgroup
    have hat : ∀ i, groups[index + i]? = (group :: rest)[i]? := by
      intro i
      rw [← hrest, List.getElem?_drop]
    obtain ⟨hleading, hstop, hdrop⟩ := leadingZeros rest
    have hzeros : IsZeroRun groups index length := by
      intro i hle hlt
      obtain ⟨offset, rfl⟩ := Nat.exists_eq_add_of_le hle
      rw [hat]
      cases offset with
      | zero => rw [List.getElem?_cons_zero, hzero]
      | succ offset => exact hleading offset (by omega)
    have hend : groups[index + length]? ≠ .some 0 := by
      rw [hat]
      show (group :: rest)[1 + (rest.takeWhile (· == 0)).length]? ≠ .some 0
      rw [Nat.add_comm, List.getElem?_cons_succ]
      exact hstop
    apply ih (h.take (Nat.add_pos_left Nat.one_pos _) hzeros hend)
    rw [← List.drop_drop, hrest]
    show (group :: rest).drop (1 + (rest.takeWhile (· == 0)).length) = _
    rw [Nat.add_comm, List.drop_succ_cons]
    exact hdrop

private theorem start_lt {start length : ℕ} (h : IsZeroRun groups start length) (hpos : 0 < length) :
    start < groups.length := by
  have hzero := h start (Nat.le_refl start) (by omega)
  exact (List.getElem?_eq_some_iff.mp hzero).1

theorem bestBefore_nil : BestBefore groups 0 none := by
  constructor
  · intro start length _ _ hstart
    omega
  · intro _ start length _ hstart
    omega
  · intro run hrun
    cases hrun
  · intro run hrun
    cases hrun

theorem bestZeroRun_none (h : bestZeroRun 0 none groups = none) {start length : ℕ}
    (hrun : IsZeroRun groups start length) : length < 2 := by
  obtain ⟨last, hlast, hbefore⟩ := bestZeroRun_before bestBefore_nil (@List.drop_zero _ groups)
  rcases Nat.eq_zero_or_pos length with rfl | hpos
  · exact Nat.zero_lt_two
  · exact hbefore.none h start length hrun (Nat.lt_of_lt_of_le (start_lt hrun hpos) hlast)

theorem isBestRun_of_some {run : ZeroRun} (h : bestZeroRun 0 none groups = some run) :
    IsBestRun groups run := by
  obtain ⟨last, hlast, hbefore⟩ := bestZeroRun_before bestBefore_nil (@List.drop_zero _ groups)
  obtain ⟨hzeros, hlong, hall⟩ := hbefore.some run h
  refine ⟨hzeros, hlong, ?_⟩
  intro start length hrun
  rcases Nat.eq_zero_or_pos length with rfl | hpos
  · exact .inl (by omega)
  · exact hall start length hrun (Nat.lt_of_lt_of_le (start_lt hrun hpos) hlast)

end GhostBridge.SchemaValidation
