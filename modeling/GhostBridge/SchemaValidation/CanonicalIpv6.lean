import GhostBridge.SchemaValidation.Ipv6Addresses

/-!
# One canonical text for an address

The reader undoes the writer, and of the texts that denote an address only the one that is written
for it is canonical.
-/

namespace GhostBridge.SchemaValidation

open Ecma

variable {groups : List ℕ}

def AreParts (parts : List Text) : Prop := ∀ part ∈ parts, part ≠ [] ∧ 0x3a ∉ part

variable {parts left right : List Text}

theorem joinGroups_cons (part : Text) (hne : parts ≠ []) :
    joinGroups (part :: parts) = part ++ 0x3a :: joinGroups parts := by
  unfold joinGroups
  rw [List.intercalate_cons_of_ne_nil hne]
  simp

theorem joinGroups_ne_nil (h : AreParts parts) (hne : parts ≠ []) : joinGroups parts ≠ [] := by
  cases parts with
  | nil => exact absurd rfl hne
  | cons part parts =>
    have hpart := (h part List.mem_cons_self).1
    by_cases hrest : parts = []
    · subst hrest
      simpa [joinGroups, List.intercalate] using hpart
    · rw [joinGroups_cons part hrest]
      simp

theorem groupTexts_joinGroups (h : AreParts parts) : groupTexts (joinGroups parts) = parts := by
  unfold groupTexts
  by_cases hne : parts = []
  · subst hne
    rfl
  · rw [if_neg (joinGroups_ne_nil h hne)]
    exact List.splitOn_intercalate _ (fun part hpart => (h part hpart).2) hne

theorem joinGroups_groupTexts (half : Text) : joinGroups (groupTexts half) = half := by
  unfold groupTexts joinGroups
  split
  next h =>
    subst h
    rfl
  next => exact List.intercalate_splitOn _

/-- The two colons are nowhere in a half, which they do not follow or precede either. -/
structure IsHalf (half : Text) : Prop where
  none : Text.indexOf? (ascii "::") half = .none
  head : half.head? ≠ some 0x3a
  last : half.getLast? ≠ some 0x3a

private theorem doubleColon : ascii "::" = [0x3a, 0x3a] := by decide

private theorem indexOf?_cons {u : UInt16} {rest : Text} (h : u = 0x3a → rest.head? ≠ some 0x3a) :
    Text.indexOf? (ascii "::") (u :: rest) =
      (Text.indexOf? (ascii "::") rest).map (· + 1) := by
  rw [Text.indexOf?, if_neg]
  intro hprefix
  rw [doubleColon, List.isPrefixOf_iff_prefix] at hprefix
  obtain ⟨behind, hbehind⟩ := hprefix
  cases hbehind
  exact h rfl rfl

private theorem indexOf?_append {part rest : Text} (hpart : 0x3a ∉ part)
    (hrest : Text.indexOf? (ascii "::") rest = .none) :
    Text.indexOf? (ascii "::") (part ++ rest) = .none := by
  induction part with
  | nil => exact hrest
  | cons u part ih =>
    rw [List.mem_cons, not_or] at hpart
    rw [List.cons_append, indexOf?_cons (fun hu => absurd hu.symm hpart.1), ih hpart.2]
    rfl

private theorem isHalf_of_not_mem {part : Text} (h : 0x3a ∉ part) : IsHalf part := by
  constructor
  · have hnone : Text.indexOf? (ascii "::") (part ++ []) = .none := indexOf?_append h rfl
    rwa [List.append_nil] at hnone
  · intro hhead
    exact h (List.mem_of_head? hhead)
  · intro hlast
    exact h (List.mem_of_getLast? hlast)

private theorem isHalf_cons {part rest : Text} (hpart : 0x3a ∉ part) (hne : part ≠ [])
    (hrest : IsHalf rest) (hrestNe : rest ≠ []) : IsHalf (part ++ 0x3a :: rest) := by
  constructor
  · apply indexOf?_append hpart
    rw [indexOf?_cons (fun _ => hrest.head), hrest.none]
    rfl
  · rw [List.head?_append_of_ne_nil _ hne]
    intro hhead
    exact hpart (List.mem_of_head? hhead)
  · rw [List.getLast?_append_of_ne_nil _ (List.cons_ne_nil _ _), List.getLast?_cons]
    cases hlast : rest.getLast? with
    | none => exact absurd (List.getLast?_eq_none_iff.mp hlast) hrestNe
    | some u =>
      intro hu
      exact hrest.last (hlast.trans hu)

theorem isHalf_joinGroups (h : AreParts parts) : IsHalf (joinGroups parts) := by
  induction parts with
  | nil => exact isHalf_of_not_mem List.not_mem_nil
  | cons part parts ih =>
    have hpart := h part List.mem_cons_self
    have hparts : AreParts parts := fun other hother => h other (List.mem_cons_of_mem part hother)
    by_cases hrest : parts = []
    · subst hrest
      have hjoin : joinGroups [part] = part := by simp [joinGroups, List.intercalate]
      rw [hjoin]
      exact isHalf_of_not_mem hpart.2
    · rw [joinGroups_cons part hrest]
      exact isHalf_cons hpart.2 hpart.1 (ih hparts) (joinGroups_ne_nil hparts hrest)

theorem indexOf?_between {before : Text} (behind : Text)
    (hnone : Text.indexOf? (ascii "::") before = .none) (hlast : before.getLast? ≠ some 0x3a) :
    Text.indexOf? (ascii "::") (before ++ ascii "::" ++ behind) = some before.length := by
  induction before with
  | nil =>
    rw [doubleColon]
    rfl
  | cons u before ih =>
    have hnext : u = 0x3a → before.head? ≠ some 0x3a := by
      rintro rfl hhead
      rw [Text.indexOf?, if_pos] at hnone
      · cases hnone
      · cases before with
        | nil => cases hhead
        | cons v before =>
          cases hhead
          rw [doubleColon]
          rfl
    rw [indexOf?_cons hnext, Option.map_eq_none_iff] at hnone
    cases before with
    | nil =>
      have hu : u ≠ 0x3a := fun hu => hlast (congrArg some hu)
      rw [List.singleton_append, List.cons_append, indexOf?_cons (fun h => absurd h hu),
        doubleColon]
      rfl
    | cons v before =>
      have hrest := ih hnone (by simpa using hlast)
      rw [List.cons_append, List.cons_append, indexOf?_cons (by simpa using hnext), hrest]
      rfl

theorem lastIndexOf?_between (before : Text) {behind : Text} (hbehind : IsHalf behind) :
    Text.lastIndexOf? (ascii "::") (before ++ ascii "::" ++ behind) = some before.length := by
  have hnone := indexOf?_none_iff.mp hbehind.none
  have hsecond : Text.lastIndexOf? (ascii "::") (0x3a :: behind) = .none := by
    rw [← indexOf?_none_iff, indexOf?_cons (fun _ => hbehind.head), hbehind.none]
    rfl
  have hfirst : Text.lastIndexOf? (ascii "::") (ascii "::" ++ behind) = some 0 := by
    rw [doubleColon] at hsecond ⊢
    rw [List.cons_append, List.singleton_append, Text.lastIndexOf?, hsecond]
    rfl
  rw [List.append_assoc]
  exact lastIndexOf?_append_of_some before hfirst

theorem not_mem_of_writesGroup {part : Text} {group : ℕ} (h : WritesGroup part group) :
    part ≠ [] ∧ 0x3a ∉ part := by
  constructor
  · intro hnil
    have hlength := h.nonempty
    rw [hnil] at hlength
    exact absurd hlength (by decide)
  · intro hmem
    have hdigit := h.digits 0x3a hmem
    revert hdigit
    decide

theorem areParts_of_writesGroup (h : List.Forall₂ WritesGroup parts groups) : AreParts parts := by
  induction h with
  | nil => exact fun part hpart => absurd hpart List.not_mem_nil
  | cons hpart _ ih =>
    intro part hmem
    rcases List.mem_cons.mp hmem with rfl | hmem
    · exact not_mem_of_writesGroup hpart
    · exact ih part hmem

theorem map_parseHex_of_writesGroup (h : List.Forall₂ WritesGroup parts groups) :
    parts.map parseHex = groups := by
  induction h with
  | nil => rfl
  | cons hpart _ ih => rw [List.map_cons, hpart.value, ih]

theorem writesGroup_of_isGroupText {part : Text} (h : isGroupText part = true) :
    WritesGroup part (parseHex part) := by
  simp only [isGroupText, Bool.and_eq_true, decide_eq_true_eq, List.all_eq_true] at h
  obtain ⟨⟨hnonempty, hshort⟩, hunits⟩ := h
  exact ⟨hnonempty, hshort, fun u hu => isSome_digitValue? (hunits u hu), rfl⟩

theorem parseHex_lt_of_isGroupText {part : Text} (h : isGroupText part = true) :
    parseHex part < 2 ^ 16 := by
  have hlt := parseHex_lt part
  have hshort := (writesGroup_of_isGroupText h).short
  calc parseHex part < 16 ^ part.length := hlt
    _ ≤ 16 ^ 4 := Nat.pow_le_pow_right (by decide) hshort
    _ = 2 ^ 16 := by decide

theorem isGroupText_of_writesGroup {part : Text} {group : ℕ} (h : WritesGroup part group)
    (hunits : ∀ u ∈ part, isIpv6Unit u = true) : isGroupText part = true := by
  have hlower : ∀ u ∈ part, isLowerHex u = true := by
    intro u hu
    have hunit := hunits u hu
    rw [isIpv6Unit, Bool.or_eq_true, beq_iff_eq] at hunit
    rcases hunit with hlower | rfl
    · exact hlower
    · exact absurd hu (not_mem_of_writesGroup h).2
  simp only [isGroupText, Bool.and_eq_true, decide_eq_true_eq, List.all_eq_true]
  exact ⟨⟨h.nonempty, h.short⟩, hlower⟩

theorem forall₂_of_writesGroups (h : WritesGroups parts groups)
    (hdots : ∀ part ∈ parts, 0x2e ∉ part) : List.Forall₂ WritesGroup parts groups := by
  induction h with
  | nil => exact .nil
  | group hpart _ ih =>
    exact .cons hpart (ih fun part hmem => hdots part (List.mem_cons_of_mem _ hmem))
  | @ipv4 part address hpart =>
    have hdot := hdots part (List.mem_singleton.mpr rfl)
    unfold ipv4Value at hpart
    rw [List.splitOn_eq_singleton hdot] at hpart
    cases hoctet : ipv4Octet part with
    | none => simp [hoctet] at hpart
    | some octet => simp [hoctet] at hpart

theorem writesGroups_of_forall₂ (h : List.Forall₂ WritesGroup parts groups) :
    WritesGroups parts groups := by
  induction h with
  | nil => exact .nil
  | cons hpart _ ih => exact .group hpart ih

theorem mem_joinGroups {part : Text} (hpart : part ∈ parts) {u : UInt16} (hu : u ∈ part) :
    u ∈ joinGroups parts := by
  induction parts with
  | nil => exact absurd hpart List.not_mem_nil
  | cons first parts ih =>
    by_cases hrest : parts = []
    · subst hrest
      obtain rfl := List.mem_singleton.mp hpart
      simpa [joinGroups, List.intercalate] using hu
    · rw [joinGroups_cons first hrest]
      rcases List.mem_cons.mp hpart with rfl | hmem
      · exact List.mem_append_left _ hu
      · exact List.mem_append_right _ (List.mem_cons_of_mem _ (ih hmem))

theorem unit_of_mem_joinGroups {u : UInt16} (h : u ∈ joinGroups parts) :
    u = 0x3a ∨ ∃ part ∈ parts, u ∈ part := by
  induction parts with
  | nil => exact absurd h List.not_mem_nil
  | cons first parts ih =>
    by_cases hrest : parts = []
    · subst hrest
      refine .inr ⟨first, List.mem_singleton.mpr rfl, ?_⟩
      simpa [joinGroups, List.intercalate] using h
    · rw [joinGroups_cons first hrest] at h
      rcases List.mem_append.mp h with hfirst | hbehind
      · exact .inr ⟨first, List.mem_cons_self, hfirst⟩
      · rcases List.mem_cons.mp hbehind with rfl | hmem
        · exact .inl rfl
        · rcases ih hmem with rfl | ⟨part, hpart, hu⟩
          · exact .inl rfl
          · exact .inr ⟨part, List.mem_cons_of_mem _ hpart, hu⟩

theorem length_joinGroups (h : List.Forall₂ WritesGroup parts groups) :
    parts.length ≤ (joinGroups parts).length ∧
      (joinGroups parts).length ≤ 5 * parts.length - 1 := by
  induction h with
  | nil => exact ⟨Nat.le_refl 0, Nat.le_refl 0⟩
  | @cons part group parts groups hpart hparts ih =>
    have hnonempty := hpart.nonempty
    have hshort := hpart.short
    by_cases hrest : parts = []
    · subst hrest
      have hjoin : joinGroups [part] = part := by simp [joinGroups, List.intercalate]
      rw [hjoin]
      exact ⟨hnonempty, hshort⟩
    · have hpos := List.length_pos_iff.mpr hrest
      rw [joinGroups_cons part hrest, List.length_append, List.length_cons, List.length_cons]
      omega

theorem not_mem_dot {part : Text} (hunits : ∀ u ∈ joinGroups parts, isIpv6Unit u = true)
    (hpart : part ∈ parts) : 0x2e ∉ part := by
  intro hdot
  have hunit := hunits 0x2e (mem_joinGroups hpart hdot)
  revert hunit
  decide

theorem all_isGroupText (h : List.Forall₂ WritesGroup parts groups)
    (hunits : ∀ u ∈ joinGroups parts, isIpv6Unit u = true) :
    ∀ part ∈ parts, isGroupText part = true := by
  have hwritten : ∀ part ∈ parts, ∃ group, WritesGroup part group := by
    clear hunits
    induction h with
    | nil => exact fun part hpart => absurd hpart List.not_mem_nil
    | cons hpart _ ih =>
      intro part hmem
      rcases List.mem_cons.mp hmem with rfl | hmem
      · exact ⟨_, hpart⟩
      · exact ih part hmem
  intro part hpart
  obtain ⟨group, hgroup⟩ := hwritten part hpart
  exact isGroupText_of_writesGroup hgroup fun u hu => hunits u (mem_joinGroups hpart hu)

theorem parseIpv6_explicit (h : List.Forall₂ WritesGroup parts groups) (hlength : groups.length = 8)
    (hunits : ∀ u ∈ joinGroups parts, isIpv6Unit u = true) :
    parseIpv6 (.string (joinGroups parts)) = some groups := by
  have hparts := areParts_of_writesGroup h
  have hhalf := isHalf_joinGroups hparts
  have hcount : parts.length = 8 := h.length_eq.trans hlength
  have hbounds := length_joinGroups h
  have hincludes : Text.includes (ascii "::") (joinGroups parts) = false := by
    rw [Text.includes, hhalf.none]
    rfl
  have hsplit : splitGroups (joinGroups parts) = (parts, []) := by
    rw [splitGroups, if_neg (by rw [hincludes]; decide), groupTexts_joinGroups hparts]
  have hshort : (decide ((joinGroups parts).length < 2) ||
      decide (39 < (joinGroups parts).length) || !(joinGroups parts).all isIpv6Unit) = false := by
    rw [List.all_eq_true.mpr hunits, Bool.or_eq_false_iff, Bool.or_eq_false_iff,
      decide_eq_false_iff_not, decide_eq_false_iff_not]
    exact ⟨⟨by omega, by omega⟩, rfl⟩
  have hall : parts.all isGroupText = true := List.all_eq_true.mpr (all_isGroupText h hunits)
  simp only [parseIpv6, hshort, hincludes, hsplit, List.append_nil, hall, hcount]
  simp [map_parseHex_of_writesGroup h, hlength]

theorem parseIpv6_compressed {before behind : List ℕ} (hleft : List.Forall₂ WritesGroup left before)
    (hright : List.Forall₂ WritesGroup right behind) (hlength : before.length + behind.length < 8)
    (hunits : ∀ u ∈ joinGroups left ++ ascii "::" ++ joinGroups right, isIpv6Unit u = true) :
    parseIpv6 (.string (joinGroups left ++ ascii "::" ++ joinGroups right)) =
      some (before ++ List.replicate (8 - (before.length + behind.length)) 0 ++ behind) := by
  have hleftParts := areParts_of_writesGroup hleft
  have hrightParts := areParts_of_writesGroup hright
  have hleftHalf := isHalf_joinGroups hleftParts
  have hrightHalf := isHalf_joinGroups hrightParts
  have hfirst := indexOf?_between (joinGroups right) hleftHalf.none hleftHalf.last
  have hlast := lastIndexOf?_between (joinGroups left) hrightHalf
  have hleftBounds := length_joinGroups hleft
  have hrightBounds := length_joinGroups hright
  have hleftLength := hleft.length_eq
  have hrightLength := hright.length_eq
  have hleftAll := all_isGroupText hleft fun u hu =>
    hunits u (List.mem_append_left _ (List.mem_append_left _ hu))
  have hrightAll := all_isGroupText hright fun u hu => hunits u (List.mem_append_right _ hu)
  generalize htext : joinGroups left ++ ascii "::" ++ joinGroups right = text at *
  have hincludes : Text.includes (ascii "::") text = true := by
    rw [Text.includes, hfirst]
    rfl
  have hsplit : splitGroups text = (left, right) := by
    have hhalves := splitAround_of_once (by decide) hfirst hlast
    have htake : text.take (joinGroups left).length = joinGroups left := by
      rw [← htext, List.append_assoc, List.take_left]
    have hdrop : text.drop ((joinGroups left).length + (ascii "::").length) = joinGroups right := by
      rw [← htext, ← List.length_append, List.drop_left]
    rw [htake, hdrop] at hhalves
    rw [splitGroups, if_pos hincludes, hhalves]
    show (groupTexts (joinGroups left), groupTexts (joinGroups right)) = (left, right)
    rw [groupTexts_joinGroups hleftParts, groupTexts_joinGroups hrightParts]
  have htextLength : text.length = (joinGroups left).length + 2 + (joinGroups right).length := by
    rw [← htext, List.length_append, List.length_append]
    rfl
  have hshort : (decide (text.length < 2) || decide (39 < text.length) ||
      !text.all isIpv6Unit) = false := by
    rw [List.all_eq_true.mpr hunits, Bool.or_eq_false_iff, Bool.or_eq_false_iff,
      decide_eq_false_iff_not, decide_eq_false_iff_not]
    exact ⟨⟨by omega, by omega⟩, rfl⟩
  have hall : (left ++ right).all isGroupText = true := by
    rw [List.all_append, List.all_eq_true.mpr hleftAll, List.all_eq_true.mpr hrightAll]
    rfl
  have hcount : (left ++ right).length = before.length + behind.length := by
    rw [List.length_append]
    omega
  simp only [parseIpv6, hshort, hincludes, hsplit, hall, hcount, hfirst, hlast]
  rw [map_parseHex_of_writesGroup hleft, map_parseHex_of_writesGroup hright]
  have hroom : ¬8 ≤ before.length + behind.length := by omega
  have hgroups : before.length + (8 - (before.length + behind.length) + behind.length) = 8 := by
    omega
  simp [hroom, hgroups]

theorem parseIpv6_of_denotes {text : Text} (h : Denotes text groups)
    (hunits : ∀ u ∈ text, isIpv6Unit u = true) : parseIpv6 (.string text) = some groups := by
  cases h with
  | explicit hparts hlength =>
    have hwritten := forall₂_of_writesGroups hparts fun _ hpart => not_mem_dot hunits hpart
    exact parseIpv6_explicit hwritten hlength hunits
  | compressed hleft hright hlength =>
    have hwritten := forall₂_of_writesGroups hright fun _ hpart =>
      not_mem_dot (fun u hu => hunits u (List.mem_append_right _ hu)) hpart
    exact parseIpv6_compressed hleft hwritten hlength hunits

theorem writesGroup_map_parseHex (h : parts.all isGroupText = true) :
    List.Forall₂ WritesGroup parts (parts.map parseHex) := by
  rw [List.all_eq_true] at h
  induction parts with
  | nil => exact .nil
  | cons part parts ih =>
    rw [List.map_cons]
    refine .cons (writesGroup_of_isGroupText (h part List.mem_cons_self)) (ih ?_)
    exact fun other hother => h other (List.mem_cons_of_mem part hother)

theorem group_lt_of_isGroupText (h : parts.all isGroupText = true) {group : ℕ}
    (hgroup : group ∈ parts.map parseHex) : group < 2 ^ 16 := by
  obtain ⟨part, hpart, rfl⟩ := List.mem_map.mp hgroup
  exact parseHex_lt_of_isGroupText (List.all_eq_true.mp h part hpart)

theorem denotes_of_splitGroups {text : Text} (hincludes : Text.includes (ascii "::") text = true)
    (honce : Text.indexOf? (ascii "::") text = Text.lastIndexOf? (ascii "::") text)
    (hleft : (splitGroups text).1.all isGroupText = true)
    (hright : (splitGroups text).2.all isGroupText = true)
    (hroom : (splitGroups text).1.length + (splitGroups text).2.length < 8) :
    Denotes text ((splitGroups text).1.map parseHex ++
      List.replicate (8 - ((splitGroups text).1.length + (splitGroups text).2.length)) 0 ++
      (splitGroups text).2.map parseHex) := by
  obtain ⟨i, hfirst⟩ := Option.isSome_iff_exists.mp hincludes
  have hhalves := splitAround_of_once (by decide) hfirst (honce.symm.trans hfirst)
  have hsplit : splitGroups text =
      (groupTexts (text.take i), groupTexts (text.drop (i + (ascii "::").length))) := by
    rw [splitGroups, if_pos hincludes, hhalves]
    rfl
  rw [hsplit] at hleft hright hroom ⊢
  have hdenotes := Denotes.compressed (writesGroup_map_parseHex hleft)
    (writesGroups_of_forall₂ (writesGroup_map_parseHex hright))
    (by simpa only [List.length_map] using hroom)
  rw [joinGroups_groupTexts, joinGroups_groupTexts, ← split_of_indexOf? hfirst, List.length_map,
    List.length_map] at hdenotes
  exact hdenotes

theorem denotes_of_parseIpv6 {text : Text} (h : parseIpv6 (.string text) = some groups) :
    Denotes text groups ∧ (∀ u ∈ text, isIpv6Unit u = true) ∧ groups.length = 8 ∧
      ∀ group ∈ groups, group < 2 ^ 16 := by
  simp only [parseIpv6] at h
  split at h
  next => cases h
  next hshort =>
    split at h
    next => cases h
    next honce =>
      split at h
      next => cases h
      next hall =>
        split at h
        next => cases h
        next hcount =>
          have hunits : ∀ u ∈ text, isIpv6Unit u = true := by
            simp only [Bool.or_eq_true, not_or, Bool.not_eq_true', Bool.not_eq_false] at hshort
            exact List.all_eq_true.mp hshort.2
          rw [Bool.not_eq_true', Bool.not_eq_false, List.all_append, Bool.and_eq_true] at hall
          by_cases hincludes : Text.includes (ascii "::") text = true
          · rw [hincludes] at honce hcount h
            rw [if_pos rfl] at h
            obtain ⟨hlength, hgroups⟩ := Option.ite_none_right_eq_some.mp h
            cases hgroups
            refine ⟨?_, hunits, hlength, ?_⟩
            · have hroom : (splitGroups text).1.length + (splitGroups text).2.length < 8 := by
                simpa using hcount
              have hdenotes := denotes_of_splitGroups hincludes (by simpa using honce) hall.1 hall.2
                hroom
              rw [List.length_append]
              exact hdenotes
            · intro group hgroup
              rcases List.mem_append.mp hgroup with hfront | hbehind
              · rcases List.mem_append.mp hfront with hleft | hzero
                · exact group_lt_of_isGroupText hall.1 hleft
                · rw [List.eq_of_mem_replicate hzero]
                  decide
              · exact group_lt_of_isGroupText hall.2 hbehind
          · rw [Bool.not_eq_true] at hincludes
            rw [hincludes] at h
            rw [if_neg Bool.false_ne_true] at h
            obtain ⟨hlength, hgroups⟩ := Option.ite_none_right_eq_some.mp h
            cases hgroups
            have hsplit : splitGroups text = (groupTexts text, []) := by
              rw [splitGroups, hincludes]
              rfl
            rw [hsplit] at hall hlength ⊢
            simp only [List.append_nil] at hlength ⊢
            refine ⟨?_, hunits, hlength, fun group hgroup => group_lt_of_isGroupText hall.1 hgroup⟩
            have hdenotes := Denotes.explicit
              (writesGroups_of_forall₂ (writesGroup_map_parseHex hall.1)) hlength
            rwa [joinGroups_groupTexts] at hdenotes

theorem shortGroup_hexNumeral {group : ℕ} (h : group < 2 ^ 16) :
    ShortGroup (hexNumeral group) group where
  nonempty := List.length_pos_iff.mpr (hexNumeral_ne_nil group)
  short := length_hexNumeral_le (by decide) h
  digits := fun u hu => isSome_digitValue? (hexNumeral_isLowerHex group u hu)
  value := parseHex_hexNumeral group
  lower := hexNumeral_isLowerHex group
  no_leading_zero := hexNumeral_head

theorem shortGroup_map_hexNumeral (h : ∀ group ∈ groups, group < 2 ^ 16) :
    List.Forall₂ ShortGroup (groups.map hexNumeral) groups := by
  induction groups with
  | nil => exact .nil
  | cons group groups ih =>
    rw [List.map_cons]
    refine .cons (shortGroup_hexNumeral (h group List.mem_cons_self)) (ih ?_)
    exact fun other hother => h other (List.mem_cons_of_mem group hother)

theorem canonicalForm_encodeCanonicalIpv6 (h : ∀ group ∈ groups, group < 2 ^ 16) :
    CanonicalForm groups (encodeCanonicalIpv6 groups) := by
  unfold encodeCanonicalIpv6
  cases hbest : bestZeroRun 0 none groups with
  | none =>
    exact .explicit (shortGroup_map_hexNumeral h) fun _ _ hrun => bestZeroRun_none hbest hrun
  | some run =>
    simp only
    rw [← List.map_take, ← List.map_drop]
    apply CanonicalForm.compressed (isBestRun_of_some hbest)
    · exact shortGroup_map_hexNumeral fun group hgroup => h group (List.mem_of_mem_take hgroup)
    · exact shortGroup_map_hexNumeral fun group hgroup => h group (List.mem_of_mem_drop hgroup)

theorem writesGroup_of_shortGroup (h : List.Forall₂ ShortGroup parts groups) :
    List.Forall₂ WritesGroup parts groups :=
  h.imp fun _ _ hgroup => hgroup.toWritesGroup

theorem units_of_shortGroup (h : List.Forall₂ ShortGroup parts groups) :
    ∀ u ∈ joinGroups parts, isIpv6Unit u = true := by
  have hlower : ∀ part ∈ parts, ∀ u ∈ part, isLowerHex u = true := by
    induction h with
    | nil => exact fun part hpart => absurd hpart List.not_mem_nil
    | cons hpart _ ih =>
      intro part hmem
      rcases List.mem_cons.mp hmem with rfl | hmem
      · exact hpart.lower
      · exact ih part hmem
  intro u hu
  rw [isIpv6Unit, Bool.or_eq_true, beq_iff_eq]
  rcases unit_of_mem_joinGroups hu with rfl | ⟨part, hpart, hmem⟩
  · exact .inr rfl
  · exact .inl (hlower part hpart u hmem)

theorem eq_around_zeroRun {run : ZeroRun} (h : IsZeroRun groups run.start run.length)
    (hpos : 0 < run.length) :
    run.start + run.length ≤ groups.length ∧ groups = groups.take run.start ++
      List.replicate run.length 0 ++ groups.drop (run.start + run.length) := by
  have hlast := h (run.start + run.length - 1) (by omega) (by omega)
  have hfits := (List.getElem?_eq_some_iff.mp hlast).1
  refine ⟨by omega, ?_⟩
  have hzeros : (groups.drop run.start).take run.length = List.replicate run.length 0 := by
    apply List.ext_getElem?
    intro i
    by_cases hi : i < run.length
    · rw [List.getElem?_take_of_lt hi, List.getElem?_drop, h (run.start + i) (by omega) (by omega),
        List.getElem?_replicate_of_lt hi]
    · rw [List.getElem?_take_eq_none (by omega), List.getElem?_eq_none (by simpa using hi)]
  rw [← hzeros, List.append_assoc, ← List.drop_drop, List.take_append_drop, List.take_append_drop]

theorem denotes_of_canonicalForm (address : Ipv6Address) {text : Text}
    (h : CanonicalForm address.groups text) :
    Denotes text address.groups ∧ ∀ u ∈ text, isIpv6Unit u = true := by
  cases h with
  | explicit hparts _ =>
    have hwritten := writesGroups_of_forall₂ (writesGroup_of_shortGroup hparts)
    exact ⟨.explicit hwritten address.length_groups, units_of_shortGroup hparts⟩
  | @compressed left right run hrun hleft hright =>
    have hlong := hrun.long
    obtain ⟨hfits, haround⟩ := eq_around_zeroRun hrun.zeros (by omega)
    rw [address.length_groups] at hfits
    have htake : (address.groups.take run.start).length = run.start := by
      rw [List.length_take, address.length_groups]
      omega
    have hdrop : (address.groups.drop (run.start + run.length)).length =
        8 - (run.start + run.length) := by
      rw [List.length_drop, address.length_groups]
    constructor
    · have hdenotes := Denotes.compressed (writesGroup_of_shortGroup hleft)
        (writesGroups_of_forall₂ (writesGroup_of_shortGroup hright)) (by omega)
      have hzeros : 8 - (run.start + (8 - (run.start + run.length))) = run.length := by omega
      rw [htake, hdrop, hzeros, ← haround] at hdenotes
      exact hdenotes
    · intro u hu
      rcases List.mem_append.mp hu with hfront | hbehind
      · rcases List.mem_append.mp hfront with hu | hu
        · exact units_of_shortGroup hleft u hu
        · rw [doubleColon] at hu
          have hcolon : u = 0x3a := by simpa using hu
          rw [hcolon]
          decide
      · exact units_of_shortGroup hright u hbehind

theorem parseIpv6_encodeCanonicalIpv6 (address : Ipv6Address) :
    parseIpv6 (.string (encodeCanonicalIpv6 address.groups)) = some address.groups := by
  have hform := canonicalForm_encodeCanonicalIpv6 address.group_lt
  obtain ⟨hdenotes, hunits⟩ := denotes_of_canonicalForm address hform
  exact parseIpv6_of_denotes hdenotes hunits

theorem canonicalIpv6_iff {text : Text} :
    canonicalIpv6 (.string text) = true ↔
      ∃ groups, parseIpv6 (.string text) = some groups ∧ isIpv4Mapped groups = false ∧
        text = encodeCanonicalIpv6 groups := by
  unfold canonicalIpv6
  cases parseIpv6 (.string text) with
  | none => simp
  | some groups => simp [Value.strictEq]

/-- The reader undoes the writer, the writer gives the canonical form, and of the texts that denote
an address this form alone is accepted, if the address is not mapped; what denotes no address is
not. -/
theorem canonicalIpv6_law (address : Ipv6Address) (text : Text) :
    parseIpv6 (.string (encodeCanonicalIpv6 address.groups)) = some address.groups ∧
      CanonicalForm address.groups (encodeCanonicalIpv6 address.groups) ∧
      (canonicalIpv6 (.string text) = true ∧ Denotes text address.groups ↔
        isIpv4Mapped address.groups = false ∧ text = encodeCanonicalIpv6 address.groups) ∧
      (canonicalIpv6 (.string text) = true ↔ ∃ other : Ipv6Address, Denotes text other.groups ∧
        isIpv4Mapped other.groups = false ∧ text = encodeCanonicalIpv6 other.groups) := by
  have hparse := parseIpv6_encodeCanonicalIpv6 address
  have hform := canonicalForm_encodeCanonicalIpv6 address.group_lt
  refine ⟨hparse, hform, ?_, ?_⟩
  · rw [canonicalIpv6_iff]
    constructor
    · rintro ⟨⟨groups, hgroups, hmapped, htext⟩, hdenotes⟩
      have hunits := (denotes_of_parseIpv6 hgroups).2.1
      have hsame := parseIpv6_of_denotes hdenotes hunits
      rw [hgroups] at hsame
      cases hsame
      exact ⟨hmapped, htext⟩
    · rintro ⟨hmapped, rfl⟩
      exact ⟨⟨address.groups, hparse, hmapped, rfl⟩, (denotes_of_canonicalForm address hform).1⟩
  · rw [canonicalIpv6_iff]
    constructor
    · rintro ⟨groups, hgroups, hmapped, htext⟩
      obtain ⟨hdenotes, -, hlength, hlt⟩ := denotes_of_parseIpv6 hgroups
      exact ⟨⟨groups, hlength, hlt⟩, hdenotes, hmapped, htext⟩
    · rintro ⟨other, hdenotes, hmapped, rfl⟩
      exact ⟨other.groups, parseIpv6_encodeCanonicalIpv6 other, hmapped, rfl⟩

end GhostBridge.SchemaValidation
