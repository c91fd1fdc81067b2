import GhostBridge.DelegatedData.Paths

/-!
# What paths reach

A path that passes its checks reaches the position of its segments.
-/

namespace GhostBridge.DelegatedData

open Ecma Delegation

variable {segment : Text} {segments : List Text} {q : Position}

structure SafePath (segments : List Text) : Prop where
  ne_nil : segments ≠ []
  safe : ∀ segment ∈ segments, isSafeSegment segment = true

theorem pathSegments_ok {path : Value} {allowHidden : Bool} :
    pathSegments path allowHidden = .ok segments ↔
      ∃ text, (path.orElse (.string [])).toText? = some text ∧
        segments = normalizedSegments text ∧ segments ≠ [] ∧
        segments.length ≤ InterAgentLimits.maximumPathDepth ∧
        ∀ segment ∈ segments, mayNotName allowHidden segment = false := by
  unfold pathSegments textOf
  simp only [bind_ok, orThrow_ok, throwWhen_ok, exists_unit, pure_ok, Bool.or_eq_false_iff,
    decide_eq_false_iff_not, List.isEmpty_eq_false_iff, not_lt, List.any_eq_false,
    Bool.not_eq_true]
  constructor
  · rintro ⟨text, htext, ⟨⟨hne, hlength⟩, hnames⟩, rfl⟩
    exact ⟨text, htext, rfl, hne, hlength, hnames⟩
  · rintro ⟨text, htext, rfl, hne, hlength, hnames⟩
    exact ⟨text, htext, ⟨⟨hne, hlength⟩, hnames⟩, rfl⟩

theorem isSafeSegment_of_mayNotName {allowHidden : Bool} (h : mayNotName allowHidden segment = false) :
    isSafeSegment segment = true := by
  unfold mayNotName at h
  simp only [Bool.or_eq_false_iff, Bool.not_eq_false'] at h
  exact h.1.1

theorem safePath_of_pathSegments {path : Value} {allowHidden : Bool}
    (h : pathSegments path allowHidden = .ok segments) : SafePath segments := by
  obtain ⟨text, -, -, hne, -, hnames⟩ := pathSegments_ok.mp h
  exact ⟨hne, fun s hs => isSafeSegment_of_mayNotName (hnames s hs)⟩

theorem arrayIndex?_of_isSafeSegment (h : isSafeSegment segment = true) :
    arrayIndex? segment = none := by
  cases segment with
  | nil => cases h
  | cons u rest =>
    have hletter : isLetter u = true := by
      unfold isSafeSegment at h
      simp only [Bool.and_eq_true] at h
      exact h.1.1
    unfold arrayIndex?
    apply if_neg
    rintro ⟨hdigits, -⟩
    have hu : u ∈ decimalDigits (digitsValue (u :: rest)) := by
      rw [hdigits]
      exact List.mem_cons_self
    have hdigit := decimalDigits_isDigit _ u hu
    unfold isLetter at hletter
    unfold isDigit at hdigit
    simp only [Bool.or_eq_true, Bool.and_eq_true, decide_eq_true_eq, UInt16.le_iff_toNat_le]
      at hletter hdigit
    rcases hletter with ⟨h1, -⟩ | ⟨h1, -⟩
    · exact absurd (le_trans h1 hdigit.2) (by decide)
    · exact absurd (le_trans h1 hdigit.2) (by decide)

theorem ownMember_object (members : List (Text × Value)) (segment : Text) :
    ownMember (.object members) segment = (members.lookup segment).filter fun v => !v.isUndefined :=
  rfl

theorem ownMember_eq_at (value : Value) (h : isSafeSegment segment = true) :
    ownMember value segment = value.at? [.member segment] := by
  cases value with
  | object members =>
    rw [ownMember_object, Value.at?_object]
    cases members.lookup segment with
    | none => rfl
    | some v => cases v <;> rfl
  | array items =>
    show ((arrayIndex? segment).bind _) = none
    rw [arrayIndex?_of_isSafeSegment h]
    rfl
  | _ => rfl

theorem readOwn_eq_at (value : Value) (hne : segments ≠ [])
    (hsafe : ∀ segment ∈ segments, isSafeSegment segment = true) :
    readOwn value segments = value.at? (.ofNames segments) := by
  induction segments generalizing value with
  | nil => exact absurd rfl hne
  | cons segment segments ih =>
    rw [readOwn, ownMember_eq_at value (hsafe segment List.mem_cons_self)]
    by_cases hrest : segments = []
    · subst hrest
      show ((value.at? [.member segment]).bind fun v => some v) = value.at? [.member segment]
      cases value.at? [.member segment] <;> rfl
    · have hstep (v : Value) : readOwn v segments = v.at? (.ofNames segments) :=
        ih v hrest fun s hs => hsafe s (List.mem_cons_of_mem _ hs)
      simp only [hstep]
      show _ = value.at? ([.member segment] ++ Position.ofNames segments)
      cases hundefined : value.isUndefined with
      | false => rw [Value.at?_append value _ _ hundefined]
      | true =>
        cases value with
        | undefined => rfl
        | _ => cases hundefined

theorem at?_member_of_ne_object {target : Value} (h : ∀ members, target ≠ .object members)
    (name : Text) (q : Position) : target.at? (.member name :: q) = none := by
  cases target with
  | object members => exact absurd rfl (h members)
  | array items => exact Value.at?_array_member items name q
  | _ => rfl

theorem at?_above {v w : Value} (h : v.at? (.ofNames segments) = some w)
    (habove : q <+: Position.ofNames segments) (hq : q ≠ Position.ofNames segments) :
    ∃ members, v.at? q = some (.object members) := by
  induction segments generalizing v q with
  | nil => exact absurd (List.prefix_nil.mp habove) hq
  | cons segment segments ih =>
    have hcons : Position.ofNames (segment :: segments) =
      .member segment :: Position.ofNames segments := rfl
    rw [hcons] at h habove hq
    have hobject : ∃ members, v = .object members := by
      by_contra hnone
      rw [at?_member_of_ne_object (fun ms e => hnone ⟨ms, e⟩)] at h
      cases h
    obtain ⟨members, rfl⟩ := hobject
    cases q with
    | nil => exact ⟨members, rfl⟩
    | cons step q =>
      rw [List.cons_prefix_cons] at habove
      obtain ⟨rfl, hrest⟩ := habove
      rw [Value.at?_object] at h ⊢
      cases hlookup : members.lookup segment with
      | none =>
        rw [hlookup] at h
        cases h
      | some child =>
        rw [hlookup] at h
        exact ih h hrest fun e => hq (congrArg _ e)

variable {before : List Text} {members written : List (Text × Value)} {value : Value}

theorem lookup_defineMember (members : List (Text × Value)) (name other : Text) (value : Value) :
    (defineMember members name value).lookup other =
      if other = name then some value else members.lookup other := by
  split
  · next h => rw [h, Value.lookup_defineMember_self]
  · next h => exact lookup_defineMember_of_ne h value

theorem assignMembers_cons {segments : List Text} (hne : segments ≠ [])
    (h : assignMembers before members (segment :: segments) value = .ok written) :
    ∃ inner child, (members.lookup segment = none ∧ inner = [] ∨
        members.lookup segment = some (.object inner)) ∧
      assignMembers (before ++ [segment]) inner segments value = .ok child ∧
      written = defineMember members segment (.object child) := by
  rw [assignMembers] at h
  · cases hlookup : members.lookup segment with
    | none =>
      rw [hlookup] at h
      obtain ⟨child, hchild, hwritten⟩ := bind_ok.mp h
      exact ⟨[], child, .inl ⟨rfl, rfl⟩, hchild, (pure_ok.mp hwritten).symm⟩
    | some old =>
      rw [hlookup] at h
      cases old with
      | object inner =>
        obtain ⟨child, hchild, hwritten⟩ := bind_ok.mp h
        exact ⟨inner, child, .inr rfl, hchild, (pure_ok.mp hwritten).symm⟩
      | _ => cases h
  · exact hne

theorem at?_assignMembers (hne : segments ≠ [])
    (h : assignMembers before members segments value = .ok written) (q : Position) :
    (Value.object written).at? (Position.ofNames segments ++ q) = value.at? q := by
  induction segments generalizing before members written with
  | nil => exact absurd rfl hne
  | cons segment segments ih =>
    show (Value.object written).at? (.member segment :: (Position.ofNames segments ++ q)) = _
    rw [Value.at?_object]
    by_cases hrest : segments = []
    · subst hrest
      obtain rfl : defineMember members segment value = written := pure_ok.mp h
      rw [lookup_defineMember, if_pos rfl]
      rfl
    · obtain ⟨inner, child, -, hchild, rfl⟩ := assignMembers_cons hrest h
      rw [lookup_defineMember, if_pos rfl]
      exact ih hrest hchild

theorem at?_assignMembers_beside (hne : segments ≠ [])
    (h : assignMembers before members segments value = .ok written)
    (hbelow : ¬Position.ofNames segments <+: q) (habove : ¬q <+: Position.ofNames segments) :
    (Value.object written).at? q = (Value.object members).at? q := by
  induction segments generalizing before members written q with
  | nil => exact absurd rfl hne
  | cons segment segments ih =>
    cases q with
    | nil => exact absurd List.nil_prefix habove
    | cons step q =>
      cases step with
      | item index => rw [Value.at?_object_item, Value.at?_object_item]
      | member name =>
        have hcons : Position.ofNames (segment :: segments) =
          .member segment :: Position.ofNames segments := rfl
        rw [hcons, List.cons_prefix_cons] at hbelow habove
        rw [Value.at?_object, Value.at?_object]
        by_cases hname : name = segment
        · subst hname
          have hbelow' : ¬Position.ofNames segments <+: q := fun hp => hbelow ⟨rfl, hp⟩
          have habove' : ¬q <+: Position.ofNames segments := fun hp => habove ⟨rfl, hp⟩
          have hrest : segments ≠ [] := by
            rintro rfl
            exact hbelow' List.nil_prefix
          obtain ⟨inner, child, hinner, hchild, rfl⟩ := assignMembers_cons hrest h
          rw [lookup_defineMember, if_pos rfl]
          have hstep := ih hrest hchild hbelow' habove'
          rcases hinner with ⟨hnone, rfl⟩ | hsome
          · have hempty : (Value.object []).at? q = none := by
              cases q with
              | nil => exact absurd List.nil_prefix habove'
              | cons step q => cases step <;> rfl
            rw [hnone]
            exact hstep.trans hempty
          · rw [hsome]
            exact hstep
        · by_cases hrest : segments = []
          · subst hrest
            obtain rfl : defineMember members segment value = written := pure_ok.mp h
            rw [lookup_defineMember, if_neg hname]
          · obtain ⟨inner, child, -, -, rfl⟩ := assignMembers_cons hrest h
            rw [lookup_defineMember, if_neg hname]

theorem at?_assignMembers_above (hne : segments ≠ [])
    (h : assignMembers before members segments value = .ok written)
    (habove : q <+: Position.ofNames segments) (hq : q ≠ Position.ofNames segments) :
    ∃ inner, (Value.object written).at? q = some (.object inner) := by
  induction segments generalizing before members written q with
  | nil => exact absurd rfl hne
  | cons segment segments ih =>
    cases q with
    | nil => exact ⟨written, rfl⟩
    | cons step q =>
      have hcons : Position.ofNames (segment :: segments) =
        .member segment :: Position.ofNames segments := rfl
      rw [hcons] at habove hq
      rw [List.cons_prefix_cons] at habove
      obtain ⟨rfl, hrest_above⟩ := habove
      have hq' : q ≠ Position.ofNames segments := fun e => hq (congrArg _ e)
      have hrest : segments ≠ [] := by
        rintro rfl
        exact hq' (List.prefix_nil.mp hrest_above)
      obtain ⟨inner, child, -, hchild, rfl⟩ := assignMembers_cons hrest h
      rw [Value.at?_object, lookup_defineMember, if_pos rfl]
      exact ih hrest hchild hrest_above hq'

theorem nodup_defineMember {members : List (Text × Value)} (h : (members.map Prod.fst).Nodup)
    (name : Text) (value : Value) : ((defineMember members name value).map Prod.fst).Nodup := by
  by_cases hname : name ∈ members.map Prod.fst
  · have hnames : (defineMember members name value).map Prod.fst = members.map Prod.fst := by
      clear h
      induction members with
      | nil => cases hname
      | cons m members ih =>
        rw [defineMember]
        split
        · next hm => rw [List.map_cons, List.map_cons, hm]
        · next hm =>
          rw [List.map_cons, List.map_cons, ih]
          exact (List.mem_cons.mp hname).resolve_left fun e => hm e.symm
    rw [hnames]
    exact h
  · rw [defineMember_of_not_mem hname, List.map_append, List.map_singleton]
    refine List.nodup_append.mpr ⟨h, List.nodup_singleton name, fun a ha b hb => ?_⟩
    intro e
    rw [e, List.mem_singleton.mp hb] at ha
    exact hname ha

theorem uniqueKeys_defineMember {members : List (Text × Value)}
    (h : (Value.object members).uniqueKeys = true) (name : Text)
    (hvalue : value.uniqueKeys = true) :
    (Value.object (defineMember members name value)).uniqueKeys = true := by
  obtain ⟨hnodup, hmembers⟩ := (Value.uniqueKeys_object members).mp h
  rw [Value.uniqueKeys_object]
  refine ⟨nodup_defineMember hnodup name value, fun m hm => ?_⟩
  rcases mem_of_mem_defineMember hm with hm | rfl
  · exact hmembers m hm
  · exact hvalue

theorem uniqueKeys_assignMembers
    (h : assignMembers before members segments value = .ok written)
    (hmembers : (Value.object members).uniqueKeys = true) (hvalue : value.uniqueKeys = true) :
    (Value.object written).uniqueKeys = true := by
  induction segments generalizing before members written with
  | nil =>
    obtain rfl : members = written := pure_ok.mp h
    exact hmembers
  | cons segment segments ih =>
    by_cases hrest : segments = []
    · subst hrest
      obtain rfl : defineMember members segment value = written := pure_ok.mp h
      exact uniqueKeys_defineMember hmembers segment hvalue
    · obtain ⟨inner, child, hinner, hchild, rfl⟩ := assignMembers_cons hrest h
      apply uniqueKeys_defineMember hmembers
      apply ih hchild
      rcases hinner with ⟨-, rfl⟩ | hsome
      · rfl
      · obtain ⟨hnodup, hall⟩ := (Value.uniqueKeys_object members).mp hmembers
        exact hall _ ((lookup_eq_some_iff hnodup _ _).mp hsome)

theorem lookup_filter_ne (members : List (Text × Value)) (name other : Text) :
    (members.filter fun m => m.1 ≠ name).lookup other =
      if other = name then none else members.lookup other := by
  induction members with
  | nil => split <;> rfl
  | cons m members ih =>
    obtain ⟨key, v⟩ := m
    by_cases hkey : key = name
    · subst hkey
      rw [List.filter_cons_of_neg (by simp), ih, List.lookup_cons]
      by_cases hother : other = key
      · rw [if_pos hother, if_pos hother]
      · rw [if_neg hother, if_neg hother, beq_eq_false_iff_ne.mpr hother]
    · rw [List.filter_cons_of_pos (by simpa using hkey), List.lookup_cons, List.lookup_cons, ih]
      by_cases hother : other = key
      · subst hother
        simp only [beq_self_eq_true, if_neg hkey]
      · rw [beq_eq_false_iff_ne.mpr hother]

theorem deleteSegments_object {segments : List Text} (hne : segments ≠ [])
    (members : List (Text × Value)) (segment : Text) :
    deleteSegments (.object members) (segment :: segments) =
      match members.lookup segment with
      | some child => .object (defineMember members segment (deleteSegments child segments))
      | none => .object members := by
  cases segments with
  | nil => exact absurd rfl hne
  | cons next segments => rfl

theorem deleteSegments_leaf {target : Value} (h : ∀ members, target ≠ .object members)
    (segments : List Text) : deleteSegments target segments = target := by
  cases segments with
  | nil => rfl
  | cons segment segments =>
    cases segments with
    | nil =>
      cases target with
      | object members => exact absurd rfl (h members)
      | _ => rfl
    | cons next segments =>
      cases target with
      | object members => exact absurd rfl (h members)
      | _ => rfl

theorem at?_deleteSegments (hne : segments ≠ []) (target : Value) (q : Position) :
    (deleteSegments target segments).at? (Position.ofNames segments ++ q) = none := by
  induction segments generalizing target with
  | nil => exact absurd rfl hne
  | cons segment segments ih =>
    show (deleteSegments target (segment :: segments)).at?
      (.member segment :: (Position.ofNames segments ++ q)) = none
    by_cases hobject : ∃ members, target = .object members
    · obtain ⟨members, rfl⟩ := hobject
      by_cases hrest : segments = []
      · subst hrest
        show (Value.object (members.filter fun m => m.1 ≠ segment)).at? _ = none
        rw [Value.at?_object, lookup_filter_ne, if_pos rfl]
        rfl
      · rw [deleteSegments_object hrest]
        cases hlookup : members.lookup segment with
        | none =>
          show (Value.object members).at? _ = none
          rw [Value.at?_object, hlookup]
          rfl
        | some child =>
          show (Value.object (defineMember members segment (deleteSegments child segments))).at? _ = none
          rw [Value.at?_object, lookup_defineMember, if_pos rfl]
          exact ih hrest child
    · have hleaf : ∀ members, target ≠ .object members := fun ms e => hobject ⟨ms, e⟩
      rw [deleteSegments_leaf hleaf]
      exact at?_member_of_ne_object hleaf segment _

theorem at?_deleteSegments_beside (hne : segments ≠ []) (target : Value)
    (hbelow : ¬Position.ofNames segments <+: q) (habove : ¬q <+: Position.ofNames segments) :
    (deleteSegments target segments).at? q = target.at? q := by
  induction segments generalizing target q with
  | nil => exact absurd rfl hne
  | cons segment segments ih =>
    by_cases hobject : ∃ members, target = .object members
    · obtain ⟨members, rfl⟩ := hobject
      cases q with
      | nil => exact absurd List.nil_prefix habove
      | cons step q =>
        have hcons : Position.ofNames (segment :: segments) =
          .member segment :: Position.ofNames segments := rfl
        rw [hcons, List.cons_prefix_cons] at hbelow habove
        by_cases hrest : segments = []
        · subst hrest
          show (Value.object (members.filter fun m => m.1 ≠ segment)).at? _ = _
          cases step with
          | item index => rw [Value.at?_object_item, Value.at?_object_item]
          | member name =>
            have hname : name ≠ segment := fun e => hbelow ⟨by rw [e], List.nil_prefix⟩
            rw [Value.at?_object, Value.at?_object, lookup_filter_ne, if_neg hname]
        · rw [deleteSegments_object hrest]
          cases hlookup : members.lookup segment with
          | none => rfl
          | some child =>
            show (Value.object (defineMember members segment (deleteSegments child segments))).at? _ = _
            cases step with
            | item index => rw [Value.at?_object_item, Value.at?_object_item]
            | member name =>
              rw [Value.at?_object, Value.at?_object, lookup_defineMember]
              by_cases hname : name = segment
              · subst hname
                rw [if_pos rfl, hlookup]
                exact ih hrest child (fun hp => hbelow ⟨rfl, hp⟩) fun hp => habove ⟨rfl, hp⟩
              · rw [if_neg hname]
    · rw [deleteSegments_leaf fun ms e => hobject ⟨ms, e⟩]

theorem shapeAt_deleteSegments_above (hne : segments ≠ []) (target : Value)
    (habove : q <+: Position.ofNames segments) (hq : q ≠ Position.ofNames segments) :
    (deleteSegments target segments).shapeAt q = target.shapeAt q := by
  induction segments generalizing target q with
  | nil => exact absurd rfl hne
  | cons segment segments ih =>
    by_cases hobject : ∃ members, target = .object members
    · obtain ⟨members, rfl⟩ := hobject
      by_cases hrest : segments = []
      · subst hrest
        show (Value.object (members.filter fun m => m.1 ≠ segment)).shapeAt q = _
        have hnil : q = [] := by
          rcases List.prefix_cons_iff.mp habove with h | ⟨t, rfl, ht⟩
          · exact h
          · exact absurd (by rw [List.prefix_nil.mp ht]; rfl) hq
        subst hnil
        rfl
      · rw [deleteSegments_object hrest]
        cases hlookup : members.lookup segment with
        | none => rfl
        | some child =>
          show (Value.object (defineMember members segment (deleteSegments child segments))).shapeAt q = _
          cases q with
          | nil => rfl
          | cons step q =>
            have hcons : Position.ofNames (segment :: segments) =
              .member segment :: Position.ofNames segments := rfl
            rw [hcons] at habove hq
            rw [List.cons_prefix_cons] at habove
            obtain ⟨rfl, hrest_above⟩ := habove
            unfold Value.shapeAt
            rw [Value.at?_object, Value.at?_object, lookup_defineMember, if_pos rfl, hlookup]
            exact ih hrest child hrest_above fun e => hq (congrArg _ e)
    · rw [deleteSegments_leaf fun ms e => hobject ⟨ms, e⟩]

theorem uniqueKeys_deleteSegments {target : Value} (h : target.uniqueKeys = true)
    (segments : List Text) : (deleteSegments target segments).uniqueKeys = true := by
  induction segments generalizing target with
  | nil => exact h
  | cons segment segments ih =>
    by_cases hobject : ∃ members, target = .object members
    · obtain ⟨members, rfl⟩ := hobject
      obtain ⟨hnodup, hmembers⟩ := (Value.uniqueKeys_object members).mp h
      by_cases hrest : segments = []
      · subst hrest
        show (Value.object (members.filter fun m => m.1 ≠ segment)).uniqueKeys = true
        rw [Value.uniqueKeys_object]
        refine ⟨hnodup.sublist (List.filter_sublist.map Prod.fst), fun m hm => ?_⟩
        exact hmembers m (List.mem_filter.mp hm).1
      · rw [deleteSegments_object hrest]
        cases hlookup : members.lookup segment with
        | none => exact h
        | some child =>
          have hchild := hmembers _ ((lookup_eq_some_iff hnodup segment child).mp hlookup)
          exact uniqueKeys_defineMember h segment (ih hchild)
    · rw [deleteSegments_leaf fun ms e => hobject ⟨ms, e⟩]
      exact h

end GhostBridge.DelegatedData
