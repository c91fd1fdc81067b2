import GhostBridge.DelegatedData.Minimization
import GhostBridge.DelegatedData.PrunedData

/-!
# What minimization leaves

The result is the payload with members deleted, so it stays within the limits.
-/

namespace GhostBridge.DelegatedData

open Ecma

section Walk

variable (options : MinimizationOptions) (schema : Schema)

def minimizedMember (key : Text) (value : Value) : Option Value :=
  match schema.property key with
  | none => none
  | some sub =>
    if dangerousSegment key then none
    else
      let minimized := minimizeBySchema options sub value
      if isLeftOut options schema key minimized then none else some minimized

theorem minimizeItems_eq (room : ℕ) (items : List Value) :
    minimizeItems options schema room items =
      (items.take room).map (minimizeBySchema options schema) := by
  induction items generalizing room with
  | nil => cases room <;> rfl
  | cons item items ih =>
    cases room with
    | zero => rfl
    | succ room => rw [minimizeItems, ih, List.take_succ_cons, List.map_cons]

theorem minimizeBySchema_array (items : List Value) :
    minimizeBySchema options schema (.array items) =
      .array (((items.take options.limits.maximumArrayItems).map
        (minimizeBySchema options schema.itemSchema)).filter fun item => !item.isUndefined) := by
  rw [minimizeBySchema, minimizeItems_eq]

theorem minimizeBySchema_object (members : List (Text × Value)) :
    minimizeBySchema options schema (.object members) =
      .object (keepMembers (minimizedMember options schema) (Reordering.byName.order members)) := by
  have hmembers (list : List (Text × Value)) : minimizeMembers options schema list =
      list.map fun m => (m.1, minimizedMember options schema m.1 m.2) := by
    induction list with
    | nil => rfl
    | cons m list ih => rw [minimizeMembers, ih, List.map_cons]; rfl
  rw [minimizeBySchema, hmembers, Reordering.order_map_named _
    (minimizedMember options schema), List.filterMap_map]
  rfl

end Walk

variable {options : MinimizationOptions} {schema : Schema} {limits : Limits} {path : Text}

theorem minimizedMember_some {key : Text} {value left : Value} :
    minimizedMember options schema key value = some left ↔
      ∃ sub, schema.property key = some sub ∧ dangerousSegment key = false ∧
        left = minimizeBySchema options sub value ∧ isLeftOut options schema key left = false := by
  rw [minimizedMember]
  cases schema.property key with
  | none => simp
  | some sub =>
    by_cases hdangerous : dangerousSegment key = true
    · simp [hdangerous]
    · by_cases hout : isLeftOut options schema key (minimizeBySchema options sub value) = true
      · simp only [hdangerous, hout, if_true, Bool.false_eq_true, if_false, Option.some.injEq,
          false_iff, not_exists, reduceCtorEq]
        rintro other ⟨rfl, _, rfl, hnot⟩
        rw [hout] at hnot
        cases hnot
      · simp only [hdangerous, hout, if_false, Bool.false_eq_true, Option.some.injEq]
        constructor
        · rintro rfl
          exact ⟨sub, rfl, trivial, rfl, Bool.eq_false_iff.mpr hout⟩
        · rintro ⟨other, rfl, _, rfl, _⟩
          rfl

theorem isUndefined_minimizeBySchema (value : Value) :
    (minimizeBySchema options schema value).isUndefined = value.isUndefined := by
  cases value with
  | array items => rw [minimizeBySchema_array]; rfl
  | object members => rw [minimizeBySchema_object]; rfl
  | undefined | null | bool | number | string => rfl

theorem pruned_minimizeBySchema {removeOptional : Bool} {value : Value}
    (h : Accepted limits path value) (hkeys : value.uniqueKeys = true) :
    Pruned value (minimizeBySchema ⟨limits, removeOptional⟩ schema value) := by
  induction value using Value.inductionOn generalizing path schema with
  | array items ih =>
    obtain ⟨-, hlength, haccepted, -⟩ := accepted_array.mp h
    rw [Value.uniqueKeys_array] at hkeys
    have hdefined : ∀ item ∈ items.map (minimizeBySchema ⟨limits, removeOptional⟩
        schema.itemSchema), (!item.isUndefined) = true := by
      rw [List.forall_mem_map]
      intro item hitem
      obtain ⟨index, hindex⟩ := List.mem_iff_getElem?.mp hitem
      rw [isUndefined_minimizeBySchema, (haccepted index item hindex).1]
      rfl
    rw [minimizeBySchema_array, List.take_of_length_le hlength, List.filter_eq_self.mpr hdefined]
    apply Pruned.array
    rw [List.forall₂_map_right_iff, List.forall₂_same]
    intro item hitem
    obtain ⟨index, hindex⟩ := List.mem_iff_getElem?.mp hitem
    exact ih item hitem (haccepted index item hindex).2 (hkeys item hitem)
  | object members ih =>
    obtain ⟨-, haccepted, -⟩ := accepted_object.mp h
    obtain ⟨hnodup, hkeys⟩ := (Value.uniqueKeys_object members).mp hkeys
    have hperm := Reordering.byName.perm members
    have hordered := (hperm.map Prod.fst).nodup_iff.mpr hnodup
    have hmember {m : Text × Value} (hm : m ∈ keepMembers (minimizedMember ⟨limits, removeOptional⟩
        schema) (Reordering.byName.order members)) : ∃ value, members.lookup m.1 = some value ∧
          minimizedMember ⟨limits, removeOptional⟩ schema m.1 value = some m.2 := by
      obtain ⟨value, hvalue, hleft⟩ := mem_keepMembers.mp hm
      rw [hperm.mem_iff] at hvalue
      exact ⟨value, (lookup_eq_some_iff hnodup m.1 value).mpr hvalue, hleft⟩
    rw [minimizeBySchema_object]
    apply Pruned.object (nodup_keepMembers hordered)
    · intro m hm
      obtain ⟨value, hvalue, -⟩ := hmember hm
      rw [hvalue]
      rfl
    · intro m hm value hvalue
      obtain ⟨other, hother, hleft⟩ := hmember hm
      rw [hvalue, Option.some.injEq] at hother
      subst hother
      obtain ⟨sub, -, hsafe, hleft, -⟩ := minimizedMember_some.mp hleft
      have hmem := mem_of_lookup hvalue
      rw [hleft]
      by_cases hdefined : value.isUndefined = true
      · cases value with
        | undefined => exact .leaf rfl
        | _ => cases hdefined
      · have hkept : isKept (m.1, value) = true := by
          rw [dangerousSegment, Bool.or_eq_false_iff] at hsafe
          rw [isKept, hsafe.2, Bool.eq_false_iff.mpr hdefined]
          rfl
        exact ih _ hmem ((haccepted _ hmem).2 hkept) (hkeys _ hmem)
  | string text =>
    rw [Accepted, cloneValue] at h
    obtain ⟨_, -, h⟩ := bind_ok.mp h
    obtain ⟨_, hlength, -⟩ := bind_ok.mp h
    rw [throwWhen_ok, decide_eq_false_iff_not, not_lt] at hlength
    rw [minimizeBySchema, List.take_of_length_le hlength]
    exact .leaf rfl
  | undefined | null | bool | number => exact .leaf rfl

theorem minimizeBySchema_idem (value : Value) :
    minimizeBySchema options schema (minimizeBySchema options schema value) =
      minimizeBySchema options schema value := by
  induction value using Value.inductionOn generalizing schema with
  | array items ih =>
    rw [minimizeBySchema_array, minimizeBySchema_array]
    congr 1
    have hshort := (List.length_filter_le (fun item : Value => !item.isUndefined)
      ((items.take options.limits.maximumArrayItems).map
        (minimizeBySchema options schema.itemSchema))).trans
      ((List.length_map _).le.trans (List.length_take_le _ _))
    have hmap : ∀ item ∈ ((items.take options.limits.maximumArrayItems).map
        (minimizeBySchema options schema.itemSchema)).filter fun item => !item.isUndefined,
        minimizeBySchema options schema.itemSchema item = item := by
      intro item hitem
      obtain ⟨first, hfirst, rfl⟩ := List.mem_map.mp (List.mem_filter.mp hitem).1
      exact ih first (List.mem_of_mem_take hfirst)
    rw [List.take_of_length_le hshort, List.map_congr_left hmap, List.map_id'', List.filter_filter]
    · simp only [Bool.and_self]
    · exact fun _ => rfl
  | object members ih =>
    rw [minimizeBySchema_object, minimizeBySchema_object,
      byName_of_isSorted (isSorted_byName members).keepMembers]
    congr 1
    have hkeep : ∀ m ∈ keepMembers (minimizedMember options schema)
        (Reordering.byName.order members),
        (minimizedMember options schema m.1 m.2).map (m.1, ·) = some m := by
      intro m hm
      obtain ⟨value, hvalue, hleft⟩ := mem_keepMembers.mp hm
      obtain ⟨sub, hsub, hsafe, hsame, hout⟩ := minimizedMember_some.mp hleft
      rw [(Reordering.byName.perm members).mem_iff] at hvalue
      have hagain : minimizedMember options schema m.1 m.2 = some m.2 := by
        refine minimizedMember_some.mpr ⟨sub, hsub, hsafe, ?_, hout⟩
        rw [hsame]
        exact (ih _ hvalue).symm
      rw [hagain]
      rfl
    conv_lhs => rw [keepMembers]
    rw [List.filterMap_congr hkeep]
    exact List.filterMap_some
  | string text => simp only [minimizeBySchema, List.take_take, Nat.min_self]
  | undefined | null | bool | number => rfl

theorem copyOf_minimizeBySchema {value : Value} (hjson : value.isJson = true) :
    copyOf (minimizeBySchema options schema value) = minimizeBySchema options schema value := by
  induction value using Value.inductionOn generalizing schema with
  | array items ih =>
    rw [Value.isJson_array] at hjson
    rw [minimizeBySchema_array, copyOf_array]
    congr 1
    have hcopy : ∀ item ∈ ((items.take options.limits.maximumArrayItems).map
        (minimizeBySchema options schema.itemSchema)).filter fun item => !item.isUndefined,
        copyOf item = item := by
      intro item hitem
      obtain ⟨first, hfirst, rfl⟩ := List.mem_map.mp (List.mem_filter.mp hitem).1
      have hfirst := List.mem_of_mem_take hfirst
      exact ih first hfirst (hjson first hfirst)
    rw [List.map_congr_left hcopy]
    exact List.map_id'' (fun _ => rfl) _
  | object members ih =>
    rw [Value.isJson_object] at hjson
    rw [minimizeBySchema_object, copyOf_object, copiedMembers,
      byName_of_isSorted (isSorted_byName members).keepMembers]
    congr 1
    have hmember {m : Text × Value} (hm : m ∈ keepMembers (minimizedMember options schema)
        (Reordering.byName.order members)) : isKept m = true ∧ copyOf m.2 = m.2 := by
      obtain ⟨value, hvalue, hleft⟩ := mem_keepMembers.mp hm
      obtain ⟨sub, -, hsafe, hsame, -⟩ := minimizedMember_some.mp hleft
      rw [(Reordering.byName.perm members).mem_iff] at hvalue
      rw [dangerousSegment, Bool.or_eq_false_iff] at hsafe
      have hdefined := Value.isUndefined_of_isJson (hjson _ hvalue)
      constructor
      · rw [isKept, hsafe.2, hsame, isUndefined_minimizeBySchema, hdefined]
        rfl
      · rw [hsame]
        exact ih _ hvalue (hjson _ hvalue)
    rw [List.filter_eq_self.mpr fun m hm => (hmember hm).1]
    have hcopy : ∀ m ∈ keepMembers (minimizedMember options schema)
        (Reordering.byName.order members), Prod.map id copyOf m = m :=
      fun m hm => congrArg (Prod.mk m.1) (hmember hm).2
    rw [List.map_congr_left hcopy]
    exact List.map_id'' (fun _ => rfl) _
  | undefined => cases hjson
  | null | bool | number | string => rfl

theorem boundedLimit_idem (value : Option ℕ) {bound : ℕ} (h : 0 < bound) :
    boundedLimit (some (boundedLimit value bound bound)) bound bound =
      boundedLimit value bound bound := by
  have hagain {n : ℕ} (hpos : 0 < n) (hle : n ≤ bound) :
      boundedLimit (some n) bound bound = n := by
    cases n with
    | zero => cases hpos
    | succ n => exact Nat.min_eq_right hle
  cases value with
  | none =>
    rw [boundedLimit, Nat.min_self]
    exact hagain h (Nat.le_refl bound)
  | some n =>
    cases n with
    | zero => exact hagain h (Nat.le_refl bound)
    | succ n => exact hagain (Nat.lt_min.mpr ⟨h, Nat.succ_pos n⟩) (Nat.min_le_left _ _)

theorem normalizedLimits_idem (options : LimitOptions) :
    normalizedLimits (normalizedLimits options).options = normalizedLimits options := by
  simp only [normalizedLimits, Limits.options]
  rw [boundedLimit_idem _ (by decide), boundedLimit_idem _ (by decide),
    boundedLimit_idem _ (by decide), boundedLimit_idem _ (by decide)]

/-- What holds of every object with the schema that it has there. -/
inductive EveryObject (p : Schema → List (Text × Value) → Prop) : Schema → Value → Prop where
  | leaf {schema : Schema} {value : Value} (h : value.isObjectLike = false) :
      EveryObject p schema value
  | array {schema : Schema} {items : List Value}
      (h : ∀ item ∈ items, EveryObject p schema.itemSchema item) :
      EveryObject p schema (.array items)
  | object {schema : Schema} {members : List (Text × Value)} (h : p schema members)
      (hmembers : ∀ m ∈ members, ∀ sub, schema.property m.1 = some sub → EveryObject p sub m.2) :
      EveryObject p schema (.object members)

def OnlyDeclared : Schema → Value → Prop :=
  EveryObject fun schema members => ∀ m ∈ members, (schema.property m.1).isSome = true

def OnlyRequired : Schema → Value → Prop :=
  EveryObject fun schema members => ∀ m ∈ members, m.1 ∈ schema.required

def RequiresDeclared : Schema → Value → Prop :=
  EveryObject fun schema _ => ∀ key ∈ schema.required,
    (schema.property key).isSome = true ∧ dangerousSegment key = false

theorem everyObject_minimizeBySchema {p : Schema → List (Text × Value) → Prop}
    (h : ∀ (schema : Schema) (members : List (Text × Value)),
      p schema (keepMembers (minimizedMember options schema) members)) (value : Value) :
    EveryObject p schema (minimizeBySchema options schema value) := by
  induction value using Value.inductionOn generalizing schema with
  | array items ih =>
    rw [minimizeBySchema_array]
    apply EveryObject.array
    intro item hitem
    obtain ⟨first, hfirst, rfl⟩ := List.mem_map.mp (List.mem_filter.mp hitem).1
    exact ih first (List.mem_of_mem_take hfirst)
  | object members ih =>
    rw [minimizeBySchema_object]
    apply EveryObject.object (h schema _)
    intro m hm sub hsub
    obtain ⟨value, hvalue, hleft⟩ := mem_keepMembers.mp hm
    obtain ⟨other, hother, -, hsame, -⟩ := minimizedMember_some.mp hleft
    rw [hsub, Option.some.injEq] at hother
    subst hother
    rw [(Reordering.byName.perm members).mem_iff] at hvalue
    rw [hsame]
    exact ih _ hvalue
  | undefined | null | bool | number | string => exact .leaf rfl

theorem onlyDeclared_minimizeBySchema (value : Value) :
    OnlyDeclared schema (minimizeBySchema options schema value) := by
  apply everyObject_minimizeBySchema
  intro schema members m hm
  obtain ⟨value, -, hleft⟩ := mem_keepMembers.mp hm
  obtain ⟨sub, hsub, -⟩ := minimizedMember_some.mp hleft
  rw [hsub]
  rfl

theorem onlyRequired_minimizeBySchema (h : options.removeOptional = true) (value : Value) :
    OnlyRequired schema (minimizeBySchema options schema value) := by
  apply everyObject_minimizeBySchema
  intro schema members m hm
  obtain ⟨value, -, hleft⟩ := mem_keepMembers.mp hm
  obtain ⟨sub, -, -, -, hout⟩ := minimizedMember_some.mp hleft
  rw [isLeftOut, h, Bool.or_true, Bool.true_and, Bool.not_eq_false'] at hout
  exact List.contains_iff_mem.mp hout

theorem validates_array {items : List Value} : validates schema (.array items) = true ↔
    hasSchemaType schema (.array items) = true ∧
      ∀ item ∈ items, validates schema.itemSchema item = true := by
  have hitems (list : List Value) : validatesItems schema.itemSchema list = true ↔
      ∀ item ∈ list, validates schema.itemSchema item = true := by
    induction list with
    | nil => simp [validatesItems]
    | cons item list ih => simp [validatesItems, ih]
  rw [validates, Bool.and_eq_true, hitems]

theorem validates_object {members : List (Text × Value)} :
    validates schema (.object members) = true ↔
      hasSchemaType schema (.object members) = true ∧
        (∀ key ∈ schema.required, hasMember members key = true) ∧
        ∀ m ∈ members, ∀ sub, schema.property m.1 = some sub → m.2.isUndefined = false →
          validates sub m.2 = true := by
  have hmembers (list : List (Text × Value)) : validatesMembers schema list = true ↔
      ∀ m ∈ list, ∀ sub, schema.property m.1 = some sub → m.2.isUndefined = false →
        validates sub m.2 = true := by
    induction list with
    | nil => simp [validatesMembers]
    | cons m list ih =>
      rw [validatesMembers, Bool.and_eq_true, ih, List.forall_mem_cons]
      apply and_congr_left'
      cases schema.property m.1 with
      | none => simp
      | some sub => cases hundefined : m.2.isUndefined <;> simp
  rw [validates, Bool.and_eq_true, Bool.and_eq_true, hmembers, List.all_eq_true, and_assoc]

private theorem hasSchemaType_congr {value other : Value}
    (h : ∀ type, hasType value type = hasType other type) :
    hasSchemaType schema value = hasSchemaType schema other := by
  unfold hasSchemaType
  rw [funext h]

private theorem hasMember_iff {members : List (Text × Value)} {key : Text} :
    hasMember members key = true ↔
      ∃ value, members.lookup key = some value ∧ value.isUndefined = false := by
  unfold hasMember
  cases members.lookup key <;> simp

theorem validates_minimizeBySchema {value : Value} (hkeys : value.uniqueKeys = true)
    (h : validates schema value = true) :
    validates schema (minimizeBySchema options schema (copyOf value)) = true ↔
      RequiresDeclared schema (minimizeBySchema options schema (copyOf value)) := by
  induction value using Value.inductionOn generalizing schema with
  | array items ih =>
    rw [Value.uniqueKeys_array] at hkeys
    obtain ⟨htype, hitems⟩ := validates_array.mp h
    rw [copyOf_array, minimizeBySchema_array, validates_array]
    have hleft : ∀ item ∈ (((items.map copyOf).take options.limits.maximumArrayItems).map
        (minimizeBySchema options schema.itemSchema)).filter fun item => !item.isUndefined,
        (validates schema.itemSchema item = true ↔ RequiresDeclared schema.itemSchema item) := by
      intro item hitem
      obtain ⟨copy, hcopy, rfl⟩ := List.mem_map.mp (List.mem_filter.mp hitem).1
      obtain ⟨first, hfirst, rfl⟩ := List.mem_map.mp (List.mem_of_mem_take hcopy)
      exact ih first hfirst (hkeys first hfirst) (hitems first hfirst)
    constructor
    · rintro ⟨-, hvalid⟩
      exact .array fun item hitem => (hleft item hitem).mp (hvalid item hitem)
    · intro hrequires
      apply And.intro
      · rw [← htype]
        exact hasSchemaType_congr fun type => by cases type <;> rfl
      · cases hrequires with
        | leaf h => cases h
        | array hrequires => exact fun item hitem => (hleft item hitem).mpr (hrequires item hitem)
  | object members ih =>
    have hcopied := uniqueKeys_copyOf hkeys
    obtain ⟨hnodup, hkeys⟩ := (Value.uniqueKeys_object members).mp hkeys
    obtain ⟨htype, hrequired, hmembers⟩ := validates_object.mp h
    rw [copyOf_object] at hcopied
    replace hcopied := ((Value.uniqueKeys_object _).mp hcopied).1
    have hperm := Reordering.byName.perm (copiedMembers members)
    have hordered := (hperm.map Prod.fst).nodup_iff.mpr hcopied
    rw [copyOf_object, minimizeBySchema_object]
    have hleft : ∀ m ∈ keepMembers (minimizedMember options schema)
        (Reordering.byName.order (copiedMembers members)),
        ∃ sub, schema.property m.1 = some sub ∧ dangerousSegment m.1 = false ∧
          m.2.isUndefined = false ∧ (validates sub m.2 = true ↔ RequiresDeclared sub m.2) := by
      intro m hm
      obtain ⟨copy, hcopy, hkeep⟩ := mem_keepMembers.mp hm
      obtain ⟨sub, hsub, hsafe, hsame, -⟩ := minimizedMember_some.mp hkeep
      rw [hperm.mem_iff] at hcopy
      obtain ⟨first, hfirst, heq⟩ := List.mem_map.mp hcopy
      obtain ⟨hfirst, hkept⟩ := List.mem_filter.mp hfirst
      rw [(Reordering.byName.perm members).mem_iff] at hfirst
      obtain ⟨hname, rfl⟩ := Prod.mk.inj heq
      have hdefined : first.2.isUndefined = false := by
        rw [isKept, Bool.and_eq_true, Bool.not_eq_true', Bool.not_eq_true'] at hkept
        exact hkept.2
      have hsub' : schema.property first.1 = some sub := by
        rw [← hsub, ← hname]
        rfl
      have hvalid := hmembers first hfirst sub hsub' hdefined
      refine ⟨sub, hsub, hsafe, ?_, ?_⟩
      · rw [hsame, isUndefined_minimizeBySchema, isUndefined_copyOf, hdefined]
      · rw [hsame]
        exact ih first hfirst (hkeys first hfirst) hvalid
    constructor
    · intro hvalid
      obtain ⟨-, hpresent, hvalues⟩ := validates_object.mp hvalid
      apply EveryObject.object
      · intro key hkey
        obtain ⟨value, hvalue, -⟩ := hasMember_iff.mp (hpresent key hkey)
        obtain ⟨sub, hsub, hsafe, -⟩ := hleft _ (mem_of_lookup hvalue)
        exact ⟨Option.isSome_of_eq_some hsub, hsafe⟩
      · intro m hm sub hsub
        obtain ⟨other, hother, -, hdefined, hiff⟩ := hleft m hm
        rw [hsub, Option.some.injEq] at hother
        subst hother
        exact hiff.mp (hvalues m hm sub hsub hdefined)
    · intro hrequires
      cases hrequires with
      | leaf h => cases h
      | object hrequires hvalues =>
        apply validates_object.mpr
        refine ⟨?_, ?_, ?_⟩
        · rw [← htype]
          exact hasSchemaType_congr fun type => by cases type <;> rfl
        · intro key hkey
          obtain ⟨hdeclared, hsafe⟩ := hrequires key hkey
          obtain ⟨sub, hsub⟩ := Option.isSome_iff_exists.mp hdeclared
          obtain ⟨value, hvalue, hdefined⟩ := hasMember_iff.mp (hrequired key hkey)
          have hkept : isKept (key, value) = true := by
            have hhidden := (Bool.or_eq_false_iff.mp hsafe).2
            rw [isKept, hhidden, hdefined]
            rfl
          have hcopy : (copiedMembers members).lookup key = some (copyOf value) := by
            rw [lookup_copiedMembers hnodup, hvalue, Option.filter_some, if_pos hkept]
            rfl
          have hordered' : (Reordering.byName.order (copiedMembers members)).lookup key =
              some (copyOf value) := by
            rw [lookup_eq_some_iff hordered, hperm.mem_iff, ← lookup_eq_some_iff hcopied]
            exact hcopy
          have hout : isLeftOut options schema key
              (minimizeBySchema options sub (copyOf value)) = false := by
            rw [isLeftOut, List.contains_iff_mem.mpr hkey, Bool.not_true, Bool.and_false]
          have hkeep : minimizedMember options schema key (copyOf value) =
              some (minimizeBySchema options sub (copyOf value)) :=
            minimizedMember_some.mpr ⟨sub, hsub, hsafe, rfl, hout⟩
          apply hasMember_iff.mpr
          refine ⟨minimizeBySchema options sub (copyOf value), ?_, ?_⟩
          · rw [lookup_keepMembers hordered, hordered', Option.bind_some, hkeep]
          · rw [isUndefined_minimizeBySchema, isUndefined_copyOf, hdefined]
        · intro m hm sub hsub _
          obtain ⟨other, hother, -, -, hiff⟩ := hleft m hm
          rw [hsub, Option.some.injEq] at hother
          subst hother
          exact hiff.mpr (hvalues m hm sub hsub)
  | string text =>
    apply iff_of_true _ (.leaf rfl)
    rw [← h]
    exact hasSchemaType_congr fun type => by cases type <;> rfl
  | undefined | null | bool | number => exact iff_of_true h (.leaf rfl)

theorem applyMinimization_ok {value : Value} (hkeys : value.uniqueKeys = true) (schema : Schema)
    (rules : List Value) {options : LimitOptions}
    (h : Accepted (normalizedLimits options) (ascii "$") value) :
    let left := minimizeBySchema ⟨normalizedLimits options, removesOptional rules⟩ schema
      (copyOf value)
    Accepted (normalizedLimits options) (ascii "$") left ∧ copyOf left = left ∧
      Pruned value left ∧ applyMinimization value (some schema) rules options =
        .ok ⟨left, countFields (copyOf value) - countFields left⟩ := by
  intro left
  have hcopied := h.pruned hkeys (pruned_copyOf hkeys)
  have hpruned : Pruned (copyOf value) left :=
    pruned_minimizeBySchema hcopied (uniqueKeys_copyOf hkeys)
  have hleft : Accepted (normalizedLimits options) (ascii "$") left :=
    hcopied.pruned (uniqueKeys_copyOf hkeys) hpruned
  have hsame : copyOf left = left := by
    by_cases hdefined : value.isUndefined = true
    · cases value with
      | undefined => rfl
      | _ => cases hdefined
    · exact copyOf_minimizeBySchema (h.isJson_copyOf (Bool.eq_false_iff.mpr hdefined))
  refine ⟨hleft, hsame, (pruned_copyOf hkeys).trans hpruned, ?_⟩
  have hfirst : safeClone value (normalizedLimits options).options = .ok (copyOf value) := by
    rw [safeClone, normalizedLimits_idem]
    exact h
  have hsecond : safeClone left (normalizedLimits options).options = .ok left := by
    rw [safeClone, normalizedLimits_idem]
    rw [Accepted, hsame] at hleft
    exact hleft
  simp only [applyMinimization, hfirst, Option.getD_some, ok_bind]
  rw [hsecond]
  rfl

theorem minimization_law (schema : Schema) (value : PlainValue) (rules : List Value)
    (limits : LimitOptions) (payload : Value) (hvalid : validates schema value.1 = true)
    (hwithin : safeClone value.1 limits = .ok payload) :
    ∃ result, applyMinimization value.1 (some schema) rules limits = .ok result ∧
      OnlyDeclared schema result.payload ∧ Pruned value.1 result.payload ∧
      (∃ again, applyMinimization result.payload (some schema) rules limits = .ok again ∧
        again.payload = result.payload) ∧
      (removesOptional rules = true → OnlyRequired schema result.payload) ∧
      (validates schema result.payload = true ↔ RequiresDeclared schema result.payload) := by
  obtain ⟨haccepted, hcopy, hpruned, hrun⟩ :=
    applyMinimization_ok value.2 schema rules (accepted_of_ok hwithin)
  obtain ⟨-, -, -, hagain⟩ := applyMinimization_ok (hpruned.uniqueKeys value.2) schema rules haccepted
  rw [hcopy, minimizeBySchema_idem] at hagain
  refine ⟨_, hrun, onlyDeclared_minimizeBySchema _, hpruned, ⟨_, hagain, rfl⟩, ?_, ?_⟩
  · exact fun hremoves => onlyRequired_minimizeBySchema hremoves _
  · exact validates_minimizeBySchema value.2 hvalid

/-- `{ a: true }` with a schema that declares `a` and requires it. -/
theorem minimization_law_declared :
    ∃ result, applyMinimization (.object [(ascii "a", .bool true)])
        (some (.mk none [(ascii "a", .empty)] [ascii "a"] none)) [] {} = .ok result ∧
      OnlyDeclared (.mk none [(ascii "a", .empty)] [ascii "a"] none) result.payload ∧
      Pruned (.object [(ascii "a", .bool true)]) result.payload ∧
      (∃ again, applyMinimization result.payload
        (some (.mk none [(ascii "a", .empty)] [ascii "a"] none)) [] {} = .ok again ∧
        again.payload = result.payload) ∧
      (removesOptional [] = true →
        OnlyRequired (.mk none [(ascii "a", .empty)] [ascii "a"] none) result.payload) ∧
      (validates (.mk none [(ascii "a", .empty)] [ascii "a"] none) result.payload = true ↔
        RequiresDeclared (.mk none [(ascii "a", .empty)] [ascii "a"] none) result.payload) :=
  minimization_law (.mk none [(ascii "a", .empty)] [ascii "a"] none)
    ⟨.object [(ascii "a", .bool true)], by decide⟩ [] {} (.object [(ascii "a", .bool true)])
    (by decide) rfl

/-- `{ a: true }` is valid where `a` is required and not declared, and loses it. A field name that
is no identifier is refused, whatever the schema. -/
theorem undeclared_required_lost :
    (validates (.mk none [] [ascii "a"] none) (.object [(ascii "a", .bool true)]) = true ∧
      ∃ result, applyMinimization (.object [(ascii "a", .bool true)])
        (some (.mk none [] [ascii "a"] none)) [] {} = .ok result ∧
        validates (.mk none [] [ascii "a"] none) result.payload = false) ∧
    (validates .empty (.object [(ascii "a b", .bool true)]) = true ∧
      ∀ result, applyMinimization (.object [(ascii "a b", .bool true)]) (some .empty) [] {} ≠
        .ok result) := by
  refine ⟨⟨by decide, ⟨.object [], 1⟩, rfl, by decide⟩, by decide, ?_⟩
  intro result h
  cases h

end GhostBridge.DelegatedData
