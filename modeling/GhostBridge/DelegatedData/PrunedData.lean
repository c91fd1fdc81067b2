import GhostBridge.DelegatedData.SafeClone
import GhostBridge.Ecma.JsonBytes
import GhostBridge.Ecma.NameOrder

/-!
# Deleted members

A value without some of its members is shorter than the value, so what the walk lets through it
lets through again after members are deleted.
-/

namespace GhostBridge.DelegatedData

open Ecma

variable {limits : Limits} {path : Text}

/-- The second value is the first without some members of its objects, whose order may differ. -/
inductive Pruned : Value → Value → Prop where
  | leaf {value : Value} (h : value.isObjectLike = false) : Pruned value value
  | array {items left : List Value} (h : List.Forall₂ Pruned items left) :
      Pruned (.array items) (.array left)
  | object {members left : List (Text × Value)} (hnodup : (left.map Prod.fst).Nodup)
      (hnames : ∀ m ∈ left, (members.lookup m.1).isSome = true)
      (h : ∀ m ∈ left, ∀ value, members.lookup m.1 = some value → Pruned value m.2) :
      Pruned (.object members) (.object left)

theorem Pruned.trans {first second third : Value} (h : Pruned first second)
    (h' : Pruned second third) : Pruned first third := by
  induction first using Value.inductionOn generalizing second third with
  | array items ih =>
    cases h with
    | leaf h => cases h
    | array hitems =>
      cases h' with
      | leaf h => cases h
      | @array _ left hitems' =>
        apply Pruned.array
        induction hitems generalizing left with
        | nil =>
          cases hitems'
          exact .nil
        | cons hitem _ ihitems =>
          cases hitems' with
          | cons hitem' hrest' =>
            exact .cons (ih _ List.mem_cons_self hitem hitem')
              (ihitems (fun item hi => ih item (List.mem_cons_of_mem _ hi)) hrest')
  | object members ih =>
    cases h with
    | leaf h => cases h
    | object hnodup hnames hmembers =>
      cases h' with
      | leaf h => cases h
      | object hnodup' hnames' hmembers' =>
        refine .object hnodup' ?_ ?_
        · intro m hm
          obtain ⟨value, hvalue⟩ := Option.isSome_iff_exists.mp (hnames' m hm)
          exact hnames (m.1, value) ((lookup_eq_some_iff hnodup m.1 value).mp hvalue)
        · intro m hm first hfirst
          obtain ⟨value, hvalue⟩ := Option.isSome_iff_exists.mp (hnames' m hm)
          have hmem := (lookup_eq_some_iff hnodup m.1 value).mp hvalue
          exact ih _ (mem_of_lookup hfirst) (hmembers _ hmem first hfirst)
            (hmembers' m hm value hvalue)
  | undefined | null | bool | number | string =>
    cases h
    exact h'

private theorem getElem?_forall₂ {items left : List Value} (h : List.Forall₂ Pruned items left)
    {index : ℕ} {item : Value} (hitem : left[index]? = some item) :
    ∃ first, items[index]? = some first ∧ Pruned first item := by
  induction h generalizing index with
  | nil => cases hitem
  | @cons first _ _ _ hfirst _ ih =>
    cases index with
    | zero =>
      simp only [List.getElem?_cons_zero, Option.some.injEq] at hitem
      subst hitem
      exact ⟨first, rfl, hfirst⟩
    | succ index => exact ih hitem

private theorem exists_of_forall₂ {items left : List Value} (h : List.Forall₂ Pruned items left)
    {item : Value} (hitem : item ∈ left) : ∃ first ∈ items, Pruned first item := by
  obtain ⟨index, hindex⟩ := List.mem_iff_getElem?.mp hitem
  obtain ⟨first, hfirst, hpruned⟩ := getElem?_forall₂ h hindex
  exact ⟨first, List.mem_of_getElem? hfirst, hpruned⟩

theorem Pruned.isUndefined_eq {value left : Value} (h : Pruned value left) :
    left.isUndefined = value.isUndefined := by
  cases h <;> rfl

theorem Pruned.isJson {value left : Value} (h : Pruned value left) (hjson : value.isJson = true) :
    left.isJson = true := by
  induction value using Value.inductionOn generalizing left with
  | array items ih =>
    cases h with
    | leaf h => cases h
    | array hitems =>
      rw [Value.isJson_array] at hjson ⊢
      intro item hitem
      obtain ⟨first, hfirst, hpruned⟩ := exists_of_forall₂ hitems hitem
      exact ih first hfirst hpruned (hjson first hfirst)
  | object members ih =>
    cases h with
    | leaf h => cases h
    | object _ hnames hmembers =>
      rw [Value.isJson_object] at hjson ⊢
      intro m hm
      obtain ⟨value, hvalue⟩ := Option.isSome_iff_exists.mp (hnames m hm)
      have hmem := mem_of_lookup hvalue
      exact ih _ hmem (hmembers m hm value hvalue) (hjson _ hmem)
  | undefined | null | bool | number | string =>
    cases h
    exact hjson

theorem Pruned.byteLength_write_le {value left : Value} (h : Pruned value left)
    (hkeys : value.uniqueKeys = true) (hjson : value.isJson = true) :
    Utf8.byteLength (Json.write left) ≤ Utf8.byteLength (Json.write value) := by
  have hleft := h.isJson hjson
  induction value using Value.inductionOn generalizing left with
  | array items ih =>
    cases h with
    | leaf h => cases h
    | @array _ left hitems =>
      rw [Value.isJson_array] at hjson hleft
      rw [Value.uniqueKeys_array] at hkeys
      rw [Json.byteLength_write_array hjson, Json.byteLength_write_array hleft, hitems.length_eq]
      have hsum : (left.map fun item => Utf8.byteLength (Json.write item)).sum ≤
          (items.map fun item => Utf8.byteLength (Json.write item)).sum := by
        induction hitems with
        | nil => exact Nat.le_refl _
        | @cons first second _ _ hitem _ ihitems =>
          simp only [List.forall_mem_cons] at hjson hleft hkeys ih
          have hhead := ih.1 hitem hkeys.1 hjson.1 hleft.1
          have htail := ihitems ih.2 hkeys.2 hjson.2 hleft.2
          simp only [List.map_cons, List.sum_cons]
          omega
      omega
  | object members ih =>
    cases h with
    | leaf h => cases h
    | @object _ left hnodup hnames hmembers =>
      rw [Value.isJson_object] at hjson hleft
      obtain ⟨hunique, hkeys⟩ := (Value.uniqueKeys_object members).mp hkeys
      rw [Json.byteLength_write_object hjson, Json.byteLength_write_object hleft]
      have hsizes : ∀ m ∈ left, ∃ value, members.lookup m.1 = some value ∧
          Utf8.byteLength (Json.writeMember m) ≤
            Utf8.byteLength (Json.writeMember (m.1, value)) := by
        intro m hm
        obtain ⟨value, hvalue⟩ := Option.isSome_iff_exists.mp (hnames m hm)
        have hmem := mem_of_lookup hvalue
        have hle : Utf8.byteLength (Json.write m.2) ≤ Utf8.byteLength (Json.write value) :=
          ih _ hmem (hmembers m hm value hvalue) (hkeys _ hmem) (hjson _ hmem) (hleft m hm)
        apply Exists.intro value
        apply And.intro hvalue
        simp only [Json.byteLength_writeMember]
        omega
      have hsum := sum_le_of_names (fun m => Utf8.byteLength (Json.writeMember m)) hunique hnodup
        hsizes
      omega
  | undefined | null | bool | number | string =>
    cases h
    exact Nat.le_refl _

theorem pruned_copyOf {value : Value} (h : value.uniqueKeys = true) :
    Pruned value (copyOf value) := by
  have hcopy := uniqueKeys_copyOf h
  induction value using Value.inductionOn with
  | array items ih =>
    rw [Value.uniqueKeys_array] at h
    rw [copyOf_array]
    apply Pruned.array
    rw [List.forall₂_map_right_iff, List.forall₂_same]
    exact fun item hitem => ih item hitem (h item hitem) (uniqueKeys_copyOf (h item hitem))
  | object members ih =>
    obtain ⟨hnodup, hmembers⟩ := (Value.uniqueKeys_object members).mp h
    rw [copyOf_object] at hcopy ⊢
    have hcopied := ((Value.uniqueKeys_object _).mp hcopy).1
    have hlookup {m : Text × Value} (hm : m ∈ copiedMembers members) :
        ∃ value, members.lookup m.1 = some value ∧ copyOf value = m.2 := by
      have hfound := (lookup_eq_some_iff hcopied m.1 m.2).mpr hm
      rw [lookup_copiedMembers hnodup, Option.map_eq_some_iff] at hfound
      obtain ⟨value, hvalue, hsame⟩ := hfound
      exact ⟨value, (Option.filter_eq_some_iff.mp hvalue).1, hsame⟩
    apply Pruned.object hcopied
    · intro m hm
      obtain ⟨value, hvalue, -⟩ := hlookup hm
      rw [hvalue]
      rfl
    · intro m hm value hvalue
      obtain ⟨other, hother, hsame⟩ := hlookup hm
      rw [hvalue, Option.some.injEq] at hother
      subst hother
      rw [← hsame]
      have hmem := mem_of_lookup hvalue
      exact ih _ hmem (hmembers _ hmem) (uniqueKeys_copyOf (hmembers _ hmem))
  | undefined | null | bool | number | string => exact .leaf rfl

def Accepted (limits : Limits) (path : Text) (value : Value) : Prop :=
  cloneValue limits path value = .ok (copyOf value)

theorem accepted_of_ok {value copy : Value} (h : cloneValue limits path value = .ok copy) :
    Accepted limits path value := by
  rw [Accepted, h, cloneValue_ok h]

theorem cloneItems_copyOf {items : List Value} {index : ℕ} :
    cloneItems limits path index items = .ok (items.map copyOf) ↔
      ∀ i item, items[i]? = some item → item.isUndefined = false ∧
        Accepted limits (childPath path (decimalDigits (index + i))) item := by
  induction items generalizing index with
  | nil =>
    apply iff_of_true rfl
    intro i item h
    cases h
  | cons item items ih =>
    rw [cloneItems]
    constructor
    · intro h i other hother
      obtain ⟨copy, hcopy, h⟩ := bind_ok.mp h
      obtain ⟨_, hdefined, h⟩ := bind_ok.mp h
      obtain ⟨rest, hrest, h⟩ := bind_ok.mp h
      obtain ⟨hhead, htail⟩ := List.cons.inj (pure_ok.mp h)
      rw [throwWhen_ok, hhead, isUndefined_copyOf] at hdefined
      rw [htail] at hrest
      cases i with
      | zero =>
        simp only [List.getElem?_cons_zero, Option.some.injEq] at hother
        subst hother
        exact ⟨hdefined, accepted_of_ok hcopy⟩
      | succ i =>
        rw [← Nat.succ_add_eq_add_succ]
        exact ih.mp hrest i other hother
    · intro h
      obtain ⟨hdefined, haccepted⟩ := h 0 item rfl
      rw [← isUndefined_copyOf] at hdefined
      have hrest : cloneItems limits path (index + 1) items = .ok (items.map copyOf) := by
        apply ih.mpr
        intro i other hother
        rw [Nat.succ_add_eq_add_succ]
        exact h (i + 1) other hother
      exact bind_ok.mpr ⟨_, haccepted, bind_ok.mpr ⟨(), throwWhen_ok.mpr hdefined,
        bind_ok.mpr ⟨_, hrest, rfl⟩⟩⟩

theorem accepted_array {items : List Value} : Accepted limits path (.array items) ↔
    pathDepth path ≤ limits.maximumObjectDepth ∧ items.length ≤ limits.maximumArrayItems ∧
      (∀ i item, items[i]? = some item → item.isUndefined = false ∧
        Accepted limits (childPath path (decimalDigits i)) item) ∧
      Utf8.byteLength (Json.write (copyOf (.array items))) ≤ limits.maximumPayloadBytes := by
  have hitems := @cloneItems_copyOf limits path items 0
  simp only [Nat.zero_add] at hitems
  rw [← hitems, Accepted, cloneValue, copyOf_array]
  simp only [bind_ok, throwWhen_ok, exists_unit, decide_eq_false_iff_not, not_lt, withinBytes_ok]
  constructor
  · rintro ⟨hdepth, hlength, copied, hcopied, hbytes, hsame⟩
    rw [Value.array.injEq] at hsame
    rw [hsame]
    exact ⟨hdepth, hlength, hcopied, hbytes⟩
  · rintro ⟨hdepth, hlength, hcopied, hbytes⟩
    exact ⟨hdepth, hlength, _, hcopied, hbytes, rfl⟩

def IsSafeName (key : Text) : Prop :=
  dangerousKeys.contains key = false ∧ isSafeSegment key = true

theorem memberClone_copyOf {key : Text} {value : Value} :
    (∃ result, memberClone limits path key value = .ok result) ↔ IsSafeName key ∧
      (isKept (key, value) = true → Accepted limits (childPath path key) value) := by
  constructor
  · rintro ⟨result, h⟩
    obtain ⟨hdangerous, hsafe, hresult⟩ := memberClone_ok h
    apply And.intro ⟨hdangerous, hsafe⟩
    intro hkept
    obtain ⟨hskip, -⟩ | ⟨-, copy, hcopy, -⟩ := hresult
    · rw [hskip] at hkept
      cases hkept
    · exact accepted_of_ok hcopy
  · rintro ⟨⟨hdangerous, hsafe⟩, haccepted⟩
    unfold memberClone
    rw [hdangerous, hsafe]
    by_cases hskip : (hiddenFields.contains key || value.isUndefined) = true
    · exact ⟨none, by rw [if_pos hskip]; rfl⟩
    · have hkept : isKept (key, value) = true := by
        rw [isKept, ← Bool.not_or, Bool.eq_false_iff.mpr hskip]
        rfl
      refine ⟨some (copyOf value), ?_⟩
      rw [if_neg hskip, haccepted hkept]
      rfl

theorem collectMembers_some {list : List (Text × Value)} :
    (∃ copied, collectMembers (list.map fun m => (m.1, memberClone limits path m.1 m.2)) =
      .ok copied) ↔ ∀ m ∈ list, ∃ result, memberClone limits path m.1 m.2 = .ok result := by
  induction list with
  | nil =>
    apply iff_of_true ⟨[], rfl⟩
    intro m hm
    cases hm
  | cons m list ih =>
    rw [List.forall_mem_cons, ← ih, List.map_cons]
    constructor
    · rintro ⟨copied, h⟩
      rw [collectMembers] at h
      obtain ⟨result, hresult, h⟩ := bind_ok.mp h
      apply And.intro ⟨result, hresult⟩
      cases result with
      | none => exact ⟨copied, h⟩
      | some value =>
        obtain ⟨rest, hrest, -⟩ := bind_ok.mp h
        exact ⟨rest, hrest⟩
    · rintro ⟨⟨result, hresult⟩, rest, hrest⟩
      rw [collectMembers, hresult, ok_bind]
      cases result with
      | none => exact ⟨rest, hrest⟩
      | some value => exact ⟨_, bind_ok.mpr ⟨rest, hrest, rfl⟩⟩

theorem accepted_object {members : List (Text × Value)} :
    Accepted limits path (.object members) ↔
      pathDepth path ≤ limits.maximumObjectDepth ∧
        (∀ m ∈ members, IsSafeName m.1 ∧
          (isKept m = true → Accepted limits (childPath path m.1) m.2)) ∧
        Utf8.byteLength (Json.write (copyOf (.object members))) ≤ limits.maximumPayloadBytes := by
  have hmembers : (∃ copied, collectMembers ((Reordering.byName.order members).map fun m =>
      (m.1, memberClone limits path m.1 m.2)) = .ok copied) ↔
      ∀ m ∈ members, IsSafeName m.1 ∧
        (isKept m = true → Accepted limits (childPath path m.1) m.2) := by
    rw [collectMembers_some]
    simp only [memberClone_copyOf, (Reordering.byName.perm members).mem_iff]
  have hcopied (copied : List (Text × Value)) (h : collectMembers
      ((Reordering.byName.order members).map fun m => (m.1, memberClone limits path m.1 m.2)) =
        .ok copied) : copied = copiedMembers members :=
    collectMembers_ok h fun m _ copy hcopy => cloneValue_ok hcopy
  rw [← hmembers, Accepted, cloneValue, copyOf_object, cloneMembers_eq,
    Reordering.order_map_named]
  simp only [bind_ok, throwWhen_ok, exists_unit, decide_eq_false_iff_not, not_lt, withinBytes_ok]
  constructor
  · rintro ⟨hdepth, copied, hwalk, hbytes, hsame⟩
    rw [← hcopied copied hwalk] at hsame ⊢
    exact ⟨hdepth, ⟨copied, hwalk⟩, hbytes⟩
  · rintro ⟨hdepth, ⟨copied, hwalk⟩, hbytes⟩
    rw [← hcopied copied hwalk] at hbytes ⊢
    exact ⟨hdepth, copied, hwalk, hbytes, rfl⟩

theorem Accepted.isJson_copyOf {value : Value} (h : Accepted limits path value)
    (hdefined : value.isUndefined = false) : (copyOf value).isJson = true := by
  induction value using Value.inductionOn generalizing path with
  | undefined => cases hdefined
  | array items ih =>
    obtain ⟨-, -, hitems, -⟩ := accepted_array.mp h
    rw [copyOf_array, Value.isJson_array, List.forall_mem_map]
    intro item hitem
    obtain ⟨index, hindex⟩ := List.mem_iff_getElem?.mp hitem
    exact ih item hitem (hitems index item hindex).2 (hitems index item hindex).1
  | object members ih =>
    obtain ⟨-, hmembers, -⟩ := accepted_object.mp h
    rw [copyOf_object, Value.isJson_object]
    intro copied hcopied
    obtain ⟨m, hm, rfl⟩ := List.mem_map.mp hcopied
    obtain ⟨hm, hkept⟩ := List.mem_filter.mp hm
    rw [(Reordering.byName.perm members).mem_iff] at hm
    have hmember : m.2.isUndefined = false := by
      rw [isKept, Bool.and_eq_true, Bool.not_eq_true'] at hkept
      simpa using hkept.2
    exact ih m hm ((hmembers m hm).2 hkept) hmember
  | number n =>
    rw [Accepted, cloneValue] at h
    obtain ⟨_, -, h⟩ := bind_ok.mp h
    obtain ⟨_, hfinite, -⟩ := bind_ok.mp h
    rw [throwWhen_ok] at hfinite
    cases n with
    | finite x => rfl
    | _ => cases hfinite
  | null | bool | string => rfl

theorem Pruned.uniqueKeys {value left : Value} (h : Pruned value left)
    (hkeys : value.uniqueKeys = true) : left.uniqueKeys = true := by
  induction value using Value.inductionOn generalizing left with
  | array items ih =>
    cases h with
    | leaf h => cases h
    | array hitems =>
      rw [Value.uniqueKeys_array] at hkeys ⊢
      intro item hitem
      obtain ⟨first, hfirst, hpruned⟩ := exists_of_forall₂ hitems hitem
      exact ih first hfirst hpruned (hkeys first hfirst)
  | object members ih =>
    cases h with
    | leaf h => cases h
    | object hnodup hnames hmembers =>
      rw [Value.uniqueKeys_object] at hkeys ⊢
      apply And.intro hnodup
      intro m hm
      obtain ⟨value, hvalue⟩ := Option.isSome_iff_exists.mp (hnames m hm)
      have hmem := mem_of_lookup hvalue
      exact ih _ hmem (hmembers m hm value hvalue) (hkeys.2 _ hmem)
  | undefined | null | bool | number | string =>
    cases h
    exact hkeys

theorem Pruned.copyOf {value left : Value} (h : Pruned value left)
    (hkeys : value.uniqueKeys = true) : Pruned (copyOf value) (copyOf left) := by
  have hleft := h.uniqueKeys hkeys
  induction value using Value.inductionOn generalizing left with
  | array items ih =>
    cases h with
    | leaf h => cases h
    | @array _ left hitems =>
      rw [copyOf_array, copyOf_array]
      rw [Value.uniqueKeys_array] at hkeys hleft
      apply Pruned.array
      induction hitems with
      | nil => exact .nil
      | cons hitem _ ihitems =>
        simp only [List.forall_mem_cons] at hkeys hleft ih
        exact .cons (ih.1 hitem hkeys.1 hleft.1) (ihitems ih.2 hkeys.2 hleft.2)
  | object members ih =>
    cases h with
    | leaf h => cases h
    | @object _ left hnodup hnames hmembers =>
      obtain ⟨hunique, hkeys⟩ := (Value.uniqueKeys_object members).mp hkeys
      have hlookup {m : Text × Value} (hm : m ∈ copiedMembers left) :
          ∃ value other, (members.lookup m.1 = some value ∧ left.lookup m.1 = some other) ∧
            (copiedMembers members).lookup m.1 = some (DelegatedData.copyOf value) ∧
            m.2 = DelegatedData.copyOf other := by
        obtain ⟨n, hn, rfl⟩ := List.mem_map.mp hm
        obtain ⟨hn, hkept⟩ := List.mem_filter.mp hn
        rw [(Reordering.byName.perm left).mem_iff] at hn
        obtain ⟨value, hvalue⟩ := Option.isSome_iff_exists.mp (hnames n hn)
        have hsame := (hmembers n hn value hvalue).isUndefined_eq
        have hkept' : isKept (n.1, value) = true := by
          rw [isKept, ← hsame]
          exact hkept
        refine ⟨value, n.2, ⟨hvalue, (lookup_eq_some_iff hnodup n.1 n.2).mpr hn⟩, ?_, rfl⟩
        show (copiedMembers members).lookup n.1 = _
        rw [lookup_copiedMembers hunique, hvalue, Option.filter_some, if_pos hkept']
        rfl
      have hcopied := uniqueKeys_copyOf hleft
      rw [copyOf_object] at hcopied
      rw [copyOf_object, copyOf_object]
      apply Pruned.object ((Value.uniqueKeys_object _).mp hcopied).1
      · intro m hm
        obtain ⟨value, other, -, hfound, -⟩ := hlookup hm
        rw [hfound]
        rfl
      · intro m hm copy hcopy
        obtain ⟨value, other, ⟨hvalue, hother⟩, hfound, hsame⟩ := hlookup hm
        rw [hfound, Option.some.injEq] at hcopy
        subst hcopy
        rw [hsame]
        have hmem := mem_of_lookup hvalue
        have hmem' := mem_of_lookup hother
        exact ih _ hmem (hmembers _ hmem' value hvalue) (hkeys _ hmem)
          (((Value.uniqueKeys_object left).mp hleft).2 _ hmem')
  | undefined | null | bool | number | string =>
    cases h
    exact .leaf rfl

private theorem byteLength_copyOf_le {value left : Value} (h : Accepted limits path value)
    (hkeys : value.uniqueKeys = true) (hdefined : value.isUndefined = false)
    (hpruned : Pruned value left) :
    Utf8.byteLength (Json.write (copyOf left)) ≤ Utf8.byteLength (Json.write (copyOf value)) :=
  (hpruned.copyOf hkeys).byteLength_write_le (uniqueKeys_copyOf hkeys) (h.isJson_copyOf hdefined)

theorem Accepted.pruned {value left : Value} (h : Accepted limits path value)
    (hkeys : value.uniqueKeys = true) (hpruned : Pruned value left) :
    Accepted limits path left := by
  induction value using Value.inductionOn generalizing path left with
  | array items ih =>
    have hbytes := byteLength_copyOf_le h hkeys rfl hpruned
    cases hpruned with
    | leaf h => cases h
    | @array _ left hitems =>
      obtain ⟨hdepth, hlength, haccepted, hsize⟩ := accepted_array.mp h
      rw [Value.uniqueKeys_array] at hkeys
      rw [hitems.length_eq] at hlength
      apply accepted_array.mpr
      refine ⟨hdepth, hlength, ?_, hbytes.trans hsize⟩
      intro index item hitem
      obtain ⟨first, hfirst, hpruned⟩ := getElem?_forall₂ hitems hitem
      obtain ⟨hdefined, hchild⟩ := haccepted index first hfirst
      have hmem := List.mem_of_getElem? hfirst
      rw [hpruned.isUndefined_eq]
      exact ⟨hdefined, ih first hmem hchild (hkeys first hmem) hpruned⟩
  | object members ih =>
    have hbytes := byteLength_copyOf_le h hkeys rfl hpruned
    cases hpruned with
    | leaf h => cases h
    | @object _ left _ hnames hmembers =>
      obtain ⟨hdepth, haccepted, hsize⟩ := accepted_object.mp h
      rw [Value.uniqueKeys_object] at hkeys
      apply accepted_object.mpr
      refine ⟨hdepth, ?_, hbytes.trans hsize⟩
      intro m hm
      obtain ⟨value, hvalue⟩ := Option.isSome_iff_exists.mp (hnames m hm)
      have hmem := mem_of_lookup hvalue
      have hpruned := hmembers m hm value hvalue
      obtain ⟨hsafe, hchild⟩ := haccepted _ hmem
      apply And.intro hsafe
      intro hkept
      rw [isKept, hpruned.isUndefined_eq] at hkept
      exact ih _ hmem (hchild hkept) (hkeys.2 _ hmem) hpruned
  | undefined | null | bool | number | string =>
    cases hpruned
    exact h

end GhostBridge.DelegatedData
