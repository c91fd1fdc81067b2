import GhostBridge.Ecma.Value

/-!
# Member order

Rebuilding a value with its members in another order, at every depth.
-/

namespace Ecma

/-- A way to list the members of an object that looks at their names only. -/
structure Reordering where
  order {α : Type} : List (Text × α) → List (Text × α)
  perm {α : Type} (members : List (Text × α)) : (order members).Perm members
  natural {α β : Type} (f : α → β) (members : List (Text × α)) :
    order (members.map (Prod.map id f)) = (order members).map (Prod.map id f)

/-- The result does not depend on the order the members came in. -/
def Reordering.Forgetful (ρ : Reordering) : Prop :=
  ∀ {α : Type} {ms ns : List (Text × α)}, (ms.map Prod.fst).Nodup → ms.Perm ns →
    ρ.order ms = ρ.order ns

/-- `ρ` after `σ`. -/
def Reordering.comp (ρ σ : Reordering) : Reordering where
  order members := ρ.order (σ.order members)
  perm members := (ρ.perm _).trans (σ.perm _)
  natural f members := by rw [σ.natural, ρ.natural]

theorem Reordering.comp_forgetful (ρ : Reordering) {σ : Reordering} (h : σ.Forgetful) :
    (ρ.comp σ).Forgetful := fun hms hp => congrArg ρ.order (h hms hp)

private theorem names_map {α β : Type} (f : α → β) (members : List (Text × α)) :
    (members.map (Prod.map id f)).map Prod.fst = members.map Prod.fst := by
  rw [List.map_map]
  rfl

theorem Reordering.order_map_named {α β : Type} (ρ : Reordering) (f : Text → α → β)
    (members : List (Text × α)) :
    ρ.order (members.map fun m => (m.1, f m.1 m.2)) =
      (ρ.order members).map fun m => (m.1, f m.1 m.2) := by
  let paired := members.map fun m => (m.1, m)
  have hpaired : members.map (fun m => (m.1, f m.1 m.2)) =
      paired.map (Prod.map id fun m => f m.1 m.2) := by
    rw [List.map_map]
    rfl
  have hforget : paired.map (Prod.map id Prod.snd) = members := by
    rw [List.map_map]
    exact List.map_id members
  have hname : ∀ p ∈ ρ.order paired, p.1 = p.2.1 := by
    intro p hp
    obtain ⟨m, -, rfl⟩ := List.mem_map.mp ((ρ.perm _).mem_iff.mp hp)
    rfl
  have hmembers : ρ.order members = (ρ.order paired).map (Prod.map id Prod.snd) := by
    rw [← ρ.natural, hforget]
  rw [hpaired, ρ.natural, hmembers, List.map_map]
  apply List.map_congr_left
  intro p hp
  show (p.1, f p.2.1 p.2.2) = (p.1, f p.1 p.2.2)
  rw [hname p hp]

private def nameLe {α : Type} (m n : Text × α) : Prop := Text.le m.1 n.1 = true

private instance {α : Type} : DecidableRel (nameLe (α := α)) :=
  fun m n => inferInstanceAs (Decidable (Text.le m.1 n.1 = true))

private instance {α : Type} : Std.Total (nameLe (α := α)) := ⟨fun m n => Text.le_total m.1 n.1⟩

private instance {α : Type} : IsTrans (Text × α) nameLe := ⟨fun _ _ _ h h' => Text.le_trans h h'⟩

/-- `Object.keys(v).sort()` and the members it lists. -/
def Reordering.byName : Reordering where
  order members := members.insertionSort nameLe
  perm _ := List.perm_insertionSort _ _
  natural f members :=
    (List.map_insertionSort (r := nameLe) (s := nameLe) (Prod.map id f) members
      (fun _ _ _ _ => Iff.rfl)).symm

theorem Reordering.byName_forgetful : Reordering.byName.Forgetful := by
  intro α ms ns hms hp
  have hsort (l : List (Text × α)) : (l.insertionSort nameLe).Pairwise nameLe :=
    List.pairwise_insertionSort _ _
  have hperm : (ms.insertionSort nameLe).Perm (ns.insertionSort nameLe) :=
    ((List.perm_insertionSort _ _).trans hp).trans (List.perm_insertionSort _ _).symm
  refine hperm.eq_of_pairwise ?_ (hsort ms) (hsort ns)
  intro m n hm _ hmn hnm
  have hm' := (List.perm_insertionSort _ _).mem_iff.mp hm
  have hn' := (List.perm_insertionSort _ _).mem_iff.mp (hperm.mem_iff.mpr ‹_›)
  exact List.inj_on_of_nodup_map hms hm' hn' (Text.le_antisymm hmn hnm)

def arrayIndex? (name : Text) : Option Nat :=
  let n := digitsValue name
  if decimalDigits n = name ∧ n < 4294967295 then some n else none

private def indexLe {α : Type} (m n : Text × α) : Prop :=
  (arrayIndex? m.1).getD 0 ≤ (arrayIndex? n.1).getD 0

private instance {α : Type} : DecidableRel (indexLe (α := α)) :=
  fun _ _ => inferInstanceAs (Decidable (_ ≤ _))

/-- The order in which an object lists members added in this order: array indices first,
ascending, then the other names. -/
def Reordering.propertyOrder : Reordering where
  order members :=
    (members.filter fun m => (arrayIndex? m.1).isSome).insertionSort indexLe ++
      members.filter fun m => !(arrayIndex? m.1).isSome
  perm members :=
    ((List.perm_insertionSort _ _).append_right _).trans (List.filter_append_perm _ _)
  natural f members := by
    rw [List.map_append, List.map_insertionSort (r := indexLe) (s := indexLe) (Prod.map id f) _
      (fun _ _ _ _ => Iff.rfl), List.filter_map, List.filter_map]
    rfl

def defineMember {α : Type} (members : List (Text × α)) (name : Text) (value : α) :
    List (Text × α) :=
  match members with
  | [] => [(name, value)]
  | m :: members =>
    if m.1 = name then (name, value) :: members
    else m :: defineMember members name value

/-- The own members of `Object.fromEntries(entries)`. -/
def fromEntries {α : Type} (entries : List (Text × α)) : List (Text × α) :=
  Reordering.propertyOrder.order
    (entries.foldl (fun members e => defineMember members e.1 e.2) [])

theorem defineMember_of_not_mem {α : Type} {members : List (Text × α)} {name : Text}
    (h : name ∉ members.map Prod.fst) (value : α) :
    defineMember members name value = members ++ [(name, value)] := by
  induction members with
  | nil => rfl
  | cons m members ih =>
    simp only [List.map_cons, List.mem_cons, not_or] at h
    rw [defineMember, if_neg (Ne.symm h.1), ih h.2]
    rfl

theorem lookup_defineMember_of_ne {α : Type} {members : List (Text × α)} {name other : Text}
    (h : other ≠ name) (value : α) :
    (defineMember members name value).lookup other = members.lookup other := by
  have hother : (other == name) = false := beq_eq_false_iff_ne.mpr h
  induction members with
  | nil => simp [defineMember, List.lookup_cons, hother]
  | cons m members ih =>
    obtain ⟨key, old⟩ := m
    rw [defineMember]
    split
    · next hkey =>
      obtain rfl : key = name := hkey
      simp only [List.lookup_cons, hother]
    · rw [List.lookup_cons, List.lookup_cons, ih]

theorem mem_of_mem_defineMember {α : Type} {members : List (Text × α)} {name : Text} {value : α}
    {m : Text × α} (h : m ∈ defineMember members name value) : m ∈ members ∨ m = (name, value) := by
  induction members with
  | nil => exact .inr (List.mem_singleton.mp h)
  | cons n members ih =>
    rw [defineMember] at h
    split at h
    · rcases List.mem_cons.mp h with rfl | h
      · exact .inr rfl
      · exact .inl (List.mem_cons_of_mem n h)
    · rcases List.mem_cons.mp h with rfl | h
      · exact .inl List.mem_cons_self
      · exact (ih h).imp_left (List.mem_cons_of_mem n)

theorem mem_of_mem_fromEntries {α : Type} {entries : List (Text × α)} {m : Text × α}
    (h : m ∈ fromEntries entries) : m ∈ entries := by
  have hfold (members : List (Text × α))
      (hm : m ∈ entries.foldl (fun members e => defineMember members e.1 e.2) members) :
      m ∈ members ∨ m ∈ entries := by
    clear h
    induction entries generalizing members with
    | nil => exact .inl hm
    | cons e entries ih =>
      rcases ih _ hm with hm | hm
      · exact (mem_of_mem_defineMember hm).imp_right fun he => List.mem_cons.mpr (.inl he)
      · exact .inr (List.mem_cons_of_mem e hm)
  rw [fromEntries, (Reordering.propertyOrder.perm _).mem_iff] at h
  exact (hfold [] h).resolve_left List.not_mem_nil

theorem fromEntries_of_nodup {α : Type} {entries : List (Text × α)}
    (h : (entries.map Prod.fst).Nodup) :
    fromEntries entries = Reordering.propertyOrder.order entries := by
  have hfold (members : List (Text × α)) (hn : ((members ++ entries).map Prod.fst).Nodup) :
      entries.foldl (fun members e => defineMember members e.1 e.2) members =
        members ++ entries := by
    clear h
    induction entries generalizing members with
    | nil => simp
    | cons e entries ih =>
      have hnot : e.1 ∉ members.map Prod.fst := by
        rw [List.map_append, List.nodup_append] at hn
        intro hm
        exact hn.2.2 e.1 hm e.1 (by simp) rfl
      have happ : members ++ [(e.1, e.2)] ++ entries = members ++ e :: entries := by simp
      rw [List.foldl_cons, defineMember_of_not_mem hnot, ih _ (by rwa [happ]), happ]
  rw [fromEntries, hfold [] (by simpa using h), List.nil_append]

theorem nodup_fromEntries {α : Type} {entries : List (Text × α)}
    (h : (entries.map Prod.fst).Nodup) : ((fromEntries entries).map Prod.fst).Nodup := by
  rw [fromEntries_of_nodup h, ((Reordering.propertyOrder.perm _).map Prod.fst).nodup_iff]
  exact h

theorem lookup_fromEntries {α : Type} {entries : List (Text × α)}
    (h : (entries.map Prod.fst).Nodup) (name : Text) :
    (fromEntries entries).lookup name = entries.lookup name := by
  refine Option.ext fun value => ?_
  rw [lookup_eq_some_iff (nodup_fromEntries h), lookup_eq_some_iff h, fromEntries_of_nodup h,
    (Reordering.propertyOrder.perm _).mem_iff]

namespace Value

mutual
def rebuild (number : Number → Number) (ρ : Reordering) : Value → Value
  | .number n => .number (number n)
  | .array items => .array (rebuildItems number ρ items)
  | .object members => .object (ρ.order (rebuildMembers number ρ members))
  | v => v
def rebuildItems (number : Number → Number) (ρ : Reordering) : List Value → List Value
  | [] => []
  | item :: items => rebuild number ρ item :: rebuildItems number ρ items
def rebuildMembers (number : Number → Number) (ρ : Reordering) :
    List (Text × Value) → List (Text × Value)
  | [] => []
  | (k, v) :: members => (k, rebuild number ρ v) :: rebuildMembers number ρ members
end

variable (f g : Number → Number) (ρ σ : Reordering)

theorem rebuild_array (items : List Value) :
    (Value.array items).rebuild f ρ = .array (items.map (rebuild f ρ)) := by
  rw [rebuild]
  congr 1
  induction items with
  | nil => rfl
  | cons item items ih => rw [rebuildItems, ih, List.map_cons]

theorem rebuild_object (members : List (Text × Value)) :
    (Value.object members).rebuild f ρ =
      .object (ρ.order (members.map (Prod.map id (rebuild f ρ)))) := by
  rw [rebuild]
  congr 2
  induction members with
  | nil => rfl
  | cons m members ih => rw [rebuildMembers, ih, List.map_cons]; rfl

theorem rebuild_rebuild (hρ : ρ.Forgetful) {v : Value} (hv : v.uniqueKeys = true) :
    (v.rebuild g σ).rebuild f ρ = v.rebuild (f ∘ g) ρ := by
  induction v using inductionOn with
  | undefined => rfl
  | null => rfl
  | bool b => rfl
  | number n => rfl
  | string s => rfl
  | array items ih =>
    rw [uniqueKeys_array] at hv
    simp only [rebuild_array, List.map_map, array.injEq]
    exact List.map_congr_left fun item hi => ih item hi (hv item hi)
  | object members ih =>
    obtain ⟨hn, hv⟩ := (uniqueKeys_object members).mp hv
    have hmap : (members.map (Prod.map id (rebuild g σ))).map (Prod.map id (rebuild f ρ)) =
        members.map (Prod.map id (rebuild (f ∘ g) ρ)) := by
      rw [List.map_map]
      exact List.map_congr_left fun m hm => congrArg (Prod.mk m.1) (ih m hm (hv m hm))
    rw [rebuild_object, rebuild_object, rebuild_object, ← σ.natural, hmap]
    congr 1
    refine hρ ?_ (σ.perm _)
    rw [((σ.perm _).map Prod.fst).nodup_iff, names_map]
    exact hn

theorem rebuild_uniqueKeys {v : Value} (hv : v.uniqueKeys = true) :
    (v.rebuild f ρ).uniqueKeys = true := by
  induction v using inductionOn with
  | undefined => rfl
  | null => rfl
  | bool b => rfl
  | number n => rfl
  | string s => rfl
  | array items ih =>
    rw [uniqueKeys_array] at hv
    simp only [rebuild_array, uniqueKeys_array, List.forall_mem_map]
    exact fun item hi => ih item hi (hv item hi)
  | object members ih =>
    rw [uniqueKeys_object] at hv
    rw [rebuild_object, uniqueKeys_object, ((ρ.perm _).map Prod.fst).nodup_iff, names_map]
    refine ⟨hv.1, fun m hm => ?_⟩
    obtain ⟨n, hn, rfl⟩ := List.mem_map.mp ((ρ.perm _).mem_iff.mp hm)
    exact ih n hn (hv.2 n hn)

end Value

/-- The value of a number, `-0` being `0`. -/
def Number.unsignedZero : Number → Number
  | .finite x => .finite x.unsignedZero
  | n => n

@[simp] theorem Number.unsignedZero_comp : Number.unsignedZero ∘ Number.unsignedZero =
    Number.unsignedZero := by
  funext n
  cases n <;> simp [Number.unsignedZero]

namespace Value

def sorted (v : Value) : Value := v.rebuild Number.unsignedZero .byName

theorem sorted_rebuild (ρ : Reordering) {v : Value} (hv : v.uniqueKeys = true) :
    (v.rebuild Number.unsignedZero ρ).sorted = v.sorted := by
  rw [sorted, rebuild_rebuild _ _ _ _ Reordering.byName_forgetful hv,
    Number.unsignedZero_comp, sorted]

theorem sorted_array (items : List Value) :
    (Value.array items).sorted = .array (items.map sorted) := rebuild_array _ _ items

theorem sorted_object (members : List (Text × Value)) :
    (Value.object members).sorted =
      .object (Reordering.byName.order (members.map (Prod.map id sorted))) :=
  rebuild_object _ _ members

theorem sameValueZero_iff_unsignedZero (a b : Number) :
    a.sameValueZero b = true ↔ a.unsignedZero = b.unsignedZero := by
  cases a <;> cases b <;>
    simp [Number.sameValueZero, Number.strictEq, Number.unsignedZero, Finite64.same_iff]

theorem sameValueZero_comm (v w : Value) : v.sameValueZero w = w.sameValueZero v := by
  cases v with
  | number a =>
    cases w with
    | number b =>
      change a.sameValueZero b = b.sameValueZero a
      rw [Bool.eq_iff_iff, sameValueZero_iff_unsignedZero, sameValueZero_iff_unsignedZero, eq_comm]
    | _ => simp [sameValueZero, strictEq]
  | _ => cases w <;> simp [sameValueZero, strictEq, Bool.beq_comm]

theorem sameValueZero_trans {u v w : Value} (huv : u.sameValueZero v = true)
    (hvw : v.sameValueZero w = true) : u.sameValueZero w = true := by
  cases v with
  | number b =>
    cases u with
    | number a =>
      cases w with
      | number c =>
        simp only [sameValueZero, sameValueZero_iff_unsignedZero] at huv hvw ⊢
        exact huv.trans hvw
      | _ => simp [sameValueZero, strictEq] at hvw
    | _ => simp [sameValueZero, strictEq] at huv
  | _ =>
    cases u <;> simp [sameValueZero, strictEq] at huv <;>
      cases w <;> simp [sameValueZero, strictEq] at hvw ⊢ <;> simp_all

private theorem sorted_items_iff {xs ys : List Value}
    (ih : ∀ x ∈ xs, ∀ y ∈ ys, x.sameUpToOrder y = true ↔ x.sorted = y.sorted) :
    List.Forall₂ (fun x y => x.sameUpToOrder y = true) xs ys ↔
      xs.map sorted = ys.map sorted := by
  induction xs generalizing ys with
  | nil => cases ys <;> simp
  | cons x xs ihx =>
    cases ys with
    | nil => simp
    | cons y ys =>
      have hhead := ih x List.mem_cons_self y List.mem_cons_self
      have htail := ihx fun z hz w hw =>
        ih z (List.mem_cons_of_mem _ hz) w (List.mem_cons_of_mem _ hw)
      simp only [List.forall₂_cons, List.map_cons, List.cons.injEq, hhead, htail]

private theorem sorted_members_iff {ms ns : List (Text × Value)}
    (hms : (ms.map Prod.fst).Nodup) (hns : (ns.map Prod.fst).Nodup)
    (ih : ∀ m ∈ ms, ∀ n ∈ ns, m.2.sameUpToOrder n.2 = true ↔ m.2.sorted = n.2.sorted) :
    (ms.length = ns.length ∧
        ∀ m ∈ ms, ∃ w, ns.lookup m.1 = some w ∧ m.2.sameUpToOrder w = true) ↔
      (ms.map (Prod.map id sorted)).Perm (ns.map (Prod.map id sorted)) := by
  constructor
  · rintro ⟨hlen, hsame⟩
    have hsub : ms.map (Prod.map id sorted) ⊆ ns.map (Prod.map id sorted) := by
      intro e he
      obtain ⟨m, hm, rfl⟩ := List.mem_map.mp he
      obtain ⟨w, hw, hs⟩ := hsame m hm
      have hn := (lookup_eq_some_iff hns m.1 w).mp hw
      exact List.mem_map.mpr ⟨_, hn, congrArg (Prod.mk m.1) ((ih m hm _ hn).mp hs).symm⟩
    have hnodup : (ms.map (Prod.map id sorted)).Nodup :=
      List.Nodup.of_map Prod.fst (by rwa [names_map])
    exact (hnodup.subperm hsub).perm_of_length_le (by simp [hlen])
  · intro hp
    refine ⟨by simpa using hp.length_eq, fun m hm => ?_⟩
    obtain ⟨n, hn, he⟩ := List.mem_map.mp (hp.mem_iff.mp (List.mem_map_of_mem hm))
    obtain ⟨hname, hval⟩ : n.1 = m.1 ∧ n.2.sorted = m.2.sorted := by
      simpa [Prod.ext_iff] using he
    exact ⟨n.2, (lookup_eq_some_iff hns m.1 n.2).mpr (hname ▸ hn), (ih m hm n hn).mpr hval.symm⟩

theorem sameUpToOrder_iff_sorted {v w : Value} (hv : v.uniqueKeys = true)
    (hw : w.uniqueKeys = true) : v.sameUpToOrder w = true ↔ v.sorted = w.sorted := by
  induction v using inductionOn generalizing w with
  | undefined => cases w <;> simp [sameUpToOrder, sorted, rebuild]
  | null => cases w <;> simp [sameUpToOrder, sorted, rebuild]
  | bool b => cases w <;> simp [sameUpToOrder, sorted, rebuild]
  | string s => cases w <;> simp [sameUpToOrder, sorted, rebuild]
  | number n =>
    cases w <;> simp [sameUpToOrder, sorted, rebuild, sameValueZero_iff_unsignedZero]
  | array items ih =>
    cases w with
    | array ys =>
      rw [uniqueKeys_array] at hv hw
      have hitems := sorted_items_iff fun x hx y hy => ih x hx (hv x hx) (hw y hy)
      simp only [sameUpToOrder, sameItems_iff, hitems, sorted_array, array.injEq]
    | _ => simp [sameUpToOrder, sorted, rebuild]
  | object members ih =>
    cases w with
    | object ns =>
      rw [uniqueKeys_object] at hv hw
      have hmembers := sorted_members_iff hv.1 hw.1 fun m hm n hn =>
        ih m hm (hv.2 m hm) (hw.2 n hn)
      simp only [sameUpToOrder, Bool.and_eq_true, beq_iff_eq, sameMembers_iff, hmembers,
        sorted_object, object.injEq]
      refine ⟨Reordering.byName_forgetful (by rw [names_map]; exact hv.1), fun h => ?_⟩
      exact ((Reordering.byName.perm _).symm.trans (h ▸ .refl _)).trans
        (Reordering.byName.perm _)
    | _ => simp [sameUpToOrder, sorted, rebuild]

end Value

end Ecma
