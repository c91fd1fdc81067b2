import GhostBridge.Ecma.Json
import GhostBridge.Ecma.Utf8
import Mathlib.Algebra.Order.BigOperators.Group.List

/-!
# The bytes of JSON text

Written text has no unpaired surrogates, so it survives UTF-8.
-/

namespace Ecma

theorem Text.isWellFormed_append {a b : Text} (ha : a.isWellFormed = true)
    (hb : b.isWellFormed = true) : Text.isWellFormed (a ++ b) = true := by
  induction a using Text.isWellFormed.induct with
  | case1 => exact hb
  | case2 u =>
    simp only [Text.isWellFormed, Bool.and_eq_true, Bool.not_eq_true'] at ha
    cases b with
    | nil => simp [Text.isWellFormed, ha]
    | cons v b => simp [Text.isWellFormed, ha, hb]
  | case3 u v rest h ih =>
    simp only [Text.isWellFormed, h, if_true, Bool.and_eq_true] at ha
    simp [Text.isWellFormed, h, ha, ih ha.2]
  | case4 u v rest h ih =>
    simp only [Text.isWellFormed, h, if_false, Bool.and_eq_true, Bool.false_eq_true] at ha
    have hrest : Text.isWellFormed (v :: rest ++ b) = true := ih ha.2
    simp only [List.cons_append] at hrest ⊢
    simp [Text.isWellFormed, h, ha.1, hrest]

theorem Text.isWellFormed_of_forall {text : Text}
    (h : ∀ u ∈ text, isHighSurrogate u = false ∧ isLowSurrogate u = false) :
    text.isWellFormed = true := by
  induction text with
  | nil => rfl
  | cons u rest ih =>
    rw [List.forall_mem_cons] at h
    have hu : Text.isWellFormed [u] = true := by simp [Text.isWellFormed, h.1]
    exact Text.isWellFormed_append hu (ih h.2)

namespace Utf8

theorem scalars_append {a : Text} (b : Text) (ha : a.isWellFormed = true) :
    scalars (a ++ b) = scalars a ++ scalars b := by
  induction a using Text.isWellFormed.induct with
  | case1 => rfl
  | case2 u =>
    simp only [Text.isWellFormed, Bool.and_eq_true, Bool.not_eq_true'] at ha
    cases b with
    | nil => rfl
    | cons v b => simp [scalars, ha]
  | case3 u v rest h ih =>
    simp only [Text.isWellFormed, h, if_true, Bool.and_eq_true] at ha
    simp [scalars, h, ha, ih ha.2]
  | case4 u v rest h ih =>
    simp only [Text.isWellFormed, h, if_false, Bool.and_eq_true, Bool.false_eq_true] at ha
    have hrest : scalars (v :: rest ++ b) = scalars (v :: rest) ++ scalars b := ih ha.2
    simp only [List.cons_append] at hrest ⊢
    simp [scalars, h, hrest]

theorem byteLength_append {a : Text} (b : Text) (ha : a.isWellFormed = true) :
    byteLength (a ++ b) = byteLength a + byteLength b := by
  simp [byteLength, encode, scalars_append b ha]

private theorem ascii_unit {u : UInt16} (hu : u < 0x80) :
    isHighSurrogate u = false ∧ isLowSurrogate u = false ∧ u.toNat < 0x80 := by
  obtain ⟨hhigh, hlow⟩ := surrogates_toNat u
  rw [UInt16.lt_iff_toNat_lt] at hu
  simp only [UInt16.reduceToNat] at hu
  refine ⟨Bool.eq_false_iff.mpr fun h => ?_, Bool.eq_false_iff.mpr fun h => ?_, hu⟩
  · rw [hhigh] at h
    omega
  · rw [hlow] at h
    omega

theorem isWellFormed_ascii {text : Text} (h : ∀ u ∈ text, u < 0x80) : text.isWellFormed = true :=
  Text.isWellFormed_of_forall fun u hu => ⟨(ascii_unit (h u hu)).1, (ascii_unit (h u hu)).2.1⟩

theorem encode_ascii {text : Text} (h : ∀ u ∈ text, u < 0x80) : encode text = lowBytes text := by
  induction text with
  | nil => rfl
  | cons u rest ih =>
    rw [List.forall_mem_cons] at h
    obtain ⟨hhigh, hlow, hu⟩ := ascii_unit h.1
    have hwf : Text.isWellFormed [u] = true := by simp [Text.isWellFormed, hhigh, hlow]
    have hone : encode [u] = [u.toUInt8] := by
      simp only [encode, scalars, unitScalar, hhigh, hlow, Bool.or_self, Bool.false_eq_true,
        if_false, List.flatMap_cons, List.flatMap_nil, List.append_nil, encodeScalar, hu, if_true,
        List.cons.injEq, and_true]
      rfl
    rw [← List.singleton_append, encode, scalars_append rest hwf, List.flatMap_append]
    change encode [u] ++ encode rest = _
    rw [hone, ih h.2]
    rfl

theorem byteLength_ascii {text : Text} (h : ∀ u ∈ text, u < 0x80) :
    byteLength text = text.length := by
  rw [byteLength, encode_ascii h, lowBytes, List.length_map]

end Utf8

namespace Json

private theorem hexDigit_plain (n : Nat) (h : n < 16) :
    isHighSurrogate (hexDigit n) = false ∧ isLowSurrogate (hexDigit n) = false := by
  interval_cases n <;> decide

private theorem hexDigit_ascii (n : Nat) (h : n < 16) : hexDigit n < 0x80 := by
  interval_cases n <;> decide

theorem escapeUnit_wellFormed (u : UInt16) : (escapeUnit u).isWellFormed = true := by
  have hu := u.toNat_lt
  unfold escapeUnit
  split
  · decide
  split
  · decide
  split
  · decide
  split
  · decide
  split
  · decide
  split
  · decide
  split
  · decide
  split
  · refine Text.isWellFormed_of_forall fun v hv => ?_
    simp only [unicodeEscape, List.mem_cons, List.not_mem_nil, or_false] at hv
    rcases hv with rfl | rfl | rfl | rfl | rfl | rfl
    · decide
    · decide
    all_goals exact hexDigit_plain _ (by omega)
  · next h =>
    simp only [Bool.or_eq_true, not_or, Bool.not_eq_true] at h
    simp [Text.isWellFormed, h]

theorem quoteUnits_wellFormed (s : Text) : (quoteUnits s).isWellFormed = true := by
  induction s using quoteUnits.induct with
  | case1 => rfl
  | case2 a => exact escapeUnit_wellFormed a
  | case3 a b s h ih =>
    obtain ⟨ha, hb⟩ := Bool.and_eq_true_iff.mp h
    simp [quoteUnits, Text.isWellFormed, ha, hb, ih]
  | case4 a b s h ih =>
    rw [quoteUnits, if_neg h]
    exact Text.isWellFormed_append (escapeUnit_wellFormed a) ih

private theorem between_wellFormed {text : Text} (h : text.isWellFormed = true) (u v : UInt16)
    (hu : Text.isWellFormed [u] = true) (hv : Text.isWellFormed [v] = true) :
    Text.isWellFormed (u :: (text ++ [v])) = true :=
  Text.isWellFormed_append hu (Text.isWellFormed_append h hv)

theorem quote_wellFormed (s : Text) : (quote s).isWellFormed = true :=
  between_wellFormed (quoteUnits_wellFormed s) 0x22 0x22 rfl rfl

private theorem joined_wellFormed {texts : List Text} (h : ∀ t ∈ texts, t.isWellFormed = true) :
    Text.isWellFormed ([0x2c].intercalate texts) = true := by
  induction texts with
  | nil => rfl
  | cons t ts ih =>
    rw [List.forall_mem_cons] at h
    by_cases hts : ts = []
    · subst hts
      simpa using h.1
    · rw [join_cons hts]
      have hcomma : Text.isWellFormed [0x2c] = true := rfl
      exact Text.isWellFormed_append h.1 (Text.isWellFormed_append hcomma (ih h.2))

private theorem writeMember_wellFormed {m : Text × Value} (h : (write m.2).isWellFormed = true) :
    (writeMember m).isWellFormed = true := by
  have hcolon : Text.isWellFormed [0x3a] = true := rfl
  exact Text.isWellFormed_append (quote_wellFormed m.1) (Text.isWellFormed_append hcolon h)

theorem write_wellFormed {v : Value} (h : v.isJson = true) : (write v).isWellFormed = true := by
  induction v using Value.inductionOn with
  | undefined => rfl
  | null => rfl
  | bool b => cases b <;> rfl
  | number n =>
    cases n with
    | finite x =>
      refine Text.isWellFormed_of_forall fun u hu => ?_
      have hlt := toText_ascii x u hu
      rw [UInt16.lt_iff_toNat_lt] at hlt
      simp only [isHighSurrogate, isLowSurrogate, Bool.and_eq_false_iff, decide_eq_false_iff_not,
        UInt16.le_iff_toNat_le]
      simp only [UInt16.reduceToNat] at hlt ⊢
      omega
    | _ => rfl
  | string s => exact quote_wellFormed s
  | array items ih =>
    rw [Value.isJson_array] at h
    rw [write_array]
    refine between_wellFormed (joined_wellFormed ?_) 0x5b 0x5d rfl rfl
    rw [List.forall_mem_map]
    exact fun item hi => ih item hi (h item hi)
  | object members ih =>
    rw [Value.isJson_object] at h
    rw [write_object h]
    refine between_wellFormed (joined_wellFormed ?_) 0x7b 0x7d rfl rfl
    rw [List.forall_mem_map]
    exact fun m hm => writeMember_wellFormed (ih m hm (h m hm))

private theorem byteLength_joined {texts : List Text} (h : ∀ t ∈ texts, t.isWellFormed = true) :
    Utf8.byteLength ([0x2c].intercalate texts) =
      (texts.map Utf8.byteLength).sum + (texts.length - 1) := by
  induction texts with
  | nil => rfl
  | cons t ts ih =>
    rw [List.forall_mem_cons] at h
    by_cases hts : ts = []
    · subst hts
      simp
    · have hcomma : Utf8.byteLength (0x2c :: [0x2c].intercalate ts) =
          1 + Utf8.byteLength ([0x2c].intercalate ts) :=
        Utf8.byteLength_append (a := [0x2c]) _ rfl
      have hlen : 0 < ts.length := List.length_pos_iff.mpr hts
      rw [join_cons hts, Utf8.byteLength_append _ h.1, hcomma, ih h.2, List.map_cons,
        List.sum_cons, List.length_cons]
      omega

private theorem byteLength_between {text : Text} (h : text.isWellFormed = true) (u v : UInt16)
    (hu : Utf8.byteLength [u] = 1 ∧ Text.isWellFormed [u] = true)
    (hv : Utf8.byteLength [v] = 1) :
    Utf8.byteLength (u :: (text ++ [v])) = Utf8.byteLength text + 2 := by
  have hsplit : u :: (text ++ [v]) = [u] ++ (text ++ [v]) := rfl
  rw [hsplit, Utf8.byteLength_append _ hu.2, Utf8.byteLength_append _ h, hu.1, hv]
  omega

theorem byteLength_write_array {items : List Value} (h : ∀ item ∈ items, item.isJson = true) :
    Utf8.byteLength (write (.array items)) =
      (items.map fun item => Utf8.byteLength (write item)).sum + (items.length - 1) + 2 := by
  have htexts : ∀ t ∈ items.map write, t.isWellFormed = true := by
    rw [List.forall_mem_map]
    exact fun item hi => write_wellFormed (h item hi)
  rw [write_array, byteLength_between (joined_wellFormed htexts) 0x5b 0x5d ⟨rfl, rfl⟩ rfl,
    byteLength_joined htexts, List.map_map, List.length_map]
  rfl

theorem byteLength_writeMember {m : Text × Value} :
    Utf8.byteLength (writeMember m) =
      Utf8.byteLength (quote m.1) + 1 + Utf8.byteLength (write m.2) := by
  have hcolon : Utf8.byteLength (0x3a :: write m.2) = 1 + Utf8.byteLength (write m.2) :=
    Utf8.byteLength_append (a := [0x3a]) _ rfl
  rw [writeMember, Utf8.byteLength_append _ (quote_wellFormed m.1), hcolon]
  omega

theorem byteLength_write_object {members : List (Text × Value)}
    (h : ∀ m ∈ members, m.2.isJson = true) :
    Utf8.byteLength (write (.object members)) =
      (members.map fun m => Utf8.byteLength (writeMember m)).sum + (members.length - 1) + 2 := by
  have htexts : ∀ t ∈ members.map writeMember, t.isWellFormed = true := by
    rw [List.forall_mem_map]
    exact fun m hm => writeMember_wellFormed (write_wellFormed (h m hm))
  rw [write_object h, byteLength_between (joined_wellFormed htexts) 0x7b 0x7d ⟨rfl, rfl⟩ rfl,
    byteLength_joined htexts, List.map_map, List.length_map]
  rfl

theorem byteLength_writeMember_le {members : List (Text × Value)}
    (h : ∀ m ∈ members, m.2.isJson = true) {m : Text × Value} (hm : m ∈ members) :
    Utf8.byteLength (writeMember m) ≤ Utf8.byteLength (write (.object members)) := by
  have hle : Utf8.byteLength (writeMember m) ≤
      (members.map fun m => Utf8.byteLength (writeMember m)).sum :=
    List.le_sum_of_mem (List.mem_map_of_mem hm)
  rw [byteLength_write_object h]
  omega

theorem byteLength_quote_le (s : Text) : Utf8.byteLength (quote s) ≤ 6 * s.length + 2 := by
  have hscalar (c : Nat) : (Utf8.encodeScalar c).length ≤ 4 := by
    unfold Utf8.encodeScalar
    split
    · simp
    split
    · simp
    split <;> simp
  have hunit (u : UInt16) : Utf8.byteLength (escapeUnit u) ≤ 6 := by
    have hu := u.toNat_lt
    unfold escapeUnit
    split
    · decide
    split
    · decide
    split
    · decide
    split
    · decide
    split
    · decide
    split
    · decide
    split
    · decide
    split
    · rw [Utf8.byteLength_ascii]
      · rfl
      · simp only [unicodeEscape, List.forall_mem_cons]
        refine ⟨by decide, by decide, hexDigit_ascii _ (by omega), hexDigit_ascii _ (by omega),
          hexDigit_ascii _ (by omega), hexDigit_ascii _ (by omega), ?_⟩
        simp
    · have h := hscalar (Utf8.unitScalar u)
      simp only [Utf8.byteLength, Utf8.encode, Utf8.scalars, List.flatMap_cons, List.flatMap_nil,
        List.append_nil]
      omega
  have hunits : Utf8.byteLength (quoteUnits s) ≤ 6 * s.length := by
    induction s using quoteUnits.induct with
    | case1 => exact Nat.le_refl 0
    | case2 a => exact hunit a
    | case3 a b s h ih =>
      have hpair : Text.isWellFormed [a, b] = true := by
        obtain ⟨ha, hb⟩ := Bool.and_eq_true_iff.mp h
        simp [Text.isWellFormed, ha, hb]
      have hfour : Utf8.byteLength [a, b] ≤ 4 := by
        simpa [Utf8.byteLength, Utf8.encode, Utf8.scalars, h] using hscalar _
      have hsplit : quoteUnits (a :: b :: s) = [a, b] ++ quoteUnits s := by
        rw [quoteUnits, if_pos h]
        rfl
      rw [hsplit, Utf8.byteLength_append _ hpair]
      simp only [List.length_cons]
      omega
    | case4 a b s h ih =>
      rw [quoteUnits, if_neg h, Utf8.byteLength_append _ (escapeUnit_wellFormed a)]
      have := hunit a
      simp only [List.length_cons] at ih ⊢
      omega
  rw [quote, byteLength_between (quoteUnits_wellFormed s) 0x22 0x22 ⟨rfl, rfl⟩ rfl]
  omega

theorem byteLength_write_rebuild {v : Value} (ρ : Reordering) (h : v.isJson = true) :
    Utf8.byteLength (write (v.rebuild Number.unsignedZero ρ)) = Utf8.byteLength (write v) := by
  induction v using Value.inductionOn with
  | number n =>
    cases n with
    | finite x => exact congrArg Utf8.byteLength x.toText_unsignedZero
    | _ => rfl
  | array items ih =>
    rw [Value.isJson_array] at h
    rw [Value.rebuild_array, byteLength_write_array h, byteLength_write_array, List.map_map,
      List.length_map]
    · congr 3
      exact List.map_congr_left fun item hi => ih item hi (h item hi)
    · rw [List.forall_mem_map]
      exact fun item hi => Value.isJson_rebuild ρ (h item hi)
  | object members ih =>
    rw [Value.isJson_object] at h
    have hrebuilt : ∀ m ∈ ρ.order
        (members.map (Prod.map id (Value.rebuild Number.unsignedZero ρ))), m.2.isJson = true := by
      rw [← Value.isJson_object, ← Value.rebuild_object]
      exact Value.isJson_rebuild ρ ((Value.isJson_object members).mpr h)
    rw [Value.rebuild_object, byteLength_write_object h, byteLength_write_object,
      (ρ.perm _).length_eq, List.length_map, ((ρ.perm _).map _).sum_eq, List.map_map]
    · congr 3
      refine List.map_congr_left fun m hm => ?_
      simp only [Function.comp_apply, byteLength_writeMember, Prod.map_fst, Prod.map_snd, id,
        ih m hm (h m hm)]
    · exact hrebuilt
  | _ => rfl

end Json

end Ecma
