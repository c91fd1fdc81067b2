import GhostBridge.Ecma.MemberOrder

/-!
# JSON text

`JSON.stringify` and `JSON.parse`.
-/

namespace Ecma

namespace Json

def hexDigit (n : Nat) : UInt16 := UInt16.ofNat (if n < 10 then 48 + n else 87 + n)

def unicodeEscape (u : UInt16) : Text :=
  [0x5c, 0x75, hexDigit (u.toNat / 4096), hexDigit (u.toNat / 256 % 16),
    hexDigit (u.toNat / 16 % 16), hexDigit (u.toNat % 16)]

def escapeUnit (u : UInt16) : Text :=
  if u = 0x22 then [0x5c, 0x22]
  else if u = 0x5c then [0x5c, 0x5c]
  else if u = 0x08 then [0x5c, 0x62]
  else if u = 0x0c then [0x5c, 0x66]
  else if u = 0x0a then [0x5c, 0x6e]
  else if u = 0x0d then [0x5c, 0x72]
  else if u = 0x09 then [0x5c, 0x74]
  else if u < 0x20 || isHighSurrogate u || isLowSurrogate u then unicodeEscape u
  else [u]

def quoteUnits : Text → Text
  | [] => []
  | [a] => escapeUnit a
  | a :: b :: rest =>
    if isHighSurrogate a && isLowSurrogate b then a :: b :: quoteUnits rest
    else escapeUnit a ++ quoteUnits (b :: rest)

def quote (s : Text) : Text := 0x22 :: (quoteUnits s ++ [0x22])

mutual
def write : Value → Text
  | .undefined => ascii "null"
  | .null => ascii "null"
  | .bool b => if b then ascii "true" else ascii "false"
  | .number (.finite x) => x.toText
  | .number _ => ascii "null"
  | .string s => quote s
  | .array items => 0x5b :: ([0x2c].intercalate (itemTexts items) ++ [0x5d])
  | .object members => 0x7b :: ([0x2c].intercalate (memberTexts members) ++ [0x7d])
def itemTexts : List Value → List Text
  | [] => []
  | item :: items => write item :: itemTexts items
def memberTexts : List (Text × Value) → List Text
  | [] => []
  | (k, v) :: members =>
    if v.isUndefined then memberTexts members
    else (quote k ++ 0x3a :: write v) :: memberTexts members
end

/-- `JSON.stringify(v)`; undefined has no text. -/
def stringify (v : Value) : Option Text := if v.isUndefined then none else some (write v)

def isSpace (u : UInt16) : Bool := u == 0x20 || u == 0x09 || u == 0x0a || u == 0x0d

def skipSpace (text : Text) : Text := text.dropWhile isSpace

def hexValue? (u : UInt16) : Option Nat :=
  if isDigit u then some (u.toNat - 48)
  else if 0x61 ≤ u && u ≤ 0x66 then some (u.toNat - 87)
  else if 0x41 ≤ u && u ≤ 0x46 then some (u.toNat - 55)
  else none

def hexUnit? (a b c d : UInt16) : Option UInt16 := do
  let a ← hexValue? a
  let b ← hexValue? b
  let c ← hexValue? c
  let d ← hexValue? d
  pure (UInt16.ofNat (a * 4096 + b * 256 + c * 16 + d))

def simpleEscape? (u : UInt16) : Option UInt16 :=
  if u = 0x22 || u = 0x5c || u = 0x2f then some u
  else if u = 0x62 then some 0x08
  else if u = 0x66 then some 0x0c
  else if u = 0x6e then some 0x0a
  else if u = 0x72 then some 0x0d
  else if u = 0x74 then some 0x09
  else none

def readString : Text → Option (Text × Text)
  | [] => none
  | u :: rest =>
    if u = 0x22 then some ([], rest)
    else if u = 0x5c then
      match rest with
      | 0x75 :: a :: b :: c :: d :: rest => do
        let unit ← hexUnit? a b c d
        let (s, rest) ← readString rest
        pure (unit :: s, rest)
      | e :: rest => do
        let unit ← simpleEscape? e
        let (s, rest) ← readString rest
        pure (unit :: s, rest)
      | [] => none
    else if u < 0x20 then none
    else do
      let (s, rest) ← readString rest
      pure (u :: s, rest)

def stripPrefix? : Text → Text → Option Text
  | [], text => some text
  | _ :: _, [] => none
  | p :: ps, u :: us => if p = u then stripPrefix? ps us else none

/-- `null`, `true`, `false` or a number. -/
def readLiteral (text : Text) : Option (Value × Text) :=
  match stripPrefix? (ascii "null") text with
  | some rest => some (.null, rest)
  | none =>
    match stripPrefix? (ascii "true") text with
    | some rest => some (.bool true, rest)
    | none =>
      match stripPrefix? (ascii "false") text with
      | some rest => some (.bool false, rest)
      | none => (scanNumber text).map fun p => (.number p.1, p.2)

mutual
def readValue : Nat → Text → Option (Value × Text)
  | 0, _ => none
  | fuel + 1, text =>
    match skipSpace text with
    | [] => none
    | u :: rest =>
      if u = 0x22 then (readString rest).map fun p => (.string p.1, p.2)
      else if u = 0x5b then
        if (skipSpace rest).head? = some 0x5d then some (.array [], (skipSpace rest).tail)
        else (readItems fuel rest).map fun p => (.array p.1, p.2)
      else if u = 0x7b then
        if (skipSpace rest).head? = some 0x7d then some (.object [], (skipSpace rest).tail)
        else (readMembers fuel rest).map fun p => (.object (fromEntries p.1), p.2)
      else readLiteral (u :: rest)
def readItems : Nat → Text → Option (List Value × Text)
  | 0, _ => none
  | fuel + 1, text => do
    let (item, rest) ← readValue fuel text
    match skipSpace rest with
    | [] => none
    | u :: rest =>
      if u = 0x2c then (readItems fuel rest).map fun p => (item :: p.1, p.2)
      else if u = 0x5d then some ([item], rest)
      else none
def readMembers : Nat → Text → Option (List (Text × Value) × Text)
  | 0, _ => none
  | fuel + 1, text =>
    if (skipSpace text).head? = some 0x22 then do
      let (name, rest) ← readString (skipSpace text).tail
      if (skipSpace rest).head? = some 0x3a then do
        let (v, rest) ← readValue fuel (skipSpace rest).tail
        match skipSpace rest with
        | [] => none
        | u :: rest =>
          if u = 0x2c then (readMembers fuel rest).map fun p => ((name, v) :: p.1, p.2)
          else if u = 0x7d then some ([(name, v)], rest)
          else none
      else none
    else none
end

/-- `JSON.parse(text)`; none is a SyntaxError. -/
def parse (text : Text) : Option Value := do
  let (v, rest) ← readValue (text.length + 1) text
  if (skipSpace rest).isEmpty then some v else none

private theorem hexValue?_hexDigit {n : Nat} (h : n < 16) : hexValue? (hexDigit n) = some n := by
  interval_cases n <;> rfl

theorem hexUnit?_unicodeEscape (u : UInt16) :
    hexUnit? (hexDigit (u.toNat / 4096)) (hexDigit (u.toNat / 256 % 16))
      (hexDigit (u.toNat / 16 % 16)) (hexDigit (u.toNat % 16)) = some u := by
  have hu := u.toNat_lt
  have hsum : u.toNat / 4096 * 4096 + u.toNat / 256 % 16 * 256 + u.toNat / 16 % 16 * 16 +
      u.toNat % 16 = u.toNat := by omega
  simp only [hexUnit?, hexValue?_hexDigit (show u.toNat / 4096 < 16 by omega),
    hexValue?_hexDigit (Nat.mod_lt _ (by decide : 0 < 16)), Option.bind_eq_bind,
    Option.bind_some, hsum, UInt16.ofNat_toNat]
  rfl

private theorem readString_plain {u : UInt16} (hquote : u ≠ 0x22) (hslash : u ≠ 0x5c)
    (hcontrol : ¬u < 0x20) {s text rest : Text} (h : readString text = some (s, rest)) :
    readString (u :: text) = some (u :: s, rest) := by
  rw [readString.eq_def]
  simp only [hquote, hslash, hcontrol, if_false, h, Option.bind_eq_bind, Option.bind_some]
  rfl

private theorem readString_simple {e unit : UInt16} (he : simpleEscape? e = some unit)
    {s text rest : Text} (h : readString text = some (s, rest)) :
    readString (0x5c :: e :: text) = some (unit :: s, rest) := by
  have hne : e ≠ 0x75 := by
    rintro rfl
    have : simpleEscape? 0x75 = none := rfl
    simp [this] at he
  rw [readString, if_neg (by decide), if_pos rfl, he]
  · simp only [Option.bind_eq_bind, Option.bind_some, h]
    rfl
  · rintro a b c d rest heq
    exact absurd heq hne

theorem readString_escapeUnit (u : UInt16) {s text rest : Text}
    (h : readString text = some (s, rest)) :
    readString (escapeUnit u ++ text) = some (u :: s, rest) := by
  unfold escapeUnit
  split
  · next e => subst e; exact readString_simple (by decide) h
  split
  · next e => subst e; exact readString_simple (by decide) h
  split
  · next e => subst e; exact readString_simple (by decide) h
  split
  · next e => subst e; exact readString_simple (by decide) h
  split
  · next e => subst e; exact readString_simple (by decide) h
  split
  · next e => subst e; exact readString_simple (by decide) h
  split
  · next e => subst e; exact readString_simple (by decide) h
  split
  · simp only [unicodeEscape, List.cons_append, List.nil_append]
    rw [readString.eq_def]
    simp only [hexUnit?_unicodeEscape, if_true, Option.bind_eq_bind, Option.bind_some, h]
    rfl
  · next hquote hslash _ _ _ _ _ hplain =>
    simp only [Bool.or_eq_true, decide_eq_true_eq, not_or] at hplain
    exact readString_plain hquote hslash hplain.1.1 h

private theorem surrogate_plain {u : UInt16} (h : isHighSurrogate u = true ∨ isLowSurrogate u = true) :
    u ≠ 0x22 ∧ u ≠ 0x5c ∧ ¬u < 0x20 := by
  simp only [isHighSurrogate, isLowSurrogate, Bool.and_eq_true, decide_eq_true_eq,
    UInt16.le_iff_toNat_le, UInt16.lt_iff_toNat_lt, ne_eq, ← UInt16.toNat_inj] at h ⊢
  simp at h ⊢
  omega

theorem readString_quoteUnits (s rest : Text) :
    readString (quoteUnits s ++ 0x22 :: rest) = some (s, rest) := by
  have hend : readString (0x22 :: rest) = some ([], rest) := by
    rw [readString.eq_def]
    simp
  induction s using quoteUnits.induct with
  | case1 => exact hend
  | case2 a => exact readString_escapeUnit a hend
  | case3 a b s h ih =>
    obtain ⟨ha, hb⟩ := Bool.and_eq_true_iff.mp h
    obtain ⟨ha₁, ha₂, ha₃⟩ := surrogate_plain (Or.inl ha)
    obtain ⟨hb₁, hb₂, hb₃⟩ := surrogate_plain (Or.inr hb)
    rw [quoteUnits, if_pos h]
    exact readString_plain ha₁ ha₂ ha₃ (readString_plain hb₁ hb₂ hb₃ ih)
  | case4 a b s h ih =>
    rw [quoteUnits, if_neg h, List.append_assoc]
    exact readString_escapeUnit a ih

end Json

namespace Value

mutual
def isJson : Value → Bool
  | .undefined => false
  | .number (.finite _) => true
  | .number _ => false
  | .array items => isJsonItems items
  | .object members => isJsonMembers members
  | _ => true
def isJsonItems : List Value → Bool
  | [] => true
  | item :: items => isJson item && isJsonItems items
def isJsonMembers : List (Text × Value) → Bool
  | [] => true
  | (_, v) :: members => isJson v && isJsonMembers members
end

theorem isJson_array (items : List Value) :
    (Value.array items).isJson = true ↔ ∀ item ∈ items, item.isJson = true := by
  rw [isJson]
  induction items with
  | nil => simp [isJsonItems]
  | cons item items ih => simp [isJsonItems, ih]

theorem isJson_object (members : List (Text × Value)) :
    (Value.object members).isJson = true ↔ ∀ m ∈ members, m.2.isJson = true := by
  rw [isJson]
  induction members with
  | nil => simp [isJsonMembers]
  | cons m members ih => simp [isJsonMembers, ih]

theorem isJson_rebuild_of {v : Value} {f : Number → Number}
    (hf : ∀ x, ∃ y, f (.finite x) = .finite y) (ρ : Reordering) (h : v.isJson = true) :
    (v.rebuild f ρ).isJson = true := by
  induction v using inductionOn with
  | number n =>
    cases n with
    | finite x =>
      obtain ⟨y, hy⟩ := hf x
      rw [rebuild, hy]
      rfl
    | _ => cases h
  | array items ih =>
    rw [isJson_array] at h
    rw [rebuild_array, isJson_array, List.forall_mem_map]
    exact fun item hi => ih item hi (h item hi)
  | object members ih =>
    rw [isJson_object] at h
    rw [rebuild_object, isJson_object]
    intro m hm
    obtain ⟨n, hn, rfl⟩ := List.mem_map.mp ((ρ.perm _).mem_iff.mp hm)
    exact ih n hn (h n hn)
  | _ => simpa [rebuild] using h

theorem isJson_rebuild {v : Value} (ρ : Reordering) (h : v.isJson = true) :
    (v.rebuild Number.unsignedZero ρ).isJson = true :=
  isJson_rebuild_of (fun x => ⟨x.unsignedZero, rfl⟩) ρ h

theorem isUndefined_of_isJson {v : Value} (h : v.isJson = true) : v.isUndefined = false := by
  cases v with
  | undefined => simp [isJson] at h
  | _ => rfl

/-- The value that `JSON.parse` builds from the text of this one. -/
def parsed (v : Value) : Value := v.rebuild Number.unsignedZero .propertyOrder

end Value

namespace Json

theorem write_array (items : List Value) :
    write (.array items) = 0x5b :: ([0x2c].intercalate (items.map write) ++ [0x5d]) := by
  have htexts : itemTexts items = items.map write := by
    induction items with
    | nil => rfl
    | cons item items ih => rw [itemTexts, ih, List.map_cons]
  rw [write, htexts]

def writeMember (m : Text × Value) : Text := quote m.1 ++ 0x3a :: write m.2

theorem write_object {members : List (Text × Value)} (h : ∀ m ∈ members, m.2.isJson = true) :
    write (.object members) =
      0x7b :: ([0x2c].intercalate (members.map writeMember) ++ [0x7d]) := by
  have htexts : memberTexts members = members.map writeMember := by
    induction members with
    | nil => rfl
    | cons m members ih =>
      obtain ⟨k, v⟩ := m
      have hv : v.isUndefined = false := Value.isUndefined_of_isJson (h (k, v) List.mem_cons_self)
      rw [memberTexts, hv, if_neg Bool.false_ne_true,
        ih fun m hm => h m (List.mem_cons_of_mem _ hm), List.map_cons]
      rfl
  rw [write, htexts]

theorem write_rebuild_unsignedZero {v : Value} (ρ : Reordering) (h : v.isJson = true) :
    write (v.rebuild Number.unsignedZero ρ) = write (v.rebuild id ρ) := by
  induction v using Value.inductionOn with
  | number n =>
    cases n with
    | finite x => exact x.toText_unsignedZero
    | _ => cases h
  | array items ih =>
    rw [Value.isJson_array] at h
    rw [Value.rebuild_array, Value.rebuild_array, write_array, write_array, List.map_map,
      List.map_map]
    congr 3
    exact List.map_congr_left fun item hi => ih item hi (h item hi)
  | object members ih =>
    rw [Value.isJson_object] at h
    have hrebuilt {f : Number → Number} (hf : ∀ x, ∃ y, f (.finite x) = .finite y) :
        ∀ m ∈ (ρ.order members).map (Prod.map id (Value.rebuild f ρ)), m.2.isJson = true := by
      intro m hm
      obtain ⟨n, hn, rfl⟩ := List.mem_map.mp hm
      exact Value.isJson_rebuild_of hf ρ (h n ((ρ.perm _).mem_iff.mp hn))
    rw [Value.rebuild_object, Value.rebuild_object, ρ.natural, ρ.natural,
      write_object (hrebuilt fun x => ⟨x.unsignedZero, rfl⟩), write_object (hrebuilt fun x => ⟨x, rfl⟩),
      List.map_map, List.map_map]
    congr 3
    refine List.map_congr_left fun m hm => ?_
    have hm := (ρ.perm _).mem_iff.mp hm
    simp only [Function.comp_apply, writeMember, Prod.map_fst, Prod.map_snd, id, ih m hm (h m hm)]
  | _ => rfl

def startsValue (u : UInt16) : Bool :=
  isDigit u || u == 0x2d || u == 0x22 || u == 0x5b || u == 0x7b || u == 0x6e || u == 0x74 ||
    u == 0x66

theorem toText_head (x : Finite64) :
    ∃ u us, x.toText = u :: us ∧ (isDigit u = true ∨ u = 0x2d) := by
  unfold Finite64.toText
  split
  · exact ⟨48, [], rfl, Or.inl rfl⟩
  · obtain ⟨u, us, hlayout, hu⟩ :=
      layout_head ((decimalDigits (shortest x).1).length + (shortest x).2)
        (decimalDigits_ne_nil _) (decimalDigits_isDigit (shortest x).1)
    rw [hlayout]
    split
    · exact ⟨0x2d, u :: us, rfl, Or.inr rfl⟩
    · exact ⟨u, us, rfl, Or.inl hu⟩

theorem write_head (v : Value) : ∃ u us, write v = u :: us ∧ startsValue u = true := by
  cases v with
  | undefined => exact ⟨0x6e, [0x75, 0x6c, 0x6c], rfl, rfl⟩
  | null => exact ⟨0x6e, [0x75, 0x6c, 0x6c], rfl, rfl⟩
  | bool b => cases b <;> exact ⟨_, _, rfl, rfl⟩
  | number n =>
    cases n with
    | finite x =>
      obtain ⟨u, us, hx, hu⟩ := toText_head x
      exact ⟨u, us, hx, by rcases hu with hu | rfl <;> simp [startsValue, *]⟩
    | nan => exact ⟨0x6e, [0x75, 0x6c, 0x6c], rfl, rfl⟩
    | infinity b => exact ⟨0x6e, [0x75, 0x6c, 0x6c], rfl, rfl⟩
  | string s => exact ⟨_, _, rfl, rfl⟩
  | array items => exact ⟨_, _, rfl, rfl⟩
  | object members => exact ⟨_, _, rfl, rfl⟩

theorem startsValue_spec {u : UInt16} (h : startsValue u = true) :
    isSpace u = false ∧ u ≠ 0x5d := by
  refine ⟨Bool.eq_false_iff.mpr fun hs => ?_, ?_⟩
  · simp only [isSpace, Bool.or_eq_true, beq_iff_eq] at hs
    rcases hs with ((rfl | rfl) | rfl) | rfl <;> exact absurd h (by decide)
  · rintro rfl
    exact absurd h (by decide)

theorem skipSpace_cons {u : UInt16} (h : isSpace u = false) (us : Text) :
    skipSpace (u :: us) = u :: us := by
  rw [skipSpace, List.dropWhile_cons_of_neg (by simp [h])]

theorem stripPrefix?_append (p rest : Text) : stripPrefix? p (p ++ rest) = some rest := by
  induction p with
  | nil => rfl
  | cons u us ih => rw [List.cons_append, stripPrefix?, if_pos rfl, ih]

theorem readLiteral_number {u : UInt16} (hu : isDigit u = true ∨ u = 0x2d) (us : Text) :
    readLiteral (u :: us) = (scanNumber (u :: us)).map fun p => (.number p.1, p.2) := by
  have hnot (p : UInt16) (ps : Text) (hp : isDigit p = false ∧ p ≠ 0x2d) :
      stripPrefix? (p :: ps) (u :: us) = none := by
    rw [stripPrefix?, if_neg]
    rintro rfl
    rcases hu with hu | hu
    · exact absurd hu (by simp [hp.1])
    · exact hp.2 hu
  have hnull : ascii "null" = [0x6e, 0x75, 0x6c, 0x6c] := rfl
  have htrue : ascii "true" = [0x74, 0x72, 0x75, 0x65] := rfl
  have hfalse : ascii "false" = [0x66, 0x61, 0x6c, 0x73, 0x65] := rfl
  rw [readLiteral, hnull, htrue, hfalse, hnot _ _ (by decide), hnot _ _ (by decide),
    hnot _ _ (by decide)]

theorem endsNumber_cons {u : UInt16}
    (hu : isDigit u = false ∧ u ≠ 0x2e ∧ u ≠ 0x65 ∧ u ≠ 0x45) (us : Text) :
    EndsNumber (u :: us) := by
  rintro v ⟨⟩
  exact hu

theorem join_cons {texts : List Text} (h : texts ≠ []) (text : Text) :
    [0x2c].intercalate (text :: texts) = text ++ 0x2c :: [0x2c].intercalate texts := by
  rw [List.intercalate_cons_of_ne_nil h, List.append_assoc, List.singleton_append]

theorem join_head (text : Text) (texts : List Text) :
    ∃ rest, [0x2c].intercalate (text :: texts) = text ++ rest := by
  by_cases h : texts = []
  · exact ⟨[], by simp [h]⟩
  · exact ⟨_, join_cons h text⟩

/-- What reading the text of `v` gives, given fuel for its length. -/
private def ReadsBack (v : Value) : Prop :=
  ∀ (fuel : Nat) (rest : Text), (write v).length < fuel → EndsNumber rest →
    readValue fuel (write v ++ rest) = some (v.parsed, rest)

private theorem readItems_texts {items : List Value} (hne : items ≠ [])
    (h : ∀ item ∈ items, ReadsBack item) (fuel : Nat) (rest : Text)
    (hfuel : ([0x2c].intercalate (items.map write)).length + 1 < fuel) :
    readItems fuel ([0x2c].intercalate (items.map write) ++ 0x5d :: rest) =
      some (items.map Value.parsed, rest) := by
  induction items generalizing fuel with
  | nil => exact absurd rfl hne
  | cons item items ih =>
    obtain ⟨fuel, rfl⟩ := Nat.exists_eq_succ_of_ne_zero (show fuel ≠ 0 by omega)
    have hitem := h item List.mem_cons_self
    by_cases hitems : items = []
    · subst hitems
      simp only [List.map_cons, List.map_nil, List.intercalate_singleton] at hfuel ⊢
      rw [readItems, hitem fuel _ (by omega) (endsNumber_cons (by decide) rest)]
      simp [skipSpace_cons (show isSpace 0x5d = false by decide)]
    · obtain ⟨u, us, hw, _⟩ := write_head item
      have hpos : 0 < (write item).length := by simp [hw]
      rw [List.map_cons, join_cons (by simpa using hitems)] at hfuel ⊢
      simp only [List.length_append, List.length_cons] at hfuel
      have htail := ih hitems (fun i hi => h i (List.mem_cons_of_mem _ hi)) fuel (by omega)
      rw [List.append_assoc, List.cons_append, readItems,
        hitem fuel _ (by omega) (endsNumber_cons (by decide) _)]
      simp only [Option.bind_eq_bind, Option.bind_some,
        skipSpace_cons (show isSpace 0x2c = false by decide), if_true, htail, Option.map_some,
        List.map_cons]

private theorem readMembers_member {m : Text × Value} (hm : ReadsBack m.2) {fuel : Nat}
    (hfuel : (writeMember m).length < fuel) {rest : Text} (hrest : EndsNumber rest) :
    readMembers (fuel + 1) (writeMember m ++ rest) =
      match skipSpace rest with
      | [] => none
      | u :: rest =>
        if u = 0x2c then (readMembers fuel rest).map fun p => ((m.1, m.2.parsed) :: p.1, p.2)
        else if u = 0x7d then some ([(m.1, m.2.parsed)], rest)
        else none := by
  have htext : writeMember m ++ rest =
      0x22 :: (quoteUnits m.1 ++ 0x22 :: (0x3a :: (write m.2 ++ rest))) := by
    simp [writeMember, quote]
  have hlen : (write m.2).length < fuel := by
    simp [writeMember, quote] at hfuel
    omega
  rw [htext, readMembers, skipSpace_cons (by decide), List.head?_cons, if_pos rfl,
    List.tail_cons, readString_quoteUnits]
  simp only [Option.bind_eq_bind, Option.bind_some,
    skipSpace_cons (show isSpace 0x3a = false by decide), List.head?_cons, if_true,
    List.tail_cons, hm fuel rest hlen hrest]

private theorem readMembers_texts {members : List (Text × Value)} (hne : members ≠ [])
    (h : ∀ m ∈ members, ReadsBack m.2) (fuel : Nat) (rest : Text)
    (hfuel : ([0x2c].intercalate (members.map writeMember)).length + 1 < fuel) :
    readMembers fuel ([0x2c].intercalate (members.map writeMember) ++ 0x7d :: rest) =
      some (members.map (Prod.map id Value.parsed), rest) := by
  induction members generalizing fuel with
  | nil => exact absurd rfl hne
  | cons m members ih =>
    obtain ⟨fuel, rfl⟩ := Nat.exists_eq_succ_of_ne_zero (show fuel ≠ 0 by omega)
    have hm := h m List.mem_cons_self
    by_cases hmembers : members = []
    · subst hmembers
      simp only [List.map_cons, List.map_nil, List.intercalate_singleton] at hfuel ⊢
      rw [readMembers_member hm (by omega) (endsNumber_cons (by decide) rest),
        skipSpace_cons (by decide)]
      rfl
    · rw [List.map_cons, join_cons (by simpa using hmembers)] at hfuel ⊢
      simp only [List.length_append, List.length_cons] at hfuel
      have htail := ih hmembers (fun i hi => h i (List.mem_cons_of_mem _ hi)) fuel
        (by simp [writeMember, quote] at hfuel ⊢; omega)
      rw [List.append_assoc, List.cons_append,
        readMembers_member hm (by omega) (endsNumber_cons (by decide) _),
        skipSpace_cons (by decide)]
      simp only [if_true, htail, Option.map_some, List.map_cons]
      rfl

private theorem readValue_cons {u : UInt16} (hu : isSpace u = false) (fuel : Nat) (us : Text) :
    readValue (fuel + 1) (u :: us) =
      if u = 0x22 then (readString us).map fun p => (.string p.1, p.2)
      else if u = 0x5b then
        if (skipSpace us).head? = some 0x5d then some (.array [], (skipSpace us).tail)
        else (readItems fuel us).map fun p => (.array p.1, p.2)
      else if u = 0x7b then
        if (skipSpace us).head? = some 0x7d then some (.object [], (skipSpace us).tail)
        else (readMembers fuel us).map fun p => (.object (fromEntries p.1), p.2)
      else readLiteral (u :: us) := by
  rw [readValue, skipSpace_cons hu]

private theorem readValue_literal {u : UInt16}
    (hu : isSpace u = false ∧ u ≠ 0x22 ∧ u ≠ 0x5b ∧ u ≠ 0x7b) (fuel : Nat) (us : Text) :
    readValue (fuel + 1) (u :: us) = readLiteral (u :: us) := by
  rw [readValue_cons hu.1, if_neg hu.2.1, if_neg hu.2.2.1, if_neg hu.2.2.2]

theorem readValue_write {v : Value} (hjson : v.isJson = true) (hkeys : v.uniqueKeys = true)
    (fuel : Nat) (rest : Text) (hfuel : (write v).length < fuel) (hrest : EndsNumber rest) :
    readValue fuel (write v ++ rest) = some (v.parsed, rest) := by
  obtain ⟨fuel, rfl⟩ := Nat.exists_eq_succ_of_ne_zero (show fuel ≠ 0 by omega)
  induction v using Value.inductionOn generalizing fuel rest with
  | undefined => simp [Value.isJson] at hjson
  | null =>
    have hlit : readLiteral (ascii "null" ++ rest) = some (.null, rest) := by
      rw [readLiteral, stripPrefix?_append]
    exact (readValue_literal (by decide) fuel _).trans hlit
  | bool b =>
    cases b with
    | true =>
      have hnull : stripPrefix? (ascii "null") (ascii "true" ++ rest) = none := rfl
      have hlit : readLiteral (ascii "true" ++ rest) = some (.bool true, rest) := by
        rw [readLiteral, hnull, stripPrefix?_append]
      exact (readValue_literal (by decide) fuel _).trans hlit
    | false =>
      have hnull : stripPrefix? (ascii "null") (ascii "false" ++ rest) = none := rfl
      have htrue : stripPrefix? (ascii "true") (ascii "false" ++ rest) = none := rfl
      have hlit : readLiteral (ascii "false" ++ rest) = some (.bool false, rest) := by
        rw [readLiteral, hnull, htrue, stripPrefix?_append]
      exact (readValue_literal (by decide) fuel _).trans hlit
  | number n =>
    cases n with
    | finite x =>
      obtain ⟨u, us, hx, hu⟩ := toText_head x
      have hscan := scanNumber_toText x hrest
      have hplain : isSpace u = false ∧ u ≠ 0x22 ∧ u ≠ 0x5b ∧ u ≠ 0x7b := by
        refine ⟨(startsValue_spec ?_).1, ?_, ?_, ?_⟩
        · rcases hu with hu | rfl <;> simp [startsValue, *]
        all_goals
          rintro rfl
          exact absurd hu (by decide)
      change readValue (fuel + 1) (x.toText ++ rest) = _
      rw [hx, List.cons_append] at hscan ⊢
      rw [readValue_literal hplain, readLiteral_number hu, hscan]
      rfl
    | _ => simp [Value.isJson] at hjson
  | string s =>
    have htext : write (.string s) ++ rest = 0x22 :: (quoteUnits s ++ 0x22 :: rest) := by
      simp [write, quote]
    rw [htext, readValue_cons (by decide), if_pos rfl, readString_quoteUnits]
    rfl
  | array items ih =>
    rw [Value.isJson_array] at hjson
    rw [Value.uniqueKeys_array] at hkeys
    rw [write_array] at hfuel ⊢
    rw [List.cons_append, List.append_assoc, List.singleton_append, readValue_cons (by decide),
      if_neg (by decide), if_pos rfl, Value.parsed, Value.rebuild_array]
    by_cases hitems : items = []
    · subst hitems
      rfl
    · have hhead : (skipSpace ([0x2c].intercalate (items.map write) ++ 0x5d :: rest)).head? ≠
          some 0x5d := by
        obtain ⟨item, tail, rfl⟩ := List.exists_cons_of_ne_nil hitems
        obtain ⟨u, us, hw, hu⟩ := write_head item
        obtain ⟨texts, ht⟩ := join_head (write item) (tail.map write)
        obtain ⟨hspace, hbracket⟩ := startsValue_spec hu
        rw [List.map_cons, ht, hw, List.cons_append, List.cons_append, skipSpace_cons hspace]
        simpa using hbracket
      simp only [List.length_cons, List.length_append, List.length_nil] at hfuel
      have hread := readItems_texts hitems
        (fun item hi fuel' rest' hf hr => by
          obtain ⟨fuel', rfl⟩ := Nat.exists_eq_succ_of_ne_zero (show fuel' ≠ 0 by omega)
          exact ih item hi (hjson item hi) (hkeys item hi) rest' hr fuel' hf)
        fuel rest (by omega)
      rw [if_neg hhead, hread]
      rfl
  | object members ih =>
    rw [Value.isJson_object] at hjson
    rw [Value.uniqueKeys_object] at hkeys
    rw [write_object hjson] at hfuel ⊢
    rw [List.cons_append, List.append_assoc, List.singleton_append, readValue_cons (by decide),
      if_neg (by decide), if_neg (by decide), if_pos rfl, Value.parsed, Value.rebuild_object]
    by_cases hmembers : members = []
    · subst hmembers
      rfl
    · have hhead : (skipSpace ([0x2c].intercalate (members.map writeMember) ++
          0x7d :: rest)).head? ≠ some 0x7d := by
        obtain ⟨m, tail, rfl⟩ := List.exists_cons_of_ne_nil hmembers
        obtain ⟨texts, ht⟩ := join_head (writeMember m) (tail.map writeMember)
        rw [List.map_cons, ht, writeMember, quote, List.cons_append, List.cons_append,
          List.cons_append, skipSpace_cons (by decide)]
        simp
      simp only [List.length_cons, List.length_append, List.length_nil] at hfuel
      have hread := readMembers_texts hmembers
        (fun m hm fuel' rest' hf hr => by
          obtain ⟨fuel', rfl⟩ := Nat.exists_eq_succ_of_ne_zero (show fuel' ≠ 0 by omega)
          exact ih m hm (hjson m hm) (hkeys.2 m hm) rest' hr fuel' hf)
        fuel rest (by omega)
      have hnodup : ((members.map (Prod.map id Value.parsed)).map Prod.fst).Nodup := by
        rw [List.map_map]
        exact hkeys.1
      rw [if_neg hhead, hread, Option.map_some, fromEntries_of_nodup hnodup]
      rfl

theorem parse_write {v : Value} (hjson : v.isJson = true) (hkeys : v.uniqueKeys = true) :
    parse (write v) = some v.parsed := by
  have hread := readValue_write hjson hkeys ((write v).length + 1) [] (Nat.lt_succ_self _)
    (fun _ h => nomatch h)
  rw [List.append_nil] at hread
  rw [parse, hread]
  rfl

end Json

end Ecma
