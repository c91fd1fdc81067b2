import GhostBridge.Ecma.JsonBytes
import GhostBridge.Trust.Host

/-!
# Strict parsing

`JSON.parse` keeps the last of two members of one name, so the text is first scanned for duplicates.
-/

namespace GhostBridge.Trust

open Ecma

/-- `/\s/`. -/
def isWhitespace (u : UInt16) : Bool :=
  (0x09 ≤ u && u ≤ 0x0d) || u == 0x20 || u == 0xa0 || u == 0x1680 || (0x2000 ≤ u && u ≤ 0x200a) ||
    u == 0x2028 || u == 0x2029 || u == 0x202f || u == 0x205f || u == 0x3000 || u == 0xfeff

def whitespace (source : Text) : Text := source.dropWhile isWhitespace

def stringSlice : Text → Option (Text × Text)
  | [] => none
  | u :: rest =>
    if u = 0x5c then
      match rest with
      | [] => none
      | e :: rest => (stringSlice rest).map fun p => (u :: e :: p.1, p.2)
    else if u = 0x22 then some ([], rest)
    else (stringSlice rest).map fun p => (u :: p.1, p.2)

def stringToken (source : Text) : Checked (Text × Text) :=
  match source with
  | 0x22 :: rest => do
    let (slice, rest) ← orThrow .runtimeError (stringSlice rest)
    match Json.parse (0x22 :: (slice ++ [0x22])) with
    | some (.string token) => pure (token, rest)
    | _ => throw .runtimeError
  | _ => throw .runtimeError

def matchDigits (source : Text) : Option Text :=
  if (source.takeWhile isDigit).isEmpty then none else some (source.dropWhile isDigit)

/-- `(?:\.\d+)?`. -/
def matchFraction (source : Text) : Text :=
  match source with
  | 0x2e :: rest => (matchDigits rest).getD source
  | source => source

/-- `(?:[eE][+-]?\d+)?`. -/
def matchExponent (source : Text) : Text :=
  match source with
  | u :: rest =>
    if u = 0x65 ∨ u = 0x45 then
      match rest with
      | 0x2b :: digits => (matchDigits digits).getD source
      | 0x2d :: digits => (matchDigits digits).getD source
      | digits => (matchDigits digits).getD source
    else source
  | [] => source

/-- `(?:0|[1-9]\d*)`. -/
def matchWhole (source : Text) : Option Text :=
  match source with
  | 48 :: rest => some rest
  | source => matchDigits source

def matchNumber (source : Text) : Option Text :=
  let unsigned := match source with
    | 0x2d :: rest => rest
    | source => source
  (matchWhole unsigned).map fun rest => matchExponent (matchFraction rest)

def matchToken (source : Text) : Option Text :=
  (Json.stripPrefix? (ascii "true") source).or
    ((Json.stripPrefix? (ascii "false") source).or
      ((Json.stripPrefix? (ascii "null") source).or (matchNumber source)))

mutual
def scanValue : Nat → Text → Checked Text
  | 0, _ => throw .runtimeError
  | fuel + 1, source =>
    match whitespace source with
    | [] => throw .runtimeError
    | u :: rest =>
      if u = 0x7b then
        if (whitespace rest).head? = some 0x7d then pure (whitespace rest).tail
        else scanMembers fuel rest []
      else if u = 0x5b then
        if (whitespace rest).head? = some 0x5d then pure (whitespace rest).tail
        else scanItems fuel rest
      else if u = 0x22 then do
        let (_, rest) ← stringToken (u :: rest)
        pure rest
      else orThrow .runtimeError (matchToken (u :: rest))
/-- The rest of an object in which `keys` were seen. -/
def scanMembers : Nat → Text → List Text → Checked Text
  | 0, _, _ => throw .runtimeError
  | fuel + 1, source, keys => do
    let (key, rest) ← stringToken (whitespace source)
    throwWhen (keys.contains key)
      (trustError .proofInvalid "Duplicate JSON object keys are prohibited.")
    throwWhen (prohibitedObjectKeys.contains key)
      (trustError .proofInvalid "The trust document contains a prohibited object key.")
    throwWhen ((whitespace rest).head? != some 0x3a) .runtimeError
    let rest ← scanValue fuel (whitespace rest).tail
    match whitespace rest with
    | [] => throw .runtimeError
    | u :: rest =>
      if u = 0x7d then pure rest
      else if u = 0x2c then scanMembers fuel rest (key :: keys)
      else throw .runtimeError
def scanItems : Nat → Text → Checked Text
  | 0, _ => throw .runtimeError
  | fuel + 1, source => do
    let rest ← scanValue fuel source
    match whitespace rest with
    | [] => throw .runtimeError
    | u :: rest =>
      if u = 0x5d then pure rest
      else if u = 0x2c then scanItems fuel rest
      else throw .runtimeError
end

def detectDuplicateJsonKeys (source : Text) : Checked Unit :=
  orElseThrow (trustError .proofInvalid "The trust document is not valid JSON.") do
    let rest ← scanValue (source.length + 1) source
    throwWhen (!(whitespace rest).isEmpty) .runtimeError

def parseJsonStrict (source : Text) (options : Limits) : Checked Value := do
  throwWhen (options.bytes < Utf8.byteLength source)
    (trustError .responseTooLarge "The JSON document exceeds its configured size limit.")
  detectDuplicateJsonKeys source
  let result ← orThrow (trustError .proofInvalid "The trust document is not valid JSON.")
    (Json.parse source)
  validatePlainTrustData result { options with maximumBytes := some options.bytes } true

/-- `parseJsonStrict` of a buffer, which is decoded first. -/
def parseJsonStrictBuffer (bytes : Bytes) (options : Limits) : Checked Value := do
  let source ← orThrow .runtimeError (Utf8.decodeFatal bytes)
  parseJsonStrict source options

theorem whitespace_cons {u : UInt16} (h : isWhitespace u = false) (us : Text) :
    whitespace (u :: us) = u :: us := by
  rw [whitespace, List.dropWhile_cons_of_neg (by simp [h])]

theorem stringSlice_plain {u : UInt16} (hquote : u ≠ 0x22) (hslash : u ≠ 0x5c)
    {text slice rest : Text} (h : stringSlice text = some (slice, rest)) :
    stringSlice (u :: text) = some (u :: slice, rest) := by
  rw [stringSlice.eq_def]
  simp [hquote, hslash, h]

theorem stringSlice_escape (e : UInt16) {text slice rest : Text}
    (h : stringSlice text = some (slice, rest)) :
    stringSlice (0x5c :: e :: text) = some (0x5c :: e :: slice, rest) := by
  rw [stringSlice.eq_def]
  simp [h]

private theorem hexDigit_plain (n : Nat) (h : n < 16) :
    Json.hexDigit n ≠ 0x22 ∧ Json.hexDigit n ≠ 0x5c := by
  interval_cases n <;> decide

private theorem stringSlice_escapeUnit (u : UInt16) {text slice rest : Text}
    (h : stringSlice text = some (slice, rest)) :
    stringSlice (Json.escapeUnit u ++ text) = some (Json.escapeUnit u ++ slice, rest) := by
  have hu := u.toNat_lt
  unfold Json.escapeUnit
  split
  · exact stringSlice_escape _ h
  split
  · exact stringSlice_escape _ h
  split
  · exact stringSlice_escape _ h
  split
  · exact stringSlice_escape _ h
  split
  · exact stringSlice_escape _ h
  split
  · exact stringSlice_escape _ h
  split
  · exact stringSlice_escape _ h
  split
  · have hhex (n : Nat) (hn : n < 16) {text slice : Text}
        (h : stringSlice text = some (slice, rest)) :
        stringSlice (Json.hexDigit n :: text) = some (Json.hexDigit n :: slice, rest) :=
      stringSlice_plain (hexDigit_plain n hn).1 (hexDigit_plain n hn).2 h
    exact stringSlice_escape _ (hhex _ (by omega) (hhex _ (by omega) (hhex _ (by omega)
      (hhex _ (by omega) h))))
  · next hquote hslash _ _ _ _ _ _ => exact stringSlice_plain hquote hslash h

theorem stringSlice_quoteUnits (s rest : Text) :
    stringSlice (Json.quoteUnits s ++ 0x22 :: rest) = some (Json.quoteUnits s, rest) := by
  have hend : stringSlice (0x22 :: rest) = some ([], rest) := by
    rw [stringSlice.eq_def]
    simp
  induction s using Json.quoteUnits.induct with
  | case1 => exact hend
  | case2 a =>
    have h := stringSlice_escapeUnit a hend
    rwa [List.append_nil] at h
  | case3 a b s h ih =>
    obtain ⟨ha, hb⟩ := Bool.and_eq_true_iff.mp h
    have hplain {u : UInt16} (hu : isHighSurrogate u = true ∨ isLowSurrogate u = true) :
        u ≠ 0x22 ∧ u ≠ 0x5c := by
      constructor <;> rintro rfl <;> exact absurd hu (by decide)
    have ha' := hplain (Or.inl ha)
    have hb' := hplain (Or.inr hb)
    rw [Json.quoteUnits, if_pos h]
    exact stringSlice_plain ha'.1 ha'.2 (stringSlice_plain hb'.1 hb'.2 ih)
  | case4 a b s h ih =>
    rw [Json.quoteUnits, if_neg h, List.append_assoc]
    exact stringSlice_escapeUnit a ih

theorem stringToken_quote (s rest : Text) :
    stringToken (Json.quote s ++ rest) = .ok (s, rest) := by
  have hparse : Json.parse (0x22 :: (Json.quoteUnits s ++ [0x22])) = some (.string s) :=
    Json.parse_write (v := .string s) rfl rfl
  rw [Json.quote, List.cons_append, List.append_assoc, List.singleton_append, stringToken,
    stringSlice_quoteUnits]
  simp only [orThrow, ok_bind, hparse]
  rfl

private theorem matchDigits_some {source : Text} (h : (source.takeWhile isDigit).isEmpty = false) :
    matchDigits source = some (source.dropWhile isDigit) := by
  rw [matchDigits, h, if_neg Bool.false_ne_true]

private theorem matchWhole_of_scanWhole {source whole rest : Text}
    (h : scanWhole source = some (whole, rest)) : matchWhole source = some rest := by
  unfold scanWhole at h
  split at h
  · simp only [Option.some.injEq, Prod.mk.injEq] at h
    rw [matchWhole, h.2]
  · next hzero =>
    simp only [Option.ite_none_left_eq_some, Option.some.injEq, Prod.mk.injEq,
      Bool.not_eq_true] at h
    rw [matchWhole, matchDigits_some h.1, h.2.2]
    exact hzero

private theorem matchFraction_of_scanFraction {source fraction rest : Text}
    (h : scanFraction source = some (fraction, rest)) : matchFraction source = rest := by
  unfold scanFraction at h
  split at h
  · simp only [Option.ite_none_left_eq_some, Option.some.injEq, Prod.mk.injEq,
      Bool.not_eq_true] at h
    rw [matchFraction, matchDigits_some h.1, h.2.2, Option.getD_some]
  · next hdot =>
    simp only [Option.some.injEq, Prod.mk.injEq] at h
    rw [matchFraction, h.2]
    exact hdot

private theorem matchDigits_of_scanExponentDigits {negative : Bool} {source rest : Text}
    {exponent : Int} (h : scanExponentDigits negative source = some (exponent, rest)) :
    matchDigits source = some rest := by
  unfold scanExponentDigits at h
  simp only [Option.ite_none_left_eq_some, Option.some.injEq, Prod.mk.injEq,
    Bool.not_eq_true] at h
  rw [matchDigits_some h.1, h.2.2]

private theorem matchExponent_of_scanExponent {source rest : Text} {exponent : Int}
    (h : scanExponent source = some (exponent, rest)) : matchExponent source = rest := by
  unfold scanExponent at h
  unfold matchExponent
  split at h
  · split at h
    · next he =>
      simp only [he, if_true]
      split at h
      · simp only [matchDigits_of_scanExponentDigits h, Option.getD_some]
      · simp only [matchDigits_of_scanExponentDigits h, Option.getD_some]
      · have hdigits := matchDigits_of_scanExponentDigits h
        grind
    · next he =>
      simp only [Option.some.injEq, Prod.mk.injEq] at h
      simp only [he, if_false, h.2]
  · simp only [Option.some.injEq, Prod.mk.injEq] at h
    exact h.2

theorem matchNumber_of_scanNumber {source rest : Text} {x : Number}
    (h : scanNumber source = some (x, rest)) : matchNumber source = some rest := by
  have hunsigned {negative : Bool} {source : Text}
      (h : scanUnsigned negative source = some (x, rest)) :
      (matchWhole source).map (fun rest => matchExponent (matchFraction rest)) = some rest := by
    simp only [scanUnsigned, Option.bind_eq_bind, Option.bind_eq_some_iff, Option.pure_def,
      Option.some.injEq, Prod.mk.injEq, Prod.exists] at h
    obtain ⟨whole, r₁, hw, fraction, r₂, hf, exponent, r₃, he, _, rfl⟩ := h
    rw [matchWhole_of_scanWhole hw, Option.map_some, matchFraction_of_scanFraction hf,
      matchExponent_of_scanExponent he]
  unfold scanNumber at h
  split at h
  · exact hunsigned h
  · next hminus =>
    rw [matchNumber]
    · exact hunsigned h
    · exact hminus

private theorem matchToken_number {u : UInt16} (hu : isDigit u = true ∨ u = 0x2d) (us : Text) :
    matchToken (u :: us) = matchNumber (u :: us) := by
  have hnot (p : UInt16) (ps : Text) (hp : isDigit p = false ∧ p ≠ 0x2d) :
      Json.stripPrefix? (p :: ps) (u :: us) = none := by
    rw [Json.stripPrefix?, if_neg]
    rintro rfl
    rcases hu with hu | hu
    · exact absurd hu (by simp [hp.1])
    · exact hp.2 hu
  have htrue : ascii "true" = [0x74, 0x72, 0x75, 0x65] := rfl
  have hfalse : ascii "false" = [0x66, 0x61, 0x6c, 0x73, 0x65] := rfl
  have hnull : ascii "null" = [0x6e, 0x75, 0x6c, 0x6c] := rfl
  rw [matchToken, htrue, hfalse, hnull, hnot _ _ (by decide), hnot _ _ (by decide),
    hnot _ _ (by decide)]
  rfl

theorem startsValue_plain {u : UInt16} (h : Json.startsValue u = true) :
    isWhitespace u = false ∧ u ≠ 0x5d ∧ u ≠ 0x7d := by
  refine ⟨Bool.eq_false_iff.mpr fun hs => ?_, ?_, ?_⟩
  · simp only [Json.startsValue, isDigit, isWhitespace, Bool.or_eq_true, Bool.and_eq_true,
      decide_eq_true_eq, beq_iff_eq, UInt16.le_iff_toNat_le, ← UInt16.toNat_inj] at h hs
    simp only [UInt16.reduceToNat] at h hs
    omega
  · rintro rfl
    exact absurd h (by decide)
  · rintro rfl
    exact absurd h (by decide)

/-- What scanning the text of `v` gives, given fuel for its length. -/
private def ScansPast (v : Value) : Prop :=
  ∀ (fuel : Nat) (rest : Text), (Json.write v).length < fuel → EndsNumber rest →
    scanValue fuel (Json.write v ++ rest) = .ok rest

private theorem scanItems_texts {items : List Value} (hne : items ≠ [])
    (h : ∀ item ∈ items, ScansPast item) (fuel : Nat) (rest : Text)
    (hfuel : ([0x2c].intercalate (items.map Json.write)).length + 1 < fuel) :
    scanItems fuel ([0x2c].intercalate (items.map Json.write) ++ 0x5d :: rest) = .ok rest := by
  induction items generalizing fuel with
  | nil => exact absurd rfl hne
  | cons item items ih =>
    obtain ⟨fuel, rfl⟩ := Nat.exists_eq_succ_of_ne_zero (show fuel ≠ 0 by omega)
    have hitem := h item List.mem_cons_self
    by_cases hitems : items = []
    · subst hitems
      simp only [List.map_cons, List.map_nil, List.intercalate_singleton] at hfuel ⊢
      rw [scanItems, hitem fuel _ (by omega) (Json.endsNumber_cons (by decide) rest), ok_bind,
        whitespace_cons (by decide)]
      rfl
    · obtain ⟨u, us, hw, _⟩ := Json.write_head item
      have hpos : 0 < (Json.write item).length := by simp [hw]
      rw [List.map_cons, Json.join_cons (by simpa using hitems)] at hfuel ⊢
      simp only [List.length_append, List.length_cons] at hfuel
      have htail := ih hitems (fun i hi => h i (List.mem_cons_of_mem _ hi)) fuel (by omega)
      rw [List.append_assoc, List.cons_append, scanItems,
        hitem fuel _ (by omega) (Json.endsNumber_cons (by decide) _), ok_bind,
        whitespace_cons (by decide)]
      exact htail

private theorem scanMembers_texts {members : List (Text × Value)} (hne : members ≠ [])
    (h : ∀ m ∈ members, ScansPast m.2) (hallowed : ∀ m ∈ members, m.1 ∉ prohibitedObjectKeys)
    {keys : List Text} (hnodup : (members.map Prod.fst).Nodup)
    (hkeys : ∀ m ∈ members, m.1 ∉ keys) (fuel : Nat) (rest : Text)
    (hfuel : ([0x2c].intercalate (members.map Json.writeMember)).length + 1 < fuel) :
    scanMembers fuel ([0x2c].intercalate (members.map Json.writeMember) ++ 0x7d :: rest) keys =
      .ok rest := by
  induction members generalizing fuel keys with
  | nil => exact absurd rfl hne
  | cons m members ih =>
    obtain ⟨fuel, rfl⟩ := Nat.exists_eq_succ_of_ne_zero (show fuel ≠ 0 by omega)
    rw [List.forall_mem_cons] at hallowed hkeys
    have hhead {rest : Text} (hlen : (Json.writeMember m).length < fuel)
        (hrest : EndsNumber rest) :
        scanMembers (fuel + 1) (Json.writeMember m ++ rest) keys =
          match whitespace rest with
          | [] => throw .runtimeError
          | u :: rest =>
            if u = 0x7d then pure rest
            else if u = 0x2c then scanMembers fuel rest (m.1 :: keys)
            else throw .runtimeError := by
      have htext : Json.writeMember m ++ rest =
          Json.quote m.1 ++ 0x3a :: (Json.write m.2 ++ rest) := by
        simp [Json.writeMember]
      have hquote : whitespace (Json.quote m.1 ++ 0x3a :: (Json.write m.2 ++ rest)) =
          Json.quote m.1 ++ 0x3a :: (Json.write m.2 ++ rest) := whitespace_cons (by decide) _
      have hlen' : (Json.write m.2).length < fuel := by
        simp [Json.writeMember] at hlen
        omega
      rw [htext, scanMembers, hquote, stringToken_quote, ok_bind]
      simp [throwWhen, hkeys.1, hallowed.1,
        whitespace_cons (show isWhitespace 0x3a = false by decide),
        h m List.mem_cons_self fuel rest hlen' hrest]
    by_cases hmembers : members = []
    · subst hmembers
      simp only [List.map_cons, List.map_nil, List.intercalate_singleton] at hfuel ⊢
      rw [hhead (by omega) (Json.endsNumber_cons (by decide) rest), whitespace_cons (by decide)]
      rfl
    · rw [List.map_cons, Json.join_cons (by simpa using hmembers)] at hfuel ⊢
      simp only [List.length_append, List.length_cons] at hfuel
      have hpos : 0 < (Json.writeMember m).length := by simp [Json.writeMember, Json.quote]
      rw [List.map_cons, List.nodup_cons] at hnodup
      have hfresh : ∀ n ∈ members, n.1 ∉ m.1 :: keys := fun n hn => by
        rw [List.mem_cons, not_or]
        exact ⟨fun he => hnodup.1 (he ▸ List.mem_map_of_mem hn), hkeys.2 n hn⟩
      have htail := ih hmembers (fun n hn => h n (List.mem_cons_of_mem _ hn)) hallowed.2 hnodup.2
        hfresh fuel (by omega)
      rw [List.append_assoc, List.cons_append,
        hhead (by omega) (Json.endsNumber_cons (by decide) _), whitespace_cons (by decide)]
      exact htail

theorem scanValue_write {v : Value} {limits : Limits} {depth : Nat}
    (hvisit : visit limits v depth = .ok ()) (hkeys : v.uniqueKeys = true) (fuel : Nat)
    (rest : Text) (hfuel : (Json.write v).length < fuel) (hrest : EndsNumber rest) :
    scanValue fuel (Json.write v ++ rest) = .ok rest := by
  have hstart {u : UInt16} (hu : isWhitespace u = false) (fuel : Nat) (us : Text) :
      scanValue (fuel + 1) (u :: us) =
        if u = 0x7b then
          if (whitespace us).head? = some 0x7d then pure (whitespace us).tail
          else scanMembers fuel us []
        else if u = 0x5b then
          if (whitespace us).head? = some 0x5d then pure (whitespace us).tail
          else scanItems fuel us
        else if u = 0x22 then do
          let (_, rest) ← stringToken (u :: us)
          pure rest
        else orThrow .runtimeError (matchToken (u :: us)) := by
    rw [scanValue, whitespace_cons hu]
  have htoken {u : UInt16}
      (hu : isWhitespace u = false ∧ u ≠ 0x7b ∧ u ≠ 0x5b ∧ u ≠ 0x22) (fuel : Nat) {us rest : Text}
      (hmatch : matchToken (u :: us) = some rest) : scanValue (fuel + 1) (u :: us) = .ok rest := by
    rw [hstart hu.1, if_neg hu.2.1, if_neg hu.2.2.1, if_neg hu.2.2.2, hmatch]
    rfl
  have hheads (text : Text) (texts : List Text) (tail : Text) {u : UInt16} {us : Text}
      (ht : text = u :: us) (hu : isWhitespace u = false) :
      (whitespace ([0x2c].intercalate (text :: texts) ++ tail)).head? = some u := by
    obtain ⟨joined, hj⟩ := Json.join_head text texts
    rw [hj, ht, List.cons_append, List.cons_append, whitespace_cons hu, List.head?_cons]
  obtain ⟨fuel, rfl⟩ := Nat.exists_eq_succ_of_ne_zero (show fuel ≠ 0 by omega)
  induction v using Value.inductionOn generalizing fuel rest depth with
  | undefined => exact absurd hvisit visit_undefined
  | null =>
    refine htoken (u := 0x6e) (by decide) fuel ?_
    have htrue : Json.stripPrefix? (ascii "true") (ascii "null" ++ rest) = none := rfl
    have hfalse : Json.stripPrefix? (ascii "false") (ascii "null" ++ rest) = none := rfl
    change matchToken (ascii "null" ++ rest) = _
    rw [matchToken, htrue, hfalse, Json.stripPrefix?_append]
    rfl
  | bool b =>
    cases b with
    | true =>
      refine htoken (u := 0x74) (by decide) fuel ?_
      change matchToken (ascii "true" ++ rest) = _
      rw [matchToken, Json.stripPrefix?_append]
      rfl
    | false =>
      refine htoken (u := 0x66) (by decide) fuel ?_
      have htrue : Json.stripPrefix? (ascii "true") (ascii "false" ++ rest) = none := rfl
      change matchToken (ascii "false" ++ rest) = _
      rw [matchToken, htrue, Json.stripPrefix?_append]
      rfl
  | number n =>
    cases n with
    | finite x =>
      obtain ⟨u, us, hx, hu⟩ := Json.toText_head x
      have hscan := matchNumber_of_scanNumber (scanNumber_toText x hrest)
      have hplain : isWhitespace u = false ∧ u ≠ 0x7b ∧ u ≠ 0x5b ∧ u ≠ 0x22 := by
        refine ⟨(startsValue_plain ?_).1, ?_, ?_, ?_⟩
        · rcases hu with hu | rfl <;> simp [Json.startsValue, *]
        all_goals
          rintro rfl
          exact absurd hu (by decide)
      change scanValue (fuel + 1) (x.toText ++ rest) = _
      rw [hx, List.cons_append] at hscan ⊢
      exact htoken hplain fuel ((matchToken_number hu _).trans hscan)
    | _ => simp [visit_number, isFinite] at hvisit
  | string s =>
    have htext : Json.write (.string s) ++ rest =
        0x22 :: (Json.quoteUnits s ++ [0x22] ++ rest) := rfl
    rw [htext, hstart (by decide), if_neg (by decide), if_neg (by decide), if_pos rfl]
    change (do
      let (_, rest) ← stringToken (Json.quote s ++ rest)
      pure rest) = _
    rw [stringToken_quote]
    rfl
  | array items ih =>
    rw [visit_array] at hvisit
    rw [Value.uniqueKeys_array] at hkeys
    rw [Json.write_array] at hfuel ⊢
    rw [List.cons_append, List.append_assoc, List.singleton_append, hstart (by decide),
      if_neg (by decide), if_pos rfl]
    by_cases hitems : items = []
    · subst hitems
      rfl
    · simp only [List.length_cons, List.length_append, List.length_nil] at hfuel
      have hscan := scanItems_texts hitems
        (fun item hi fuel' rest' hf hr => by
          obtain ⟨fuel', rfl⟩ := Nat.exists_eq_succ_of_ne_zero (show fuel' ≠ 0 by omega)
          exact ih item hi (hvisit.2.2 item hi) (hkeys item hi) rest' hr fuel' hf)
        fuel rest (by omega)
      obtain ⟨item, tail, rfl⟩ := List.exists_cons_of_ne_nil hitems
      obtain ⟨u, us, hw, hu⟩ := Json.write_head item
      obtain ⟨hspace, hclose, _⟩ := startsValue_plain hu
      rw [if_neg, hscan]
      rw [List.map_cons, hheads _ _ _ hw hspace]
      simpa using hclose
  | object members ih =>
    have hjson := (Value.isJson_object members).mp (isJson_of_visit hvisit)
    rw [visit_object] at hvisit
    rw [Value.uniqueKeys_object] at hkeys
    rw [Json.write_object hjson] at hfuel ⊢
    rw [List.cons_append, List.append_assoc, List.singleton_append, hstart (by decide),
      if_pos rfl]
    by_cases hmembers : members = []
    · subst hmembers
      rfl
    · simp only [List.length_cons, List.length_append, List.length_nil] at hfuel
      have hscan := scanMembers_texts hmembers
        (fun m hm fuel' rest' hf hr => by
          obtain ⟨fuel', rfl⟩ := Nat.exists_eq_succ_of_ne_zero (show fuel' ≠ 0 by omega)
          exact ih m hm (hvisit.2 m hm).2 (hkeys.2 m hm) rest' hr fuel' hf)
        (fun m hm => (hvisit.2 m hm).1) hkeys.1 (fun _ _ => List.not_mem_nil) fuel rest (by omega)
      obtain ⟨m, tail, rfl⟩ := List.exists_cons_of_ne_nil hmembers
      rw [if_neg, hscan]
      rw [List.map_cons, hheads (Json.writeMember m) _ _ rfl (by decide)]
      simp

theorem detectDuplicateJsonKeys_write {v : Value} {limits : Limits} {depth : Nat}
    (hvisit : visit limits v depth = .ok ()) (hkeys : v.uniqueKeys = true) :
    detectDuplicateJsonKeys (Json.write v) = .ok () := by
  have hscan := scanValue_write hvisit hkeys ((Json.write v).length + 1) []
    (Nat.lt_succ_self _) (fun _ h => nomatch h)
  rw [List.append_nil] at hscan
  rw [detectDuplicateJsonKeys, hscan]
  rfl

theorem visit_limits {limits limits' : Limits} (hdepth : limits.objectDepth = limits'.objectDepth)
    (harray : limits.arrayLength = limits'.arrayLength)
    (hstring : limits.stringLength = limits'.stringLength) {v : Value} {depth : Nat}
    (h : visit limits v depth = .ok ()) : visit limits' v depth = .ok () := by
  induction v using Value.inductionOn generalizing depth with
  | undefined => exact absurd h visit_undefined
  | null => simpa [visit, hdepth] using h
  | bool b => simpa [visit, hdepth] using h
  | number n =>
    rw [visit_number, hdepth] at h
    exact (visit_number n).mpr h
  | string s =>
    rw [visit_string, hdepth, hstring] at h
    exact (visit_string s).mpr h
  | array items ih =>
    rw [visit_array, hdepth, harray] at h
    exact (visit_array items).mpr ⟨h.1, h.2.1, fun item hi => ih item hi (h.2.2 item hi)⟩
  | object members ih =>
    rw [visit_object, hdepth] at h
    exact (visit_object members).mpr ⟨h.1, fun m hm => ⟨(h.2 m hm).1, ih m hm (h.2 m hm).2⟩⟩

theorem validatePlainTrustData_measured {v : Value} {limits : Limits}
    (hvisit : visit limits v 0 = .ok ())
    (hbytes : Utf8.byteLength (Json.write v) ≤ limits.bytes) :
    validatePlainTrustData v limits true = .ok v := by
  have htext : Json.stringify v = some (Json.write v) := by
    rw [Json.stringify, Value.isUndefined_of_isJson (isJson_of_visit hvisit),
      if_neg Bool.false_ne_true]
  simp [validatePlainTrustData, stepWhen, measureBytes, hvisit, htext, orThrow, throwWhen, hbytes]

theorem parseJsonStrict_canonical {v : Value} (hkeys : v.uniqueKeys = true)
    {limits options : Limits} {text : Text} (htext : canonicalize v limits = .ok text)
    (hvisit : visit options v 0 = .ok ()) (hbytes : Utf8.byteLength text ≤ options.bytes) :
    parseJsonStrict text options = .ok v.sorted.parsed := by
  obtain ⟨_, rfl, _⟩ := canonicalize_ok.mp htext
  have hsorted : v.sorted.uniqueKeys = true := Value.rebuild_uniqueKeys _ _ hkeys
  have hvisit : visit options v.sorted 0 = .ok () := visit_rebuild .byName hvisit
  have hjson : v.sorted.isJson = true := isJson_of_visit hvisit
  have hvisit' : visit { options with maximumBytes := some options.bytes } v.sorted.parsed 0 =
      .ok () := by
    have h : visit options v.sorted.parsed 0 = .ok () := visit_rebuild .propertyOrder hvisit
    refine visit_limits ?_ ?_ ?_ h <;> rfl
  have hsize : Utf8.byteLength (Json.write v.sorted.parsed) ≤ options.bytes :=
    (Json.byteLength_write_rebuild .propertyOrder hjson).trans_le hbytes
  have hlimit : options.bytes ≤ limitOr (some options.bytes)
      DefaultTrustLimits.maximumCanonicalBytes := by
    unfold limitOr
    split <;> simp_all
  rw [parseJsonStrict, detectDuplicateJsonKeys_write hvisit hsorted,
    Json.parse_write hjson hsorted]
  simp only [throwWhen, not_lt.mpr hbytes, decide_false, Bool.false_eq_true, if_false, ok_bind,
    orThrow]
  exact validatePlainTrustData_measured hvisit' (hsize.trans hlimit)

end GhostBridge.Trust
