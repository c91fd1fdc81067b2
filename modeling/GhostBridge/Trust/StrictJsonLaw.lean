import GhostBridge.Ecma.JsonTrees
import GhostBridge.Ecma.Rounding
import GhostBridge.Trust.StrictJson

/-!
# What strict parsing accepts

The scan for duplicate names reads the same grammar as `JSON.parse`: where the parser reads a tree,
the scan comes to the same place, if no object of the tree has a name twice or a prohibited one.
-/

namespace GhostBridge.Trust

open Ecma

theorem plain_of_hexUnit {a b c d unit : UInt16} (h : Json.hexUnit? a b c d = some unit) :
    (a ≠ 0x22 ∧ a ≠ 0x5c) ∧ (b ≠ 0x22 ∧ b ≠ 0x5c) ∧ (c ≠ 0x22 ∧ c ≠ 0x5c) ∧
      d ≠ 0x22 ∧ d ≠ 0x5c := by
  have hplain {u : UInt16} {n : ℕ} (hu : Json.hexValue? u = some n) : u ≠ 0x22 ∧ u ≠ 0x5c := by
    constructor
    · rintro rfl
      cases hu
    · rintro rfl
      cases hu
  simp only [Json.hexUnit?, Option.bind_eq_bind, Option.bind_eq_some_iff] at h
  obtain ⟨x, ha, y, hb, z, hc, w, hd, -⟩ := h
  exact ⟨hplain ha, hplain hb, hplain hc, hplain hd⟩

theorem stringSlice_of_readString {text s rest : Text} (h : Json.readString text = some (s, rest)) :
    ∃ slice, stringSlice text = some (slice, rest) ∧
      Json.readString (slice ++ [0x22]) = some (s, []) := by
  induction text using Json.readString.induct generalizing s rest with
  | case1 => cases h
  | case2 rest =>
    have hend (rest : Text) : Json.readString (0x22 :: rest) = some ([], rest) := by
      rw [Json.readString.eq_def]
      rfl
    rw [hend] at h
    cases h
    refine ⟨[], ?_, hend []⟩
    rw [stringSlice.eq_def]
    rfl
  | case3 a b c d text hquote ih =>
    rw [Json.readString, if_neg hquote, if_pos rfl] at h
    simp only [Option.bind_eq_bind, Option.bind_eq_some_iff, Option.pure_def, Option.some.injEq,
      Prod.mk.injEq, Prod.exists] at h
    obtain ⟨unit, hunit, s, rest, hread, rfl, rfl⟩ := h
    obtain ⟨slice, hslice, hagain⟩ := ih hread
    obtain ⟨ha, hb, hc, hd⟩ := plain_of_hexUnit hunit
    refine ⟨0x5c :: 0x75 :: a :: b :: c :: d :: slice, ?_, ?_⟩
    · exact stringSlice_escape _ (stringSlice_plain ha.1 ha.2 (stringSlice_plain hb.1 hb.2
        (stringSlice_plain hc.1 hc.2 (stringSlice_plain hd.1 hd.2 hslice))))
    · show Json.readString (0x5c :: 0x75 :: a :: b :: c :: d :: (slice ++ [0x22])) = _
      rw [Json.readString, if_neg hquote, if_pos rfl, hunit]
      simp only [Option.bind_eq_bind, Option.bind_some, hagain]
      rfl
  | case4 e text hescape hquote ih =>
    rw [Json.readString, if_neg hquote, if_pos rfl] at h
    · simp only [Option.bind_eq_bind, Option.bind_eq_some_iff, Option.pure_def, Option.some.injEq,
        Prod.mk.injEq, Prod.exists] at h
      obtain ⟨unit, hunit, s, rest, hread, rfl, rfl⟩ := h
      obtain ⟨slice, hslice, hagain⟩ := ih hread
      refine ⟨0x5c :: e :: slice, stringSlice_escape e hslice, ?_⟩
      have hne : e ≠ 0x75 := by
        rintro rfl
        cases hunit
      show Json.readString (0x5c :: e :: (slice ++ [0x22])) = _
      rw [Json.readString, if_neg hquote, if_pos rfl, hunit]
      · simp only [Option.bind_eq_bind, Option.bind_some, hagain]
        rfl
      · intro a b c d tail he
        exact absurd he hne
    · exact hescape
  | case5 hquote =>
    rw [Json.readString, if_neg hquote, if_pos rfl] at h
    cases h
  | case6 u text hquote hslash hcontrol =>
    rw [Json.readString.eq_def] at h
    simp only [hquote, hslash, hcontrol, if_true, if_false] at h
    cases h
  | case7 u text hquote hslash hcontrol ih =>
    have hplain (text : Text) : Json.readString (u :: text) =
        (Json.readString text).map fun p => (u :: p.1, p.2) := by
      rw [Json.readString.eq_def]
      simp only [hquote, hslash, hcontrol, if_false]
      cases Json.readString text <;> rfl
    rw [hplain, Option.map_eq_some_iff] at h
    obtain ⟨⟨s', rest'⟩, hread, he⟩ := h
    cases he
    obtain ⟨slice, hslice, hagain⟩ := ih hread
    refine ⟨u :: slice, stringSlice_plain hquote hslash hslice, ?_⟩
    rw [List.cons_append, hplain, hagain]
    rfl

theorem stringToken_of_readString {text s rest : Text}
    (h : Json.readString text = some (s, rest)) :
    stringToken (0x22 :: text) = .ok (s, rest) := by
  obtain ⟨slice, hslice, hread⟩ := stringSlice_of_readString h
  have hparse : Json.parse (0x22 :: (slice ++ [0x22])) = some (.string s) := by
    rw [Json.parse, Json.readValue, Json.skipSpace, List.dropWhile_cons_of_neg (by decide)]
    simp only [if_true, hread]
    rfl
  rw [stringToken, hslice]
  simp only [orThrow, ok_bind, hparse]
  rfl

theorem isWhitespace_of_isSpace {u : UInt16} (h : Json.isSpace u = true) :
    isWhitespace u = true := by
  simp only [Json.isSpace, Bool.or_eq_true, beq_iff_eq] at h
  rcases h with ((rfl | rfl) | rfl) | rfl
  all_goals decide

theorem whitespace_of_skipSpace {text : Text} {u : UInt16} {us : Text}
    (h : Json.skipSpace text = u :: us) (hu : isWhitespace u = false) :
    whitespace text = u :: us := by
  induction text with
  | nil => cases h
  | cons v text ih =>
    unfold Json.skipSpace at h ih
    by_cases hv : Json.isSpace v = true
    · rw [List.dropWhile_cons_of_pos hv] at h
      rw [whitespace, List.dropWhile_cons_of_pos (isWhitespace_of_isSpace hv)]
      exact ih h
    · rw [List.dropWhile_cons_of_neg hv] at h
      cases h
      exact whitespace_cons hu _

theorem stripPrefix?_some {p text rest : Text} (h : Json.stripPrefix? p text = some rest) :
    text = p ++ rest := by
  induction p generalizing text with
  | nil => exact Option.some.inj h
  | cons u p ih =>
    cases text with
    | nil => cases h
    | cons v text =>
      rw [Json.stripPrefix?] at h
      split at h
      next hu => rw [hu, ih h, List.cons_append]
      next => cases h

theorem startsValue_of_scanNumber {u : UInt16} {us rest : Text} {n : Number}
    (h : scanNumber (u :: us) = some (n, rest)) : Json.startsValue u = true := by
  have hwhole {text whole rest : Text} (hscan : scanWhole text = some (whole, rest)) :
      ∃ v vs, text = v :: vs ∧ isDigit v = true := by
    unfold scanWhole at hscan
    split at hscan
    next vs => exact ⟨48, vs, rfl, by decide⟩
    next =>
      simp only [Option.ite_none_left_eq_some] at hscan
      obtain ⟨hne, -⟩ := hscan
      cases text with
      | nil => simp at hne
      | cons v vs =>
        refine ⟨v, vs, rfl, ?_⟩
        by_contra hv
        rw [List.takeWhile_cons_of_neg hv] at hne
        exact hne rfl
  unfold scanNumber at h
  split at h
  next heq =>
    cases heq
    decide
  next =>
    simp only [scanUnsigned, Option.bind_eq_bind, Option.bind_eq_some_iff, Prod.exists] at h
    obtain ⟨whole, tail, hscan, -⟩ := h
    obtain ⟨v, vs, heq, hv⟩ := hwhole hscan
    cases heq
    simp [Json.startsValue, hv]

theorem matchToken_of_readLiteral {u : UInt16} {us rest : Text} {tree : JsonTree}
    (h : JsonTree.readLiteral (u :: us) = some (tree, rest)) :
    matchToken (u :: us) = some rest ∧ tree.isLeaf = true ∧ Json.startsValue u = true := by
  unfold JsonTree.readLiteral at h
  unfold matchToken
  cases hnull : Json.stripPrefix? (ascii "null") (u :: us) with
  | some tail =>
    rw [hnull] at h
    cases h
    have htext := stripPrefix?_some hnull
    refine ⟨?_, rfl, ?_⟩
    · rw [htext]
      have htrue : Json.stripPrefix? (ascii "true") (ascii "null" ++ rest) = none := rfl
      have hfalse : Json.stripPrefix? (ascii "false") (ascii "null" ++ rest) = none := rfl
      rw [htrue, hfalse]
      rfl
    · have hu : u = 0x6e := (List.cons.inj htext).1
      rw [hu]
      decide
  | none =>
    rw [hnull] at h
    cases htrue : Json.stripPrefix? (ascii "true") (u :: us) with
    | some tail =>
      rw [htrue] at h
      cases h
      have hu : u = 0x74 := (List.cons.inj (stripPrefix?_some htrue)).1
      refine ⟨rfl, rfl, ?_⟩
      rw [hu]
      decide
    | none =>
      rw [htrue] at h
      cases hfalse : Json.stripPrefix? (ascii "false") (u :: us) with
      | some tail =>
        rw [hfalse] at h
        cases h
        have hu : u = 0x66 := (List.cons.inj (stripPrefix?_some hfalse)).1
        refine ⟨rfl, rfl, ?_⟩
        rw [hu]
        decide
      | none =>
        rw [hfalse] at h
        obtain ⟨⟨n, tail⟩, hscan, he⟩ := Option.map_eq_some_iff.mp h
        cases he
        exact ⟨matchNumber_of_scanNumber hscan, rfl, startsValue_of_scanNumber hscan⟩

def HasOwnNames : JsonTree → Prop
  | .object members => (members.map Prod.fst).Nodup ∧ ∀ m ∈ members, m.1 ∉ prohibitedObjectKeys
  | _ => True

abbrev IsUnambiguous (tree : JsonTree) : Prop := tree.All fun _ => HasOwnNames

theorem isUnambiguous_array (items : List JsonTree) :
    IsUnambiguous (.array items) ↔ ∀ item ∈ items, IsUnambiguous item := by
  rw [IsUnambiguous, JsonTree.all_array]
  exact and_iff_right trivial

theorem isUnambiguous_object (members : List (Text × JsonTree)) :
    IsUnambiguous (.object members) ↔
      ((members.map Prod.fst).Nodup ∧ ∀ m ∈ members, m.1 ∉ prohibitedObjectKeys) ∧
        ∀ m ∈ members, IsUnambiguous m.2 := by
  rw [IsUnambiguous, JsonTree.all_object]
  rfl

theorem isUnambiguous_leaf {tree : JsonTree} (h : tree.isLeaf = true) : IsUnambiguous tree := by
  rw [IsUnambiguous, JsonTree.all_leaf h]
  cases tree with
  | object members => cases h
  | _ => trivial

def StartsAt (text : Text) : Prop :=
  ∃ u us, Json.skipSpace text = u :: us ∧ isWhitespace u = false ∧ u ≠ 0x5d ∧ u ≠ 0x7d

theorem startsAt_of_readTree {fuel : ℕ} {text rest : Text} {tree : JsonTree}
    (h : JsonTree.readTree fuel text = some (tree, rest)) : StartsAt text := by
  cases fuel with
  | zero => cases h
  | succ fuel =>
    rw [JsonTree.readTree] at h
    cases hspace : Json.skipSpace text with
    | nil =>
      rw [hspace] at h
      cases h
    | cons u us =>
      rw [hspace] at h
      refine ⟨u, us, hspace, ?_⟩
      simp only at h
      by_cases hquote : u = 0x22
      · rw [hquote]
        decide
      · by_cases hbracket : u = 0x5b
        · rw [hbracket]
          decide
        · by_cases hbrace : u = 0x7b
          · rw [hbrace]
            decide
          · rw [if_neg hquote, if_neg hbracket, if_neg hbrace] at h
            exact startsValue_plain (matchToken_of_readLiteral h).2.2

theorem startsAt_of_readItems {fuel : ℕ} {text rest : Text} {items : List JsonTree}
    (h : JsonTree.readItems fuel text = some (items, rest)) : StartsAt text := by
  cases fuel with
  | zero => cases h
  | succ fuel =>
    rw [JsonTree.readItems] at h
    simp only [Option.bind_eq_bind, Option.bind_eq_some_iff, Prod.exists] at h
    obtain ⟨item, behind, hitem, -⟩ := h
    exact startsAt_of_readTree hitem

theorem quote_of_readMembers {fuel : ℕ} {text rest : Text} {members : List (Text × JsonTree)}
    (h : JsonTree.readMembers fuel text = some (members, rest)) :
    ∃ us, Json.skipSpace text = 0x22 :: us := by
  cases fuel with
  | zero => cases h
  | succ fuel =>
    rw [JsonTree.readMembers] at h
    split at h
    next hquote => exact List.head?_eq_some_iff.mp hquote
    next => cases h

/-- At a fuel, the scans come to the places that the readers come to. -/
structure Scans (fuel : ℕ) : Prop where
  tree : ∀ {text rest : Text} {tree : JsonTree}, JsonTree.readTree fuel text = some (tree, rest) →
    ∀ end', scanValue fuel text = .ok end' ↔ IsUnambiguous tree ∧ end' = rest
  items : ∀ {text rest : Text} {items : List JsonTree},
    JsonTree.readItems fuel text = some (items, rest) →
      ∀ end', scanItems fuel text = .ok end' ↔
        (∀ item ∈ items, IsUnambiguous item) ∧ end' = rest
  members : ∀ {text rest : Text} {members : List (Text × JsonTree)},
    JsonTree.readMembers fuel text = some (members, rest) →
      ∀ keys end', scanMembers fuel text keys = .ok end' ↔
        (((members.map Prod.fst).Nodup ∧ ∀ m ∈ members, m.1 ∉ keys ∧ m.1 ∉ prohibitedObjectKeys) ∧
          ∀ m ∈ members, IsUnambiguous m.2) ∧ end' = rest

variable {fuel : ℕ}

theorem scanItems_step (ih : Scans fuel) {text rest : Text} {items : List JsonTree}
    (h : JsonTree.readItems (fuel + 1) text = some (items, rest)) (end' : Text) :
    scanItems (fuel + 1) text = .ok end' ↔
      (∀ item ∈ items, IsUnambiguous item) ∧ end' = rest := by
  rw [JsonTree.readItems] at h
  simp only [Option.bind_eq_bind, Option.bind_eq_some_iff, Prod.exists] at h
  obtain ⟨item, behind, hitem, h⟩ := h
  have hscan := ih.tree hitem
  cases hspace : Json.skipSpace behind with
  | nil =>
    rw [hspace] at h
    cases h
  | cons u us =>
    rw [hspace] at h
    simp only at h
    rw [scanItems]
    simp only [bind_ok, hscan, and_assoc, exists_and_left, exists_eq_left]
    by_cases hcomma : u = 0x2c
    · subst hcomma
      rw [if_pos rfl, Option.map_eq_some_iff] at h
      obtain ⟨⟨others, tail⟩, hothers, he⟩ := h
      cases he
      rw [whitespace_of_skipSpace hspace (by decide)]
      simp only [show (0x2c : UInt16) ≠ 0x5d by decide, if_false, if_true, ih.items hothers,
        List.forall_mem_cons, and_assoc]
    · by_cases hclose : u = 0x5d
      · subst hclose
        rw [if_neg (by decide), if_pos rfl] at h
        cases h
        rw [whitespace_of_skipSpace hspace (by decide)]
        simp [@eq_comm _ rest end']
      · rw [if_neg hcomma, if_neg hclose] at h
        cases h

theorem own_members_cons {name : Text} {tree : JsonTree} {members : List (Text × JsonTree)}
    {keys : List Text} {p : Prop} :
    ((name ∉ keys ∧ name ∉ prohibitedObjectKeys) ∧ IsUnambiguous tree ∧
        (((members.map Prod.fst).Nodup ∧
            ∀ m ∈ members, m.1 ∉ name :: keys ∧ m.1 ∉ prohibitedObjectKeys) ∧
          ∀ m ∈ members, IsUnambiguous m.2) ∧ p) ↔
      (((((name, tree) :: members).map Prod.fst).Nodup ∧
          ∀ m ∈ (name, tree) :: members, m.1 ∉ keys ∧ m.1 ∉ prohibitedObjectKeys) ∧
        ∀ m ∈ (name, tree) :: members, IsUnambiguous m.2) ∧ p := by
  have hfresh : name ∉ members.map Prod.fst ↔ ∀ m ∈ members, m.1 ≠ name := by
    simp only [List.mem_map, not_exists, not_and, ne_eq]
  have hkeys : (∀ m ∈ members, m.1 ∉ name :: keys ∧ m.1 ∉ prohibitedObjectKeys) ↔
      (∀ m ∈ members, m.1 ≠ name) ∧ ∀ m ∈ members, m.1 ∉ keys ∧ m.1 ∉ prohibitedObjectKeys := by
    constructor
    · intro h
      refine ⟨fun m hm he => (h m hm).1 (he ▸ List.mem_cons_self), fun m hm => ?_⟩
      exact ⟨fun hmem => (h m hm).1 (List.mem_cons_of_mem _ hmem), (h m hm).2⟩
    · rintro ⟨hname, hothers⟩ m hm
      refine ⟨fun hmem => ?_, (hothers m hm).2⟩
      rcases List.mem_cons.mp hmem with he | hmem
      · exact hname m hm he
      · exact (hothers m hm).1 hmem
  rw [hkeys]
  simp only [List.map_cons, List.nodup_cons, List.forall_mem_cons, hfresh]
  tauto

def afterMember (fuel : Nat) (keys : List Text) : Text → Checked Text
  | [] => throw .runtimeError
  | u :: rest =>
    if u = 0x7d then pure rest
    else if u = 0x2c then scanMembers fuel rest keys
    else throw .runtimeError

theorem scanMembers_step (ih : Scans fuel) {text rest : Text} {members : List (Text × JsonTree)}
    (h : JsonTree.readMembers (fuel + 1) text = some (members, rest)) (keys : List Text)
    (end' : Text) :
    scanMembers (fuel + 1) text keys = .ok end' ↔
      (((members.map Prod.fst).Nodup ∧
          ∀ m ∈ members, m.1 ∉ keys ∧ m.1 ∉ prohibitedObjectKeys) ∧
        ∀ m ∈ members, IsUnambiguous m.2) ∧ end' = rest := by
  rw [JsonTree.readMembers] at h
  by_cases hquote : (Json.skipSpace text).head? = some 0x22
  · rw [if_pos hquote] at h
    obtain ⟨quoted, hstart⟩ := List.head?_eq_some_iff.mp hquote
    rw [hstart] at h
    simp only [List.tail_cons, Option.bind_eq_bind, Option.bind_eq_some_iff, Prod.exists] at h
    obtain ⟨name, behind, hname, h⟩ := h
    by_cases hcolon : (Json.skipSpace behind).head? = some 0x3a
    · rw [if_pos hcolon] at h
      obtain ⟨valued, hcolons⟩ := List.head?_eq_some_iff.mp hcolon
      rw [hcolons] at h
      simp only [List.tail_cons, Option.bind_eq_some_iff, Prod.exists] at h
      obtain ⟨tree, after, htree, h⟩ := h
      have hscan := ih.tree htree
      have hhead : scanMembers (fuel + 1) text keys = .ok end' ↔
          (name ∉ keys ∧ name ∉ prohibitedObjectKeys) ∧ IsUnambiguous tree ∧
            afterMember fuel (name :: keys) (whitespace after) = .ok end' := by
        rw [scanMembers, whitespace_of_skipSpace hstart (by decide),
          stringToken_of_readString hname, ok_bind]
        simp only [whitespace_of_skipSpace hcolons (by decide), bind_ok, throwWhen_ok, exists_unit,
          hscan, List.head?_cons, List.tail_cons, bne_self_eq_false, true_and,
          List.contains_eq_mem, decide_eq_false_iff_not, and_assoc, exists_and_left,
          exists_eq_left] <;> rfl
      rw [hhead]
      cases hspace : Json.skipSpace after with
      | nil =>
        rw [hspace] at h
        cases h
      | cons u us =>
        rw [hspace] at h
        simp only at h
        by_cases hcomma : u = 0x2c
        · subst hcomma
          rw [if_pos rfl, Option.map_eq_some_iff] at h
          obtain ⟨⟨others, tail⟩, hothers, he⟩ := h
          cases he
          rw [whitespace_of_skipSpace hspace (by decide)]
          simp only [afterMember, show (0x2c : UInt16) ≠ 0x7d by decide, if_false, if_true,
            ih.members hothers]
          exact own_members_cons
        · by_cases hclose : u = 0x7d
          · subst hclose
            rw [if_neg (by decide), if_pos rfl] at h
            cases h
            rw [whitespace_of_skipSpace hspace (by decide)]
            simp [afterMember, @eq_comm _ rest end', and_assoc]
          · rw [if_neg hcomma, if_neg hclose] at h
            cases h
    · rw [if_neg hcolon] at h
      cases h
  · rw [if_neg hquote] at h
    cases h

theorem scanValue_step (ih : Scans fuel) {text rest : Text} {tree : JsonTree}
    (h : JsonTree.readTree (fuel + 1) text = some (tree, rest)) (end' : Text) :
    scanValue (fuel + 1) text = .ok end' ↔ IsUnambiguous tree ∧ end' = rest := by
  obtain ⟨u, us, hspace, hplain, -, -⟩ := startsAt_of_readTree h
  rw [JsonTree.readTree, hspace] at h
  rw [scanValue, whitespace_of_skipSpace hspace hplain]
  simp only at h ⊢
  by_cases hquote : u = 0x22
  · subst hquote
    rw [if_pos rfl, Option.map_eq_some_iff] at h
    obtain ⟨⟨s, behind⟩, hread, he⟩ := h
    cases he
    have hleaf : IsUnambiguous (.string s) := isUnambiguous_leaf rfl
    rw [if_neg (by decide), if_neg (by decide), if_pos rfl, stringToken_of_readString hread]
    simp [hleaf, @eq_comm _ behind end']
  · rw [if_neg hquote] at h
    by_cases hbracket : u = 0x5b
    · subst hbracket
      rw [if_pos rfl] at h
      rw [if_neg (by decide), if_pos rfl]
      by_cases hclose : (Json.skipSpace us).head? = some 0x5d
      · obtain ⟨tail, hspaces⟩ := List.head?_eq_some_iff.mp hclose
        rw [if_pos hclose] at h
        cases h
        rw [whitespace_of_skipSpace hspaces (by decide), isUnambiguous_array, hspaces]
        simp [@eq_comm _ tail end']
      · rw [if_neg hclose, Option.map_eq_some_iff] at h
        obtain ⟨⟨items, behind⟩, hitems, he⟩ := h
        cases he
        have hopen : (whitespace us).head? ≠ some 0x5d := by
          obtain ⟨v, vs, hspaces, hv, hne, -⟩ := startsAt_of_readItems hitems
          rw [whitespace_of_skipSpace hspaces hv]
          exact fun he => hne (Option.some.inj he)
        rw [if_neg hopen, ih.items hitems, isUnambiguous_array]
    · rw [if_neg hbracket] at h
      by_cases hbrace : u = 0x7b
      · subst hbrace
        rw [if_pos rfl] at h
        rw [if_pos rfl]
        by_cases hclose : (Json.skipSpace us).head? = some 0x7d
        · obtain ⟨tail, hspaces⟩ := List.head?_eq_some_iff.mp hclose
          rw [if_pos hclose] at h
          cases h
          rw [whitespace_of_skipSpace hspaces (by decide), isUnambiguous_object, hspaces]
          simp [@eq_comm _ tail end']
        · rw [if_neg hclose, Option.map_eq_some_iff] at h
          obtain ⟨⟨members, behind⟩, hmembers, he⟩ := h
          cases he
          have hopen : (whitespace us).head? ≠ some 0x7d := by
            obtain ⟨vs, hspaces⟩ := quote_of_readMembers hmembers
            rw [whitespace_of_skipSpace hspaces (by decide), List.head?_cons]
            simp
          rw [if_neg hopen, ih.members hmembers, isUnambiguous_object]
          simp
      · rw [if_neg hbrace] at h
        obtain ⟨hmatch, hleaf, -⟩ := matchToken_of_readLiteral h
        rw [if_neg hbrace, if_neg hbracket, if_neg hquote, hmatch]
        simp [isUnambiguous_leaf hleaf, @eq_comm _ rest end']

theorem scans (fuel : ℕ) : Scans fuel := by
  induction fuel with
  | zero =>
    constructor
    · intro text rest tree h
      cases h
    · intro text rest items h
      cases h
    · intro text rest members h
      cases h
  | succ fuel ih => exact ⟨scanValue_step ih, scanItems_step ih, scanMembers_step ih⟩

/-- The node is not too deep, its text is well formed and not too long, its items not too many. -/
def KeepsLimits (limits : Limits) (depth : ℕ) (node : JsonTree) : Prop :=
  depth ≤ limits.objectDepth ∧
    match node with
    | .string s => s.length ≤ limits.stringLength ∧ s.isWellFormed = true
    | .array items => items.length ≤ limits.arrayLength
    | _ => True

def HasFiniteNumber : JsonTree → Prop
  | .number n => isFinite n = true
  | _ => True

theorem visit_leaf {limits : Limits} {tree : JsonTree} (h : tree.isLeaf = true) (depth : ℕ) :
    visit limits tree.value depth = .ok () ↔
      KeepsLimits limits depth tree ∧ HasFiniteNumber tree := by
  cases tree with
  | null => simp [JsonTree.value, visit, KeepsLimits, HasFiniteNumber]
  | bool b => simp [JsonTree.value, visit, KeepsLimits, HasFiniteNumber]
  | number n => simp [JsonTree.value, visit_number, KeepsLimits, HasFiniteNumber]
  | string s => simp [JsonTree.value, visit_string, KeepsLimits, HasFiniteNumber]
  | array items => cases h
  | object members => cases h

private theorem shift_limits (limits : Limits) (depth : ℕ) :
    (fun below node => KeepsLimits limits (depth + (below + 1)) node ∧ HasFiniteNumber node) =
      fun below node => KeepsLimits limits (depth + 1 + below) node ∧ HasFiniteNumber node := by
  funext below node
  rw [Nat.add_right_comm, Nat.add_assoc]

theorem visit_value {limits : Limits} {tree : JsonTree} (h : IsUnambiguous tree) (depth : ℕ) :
    visit limits tree.value depth = .ok () ↔
      tree.All fun below node =>
        KeepsLimits limits (depth + below) node ∧ HasFiniteNumber node := by
  induction tree using JsonTree.inductionOn generalizing depth with
  | null => rw [visit_leaf rfl, JsonTree.all_leaf rfl, Nat.add_zero]
  | bool b => rw [visit_leaf rfl, JsonTree.all_leaf rfl, Nat.add_zero]
  | number n => rw [visit_leaf rfl, JsonTree.all_leaf rfl, Nat.add_zero]
  | string s => rw [visit_leaf rfl, JsonTree.all_leaf rfl, Nat.add_zero]
  | array items ih =>
    rw [isUnambiguous_array] at h
    rw [JsonTree.value, visit_array, JsonTree.all_array, shift_limits, JsonTree.itemValues_eq,
      List.length_map, List.forall_mem_map]
    have hitems : (∀ item ∈ items, visit limits item.value (depth + 1) = .ok ()) ↔
        ∀ item ∈ items, item.All fun below node =>
          KeepsLimits limits (depth + 1 + below) node ∧ HasFiniteNumber node :=
      forall₂_congr fun item hitem => ih item hitem (h item hitem) (depth + 1)
    rw [hitems]
    simp [KeepsLimits, HasFiniteNumber, and_assoc]
  | object members ih =>
    rw [isUnambiguous_object] at h
    have hnodup : ((JsonTree.memberValues members).map Prod.fst).Nodup := by
      rw [JsonTree.names_memberValues]
      exact h.1.1
    have hmembers : (∀ m ∈ fromEntries (JsonTree.memberValues members),
          m.1 ∉ prohibitedObjectKeys ∧ visit limits m.2 (depth + 1) = .ok ()) ↔
        ∀ m ∈ members, m.2.All fun below node =>
          KeepsLimits limits (depth + 1 + below) node ∧ HasFiniteNumber node := by
      rw [fromEntries_of_nodup hnodup]
      simp only [(Reordering.propertyOrder.perm _).mem_iff, JsonTree.memberValues_eq,
        List.forall_mem_map]
      apply forall₂_congr
      intro m hm
      rw [ih m hm (h.2 m hm) (depth + 1)]
      exact and_iff_right (h.1.2 m hm)
    rw [JsonTree.value, visit_object, JsonTree.all_object, shift_limits, hmembers]
    simp [KeepsLimits, HasFiniteNumber]

private theorem whitespace_end {text : Text} (h : Json.skipSpace text = []) :
    whitespace text = [] := by
  induction text with
  | nil => rfl
  | cons u text ih =>
    unfold Json.skipSpace at h ih
    have hu : Json.isSpace u = true := by
      by_contra hu
      rw [List.dropWhile_cons_of_neg hu] at h
      cases h
    rw [List.dropWhile_cons_of_pos hu] at h
    rw [whitespace, List.dropWhile_cons_of_pos (isWhitespace_of_isSpace hu)]
    exact ih h

theorem detectDuplicateJsonKeys_iff {source : Text} {tree : JsonTree}
    (h : JsonTree.parse source = some tree) :
    detectDuplicateJsonKeys source = .ok () ↔ IsUnambiguous tree := by
  simp only [JsonTree.parse, Option.bind_eq_bind, Option.bind_eq_some_iff, Prod.exists] at h
  obtain ⟨found, rest, hread, h⟩ := h
  by_cases hend : (Json.skipSpace rest).isEmpty = true
  · rw [if_pos hend] at h
    cases h
    have hspaces : whitespace rest = [] := whitespace_end (List.isEmpty_iff.mp hend)
    have hscan := (scans _).tree hread
    simp only [detectDuplicateJsonKeys, orElseThrow_ok, bind_ok, hscan, and_assoc,
      exists_and_left, exists_eq_left, hspaces]
    exact and_iff_left rfl
  · rw [if_neg hend] at h
    cases h

/-- What `parseJsonStrict` accepts, with the value that it gives. -/
structure IsStrictText (options : Limits) (source : Text) (v : Value) : Prop where
  size : Utf8.byteLength source ≤ options.bytes
  parsed : Json.parse source = some v
  tree : ∃ tree, JsonTree.parse source = some tree ∧ tree.All fun depth node =>
    HasOwnNames node ∧ KeepsLimits options depth node ∧ HasFiniteNumber node
  written : Utf8.byteLength (Json.write v) ≤ options.bytes

private theorem all_and {P Q : ℕ → JsonTree → Prop} {tree : JsonTree} :
    (tree.All fun depth node => P depth node ∧ Q depth node) ↔ tree.All P ∧ tree.All Q := by
  constructor
  · intro h
    exact ⟨fun depth node hnode => (h depth node hnode).1,
      fun depth node hnode => (h depth node hnode).2⟩
  · intro h depth node hnode
    exact ⟨h.1 depth node hnode, h.2 depth node hnode⟩

private theorem visit_own_bytes {options : Limits} {v : Value} :
    visit { options with maximumBytes := some options.bytes } v 0 = .ok () ↔
      visit options v 0 = .ok () := by
  constructor
  · intro h
    refine visit_limits ?_ ?_ ?_ h <;> rfl
  · intro h
    refine visit_limits ?_ ?_ ?_ h <;> rfl

private theorem limitOr_limitOr (limit : Option ℕ) {fallback : ℕ} (h : fallback ≠ 0) :
    limitOr (some (limitOr limit fallback)) fallback = limitOr limit fallback := by
  have hpos : limitOr limit fallback ≠ 0 := by
    unfold limitOr
    split
    next => exact h
    next => exact h
    next n hn =>
      intro hzero
      exact hn hzero
  rw [limitOr.eq_def]
  split
  next heq => cases heq
  next heq => exact absurd (Option.some.inj heq) hpos
  next heq => exact (Option.some.inj heq).symm

theorem validatePlainTrustData_true_ok {v r : Value} {limits : Limits} :
    validatePlainTrustData v limits true = .ok r ↔
      visit limits v 0 = .ok () ∧ Utf8.byteLength (Json.write v) ≤ limits.bytes ∧ r = v := by
  constructor
  · intro h
    simp only [validatePlainTrustData, stepWhen, measureBytes, if_true, bind_ok, orThrow_ok] at h
    obtain ⟨u, hvisit, w, ⟨text, htext, hbytes⟩, hv⟩ := h
    have hwrite : Json.stringify v = some (Json.write v) := by
      rw [Json.stringify, Value.isUndefined_of_isJson (isJson_of_visit hvisit),
        if_neg Bool.false_ne_true]
    rw [hwrite, Option.some.injEq] at htext
    rw [← htext, throwWhen_ok, decide_eq_false_iff_not, not_lt] at hbytes
    exact ⟨hvisit, hbytes, (Except.ok.inj hv).symm⟩
  · rintro ⟨hvisit, hbytes, rfl⟩
    exact validatePlainTrustData_measured hvisit hbytes

theorem parseJsonStrict_ok {source : Text} {options : Limits} {v : Value} :
    parseJsonStrict source options = .ok v ↔ IsStrictText options source v := by
  have hbytes : Limits.bytes { options with maximumBytes := some options.bytes } = options.bytes :=
    limitOr_limitOr _ (by decide)
  have hvalue {tree : JsonTree} (hnames : IsUnambiguous tree) :
      visit options tree.value 0 = .ok () ↔
        tree.All fun depth node => KeepsLimits options depth node ∧ HasFiniteNumber node := by
    rw [visit_value hnames]
    simp only [Nat.zero_add]
  have hsplit : parseJsonStrict source options = .ok v ↔
      Utf8.byteLength source ≤ options.bytes ∧ detectDuplicateJsonKeys source = .ok () ∧
        ∃ result, Json.parse source = some result ∧ visit options result 0 = .ok () ∧
          Utf8.byteLength (Json.write result) ≤ options.bytes ∧ v = result := by
    simp only [parseJsonStrict, bind_ok, throwWhen_ok, orThrow_ok, validatePlainTrustData_true_ok,
      visit_own_bytes, hbytes, decide_eq_false_iff_not, not_lt]
    simp
  rw [hsplit]
  constructor
  · rintro ⟨hsize, hscan, result, hparse, hvisit, hwritten, rfl⟩
    have htree := hparse
    rw [JsonTree.parse_eq, Option.map_eq_some_iff] at htree
    obtain ⟨tree, htree, rfl⟩ := htree
    have hnames := (detectDuplicateJsonKeys_iff htree).mp hscan
    have hlimits := (hvalue hnames).mp hvisit
    exact ⟨hsize, hparse, ⟨tree, htree, all_and.mpr ⟨hnames, hlimits⟩⟩, hwritten⟩
  · rintro ⟨hsize, hparse, ⟨tree, htree, hall⟩, hwritten⟩
    obtain ⟨hnames, hlimits⟩ := all_and.mp hall
    have hv := hparse
    rw [JsonTree.parse_eq, htree, Option.map_some, Option.some.injEq] at hv
    subst hv
    exact ⟨hsize, (detectDuplicateJsonKeys_iff htree).mpr hnames, _, hparse,
      (hvalue hnames).mpr hlimits, hwritten, rfl⟩

/-- `1e309` overflows, and the three bytes of `1e5` are written as six. -/
theorem parseJsonStrict_refuses_numbers :
    (¬ ∀ source v, Utf8.byteLength source ≤ Limits.bytes {} →
      (parseJsonStrict source {} = .ok v ↔
        Json.parse source = some v ∧ ∃ tree, JsonTree.parse source = some tree ∧
          tree.All fun depth node => HasOwnNames node ∧ KeepsLimits {} depth node)) ∧
      ¬ ∀ source options v, Utf8.byteLength source ≤ options.bytes →
        (parseJsonStrict source options = .ok v ↔
          Json.parse source = some v ∧ ∃ tree, JsonTree.parse source = some tree ∧
            tree.All fun depth node =>
              HasOwnNames node ∧ KeepsLimits options depth node ∧ HasFiniteNumber node) := by
  have hleaf {source : Text} {n : Number} (hparse : Json.parse source = some (.number n)) :
      JsonTree.parse source = some (.number n) := by
    rw [JsonTree.parse_eq, Option.map_eq_some_iff] at hparse
    obtain ⟨tree, htree, hvalue⟩ := hparse
    cases tree with
    | number n' =>
      cases hvalue
      exact htree
    | _ => cases hvalue
  constructor
  · intro hall
    have hparse : Json.parse (ascii "1e309") = some (.number (.infinity false)) := by
      decide +kernel
    have hstrict := (hall (ascii "1e309") _ (by decide)).mpr
      ⟨hparse, _, hleaf hparse, (JsonTree.all_leaf rfl).mpr ⟨trivial, Nat.zero_le _, trivial⟩⟩
    obtain ⟨-, -, ⟨tree, htree, hnodes⟩, -⟩ := parseJsonStrict_ok.mp hstrict
    rw [hleaf hparse] at htree
    cases htree
    cases (hnodes 0 _ (.here _)).2.2
  · intro hall
    have hparse : Json.parse (ascii "1e5") = some (.number (.ofNat 100000)) := by
      decide +kernel
    have hfinite : isFinite (.ofNat 100000) = true := by
      decide +kernel
    have hstrict := (hall (ascii "1e5") { maximumBytes := some 3 } _ (by decide)).mpr
      ⟨hparse, _, hleaf hparse,
        (JsonTree.all_leaf rfl).mpr ⟨trivial, ⟨Nat.zero_le _, trivial⟩, hfinite⟩⟩
    have hwritten := (parseJsonStrict_ok.mp hstrict).written
    have hwrite : Json.write (.number (.ofNat 100000)) = ascii "100000" := by
      decide +kernel
    rw [hwrite] at hwritten
    exact absurd hwritten (by decide)

/-- A text is accepted if it is a strict text, and a buffer if it is decoded as one. -/
theorem parseJsonStrict_iff (source : Text) (bytes : Bytes) (options : Limits) (v : Value) :
    (parseJsonStrict source options = .ok v ↔ IsStrictText options source v) ∧
      (parseJsonStrictBuffer bytes options = .ok v ↔
        ∃ text, Utf8.decodeFatal bytes = some text ∧ IsStrictText options text v) := by
  refine ⟨parseJsonStrict_ok, ?_⟩
  simp only [parseJsonStrictBuffer, bind_ok, orThrow_ok, parseJsonStrict_ok]

end GhostBridge.Trust
