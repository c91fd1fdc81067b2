import GhostBridge.Ecma.HexNumbers
import GhostBridge.Ecma.Value
import GhostBridge.SchemaValidation.IdentityCapability

/-!
# Whole sextets

Base64url without padding leaves bits over in its last character, which are zero in the text of
bytes.
-/

namespace Ecma.Base64Url

/-- The sextets make up whole bytes, and the bits that are left over are zero. -/
def IsWhole : List ℕ → Prop
  | _ :: _ :: _ :: _ :: rest => IsWhole rest
  | [_, _, u] => u % 4 = 0
  | [_, t] => t % 16 = 0
  | [_] => False
  | [] => True

theorem isWhole_split (bytes : Bytes) : IsWhole (split bytes) := by
  induction bytes using split.induct with
  | case1 => trivial
  | case2 a => simp [split, IsWhole]
  | case3 a b => simp [split, IsWhole]
  | case4 a b c rest ih => exact ih

theorem split_join {ns : List ℕ} (hlt : ∀ n ∈ ns, n < 64) (h : IsWhole ns) :
    split (join ns) = ns := by
  induction ns using IsWhole.induct with
  | case1 s t u v rest ih =>
    simp only [List.forall_mem_cons] at hlt
    obtain ⟨hs, ht, hu, hv, hrest⟩ := hlt
    simp only [join, split, ih hrest h, UInt8.toNat_ofNat', List.cons.injEq, and_true]
    omega
  | case2 s t u =>
    simp only [List.forall_mem_cons] at hlt
    change u % 4 = 0 at h
    simp only [join, split, UInt8.toNat_ofNat', List.cons.injEq, and_true]
    omega
  | case3 s t =>
    simp only [List.forall_mem_cons] at hlt
    change t % 16 = 0 at h
    simp only [join, split, UInt8.toNat_ofNat', List.cons.injEq, and_true]
    omega
  | case4 s => exact h.elim
  | case5 => rfl

theorem isWhole_append {front : List ℕ} (h : front.length % 4 = 2) (u : ℕ) :
    IsWhole (front ++ [u]) ↔ u % 4 = 0 := by
  induction front using IsWhole.induct with
  | case1 s t v w rest ih =>
    apply ih
    simp only [List.length_cons] at h
    omega
  | case2 s t v => simp at h
  | case3 s t => exact Iff.rfl
  | case4 s => simp at h
  | case5 => simp at h

def isSymbol (u : UInt16) : Bool :=
  Regex.range 0x41 0x5a u || Regex.range 0x61 0x7a u || Regex.range 0x30 0x39 u ||
    (ascii "_-").contains u

theorem isSymbol_symbol {n : ℕ} (h : n < 64) : isSymbol (symbol n) = true := by
  interval_cases n <;> decide

/-- A character of the alphabet is that of a sextet. -/
theorem exists_symbol {u : UInt16} (h : isSymbol u = true) : ∃ n < 64, u = symbol n := by
  have hunits : ascii "_-" = [0x5f, 0x2d] := by decide
  have hall : ∀ k < 128, isSymbol (UInt16.ofNat k) = true → ∃ n < 64, UInt16.ofNat k = symbol n := by
    decide +kernel
  have hlt : u.toNat < 128 := by
    simp only [isSymbol, Regex.range, Bool.or_eq_true, Bool.and_eq_true, decide_eq_true_eq,
      UInt16.le_iff_toNat_le, List.contains_iff_mem, hunits, List.mem_cons, List.not_mem_nil,
      or_false, ← UInt16.toNat_inj] at h
    simp at h
    omega
  rw [← UInt16.ofNat_toNat (x := u)] at h ⊢
  exact hall u.toNat hlt h

theorem exists_symbols {text : Text} (h : ∀ u ∈ text, isSymbol u = true) :
    ∃ ns : List ℕ, (∀ n ∈ ns, n < 64) ∧ text = ns.map symbol := by
  induction text with
  | nil => exact ⟨[], by simp, rfl⟩
  | cons u text ih =>
    obtain ⟨n, hn, rfl⟩ := exists_symbol (h u List.mem_cons_self)
    obtain ⟨ns, hns, rfl⟩ := ih fun v hv => h v (List.mem_cons_of_mem _ hv)
    exact ⟨n :: ns, List.forall_mem_cons.mpr ⟨hn, hns⟩, rfl⟩

end Ecma.Base64Url

/-!
# Texts of bytes
-/

namespace GhostBridge.SchemaValidation

open Ecma Base64Url

/-- `canonicalBase64url(value, minimumBytes, maximumBytes)`. -/
def canonicalBase64url (value : Value) (minimumBytes : ℕ) (maximumBytes : Option ℕ) : Bool :=
  match value with
  | .string text =>
    let decoded := decode text
    !text.contains 0x3d && !text.isEmpty && text.all isSymbol && minimumBytes ≤ decoded.length &&
      maximumBytes.all (decoded.length ≤ ·) && encode decoded == text
  | _ => false

theorem canonicalBase64url_iff {value : Value} {minimumBytes : ℕ} {maximumBytes : Option ℕ} :
    canonicalBase64url value minimumBytes maximumBytes = true ↔
      ∃ bytes : Bytes, bytes ≠ [] ∧ value = .string (encode bytes) ∧
        minimumBytes ≤ bytes.length ∧ ∀ maximum ∈ maximumBytes, bytes.length ≤ maximum := by
  constructor
  · intro h
    cases value with
    | string text =>
      simp only [canonicalBase64url, Bool.and_eq_true, decide_eq_true_eq, beq_iff_eq] at h
      obtain ⟨⟨⟨⟨⟨_, hne⟩, _⟩, hmin⟩, hmax⟩, hsame⟩ := h
      refine ⟨decode text, ?_, by rw [hsame], hmin, ?_⟩
      · intro hnil
        rw [hnil] at hsame
        rw [← hsame] at hne
        simp [encode, split] at hne
      · intro maximum hmaximum
        rw [hmaximum] at hmax
        simpa using hmax
    | _ => cases h
  · intro h
    obtain ⟨bytes, hne, rfl, hmin, hmax⟩ := h
    have hsymbols : ∀ u ∈ encode bytes, isSymbol u = true := by
      intro u hu
      obtain ⟨n, hn, rfl⟩ := List.mem_map.mp hu
      exact isSymbol_symbol (split_lt bytes n hn)
    have hpadding : (0x3d : UInt16) ∉ encode bytes := by
      intro hmem
      exact absurd (hsymbols _ hmem) (by decide)
    have hmaximum : maximumBytes.all (bytes.length ≤ ·) = true := by
      cases maximumBytes with
      | none => rfl
      | some maximum => simpa using hmax maximum rfl
    simp only [canonicalBase64url, decode_encode]
    simp [hpadding, encode_ne_nil hne, hmin, hmaximum]
    exact hsymbols

theorem lastSextet_iff : ∀ n < 64, (ascii "AEIMQUYcgkosw048").contains (symbol n) = true ↔
    n % 4 = 0 := by decide +kernel

/-- The pattern for digests accepts what is canonical when it is decoded: the texts of 32 bytes,
each of which is the text of other bytes. -/
theorem base64url_32_octets_law (value : Value) :
    (isStringOf canonicalBase64url32Octets value = true ↔
      canonicalBase64url value 32 (some 32) = true) ∧
    (canonicalBase64url value 32 (some 32) = true ↔
      ∃! bytes : Bytes, bytes.length = 32 ∧ value = .string (encode bytes)) := by
  have hbytes : canonicalBase64url value 32 (some 32) = true ↔
      ∃ bytes : Bytes, bytes.length = 32 ∧ value = .string (encode bytes) := by
    rw [canonicalBase64url_iff]
    constructor
    · intro h
      obtain ⟨bytes, _, hvalue, hmin, hmax⟩ := h
      exact ⟨bytes, le_antisymm (hmax 32 rfl) hmin, hvalue⟩
    · intro h
      obtain ⟨bytes, hlength, hvalue⟩ := h
      refine ⟨bytes, ?_, hvalue, hlength.ge, ?_⟩
      · intro hnil
        rw [hnil] at hlength
        cases hlength
      · intro maximum hmaximum
        rw [← Option.some.inj hmaximum, hlength]
  refine ⟨?_, ?_⟩
  · rw [hbytes]
    constructor
    · intro h
      cases value with
      | string text =>
        change canonicalBase64url32Octets.accepts text = true at h
        rw [Regex.accepts_iff] at h
        obtain ⟨a, _, rfl, ha, v, hv, rfl⟩ := h
        obtain ⟨hsymbols, hlength⟩ := Regex.language_replicate_iff.mp ha
        obtain ⟨front, hfront, rfl⟩ := exists_symbols hsymbols
        rw [List.length_map] at hlength
        have hlast : isSymbol v = true := by
          have hall : (ascii "AEIMQUYcgkosw048").all isSymbol = true := by decide
          exact List.all_eq_true.mp hall v (List.contains_iff_mem.mp hv)
        obtain ⟨n, hn, rfl⟩ := exists_symbol hlast
        have hwhole : IsWhole (front ++ [n]) :=
          (isWhole_append (by omega) n).mpr ((lastSextet_iff n hn).mp hv)
        have hlt : ∀ m ∈ front ++ [n], m < 64 := by
          intro m hm
          rcases List.mem_append.mp hm with hm | hm
          · exact hfront m hm
          · rwa [List.mem_singleton.mp hm]
        have hencoded : front.map symbol ++ [symbol n] = encode (join (front ++ [n])) := by
          rw [encode, split_join hlt hwhole, List.map_append]
          rfl
        refine ⟨join (front ++ [n]), ?_, by rw [hencoded]⟩
        have hcount := length_encode (join (front ++ [n]))
        rw [← hencoded, List.length_append, List.length_map, hlength, List.length_singleton]
          at hcount
        omega
      | _ => cases h
    · intro h
      obtain ⟨bytes, hlength, rfl⟩ := h
      change canonicalBase64url32Octets.accepts (encode bytes) = true
      rw [Regex.accepts_iff]
      have hcount : (split bytes).length = 43 := by
        have := length_encode bytes
        rw [encode, List.length_map, hlength] at this
        exact this
      obtain ⟨front, n, hsplit⟩ : ∃ front n, split bytes = front ++ [n] :=
        ⟨_, _, (List.dropLast_append_getLast (by
          intro hnil
          rw [hnil] at hcount
          cases hcount)).symm⟩
      have hlt := split_lt bytes
      have hwhole := isWhole_split bytes
      rw [hsplit] at hcount hlt hwhole
      have hfront : front.length = 42 := by simpa using hcount
      rw [isWhole_append (by omega)] at hwhole
      rw [encode, hsplit, List.map_append]
      refine ⟨front.map symbol, _, rfl, Regex.language_replicate_iff.mpr ⟨?_, by simpa using hfront⟩,
        symbol n, (lastSextet_iff n (hlt n (by simp))).mpr hwhole, rfl⟩
      intro u hu
      obtain ⟨m, hm, rfl⟩ := List.mem_map.mp hu
      exact isSymbol_symbol (hlt m (List.mem_append_left _ hm))
  · rw [hbytes]
    constructor
    · intro h
      obtain ⟨bytes, hlength, hvalue⟩ := h
      refine ⟨bytes, ⟨hlength, hvalue⟩, ?_⟩
      intro others hothers
      apply encode_injective
      simpa using hothers.2.symm.trans hvalue
    · intro h
      obtain ⟨bytes, hbytes, _⟩ := h
      exact ⟨bytes, hbytes⟩

end GhostBridge.SchemaValidation
