import GhostBridge.Ecma.Text
import Mathlib.Tactic.IntervalCases

/-!
# UTF-8

Encoding replaces unpaired surrogates by U+FFFD.
-/

namespace Ecma

abbrev Bytes := List UInt8

namespace Utf8

def unitScalar (u : UInt16) : Nat :=
  if isHighSurrogate u || isLowSurrogate u then 0xfffd else u.toNat

def scalars : Text → List Nat
  | [] => []
  | [a] => [unitScalar a]
  | a :: b :: rest =>
    if isHighSurrogate a && isLowSurrogate b then
      (0x10000 + (a.toNat - 0xd800) * 1024 + (b.toNat - 0xdc00)) :: scalars rest
    else unitScalar a :: scalars (b :: rest)

def units (c : Nat) : Text :=
  if c < 0x10000 then [UInt16.ofNat c]
  else [UInt16.ofNat (0xd800 + (c - 0x10000) / 1024), UInt16.ofNat (0xdc00 + (c - 0x10000) % 1024)]

def encodeScalar (c : Nat) : Bytes :=
  if c < 0x80 then [UInt8.ofNat c]
  else if c < 0x800 then [UInt8.ofNat (0xc0 + c / 64), UInt8.ofNat (0x80 + c % 64)]
  else if c < 0x10000 then
    [UInt8.ofNat (0xe0 + c / 4096), UInt8.ofNat (0x80 + c / 64 % 64), UInt8.ofNat (0x80 + c % 64)]
  else
    [UInt8.ofNat (0xf0 + c / 262144), UInt8.ofNat (0x80 + c / 4096 % 64),
      UInt8.ofNat (0x80 + c / 64 % 64), UInt8.ofNat (0x80 + c % 64)]

/-- `Buffer.from(text, 'utf8')`. -/
def encode (text : Text) : Bytes := (scalars text).flatMap encodeScalar

def byteLength (text : Text) : Nat := (encode text).length

/-- `Buffer.from(text, 'ascii')` keeps the low byte of each unit. -/
def lowBytes (text : Text) : Bytes := text.map UInt16.toUInt8

def continues (low high : Nat) (b : UInt8) : Bool := low ≤ b.toNat && b.toNat ≤ high

def decodeScalars : Bytes → List (Option Nat)
  | [] => []
  | b :: rest =>
    if b.toNat < 0x80 then some b.toNat :: decodeScalars rest
    else if 0xc2 ≤ b.toNat ∧ b.toNat ≤ 0xdf then
      match rest with
      | [] => [none]
      | c :: rest =>
        if continues 0x80 0xbf c then
          some ((b.toNat - 0xc0) * 64 + (c.toNat - 0x80)) :: decodeScalars rest
        else none :: decodeScalars (c :: rest)
    else if 0xe0 ≤ b.toNat ∧ b.toNat ≤ 0xef then
      match rest with
      | [] => [none]
      | c :: rest =>
        if continues (if b.toNat = 0xe0 then 0xa0 else 0x80)
            (if b.toNat = 0xed then 0x9f else 0xbf) c then
          match rest with
          | [] => [none]
          | d :: rest =>
            if continues 0x80 0xbf d then
              some ((b.toNat - 0xe0) * 4096 + (c.toNat - 0x80) * 64 + (d.toNat - 0x80)) ::
                decodeScalars rest
            else none :: decodeScalars (d :: rest)
        else none :: decodeScalars (c :: rest)
    else if 0xf0 ≤ b.toNat ∧ b.toNat ≤ 0xf4 then
      match rest with
      | [] => [none]
      | c :: rest =>
        if continues (if b.toNat = 0xf0 then 0x90 else 0x80)
            (if b.toNat = 0xf4 then 0x8f else 0xbf) c then
          match rest with
          | [] => [none]
          | d :: rest =>
            if continues 0x80 0xbf d then
              match rest with
              | [] => [none]
              | e :: rest =>
                if continues 0x80 0xbf e then
                  some ((b.toNat - 0xf0) * 262144 + (c.toNat - 0x80) * 4096 +
                    (d.toNat - 0x80) * 64 + (e.toNat - 0x80)) :: decodeScalars rest
                else none :: decodeScalars (e :: rest)
            else none :: decodeScalars (d :: rest)
        else none :: decodeScalars (c :: rest)
    else none :: decodeScalars rest

/-- `buffer.toString('utf8')`. -/
def decodeLossy (bytes : Bytes) : Text :=
  (decodeScalars bytes).flatMap fun c => units (c.getD 0xfffd)

/-- `new TextDecoder('utf-8', { fatal: true }).decode(buffer)`; none is a TypeError. -/
def decodeFatal (bytes : Bytes) : Option Text :=
  let marked := match bytes with
    | 0xef :: 0xbb :: 0xbf :: rest => rest
    | bytes => bytes
  ((decodeScalars marked).mapM id).map fun cs => cs.flatMap units

def IsScalar (c : Nat) : Prop := c < 0xd800 ∨ (0xe000 ≤ c ∧ c < 0x110000)

theorem surrogates_toNat (u : UInt16) :
    (isHighSurrogate u = true ↔ 0xd800 ≤ u.toNat ∧ u.toNat < 0xdc00) ∧
      (isLowSurrogate u = true ↔ 0xdc00 ≤ u.toNat ∧ u.toNat < 0xe000) := by
  simp only [isHighSurrogate, isLowSurrogate, Bool.and_eq_true, decide_eq_true_eq,
    UInt16.le_iff_toNat_le]
  simp only [UInt16.reduceToNat]
  omega

theorem unitScalar_isScalar (u : UInt16) : IsScalar (unitScalar u) := by
  have hu := u.toNat_lt
  obtain ⟨hhigh, hlow⟩ := surrogates_toNat u
  unfold unitScalar IsScalar
  split
  · decide
  · next h =>
    rw [Bool.or_eq_true, hhigh, hlow] at h
    omega

theorem scalars_isScalar (text : Text) : ∀ c ∈ scalars text, IsScalar c := by
  induction text using scalars.induct with
  | case1 => exact fun _ h => nomatch h
  | case2 a =>
    intro c hc
    rw [List.mem_singleton.mp hc]
    exact unitScalar_isScalar a
  | case3 a b rest h ih =>
    obtain ⟨ha, hb⟩ := Bool.and_eq_true_iff.mp h
    rw [(surrogates_toNat a).1] at ha
    rw [(surrogates_toNat b).2] at hb
    rw [scalars, if_pos h, List.forall_mem_cons]
    exact ⟨Or.inr (by omega), ih⟩
  | case4 a b rest h ih =>
    rw [scalars, if_neg h, List.forall_mem_cons]
    exact ⟨unitScalar_isScalar a, ih⟩

private theorem decode_two {b c : UInt8} (hb : 0xc2 ≤ b.toNat ∧ b.toNat ≤ 0xdf)
    (hc : 0x80 ≤ c.toNat ∧ c.toNat ≤ 0xbf) (rest : Bytes) :
    decodeScalars (b :: c :: rest) =
      some ((b.toNat - 0xc0) * 64 + (c.toNat - 0x80)) :: decodeScalars rest := by
  have hsmall : ¬b.toNat < 0x80 := by omega
  rw [decodeScalars.eq_def]
  simp [hsmall, hb, continues, hc]

private theorem decode_three {b c d : UInt8} (hb : 0xe0 ≤ b.toNat ∧ b.toNat ≤ 0xef)
    (hc : (if b.toNat = 0xe0 then 0xa0 else 0x80) ≤ c.toNat ∧
      c.toNat ≤ (if b.toNat = 0xed then 0x9f else 0xbf))
    (hd : 0x80 ≤ d.toNat ∧ d.toNat ≤ 0xbf) (rest : Bytes) :
    decodeScalars (b :: c :: d :: rest) =
      some ((b.toNat - 0xe0) * 4096 + (c.toNat - 0x80) * 64 + (d.toNat - 0x80)) ::
        decodeScalars rest := by
  have hsmall : ¬b.toNat < 0x80 := by omega
  have htwo : ¬(0xc2 ≤ b.toNat ∧ b.toNat ≤ 0xdf) := by omega
  rw [decodeScalars.eq_def]
  simp only [hsmall, htwo, hb, continues, hc, hd, if_true, if_false, and_self, decide_true,
    Bool.and_self]

private theorem decode_four {b c d e : UInt8} (hb : 0xf0 ≤ b.toNat ∧ b.toNat ≤ 0xf4)
    (hc : (if b.toNat = 0xf0 then 0x90 else 0x80) ≤ c.toNat ∧
      c.toNat ≤ (if b.toNat = 0xf4 then 0x8f else 0xbf))
    (hd : 0x80 ≤ d.toNat ∧ d.toNat ≤ 0xbf) (he : 0x80 ≤ e.toNat ∧ e.toNat ≤ 0xbf)
    (rest : Bytes) :
    decodeScalars (b :: c :: d :: e :: rest) =
      some ((b.toNat - 0xf0) * 262144 + (c.toNat - 0x80) * 4096 + (d.toNat - 0x80) * 64 +
        (e.toNat - 0x80)) :: decodeScalars rest := by
  have hsmall : ¬b.toNat < 0x80 := by omega
  have htwo : ¬(0xc2 ≤ b.toNat ∧ b.toNat ≤ 0xdf) := by omega
  have hthree : ¬(0xe0 ≤ b.toNat ∧ b.toNat ≤ 0xef) := by omega
  rw [decodeScalars.eq_def]
  simp only [hsmall, htwo, hthree, hb, continues, hc, hd, he, if_true, if_false, and_self,
    decide_true, Bool.and_self]

private theorem toNat_byte {n : Nat} (h : n < 256) : (UInt8.ofNat n).toNat = n := by
  rw [UInt8.toNat_ofNat', Nat.mod_eq_of_lt h]

theorem decodeScalars_encodeScalar {c : Nat} (hc : IsScalar c) (rest : Bytes) :
    decodeScalars (encodeScalar c ++ rest) = some c :: decodeScalars rest := by
  unfold encodeScalar
  unfold IsScalar at hc
  split
  · next h =>
    rw [List.singleton_append, decodeScalars.eq_def]
    simp [toNat_byte (show c < 256 by omega), h]
  split
  · have h₁ := toNat_byte (show 0xc0 + c / 64 < 256 by omega)
    have h₂ := toNat_byte (show 0x80 + c % 64 < 256 by omega)
    rw [List.cons_append, List.singleton_append, decode_two (by omega) (by omega), h₁, h₂,
      show (0xc0 + c / 64 - 0xc0) * 64 + (0x80 + c % 64 - 0x80) = c by omega]
  split
  · have h₁ := toNat_byte (show 0xe0 + c / 4096 < 256 by omega)
    have h₂ := toNat_byte (show 0x80 + c / 64 % 64 < 256 by omega)
    have h₃ := toNat_byte (show 0x80 + c % 64 < 256 by omega)
    rw [List.cons_append, List.cons_append, List.singleton_append,
      decode_three (by omega) (by rw [h₁, h₂]; constructor <;> split <;> omega) (by omega),
      h₁, h₂, h₃, show (0xe0 + c / 4096 - 0xe0) * 4096 + (0x80 + c / 64 % 64 - 0x80) * 64 +
        (0x80 + c % 64 - 0x80) = c by omega]
  · have h₁ := toNat_byte (show 0xf0 + c / 262144 < 256 by omega)
    have h₂ := toNat_byte (show 0x80 + c / 4096 % 64 < 256 by omega)
    have h₃ := toNat_byte (show 0x80 + c / 64 % 64 < 256 by omega)
    have h₄ := toNat_byte (show 0x80 + c % 64 < 256 by omega)
    rw [List.cons_append, List.cons_append, List.cons_append, List.singleton_append,
      decode_four (by omega) (by rw [h₁, h₂]; constructor <;> split <;> omega) (by omega)
        (by omega), h₁, h₂, h₃, h₄,
      show (0xf0 + c / 262144 - 0xf0) * 262144 + (0x80 + c / 4096 % 64 - 0x80) * 4096 +
        (0x80 + c / 64 % 64 - 0x80) * 64 + (0x80 + c % 64 - 0x80) = c by omega]

theorem decodeScalars_encode (text : Text) :
    decodeScalars (encode text) = (scalars text).map some := by
  have h := scalars_isScalar text
  unfold encode
  generalize scalars text = cs at h ⊢
  induction cs with
  | nil => rfl
  | cons c cs ih =>
    rw [List.forall_mem_cons] at h
    rw [List.flatMap_cons, decodeScalars_encodeScalar h.1, ih h.2, List.map_cons]

theorem units_scalars {text : Text} (h : text.isWellFormed = true) :
    (scalars text).flatMap units = text := by
  have hunit (u : UInt16) (hu : isHighSurrogate u = false ∧ isLowSurrogate u = false) :
      units (unitScalar u) = [u] := by
    have hlt := u.toNat_lt
    rw [unitScalar, hu.1, hu.2, Bool.or_self, if_neg Bool.false_ne_true, units,
      if_pos (by omega), UInt16.ofNat_toNat]
  induction text using scalars.induct with
  | case1 => rfl
  | case2 a =>
    simp only [Text.isWellFormed, Bool.and_eq_true, Bool.not_eq_true'] at h
    rw [scalars, List.flatMap_singleton, hunit a h]
  | case3 a b rest hpair ih =>
    obtain ⟨ha, hb⟩ := Bool.and_eq_true_iff.mp hpair
    rw [Text.isWellFormed, if_pos ha, hb, Bool.true_and] at h
    rw [scalars, if_pos hpair, List.flatMap_cons, ih h]
    rw [(surrogates_toNat a).1] at ha
    rw [(surrogates_toNat b).2] at hb
    have hhigh : 0xd800 + (0x10000 + (a.toNat - 0xd800) * 1024 + (b.toNat - 0xdc00) - 0x10000) /
        1024 = a.toNat := by omega
    have hlow : 0xdc00 + (0x10000 + (a.toNat - 0xd800) * 1024 + (b.toNat - 0xdc00) - 0x10000) %
        1024 = b.toNat := by omega
    rw [units, if_neg (by omega), hhigh, hlow, UInt16.ofNat_toNat, UInt16.ofNat_toNat]
    rfl
  | case4 a b rest hpair ih =>
    rw [Text.isWellFormed] at h
    rw [scalars, if_neg hpair, List.flatMap_cons]
    cases ha : isHighSurrogate a with
    | true =>
      rw [ha, if_pos rfl, Bool.and_eq_true] at h
      exact absurd (Bool.and_eq_true_iff.mpr ⟨ha, h.1⟩) hpair
    | false =>
      rw [ha, if_neg Bool.false_ne_true, Bool.and_eq_true, Bool.not_eq_true'] at h
      rw [hunit a ⟨ha, h.1⟩, ih h.2]
      rfl

theorem decodeLossy_encode {text : Text} (h : text.isWellFormed = true) :
    decodeLossy (encode text) = text := by
  rw [decodeLossy, decodeScalars_encode, List.flatMap_map]
  exact units_scalars h

theorem decodeFatal_encode {text : Text} (h : text.isWellFormed = true)
    (hmark : (encode text).head? ≠ some 0xef) : decodeFatal (encode text) = some text := by
  have hmarked : (match encode text with
      | 0xef :: 0xbb :: 0xbf :: rest => rest
      | bytes => bytes) = encode text := by
    split
    · next rest he => exact absurd (by rw [he]; rfl) hmark
    · rfl
  have hall (cs : List Nat) : (cs.map some).mapM id = some cs := by
    induction cs with
    | nil => rfl
    | cons c cs ih => simp [ih]
  simp only [decodeFatal, hmarked, decodeScalars_encode, hall, Option.map_some, units_scalars h]

end Utf8

end Ecma

/-!
## Base64url

`Buffer` writes the URL alphabet without padding. It reads both alphabets from the low byte of
each unit, skips what belongs to neither and stops at the first padding character.
-/

namespace Ecma

namespace Base64Url

def symbol (n : Nat) : UInt16 :=
  UInt16.ofNat
    (if n < 26 then 65 + n else if n < 52 then 71 + n else if n < 62 then n - 4
      else if n = 62 then 45 else 95)

def sextet? (b : UInt8) : Option Nat :=
  let n := b.toNat
  if 65 ≤ n ∧ n ≤ 90 then some (n - 65)
  else if 97 ≤ n ∧ n ≤ 122 then some (n - 71)
  else if 48 ≤ n ∧ n ≤ 57 then some (n + 4)
  else if n = 43 ∨ n = 45 then some 62
  else if n = 47 ∨ n = 95 then some 63
  else none

def split : Bytes → List Nat
  | [] => []
  | [a] => [a.toNat / 4, a.toNat % 4 * 16]
  | [a, b] => [a.toNat / 4, a.toNat % 4 * 16 + b.toNat / 16, b.toNat % 16 * 4]
  | a :: b :: c :: rest =>
    a.toNat / 4 :: (a.toNat % 4 * 16 + b.toNat / 16) :: (b.toNat % 16 * 4 + c.toNat / 64) ::
      c.toNat % 64 :: split rest

def join : List Nat → Bytes
  | s :: t :: u :: v :: rest =>
    UInt8.ofNat (s * 4 + t / 16) :: UInt8.ofNat (t % 16 * 16 + u / 4) ::
      UInt8.ofNat (u % 4 * 64 + v) :: join rest
  | [s, t, u] => [UInt8.ofNat (s * 4 + t / 16), UInt8.ofNat (t % 16 * 16 + u / 4)]
  | [s, t] => [UInt8.ofNat (s * 4 + t / 16)]
  | _ => []

/-- `buffer.toString('base64url')`. -/
def encode (bytes : Bytes) : Text := (split bytes).map symbol

/-- `Buffer.from(text, 'base64url')`. -/
def decode (text : Text) : Bytes :=
  join (((Utf8.lowBytes text).takeWhile (· != 0x3d)).filterMap sextet?)

theorem symbol_spec {n : Nat} (h : n < 64) :
    (symbol n).toUInt8 ≠ 0x3d ∧ sextet? (symbol n).toUInt8 = some n ∧
      symbol n ≠ 0x2e ∧ symbol n < 0x80 := by
  interval_cases n <;> decide

theorem split_lt (bytes : Bytes) : ∀ n ∈ split bytes, n < 64 := by
  have hbyte (b : UInt8) : b.toNat < 256 := b.toNat_lt
  induction bytes using split.induct with
  | case1 => exact fun _ h => nomatch h
  | case2 a =>
    have := hbyte a
    simp only [split, List.forall_mem_cons, List.not_mem_nil, false_imp_iff, implies_true,
      and_true]
    omega
  | case3 a b =>
    have := hbyte a
    have := hbyte b
    simp only [split, List.forall_mem_cons, List.not_mem_nil, false_imp_iff, implies_true,
      and_true]
    omega
  | case4 a b c rest ih =>
    have := hbyte a
    have := hbyte b
    have := hbyte c
    simp only [split, List.forall_mem_cons]
    exact ⟨by omega, by omega, by omega, by omega, ih⟩

theorem join_split (bytes : Bytes) : join (split bytes) = bytes := by
  have hbyte (b : UInt8) : b.toNat < 256 := b.toNat_lt
  have hb {n : Nat} {b : UInt8} (h : n = b.toNat) : UInt8.ofNat n = b := by
    rw [h, UInt8.ofNat_toNat]
  induction bytes using split.induct with
  | case1 => rfl
  | case2 a => rw [split, join, hb (b := a) (by omega)]
  | case3 a b =>
    have := hbyte b
    rw [split, join, hb (b := a) (by omega), hb (b := b) (by omega)]
  | case4 a b c rest ih =>
    have := hbyte b
    have := hbyte c
    rw [split, join, ih, hb (b := a) (by omega), hb (b := b) (by omega), hb (b := c) (by omega)]

theorem decode_encode (bytes : Bytes) : decode (encode bytes) = bytes := by
  have hsextets (ns : List Nat) (h : ∀ n ∈ ns, n < 64) :
      ((Utf8.lowBytes (ns.map symbol)).takeWhile (· != 0x3d)).filterMap sextet? = ns := by
    induction ns with
    | nil => rfl
    | cons n ns ih =>
      rw [List.forall_mem_cons] at h
      obtain ⟨hpad, hsextet, _⟩ := symbol_spec h.1
      have ih' := ih h.2
      simp only [Utf8.lowBytes, List.map_cons] at ih' ⊢
      rw [List.takeWhile_cons_of_pos (by simpa using hpad), List.filterMap_cons_some hsextet, ih']
  rw [decode, encode, hsextets _ (split_lt bytes), join_split]

theorem encode_injective : Function.Injective encode :=
  Function.LeftInverse.injective decode_encode

theorem encode_units (bytes : Bytes) : ∀ u ∈ encode bytes, u ≠ 0x2e ∧ u < 0x80 := by
  intro u hu
  obtain ⟨n, hn, rfl⟩ := List.mem_map.mp hu
  exact (symbol_spec (split_lt bytes n hn)).2.2

theorem length_encode (bytes : Bytes) : (encode bytes).length = (4 * bytes.length + 2) / 3 := by
  rw [encode, List.length_map]
  induction bytes using split.induct with
  | case1 => simp [split]
  | case2 a => simp [split]
  | case3 a b => simp [split]
  | case4 a b c rest ih =>
    simp only [split, List.length_cons, ih]
    omega

theorem encode_ne_nil {bytes : Bytes} (h : bytes ≠ []) : encode bytes ≠ [] := by
  have hpos : 0 < bytes.length := List.length_pos_iff.mpr h
  have hlen := length_encode bytes
  exact List.length_pos_iff.mp (by omega)

end Base64Url

end Ecma
