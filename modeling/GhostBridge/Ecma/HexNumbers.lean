import GhostBridge.Ecma.Numeric
import GhostBridge.Ecma.Regex
import GhostBridge.Ecma.Sha256

/-!
# Patterns of digests

A digest in hexadecimal digits is matched by the expression that spells its prefix and counts its
digits.
-/

namespace Ecma

/-- The digits that `hexText` writes. -/
def lowerHexDigits : Text := ascii "0123456789abcdef"

theorem hexText_length (bytes : Bytes) : (hexText bytes).length = 2 * bytes.length := by
  unfold hexText
  induction bytes with
  | nil => rfl
  | cons b bytes ih =>
    rw [List.flatMap_cons, List.length_append, ih, List.length_cons, List.length_cons,
      List.length_cons, List.length_nil]
    omega

theorem hexUnit_mem : ∀ n < 16, hexUnit n ∈ lowerHexDigits := by decide

theorem hexText_mem (bytes : Bytes) : ∀ u ∈ hexText bytes, u ∈ lowerHexDigits := by
  intro u hu
  obtain ⟨b, -, hb⟩ := List.mem_flatMap.mp hu
  have hbyte : b.toNat < 256 := b.toNat_lt
  rcases List.mem_cons.mp hb with rfl | hb
  · exact hexUnit_mem _ (by omega)
  · obtain rfl := List.mem_singleton.mp hb
    exact hexUnit_mem _ (by omega)

theorem hmacSha256_length (key message : Bytes) : (hmacSha256 key message).length = 32 :=
  Sha256.hash_length _

namespace Regex

theorem language_literal (text : Text) : (literal text).Language text := by
  induction text with
  | nil => rfl
  | cons u rest ih =>
    cases rest with
    | nil => exact ⟨u, beq_self_eq_true u, rfl⟩
    | cons v rest => exact ⟨[u], v :: rest, rfl, ⟨u, beq_self_eq_true u, rfl⟩, ih⟩

theorem language_replicate_iff {p : UInt16 → Bool} {count : ℕ} {text : Text} :
    (sequence (List.replicate count (.unit p))).Language text ↔
      (∀ u ∈ text, p u = true) ∧ text.length = count := by
  induction count generalizing text with
  | zero =>
    cases text with
    | nil => simp [sequence, Language]
    | cons u text => simp [sequence, Language]
  | succ count ih =>
    have hseq : (sequence (List.replicate (count + 1) (.unit p))).Language text ↔
        (seq (.unit p) (sequence (List.replicate count (.unit p)))).Language text := by
      cases count with
      | zero => simp [sequence, Language]
      | succ count => rfl
    rw [hseq, Language.eq_4]
    simp only [ih]
    constructor
    · intro h
      obtain ⟨_, b, rfl, ⟨u, hu, rfl⟩, hb, hlength⟩ := h
      exact ⟨List.forall_mem_cons.mpr ⟨hu, hb⟩, by simp [hlength]⟩
    · intro h
      obtain ⟨h, hlength⟩ := h
      cases text with
      | nil => cases hlength
      | cons u text =>
        obtain ⟨hu, htext⟩ := List.forall_mem_cons.mp h
        exact ⟨[u], text, rfl, ⟨u, hu, rfl⟩, htext, Nat.succ.inj hlength⟩

theorem language_replicate {p : UInt16 → Bool} {text : Text} (h : ∀ u ∈ text, p u = true) :
    (sequence (List.replicate text.length (.unit p))).Language text :=
  language_replicate_iff.mpr ⟨h, rfl⟩

end Regex

end Ecma

/-!
## Numbers in hexadecimal digits

`Number.prototype.toString(16)` of a natural number writes its digits without zeros in front.
-/

namespace Ecma

/-- `n.toString(16)`. -/
def hexNumeral (n : ℕ) : Text :=
  if n = 0 then [0x30] else (Nat.digits 16 n).reverse.map hexUnit

/-- `Number.parseInt(digits, 16)` of hexadecimal digits. -/
def parseHex (digits : Text) : ℕ :=
  digits.foldl (fun value u => value * 16 + (digitValue? u).getD 0) 0

def isLowerHex (u : UInt16) : Bool := isDigit u || 0x61 ≤ u && u ≤ 0x66

theorem isLowerHex_hexUnit {d : ℕ} (h : d < 16) : isLowerHex (hexUnit d) = true := by
  interval_cases d <;> rfl

theorem digitValue?_hexUnit {d : ℕ} (h : d < 16) : digitValue? (hexUnit d) = some d := by
  interval_cases d <;> rfl

theorem isSome_digitValue? {u : UInt16} (h : isLowerHex u = true) :
    (digitValue? u).isSome = true := by
  unfold digitValue?
  simp only [isLowerHex, Bool.or_eq_true] at h
  rcases h with h | h
  · rw [if_pos h]
    rfl
  · split
    · rfl
    · rfl

theorem digitValue?_lt {u : UInt16} : (digitValue? u).getD 0 < 16 := by
  unfold digitValue?
  split
  next h =>
    simp only [isDigit, Bool.and_eq_true, decide_eq_true_eq] at h
    have hle : u.toNat ≤ 57 := UInt16.le_iff_toNat_le.mp h.2
    simp only [Option.getD_some, digitOf]
    omega
  next =>
    split
    next h =>
      simp only [Bool.and_eq_true, decide_eq_true_eq] at h
      have hle : u.toNat ≤ 102 := UInt16.le_iff_toNat_le.mp h.2
      simp only [Option.getD_some]
      omega
    next =>
      split
      next h =>
        simp only [Bool.and_eq_true, decide_eq_true_eq] at h
        have hle : u.toNat ≤ 70 := UInt16.le_iff_toNat_le.mp h.2
        simp only [Option.getD_some]
        omega
      next => decide

theorem parseHex_lt (digits : Text) : parseHex digits < 16 ^ digits.length := by
  have hfold (start : ℕ) : digits.foldl (fun value u => value * 16 + (digitValue? u).getD 0) start <
      (start + 1) * 16 ^ digits.length := by
    induction digits generalizing start with
    | nil => simp
    | cons u digits ih =>
      rw [List.foldl_cons, List.length_cons, Nat.pow_succ]
      apply Nat.lt_of_lt_of_le (ih _)
      have hdigit := @digitValue?_lt u
      calc (start * 16 + (digitValue? u).getD 0 + 1) * 16 ^ digits.length
          ≤ ((start + 1) * 16) * 16 ^ digits.length := Nat.mul_le_mul_right _ (by omega)
        _ = (start + 1) * (16 ^ digits.length * 16) := by ring
  simpa [parseHex] using hfold 0

theorem parseHex_hexNumeral (n : ℕ) : parseHex (hexNumeral n) = n := by
  unfold hexNumeral
  split
  next h =>
    subst h
    rfl
  next =>
    rw [parseHex, List.foldl_map, List.foldl_reverse]
    conv_rhs => rw [← Nat.ofDigits_digits 16 n, Nat.ofDigits_eq_foldr]
    apply List.foldr_ext
    intro d hd value
    have hlt : d < 16 := Nat.digits_lt_base (by decide) hd
    rw [digitValue?_hexUnit hlt, Option.getD_some, Nat.cast_id]
    ring

theorem hexNumeral_isLowerHex (n : ℕ) : ∀ u ∈ hexNumeral n, isLowerHex u = true := by
  unfold hexNumeral
  split
  · simp [isLowerHex, isDigit]
  · intro u hu
    obtain ⟨d, hd, rfl⟩ := List.mem_map.mp hu
    exact isLowerHex_hexUnit (Nat.digits_lt_base (by decide) (List.mem_reverse.mp hd))

theorem hexNumeral_ne_nil (n : ℕ) : hexNumeral n ≠ [] := by
  unfold hexNumeral
  split
  · simp
  next h =>
    have hne : Nat.digits 16 n ≠ [] := Nat.digits_ne_nil_iff_ne_zero.mpr h
    intro hnil
    exact hne (List.reverse_eq_nil_iff.mp (List.map_eq_nil_iff.mp hnil))

theorem hexNumeral_head {n : ℕ} (h : (hexNumeral n).head? = some 0x30) : hexNumeral n = [0x30] := by
  unfold hexNumeral at h ⊢
  split
  next => rfl
  next hn =>
    rw [if_neg hn] at h
    exfalso
    have hne : Nat.digits 16 n ≠ [] := Nat.digits_ne_nil_iff_ne_zero.mpr hn
    have hlast := Nat.getLast_digit_ne_zero 16 hn
    have hlt := Nat.digits_lt_base (by decide : 1 < 16) (List.getLast_mem hne)
    rw [← List.dropLast_append_getLast hne, List.reverse_append] at h
    simp only [List.reverse_cons, List.reverse_nil, List.nil_append, List.cons_append,
      List.map_cons, List.head?_cons, Option.some.injEq] at h
    generalize (Nat.digits 16 n).getLast hne = d at h hlast hlt
    interval_cases d <;> simp_all [hexUnit]

theorem length_hexNumeral_le {n k : ℕ} (hk : 0 < k) (h : n < 16 ^ k) :
    (hexNumeral n).length ≤ k := by
  unfold hexNumeral
  split
  next => exact hk
  next hn =>
    rw [List.length_map, List.length_reverse]
    exact (Nat.digits_length_le_iff (by decide) n).mpr h

end Ecma
