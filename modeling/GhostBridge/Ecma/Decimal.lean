import GhostBridge.Ecma.Binary64
import GhostBridge.Ecma.Text
import Mathlib.Data.Nat.Digits.Lemmas

/-!
# Numbers as decimal text

`Number::toString` writes the fewest digits that still round to the number, and among those the
nearest.
-/

namespace Ecma

def digitUnit (d : Nat) : UInt16 := UInt16.ofNat (48 + d)
def isDigit (u : UInt16) : Bool := 48 ≤ u && u ≤ 57
def digitOf (u : UInt16) : Nat := u.toNat - 48

def decimalDigits (n : Nat) : Text :=
  if n = 0 then [48] else (Nat.digits 10 n).reverse.map digitUnit

def digitsValue (ds : Text) : Nat := ds.foldl (fun acc u => acc * 10 + digitOf u) 0

theorem digitOf_digitUnit {d : Nat} (h : d < 10) : digitOf (digitUnit d) = d := by
  interval_cases d <;> rfl

theorem isDigit_digitUnit {d : Nat} (h : d < 10) : isDigit (digitUnit d) = true := by
  interval_cases d <;> rfl

theorem digitsValue_append (as bs : Text) :
    digitsValue (as ++ bs) = digitsValue as * 10 ^ bs.length + digitsValue bs := by
  have shift (start : Nat) (ds : Text) :
      ds.foldl (fun acc u => acc * 10 + digitOf u) start =
        start * 10 ^ ds.length + digitsValue ds := by
    induction ds generalizing start with
    | nil => simp [digitsValue]
    | cons d ds ih =>
      simp only [digitsValue, List.foldl_cons, List.length_cons]
      rw [ih (start * 10 + digitOf d), ih (0 * 10 + digitOf d)]
      ring
  rw [digitsValue, List.foldl_append]
  exact shift _ _

theorem digitsValue_zeros (n : Nat) : digitsValue (List.replicate n 48) = 0 := by
  induction n with
  | zero => rfl
  | succ n ih =>
    rw [List.replicate_succ, ← List.singleton_append, digitsValue_append, ih]
    simp [digitsValue, digitOf]

theorem digitsValue_decimalDigits (n : Nat) : digitsValue (decimalDigits n) = n := by
  unfold decimalDigits
  split
  · next h => subst h; rfl
  · rw [digitsValue, List.foldl_map, List.foldl_reverse]
    conv_rhs => rw [← Nat.ofDigits_digits 10 n, Nat.ofDigits_eq_foldr]
    apply List.foldr_ext
    intro d hd acc
    rw [digitOf_digitUnit (Nat.digits_lt_base (by decide) hd), Nat.cast_id]
    ring

theorem decimalDigits_isDigit (n : Nat) : ∀ u ∈ decimalDigits n, isDigit u = true := by
  unfold decimalDigits
  split
  · simp [isDigit]
  · intro u hu
    obtain ⟨d, hd, rfl⟩ := List.mem_map.mp hu
    exact isDigit_digitUnit (Nat.digits_lt_base (by decide) (List.mem_reverse.mp hd))

theorem digits_ascii (n : Nat) : ∀ u ∈ decimalDigits n, u < 0x80 := by
  intro u hu
  have hd := decimalDigits_isDigit n u hu
  simp only [isDigit, Bool.and_eq_true, decide_eq_true_eq] at hd
  exact UInt16.lt_of_le_of_lt hd.2 (by decide)

theorem decimalDigits_head {n : Nat} (hn : 0 < n) :
    ∃ u us, decimalDigits n = u :: us ∧ u ≠ 48 := by
  have hne : Nat.digits 10 n ≠ [] := Nat.digits_ne_nil_iff_ne_zero.mpr hn.ne'
  have hlast := Nat.getLast_digit_ne_zero 10 hn.ne'
  rw [decimalDigits, if_neg hn.ne', ← List.dropLast_append_getLast hne, List.reverse_append]
  refine ⟨_, _, rfl, ?_⟩
  have hlt := Nat.digits_lt_base (by decide : 1 < 10) (List.getLast_mem hne)
  generalize (Nat.digits 10 n).getLast hne = d at hlast hlt
  interval_cases d <;> simp_all [digitUnit]

theorem decimalDigits_ne_nil (n : Nat) : decimalDigits n ≠ [] := by
  rcases Nat.eq_zero_or_pos n with rfl | hn
  · simp [decimalDigits]
  · obtain ⟨u, us, h, _⟩ := decimalDigits_head hn
    simp [h]

/-- A decimal `significand * 10 ^ exponent`; a significand of ten is written as one. -/
def carried (significand : Nat) (exponent : Int) : Nat × Int :=
  if significand = 10 then (1, exponent + 1) else (significand, exponent)

def roundsTo (x : Finite64) (candidate : Nat × Int) : Bool :=
  Number.ofDecimal x.negative candidate.1 candidate.2 == .finite x

/-- `exact * 10 ^ -1074` is the magnitude of `x`. Drop as many of its low digits as still
leave a decimal that rounds to `x`, trying the largest number of dropped digits first. -/
def shortestFrom (x : Finite64) (exact : Nat) : Nat → Nat × Int
  | 0 => (exact, -1074)
  | dropped + 1 =>
    let step := 10 ^ (dropped + 1)
    let exponent : Int := (dropped + 1 : Int) - 1074
    let low := carried (exact / step) exponent
    let high := carried (exact / step + 1) exponent
    let rest := exact % step
    let lowNearer := 2 * rest < step || (2 * rest == step && exact / step % 2 == 0)
    if roundsTo x low && (lowNearer || !roundsTo x high) then low
    else if roundsTo x high then high
    else shortestFrom x exact dropped

def shortest (x : Finite64) : Nat × Int :=
  let exact := x.units * 5 ^ 1074
  shortestFrom x exact ((decimalDigits exact).length - 1)

/-- Digits `ds` with the decimal point after position `n`. -/
def layout (ds : Text) (n : Int) : Text :=
  if ds.length ≤ n ∧ n ≤ 21 then ds ++ List.replicate (n.toNat - ds.length) 48
  else if 0 < n ∧ n ≤ 21 then ds.take n.toNat ++ 0x2e :: ds.drop n.toNat
  else if -6 < n ∧ n ≤ 0 then 48 :: 0x2e :: (List.replicate (-n).toNat 48 ++ ds)
  else
    let e := n - 1
    let exponent := 0x65 :: (if 0 ≤ e then 0x2b else 0x2d) :: decimalDigits e.natAbs
    if ds.length = 1 then ds ++ exponent
    else ds.take 1 ++ 0x2e :: (ds.drop 1 ++ exponent)

/-- `Number::toString` of a finite number. -/
def Finite64.toText (x : Finite64) : Text :=
  if x.isZero then [48]
  else
    (if x.negative then [0x2d] else []) ++
      layout (decimalDigits (shortest x).1)
        ((decimalDigits (shortest x).1).length + (shortest x).2)

@[simp] theorem Finite64.toText_unsignedZero (x : Finite64) :
    x.unsignedZero.toText = x.toText := by
  unfold Finite64.unsignedZero
  split
  · next hz => rw [Finite64.toText, Finite64.toText, if_pos hz]; rfl
  · rfl

theorem shortestFrom_roundsTo (x : Finite64) {exact : Nat} (dropped : Nat)
    (h : roundsTo x (exact, -1074) = true) :
    roundsTo x (shortestFrom x exact dropped) = true := by
  induction dropped with
  | zero => exact h
  | succ dropped ih =>
    simp only [shortestFrom]
    split
    · next hc => exact (Bool.and_eq_true_iff.mp hc).1
    · split
      · next hc => exact hc
      · exact ih

private theorem ten_pow_eq (n : Nat) : 10 ^ n = 5 ^ n * 2 ^ n := by
  rw [← Nat.mul_pow]

theorem exact_roundsTo (x : Finite64) : roundsTo x (x.units * 5 ^ 1074, -1074) = true := by
  rcases x with ⟨negative, units, hrep⟩
  have hround : roundUnits (units * 5 ^ 1074 * unitsPerOne) (10 ^ 1074) = units := by
    rw [unitsPerOne, Nat.mul_assoc, ← ten_pow_eq]
    exact roundUnits_mul hrep (by positivity)
  have hexp : (-1074 : Int).toNat = 0 := rfl
  have hneg : (-(-1074 : Int)).toNat = 1074 := rfl
  simp only [roundsTo, Number.ofDecimal, hexp, hneg, Nat.pow_zero, Nat.mul_one, hround,
    Number.ofUnits, dif_pos hrep, beq_self_eq_true]

theorem ofDecimal_shortest (x : Finite64) :
    Number.ofDecimal x.negative (shortest x).1 (shortest x).2 = .finite x := by
  have h := shortestFrom_roundsTo x
    ((decimalDigits (x.units * 5 ^ 1074)).length - 1) (exact_roundsTo x)
  exact eq_of_beq h

def scanFraction : Text → Option (Text × Text)
  | 0x2e :: rest =>
    let ds := rest.takeWhile isDigit
    if ds.isEmpty then none else some (ds, rest.dropWhile isDigit)
  | rest => some ([], rest)

def scanExponentDigits (negative : Bool) (rest : Text) : Option (Int × Text) :=
  let ds := rest.takeWhile isDigit
  if ds.isEmpty then none
  else some (if negative then -(digitsValue ds : Int) else digitsValue ds, rest.dropWhile isDigit)

def scanExponent : Text → Option (Int × Text)
  | u :: rest =>
    if u = 0x65 ∨ u = 0x45 then
      match rest with
      | 0x2b :: rest => scanExponentDigits false rest
      | 0x2d :: rest => scanExponentDigits true rest
      | rest => scanExponentDigits false rest
    else some (0, u :: rest)
  | [] => some (0, [])

def scanWhole : Text → Option (Text × Text)
  | 48 :: rest => some ([48], rest)
  | rest =>
    let ds := rest.takeWhile isDigit
    if ds.isEmpty then none else some (ds, rest.dropWhile isDigit)

def scanUnsigned (negative : Bool) (text : Text) : Option (Number × Text) := do
  let (whole, rest) ← scanWhole text
  let (fraction, rest) ← scanFraction rest
  let (exponent, rest) ← scanExponent rest
  pure (.ofDecimal negative (digitsValue (whole ++ fraction)) (exponent - fraction.length), rest)

def scanNumber : Text → Option (Number × Text)
  | 0x2d :: rest => scanUnsigned true rest
  | text => scanUnsigned false text

/-- Text after which a number cannot be continued. -/
def EndsNumber (rest : Text) : Prop :=
  ∀ u, rest.head? = some u → isDigit u = false ∧ u ≠ 0x2e ∧ u ≠ 0x65 ∧ u ≠ 0x45

theorem takeWhile_digits {ds rest : Text} (hds : ∀ u ∈ ds, isDigit u = true)
    (hrest : ∀ u, rest.head? = some u → isDigit u = false) :
    (ds ++ rest).takeWhile isDigit = ds ∧ (ds ++ rest).dropWhile isDigit = rest := by
  rw [List.takeWhile_append_of_pos hds, List.dropWhile_append_of_pos hds]
  cases rest with
  | nil => simp
  | cons u us => simp [hrest u rfl]

theorem scanExponent_end {rest : Text} (h : EndsNumber rest) :
    scanExponent rest = some (0, rest) := by
  cases rest with
  | nil => rfl
  | cons u us =>
    have hu := h u rfl
    simp [scanExponent, hu.2.2.1, hu.2.2.2]

theorem scanFraction_absent {rest : Text} (h : ∀ u, rest.head? = some u → u ≠ 0x2e) :
    scanFraction rest = some ([], rest) := by
  unfold scanFraction
  split
  · next us => exact absurd rfl (h 0x2e rfl)
  · rfl

theorem scanFraction_digits {ds : Text} (rest : Text) (hne : ds ≠ [])
    (hds : ∀ u ∈ ds, isDigit u = true) (hrest : ∀ u, rest.head? = some u → isDigit u = false) :
    scanFraction (0x2e :: (ds ++ rest)) = some (ds, rest) := by
  obtain ⟨ht, hd⟩ := takeWhile_digits hds hrest
  simp [scanFraction, ht, hd, hne]

theorem scanWhole_digits {ds : Text} (rest : Text) (hne : ds ≠ []) (hhead : ds.head? ≠ some 48)
    (hds : ∀ u ∈ ds, isDigit u = true) (hrest : ∀ u, rest.head? = some u → isDigit u = false) :
    scanWhole (ds ++ rest) = some (ds, rest) := by
  obtain ⟨ht, hd⟩ := takeWhile_digits hds hrest
  unfold scanWhole
  split
  · next us he =>
    cases ds with
    | nil => exact absurd rfl hne
    | cons u us => simp_all
  · simp [ht, hd, hne]

theorem scanExponent_written {e : Int} {rest : Text} (h : EndsNumber rest) :
    scanExponent (0x65 :: (if 0 ≤ e then 0x2b else 0x2d) :: (decimalDigits e.natAbs ++ rest)) =
      some (e, rest) := by
  obtain ⟨ht, hd⟩ := takeWhile_digits (decimalDigits_isDigit e.natAbs) (fun u hu => (h u hu).1)
  have hne := decimalDigits_ne_nil e.natAbs
  by_cases he : 0 ≤ e
  · simp only [scanExponent, he, if_true, true_or, scanExponentDigits, ht, hd,
      digitsValue_decimalDigits, List.isEmpty_iff, hne, if_false, Bool.false_eq_true,
      Option.some.injEq, Prod.mk.injEq, and_true]
    omega
  · simp only [scanExponent, he, if_true, if_false, true_or, scanExponentDigits, ht, hd,
      digitsValue_decimalDigits, List.isEmpty_iff, hne, Option.some.injEq, Prod.mk.injEq,
      and_true]
    omega

private theorem scanUnsigned_of_parts {negative : Bool} {text r₁ r₂ r₃ whole fraction : Text}
    {exponent : Int} (hw : scanWhole text = some (whole, r₁))
    (hf : scanFraction r₁ = some (fraction, r₂)) (he : scanExponent r₂ = some (exponent, r₃)) :
    scanUnsigned negative text =
      some (.ofDecimal negative (digitsValue (whole ++ fraction))
        (exponent - fraction.length), r₃) := by
  simp [scanUnsigned, hw, hf, he]

theorem scanUnsigned_layout (negative : Bool) {significand : Nat} (n : Int) {rest : Text}
    (hpos : 0 < significand) (hrest : EndsNumber rest) :
    scanUnsigned negative (layout (decimalDigits significand) n ++ rest) =
      some (.ofDecimal negative significand (n - (decimalDigits significand).length), rest) := by
  have hvalue := digitsValue_decimalDigits significand
  have hdigit := decimalDigits_isDigit significand
  obtain ⟨u, us, hds, hu⟩ := decimalDigits_head hpos
  generalize decimalDigits significand = ds at *
  have hhead : ds.head? ≠ some 48 := by simp [hds, hu]
  have hne : ds ≠ [] := by simp [hds]
  have hlen : 0 < ds.length := List.length_pos_iff.mpr hne
  have hnodot : ∀ v, rest.head? = some v → v ≠ 0x2e := fun v hv => (hrest v hv).2.1
  have hnodigit : ∀ v, rest.head? = some v → isDigit v = false := fun v hv => (hrest v hv).1
  have hpoint (tail : Text) : ∀ v, ((0x2e : UInt16) :: tail).head? = some v → isDigit v = false := by
    rintro v ⟨⟩
    rfl
  have hletter (tail : Text) : ∀ v, ((0x65 : UInt16) :: tail).head? = some v →
      isDigit v = false ∧ v ≠ 0x2e := by
    rintro v ⟨⟩
    exact ⟨rfl, by decide⟩
  unfold layout
  split
  · -- the digits padded with zeros: the padding is the exponent
    next hc =>
    have hzeros : ∀ v ∈ ds ++ List.replicate (n.toNat - ds.length) 48, isDigit v = true := by
      intro v hv
      rcases List.mem_append.mp hv with hv | hv
      · exact hdigit v hv
      · rw [List.eq_of_mem_replicate hv]
        rfl
    have hw := scanWhole_digits rest
      (List.append_ne_nil_of_left_ne_nil hne (List.replicate (n.toNat - ds.length) 48))
      (by simp [hds, hu]) hzeros hnodigit
    rw [scanUnsigned_of_parts hw (scanFraction_absent hnodot) (scanExponent_end hrest),
      List.append_nil, digitsValue_append, digitsValue_zeros, hvalue, List.length_replicate,
      Nat.add_zero]
    have hm : n - ds.length = ((n.toNat - ds.length : Nat) : Int) := by omega
    rw [hm, ← Number.ofDecimal_shift, List.length_nil]
    rfl
  · split
    · -- the point falls inside the digits
      next hc hc' =>
      have hlt : n.toNat < ds.length := by omega
      have hsplit : ds.take n.toNat ++ ds.drop n.toNat = ds := List.take_append_drop _ _
      have hw : scanWhole (ds.take n.toNat ++ 0x2e :: (ds.drop n.toNat ++ rest)) =
          some (ds.take n.toNat, 0x2e :: (ds.drop n.toNat ++ rest)) := by
        apply scanWhole_digits
        · simp [hne]
          omega
        · rw [List.head?_take, if_neg (by omega)]
          exact hhead
        · exact fun v hv => hdigit v (List.mem_of_mem_take hv)
        · exact hpoint _
      have hdrop : ds.drop n.toNat ≠ [] := by
        simp only [ne_eq, List.drop_eq_nil_iff]
        omega
      have hf := scanFraction_digits rest hdrop (fun v hv => hdigit v (List.mem_of_mem_drop hv)) hnodigit
      rw [List.append_assoc, List.cons_append,
        scanUnsigned_of_parts hw hf (scanExponent_end hrest), hsplit, hvalue, List.length_drop]
      congr 3
      omega
    · split
      · -- zeros stand between the point and the digits
        next hc hc' hc'' =>
        have hzeros : ∀ v ∈ List.replicate (-n).toNat 48 ++ ds, isDigit v = true := by
          intro v hv
          rcases List.mem_append.mp hv with hv | hv
          · rw [List.eq_of_mem_replicate hv]
            rfl
          · exact hdigit v hv
        have hf := scanFraction_digits rest
          (List.append_ne_nil_of_right_ne_nil (List.replicate (-n).toNat 48) hne) hzeros hnodigit
        rw [List.cons_append, List.cons_append,
          scanUnsigned_of_parts rfl hf (scanExponent_end hrest), ← List.append_assoc,
          digitsValue_append, ← List.replicate_one, ← List.replicate_add, digitsValue_zeros,
          hvalue, List.length_append, List.length_replicate, Nat.zero_mul, Nat.zero_add]
        congr 3
        omega
      · -- scientific notation
        have hexp := scanExponent_written (e := n - 1) hrest
        split
        · next hone =>
          have hw := scanWhole_digits (0x65 :: (if 0 ≤ n - 1 then 0x2b else 0x2d) ::
            (decimalDigits (n - 1).natAbs ++ rest)) hne hhead hdigit
            (fun v hv => (hletter _ v hv).1)
          simp only [List.append_assoc, List.cons_append]
          rw [scanUnsigned_of_parts hw (scanFraction_absent (fun v hv => (hletter _ v hv).2)) hexp,
            List.append_nil, hvalue, hone]
          congr 3
          simp
        · next hone =>
          have hdrop : ds.drop 1 ≠ [] := by
            simp only [ne_eq, List.drop_eq_nil_iff]
            omega
          have htake : ds.take 1 ≠ [] := by simp [hne]
          have hw := scanWhole_digits (0x2e :: (ds.drop 1 ++ 0x65 ::
            (if 0 ≤ n - 1 then 0x2b else 0x2d) :: (decimalDigits (n - 1).natAbs ++ rest)))
            htake (by rw [List.head?_take, if_neg (by decide)]; exact hhead)
            (fun v hv => hdigit v (List.mem_of_mem_take hv)) (hpoint _)
          have hf := scanFraction_digits (0x65 ::
            (if 0 ≤ n - 1 then 0x2b else 0x2d) :: (decimalDigits (n - 1).natAbs ++ rest))
            hdrop (fun v hv => hdigit v (List.mem_of_mem_drop hv))
            (fun v hv => (hletter _ v hv).1)
          simp only [List.append_assoc, List.cons_append]
          rw [scanUnsigned_of_parts hw hf hexp, List.take_append_drop, hvalue, List.length_drop]
          congr 3
          omega

theorem shortest_pos {x : Finite64} (hx : x.isZero = false) : 0 < (shortest x).1 := by
  rcases Nat.eq_zero_or_pos (shortest x).1 with h | h
  · have hs := ofDecimal_shortest x
    rw [h, Number.ofDecimal_zero, Number.finite.injEq] at hs
    have hu : x.units = 0 := (congrArg Finite64.units hs).symm
    simp [Finite64.isZero, hu] at hx
  · exact h

theorem scanNumber_unsigned {text : Text} (h : ∀ u, text.head? = some u → u ≠ 0x2d) :
    scanNumber text = scanUnsigned false text := by
  unfold scanNumber
  split
  · next rest => exact absurd rfl (h 0x2d rfl)
  · rfl

theorem layout_head {ds : Text} (n : Int) (hne : ds ≠ []) (hds : ∀ u ∈ ds, isDigit u = true) :
    ∃ u us, layout ds n = u :: us ∧ isDigit u = true := by
  obtain ⟨d, ds, rfl⟩ := List.exists_cons_of_ne_nil hne
  have hd := hds d List.mem_cons_self
  unfold layout
  split
  · exact ⟨d, _, rfl, hd⟩
  · split
    · next h =>
      obtain ⟨m, hm⟩ := Nat.exists_eq_succ_of_ne_zero (show n.toNat ≠ 0 by omega)
      rw [hm]
      exact ⟨d, _, rfl, hd⟩
    · split
      · exact ⟨48, _, rfl, rfl⟩
      · split <;> exact ⟨d, _, rfl, hd⟩

private theorem layout_ascii {ds : Text} (n : Int) (hds : ∀ u ∈ ds, u < 0x80) :
    ∀ u ∈ layout ds n, u < 0x80 := by
  have hexp : ∀ u ∈ decimalDigits (n - 1).natAbs, u < 0x80 := digits_ascii _
  intro u hu
  unfold layout at hu
  split at hu
  · rcases List.mem_append.mp hu with hu | hu
    · exact hds u hu
    · rw [List.eq_of_mem_replicate hu]
      decide
  split at hu
  · rcases List.mem_append.mp hu with hu | hu
    · exact hds u (List.mem_of_mem_take hu)
    · rcases List.mem_cons.mp hu with rfl | hu
      · decide
      · exact hds u (List.mem_of_mem_drop hu)
  split at hu
  · simp only [List.mem_cons, List.mem_append] at hu
    rcases hu with rfl | rfl | hu | hu
    · decide
    · decide
    · rw [List.eq_of_mem_replicate hu]
      decide
    · exact hds u hu
  have hexponent : ∀ u ∈ 0x65 :: (if 0 ≤ n - 1 then 0x2b else 0x2d) ::
      decimalDigits (n - 1).natAbs, u < 0x80 := by
    simp only [List.forall_mem_cons]
    exact ⟨by decide, by split <;> decide, hexp⟩
  split at hu
  · rcases List.mem_append.mp hu with hu | hu
    · exact hds u hu
    · exact hexponent u hu
  · rcases List.mem_append.mp hu with hu | hu
    · exact hds u (List.mem_of_mem_take hu)
    · rcases List.mem_cons.mp hu with rfl | hu
      · decide
      · rcases List.mem_append.mp hu with hu | hu
        · exact hds u (List.mem_of_mem_drop hu)
        · exact hexponent u hu

theorem toText_ascii (x : Finite64) : ∀ u ∈ x.toText, u < 0x80 := by
  have hlayout := layout_ascii ((decimalDigits (shortest x).1).length + (shortest x).2)
    (digits_ascii (shortest x).1)
  intro u hu
  rw [Finite64.toText] at hu
  generalize layout _ _ = written at hlayout hu
  split at hu
  · rw [List.mem_singleton.mp hu]
    decide
  · rcases List.mem_append.mp hu with hu | hu
    · split at hu
      · rw [List.mem_singleton.mp hu]
        decide
      · exact absurd hu List.not_mem_nil
    · exact hlayout u hu

theorem scanNumber_toText (x : Finite64) {rest : Text} (hrest : EndsNumber rest) :
    scanNumber (x.toText ++ rest) = some (.finite x.unsignedZero, rest) := by
  by_cases hx : x.isZero = true
  · rw [Finite64.toText, if_pos hx, Finite64.unsignedZero, if_pos hx,
      scanNumber_unsigned (by rintro u ⟨⟩; decide), List.singleton_append,
      scanUnsigned_of_parts (show scanWhole (48 :: rest) = some ([48], rest) from rfl)
        (scanFraction_absent (fun v hv => (hrest v hv).2.1)) (scanExponent_end hrest)]
    have hvalue : digitsValue ([48] ++ []) = 0 := rfl
    rw [hvalue, Number.ofDecimal_zero]
  · have hlayout := scanUnsigned_layout x.negative
      ((decimalDigits (shortest x).1).length + (shortest x).2)
      (shortest_pos (Bool.eq_false_iff.mpr hx)) hrest
    obtain ⟨u, us, hhead, hu⟩ :=
      layout_head ((decimalDigits (shortest x).1).length + (shortest x).2)
        (decimalDigits_ne_nil _) (decimalDigits_isDigit (shortest x).1)
    rw [add_sub_cancel_left, ofDecimal_shortest] at hlayout
    rw [Finite64.toText, if_neg hx, Finite64.unsignedZero, if_neg hx]
    generalize layout _ _ = written at hlayout hhead ⊢
    rcases Bool.eq_false_or_eq_true x.negative with hn | hn
    · rw [hn] at hlayout
      rw [if_pos hn, List.append_assoc, List.singleton_append]
      exact hlayout
    · rw [hn] at hlayout
      rw [if_neg (by simp [hn]), List.nil_append, scanNumber_unsigned]
      · exact hlayout
      · rw [hhead]
        rintro v ⟨⟩ rfl
        exact absurd hu (by decide)

end Ecma

/-!
## Runs of decimal digits

Zeros in front do not change the value of a run, zeros at its end are powers of ten, and runs of
one length are ordered as texts like their values.
-/

namespace Ecma

def AreDigits (ds : Text) : Prop := ∀ u ∈ ds, isDigit u = true

variable {ds : Text}

theorem AreDigits.tail {u : UInt16} (h : AreDigits (u :: ds)) : AreDigits ds :=
  fun v hv => h v (List.mem_cons_of_mem u hv)

theorem digitOf_lt {u : UInt16} (h : isDigit u = true) : digitOf u < 10 := by
  simp only [isDigit, Bool.and_eq_true, decide_eq_true_eq] at h
  have hle : u.toNat ≤ 57 := UInt16.le_iff_toNat_le.mp h.2
  simp only [digitOf]
  omega

theorem digitOf_eq_zero {u : UInt16} (h : isDigit u = true) : digitOf u = 0 ↔ u = 48 := by
  simp only [isDigit, Bool.and_eq_true, decide_eq_true_eq] at h
  have hge : 48 ≤ u.toNat := UInt16.le_iff_toNat_le.mp h.1
  rw [← UInt16.toNat_inj]
  show u.toNat - 48 = 0 ↔ u.toNat = 48
  omega

theorem digitsValue_cons (u : UInt16) (ds : Text) :
    digitsValue (u :: ds) = digitOf u * 10 ^ ds.length + digitsValue ds := by
  rw [← List.singleton_append, digitsValue_append]
  simp [digitsValue]

theorem digitsValue_lt (h : AreDigits ds) : digitsValue ds < 10 ^ ds.length := by
  induction ds with
  | nil => decide
  | cons u ds ih =>
    have hdigit := digitOf_lt (h u List.mem_cons_self)
    have hrest := ih h.tail
    rw [digitsValue_cons, List.length_cons, Nat.pow_succ]
    have hmul : digitOf u * 10 ^ ds.length ≤ 9 * 10 ^ ds.length :=
      Nat.mul_le_mul_right _ (by omega)
    omega

theorem digitsValue_eq_zero_iff (h : AreDigits ds) : digitsValue ds = 0 ↔ ∀ u ∈ ds, u = 48 := by
  induction ds with
  | nil => simp [digitsValue]
  | cons u ds ih =>
    rw [digitsValue_cons, Nat.add_eq_zero_iff, Nat.mul_eq_zero, ih h.tail,
      digitOf_eq_zero (h u List.mem_cons_self)]
    simp

theorem digitsValue_dropZeros (ds : Text) :
    digitsValue (ds.dropWhile (· == 48)) = digitsValue ds := by
  induction ds with
  | nil => rfl
  | cons u ds ih =>
    by_cases hzero : u = 48
    · subst hzero
      rw [List.dropWhile_cons_of_pos rfl, ih, digitsValue_cons]
      simp [digitOf]
    · rw [List.dropWhile_cons_of_neg (by simpa using hzero)]

theorem pow_le_digitsValue {u : UInt16} (h : AreDigits (u :: ds)) (hu : u ≠ 48) :
    10 ^ ds.length ≤ digitsValue (u :: ds) := by
  have hdigit : digitOf u ≠ 0 := by
    rw [ne_eq, digitOf_eq_zero (h u List.mem_cons_self)]
    exact hu
  rw [digitsValue_cons]
  have hmul : 1 * 10 ^ ds.length ≤ digitOf u * 10 ^ ds.length :=
    Nat.mul_le_mul_right _ (by omega)
  omega

theorem digitsValue_append_zeros (ds : Text) (k : ℕ) :
    digitsValue (ds ++ List.replicate k 48) = digitsValue ds * 10 ^ k := by
  rw [digitsValue_append, digitsValue_zeros, List.length_replicate, Nat.add_zero]

theorem zeros_isSuffixOf_iff (h : AreDigits ds) {k : ℕ} (hk : k ≤ ds.length) :
    (List.replicate k 48).isSuffixOf ds = true ↔ 10 ^ k ∣ digitsValue ds := by
  rw [List.isSuffixOf_iff_suffix]
  constructor
  · rintro ⟨front, rfl⟩
    rw [digitsValue_append_zeros]
    exact Nat.dvd_mul_left _ _
  · intro hdvd
    have hsplit : ds = ds.take (ds.length - k) ++ ds.drop (ds.length - k) :=
      (List.take_append_drop _ ds).symm
    have hlength : (ds.drop (ds.length - k)).length = k := by
      rw [List.length_drop]
      omega
    have hbehind : AreDigits (ds.drop (ds.length - k)) := fun u hu => h u (List.mem_of_mem_drop hu)
    have hlt := digitsValue_lt hbehind
    rw [hsplit, digitsValue_append, hlength, Nat.dvd_add_right (Nat.dvd_mul_left _ _)] at hdvd
    rw [hlength] at hlt
    have hzero := (digitsValue_eq_zero_iff hbehind).mp (Nat.eq_zero_of_dvd_of_lt hdvd hlt)
    have hzeros : ds.drop (ds.length - k) = List.replicate k 48 :=
      List.eq_replicate_iff.mpr ⟨hlength, hzero⟩
    rw [hzeros] at hsplit
    exact ⟨ds.take (ds.length - k), hsplit.symm⟩

theorem digitsValue_take {k : ℕ} (h : AreDigits ds) (hk : k ≤ ds.length) :
    digitsValue (ds.take (ds.length - k)) = digitsValue ds / 10 ^ k := by
  have hsplit : ds = ds.take (ds.length - k) ++ ds.drop (ds.length - k) :=
    (List.take_append_drop _ ds).symm
  have hlength : (ds.drop (ds.length - k)).length = k := by
    rw [List.length_drop]
    omega
  have hbehind : AreDigits (ds.drop (ds.length - k)) := fun u hu => h u (List.mem_of_mem_drop hu)
  have hlt := digitsValue_lt hbehind
  rw [hlength] at hlt
  conv_rhs => rw [hsplit, digitsValue_append, hlength, Nat.mul_comm]
  rw [Nat.mul_add_div (by positivity), Nat.div_eq_of_lt hlt, Nat.add_zero]

theorem digitOf_lt_digitOf {u v : UInt16} (hu : isDigit u = true) (hlt : u < v) :
    digitOf u < digitOf v := by
  simp only [isDigit, Bool.and_eq_true, decide_eq_true_eq] at hu
  have hge : 48 ≤ u.toNat := UInt16.le_iff_toNat_le.mp hu.1
  have hlt' : u.toNat < v.toNat := UInt16.lt_iff_toNat_lt.mp hlt
  simp only [digitOf]
  omega

private theorem digitsValue_lt_of_head {u v : UInt16} {as bs : Text} (ha : AreDigits (u :: as))
    (hlength : as.length = bs.length) (hlt : u < v) :
    digitsValue (u :: as) < digitsValue (v :: bs) := by
  have hdigit := digitOf_lt_digitOf (ha u List.mem_cons_self) hlt
  have hbound := digitsValue_lt ha.tail
  rw [digitsValue_cons, digitsValue_cons, ← hlength]
  have hmul : (digitOf u + 1) * 10 ^ as.length ≤ digitOf v * 10 ^ as.length :=
    Nat.mul_le_mul_right _ hdigit
  rw [Nat.add_mul, Nat.one_mul] at hmul
  omega

theorem le_iff_digitsValue_le {as bs : Text} (ha : AreDigits as) (hb : AreDigits bs)
    (hlength : as.length = bs.length) :
    Text.le as bs = true ↔ digitsValue as ≤ digitsValue bs := by
  induction as generalizing bs with
  | nil => simp [Text.le, digitsValue]
  | cons u as ih =>
    cases bs with
    | nil => cases hlength
    | cons v bs =>
      have htails : as.length = bs.length := Nat.succ.inj hlength
      simp only [Text.le, Bool.or_eq_true, decide_eq_true_eq, Bool.and_eq_true, beq_iff_eq]
      by_cases hlt : u < v
      · have hvalue := digitsValue_lt_of_head ha htails hlt
        simp [hlt, hvalue.le]
      · by_cases heq : u = v
        · subst heq
          rw [ih ha.tail hb.tail htails, digitsValue_cons, digitsValue_cons, htails]
          simp
        · have hgt : v < u := (UInt16.lt_or_lt_of_ne heq).resolve_left hlt
          have hvalue := digitsValue_lt_of_head hb htails.symm hgt
          simp [hlt, heq, hvalue]

end Ecma
