import CBasics.PortableFloat.Basic
import Mathlib.Data.Sign.Basic
import Mathlib.Tactic.Linarith

/-! What comes back from a float that was encoded. The word is a sign and a
magnitude in units of 2^-16, and a word that was decoded encodes to itself
unless it is a negative zero. -/

set_option autoImplicit false

namespace CBasics.PortableFloat

open Library

def encoded (negative : Bool) (magnitude : Nat) : BitVec 32 :=
  .ofNat 32 (2 ^ 31 * negative.toNat + magnitude)

section Fields

variable {negative : Bool} {magnitude : Nat}

theorem toNat_encoded (small : magnitude < 2 ^ 31) :
    (encoded negative magnitude).toNat = 2 ^ 31 * negative.toNat + magnitude := by
  have sign := negative.toNat_le
  rw [encoded, BitVec.toNat_ofNat, Nat.mod_eq_of_lt (by omega)]

theorem toNat_mask (word : BitVec 32) (bits : Nat) {mask : BitVec 32}
    (maskEq : mask.toNat = 2 ^ bits - 1) : (word &&& mask).toNat = word.toNat % 2 ^ bits := by
  rw [BitVec.toNat_and, maskEq, Nat.and_two_pow_sub_one_eq_mod]

theorem fields_eq_encoded {whole fraction : Nat} {sign : BitVec 32}
    (signEq : sign = if negative then 1 else 0) (wholeFits : whole < 2 ^ 15)
    (fractionFits : fraction < 2 ^ 16) :
    ((BitVec.ofNat 32 whole &&& 0x7fff) <<< 16 ||| sign <<< 31) |||
        (BitVec.ofNat 32 fraction &&& 0xffff) =
      encoded negative (2 ^ 16 * whole + fraction) := by
  have wholeField : ((BitVec.ofNat 32 whole &&& 0x7fff) <<< 16).toNat = 2 ^ 16 * whole := by
    rw [BitVec.toNat_shiftLeft, toNat_mask _ 15 rfl, BitVec.toNat_ofNat, Nat.shiftLeft_eq]
    omega
  have signField : (sign <<< 31).toNat = 2 ^ 31 * negative.toNat := by
    rw [signEq]
    cases negative with
    | false => rfl
    | true => rfl
  have fractionField : (BitVec.ofNat 32 fraction &&& 0xffff).toNat = fraction := by
    rw [toNat_mask _ 16 rfl, BitVec.toNat_ofNat]
    omega
  have upper : 2 ^ 31 * negative.toNat + 2 ^ 16 * whole =
      2 ^ 16 * (2 ^ 15 * negative.toNat + whole) := by omega
  apply BitVec.eq_of_toNat_eq
  rw [toNat_encoded (by omega), BitVec.toNat_or, BitVec.toNat_or, wholeField, signField,
    fractionField, Nat.or_comm (2 ^ 16 * whole), ← Nat.two_pow_add_eq_or_of_lt (by omega), upper,
    ← Nat.two_pow_add_eq_or_of_lt fractionFits]
  omega

theorem whole_encoded (small : magnitude < 2 ^ 31) :
    ((encoded negative magnitude >>> 16) &&& 0x7fff).toNat = magnitude / 2 ^ 16 := by
  rw [toNat_mask _ 15 rfl, BitVec.toNat_ushiftRight, toNat_encoded small, Nat.shiftRight_eq_div_pow]
  omega

theorem fraction_encoded (small : magnitude < 2 ^ 31) :
    (encoded negative magnitude &&& 0xffff).toNat = magnitude % 2 ^ 16 := by
  rw [toNat_mask _ 16 rfl, toNat_encoded small]
  omega

theorem sign_encoded (small : magnitude < 2 ^ 31) :
    (encoded negative magnitude >>> 31) &&& 0x1 ≠ 0 ↔ negative = true := by
  have sign : ((encoded negative magnitude >>> 31) &&& 0x1).toNat = negative.toNat := by
    have bit := negative.toNat_le
    rw [toNat_mask _ 1 rfl, BitVec.toNat_ushiftRight, toNat_encoded small,
      Nat.shiftRight_eq_div_pow]
    omega
  rw [ne_eq, ← BitVec.toNat_inj, sign]
  cases negative with
  | false => decide
  | true => decide

theorem encoded_inj {other : Bool} (small : magnitude < 2 ^ 31) :
    encoded negative magnitude = encoded other magnitude ↔ negative = other := by
  constructor
  · intro same
    have signs := @sign_encoded negative magnitude small
    rw [same, sign_encoded small] at signs
    exact Bool.eq_iff_iff.mpr signs.symm
  · rintro rfl
    rfl

end Fields

/-- What is left of a float, in units of 2^-16. -/
def units (value : ℚ) : Nat := ⌊|value| * 65536⌋₊

theorem units_eq (value : ℚ) :
    units value = 2 ^ 16 * ⌊|value|⌋₊ + ⌊Int.fract |value| * 65536⌋₊ := by
  have parts : |value| * 65536 =
      Int.fract |value| * 65536 + ((2 ^ 16 * ⌊|value|⌋₊ : Nat) : ℚ) := by
    have whole := Int.self_sub_floor |value|
    rw [← whole, ← natCast_floor_eq_intCast_floor (abs_nonneg value)]
    push_cast
    ring
  rw [units, parts, Nat.floor_add_natCast (mul_nonneg (Int.fract_nonneg _) (by norm_num)),
    Nat.add_comm]

theorem fraction_lt (value : ℚ) : ⌊Int.fract value * 65536⌋₊ < 2 ^ 16 := by
  rw [Nat.floor_lt (mul_nonneg (Int.fract_nonneg _) (by norm_num))]
  have below := Int.fract_lt_one value
  push_cast
  linarith

theorem whole_lt {value : ℚ} (small : |value| < 32768) : ⌊|value|⌋₊ < 2 ^ 15 := by
  rw [Nat.floor_lt (abs_nonneg value)]
  push_cast
  linarith

theorem units_lt {value : ℚ} (small : |value| < 32768) : units value < 2 ^ 31 := by
  have whole := whole_lt small
  have fraction := fraction_lt |value|
  rw [units_eq]
  omega

theorem toUint32_of_nonneg {value : ℚ} (nonneg : 0 ≤ value) :
    toUint32 value = .ofNat 32 ⌊value⌋₊ := by
  rw [toUint32, truncate, if_neg (not_lt.mpr nonneg), ← Int.natCast_floor_eq_floor nonneg,
    BitVec.ofInt_natCast]

section Exact

variable (rounding : Format.Rounding binary32) {value : ℚ}

theorem round_natCast {number : Nat} (small : number < 2 ^ 24) :
    rounding.round (number : ℚ) = number := by
  refine rounding.exact _ ?_
  have fits : |(number : Int)| < 2 ^ binary32.precision := by
    rw [abs_of_nonneg (Int.natCast_nonneg number)]
    exact_mod_cast small
  exact_mod_cast Format.representable_intCast fits (by decide) (by decide)

/-- Nothing is rounded while a float in range is encoded. -/
theorem htonf_eq_encoded (representable : binary32.Representable value)
    (small : |value| < 32768) :
    htonf rounding value = encoded (decide (value < 0)) (units value) := by
  have magnitude : (if value < 0 then -value else value) = |value| := by
    split
    · rename_i negative
      exact (abs_of_neg negative).symm
    · rename_i positive
      exact (abs_of_nonneg (not_lt.mp positive)).symm
  have nonneg := abs_nonneg value
  have whole : rounding.round (truncate |value| : ℚ) = ⌊|value|⌋₊ := by
    rw [truncate, if_neg (not_lt.mpr nonneg), ← Int.natCast_floor_eq_floor nonneg,
      Int.cast_natCast]
    exact round_natCast rounding (Nat.lt_trans (whole_lt small) (by decide))
  have fractRepresentable := representable.abs.fract nonneg
  have fraction : rounding.round (|value| - ⌊|value|⌋₊) = Int.fract |value| := by
    have same : |value| - ⌊|value|⌋₊ = Int.fract |value| := by
      rw [← Int.self_sub_floor, natCast_floor_eq_intCast_floor nonneg]
    rw [same]
    exact rounding.exact _ fractRepresentable
  have scaled : rounding.round (Int.fract |value| * 65536) = Int.fract |value| * 65536 := by
    refine rounding.exact _ ?_
    have below : abs (Int.fract |value|) < 1 := by
      rw [abs_of_nonneg (Int.fract_nonneg _)]
      exact Int.fract_lt_one _
    have power : (65536 : ℚ) = 2 ^ 16 := by norm_num
    rw [power]
    exact fractRepresentable.mul_two_pow below (by decide) (by decide)
  have scaledNonneg : 0 ≤ Int.fract |value| * 65536 :=
    mul_nonneg (Int.fract_nonneg _) (by norm_num)
  simp only [htonf, magnitude, whole, fraction, scaled, toUint32_of_nonneg nonneg,
    toUint32_of_nonneg scaledNonneg]
  have sign : (if value < 0 then 1 else 0 : BitVec 32) =
      if decide (value < 0) = true then 1 else 0 := by simp
  rw [fields_eq_encoded sign (whole_lt small) (fraction_lt _), units_eq]

theorem ntohf_encoded {negative : Bool} {magnitude : Nat} (small : magnitude < 2 ^ 31)
    (representable : binary32.Representable ((magnitude : ℚ) / 65536)) :
    ntohf rounding (encoded negative magnitude) =
      if negative then -((magnitude : ℚ) / 65536) else magnitude / 65536 := by
  have low : magnitude % 2 ^ 16 < 2 ^ 16 := Nat.mod_lt _ (by decide)
  have whole := @round_natCast rounding (magnitude / 2 ^ 16) (by omega)
  have numerator := @round_natCast rounding (magnitude % 2 ^ 16) (by omega)
  have power : (65536 : ℚ) = 2 ^ 16 := by norm_num
  have fraction : rounding.round ((magnitude % 2 ^ 16 : Nat) / 65536 : ℚ) =
      (magnitude % 2 ^ 16 : Nat) / 65536 := by
    refine rounding.exact _ ?_
    rw [power]
    have fits : magnitude % 2 ^ 16 < 2 ^ binary32.precision := Nat.lt_trans low (by decide)
    exact Format.representable_natCast_div fits (by decide) (by decide)
  have parts : ((magnitude / 2 ^ 16 : Nat) : ℚ) + (magnitude % 2 ^ 16 : Nat) / 65536 =
      magnitude / 65536 := by
    have split : (magnitude : ℚ) =
        ((2 ^ 16 * (magnitude / 2 ^ 16) + magnitude % 2 ^ 16 : Nat) : ℚ) := by
      rw [Nat.div_add_mod]
    rw [split]
    push_cast
    ring
  simp only [ntohf, whole_encoded small, fraction_encoded small, whole, numerator, fraction, parts,
    rounding.exact _ representable, sign_encoded small]

theorem units_representable (representable : binary32.Representable value) :
    binary32.Representable ((units value : ℚ) / 65536) := by
  have power : (65536 : ℚ) = 2 ^ 16 := by norm_num
  have cut := @Format.Representable.floor_div binary32 |value| representable.abs (abs_nonneg value)
    16 (by decide) (by decide)
  rw [units, power, natCast_floor_eq_intCast_floor (mul_nonneg (abs_nonneg value) (by norm_num))]
  exact cut

theorem ntohf_htonf_eq (representable : binary32.Representable value) (small : |value| < 32768) :
    ntohf rounding (htonf rounding value) =
      if value < 0 then -((units value : ℚ) / 65536) else units value / 65536 := by
  rw [htonf_eq_encoded rounding representable small,
    ntohf_encoded rounding (units_lt small) (units_representable representable)]
  simp only [decide_eq_true_eq]

end Exact

section RoundTrip

/-- The float came back cut off after the sixteenth place. -/
structure CutOff (value back : ℚ) : Prop where
  truncated : back = SignType.sign value * ⌊|value| * 65536⌋ / 65536
  error : |value - back| < 1 / 65536
  noLarger : |back| ≤ |value|
  multiples : ∀ number : Int, value = number / 65536 → back = value

variable {value : ℚ}

theorem units_le (value : ℚ) : (units value : ℚ) / 65536 ≤ |value| := by
  rw [div_le_iff₀ (by norm_num)]
  exact Nat.floor_le (mul_nonneg (abs_nonneg value) (by norm_num))

theorem lt_units (value : ℚ) : |value| < (units value : ℚ) / 65536 + 1 / 65536 := by
  have above := Nat.lt_floor_add_one (|value| * 65536)
  rw [← add_div, lt_div_iff₀ (by norm_num)]
  exact above

theorem units_of_multiple {number : Int} (multiple : value = number / 65536) :
    (units value : ℚ) / 65536 = |value| := by
  have scaled : |value| * 65536 = (number.natAbs : ℚ) := by
    rw [multiple, abs_div, Nat.cast_natAbs, Int.cast_abs]
    norm_num
  rw [units, scaled, Nat.floor_natCast, ← scaled, mul_div_cancel_right₀ _ (by norm_num)]

theorem cutOff_negative (negative : value < 0) : CutOff value (-((units value : ℚ) / 65536)) where
  truncated := by
    rw [sign_neg negative, units,
      natCast_floor_eq_intCast_floor (mul_nonneg (abs_nonneg value) (by norm_num))]
    simp [neg_div]
  error := by
    have least := units_le value
    have greatest := lt_units value
    rw [abs_of_neg negative] at least greatest
    rw [abs_lt]
    constructor <;> linarith
  noLarger := by
    rw [abs_neg, abs_of_nonneg (by positivity)]
    exact units_le value
  multiples := by
    intro number multiple
    rw [units_of_multiple multiple, abs_of_neg negative, neg_neg]

theorem cutOff_nonneg (nonneg : 0 ≤ value) : CutOff value ((units value : ℚ) / 65536) where
  truncated := by
    rw [units, natCast_floor_eq_intCast_floor (mul_nonneg (abs_nonneg value) (by norm_num))]
    cases nonneg.eq_or_lt with
    | inl zero => simp [← zero]
    | inr positive => simp [sign_pos positive]
  error := by
    have least := units_le value
    have greatest := lt_units value
    rw [abs_of_nonneg nonneg] at least greatest
    rw [abs_lt]
    constructor <;> linarith
  noLarger := by
    rw [abs_of_nonneg (by positivity)]
    exact units_le value
  multiples := by
    intro number multiple
    rw [units_of_multiple multiple, abs_of_nonneg nonneg]

/-- A float below 2^15 comes back cut off after the sixteenth place, whatever
rounding does to results that are not floats. -/
theorem ntohf_htonf_cutOff (rounding : Format.Rounding binary32)
    (representable : binary32.Representable value) (small : |value| < 32768) :
    CutOff value (ntohf rounding (htonf rounding value)) := by
  rw [ntohf_htonf_eq rounding representable small]
  split
  · rename_i negative
    exact cutOff_negative negative
  · rename_i nonneg
    exact cutOff_nonneg (not_lt.mp nonneg)

/-- -2.6875 is a multiple of 2^-4. -/
theorem ntohf_htonf_cutOff_exact :
    CutOff (-43 / 16) (ntohf binary32.exactly (htonf binary32.exactly (-43 / 16))) :=
  ntohf_htonf_cutOff binary32.exactly
    ⟨-43, -4, by norm_num [binary32], by decide, by decide, by norm_num⟩ (by norm_num [abs_div])

theorem units_eq_zero_iff (negative : value < 0) : units value = 0 ↔ -(1 / 65536) < value := by
  rw [units, Nat.floor_eq_zero, abs_of_neg negative]
  constructor
  · intro below
    linarith
  · intro above
    linarith

section Relay

variable (rounding : Format.Rounding binary32)

theorem abs_ntohf_htonf (representable : binary32.Representable value) (small : |value| < 32768) :
    |ntohf rounding (htonf rounding value)| = (units value : ℚ) / 65536 := by
  have nonneg : (0 : ℚ) ≤ units value / 65536 := by positivity
  rw [ntohf_htonf_eq rounding representable small]
  split
  · rw [abs_neg, abs_of_nonneg nonneg]
  · exact abs_of_nonneg nonneg

theorem units_ntohf_htonf (representable : binary32.Representable value) (small : |value| < 32768) :
    units (ntohf rounding (htonf rounding value)) = units value := by
  rw [units, abs_ntohf_htonf rounding representable small, div_mul_cancel₀ _ (by norm_num),
    Nat.floor_natCast]

theorem representable_ntohf_htonf (representable : binary32.Representable value)
    (small : |value| < 32768) :
    binary32.Representable (ntohf rounding (htonf rounding value)) := by
  have cut := units_representable representable
  rw [ntohf_htonf_eq rounding representable small]
  split
  · exact cut.neg
  · exact cut

theorem ntohf_htonf_neg_iff (representable : binary32.Representable value)
    (small : |value| < 32768) :
    ntohf rounding (htonf rounding value) < 0 ↔ value < 0 ∧ units value ≠ 0 := by
  rw [ntohf_htonf_eq rounding representable small]
  split
  · rename_i negative
    have some : (0 : ℚ) < units value / 65536 ↔ units value ≠ 0 := by
      rw [div_pos_iff_of_pos_right (by norm_num), Nat.cast_pos, Nat.pos_iff_ne_zero]
    rw [neg_neg_iff_pos, some, and_iff_right negative]
  · rename_i positive
    refine iff_of_false ?_ fun both => positive both.1
    exact not_lt.mpr (by positivity)

/-- A word that was decoded encodes to itself, unless a negative float was cut
off to zero: its word has the sign of a zero that is not below zero. -/
theorem htonf_ntohf_htonf_iff (representable : binary32.Representable value)
    (small : |value| < 32768) :
    htonf rounding (ntohf rounding (htonf rounding value)) = htonf rounding value ↔
      ¬ (-(1 / 65536) < value ∧ value < 0) := by
  have smallAgain : |ntohf rounding (htonf rounding value)| < 32768 := by
    rw [abs_ntohf_htonf rounding representable small]
    exact lt_of_le_of_lt (units_le value) small
  have first := htonf_eq_encoded rounding representable small
  have again := htonf_eq_encoded rounding
    (representable_ntohf_htonf rounding representable small) smallAgain
  rw [units_ntohf_htonf rounding representable small] at again
  refine (Eq.congr again first).trans ((encoded_inj (units_lt small)).trans ?_)
  rw [decide_eq_decide, ntohf_htonf_neg_iff rounding representable small]
  constructor
  · rintro signs ⟨above, negative⟩
    exact (signs.mpr negative).2 ((units_eq_zero_iff negative).mpr above)
  · intro apart
    refine and_iff_left_of_imp fun negative zero => ?_
    exact apart ⟨(units_eq_zero_iff negative).mp zero, negative⟩

end Relay

theorem htonf_ntohf_htonf_exact :
    htonf binary32.exactly (ntohf binary32.exactly (htonf binary32.exactly (-43 / 16))) =
      htonf binary32.exactly (-43 / 16) :=
  (htonf_ntohf_htonf_iff binary32.exactly
    ⟨-43, -4, by norm_num [binary32], by decide, by decide, by norm_num⟩
    (by norm_num [abs_div])).mpr (by norm_num)

/-- The word for -2^-20 has a sign and nothing else. -/
theorem htonf_ntohf_htonf_tiny :
    binary32.Representable (-1 / 1048576) ∧ |(-1 / 1048576 : ℚ)| < 32768 ∧
      htonf binary32.exactly (ntohf binary32.exactly (htonf binary32.exactly (-1 / 1048576))) ≠
        htonf binary32.exactly (-1 / 1048576) := by
  refine ⟨⟨-1, -20, by norm_num [binary32], by decide, by decide, by norm_num⟩,
    by norm_num [abs_div], ?_⟩
  decide +kernel

end RoundTrip

end CBasics.PortableFloat
