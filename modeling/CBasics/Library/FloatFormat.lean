import Mathlib.Algebra.Order.Field.Power
import Mathlib.Data.Rat.Floor
import Mathlib.Tactic.Ring

/-! Binary floating-point formats: the rationals that a format has, and what
operations on such values do not have to be rounded for. -/

set_option autoImplicit false

namespace CBasics.Library

/-- The numbers of bits of a significand, and the least and greatest exponents
of its last bit. -/
structure Format where
  precision : Nat
  minExp : Int
  maxExp : Int

namespace Format

def Representable (format : Format) (value : ℚ) : Prop :=
  ∃ significand exponent : Int, |significand| < 2 ^ format.precision ∧
    format.minExp ≤ exponent ∧ exponent ≤ format.maxExp ∧ value = significand * 2 ^ exponent

/-- Some way to bring a result back to the format. A value it has stays. -/
structure Rounding (format : Format) where
  round : ℚ → ℚ
  exact : ∀ value, format.Representable value → round value = value

/-- Arithmetic without rounding. -/
def exactly (format : Format) : Rounding format := ⟨id, fun _ _ => rfl⟩

variable {format : Format} {value : ℚ}

theorem Representable.neg (representable : format.Representable value) :
    format.Representable (-value) := by
  obtain ⟨significand, exponent, small, least, greatest, rfl⟩ := representable
  refine ⟨-significand, exponent, ?_, least, greatest, ?_⟩
  · rwa [abs_neg]
  · push_cast
    ring

theorem Representable.abs (representable : format.Representable value) :
    format.Representable |value| := by
  cases abs_choice value with
  | inl same => rwa [same]
  | inr negated =>
      rw [negated]
      exact representable.neg

theorem representable_intCast {number : Int} (small : |number| < 2 ^ format.precision)
    (least : format.minExp ≤ 0) (greatest : 0 ≤ format.maxExp) :
    format.Representable (number : ℚ) :=
  ⟨number, 0, small, least, greatest, by simp⟩

theorem representable_natCast_div {number places : Nat} (small : number < 2 ^ format.precision)
    (least : format.minExp ≤ -places) (greatest : -(places : Int) ≤ format.maxExp) :
    format.Representable ((number : ℚ) / 2 ^ places) := by
  refine ⟨number, -places, ?_, least, greatest, ?_⟩
  · rw [abs_of_nonneg (Int.natCast_nonneg number)]
    exact_mod_cast small
  · rw [zpow_neg, zpow_natCast, div_eq_mul_inv, Int.cast_natCast]

theorem two_zpow_pos (exponent : Int) : (0 : ℚ) < 2 ^ exponent := by positivity

theorem Representable.exists_nat (representable : format.Representable value)
    (nonneg : 0 ≤ value) :
    ∃ (significand : Nat) (exponent : Int), significand < 2 ^ format.precision ∧
      format.minExp ≤ exponent ∧ exponent ≤ format.maxExp ∧
      value = significand * 2 ^ exponent := by
  obtain ⟨significand, exponent, small, least, greatest, rfl⟩ := representable
  have positive : (0 : ℚ) ≤ significand :=
    nonneg_of_mul_nonneg_left nonneg (two_zpow_pos exponent)
  obtain ⟨natural, rfl⟩ := Int.eq_ofNat_of_zero_le (Int.cast_nonneg_iff.mp positive)
  rw [abs_of_nonneg (Int.natCast_nonneg natural)] at small
  exact ⟨natural, exponent, by exact_mod_cast small, least, greatest, by simp⟩

/-- Dropping the bits below a place of the format leaves one of its values. -/
theorem Representable.floor_div (representable : format.Representable value)
    (nonneg : 0 ≤ value) {places : Nat} (least : format.minExp ≤ -places)
    (greatest : -(places : Int) ≤ format.maxExp) :
    format.Representable ((⌊value * 2 ^ places⌋ : ℚ) / 2 ^ places) := by
  obtain ⟨significand, exponent, small, low, high, rfl⟩ := representable.exists_nat nonneg
  have scaled : (significand : ℚ) * 2 ^ exponent * 2 ^ places =
      significand * 2 ^ (exponent + places) := by
    rw [zpow_add₀ two_ne_zero, zpow_natCast, mul_assoc]
  rw [scaled]
  cases Int.le_total 0 (exponent + places) with
  | inl whole =>
      -- no bit lies below the place, and the value is kept
      obtain ⟨shift, shiftEq⟩ := Int.eq_ofNat_of_zero_le whole
      have integral : (significand : ℚ) * 2 ^ (exponent + places) =
          ((significand * 2 ^ shift : Nat) : ℚ) := by
        rw [shiftEq]
        push_cast
        rw [zpow_natCast]
      have kept : (significand : ℚ) * 2 ^ (exponent + places) / 2 ^ places =
          significand * 2 ^ exponent := by
        rw [← scaled, mul_div_cancel_right₀ _ (by positivity)]
      rw [integral, Int.floor_natCast, Int.cast_natCast, ← integral, kept]
      exact representable
  | inr below =>
      obtain ⟨shift, shiftEq⟩ := Int.eq_ofNat_of_zero_le (Int.neg_nonneg_of_nonpos below)
      have quotient : (significand : ℚ) * 2 ^ (exponent + places) =
          ((significand : ℕ) : ℚ) / ((2 ^ shift : ℕ) : ℚ) := by
        have negated : exponent + places = -(shift : Int) := by omega
        rw [negated, zpow_neg, zpow_natCast, div_eq_mul_inv]
        push_cast
        rfl
      rw [quotient, Rat.floor_natCast_div_natCast, ← Int.natCast_ediv, Int.cast_natCast]
      have smaller := Nat.lt_of_le_of_lt (Nat.div_le_self significand (2 ^ shift)) small
      exact representable_natCast_div smaller least greatest

/-- The part behind the point of a value of the format is one as well. -/
theorem Representable.fract (representable : format.Representable value) (nonneg : 0 ≤ value) :
    format.Representable (Int.fract value) := by
  obtain ⟨significand, exponent, small, low, high, rfl⟩ := representable.exists_nat nonneg
  cases Int.le_total 0 exponent with
  | inl whole =>
      obtain ⟨shift, rfl⟩ := Int.eq_ofNat_of_zero_le whole
      have integral : (significand : ℚ) * 2 ^ (shift : Int) =
          ((significand * 2 ^ shift : Nat) : ℚ) := by
        rw [zpow_natCast]
        push_cast
        rfl
      rw [integral, Int.fract_natCast]
      exact ⟨0, shift, by simp, low, high, by simp⟩
  | inr below =>
      obtain ⟨shift, shiftEq⟩ := Int.eq_ofNat_of_zero_le (Int.neg_nonneg_of_nonpos below)
      have power : (2 : ℚ) ^ exponent = (((2 ^ shift : ℕ) : ℚ))⁻¹ := by
        have negated : exponent = -(shift : Int) := by omega
        rw [negated, zpow_neg, zpow_natCast]
        push_cast
        rfl
      refine ⟨(significand % 2 ^ shift : Nat), exponent, ?_, low, high, ?_⟩
      · rw [abs_of_nonneg (Int.natCast_nonneg _)]
        exact_mod_cast Nat.lt_of_le_of_lt (Nat.mod_le _ _) small
      · rw [power, ← div_eq_mul_inv, Int.fract_div_natCast_eq_div_natCast_mod, Int.cast_natCast,
          ← div_eq_mul_inv]

/-- A value below 1 can be scaled up as far as the exponents go. -/
theorem Representable.mul_two_pow (representable : format.Representable value)
    (small : |value| < 1) {places : Nat} (room : (places : Int) ≤ format.maxExp)
    (least : format.minExp ≤ 0) : format.Representable (value * 2 ^ places) := by
  obtain ⟨significand, exponent, fits, low, high, rfl⟩ := representable
  by_cases zero : significand = 0
  · refine ⟨0, 0, by simp, least, Int.le_trans (Int.natCast_nonneg places) room, ?_⟩
    simp [zero]
  · have one : (1 : ℚ) ≤ |(significand : ℚ)| := by
      exact_mod_cast Int.one_le_abs zero
    have power : (2 : ℚ) ^ exponent < 1 := by
      rw [abs_mul, abs_of_pos (two_zpow_pos exponent)] at small
      exact lt_of_le_of_lt (le_mul_of_one_le_left (two_zpow_pos exponent).le one) small
    have negative : exponent < 0 := by
      by_contra whole
      have atLeast : (1 : ℚ) ≤ 2 ^ exponent :=
        one_le_zpow₀ one_le_two (Int.not_lt.mp whole)
      exact absurd power (not_lt.mpr atLeast)
    refine ⟨significand, exponent + places, fits, by omega, by omega, ?_⟩
    rw [zpow_add₀ two_ne_zero, zpow_natCast, mul_assoc]

end Format

end CBasics.Library
