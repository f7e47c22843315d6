import Mathlib.Data.Nat.ModEq

/-! One's-complement sums. Words lie between 0 and a modulus whose two ends both
stand for zero, and a carry is added back at the low end. -/

set_option autoImplicit false

namespace CBasics.Library.OnesComplement

variable {m total reduced : Nat}

/-- `reduced` is the word for a sum: congruent to it, and 0 for the sum 0 only. -/
structure Reduces (m total reduced : Nat) : Prop where
  le : reduced ≤ m
  modEq : reduced ≡ total [MOD m]
  zero : reduced = 0 ↔ total = 0

theorem Reduces.unique {other : Nat} (left : Reduces m total reduced)
    (right : Reduces m total other) : reduced = other := by
  have zeros : reduced = 0 ↔ other = 0 := left.zero.trans right.zero.symm
  have same : reduced ≡ other [MOD m] := left.modEq.trans right.modEq.symm
  cases reduced with
  | zero => exact (zeros.mp rfl).symm
  | succ lower =>
      cases other with
      | zero => exact absurd (zeros.mpr rfl) (Nat.succ_ne_zero lower)
      | succ lowerOther =>
          have lowers : lower ≡ lowerOther [MOD m] := Nat.ModEq.add_right_cancel' 1 same
          rw [Nat.ModEq.eq_of_lt_of_lt lowers left.le right.le]

theorem Reduces.zero_zero (m : Nat) : Reduces m 0 0 := ⟨Nat.zero_le m, rfl, Iff.rfl⟩

/-- The sum of two words with an end-around carry. -/
def add (m left right : Nat) : Nat :=
  if left + right ≤ m then left + right else left + right - m

def sum (m : Nat) (words : List Nat) : Nat := words.foldl (add m) 0

theorem Reduces.add (reduces : Reduces m total reduced) {word : Nat} (bound : word ≤ m) :
    Reduces m (total + word) (add m reduced word) := by
  obtain ⟨le, modEq, zero⟩ := reduces
  unfold OnesComplement.add
  by_cases fits : reduced + word ≤ m
  · rw [if_pos fits]
    exact ⟨fits, modEq.add_right word, by omega⟩
  · rw [if_neg fits]
    have carried : reduced + word - m + m = reduced + word := by omega
    refine ⟨by omega, ?_, by omega⟩
    calc reduced + word - m ≡ reduced + word - m + m [MOD m] :=
          Nat.ModEq.symm (Nat.add_mod_right _ _)
      _ = reduced + word := carried
      _ ≡ total + word [MOD m] := modEq.add_right word

theorem Reduces.foldl (reduces : Reduces m total reduced) {words : List Nat}
    (bounded : ∀ word ∈ words, word ≤ m) :
    Reduces m (total + words.sum) (words.foldl (OnesComplement.add m) reduced) := by
  induction words generalizing total reduced with
  | nil => simpa using reduces
  | cons word words ih =>
      obtain ⟨bound, boundedRest⟩ := List.forall_mem_cons.mp bounded
      rw [List.sum_cons, ← Nat.add_assoc]
      exact ih (reduces.add bound) boundedRest

theorem reduces_sum {words : List Nat} (bounded : ∀ word ∈ words, word ≤ m) :
    Reduces m words.sum (sum m words) := by
  have folded := (Reduces.zero_zero m).foldl bounded
  rwa [Nat.zero_add] at folded

/-- A map of words that multiplies by a constant, up to the modulus. -/
structure Scales (m factor : Nat) (map : Nat → Nat) : Prop where
  le : ∀ word ≤ m, map word ≤ m
  modEq : ∀ word ≤ m, map word ≡ factor * word [MOD m]
  zero : ∀ word ≤ m, map word = 0 ↔ word = 0

theorem Scales.sum_modEq {factor : Nat} {map : Nat → Nat} (scales : Scales m factor map)
    {words : List Nat} (bounded : ∀ word ∈ words, word ≤ m) :
    (words.map map).sum ≡ factor * words.sum [MOD m] ∧
      ((words.map map).sum = 0 ↔ words.sum = 0) := by
  induction words with
  | nil => exact ⟨rfl, Iff.rfl⟩
  | cons word words ih =>
      obtain ⟨bound, boundedRest⟩ := List.forall_mem_cons.mp bounded
      obtain ⟨modEq, zero⟩ := ih boundedRest
      have here := scales.zero word bound
      rw [List.map_cons, List.sum_cons, List.sum_cons, Nat.mul_add]
      exact ⟨(scales.modEq word bound).add modEq, by omega⟩

theorem Scales.reduces {factor : Nat} {map : Nat → Nat} (scales : Scales m factor map)
    {words : List Nat} (bounded : ∀ word ∈ words, word ≤ m)
    (reduces : Reduces m words.sum reduced) : Reduces m (words.map map).sum (map reduced) := by
  obtain ⟨modEq, zero⟩ := scales.sum_modEq bounded
  refine ⟨scales.le reduced reduces.le, ?_, ?_⟩
  · calc map reduced ≡ factor * reduced [MOD m] := scales.modEq reduced reduces.le
      _ ≡ factor * words.sum [MOD m] := reduces.modEq.mul_left factor
      _ ≡ (words.map map).sum [MOD m] := modEq.symm
  · rw [scales.zero reduced reduces.le, reduces.zero, zero]

/-- Scaling all words scales their one's-complement sum. -/
theorem Scales.sum_map {factor : Nat} {map : Nat → Nat} (scales : Scales m factor map)
    {words : List Nat} (bounded : ∀ word ∈ words, word ≤ m) :
    sum m (words.map map) = map (sum m words) := by
  have mapped : ∀ word ∈ words.map map, word ≤ m := by
    intro word member
    obtain ⟨origin, known, rfl⟩ := List.mem_map.mp member
    exact scales.le origin (bounded origin known)
  exact (reduces_sum mapped).unique (scales.reduces bounded (reduces_sum bounded))

/-- Below the square of the base, two folds absorb every carry. -/
theorem reduces_twoFolds {base folded : Nat} (large : 1 < base) (small : total < base * base)
    (foldedEq : folded = total / base + total % base) :
    Reduces (base - 1) total ((folded + folded / base) % base) := by
  have high : total / base < base := Nat.div_lt_of_lt_mul small
  have low : total % base < base := Nat.mod_lt total (by omega)
  have split : base * (total / base) + total % base = total := Nat.div_add_mod total base
  generalize total / base = upper at *
  generalize total % base = lower at *
  have shifted : base * upper = (base - 1) * upper + upper := by
    rw [Nat.sub_mul, Nat.one_mul, Nat.sub_add_cancel (Nat.le_mul_of_pos_left upper (by omega))]
  have congruent : folded ≡ total [MOD (base - 1)] := by
    have whole : total = folded + (base - 1) * upper := by omega
    rw [whole]
    exact (Nat.add_mul_mod_self_left folded (base - 1) upper).symm
  have zero : folded = 0 ↔ total = 0 := by
    constructor
    · intro none
      have noUpper : upper = 0 := by omega
      subst noUpper
      omega
    · intro none
      have noUpper : base * upper = 0 := by omega
      have : upper = 0 := (Nat.mul_eq_zero.mp noUpper).resolve_left (by omega)
      omega
  by_cases carries : folded < base
  · rw [Nat.div_eq_of_lt carries, Nat.add_zero, Nat.mod_eq_of_lt carries]
    exact ⟨by omega, congruent, zero⟩
  · have one : folded / base = 1 := Nat.div_eq_of_lt_le (by omega) (by omega)
    have wrapped : (folded + 1) % base = folded + 1 - base := by
      rw [Nat.mod_eq_sub_mod (by omega), Nat.mod_eq_of_lt (by omega)]
    rw [one, wrapped]
    refine ⟨by omega, ?_, by omega⟩
    have carried : folded = folded + 1 - base + (base - 1) := by omega
    calc folded + 1 - base ≡ folded + 1 - base + (base - 1) [MOD (base - 1)] :=
          Nat.ModEq.symm (Nat.add_mod_right _ _)
      _ = folded := carried.symm
      _ ≡ total [MOD (base - 1)] := congruent

/-- A sum and the complement of its word make up the modulus. -/
theorem Reduces.add_complement (reduces : Reduces m total reduced) (positive : 0 < m) :
    Reduces m (total + (m - reduced)) m := by
  have whole : reduced + (m - reduced) = m := Nat.add_sub_cancel' reduces.le
  refine ⟨Nat.le_refl m, ?_, ?_⟩
  · calc m = reduced + (m - reduced) := whole.symm
      _ ≡ total + (m - reduced) [MOD m] := reduces.modEq.add_right _
  · have zero := reduces.zero
    omega

end CBasics.Library.OnesComplement
