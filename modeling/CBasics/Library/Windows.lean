import Mathlib.Algebra.Order.Ring.Int
import Mathlib.Data.Int.DivMod
import Mathlib.Data.Set.Defs
import Mathlib.Tactic.Linarith
import Mathlib.Tactic.Ring

/-! Windows of one length that start at the multiples of a step and end within a
total: what they cover, and when they cover everything. -/

set_option autoImplicit false

namespace CBasics.Library

/-- The positions in some window. -/
def windows (total step length : Int) : Set Int :=
  {position | ∃ k t, 0 ≤ k ∧ 0 ≤ t ∧ t < length ∧ k * step + length ≤ total ∧
    position = k * step + t}

variable {total step length position : Int}

theorem mem_windows_iff : position ∈ windows total step length ↔
    ∃ k, 0 ≤ k ∧ k * step + length ≤ total ∧ k * step ≤ position ∧
      position < k * step + length := by
  constructor
  · rintro ⟨k, t, kNonneg, tNonneg, tSmall, fits, rfl⟩
    exact ⟨k, kNonneg, fits, by omega, by omega⟩
  · rintro ⟨k, kNonneg, fits, low, high⟩
    exact ⟨k, position - k * step, kNonneg, by omega, by omega, fits, by omega⟩

theorem windows_empty (stepPos : 0 < step) (long : total < length) :
    position ∉ windows total step length := by
  rw [mem_windows_iff]
  rintro ⟨k, kNonneg, fits, -, -⟩
  have start := Int.mul_nonneg kNonneg stepPos.le
  omega

theorem windows_within (stepPos : 0 < step) (member : position ∈ windows total step length) :
    0 ≤ position ∧ position < total := by
  obtain ⟨k, kNonneg, fits, low, high⟩ := mem_windows_iff.mp member
  have start := Int.mul_nonneg kNonneg stepPos.le
  omega

/-- The last position is covered only if some window ends there, and the position
behind the first window only if the windows leave no gap. -/
theorem of_windows_all (stepPos : 0 < step) (totalPos : 0 < total)
    (all : ∀ position, 0 ≤ position → position < total →
      position ∈ windows total step length) :
    length ≤ total ∧ step ∣ total - length ∧ (step ≤ length ∨ length = total) := by
  obtain ⟨k, kNonneg, fits, low, high⟩ := mem_windows_iff.mp (all (total - 1) (by omega) (by omega))
  have start := Int.mul_nonneg kNonneg stepPos.le
  refine ⟨by omega, ⟨k, by rw [Int.mul_comm]; omega⟩, ?_⟩
  by_cases whole : length = total
  · exact .inr whole
  · left
    obtain ⟨i, iNonneg, -, iLow, iHigh⟩ :=
      mem_windows_iff.mp (all length (by omega) (by omega))
    have iPos : 0 < i := by
      rcases iNonneg.lt_or_eq with positive | zero
      · exact positive
      · rw [← zero, Int.zero_mul] at iHigh
        omega
    have least : 1 * step ≤ i * step := Int.mul_le_mul_of_nonneg_right (by omega) stepPos.le
    omega

theorem windows_all (stepPos : 0 < step) (fits : length ≤ total) (ends : step ∣ total - length)
    (noGap : step ≤ length ∨ length = total) (nonneg : 0 ≤ position) (inside : position < total) :
    position ∈ windows total step length := by
  obtain ⟨last, lastEq⟩ := ends
  rw [Int.mul_comm] at lastEq
  rw [mem_windows_iff]
  have division := Int.mul_ediv_add_emod position step
  have remainder := Int.emod_lt_of_pos position stepPos
  have remainderNonneg := Int.emod_nonneg position stepPos.ne'
  rw [Int.mul_comm] at division
  by_cases early : position / step ≤ last
  · -- The window that starts at or before the position is one of the allowed ones.
    have before := Int.mul_le_mul_of_nonneg_right early stepPos.le
    rcases noGap with short | whole
    · exact ⟨position / step, Int.ediv_nonneg nonneg stepPos.le, by omega, by omega, by omega⟩
    · exact ⟨0, le_rfl, by omega, by omega, by omega⟩
  · have lastNonneg : 0 ≤ last := by
      by_contra negative
      have below := Int.mul_lt_mul_of_pos_right (Int.not_le.mp negative) stepPos
      omega
    have after := Int.mul_le_mul_of_nonneg_right (Int.not_le.mp early).le stepPos.le
    exact ⟨last, lastNonneg, by omega, by omega, by omega⟩

theorem windows_eq_all_iff (stepPos : 0 < step) (totalPos : 0 < total) :
    (∀ position, position ∈ windows total step length ↔ 0 ≤ position ∧ position < total) ↔
      length ≤ total ∧ step ∣ total - length ∧ (step ≤ length ∨ length = total) := by
  constructor
  · intro all
    exact of_windows_all stepPos totalPos fun position low high =>
      (all position).mpr ⟨low, high⟩
  · rintro ⟨fits, ends, noGap⟩ position
    exact ⟨windows_within stepPos, fun ⟨low, high⟩ =>
      windows_all stepPos fits ends noGap low high⟩

end CBasics.Library
