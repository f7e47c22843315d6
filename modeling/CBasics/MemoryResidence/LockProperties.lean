import CBasics.Library.Windows
import CBasics.MemoryResidence.Basic

/-! Which pages the program locks. The loop locks the windows that its lengths
describe; the length is the wrong argument's. -/

set_option autoImplicit false

namespace CBasics.MemoryResidence

open Library

section Loop

variable {mlock : Int → Int → Bool} {len lockLen stepSize j : Int} {range : Range}

/-- The loop locks a range at each multiple of the step from which the length
still fits, and no others. -/
theorem lockLoop_ranges (succeeds : ∀ offset length, mlock offset length = true)
    (stepPos : 0 < stepSize) (jNonneg : 0 ≤ j) (jLong : j ≤ longMax)
    (lockNonneg : 0 ≤ lockLen) (lockLong : lockLen ≤ longMax)
    (room : ∀ offset, offset + lockLen ≤ len → 0 ≤ offset → offset + stepSize ≤ longMax) :
    (lockLoop mlock len lockLen stepSize j).ending = .finished ∧
      ∀ range, range ∈ (lockLoop mlock len lockLen stepSize j).ranges ↔
        ∃ k : Int, 0 ≤ k ∧ j + k * stepSize + lockLen ≤ len ∧
          range = ⟨j + k * stepSize, lockLen⟩ := by
  have exactly : ∀ offset, 0 ≤ offset → offset ≤ longMax →
      sizeT (offset + lockLen) = offset + lockLen := by
    intro offset nonneg small
    unfold longMax at small lockLong
    exact sizeT_eq (by omega) (by omega)
  fun_induction lockLoop mlock len lockLen stepSize j with
  | case1 j fits locked advances rest ih =>
      rw [exactly j jNonneg jLong] at fits
      obtain ⟨ending, ranges⟩ := ih (by omega) advances.2
      refine ⟨ending, fun range => ?_⟩
      rw [List.mem_cons, ranges]
      constructor
      · rintro (rfl | ⟨k, kNonneg, further, rfl⟩)
        · exact ⟨0, le_rfl, by omega, by simp⟩
        · have shifted : (k + 1) * stepSize = k * stepSize + stepSize := by ring
          exact ⟨k + 1, by omega, by omega, by rw [shifted]; congr 1; omega⟩
      · rintro ⟨k, kNonneg, further, rfl⟩
        rcases kNonneg.lt_or_eq with positive | rfl
        · right
          have shifted : k * stepSize = (k - 1) * stepSize + stepSize := by ring
          exact ⟨k - 1, by omega, by omega, by rw [shifted]; congr 1; omega⟩
        · left
          simp
  | case2 j fits locked stays =>
      rw [exactly j jNonneg jLong] at fits
      exact absurd ⟨stepPos, room j fits jNonneg⟩ stays
  | case3 j fits refused => exact absurd (succeeds _ _) (by simpa using refused)
  | case4 j beyond =>
      rw [exactly j jNonneg jLong] at beyond
      refine ⟨rfl, fun range => ⟨fun member => by simp at member, ?_⟩⟩
      rintro ⟨k, kNonneg, further, -⟩
      have start := Int.mul_nonneg kNonneg stepPos.le
      omega

end Loop

/-- The page has a byte in one of the ranges, and `mlock` locks whole pages. -/
def IsLocked (pageSize : Int) (ranges : List Range) (page : Int) : Prop :=
  ∃ range ∈ ranges, range.offset < (page + 1) * pageSize ∧
    page * pageSize < range.offset + range.length

/-- What the usage line says: the locked pages are the windows of
`lock-page-len` pages at each multiple of `lock-page-step`. -/
structure LocksRequested (numPages lockPageStep lockPageLen pageSize : Int)
    (ranges : List Range) : Prop where
  pages : ∀ page, IsLocked pageSize ranges page ↔
    page ∈ windows numPages lockPageStep lockPageLen
  inside : ∀ range ∈ ranges, 0 ≤ range.offset ∧
    range.offset + range.length ≤ numPages * pageSize
  tooLong : numPages < lockPageLen → ∀ page, ¬ IsLocked pageSize ranges page

section Pages

variable {mlock : Int → Int → Bool} {numPages step lockPages pageSize : Int}

theorem mul_lt_mul_iff {first second : Int} (pagePos : 0 < pageSize) :
    first * pageSize < second * pageSize ↔ first < second :=
  ⟨fun less => lt_of_mul_lt_mul_right less pagePos.le,
    fun less => Int.mul_lt_mul_of_pos_right less pagePos⟩

theorem in_pages_iff {first length page : Int} (pagePos : 0 < pageSize) :
    (first * pageSize < (page + 1) * pageSize ∧
        page * pageSize < first * pageSize + length * pageSize) ↔
      first ≤ page ∧ page < first + length := by
  rw [← Int.add_mul, mul_lt_mul_iff pagePos, mul_lt_mul_iff pagePos, Int.lt_add_one_iff]

theorem lockLoop_windows (succeeds : ∀ offset length, mlock offset length = true)
    (pagePos : 0 < pageSize) (stepPos : 0 < step) (lockPos : 0 < lockPages)
    (lockLong : lockPages * pageSize ≤ longMax)
    (room : lockPages ≤ numPages → (numPages - lockPages + step) * pageSize ≤ longMax) :
    let loop := lockLoop mlock (numPages * pageSize) (lockPages * pageSize) (step * pageSize) 0
    loop.ending = .finished ∧
      LocksRequested numPages step lockPages pageSize loop.ranges := by
  intro loop
  have whole {offset : Int} (fits : offset + lockPages * pageSize ≤ numPages * pageSize)
      (nonneg : 0 ≤ offset) : offset + step * pageSize ≤ longMax := by
    have short : lockPages ≤ numPages :=
      le_of_mul_le_mul_right (by omega : lockPages * pageSize ≤ numPages * pageSize) pagePos
    have bound := room short
    rw [Int.add_mul, Int.sub_mul] at bound
    omega
  obtain ⟨ending, ranges⟩ := lockLoop_ranges succeeds (Int.mul_pos stepPos pagePos) le_rfl
    (by decide) (Int.mul_pos lockPos pagePos).le lockLong (fun _ fits nonneg => whole fits nonneg)
  have mem_ranges (range : Range) : range ∈ loop.ranges ↔ ∃ k : Int, 0 ≤ k ∧
      k * step + lockPages ≤ numPages ∧ range = ⟨k * step * pageSize, lockPages * pageSize⟩ := by
    rw [ranges]
    refine exists_congr fun k => and_congr_right fun _ => ?_
    rw [Int.zero_add, ← Int.mul_assoc, ← Int.add_mul]
    exact and_congr_left fun _ =>
      ⟨fun le => le_of_mul_le_mul_right le pagePos,
        fun le => Int.mul_le_mul_of_nonneg_right le pagePos.le⟩
  have pages (page : Int) : IsLocked pageSize loop.ranges page ↔
      page ∈ windows numPages step lockPages := by
    rw [mem_windows_iff]
    constructor
    · rintro ⟨range, member, covers⟩
      obtain ⟨k, kNonneg, fits, rfl⟩ := (mem_ranges range).mp member
      exact ⟨k, kNonneg, fits, (in_pages_iff pagePos).mp covers⟩
    · rintro ⟨k, kNonneg, fits, covers⟩
      exact ⟨_, (mem_ranges _).mpr ⟨k, kNonneg, fits, rfl⟩, (in_pages_iff pagePos).mpr covers⟩
  refine ⟨ending, pages, fun range member => ?_, fun tooLong page => ?_⟩
  · obtain ⟨k, kNonneg, fits, rfl⟩ := (mem_ranges range).mp member
    refine ⟨Int.mul_nonneg (Int.mul_nonneg kNonneg stepPos.le) pagePos.le, ?_⟩
    rw [← Int.add_mul]
    exact Int.mul_le_mul_of_nonneg_right fits pagePos.le
  · rw [pages]
    exact windows_empty stepPos tooLong

end Pages

structure Calls.Succeed (calls : Calls) : Prop where
  pageSize : 0 < calls.pageSize
  mmap : ∃ addr, calls.mmap = some addr
  before : ∃ bytes, calls.before = .vec bytes
  mlock : ∀ offset length, calls.mlock offset length = true

section Program

variable {calls : Calls} {numPages step lockPages : Int} {program : List Byte}

theorem decimal_ne_help {value : Int} (positive : 0 < value) (small : value ≤ intMax) :
    decimal value ≠ ascii "--help" := by
  intro same
  have read := getInt_decimal positive small "num-pages"
  have fails : getInt (ascii "--help") gnGt0 "num-pages" =
      .error ⟨"getInt", "nonnumeric characters", ascii "--help", "num-pages"⟩ := by decide
  rw [same, fails] at read
  cases read

theorem readSizes_decimal {pageSize : Int} {rest : List (List Byte)} (pagePos : 0 < pageSize)
    (numPos : 0 < numPages) (numInt : numPages ≤ intMax) (stepPos : 0 < step)
    (stepInt : step ≤ intMax) (numLong : numPages * pageSize ≤ longMax)
    (stepLong : step * pageSize ≤ longMax) :
    readSizes (program :: decimal numPages :: decimal step :: rest) pageSize =
      .ok (numPages * pageSize, step * pageSize, numPages * pageSize) := by
  have numBytes := Int.mul_pos numPos pagePos
  have stepBytes := Int.mul_pos stepPos pagePos
  unfold longMax at numLong stepLong
  have sizeEq : sizeT (numPages * pageSize) = numPages * pageSize :=
    sizeT_eq numBytes.le (by omega)
  have longEq : long (step * pageSize) = step * pageSize :=
    Int.bmod_eq_of_le (by omega) (by omega)
  simp only [readSizes, List.getD_cons_succ, List.getD_cons_zero, getInt_decimal numPos numInt,
    getInt_decimal stepPos stepInt]
  show Except.ok (sizeT (numPages * pageSize), long (step * pageSize),
    sizeT (numPages * pageSize)) = _
  rw [sizeEq, longEq]

theorem lockAndDisplay_locked {addr : Nat} {len stepSize lockLen : Int} {bytes : List Byte}
    (before : calls.before = .vec bytes) :
    (lockAndDisplay calls addr len stepSize lockLen).locked =
      (lockLoop calls.mlock len lockLen stepSize 0).ranges := by
  simp only [lockAndDisplay, before, displayMincore]
  split
  · rfl
  · rfl
  · split <;> rfl

/-- The program locks what the loop locks when all pages are the length to lock. -/
theorem memoryResidence_locked (succeed : calls.Succeed) (numPos : 0 < numPages)
    (numInt : numPages ≤ intMax) (stepPos : 0 < step) (stepInt : step ≤ intMax)
    (numLong : numPages * calls.pageSize ≤ longMax) (stepLong : step * calls.pageSize ≤ longMax) :
    (memoryResidence [program, decimal numPages, decimal step, decimal lockPages] calls).locked =
      (lockLoop calls.mlock (numPages * calls.pageSize) (numPages * calls.pageSize)
        (step * calls.pageSize) 0).ranges := by
  obtain ⟨addr, mapped⟩ := succeed.mmap
  obtain ⟨bytes, before⟩ := succeed.before
  have pagePos := succeed.pageSize
  have asked : ¬ ([program, decimal numPages, decimal step, decimal lockPages].length ≠ 4 ∨
      [program, decimal numPages, decimal step, decimal lockPages].getD 1 [] = ascii "--help") := by
    rintro (count | help)
    · exact count rfl
    · exact decimal_ne_help numPos numInt help
  have known : calls.pageSize ≠ -1 := by omega
  rw [memoryResidence, if_neg asked, if_neg known,
    readSizes_decimal pagePos numPos numInt stepPos stepInt numLong stepLong]
  simp only [mapped]
  exact lockAndDisplay_locked before

theorem memoryResidence_pages (succeed : calls.Succeed) (numPos : 0 < numPages)
    (numInt : numPages ≤ intMax) (stepPos : 0 < step) (stepInt : step ≤ intMax)
    (numLong : numPages * calls.pageSize ≤ longMax) (stepLong : step * calls.pageSize ≤ longMax) :
    LocksRequested numPages step numPages calls.pageSize
      (memoryResidence [program, decimal numPages, decimal step, decimal lockPages] calls).locked :=
    by
  rw [memoryResidence_locked succeed numPos numInt stepPos stepInt numLong stepLong]
  refine (lockLoop_windows succeed.mlock succeed.pageSize stepPos numPos numLong fun _ => ?_).2
  rw [Int.sub_self, Int.zero_add]
  exact stepLong

end Program

/-- `memory_residence` locks what its usage line says exactly if the windows asked
for happen to cover the mapping: they fit, the last ends with it, and they leave
no gap. -/
theorem memoryResidence_locksRequested_iff {numPages step lockPages : Int} (program : List Byte)
    (calls : Calls) (succeed : calls.Succeed) (numPos : 0 < numPages) (numInt : numPages ≤ intMax)
    (stepPos : 0 < step) (stepInt : step ≤ intMax)
    (numLong : numPages * calls.pageSize ≤ longMax) (stepLong : step * calls.pageSize ≤ longMax) :
    LocksRequested numPages step lockPages calls.pageSize
        (memoryResidence [program, decimal numPages, decimal step, decimal lockPages]
          calls).locked ↔
      lockPages ≤ numPages ∧ step ∣ numPages - lockPages ∧
        (step ≤ lockPages ∨ lockPages = numPages) := by
  have locks := @memoryResidence_pages calls numPages step lockPages program succeed numPos numInt
    stepPos stepInt numLong stepLong
  have all := (windows_eq_all_iff stepPos numPos).mpr
    ⟨le_rfl, by rw [Int.sub_self]; exact Int.dvd_zero step, .inr rfl⟩
  rw [← windows_eq_all_iff stepPos numPos]
  constructor
  · intro requested page
    rw [← requested.pages, locks.pages, all]
  · intro covers
    refine ⟨fun page => by rw [locks.pages, all, covers], locks.inside, fun tooLong => ?_⟩
    exact absurd ((covers 0).mpr ⟨le_rfl, numPos⟩) (windows_empty stepPos tooLong)

def plentiful : Calls := ⟨4096, some 0x10000, .vec [], .vec [], fun _ _ => true⟩

theorem plentiful_succeed : plentiful.Succeed :=
  ⟨by decide, ⟨_, rfl⟩, ⟨_, rfl⟩, fun _ _ => rfl⟩

/-- Six pages in windows of two at every second page: the windows cover them. -/
theorem memoryResidence_locksRequested_six :
    LocksRequested 6 2 2 4096
      (memoryResidence [ascii "mem", decimal 6, decimal 2, decimal 2] plentiful).locked :=
  (memoryResidence_locksRequested_iff (ascii "mem") plentiful plentiful_succeed (by decide)
    (by decide) (by decide) (by decide) (by decide) (by decide)).mpr
    ⟨by decide, by decide, by decide⟩

/-- One page at every second of four: the second page is locked too. -/
theorem not_memoryResidence_locksRequested_four :
    ¬ LocksRequested 4 2 1 4096
      (memoryResidence [ascii "mem", decimal 4, decimal 2, decimal 1] plentiful).locked := by
  intro requested
  have locks := @memoryResidence_pages plentiful 4 2 1 (ascii "mem") plentiful_succeed (by decide)
    (by decide) (by decide) (by decide) (by decide) (by decide)
  have second : (1 : Int) ∈ windows 4 2 4 :=
    mem_windows_iff.mpr ⟨0, by decide, by decide, by decide, by decide⟩
  obtain ⟨k, -, -, low, high⟩ :=
    mem_windows_iff.mp ((requested.pages 1).mp ((locks.pages 1).mpr second))
  omega

end CBasics.MemoryResidence
