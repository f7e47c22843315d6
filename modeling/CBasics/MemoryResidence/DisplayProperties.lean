import CBasics.MemoryResidence.Basic

/-! What `displayMincore` prints, read row by row. Each row shows its first page
only. -/

set_option autoImplicit false

namespace CBasics.MemoryResidence

open Library

structure Row where
  onNewLine : Bool
  address : Int
  marks : List Char
  deriving DecidableEq

def symbol (resident : Bool) : Char := if resident then '*' else '.'

/-- The marks before the first label, and the rows that labels begin. -/
def readRows : List Output → List Char × List Row
  | [] => ([], [])
  | .label newline address :: rest =>
      ([], ⟨newline, address, (readRows rest).1⟩ :: (readRows rest).2)
  | .mark resident :: rest => (symbol resident :: (readRows rest).1, (readRows rest).2)
  | .allocated _ _ :: rest | .text _ :: rest => readRows rest

/-- The range ends within its last page. -/
def Covers (pageSize length : Int) (pages : Nat) : Prop :=
  (pages - 1) * pageSize < length ∧ length ≤ pages * pageSize

/-- A row of 64 pages, or of what is left. -/
def rowOf (pageSize : Int) (addr : Nat) (bytes : List Byte) (row : Nat) : Row where
  onNewLine := row ≠ 0
  address := addr + 64 * row * pageSize
  marks := ((bytes.drop (64 * row)).take 64).map fun byte => symbol (byte &&& 1 ≠ 0)

def allRows (pageSize : Int) (addr : Nat) (bytes : List Byte) : List Row :=
  (List.range ((bytes.length + 63) / 64)).map (rowOf pageSize addr bytes)

def ShowsEveryPage (pageSize : Int) (addr : Nat) (bytes : List Byte)
    (result : Except Failure (List Output)) : Prop :=
  result.map readRows = .ok ([], allRows pageSize addr bytes)

def printedRow (pageSize : Int) (addr : Nat) (bytes : List Byte) (j : Nat) : Row :=
  ⟨j ≠ 0, addr + j * pageSize, [symbol (bytes.getD j 0 &&& 1 ≠ 0)]⟩

theorem readRows_pages (pageSize : Int) (addr : Nat) (bytes : List Byte) (pages : List Nat) :
    readRows (pages.flatMap (fun j =>
        if j % 64 = 0 then
          [.label (j ≠ 0) (addr + j * pageSize), .mark (bytes.getD j 0 &&& 1 ≠ 0)]
        else []) ++ [.text "\n"]) =
      ([], (pages.filter fun j => j % 64 = 0).map (printedRow pageSize addr bytes)) := by
  induction pages with
  | nil => rfl
  | cons j rest ih =>
      by_cases first : j % 64 = 0
      · simp only [List.flatMap_cons, List.cons_append, List.nil_append, readRows, ih,
          List.filter_cons, first, decide_true, if_true, List.map_cons, printedRow]
      · simp only [List.flatMap_cons, List.nil_append, ih, List.filter_cons, first,
          decide_false, Bool.false_eq_true, if_false]

/-- One row for every 64th page, with the mark of that page alone. -/
theorem readRows_displayMincore (pageSize : Int) (addr : Nat) (length : Int)
    (bytes : List Byte) :
    (displayMincore pageSize addr length (.vec bytes)).map readRows =
      .ok ([], ((List.range (sizeT (length + pageSize - 1) / pageSize).toNat).filter
        fun j => j % 64 = 0).map (printedRow pageSize addr bytes)) :=
  congrArg Except.ok (readRows_pages pageSize addr bytes _)

theorem Covers.pos {pageSize length : Int} {pages : Nat} (covers : Covers pageSize length pages)
    (nonempty : 0 < length) : 0 < pages := by
  rcases Nat.eq_zero_or_pos pages with rfl | pos
  · have empty := covers.2
    omega
  · exact pos

theorem Covers.eq_one_iff {pageSize length : Int} {pages : Nat}
    (covers : Covers pageSize length pages) (positive : 0 < pageSize) (nonempty : 0 < length) :
    pages = 1 ↔ length ≤ pageSize := by
  have somePage := covers.pos nonempty
  constructor
  · rintro rfl
    simpa using covers.2
  · intro fits
    have below : ((pages : Int) - 1) * pageSize < 1 * pageSize := by
      have last := covers.1
      omega
    have fewer := lt_of_mul_lt_mul_right below positive.le
    omega

theorem marks_rowOf_zero {pageSize : Int} {addr : Nat} {bytes : List Byte} :
    (rowOf pageSize addr bytes 0).marks.length = min 64 bytes.length := by
  simp [rowOf]

theorem allRows_singleton (pageSize : Int) (addr : Nat) (byte : Byte) :
    allRows pageSize addr [byte] = [printedRow pageSize addr [byte] 0] := by
  simp [allRows, rowOf, printedRow]

theorem numPages_eq_one {pageSize length : Int} (positive : 0 < pageSize)
    (isLong : pageSize ≤ longMax) (nonempty : 0 < length) (fits : length ≤ pageSize) :
    sizeT (length + pageSize - 1) / pageSize = 1 := by
  have noWrap : sizeT (length + pageSize - 1) = length + pageSize - 1 := by
    unfold longMax at isLong
    exact sizeT_eq (by omega) (by omega)
  rw [noWrap]
  exact (Int.ediv_eq_iff_of_pos positive).mpr (by omega)

/-- For every page size, length and vector of the pages that cover it: all pages
are shown if and only if there is but one. -/
theorem showsEveryPage_iff {pageSize length : Int} (addr : Nat) {bytes : List Byte}
    (positive : 0 < pageSize) (isLong : pageSize ≤ longMax) (nonempty : 0 < length)
    (covers : Covers pageSize length bytes.length) :
    ShowsEveryPage pageSize addr bytes (displayMincore pageSize addr length (.vec bytes)) ↔
      length ≤ pageSize := by
  rw [ShowsEveryPage, readRows_displayMincore]
  constructor
  · intro shown
    obtain ⟨-, rowsEq⟩ := Prod.mk.inj (Except.ok.inj shown)
    have somePage := covers.pos nonempty
    have first : rowOf pageSize addr bytes 0 ∈ allRows pageSize addr bytes :=
      List.mem_map.mpr ⟨0, List.mem_range.mpr (by omega), rfl⟩
    rw [← rowsEq] at first
    obtain ⟨j, -, printed⟩ := List.mem_map.mp first
    have oneMark : 1 = min 64 bytes.length := by
      rw [← marks_rowOf_zero, ← printed]
      rfl
    exact (covers.eq_one_iff positive nonempty).mp (by omega)
  · intro fits
    obtain ⟨byte, rfl⟩ :=
      List.length_eq_one_iff.mp ((covers.eq_one_iff positive nonempty).mpr fits)
    rw [numPages_eq_one positive isLong nonempty fits, allRows_singleton]
    rfl

theorem showsEveryPage_one :
    ShowsEveryPage 4096 0 [1] (displayMincore 4096 0 4096 (.vec [1])) :=
  (showsEveryPage_iff 0 (by decide) (by decide) (by decide) (by simp [Covers])).mpr (by decide)

/-- Two pages: the second has no mark. -/
theorem not_showsEveryPage_two :
    Covers 4096 8192 [1, 0].length ∧
      ¬ ShowsEveryPage 4096 0 [1, 0] (displayMincore 4096 0 8192 (.vec [1, 0])) := by
  refine ⟨by simp [Covers], ?_⟩
  rw [ShowsEveryPage, readRows_displayMincore]
  decide

end CBasics.MemoryResidence
