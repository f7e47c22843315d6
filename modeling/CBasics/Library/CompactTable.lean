import Mathlib.Data.List.Basic
import Mathlib.Data.List.Nodup
import Mathlib.Data.List.Perm.Basic

/-! Arrays whose first `count` cells are in use. A cell is added behind the
used ones and removed by moving the last used cell into its place, so the
used cells stay together and only their order changes. -/

set_option autoImplicit false

namespace CBasics.Library

open scoped List

variable {Cell Key : Type}

def used (cells : List Cell) (count : Nat) : List Cell := cells.take count

/-- Copy the last used cell over cell `index`. -/
def moveLast (cells : List Cell) (index count : Nat) : List Cell :=
  match cells[count - 1]? with
  | some last => cells.set index last
  | none => cells

@[simp] theorem length_moveLast (cells : List Cell) (index count : Nat) :
    (moveLast cells index count).length = cells.length := by
  unfold moveLast
  split <;> simp

theorem length_used {cells : List Cell} {count : Nat} (bound : count ≤ cells.length) :
    (used cells count).length = count := by
  simp [used, bound]

theorem getElem?_used {cells : List Cell} {count index : Nat} (inUse : index < count) :
    (used cells count)[index]? = cells[index]? := by
  simp [used, inUse]

theorem mem_used_of_getElem? {cells : List Cell} {count index : Nat} {cell : Cell}
    (inUse : index < count) (found : cells[index]? = some cell) : cell ∈ used cells count :=
  List.mem_of_getElem? ((getElem?_used inUse).trans found)

theorem used_modify {cells : List Cell} {count : Nat} (fill : Cell → Cell) {old : Cell}
    (free : cells[count]? = some old) :
    used (cells.modify count fill) (count + 1) = used cells count ++ [fill old] := by
  have room : count < cells.length := (List.getElem?_eq_some_iff.mp free).1
  apply List.ext_getElem?
  intro index
  by_cases below : index < count
  · rw [getElem?_used (by omega),
      List.getElem?_append_left (by rw [length_used (by omega)]; exact below),
      getElem?_used below, List.getElem?_modify]
    simp [Nat.ne_of_gt below]
  · by_cases last : index = count
    · subst last
      rw [getElem?_used (by omega), List.getElem?_append_right,
        length_used (by omega), List.getElem?_modify]
      · simp [free]
      · simp [length_used (Nat.le_of_lt room)]
    · rw [List.getElem?_eq_none (by rw [length_used (by simp; omega)]; omega),
        List.getElem?_eq_none (by simp [length_used (Nat.le_of_lt room)]; omega)]

theorem used_append {cells : List Cell} {count : Nat} (bound : count ≤ cells.length)
    (added : List Cell) : used (cells ++ added) count = used cells count := by
  simp [used, List.take_append_of_le_length bound]

/-- Removal by moving the last cell takes out exactly the cell at `index`; the
other used cells stay, in some order. -/
theorem used_moveLast_perm {cells : List Cell} {count index : Nat} {cell : Cell}
    (bound : count ≤ cells.length) (inUse : index < count) (found : cells[index]? = some cell) :
    (cell :: used (moveLast cells index count) (count - 1)).Perm (used cells count) := by
  have room : count - 1 < cells.length := by omega
  have moved : moveLast cells index count = cells.set index cells[count - 1] := by
    simp [moveLast, List.getElem?_eq_getElem room]
  have split : used cells count = cells.take (count - 1) ++ [cells[count - 1]] := by
    rw [List.take_append_getElem room, Nat.sub_add_cancel (by omega : 1 ≤ count)]
    rfl
  have lengthTake : (cells.take (count - 1)).length = count - 1 := by
    rw [List.length_take]; omega
  rw [moved, split]
  by_cases final : index = count - 1
  · subst final
    have keep : used (cells.set (count - 1) cells[count - 1]) (count - 1) =
        cells.take (count - 1) := by simp [used]
    have same : cells[count - 1] = cell := by
      simpa [List.getElem?_eq_getElem room] using found
    rw [keep, same]
    exact (List.perm_append_singleton _ _).symm
  · have below : index < (cells.take (count - 1)).length := by omega
    have same : (cells.take (count - 1))[index] = cell := by
      have start : index < cells.length := by omega
      simpa [List.getElem?_eq_getElem start] using found
    have swapped : used (cells.set index cells[count - 1]) (count - 1) =
        (cells.take (count - 1)).set index cells[count - 1] := by
      simp [used, List.take_set]
    rw [swapped]
    calc cell :: (cells.take (count - 1)).set index cells[count - 1]
        _ ~ cell :: cells[count - 1] :: (cells.take (count - 1)).eraseIdx index :=
          (List.set_perm_cons_eraseIdx below _).cons _
        _ ~ cells[count - 1] :: cell :: (cells.take (count - 1)).eraseIdx index := .swap _ _ _
        _ ~ cells[count - 1] :: cells.take (count - 1) :=
          (same ▸ List.getElem_cons_eraseIdx_perm below).cons _
        _ ~ cells.take (count - 1) ++ [cells[count - 1]] := (List.perm_append_singleton _ _).symm

section Keys

variable {cells : List Cell} {count index : Nat} {cell : Cell} (key : Cell → Key)

theorem nodup_map_used_moveLast (distinct : ((used cells count).map key).Nodup)
    (bound : count ≤ cells.length) (inUse : index < count) (found : cells[index]? = some cell) :
    ((used (moveLast cells index count) (count - 1)).map key).Nodup := by
  have perm := (used_moveLast_perm bound inUse found).map key
  exact (List.nodup_cons.mp (perm.nodup_iff.mpr distinct)).2

theorem mem_map_used_moveLast (distinct : ((used cells count).map key).Nodup)
    (bound : count ≤ cells.length) (inUse : index < count) (found : cells[index]? = some cell)
    (other : Key) :
    other ∈ (used (moveLast cells index count) (count - 1)).map key ↔
      other ∈ (used cells count).map key ∧ other ≠ key cell := by
  have perm := (used_moveLast_perm bound inUse found).map key
  have absent := (List.nodup_cons.mp (perm.nodup_iff.mpr distinct)).1
  rw [← perm.mem_iff, List.map_cons, List.mem_cons]
  constructor
  · intro member
    exact ⟨.inr member, fun same => absent (same ▸ member)⟩
  · rintro ⟨same | member, different⟩
    · exact absurd same different
    · exact member

end Keys

theorem getElem?_moveLast_of_ne {cells : List Cell} {index other count : Nat}
    (different : index ≠ other) :
    (moveLast cells index count)[other]? = cells[other]? := by
  unfold moveLast
  split
  · exact List.getElem?_set_ne different
  · rfl

end CBasics.Library
