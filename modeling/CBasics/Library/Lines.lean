import CBasics.Library.CString
import Mathlib.Data.List.Forall2

/-! Lines read from a stream into arrays of a fixed size. What of a line does not
fit stays in the stream. -/

set_option autoImplicit false

namespace CBasics.Library

def newline : UInt8 := 10

/-- The next bytes of a stream up to the end of the line, or as many as fit. -/
def takeLine : Nat → List UInt8 → List UInt8
  | 0, _ => []
  | _ + 1, [] => []
  | count + 1, byte :: rest => if byte = newline then [byte] else byte :: takeLine count rest

/-- `fgets` on an array of that size: the array and the stream it leaves. At the
end of the stream it returns `NULL` and leaves the array alone. -/
def fgets (array stream : List UInt8) : List UInt8 × List UInt8 :=
  let line := takeLine (array.length - 1) stream
  if line = [] then (array, stream) else (putString array line, stream.drop line.length)

def strcspn (bytes reject : List UInt8) : Nat :=
  ((cString bytes).takeWhile (· ∉ reject)).length

/-- `array[strcspn(array, "\n")] = '\0'` -/
def endAtNewline (array : List UInt8) : List UInt8 := array.set (strcspn array [newline]) 0

structure IsLine (text : List UInt8) : Prop where
  noNul : 0 ∉ text
  noNewline : newline ∉ text

instance (text : List UInt8) : Decidable (IsLine text) :=
  decidable_of_iff (0 ∉ text ∧ newline ∉ text)
    ⟨fun both => ⟨both.1, both.2⟩, fun isLine => ⟨isLine.noNul, isLine.noNewline⟩⟩

variable {array text rest : List UInt8}

theorem takeLine_line (count : Nat) (noNewline : newline ∉ text) :
    takeLine count (text ++ newline :: rest) = (text ++ [newline]).take count := by
  induction text generalizing count with
  | nil => cases count <;> simp [takeLine]
  | cons byte text ih =>
      obtain ⟨here, later⟩ := not_or.mp (List.mem_cons.not.mp noNewline)
      cases count with
      | zero => rfl
      | succ count =>
          simp only [List.cons_append, takeLine, if_neg (Ne.symm here), ih count later,
            List.take_succ_cons]

theorem fgets_line (noNewline : newline ∉ text) (room : 1 < array.length) :
    fgets array (text ++ newline :: rest) =
      (putString array ((text ++ [newline]).take (array.length - 1)),
        (text ++ [newline]).drop (array.length - 1) ++ rest) := by
  have some : (text ++ [newline]).take (array.length - 1) ≠ [] := by
    intro empty
    have length := congrArg List.length empty
    simp only [List.length_take, List.length_append, List.length_singleton, List.length_nil]
      at length
    omega
  have wholeLine : text ++ newline :: rest = (text ++ [newline]).take (array.length - 1) ++
      ((text ++ [newline]).drop (array.length - 1) ++ rest) := by
    rw [← List.append_assoc, List.take_append_drop, List.append_cons]
  have behind : (text ++ newline :: rest).drop
      ((text ++ [newline]).take (array.length - 1)).length =
        (text ++ [newline]).drop (array.length - 1) ++ rest := by
    rw [wholeLine, List.drop_left]
  simp only [fgets, takeLine_line _ noNewline, if_neg some, behind]

theorem cString_set_zero {position : Nat} (inBounds : position < array.length)
    (noNul : 0 ∉ array.take position) :
    cString (array.set position 0) = array.take position := by
  rw [List.set_eq_take_append_cons_drop, if_pos inBounds, cString_append noNul]
  exact List.append_nil _

theorem take_strcspn (bytes : List UInt8) (reject : List UInt8) :
    bytes.take (strcspn bytes reject) = (cString bytes).takeWhile (· ∉ reject) := by
  have isPrefix : (cString bytes).takeWhile (· ∉ reject) <+: bytes :=
    (List.takeWhile_prefix _).trans (List.takeWhile_prefix _)
  exact (List.prefix_iff_eq_take.mp isPrefix).symm

theorem cString_endAtNewline (terminated : (cString array).length < array.length) :
    cString (endAtNewline array) = (cString array).takeWhile (· ≠ newline) := by
  have noNul : 0 ∉ array.take (strcspn array [newline]) := by
    rw [take_strcspn]
    exact fun member => zero_notMem_cString array ((List.takeWhile_prefix _).subset member)
  have bound : strcspn array [newline] ≤ (cString array).length :=
    (List.takeWhile_prefix _).length_le
  rw [endAtNewline, cString_set_zero (by omega) noNul, take_strcspn]
  simp only [List.mem_singleton]

/-- `fgets` and the cut at the newline give as much of the line as fits. -/
theorem cString_endAtNewline_fgets (isLine : IsLine text) (room : 1 < array.length) :
    cString (endAtNewline (fgets array (text ++ newline :: rest)).1) =
      text.take (array.length - 1) := by
  rw [fgets_line isLine.noNewline room]
  have noNul : 0 ∉ (text ++ [newline]).take (array.length - 1) := by
    intro member
    cases List.mem_append.mp (List.mem_of_mem_take member) with
    | inl inText => exact isLine.noNul inText
    | inr isEnd => exact absurd isEnd (by decide)
  have stored : cString (putString array ((text ++ [newline]).take (array.length - 1))) =
      (text ++ [newline]).take (array.length - 1) := by
    rw [cString_putString array noNul, List.take_take, Nat.min_eq_right (by omega)]
  have terminated : (cString (putString array
      ((text ++ [newline]).take (array.length - 1)))).length <
        (putString array ((text ++ [newline]).take (array.length - 1))).length := by
    rw [stored, length_putString, List.length_take]
    omega
  have whole : (text ++ [newline]).takeWhile (· ≠ newline) = text := by
    rw [List.takeWhile_append_of_pos (decide_ne_of_notMem isLine.noNewline)]
    exact List.append_nil _
  rw [cString_endAtNewline terminated, stored, ← List.take_takeWhile, whole]

section Pieces

theorem takeLine_isPrefix (count : Nat) (stream : List UInt8) :
    takeLine count stream <+: stream := by
  induction stream generalizing count with
  | nil => cases count <;> exact List.prefix_rfl
  | cons byte stream ih =>
      cases count with
      | zero => exact List.nil_prefix
      | succ count =>
          unfold takeLine
          split
          · exact (List.prefix_cons_inj byte).mpr List.nil_prefix
          · exact (List.prefix_cons_inj byte).mpr (ih count)

theorem takeLine_append_drop (count : Nat) (stream : List UInt8) :
    takeLine count stream ++ stream.drop (takeLine count stream).length = stream :=
  List.prefix_iff_eq_append.mp (takeLine_isPrefix count stream)

theorem length_takeLine_le (count : Nat) (stream : List UInt8) :
    (takeLine count stream).length ≤ count := by
  induction stream generalizing count with
  | nil => cases count <;> exact Nat.zero_le _
  | cons byte stream ih =>
      cases count with
      | zero => exact Nat.le_refl 0
      | succ count =>
          unfold takeLine
          split
          · exact Nat.succ_le_succ (Nat.zero_le count)
          · exact Nat.succ_le_succ (ih count)

theorem takeLine_ne_nil {count : Nat} {stream : List UInt8} (positive : 0 < count)
    (some : stream ≠ []) : takeLine count stream ≠ [] := by
  obtain ⟨byte, rest, rfl⟩ := List.exists_cons_of_ne_nil some
  obtain ⟨count, rfl⟩ := Nat.exists_eq_succ_of_ne_zero (Nat.ne_of_gt positive)
  unfold takeLine
  split <;> exact List.cons_ne_nil _ _

/-- Only the last byte of what is read can end a line. -/
theorem newline_notMem_dropLast_takeLine (count : Nat) (stream : List UInt8) :
    newline ∉ (takeLine count stream).dropLast := by
  induction stream generalizing count with
  | nil => cases count <;> exact List.not_mem_nil
  | cons byte stream ih =>
      cases count with
      | zero => exact List.not_mem_nil
      | succ count =>
          unfold takeLine
          split
          · exact List.not_mem_nil
          · rename_i other
            cases rest : takeLine count stream with
            | nil => exact List.not_mem_nil
            | cons next later =>
                rw [List.dropLast_cons_cons, ← rest, List.mem_cons]
                rintro (same | behind)
                · exact other same.symm
                · exact ih count behind

/-- What is read stops at a newline, at the limit, or at the end of the stream. -/
theorem takeLine_maximal (count : Nat) (stream : List UInt8) :
    (takeLine count stream).getLast? = some newline ∨ (takeLine count stream).length = count ∨
      takeLine count stream = stream := by
  induction stream generalizing count with
  | nil => cases count <;> exact .inr (.inr rfl)
  | cons byte stream ih =>
      cases count with
      | zero => exact .inr (.inl rfl)
      | succ count =>
          unfold takeLine
          split
          · rename_i ends
            exact .inl (ends ▸ rfl)
          · rcases ih count with last | full | whole
            · refine .inl ?_
              rw [List.getLast?_cons, last, Option.getD_some]
            · exact .inr (.inl (congrArg Nat.succ full))
            · exact .inr (.inr (congrArg (byte :: ·) whole))

/-- On an array of zeros, `fgets` stores what it takes from the stream. -/
theorem fgets_zeros (size : Nat) (stream : List UInt8) :
    cString (fgets (List.replicate size 0) stream).1 = cString (takeLine (size - 1) stream) ∧
      stream = takeLine (size - 1) stream ++ (fgets (List.replicate size 0) stream).2 := by
  unfold fgets
  rw [List.length_replicate]
  by_cases none : takeLine (size - 1) stream = []
  · rw [if_pos none, none]
    exact ⟨cString_zeros fun byte member => List.eq_of_mem_replicate member, rfl⟩
  · rw [if_neg none]
    refine ⟨?_, (takeLine_append_drop _ _).symm⟩
    have short := length_takeLine_le (size - 1) stream
    have bound : (cString (takeLine (size - 1) stream)).length ≤ size :=
      Nat.le_trans (List.takeWhile_prefix _).length_le (by omega)
    rw [putString, cString_take, List.length_replicate, cString_append_zero,
      List.take_of_length_le bound]

variable {Item : Type} {fronts pieces : List (List Item)}

theorem flatten_sublist_of_prefixes (prefixes : List.Forall₂ (· <+: ·) fronts pieces) :
    fronts.flatten.Sublist pieces.flatten := by
  induction prefixes with
  | nil => exact List.Sublist.refl []
  | cons front _ ih => exact front.sublist.append ih

/-- A front of each piece makes up the whole only if no piece is cut. -/
theorem flatten_eq_iff_of_prefixes (prefixes : List.Forall₂ (· <+: ·) fronts pieces) :
    fronts.flatten = pieces.flatten ↔ List.Forall₂ (· = ·) fronts pieces := by
  constructor
  · intro same
    induction prefixes with
    | nil => exact .nil
    | @cons front piece fronts pieces isFront later ih =>
        have short := (flatten_sublist_of_prefixes later).length_le
        have lengths := congrArg List.length same
        simp only [List.flatten_cons, List.length_append] at lengths
        have bound := isFront.length_le
        have whole : front = piece := isFront.eq_of_length (by omega)
        subst whole
        exact .cons rfl (ih (List.append_cancel_left same))
  · intro same
    rw [List.forall₂_eq_eq_eq] at same
    exact congrArg List.flatten same

end Pieces

end CBasics.Library
