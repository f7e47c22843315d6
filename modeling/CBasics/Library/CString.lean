import Mathlib.Algebra.Order.Ring.Int
import Mathlib.Data.List.TakeWhile
import Mathlib.Data.List.Basic

/-! Byte arrays read and written as C strings, and byte streams that are cut
into pieces each of which is printed as one C string. -/

set_option autoImplicit false

namespace CBasics.Library

/-- What `%s` prints and `strcpy` copies: everything before the first NUL. -/
def cString (bytes : List UInt8) : List UInt8 := bytes.takeWhile (· ≠ 0)

/-- Write a string and its terminator to the front of an array. What does not
fit is lost here; the caller has to compare the lengths. -/
def putString (array text : List UInt8) : List UInt8 :=
  (text ++ 0 :: array.drop (text.length + 1)).take array.length

def ascii (text : String) : List UInt8 := text.toList.map Char.toUInt8

/-- What `%d` prints. -/
def decimal (value : Int) : List UInt8 :=
  if value < 0 then ascii "-" ++ (Nat.toDigits 10 value.natAbs).map Char.toUInt8
  else (Nat.toDigits 10 value.natAbs).map Char.toUInt8

/-- A string followed by nothing but NULs. -/
def Padded (bytes : List UInt8) : Prop := ∀ byte ∈ bytes.dropWhile (· ≠ 0), byte = 0

instance (bytes : List UInt8) : Decidable (Padded bytes) :=
  inferInstanceAs (Decidable (∀ byte ∈ _, byte = 0))

theorem zero_notMem_cString (bytes : List UInt8) : 0 ∉ cString bytes := by
  intro member
  simpa using List.mem_takeWhile_imp member

theorem cString_isPrefix (bytes : List UInt8) : cString bytes <+: bytes := List.takeWhile_prefix _

theorem take_length_cString (bytes : List UInt8) :
    bytes.take (cString bytes).length = cString bytes :=
  (List.prefix_iff_eq_take.mp (cString_isPrefix bytes)).symm

theorem cString_append_dropWhile (bytes : List UInt8) :
    cString bytes ++ bytes.dropWhile (· ≠ 0) = bytes :=
  List.takeWhile_append_dropWhile

theorem decide_ne_of_notMem {text : List UInt8} {absent : UInt8} (notMem : absent ∉ text) :
    ∀ byte ∈ text, decide (byte ≠ absent) = true := by
  intro byte member
  simpa using fun same : byte = absent => notMem (same ▸ member)

theorem cString_append {text rest : List UInt8} (noNul : 0 ∉ text) :
    cString (text ++ rest) = text ++ cString rest :=
  List.takeWhile_append_of_pos (decide_ne_of_notMem noNul)

theorem cString_append_zero (text rest : List UInt8) :
    cString (text ++ 0 :: rest) = cString text := by
  induction text with
  | nil => rfl
  | cons byte text ih =>
      unfold cString at ih ⊢
      by_cases zero : byte = 0
      · simp [zero]
      · simpa [zero] using ih

theorem cString_eq_self {text : List UInt8} (noNul : 0 ∉ text) : cString text = text :=
  List.takeWhile_eq_self_iff.mpr (decide_ne_of_notMem noNul)

theorem padded_append {text rest : List UInt8} (noNul : 0 ∉ text) :
    Padded (text ++ rest) ↔ Padded rest := by
  unfold Padded
  rw [List.dropWhile_append_of_pos (decide_ne_of_notMem noNul)]

theorem padded_zeros {bytes : List UInt8} (zeros : ∀ byte ∈ bytes, byte = 0) : Padded bytes :=
  fun byte member => zeros byte ((List.dropWhile_suffix _).subset member)

theorem cString_zeros {bytes : List UInt8} (zeros : ∀ byte ∈ bytes, byte = 0) :
    cString bytes = [] := by
  unfold cString
  rw [List.takeWhile_eq_nil_iff]
  intro nonempty
  simpa using zeros _ (List.getElem_mem nonempty)

theorem Padded.split {bytes : List UInt8} (padded : Padded bytes) :
    ∃ zeros, bytes = cString bytes ++ zeros ∧ ∀ byte ∈ zeros, byte = 0 :=
  ⟨bytes.dropWhile (· ≠ 0), (cString_append_dropWhile bytes).symm, padded⟩

theorem cString_take (bytes : List UInt8) (count : Nat) :
    cString (bytes.take count) = (cString bytes).take count := List.take_takeWhile.symm

theorem cString_append_zeros (bytes : List UInt8) {zeros : List UInt8}
    (allZero : ∀ byte ∈ zeros, byte = 0) : cString (bytes ++ zeros) = cString bytes := by
  have none : zeros.takeWhile (· ≠ 0) = [] := cString_zeros allZero
  unfold cString
  rw [List.takeWhile_append, none, List.append_nil]
  split
  · rename_i whole
    exact ((List.takeWhile_prefix _).eq_of_length whole).symm
  · rfl

theorem Padded.drop {bytes : List UInt8} (padded : Padded bytes) (count : Nat) :
    Padded (bytes.drop count) := by
  obtain ⟨zeros, split, allZero⟩ := padded.split
  have noNul := zero_notMem_cString bytes
  rw [split, List.drop_append]
  rw [padded_append fun member => noNul (List.mem_of_mem_drop member)]
  exact padded_zeros fun byte member => allZero byte (List.mem_of_mem_drop member)

theorem Padded.cString_drop {bytes : List UInt8} (padded : Padded bytes) (count : Nat) :
    cString (bytes.drop count) = (cString bytes).drop count := by
  obtain ⟨zeros, split, allZero⟩ := padded.split
  have noNul : 0 ∉ (cString bytes).drop count :=
    fun member => zero_notMem_cString bytes (List.mem_of_mem_drop member)
  conv_lhs => rw [split, List.drop_append, cString_append noNul]
  rw [cString_zeros fun byte member => allZero byte (List.mem_of_mem_drop member), List.append_nil]

theorem Padded.take {bytes : List UInt8} (padded : Padded bytes) (count : Nat) :
    Padded (bytes.take count) := by
  obtain ⟨zeros, split, allZero⟩ := padded.split
  have noNul := zero_notMem_cString bytes
  rw [split, List.take_append]
  rw [padded_append fun member => noNul (List.mem_of_mem_take member)]
  exact padded_zeros fun byte member => allZero byte (List.mem_of_mem_take member)

section Arrays

def ZeroFrom (position : Nat) (array : List UInt8) : Prop :=
  ∀ byte ∈ array.drop position, byte = 0

theorem zeroFrom_replicate (position count : Nat) : ZeroFrom position (List.replicate count 0) := by
  intro byte member
  exact List.eq_of_mem_replicate (List.mem_of_mem_drop member)

theorem ZeroFrom.mono {low high : Nat} {array : List UInt8} (zero : ZeroFrom low array)
    (le : low ≤ high) : ZeroFrom high array := by
  intro byte member
  rw [← Nat.add_sub_cancel' le, ← List.drop_drop] at member
  exact zero byte (List.mem_of_mem_drop member)

theorem Padded.zeroFrom {array : List UInt8} (padded : Padded array) :
    ZeroFrom (cString array).length array := by
  obtain ⟨zeros, split, allZero⟩ := padded.split
  have rest : array.drop (cString array).length = zeros :=
    (congrArg (List.drop (cString array).length) split).trans List.drop_left
  exact fun byte member => allZero byte (rest ▸ member)

theorem length_putString (array text : List UInt8) :
    (putString array text).length = array.length := by
  simp only [putString, List.length_take, List.length_append, List.length_cons, List.length_drop]
  omega

/-- Writing a string clears nothing beyond its terminator and dirties nothing. -/
theorem ZeroFrom.putString {position : Nat} {array text : List UInt8}
    (zero : ZeroFrom position array) (fits : text.length ≤ position) :
    ZeroFrom position (putString array text) := by
  intro byte member
  unfold Library.putString at member
  rw [List.drop_take] at member
  have written := List.mem_of_mem_take member
  rw [List.drop_append, List.drop_eq_nil_of_le fits, List.nil_append] at written
  cases gap : position - text.length with
  | zero =>
      rw [gap, List.drop_zero] at written
      cases List.mem_cons.mp written with
      | inl terminator => exact terminator
      | inr rest => exact zero.mono (by omega) byte rest
  | succ between =>
      rw [gap, List.drop_succ_cons, List.drop_drop] at written
      exact zero.mono (by omega) byte written

/-- Over an array whose rest is zero, writing a string leaves it padded. -/
theorem padded_putString {array text : List UInt8} (noNul : 0 ∉ text)
    (rest : ZeroFrom (text.length + 1) array) : Padded (putString array text) := by
  refine Padded.take ?_ _
  rw [padded_append noNul]
  exact padded_zeros fun byte member => (List.mem_cons.mp member).elim id (rest byte)

theorem cString_putString (array : List UInt8) {text : List UInt8} (noNul : 0 ∉ text) :
    cString (putString array text) = text.take array.length := by
  unfold putString
  rw [cString_take, cString_append noNul]
  simp [cString]

/-- What an array begins with after a string has been written to it. -/
theorem take_putString {array front rest : List UInt8} {more : Nat}
    (room : front.length + more ≤ array.length) :
    (putString array (front ++ rest)).take (front.length + more) =
      front ++ (rest ++ 0 :: array.drop ((front ++ rest).length + 1)).take more := by
  rw [putString, List.take_take, Nat.min_eq_left room, List.append_assoc,
    List.take_length_add_append]

theorem exists_append_replicate_iff {front rest : List UInt8} :
    (∃ count, front ++ rest = front ++ List.replicate count 0) ↔ ∀ byte ∈ rest, byte = 0 := by
  constructor
  · rintro ⟨count, same⟩ byte member
    rw [List.append_cancel_left same] at member
    exact List.eq_of_mem_replicate member
  · intro zeros
    exact ⟨rest.length, congrArg _ (List.eq_replicate_of_mem zeros)⟩

/-- Only NULs follow, up to a positive length: there is no string, and there are
only NULs behind its terminator. -/
theorem take_cString_zeros_iff {bytes behind : List UInt8} {more : Nat} :
    (∀ byte ∈ (cString bytes ++ 0 :: behind).take (more + 1), byte = 0) ↔
      cString bytes = [] ∧ ∀ byte ∈ behind.take more, byte = 0 := by
  have noNul := zero_notMem_cString bytes
  generalize cString bytes = text at noNul ⊢
  cases text with
  | nil => simp
  | cons first rest =>
      have nonzero : first ≠ 0 := fun zero => noNul (zero ▸ List.mem_cons_self)
      simp [nonzero]

/-- An array holds the empty string from a position on if it has a NUL there. -/
theorem cString_drop_eq_nil_iff {array : List UInt8} {position : Nat}
    (inside : position < array.length) :
    cString (array.drop position) = [] ↔ array[position]? = some 0 := by
  rw [List.drop_eq_getElem_cons inside, List.getElem?_eq_getElem inside, cString,
    List.takeWhile_cons]
  split <;> simp_all

end Arrays

section Decimal

theorem digit_ne_zero {char : Char} (digit : char.isDigit = true) : char.toUInt8 ≠ 0 := by
  intro zero
  have bounds : 48 ≤ char.val.toNat ∧ char.val.toNat ≤ 57 := by
    simpa [Char.isDigit, UInt32.le_iff_toNat_le] using digit
  have same : char.val.toUInt8.toNat = 0 := congrArg UInt8.toNat zero
  rw [UInt32.toNat_toUInt8] at same
  omega

theorem zero_notMem_decimal (value : Int) : 0 ∉ decimal value := by
  have digits : 0 ∉ (Nat.toDigits 10 value.natAbs).map Char.toUInt8 := by
    intro member
    obtain ⟨char, isDigit, zero⟩ := List.mem_map.mp member
    exact digit_ne_zero (Nat.isDigit_of_mem_toDigits (by decide) (by decide) isDigit) zero
  unfold decimal
  split
  · rw [List.mem_append]
    rintro (sign | member)
    · exact absurd sign (by decide)
    · exact digits member
  · exact digits

theorem length_decimal_le_iff {value : Int} {digits : Nat} (nonneg : 0 ≤ value)
    (positive : 0 < digits) : (decimal value).length ≤ digits ↔ value < 10 ^ digits := by
  have small : value < 10 ^ digits ↔ value.natAbs < 10 ^ digits := by
    have natural : (value.natAbs : Int) = value := Int.natAbs_of_nonneg nonneg
    conv_lhs => rw [← natural]
    norm_cast
  rw [small]
  simpa [decimal, Int.not_lt.mpr nonneg] using Nat.length_toDigits_le_iff (by decide) positive

theorem length_decimal_le {value : Int} {digits : Nat} (nonneg : 0 ≤ value) (positive : 0 < digits)
    (bound : value < 10 ^ digits) : (decimal value).length ≤ digits :=
  (length_decimal_le_iff nonneg positive).mpr bound

theorem length_decimal_pos (value : Int) : 0 < (decimal value).length := by
  have digits : 0 < (Nat.toDigits 10 value.natAbs).length := Nat.length_toDigits_pos
  unfold decimal
  split <;> simp <;> omega

end Decimal

section Printing

/-- Each piece of a stream is printed as one C string. -/
def printed (pieces : List (List UInt8)) : List UInt8 := pieces.flatMap cString

/-- The bytes of a stream that are text. -/
def nonzero (bytes : List UInt8) : List UInt8 := bytes.filter (· ≠ 0)

@[simp] theorem nonzero_nil : nonzero [] = [] := rfl

theorem nonzero_append (left right : List UInt8) :
    nonzero (left ++ right) = nonzero left ++ nonzero right := List.filter_append ..

theorem nonzero_eq_self {bytes : List UInt8} (noNul : 0 ∉ bytes) : nonzero bytes = bytes :=
  List.filter_eq_self.mpr (decide_ne_of_notMem noNul)

theorem nonzero_eq_cString_append (bytes : List UInt8) :
    nonzero bytes = cString bytes ++ nonzero (bytes.dropWhile (· ≠ 0)) := by
  conv_lhs => rw [← cString_append_dropWhile bytes]
  rw [nonzero_append, nonzero_eq_self (zero_notMem_cString bytes)]

theorem padded_iff_nonzero_dropWhile (bytes : List UInt8) :
    Padded bytes ↔ nonzero (bytes.dropWhile (· ≠ 0)) = [] := by
  simp [Padded, nonzero]

theorem Padded.nonzero_eq {bytes : List UInt8} (padded : Padded bytes) :
    nonzero bytes = cString bytes := by
  rw [nonzero_eq_cString_append, (padded_iff_nonzero_dropWhile bytes).mp padded, List.append_nil]

theorem length_printed_le (pieces : List (List UInt8)) :
    (printed pieces).length ≤ (nonzero pieces.flatten).length := by
  induction pieces with
  | nil => exact Nat.le_refl 0
  | cons piece rest ih =>
      simp only [printed, List.flatMap_cons, List.flatten_cons, nonzero_append, List.length_append]
        at ih ⊢
      rw [nonzero_eq_cString_append piece, List.length_append]
      omega

/-- The whole text of a stream is printed if and only if in no piece text
follows a NUL; the number of printed bytes alone decides it. -/
theorem length_printed_eq_iff (pieces : List (List UInt8)) :
    (printed pieces).length = (nonzero pieces.flatten).length ↔ ∀ piece ∈ pieces, Padded piece := by
  induction pieces with
  | nil => simp [printed, nonzero]
  | cons piece rest ih =>
      have bound := length_printed_le rest
      rw [List.forall_mem_cons, padded_iff_nonzero_dropWhile, ← ih, ← List.length_eq_zero_iff]
      simp only [printed, List.flatMap_cons, List.flatten_cons, nonzero_append, List.length_append]
        at bound ⊢
      rw [nonzero_eq_cString_append piece, List.length_append]
      omega

theorem printed_eq_flatten {pieces : List (List UInt8)} (noNul : ∀ piece ∈ pieces, 0 ∉ piece) :
    printed pieces = pieces.flatten := by
  have whole : printed pieces = pieces.flatMap id :=
    List.flatMap_congr fun piece member => cString_eq_self (noNul piece member)
  rw [whole, List.flatMap_id]

theorem printed_eq_nonzero {pieces : List (List UInt8)} (padded : ∀ piece ∈ pieces, Padded piece) :
    printed pieces = nonzero pieces.flatten := by
  induction pieces with
  | nil => rfl
  | cons piece rest ih =>
      obtain ⟨here, later⟩ := List.forall_mem_cons.mp padded
      rw [List.flatten_cons, nonzero_append, ← ih later, here.nonzero_eq]
      rfl

end Printing

section Excess

variable {Block : Type} {sent text : Block → List UInt8} {clean : Block → Prop}

/-- What is sent for a block is its text and more; nothing more if and only if
the block is clean. -/
def Carries (sent text : Block → List UInt8) (clean : Block → Prop) (block : Block) : Prop :=
  ∃ excess, sent block = text block ++ excess ∧ (excess = [] ↔ clean block)

theorem length_text_le {blocks : List Block}
    (carries : ∀ block ∈ blocks, Carries sent text clean block) :
    (blocks.flatMap text).length ≤ (blocks.flatMap sent).length := by
  induction blocks with
  | nil => exact Nat.le_refl 0
  | cons block rest ih =>
      obtain ⟨⟨excess, split, -⟩, carriesRest⟩ := List.forall_mem_cons.mp carries
      have later := ih carriesRest
      simp only [List.flatMap_cons, List.length_append, split]
      omega

theorem sent_eq_text {blocks : List Block}
    (carries : ∀ block ∈ blocks, Carries sent text clean block)
    (allClean : ∀ block ∈ blocks, clean block) : blocks.flatMap sent = blocks.flatMap text := by
  induction blocks with
  | nil => rfl
  | cons block rest ih =>
      obtain ⟨⟨excess, split, none⟩, carriesRest⟩ := List.forall_mem_cons.mp carries
      obtain ⟨here, later⟩ := List.forall_mem_cons.mp allClean
      rw [List.flatMap_cons, List.flatMap_cons, ih carriesRest later, split, none.mpr here,
        List.append_nil]

theorem clean_of_length_eq {blocks : List Block}
    (carries : ∀ block ∈ blocks, Carries sent text clean block)
    (same : (blocks.flatMap sent).length = (blocks.flatMap text).length) :
    ∀ block ∈ blocks, clean block := by
  induction blocks with
  | nil => simp
  | cons block rest ih =>
      obtain ⟨⟨excess, split, none⟩, carriesRest⟩ := List.forall_mem_cons.mp carries
      have bound := length_text_le carriesRest
      simp only [List.flatMap_cons, List.length_append, split] at same
      have empty : excess = [] := List.length_eq_zero_iff.mp (by omega)
      exact List.forall_mem_cons.mpr ⟨none.mp empty, ih carriesRest (by omega)⟩

end Excess

section Cutting

variable {Block : Type} {sent text : Block → List UInt8} {clean : Block → Prop}
  {blocks : List Block} {pieces : List (List UInt8)}

/-- If all blocks are clean, exactly the pieces in which text follows a NUL
make the printed text differ. -/
theorem printed_eq_iff_padded (carries : ∀ block ∈ blocks, Carries sent text clean block)
    (stream : nonzero pieces.flatten = blocks.flatMap sent)
    (allClean : ∀ block ∈ blocks, clean block) :
    printed pieces = blocks.flatMap text ↔ ∀ piece ∈ pieces, Padded piece := by
  have whole := stream.trans (sent_eq_text carries allClean)
  constructor
  · intro same
    exact (length_printed_eq_iff pieces).mp (by rw [same, whole])
  · intro padded
    exact (printed_eq_nonzero padded).trans whole

theorem printed_eq_iff_clean (carries : ∀ block ∈ blocks, Carries sent text clean block)
    (stream : nonzero pieces.flatten = blocks.flatMap sent)
    (padded : ∀ piece ∈ pieces, Padded piece) :
    printed pieces = blocks.flatMap text ↔ ∀ block ∈ blocks, clean block := by
  have whole := (printed_eq_nonzero padded).trans stream
  constructor
  · intro same
    exact clean_of_length_eq carries (by rw [← whole, same])
  · intro allClean
    exact whole.trans (sent_eq_text carries allClean)

end Cutting

end CBasics.Library
