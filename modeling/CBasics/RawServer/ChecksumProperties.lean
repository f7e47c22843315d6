import CBasics.Library.OnesComplement
import CBasics.RawServer.Basic

/-! `checksum` returns the Internet checksum in wire order, also of an odd number
of bytes, and a checksum stored in its field detects every corrupted byte. -/

set_option autoImplicit false

namespace CBasics.RawServer

open Library

/-- The big-endian words of a buffer, an odd last byte padded with zero. -/
def networkWords : List Byte → List Nat
  | first :: second :: rest => (256 * first.toNat + second.toNat) :: networkWords rest
  | [last] => [256 * last.toNat]
  | [] => []

/-- The two bytes of the Internet checksum in network order. -/
def rfc1071 (b : List Byte) : List Byte :=
  let complement := 65535 - OnesComplement.sum 65535 (networkWords b)
  [UInt8.ofNat (complement / 256), UInt8.ofNat (complement % 256)]

/-- The words that a little-endian host adds up. -/
def hostWords : List Byte → List Nat
  | first :: second :: rest => (first.toNat + 256 * second.toNat) :: hostWords rest
  | [last] => [last.toNat]
  | [] => []

def swap (word : Nat) : Nat := 256 * (word % 256) + word / 256

theorem hostWords_le (b : List Byte) : ∀ word ∈ hostWords b, word ≤ 65535 := by
  fun_induction hostWords b with
  | case1 first second rest ih =>
      refine List.forall_mem_cons.mpr ⟨?_, ih⟩
      have := first.toNat_lt
      have := second.toNat_lt
      omega
  | case2 last =>
      refine List.forall_mem_singleton.mpr ?_
      have := last.toNat_lt
      omega
  | case3 => simp

theorem map_swap_hostWords (b : List Byte) : (hostWords b).map swap = networkWords b := by
  fun_induction hostWords b with
  | case1 first second rest ih =>
      have := first.toNat_lt
      have := second.toNat_lt
      rw [List.map_cons, ih, networkWords, swap]
      congr 1
      omega
  | case2 last =>
      have := last.toNat_lt
      rw [List.map_singleton, networkWords, swap]
      congr 1
      omega
  | case3 => rfl

/-- Swapping the bytes of a word multiplies it by 256. -/
theorem scales_swap : OnesComplement.Scales 65535 256 swap where
  le := by
    intro word bound
    unfold swap
    omega
  modEq := by
    intro word _
    unfold Nat.ModEq swap
    omega
  zero := by
    intro word _
    unfold swap
    omega

theorem sum_networkWords (b : List Byte) :
    OnesComplement.sum 65535 (networkWords b) =
      swap (OnesComplement.sum 65535 (hostWords b)) := by
  rw [← map_swap_hostWords]
  exact scales_swap.sum_map (hostWords_le b)

section Accumulator

theorem sum_hostWords_le (b : List Byte) : 2 * (hostWords b).sum ≤ 65535 * (b.length + 1) := by
  fun_induction hostWords b with
  | case1 first second rest ih =>
      have := first.toNat_lt
      have := second.toNat_lt
      simp only [List.sum_cons, List.length_cons]
      omega
  | case2 last =>
      have := last.toNat_lt
      simp only [List.sum_cons, List.sum_nil, List.length_cons, List.length_nil]
      omega
  | case3 => simp

theorem toNat_loadShort (first second : Byte) :
    (loadShort first second).toNat = first.toNat + 256 * second.toNat := by
  have low : first.toNat < 2 ^ 8 := first.toNat_lt
  rw [loadShort, BitVec.toNat_append, UInt8.toNat_toBitVec, UInt8.toNat_toBitVec,
    ← Nat.shiftLeft_add_eq_or_of_lt low, Nat.shiftLeft_eq]
  omega

theorem toNat_sumWords {sum : BitVec 32} {b : List Byte}
    (small : sum.toNat + (hostWords b).sum < 2 ^ 32) :
    (sumWords sum b).toNat = sum.toNat + (hostWords b).sum := by
  fun_induction sumWords sum b with
  | case1 sum first second rest ih =>
      simp only [hostWords, List.sum_cons] at small ⊢
      have word : ((loadShort first second).setWidth 32).toNat =
          first.toNat + 256 * second.toNat := by
        rw [BitVec.toNat_setWidth, toNat_loadShort]
        have := first.toNat_lt
        have := second.toNat_lt
        omega
      have added : (sum + (loadShort first second).setWidth 32).toNat =
          sum.toNat + (first.toNat + 256 * second.toNat) := by
        rw [BitVec.toNat_add, word]
        omega
      rw [added] at ih
      rw [ih (by omega), Nat.add_assoc]
  | case2 sum last =>
      simp only [hostWords, List.sum_cons, List.sum_nil] at small ⊢
      have byte : (last.toBitVec.setWidth 32).toNat = last.toNat := by
        rw [BitVec.toNat_setWidth, UInt8.toNat_toBitVec]
        have := last.toNat_lt
        omega
      rw [BitVec.toNat_add, byte]
      omega
  | case3 sum => simp [hostWords]

theorem toNat_foldCarries {sum : BitVec 32} {folded : Nat}
    (foldedEq : folded = sum.toNat / 65536 + sum.toNat % 65536) :
    (foldCarries sum).toNat = folded + folded / 65536 := by
  have bound := sum.isLt
  have first : ((sum >>> 16) + (sum &&& 0xFFFF)).toNat = folded := by
    have mask : (sum &&& 0xFFFF).toNat = sum.toNat % 65536 := by
      rw [BitVec.toNat_and]
      exact Nat.and_two_pow_sub_one_eq_mod sum.toNat 16
    rw [BitVec.toNat_add, BitVec.toNat_ushiftRight, mask, Nat.shiftRight_eq_div_pow]
    omega
  rw [foldCarries, BitVec.toNat_add, BitVec.toNat_ushiftRight, first, Nat.shiftRight_eq_div_pow]
  omega

/-- The checksum is the complement of the one's-complement sum of the words. -/
theorem toNat_checksum {b : List Byte} (short : b.length ≤ 65535) :
    (checksum b).toNat = 65535 - OnesComplement.sum 65535 (hostWords b) := by
  have bound := sum_hostWords_le b
  have empty : (0 : BitVec 32).toNat = 0 := rfl
  have accumulated : (sumWords 0 b).toNat = (hostWords b).sum := by
    rw [toNat_sumWords (by rw [empty]; omega), empty, Nat.zero_add]
  have folded : (foldCarries (sumWords 0 b)).toNat = _ := toNat_foldCarries rfl
  rw [accumulated] at folded
  have reduced : OnesComplement.Reduces (65536 - 1) (hostWords b).sum _ :=
    OnesComplement.reduces_twoFolds (by decide) (by omega) rfl
  rw [← folded] at reduced
  rw [(OnesComplement.reduces_sum (hostWords_le b)).unique reduced, checksum,
    BitVec.toNat_setWidth, BitVec.toNat_not]
  omega

end Accumulator

theorem storeShort_eq (value : BitVec 16) :
    storeShort value = [UInt8.ofNat (value.toNat % 256), UInt8.ofNat (value.toNat / 256)] := by
  have low : (⟨value.setWidth 8⟩ : UInt8) = UInt8.ofNat (value.toNat % 256) := by
    apply UInt8.toNat_inj.mp
    simp
  have high : (⟨(value >>> 8).setWidth 8⟩ : UInt8) = UInt8.ofNat (value.toNat / 256) := by
    apply UInt8.toNat_inj.mp
    simp [Nat.shiftRight_eq_div_pow]
  rw [storeShort, low, high]

theorem swap_complement {word : Nat} (bound : word ≤ 65535) :
    swap (65535 - word) = 65535 - swap word := by
  have split := Nat.div_add_mod word 256
  have low : word % 256 < 256 := Nat.mod_lt word (by decide)
  unfold swap
  generalize word / 256 = high at split ⊢
  generalize word % 256 = last at split low ⊢
  have digits : 65535 - word = 256 * (255 - high) + (255 - last) := by omega
  rw [digits]
  omega

theorem swap_digits {word : Nat} (bound : word ≤ 65535) :
    swap word / 256 = word % 256 ∧ swap word % 256 = word / 256 := by
  have high : word / 256 < 256 := by omega
  unfold swap
  generalize word / 256 = first at high ⊢
  generalize word % 256 = last
  omega

/-- Stored on a little-endian host, the checksum is the one of RFC 1071. -/
theorem storeShort_checksum {b : List Byte} (short : b.length ≤ 65535) :
    storeShort (checksum b) = rfc1071 b := by
  have bound := (OnesComplement.reduces_sum (hostWords_le b)).le
  have wire : 65535 - OnesComplement.sum 65535 (networkWords b) =
      swap (65535 - OnesComplement.sum 65535 (hostWords b)) := by
    rw [sum_networkWords, swap_complement bound]
  obtain ⟨first, second⟩ := swap_digits (Nat.sub_le 65535 (OnesComplement.sum 65535 (hostWords b)))
  rw [storeShort_eq, toNat_checksum short, rfc1071, wire]
  simp only [first, second]

/-- An odd buffer whose words sum up to more than sixteen bits. -/
theorem storeShort_checksum_odd :
    storeShort (checksum [0x45, 0x00, 0xff, 0xff, 0x1c]) = rfc1071 [0x45, 0x00, 0xff, 0xff, 0x1c] :=
  storeShort_checksum (by decide)

section Detection

/-- Store an `unsigned short` at an offset of the buffer. -/
def writeShort (b : List Byte) (k : Nat) (value : BitVec 16) : List Byte :=
  (b.set k ⟨value.setWidth 8⟩).set (k + 1) ⟨(value >>> 8).setWidth 8⟩

/-- Zero the field at `k` and store there the checksum of the buffer. -/
def sealField (b : List Byte) (k : Nat) : List Byte :=
  writeShort (writeShort b k 0) k (checksum (writeShort b k 0))

/-- The checksum of a sealed buffer is 0, and not 0 after any one byte changed. -/
structure Detects (b : List Byte) (k : Nat) : Prop where
  intact : checksum (sealField b k) = 0
  corrupted : ∀ j old byte, (sealField b k)[j]? = some old → byte ≠ old →
    checksum ((sealField b k).set j byte) ≠ 0

/-- What a byte counts for in the sum of the words. -/
def weight (index : Nat) : Nat := if index % 2 = 0 then 1 else 256

theorem sum_hostWords_set {b : List Byte} {j : Nat} {old : Byte} (found : b[j]? = some old)
    (byte : Byte) :
    (hostWords (b.set j byte)).sum + weight j * old.toNat =
      (hostWords b).sum + weight j * byte.toNat := by
  fun_induction hostWords b generalizing j with
  | case1 first second rest ih =>
      match j with
      | 0 =>
          obtain rfl : first = old := by simpa using found
          simp [hostWords, weight]
          omega
      | 1 =>
          obtain rfl : second = old := by simpa using found
          simp [hostWords, weight]
          omega
      | j + 2 =>
          have later := ih (j := j) (by simpa using found)
          have parity : weight (j + 2) = weight j := by simp [weight]
          simp only [List.set_cons_succ, hostWords, List.sum_cons, parity]
          omega
  | case2 last =>
      match j with
      | 0 =>
          obtain rfl : last = old := by simpa using found
          simp [hostWords, weight]
          omega
      | j + 1 => simp at found
  | case3 => simp at found

theorem sum_hostWords_writeShort {b : List Byte} {k : Nat} (even : k % 2 = 0) {low high : Byte}
    (lowFound : b[k]? = some low) (highFound : b[k + 1]? = some high) (value : BitVec 16) :
    (hostWords (writeShort b k value)).sum + (low.toNat + 256 * high.toNat) =
      (hostWords b).sum + value.toNat := by
  have still : (b.set k ⟨value.setWidth 8⟩)[k + 1]? = some high := by
    rw [List.getElem?_set_ne (by omega)]
    exact highFound
  have first := sum_hostWords_set lowFound ⟨value.setWidth 8⟩
  have second := sum_hostWords_set still ⟨(value >>> 8).setWidth 8⟩
  have odd : ¬ (k + 1) % 2 = 0 := by omega
  have bytes : (⟨value.setWidth 8⟩ : Byte).toNat +
      256 * (⟨(value >>> 8).setWidth 8⟩ : Byte).toNat = value.toNat := by
    have := value.isLt
    simp [Nat.shiftRight_eq_div_pow]
    omega
  simp only [weight, even, odd, if_true, if_false] at first second
  rw [writeShort]
  omega

theorem length_writeShort (b : List Byte) (k : Nat) (value : BitVec 16) :
    (writeShort b k value).length = b.length := by
  simp [writeShort]

theorem getElem?_writeShort {b : List Byte} {k : Nat} (inside : k + 1 < b.length)
    (value : BitVec 16) :
    (writeShort b k value)[k]? = some ⟨value.setWidth 8⟩ ∧
      (writeShort b k value)[k + 1]? = some ⟨(value >>> 8).setWidth 8⟩ := by
  have first : k < b.length := by omega
  simp [writeShort, first, inside]

theorem checksum_eq_zero_iff {b : List Byte} (short : b.length ≤ 65535) :
    checksum b = 0 ↔ OnesComplement.Reduces 65535 (hostWords b).sum 65535 := by
  have reduces := OnesComplement.reduces_sum (hostWords_le b)
  have value := toNat_checksum short
  have bound := reduces.le
  constructor
  · intro zero
    rw [zero] at value
    have full : OnesComplement.sum 65535 (hostWords b) = 65535 := by
      have none : (0 : BitVec 16).toNat = 0 := rfl
      omega
    rwa [full] at reduces
  · intro full
    rw [reduces.unique full] at value
    exact BitVec.eq_of_toNat_eq value

theorem length_sealField (b : List Byte) (k : Nat) : (sealField b k).length = b.length := by
  rw [sealField, length_writeShort, length_writeShort]

theorem sum_hostWords_sealField {b : List Byte} {k : Nat} (even : k % 2 = 0)
    (inside : k + 1 < b.length) :
    (hostWords (sealField b k)).sum =
      (hostWords (writeShort b k 0)).sum + (checksum (writeShort b k 0)).toNat := by
  have cleared : k + 1 < (writeShort b k 0).length := by rwa [length_writeShort]
  obtain ⟨low, high⟩ := getElem?_writeShort inside 0
  have total := sum_hostWords_writeShort even low high (checksum (writeShort b k 0))
  simpa [sealField] using total

/-- A checksum in an even field verifies, and detects one corrupted byte anywhere. -/
theorem checksum_detects {b : List Byte} {k : Nat} (short : b.length ≤ 65535)
    (even : k % 2 = 0) (inside : k + 1 < b.length) : Detects b k := by
  have zeroed : (writeShort b k 0).length ≤ 65535 := by rwa [length_writeShort]
  have full : OnesComplement.Reduces 65535 (hostWords (sealField b k)).sum 65535 := by
    rw [sum_hostWords_sealField even inside, toNat_checksum zeroed]
    exact (OnesComplement.reduces_sum (hostWords_le _)).add_complement (by decide)
  refine ⟨(checksum_eq_zero_iff (by rwa [length_sealField])).mpr full, ?_⟩
  intro j old byte found other zero
  have changed := (checksum_eq_zero_iff (by rwa [List.length_set, length_sealField])).mp zero
  have balance := sum_hostWords_set found byte
  have bounds : old.toNat < 256 ∧ byte.toNat < 256 := ⟨old.toNat_lt, byte.toNat_lt⟩
  have distinct : byte.toNat ≠ old.toNat := fun same => other (UInt8.toNat_inj.mp same)
  -- Both sums are multiples of 65535, and one byte cannot make up the difference.
  have before := full.modEq
  have after := changed.modEq
  unfold Nat.ModEq at before after
  unfold weight at balance
  split at balance <;> omega

theorem checksum_detects_header : Detects [0x45, 0x00, 0xff, 0xff, 0x1c] 2 :=
  checksum_detects (by decide) (by decide) (by decide)

end Detection

end CBasics.RawServer
