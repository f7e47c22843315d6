import CBasics.Library.ByteOrder
import CBasics.PortableFloat.RoundTripProperties

/-! The bytes of an encoded float in the memory of two hosts. The word is in the
host's own order, so they agree on the words that read the same both ways. -/

set_option autoImplicit false

namespace CBasics.PortableFloat

open Library

theorem ofNat_byte_inj {left right : Nat} :
    UInt8.ofNat (left % 256) = UInt8.ofNat (right % 256) ↔ left % 256 = right % 256 := by
  have byte : ∀ number : Nat, (UInt8.ofNat (number % 256)).toNat = number % 256 :=
    fun number => UInt8.toNat_ofNat_of_lt (Nat.mod_lt number (by decide))
  rw [← UInt8.toNat_inj, byte, byte]

theorem storeWord_little_eq_big_iff (word : BitVec 32) :
    ByteOrder.little.storeWord word = ByteOrder.big.storeWord word ↔
      word.toNat % 256 = word.toNat / 16777216 % 256 ∧
        word.toNat / 256 % 256 = word.toNat / 65536 % 256 := by
  simp only [ByteOrder.storeWord, ByteOrder.store, ByteOrder.digits, List.reverse_cons,
    List.reverse_nil, List.nil_append, List.cons_append, List.cons.injEq, and_true,
    ofNat_byte_inj, Nat.div_div_eq_div_mul]
  constructor
  · rintro ⟨outer, inner, -⟩
    exact ⟨outer, inner⟩
  · rintro ⟨outer, inner⟩
    exact ⟨outer, inner, inner.symm, outer.symm⟩

/-- The two bytes before the point, with the sign on top, are those behind it
the other way round. -/
def Palindromic (value : ℚ) : Prop :=
  ⌊|value|⌋₊ / 256 + (if value < 0 then 128 else 0) = ⌊Int.fract |value| * 65536⌋₊ % 256 ∧
    ⌊|value|⌋₊ % 256 = ⌊Int.fract |value| * 65536⌋₊ / 256

section

variable (rounding : Format.Rounding binary32) {value : ℚ}

theorem storeWord_htonf_iff (representable : binary32.Representable value)
    (small : |value| < 32768) :
    ByteOrder.little.storeWord (htonf rounding value) =
        ByteOrder.big.storeWord (htonf rounding value) ↔
      Palindromic value := by
  have whole := whole_lt small
  have fraction := fraction_lt |value|
  have sign : 2 ^ 31 * (decide (value < 0)).toNat = 16777216 * (if value < 0 then 128 else 0) := by
    by_cases negative : value < 0
    · simp [negative]
    · simp [negative]
  have bit : (if value < 0 then 128 else 0) ≤ 128 := by
    split <;> decide
  rw [htonf_eq_encoded rounding representable small, storeWord_little_eq_big_iff,
    toNat_encoded (units_lt small), units_eq, sign, Palindromic]
  generalize ⌊|value|⌋₊ = upper at *
  generalize ⌊Int.fract |value| * 65536⌋₊ = lower at *
  generalize (if value < 0 then 128 else 0) = signByte at *
  clear sign
  have first : (16777216 * signByte + (2 ^ 16 * upper + lower)) % 256 = lower % 256 := by omega
  have second : (16777216 * signByte + (2 ^ 16 * upper + lower)) / 256 % 256 = lower / 256 := by
    omega
  have third : (16777216 * signByte + (2 ^ 16 * upper + lower)) / 65536 % 256 = upper % 256 := by
    omega
  have fourth : (16777216 * signByte + (2 ^ 16 * upper + lower)) / 16777216 % 256 =
      upper / 256 + signByte := by omega
  rw [first, second, third, fourth]
  exact and_congr eq_comm eq_comm

/-- The bytes are the same on both kinds of host, and a receiver of either kind
reads the same value from the bytes of a sender. -/
structure Portable (value : ℚ) : Prop where
  bytes : ByteOrder.little.storeWord (htonf rounding value) =
    ByteOrder.big.storeWord (htonf rounding value)
  values : ∀ sender receiver : ByteOrder,
    ntohf rounding (receiver.loadWord (sender.storeWord (htonf rounding value))) =
      ntohf rounding (sender.loadWord (sender.storeWord (htonf rounding value)))

theorem loadWord_of_bytes {word : BitVec 32}
    (bytes : ByteOrder.little.storeWord word = ByteOrder.big.storeWord word)
    (sender receiver : ByteOrder) :
    receiver.loadWord (sender.storeWord word) = word := by
  have same : sender.storeWord word = receiver.storeWord word := by
    cases sender with
    | little =>
        cases receiver with
        | little => rfl
        | big => exact bytes
    | big =>
        cases receiver with
        | little => exact bytes.symm
        | big => rfl
  rw [same, ByteOrder.loadWord_storeWord]

/-- The wire format of a float below 2^15 does not depend on the hosts if and
only if its word reads the same both ways. -/
theorem portable_iff (representable : binary32.Representable value) (small : |value| < 32768) :
    Portable rounding value ↔ Palindromic value := by
  rw [← storeWord_htonf_iff rounding representable small]
  constructor
  · exact Portable.bytes
  · intro bytes
    refine ⟨bytes, fun sender receiver => ?_⟩
    rw [loadWord_of_bytes bytes sender receiver, loadWord_of_bytes bytes sender sender]

end

/-- The word of 1 + 2^-8 is 0x00010100. -/
theorem portable_palindrome : Portable binary32.exactly (257 / 256) :=
  (portable_iff binary32.exactly
    ⟨257, -8, by norm_num [binary32], by decide, by decide, by norm_num⟩
    (by norm_num [abs_div])).mpr (by unfold Palindromic; decide +kernel)

/-- The bytes of 1 are 0, 0, 1, 0 on a little-endian host. -/
theorem not_portable_one :
    binary32.Representable 1 ∧ |(1 : ℚ)| < 32768 ∧ ¬ Portable binary32.exactly 1 := by
  refine ⟨⟨1, 0, by norm_num [binary32], by decide, by decide, by norm_num⟩, by norm_num, ?_⟩
  intro portable
  exact absurd portable.bytes (by decide +kernel)

end CBasics.PortableFloat
