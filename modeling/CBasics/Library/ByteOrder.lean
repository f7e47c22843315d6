import Mathlib.Algebra.Order.Ring.Int
import Mathlib.Data.List.Basic

/-! Numbers in memory. A host stores the bytes of a number with the least or
with the most significant one first, and loads them back in the same order. -/

set_option autoImplicit false

namespace CBasics.Library

inductive ByteOrder where
  | little
  | big
  deriving DecidableEq

namespace ByteOrder

/-- The last bytes of a number, the least significant one first. -/
def digits : Nat → Nat → List UInt8
  | 0, _ => []
  | count + 1, number => .ofNat (number % 256) :: digits count (number / 256)

def number : List UInt8 → Nat
  | [] => 0
  | byte :: rest => byte.toNat + 256 * number rest

def store : ByteOrder → Nat → Nat → List UInt8
  | .little, count, number => digits count number
  | .big, count, number => (digits count number).reverse

def load : ByteOrder → List UInt8 → Nat
  | .little, bytes => number bytes
  | .big, bytes => number bytes.reverse

@[simp] theorem length_digits (count value : Nat) : (digits count value).length = count := by
  induction count generalizing value with
  | zero => rfl
  | succ count ih => rw [digits, List.length_cons, ih]

@[simp] theorem length_store (order : ByteOrder) (count value : Nat) :
    (order.store count value).length = count := by
  cases order with
  | little => exact length_digits count value
  | big => exact List.length_reverse.trans (length_digits count value)

theorem number_digits {count value : Nat} (bound : value < 256 ^ count) :
    number (digits count value) = value := by
  induction count generalizing value with
  | zero => exact (Nat.lt_one_iff.mp bound).symm
  | succ count ih =>
      have rest : value / 256 < 256 ^ count := by
        rw [Nat.pow_succ] at bound
        exact Nat.div_lt_of_lt_mul (Nat.mul_comm .. ▸ bound)
      have byte : (UInt8.ofNat (value % 256)).toNat = value % 256 :=
        UInt8.toNat_ofNat_of_lt (Nat.mod_lt value (by decide))
      rw [digits, number, ih rest, byte, Nat.mod_add_div]

theorem load_store (order : ByteOrder) {count value : Nat} (bound : value < 256 ^ count) :
    order.load (order.store count value) = value := by
  cases order with
  | little => exact number_digits bound
  | big =>
      rw [load, store, List.reverse_reverse]
      exact number_digits bound

def storeWord (order : ByteOrder) (word : BitVec 32) : List UInt8 := order.store 4 word.toNat

def loadWord (order : ByteOrder) (bytes : List UInt8) : BitVec 32 := .ofNat 32 (order.load bytes)

@[simp] theorem length_storeWord (order : ByteOrder) (word : BitVec 32) :
    (order.storeWord word).length = 4 :=
  length_store order 4 word.toNat

@[simp] theorem loadWord_storeWord (order : ByteOrder) (word : BitVec 32) :
    order.loadWord (order.storeWord word) = word := by
  have bound : word.toNat < 256 ^ 4 := word.isLt
  rw [loadWord, storeWord, load_store order bound, BitVec.ofNat_toNat, BitVec.setWidth_eq]

end ByteOrder

section Memory

/-- The bytes lie in memory from this address on. -/
def Stored (memory : Nat → UInt8) : Nat → List UInt8 → Prop
  | _, [] => True
  | address, byte :: rest => memory address = byte ∧ Stored memory (address + 1) rest

def read (memory : Nat → UInt8) : Nat → Nat → List UInt8
  | _, 0 => []
  | address, count + 1 => memory address :: read memory (address + 1) count

def copyIn (bytes : List UInt8) (memory : Nat → UInt8) : Nat → UInt8 :=
  fun address => bytes.getD address (memory address)

variable {memory : Nat → UInt8} {address : Nat}

theorem stored_append {left right : List UInt8} :
    Stored memory address (left ++ right) ↔
      Stored memory address left ∧ Stored memory (address + left.length) right := by
  induction left generalizing address with
  | nil => exact (and_iff_right trivial).symm
  | cons byte rest ih =>
      have next : address + (byte :: rest).length = address + 1 + rest.length := by
        rw [List.length_cons]
        omega
      rw [List.cons_append, Stored, Stored, ih, next, and_assoc]

theorem Stored.read_eq {bytes : List UInt8} (stored : Stored memory address bytes) :
    read memory address bytes.length = bytes := by
  induction bytes generalizing address with
  | nil => rfl
  | cons byte rest ih =>
      obtain ⟨here, later⟩ := stored
      rw [List.length_cons, read, here, ih later]

theorem stored_of_getElem? {bytes : List UInt8}
    (found : ∀ index, index < bytes.length → bytes[index]? = some (memory (address + index))) :
    Stored memory address bytes := by
  induction bytes generalizing address with
  | nil => trivial
  | cons byte rest ih =>
      refine ⟨?_, ih ?_⟩
      · exact (Option.some.inj (found 0 (Nat.succ_pos _))).symm
      · intro index inside
        have next := found (index + 1) (Nat.succ_lt_succ inside)
        rwa [List.getElem?_cons_succ, Nat.add_comm index 1, ← Nat.add_assoc] at next

theorem stored_copyIn (bytes : List UInt8) (memory : Nat → UInt8) :
    Stored (copyIn bytes memory) 0 bytes := by
  refine stored_of_getElem? fun index inside => ?_
  rw [Nat.zero_add, copyIn, List.getD_eq_getElem?_getD, List.getElem?_eq_getElem inside]
  rfl

end Memory

end CBasics.Library
