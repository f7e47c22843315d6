import CBasics.Kernel

/-! The checksums of the raw socket server. `checksum` runs on a little-endian
host; whether a plain `char` is signed differs between hosts. -/

set_option autoImplicit false

namespace CBasics.RawServer

/-- The `unsigned short` that a little-endian host loads from two bytes. -/
def loadShort (first second : Byte) : BitVec 16 := second.toBitVec ++ first.toBitVec

/-- The bytes that a little-endian host stores for an `unsigned short`. -/
def storeShort (value : BitVec 16) : List Byte :=
  [⟨value.setWidth 8⟩, ⟨(value >>> 8).setWidth 8⟩]

/-- The loop over the words of the buffer, and the last byte if one is left. -/
def sumWords (sum : BitVec 32) : List Byte → BitVec 32
  | first :: second :: rest => sumWords (sum + (loadShort first second).setWidth 32) rest
  | [last] => sum + last.toBitVec.setWidth 32
  | [] => sum

def foldCarries (sum : BitVec 32) : BitVec 32 :=
  let folded := (sum >>> 16) + (sum &&& 0xFFFF)
  folded + (folded >>> 16)

def checksum (b : List Byte) : BitVec 16 := (~~~ foldCarries (sumWords 0 b)).setWidth 16

abbrev Address := Nat

inductive CharSign where
  | signed
  | unsigned
  deriving DecidableEq

/-- A plain `char` as an operand of `^=` with a `uint16_t`. -/
def promote (sign : CharSign) (byte : Byte) : BitVec 16 :=
  match sign with
  | .signed => byte.toBitVec.signExtend 16
  | .unsigned => byte.toBitVec.setWidth 16

/-- `data` is the array of pointers, `memory` what they point to. -/
def calculateChecksum (sign : CharSign) (memory : Address → Byte) (data : Nat → Address)
    (length : Nat) : BitVec 16 :=
  (List.range length).foldl (fun checksum i => checksum ^^^ promote sign (memory (data i))) 0

/-- A read of the array of pointers, or through one of them. -/
inductive Read where
  | pointer (index : Nat)
  | byte (address : Address)
  deriving DecidableEq

def calculateReads (data : Nat → Address) (length : Nat) : List Read :=
  (List.range length).flatMap fun i => [.pointer i, .byte (data i)]

def checksumGood : Int := 0

def checksumNotGood : Int := -1

/-- The pointers found from `&data` on: the parameter itself, and then whatever
lies `beyond` it. -/
def addressOf (data : Address) (beyond : Nat → Address) : Nat → Address
  | 0 => data
  | index + 1 => beyond index

/-- The returned `uint8_t`, and what was read on the way. -/
structure Comparison where
  verdict : BitVec 8
  reads : List Read

def compareChecksum (sign : CharSign) (memory : Address → Byte) (beyond : Nat → Address)
    (data : Address) (length : Nat) (receivedChecksum : BitVec 16) : Comparison :=
  let newChecksum := calculateChecksum sign memory (addressOf data beyond) length
  { verdict :=
      if newChecksum ^^^ receivedChecksum ≠ 0 then BitVec.ofInt 8 checksumNotGood
      else BitVec.ofInt 8 checksumGood
    reads := calculateReads (addressOf data beyond) length }

end CBasics.RawServer
