import CBasics.Kernel
import CBasics.Library.Strtol

/-! Numeric command-line arguments. -/

set_option autoImplicit false

namespace CBasics.MemoryResidence

open Library

def intMax : Int := 2147483647

def intMin : Int := -2147483648

def gnNonneg : Nat := 0o1

def gnGt0 : Nat := 0o2

def gnAnyBase : Nat := 0o100

def gnBase8 : Nat := 0o200

def gnBase16 : Nat := 0o400

/-- What `gnFail` prints before it ends the process: the function, the message,
the offending text and the name of the argument. -/
structure GnFail where
  fname : String
  msg : String
  arg : List Byte
  name : String
  deriving DecidableEq

def baseOf (flags : Nat) : Nat :=
  if flags &&& gnAnyBase ≠ 0 then 0
  else if flags &&& gnBase8 ≠ 0 then 8
  else if flags &&& gnBase16 ≠ 0 then 16
  else 10

def getNum (fname : String) (arg : List Byte) (flags : Nat) (name : String) : Except GnFail Int :=
  if arg = [] then .error ⟨fname, "null or empty string", arg, name⟩
  else
    let read := strtol arg (baseOf flags)
    if read.outOfRange then .error ⟨fname, "strtol() failed", arg, name⟩
    else if read.endptr ≠ [] then .error ⟨fname, "nonnumeric characters", arg, name⟩
    else if flags &&& gnNonneg ≠ 0 ∧ read.value < 0 then
      .error ⟨fname, "negative value not allowed", arg, name⟩
    else if flags &&& gnGt0 ≠ 0 ∧ read.value ≤ 0 then
      .error ⟨fname, "value must be > 0", arg, name⟩
    else .ok read.value

def getLong (arg : List Byte) (flags : Nat) (name : String) : Except GnFail Int :=
  getNum "getLong" arg flags name

def getInt (arg : List Byte) (flags : Nat) (name : String) : Except GnFail Int :=
  match getNum "getInt" arg flags name with
  | .error failure => .error failure
  | .ok res =>
      if res > intMax ∨ res < intMin then .error ⟨"getInt", "integer out of range", arg, name⟩
      else .ok res

theorem getInt_decimal {value : Int} (positive : 0 < value) (small : value ≤ intMax)
    (name : String) : getInt (decimal value) gnGt0 name = .ok value := by
  have nonempty : decimal value ≠ [] := List.ne_nil_of_length_pos (length_decimal_pos value)
  have inLong : value ≤ longMax := by
    unfold intMax at small
    unfold longMax
    omega
  have read := strtol_decimal (by omega) inLong
  have num : getNum "getInt" (decimal value) gnGt0 name = .ok value := by
    have base : baseOf gnGt0 = 10 := by decide
    have notNonneg : ¬ (gnGt0 &&& gnNonneg ≠ 0 ∧ value < 0) := by omega
    have above : ¬ (gnGt0 &&& gnGt0 ≠ 0 ∧ value ≤ 0) := by omega
    simp only [getNum, if_neg nonempty, base, read, Bool.false_eq_true, if_false, ne_eq,
      not_true_eq_false]
    rw [if_neg notNonneg, if_neg above]
  have inInt : ¬ (value > intMax ∨ value < intMin) := by
    unfold intMin
    omega
  simp only [getInt, num, if_neg inInt]

end CBasics.MemoryResidence
