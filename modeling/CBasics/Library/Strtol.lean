import CBasics.Library.CString
import Mathlib.Data.List.TakeWhile

/-! `strtol` on the bytes of a C string, as the C library documents it, and what
it makes of a number that `%d` has printed. -/

set_option autoImplicit false

namespace CBasics.Library

def longMax : Int := 9223372036854775807

def longMin : Int := -9223372036854775808

def isSpace (byte : UInt8) : Bool := byte == 32 || decide (9 ≤ byte) && decide (byte ≤ 13)

def digitValue (byte : UInt8) : Option Nat :=
  if 48 ≤ byte ∧ byte ≤ 57 then some (byte.toNat - 48)
  else if 65 ≤ byte ∧ byte ≤ 90 then some (byte.toNat - 55)
  else if 97 ≤ byte ∧ byte ≤ 122 then some (byte.toNat - 87)
  else none

/-- The value of the longest run of digits at the front, and what follows it. -/
def scanDigits (base : Nat) : Nat → List UInt8 → Nat × List UInt8
  | value, [] => (value, [])
  | value, byte :: rest =>
      match digitValue byte with
      | none => (value, byte :: rest)
      | some digit =>
          if digit < base then scanDigits base (base * value + digit) rest
          else (value, byte :: rest)

def startsWithDigit (base : Nat) : List UInt8 → Bool
  | [] => false
  | byte :: _ => (digitValue byte).any (· < base)

/-- The base that is used, and the text behind the prefix `0x`. Base 0 leaves the
choice to the text. -/
def choosePrefix (base : Nat) (text : List UInt8) : Nat × List UInt8 :=
  match text with
  | 48 :: letter :: rest =>
      if (letter = 120 ∨ letter = 88) ∧ startsWithDigit 16 rest ∧ (base = 0 ∨ base = 16) then
        (16, rest)
      else (if base = 0 then 8 else base, text)
  | 48 :: [] => (if base = 0 then 8 else base, text)
  | _ => (if base = 0 then 10 else base, text)

/-- The result, the text `endptr` is left at, and whether `errno` is `ERANGE`. -/
structure Strtol where
  value : Int
  endptr : List UInt8
  outOfRange : Bool
  deriving DecidableEq

/-- Whether there is a minus sign, and the text behind the sign. -/
def takeSign : List UInt8 → Bool × List UInt8
  | 45 :: rest => (true, rest)
  | 43 :: rest => (false, rest)
  | text => (false, text)

def strtol (text : List UInt8) (base : Nat) : Strtol :=
  let signed := takeSign (text.dropWhile isSpace)
  let chosen := choosePrefix base signed.2
  if startsWithDigit chosen.1 chosen.2 then
    let scanned := scanDigits chosen.1 0 chosen.2
    let value : Int := if signed.1 then -scanned.1 else scanned.1
    if value > longMax then ⟨longMax, scanned.2, true⟩
    else if value < longMin then ⟨longMin, scanned.2, true⟩
    else ⟨value, scanned.2, false⟩
  else ⟨0, text, false⟩

section Decimal

variable {char : Char} {chars : List Char}

theorem toNat_digit (digit : char.isDigit = true) :
    48 ≤ char.toUInt8.toNat ∧ char.toUInt8.toNat ≤ 57 ∧ char.toUInt8.toNat = char.toNat := by
  have range : 48 ≤ char.val.toNat ∧ char.val.toNat ≤ 57 := by
    simpa [Char.isDigit, UInt32.le_iff_toNat_le] using digit
  have same : char.val.toUInt8.toNat = char.val.toNat := by
    rw [UInt32.toNat_toUInt8]
    omega
  rw [Char.toUInt8, same]
  exact ⟨range.1, range.2, rfl⟩

theorem digitValue_digit (digit : char.isDigit = true) :
    digitValue char.toUInt8 = some (char.toNat - '0'.toNat) := by
  obtain ⟨low, high, same⟩ := toNat_digit digit
  have inRange : 48 ≤ char.toUInt8 ∧ char.toUInt8 ≤ 57 := by
    rw [UInt8.le_iff_toNat_le, UInt8.le_iff_toNat_le]
    exact ⟨low, high⟩
  rw [digitValue, if_pos inRange, same]
  rfl

theorem scanDigits_digits (digits : ∀ char ∈ chars, char.isDigit = true) (value : Nat) :
    scanDigits 10 value (chars.map Char.toUInt8) = (Nat.ofDigitChars 10 chars value, []) := by
  induction chars generalizing value with
  | nil => simp [scanDigits]
  | cons char rest ih =>
      obtain ⟨digit, later⟩ := List.forall_mem_cons.mp digits
      obtain ⟨low, high, same⟩ := toNat_digit digit
      have small : char.toNat - '0'.toNat < 10 := by
        have zero : '0'.toNat = 48 := rfl
        omega
      simp only [List.map_cons, scanDigits, digitValue_digit digit, if_pos small]
      rw [ih later, Nat.ofDigitChars_cons]

theorem startsWithDigit_digit (digit : char.isDigit = true) (rest : List UInt8) :
    startsWithDigit 10 (char.toUInt8 :: rest) = true := by
  obtain ⟨low, high, same⟩ := toNat_digit digit
  have zero : '0'.toNat = 48 := rfl
  simp only [startsWithDigit, digitValue_digit digit, Option.any_some, decide_eq_true_eq]
  omega

theorem choosePrefix_ten (text : List UInt8) : choosePrefix 10 text = (10, text) := by
  unfold choosePrefix
  split
  · simp
  · rfl
  · rfl

theorem takeSign_digit (digit : char.isDigit = true) (rest : List UInt8) :
    takeSign (char.toUInt8 :: rest) = (false, char.toUInt8 :: rest) := by
  obtain ⟨low, -, -⟩ := toNat_digit digit
  have notMinus : char.toUInt8 ≠ 45 := by
    intro minus
    rw [minus] at low
    exact absurd low (by decide)
  have notPlus : char.toUInt8 ≠ 43 := by
    intro plus
    rw [plus] at low
    exact absurd low (by decide)
  unfold takeSign
  split
  · rename_i same
    exact absurd (List.cons.inj same).1 notMinus
  · rename_i same
    exact absurd (List.cons.inj same).1 notPlus
  · rfl

theorem dropWhile_isSpace_digit (digit : char.isDigit = true) (rest : List UInt8) :
    (char.toUInt8 :: rest).dropWhile isSpace = char.toUInt8 :: rest := by
  obtain ⟨low, -, -⟩ := toNat_digit digit
  have notSpace : isSpace char.toUInt8 = false := by
    have notBlank : char.toUInt8 ≠ 32 := by
      intro blank
      rw [blank] at low
      exact absurd low (by decide)
    have aboveTab : ¬ char.toUInt8 ≤ 13 := by
      rw [UInt8.le_iff_toNat_le]
      have limit : (13 : UInt8).toNat = 13 := rfl
      omega
    simp [isSpace, notBlank, aboveTab]
  rw [List.dropWhile_cons_of_neg (by simp [notSpace])]

/-- What `%d` has printed of a number of type `long` is read back. -/
theorem strtol_decimal {value : Int} (nonneg : 0 ≤ value) (small : value ≤ longMax) :
    strtol (decimal value) 10 = ⟨value, [], false⟩ := by
  have digits : ∀ char ∈ Nat.toDigits 10 value.natAbs, char.isDigit = true :=
    fun char member => Nat.isDigit_of_mem_toDigits (by decide) (by decide) member
  have scanned := scanDigits_digits digits 0
  have text : decimal value = (Nat.toDigits 10 value.natAbs).map Char.toUInt8 := by
    rw [decimal, if_neg (by omega)]
  rw [Nat.ofDigitChars_ten_toDigits, ← text] at scanned
  cases chars : Nat.toDigits 10 value.natAbs with
  | nil => exact absurd chars Nat.toDigits_ne_nil
  | cons char rest =>
      rw [chars] at digits text
      have digit := digits char (by simp)
      have body : decimal value = char.toUInt8 :: rest.map Char.toUInt8 := text
      have read : takeSign ((decimal value).dropWhile isSpace) = (false, decimal value) := by
        rw [body, dropWhile_isSpace_digit digit, takeSign_digit digit]
      have starts : startsWithDigit 10 (decimal value) = true := by
        rw [body, startsWithDigit_digit digit]
      have magnitude : (value.natAbs : Int) = value := Int.natAbs_of_nonneg nonneg
      have notLow : ¬ value < longMin := by
        unfold longMin
        omega
      simp only [strtol, read, choosePrefix_ten, starts, if_true, scanned, Bool.false_eq_true,
        if_false, magnitude, if_neg (Int.not_lt.mpr small), if_neg notLow]

end Decimal

end CBasics.Library
