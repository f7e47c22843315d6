import CBasics.Library.FloatFormat

/-! The conversion of a `float` to a word with a sign, fifteen bits before the
point and sixteen behind it, and back. A `float` is the rational it stands for:
no operation here tells the two zeros apart. -/

set_option autoImplicit false

namespace CBasics.PortableFloat

open Library

/-- The finite values of a `float`. -/
def binary32 : Format := { precision := 24, minExp := -149, maxExp := 104 }

/-- A `float` as an integer, cut off towards zero. -/
def truncate (value : ℚ) : Int := if value < 0 then ⌈value⌉ else ⌊value⌋

def toUint32 (value : ℚ) : BitVec 32 := BitVec.ofInt 32 (truncate value)

section

variable (rounding : Format.Rounding binary32)

/-- Every conversion to `float` and every operation on them is rounded, except
the change of sign. -/
def htonf (yourFloat : ℚ) : BitVec 32 :=
  let sign : BitVec 32 := if yourFloat < 0 then 1 else 0
  let yourFloat := if yourFloat < 0 then -yourFloat else yourFloat
  let point := ((toUint32 yourFloat &&& 0x7fff) <<< 16) ||| (sign <<< 31)
  let fraction := rounding.round (yourFloat - rounding.round (truncate yourFloat))
  point ||| (toUint32 (rounding.round (fraction * 65536)) &&& 0xffff)

def ntohf (point : BitVec 32) : ℚ :=
  let whole := rounding.round (((point >>> 16) &&& 0x7fff).toNat : ℚ)
  let fraction := rounding.round (rounding.round ((point &&& 0xffff).toNat : ℚ) / 65536)
  let yourFloat := rounding.round (whole + fraction)
  if (point >>> 31) &&& 0x1 ≠ 0 then -yourFloat else yourFloat

end

end CBasics.PortableFloat
