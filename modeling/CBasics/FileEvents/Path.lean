import CBasics.Library.Strtok

/-! The name that `unixFileEventWatching` prints before it watches: a copy of its argument
is cut into tokens, and the last of them is kept. -/

set_option autoImplicit false

namespace CBasics.FileEvents

open Library

def slash : UInt8 := 47

/-- The loop around `strtok`, from where the next call starts. -/
def tokenLoop (array : List UInt8) (start basePath : Nat) : List UInt8 × Nat :=
  match _found : (strtok array start [slash]).token with
  | none => ((strtok array start [slash]).array, basePath)
  | some token =>
      tokenLoop (strtok array start [slash]).array (strtok array start [slash]).saved token
termination_by array.length - start
decreasing_by
  obtain ⟨sameLength, inside, onward⟩ := strtok_advances _found
  omega

/-- `argument` is the array at `argv[1]`; the copy of its string starts at `basePath`. -/
def printedPath (argument : List UInt8) : List UInt8 :=
  let (array, basePath) := tokenLoop (cString argument ++ [0]) 0 0
  cString (array.drop basePath) ++ [newline]

end CBasics.FileEvents
