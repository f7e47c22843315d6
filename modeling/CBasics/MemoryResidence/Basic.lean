import CBasics.MemoryResidence.GetNum

/-! The program that maps some pages and locks some of them in memory. -/

set_option autoImplicit false

namespace CBasics.MemoryResidence

open Library

/-- A number as a value of type `size_t`. -/
def sizeT (value : Int) : Int := value % 2 ^ 64

theorem sizeT_eq {value : Int} (nonneg : 0 ≤ value) (small : value < 2 ^ 64) :
    sizeT value = value :=
  Int.emod_eq_of_lt nonneg small

/-- The result of arithmetic on `long` as the machine wraps it. -/
def long (value : Int) : Int := value.bmod (2 ^ 64)

inductive Failure where
  | usage
  | call (name : String)
  | number (failure : GnFail)
  deriving DecidableEq

inductive Output where
  | allocated (len : Int) (addr : Nat)
  | text (text : String)
  | label (newline : Bool) (address : Int)
  | mark (resident : Bool)
  deriving DecidableEq

/-- How `malloc` and `mincore` answer in `displayMincore`. -/
inductive Residency where
  | noMemory
  | refused
  | vec (bytes : List Byte)
  deriving DecidableEq

/-- Both the label and the mark of a page stand under the test for a new row. -/
def displayMincore (pageSize : Int) (addr : Nat) (length : Int) (residency : Residency) :
    Except Failure (List Output) :=
  match residency with
  | .noMemory => .error (.call "malloc")
  | .refused => .error (.call "mincore")
  | .vec bytes =>
      let numPages := sizeT (length + pageSize - 1) / pageSize
      let pages := (List.range numPages.toNat).flatMap fun j =>
        if j % 64 = 0 then
          [.label (j ≠ 0) (addr + j * pageSize), .mark (bytes.getD j 0 &&& 1 ≠ 0)]
        else []
      .ok (pages ++ [.text "\n"])

/-- The bytes from an offset into the mapping on. -/
structure Range where
  offset : Int
  length : Int
  deriving DecidableEq

/-- What the system answers: the page size, where the mapping is, what the two
displays get, and for each offset and length whether `mlock` succeeds. -/
structure Calls where
  pageSize : Int
  mmap : Option Nat
  before : Residency
  after : Residency
  mlock : Int → Int → Bool

inductive LoopEnd where
  | finished
  | refused
  | overflowed
  deriving DecidableEq

structure Locked where
  ranges : List Range
  ending : LoopEnd

/-- The loop of `mlock`. The comparison is made in `size_t`, and `j` is a `long`
that must not overflow. -/
def lockLoop (mlock : Int → Int → Bool) (len lockLen stepSize j : Int) : Locked :=
  if sizeT (j + lockLen) ≤ len then
    if mlock j lockLen then
      if _advances : 0 < stepSize ∧ j + stepSize ≤ longMax then
        let rest := lockLoop mlock len lockLen stepSize (j + stepSize)
        ⟨⟨j, lockLen⟩ :: rest.ranges, rest.ending⟩
      else ⟨[⟨j, lockLen⟩], .overflowed⟩
    else ⟨[], .refused⟩
  else ⟨[], .finished⟩
termination_by (longMax - j).toNat

/-- The lengths in bytes; the one to lock is read from the argument that gives
the number of pages. -/
def readSizes (argv : List (List Byte)) (pageSize : Int) : Except GnFail (Int × Int × Int) := do
  let numPages ← getInt (argv.getD 1 []) gnGt0 "num-pages"
  let lockPageStep ← getInt (argv.getD 2 []) gnGt0 "lock-page-step"
  let lockPageLen ← getInt (argv.getD 1 []) gnGt0 "lock-page-len"
  return (sizeT (numPages * pageSize), long (lockPageStep * pageSize),
    sizeT (lockPageLen * pageSize))

inductive Ending where
  | returned
  | exited (failure : Failure)
  | overflowed
  deriving DecidableEq

structure Run where
  locked : List Range
  printed : List Output
  ending : Ending
  deriving DecidableEq

def lockAndDisplay (calls : Calls) (addr : Nat) (len stepSize lockLen : Int) : Run :=
  let start : List Output := [.allocated len addr, .text "Before mlock:\n"]
  match displayMincore calls.pageSize addr len calls.before with
  | .error failure => ⟨[], start, .exited failure⟩
  | .ok shown =>
      let loop := lockLoop calls.mlock len lockLen stepSize 0
      match loop.ending with
      | .refused => ⟨loop.ranges, start ++ shown, .exited (.call "mlock")⟩
      | .overflowed => ⟨loop.ranges, start ++ shown, .overflowed⟩
      | .finished =>
          let again := start ++ shown ++ [.text "afterMlock : \n"]
          match displayMincore calls.pageSize addr len calls.after with
          | .error failure => ⟨loop.ranges, again, .exited failure⟩
          | .ok shownAfter => ⟨loop.ranges, again ++ shownAfter, .returned⟩

def memoryResidence (argv : List (List Byte)) (calls : Calls) : Run :=
  if argv.length ≠ 4 ∨ argv.getD 1 [] = ascii "--help" then ⟨[], [], .exited .usage⟩
  else if calls.pageSize = -1 then ⟨[], [], .exited (.call "sysconf")⟩
  else
    match readSizes argv calls.pageSize with
    | .error failure => ⟨[], [], .exited (.number failure)⟩
    | .ok (len, stepSize, lockLen) =>
        match calls.mmap with
        | none => ⟨[], [], .exited (.call "mmap")⟩
        | some addr => lockAndDisplay calls addr len stepSize lockLen

end CBasics.MemoryResidence
