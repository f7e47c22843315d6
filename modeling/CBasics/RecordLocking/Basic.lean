import CBasics.Kernel
import CBasics.Library.Lines
import CBasics.Library.RecordLocks
import CBasics.Library.System

/-! The parent and the child of `record_locking`, and all other processes that lock
or write the same file meanwhile. A step is one system call of one process, with the
calls of `printf` up to its next one. -/

set_option autoImplicit false

namespace CBasics.RecordLocking

open Library

/-- The commands of `fcntl` and the types of a lock have numbers of their own. -/
def fSetfd : Nat := 2

def fSetlk : Nat := 6

def fRdlck : Nat := 0

def fWrlck : Nat := 1

def fUnlck : Nat := 2

def lockUn : Nat := 8

/-- `struct flock` with `l_whence` at `SEEK_END`. -/
structure Flock where
  type : Nat
  start : Int
  len : Nat
  deriving DecidableEq

/-- The bytes that a `struct flock` means in a file of this size; none where it begins
before the file. -/
def Flock.bytes (lock : Flock) (size : Nat) : Option (List Nat) :=
  if size + lock.start < 0 then none
  else some (List.range' (size + lock.start).toNat lock.len)

variable {Process : Type} [Fintype Process] [DecidableEq Process]

/-- `fcntl` with `F_SETLK`: what it returns and the locks it leaves. -/
def setlk (locks : RecordLocks Process) (process : Process) (lock : Flock) (size : Nat) :
    Int × RecordLocks Process :=
  match lock.bytes size with
  | none => (-1, locks)
  | some bytes =>
      if lock.type = fUnlck then (0, locks.put process none bytes)
      else if lock.type = fRdlck then
        if locks.Grants process .read bytes then (0, locks.put process (some .read) bytes)
        else (-1, locks)
      else if lock.type = fWrlck then
        if locks.Grants process .write bytes then (0, locks.put process (some .write) bytes)
        else (-1, locks)
      else (-1, locks)

/-- With `F_SETFD` the flags of the descriptor change and no lock does. -/
def fcntl (locks : RecordLocks Process) (process : Process) (cmd : Nat) (lock : Flock)
    (size : Nat) : Int × RecordLocks Process :=
  if cmd = fSetlk then setlk locks process lock size
  else if cmd = fSetfd then (0, locks)
  else (-1, locks)

def buf : List Byte :=
  ascii "Record 1: data1\nRecord 2: data2\nRecord 3: data3\nRecord 4: PROTECTED\n"

def recordLen : Nat := (ascii "Record 4: data1\n").length

def parentLock : Flock := ⟨fRdlck, -recordLen, recordLen⟩

/-- The text of a number under `%lo`. -/
def octal (value : Nat) : List Byte := (Nat.toDigits 8 value).map Char.toUInt8

inductive Parent where
  | opening
  | writing
  | locking
  | forking
  | waiting
  | unlocking
  | leaving
  | exited (status : Nat)
  deriving DecidableEq

inductive Child where
  | absent
  | closing
  | opening
  | reading (opened : Bool)
  | locking (opened : Bool)
  | leaving (status : Nat)
  | exited (status : Nat)
  deriving DecidableEq

structure State (Process : Type) where
  locks : RecordLocks Process
  file : List Byte
  parent : Parent
  child : Child

/-- What is printed, where the child stores the terminator in its array, and the locks
that were asked for when the file had some size. -/
inductive Event where
  | said (text : List Byte)
  | terminated (index : Int)
  | locked (size : Nat)
  | tried (size : Nat) (granted : Bool)
  deriving DecidableEq

/-- What another process does with the file. -/
inductive Act where
  | lock (type : LockType) (bytes : List Nat)
  | unlock (bytes : List Nat)
  | close
  | write (file : List Byte)
  deriving DecidableEq

/-- Who moves; `open` of both and `fork` may fail. -/
inductive Move (Process : Type) where
  | parent (succeeds : Bool)
  | child (succeeds : Bool)
  | other (process : Process) (act : Act)

/-- The two processes that run `record_locking`. -/
structure Pids (Process : Type) where
  parent : Process
  child : Process
  different : parent ≠ child

variable (pids : Pids Process)

def State.leaveParent (state : State Process) (status : Nat) : State Process :=
  { state with locks := state.locks.release pids.parent, parent := .exited status }

def parentCall (state : State Process) (succeeds : Bool) : State Process × List Event :=
  match state.parent with
  | .opening =>
      if succeeds then
        ({ state with file := [], parent := .writing },
          [.said (ascii "Bytes written : " ++ decimal buf.length ++ [newline])])
      else (state.leaveParent pids 1, [])
  | .writing => ({ state with file := buf ++ state.file.drop buf.length, parent := .locking }, [])
  | .locking =>
      let answer := fcntl state.locks pids.parent fSetlk parentLock state.file.length
      if answer.1 ≠ 0 then (state.leaveParent pids 1, [])
      else ({ state with locks := answer.2, parent := .forking },
        [.locked state.file.length, .said (ascii "File locked\n")])
  | .forking =>
      if succeeds then ({ state with parent := .waiting, child := .closing }, [])
      else (state.leaveParent pids 1, [])
  | .waiting => ({ state with parent := .unlocking }, [.said (ascii "Child terminated\n")])
  | .unlocking =>
      let answer := fcntl state.locks pids.parent fUnlck { parentLock with type := lockUn }
        state.file.length
      if answer.1 ≠ 0 then (state.leaveParent pids 1, [])
      else ({ state with locks := answer.2, parent := .leaving }, [.said (ascii "file unlocked")])
  | .leaving => (state.leaveParent pids 0, [])
  | .exited _ => (state, [])

/-- The child does not look at what `open` returns. With -1 it reads nothing, stores the
terminator in front of its array, prints what the stack holds there and is refused the
lock. -/
def childCall (contents : List Byte) (state : State Process) (succeeds : Bool) :
    State Process × List Event :=
  match state.child with
  | .absent => (state, [])
  | .closing =>
      ({ state with locks := state.locks.release pids.child, child := .opening },
        [.said (ascii "child opening file\n")])
  | .opening => ({ state with child := .reading succeeds }, [.said (ascii "Reading\n")])
  | .reading false =>
      ({ state with child := .locking false },
        [.terminated (-1), .said (cString contents ++ [newline]),
          .said (ascii "child opened with ret val " ++ octal (2 ^ 64 - 1) ++ [newline])])
  | .reading true =>
      let received := state.file.take 1024
      ({ state with child := if received = [] then .leaving 1 else .locking true },
        [.terminated received.length, .said (cString received ++ [newline]),
          .said (ascii "child opened with ret val " ++ octal received.length ++ [newline])])
  | .locking false => ({ state with child := .leaving 1 }, [])
  | .locking true =>
      let answer := fcntl state.locks pids.child fSetlk { parentLock with type := fWrlck }
        state.file.length
      if answer.1 ≠ 0 then
        ({ state with child := .leaving 1 }, [.tried state.file.length false])
      else
        ({ state with locks := answer.2, child := .leaving 0 }, [.tried state.file.length true])
  | .leaving status =>
      ({ state with locks := state.locks.release pids.child, child := .exited status }, [])
  | .exited _ => (state, [])

def otherCall (state : State Process) (process : Process) : Act → State Process
  | .lock type bytes =>
      if state.locks.Grants process type bytes then
        { state with locks := state.locks.put process (some type) bytes }
      else state
  | .unlock bytes => { state with locks := state.locks.put process none bytes }
  | .close => { state with locks := state.locks.release process }
  | .write file => { state with file := file }

def Child.Gone : Child → Prop
  | .exited _ => True
  | _ => False

/-- The parent waits for the end of its child. -/
def Parent.ready (child : Child) : Parent → Prop
  | .waiting => child.Gone
  | .exited _ => False
  | _ => True

def Child.ready : Child → Prop
  | .absent => False
  | .exited _ => False
  | _ => True

instance : (child : Child) → Decidable child.Gone
  | .exited _ => isTrue trivial
  | .absent | .closing | .opening | .reading _ | .locking _ | .leaving _ => isFalse id

instance (child : Child) : (parent : Parent) → Decidable (parent.ready child)
  | .waiting => inferInstanceAs (Decidable child.Gone)
  | .exited _ => isFalse id
  | .opening | .writing | .locking | .forking | .unlocking | .leaving => isTrue trivial

instance : (child : Child) → Decidable child.ready
  | .absent | .exited _ => isFalse id
  | .closing | .opening | .reading _ | .locking _ | .leaving _ => isTrue trivial

def Admits (state : State Process) : Move Process → Prop
  | .parent _ => state.parent.ready state.child
  | .child _ => state.child.ready
  | .other process _ => process ≠ pids.parent ∧ process ≠ pids.child

instance (state : State Process) : (move : Move Process) → Decidable (Admits pids state move)
  | .parent _ => inferInstanceAs (Decidable (state.parent.ready state.child))
  | .child _ => inferInstanceAs (Decidable state.child.ready)
  | .other process _ => inferInstanceAs (Decidable (process ≠ pids.parent ∧ process ≠ pids.child))

/-- `contents` is what the child's array holds before anything is read into it. -/
def recordLocking (contents : List Byte) : System (State Process) (Move Process) Event where
  initial state := state.locks.Exclusive ∧ state.locks.Free pids.parent ∧
    state.locks.Free pids.child ∧ state.parent = .opening ∧ state.child = .absent
  admits := Admits pids
  step state
    | .parent succeeds => parentCall pids state succeeds
    | .child succeeds => childCall pids contents state succeeds
    | .other process act => (otherCall state process act, [])

instance (contents : List Byte) (state : State Process) (move : Move Process) :
    Decidable ((recordLocking pids contents).admits state move) :=
  inferInstanceAs (Decidable (Admits pids state move))

end CBasics.RecordLocking
