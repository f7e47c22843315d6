import CBasics.Kernel
import CBasics.Library.Lines
import CBasics.Library.Pipe
import CBasics.Library.System

/-! The parent and the child of `pipes` after a successful `fork`. A step is one
system call of one of them; a write that does not fit goes in as room is made. -/

set_option autoImplicit false

namespace CBasics.Pipes

open Library

/-- Where the child stands; `printing` holds the byte in its buffer. -/
inductive Child where
  | closingWrite
  | reading
  | printing (buf : Byte)
  | ending
  | closingRead
  | leaving
  | exited
  deriving DecidableEq

/-- Where the parent stands; `writing` holds what is left of its `write`. -/
inductive Parent where
  | closingRead
  | writing (rest : List Byte)
  | closingWrite
  | waiting
  | exited
  | killed
  deriving DecidableEq

structure State where
  pipe : Pipe Byte
  child : Child
  parent : Parent
  deriving DecidableEq

/-- Who moves; `write` moves this many bytes at once. -/
inductive Move where
  | child
  | parent (count : Nat)
  deriving DecidableEq

/-- One system call of the child, and what it writes to standard output. -/
def childCall (state : State) : State × List Byte :=
  match state.child with
  | .closingWrite => ({ state with pipe := state.pipe.closeWrite, child := .reading }, [])
  | .reading =>
      match state.pipe.contents with
      | [] => ({ state with child := .ending }, [])
      | buf :: _ => ({ state with pipe := state.pipe.drop 1, child := .printing buf }, [])
  | .printing buf => ({ state with child := .reading }, [buf])
  | .ending => ({ state with child := .closingRead }, [newline])
  | .closingRead => ({ state with pipe := state.pipe.closeRead, child := .leaving }, [])
  | .leaving => ({ state with child := .exited }, [])
  | .exited => (state, [])

/-- One system call of the parent, or a part of its `write`. Writing to a pipe that
nobody can read kills it. -/
def parentCall (message : List Byte) (count : Nat) (state : State) : State :=
  match state.parent with
  | .closingRead => { state with pipe := state.pipe.closeRead, parent := .writing message }
  | .writing [] => { state with parent := .closingWrite }
  | .writing rest =>
      if state.pipe.readEnds = 0 then
        { state with pipe := state.pipe.closeWrite, parent := .killed }
      else
        { state with
          pipe := state.pipe.put (rest.take count)
          parent := .writing (rest.drop count) }
  | .closingWrite => { state with pipe := state.pipe.closeWrite, parent := .waiting }
  | .waiting => { state with parent := .exited }
  | .exited => state
  | .killed => state

/-- The child waits in `read`. -/
def Child.ready (pipe : Pipe Byte) : Child → Prop
  | .reading => ¬ pipe.Silent
  | .exited => False
  | _ => True

instance (pipe : Pipe Byte) : (child : Child) → Decidable (child.ready pipe)
  | .reading => inferInstanceAs (Decidable (¬ pipe.Silent))
  | .exited => isFalse id
  | .closingWrite | .printing _ | .ending | .closingRead | .leaving => isTrue trivial

/-- The parent waits in `wait`, and in `write` while nothing more fits. -/
def Parent.ready (capacity : Nat) (pipe : Pipe Byte) (child : Child) (count : Nat) :
    Parent → Prop
  | .writing (first :: rest) =>
      pipe.readEnds = 0 ∨
        1 ≤ count ∧ count ≤ (first :: rest).length ∧ pipe.contents.length + count ≤ capacity
  | .waiting => child = .exited
  | .exited => False
  | .killed => False
  | _ => True

instance (capacity : Nat) (pipe : Pipe Byte) (child : Child) (count : Nat) :
    (parent : Parent) → Decidable (parent.ready capacity pipe child count)
  | .writing (_ :: _) => inferInstanceAs (Decidable (_ ∨ _))
  | .waiting => inferInstanceAs (Decidable (child = .exited))
  | .exited | .killed => isFalse id
  | .closingRead | .writing [] | .closingWrite => isTrue trivial

def Admits (capacity : Nat) (state : State) : Move → Prop
  | .child => state.child.ready state.pipe
  | .parent count => state.parent.ready capacity state.pipe state.child count

instance (capacity : Nat) (state : State) : (move : Move) → Decidable (Admits capacity state move)
  | .child => inferInstanceAs (Decidable (state.child.ready state.pipe))
  | .parent count =>
      inferInstanceAs (Decidable (state.parent.ready capacity state.pipe state.child count))

/-- Both processes inherit both ends; what is written to standard output is the
trace of a run. -/
def pipes (message : List Byte) (capacity : Nat) : System State Move Byte where
  initial state := state = ⟨⟨[], 2, 2⟩, .closingWrite, .closingRead⟩
  admits := Admits capacity
  step state
    | .child => childCall state
    | .parent count => (parentCall message count state, [])

instance (message : List Byte) (capacity : Nat) (state : State) (move : Move) :
    Decidable ((pipes message capacity).admits state move) :=
  inferInstanceAs (Decidable (Admits capacity state move))

def message : List Byte := ascii "Pst I am the parent and I am talking to you my child."

def Finished (state : State) : Prop := state.child = .exited ∧ state.parent = .exited

instance (state : State) : Decidable (Finished state) := inferInstanceAs (Decidable (_ ∧ _))

end CBasics.Pipes
