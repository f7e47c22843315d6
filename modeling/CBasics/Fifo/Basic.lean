import CBasics.Kernel
import CBasics.Library.CString
import CBasics.Library.Pipe
import CBasics.Library.System

/-! The writing child and the reading parent of `fifo`. The parent makes the named
pipe if there is none; each `open` of it waits for the other side to come. -/

set_option autoImplicit false

namespace CBasics.Fifo

open Library

def bufsiz : Nat := 1024

/-- Where the child stands. `absent` is before the `fork` and after one that failed,
`opening` and `meeting` are before and within the wait of `open`. -/
inductive Child where
  | absent
  | opening
  | meeting
  | writing
  | telling
  | closing
  | leaving
  | exited
  | killed
  deriving DecidableEq

inductive Parent where
  | checking
  | making
  | failed
  | forking
  | opening
  | meeting
  | telling
  | reading
  | printing (msgBuf : List Byte)
  | exited
  deriving DecidableEq

/-- The pipe, whether somebody has ever come to read it and to write it, and the two
processes. -/
structure State where
  pipe : Pipe Byte
  readerCame : Bool
  writerCame : Bool
  child : Child
  parent : Parent
  deriving DecidableEq

inductive Mover where
  | child
  | parent
  deriving DecidableEq

/-- What the program is run with: whether the name exists already and what `mkfifo`
and `fork` answer, the text and the byte behind it that is sent too, what the stack
holds in `msg_buf`, and the process ids. -/
structure Setting where
  present : Bool
  made : Bool
  msg : List Byte
  behind : Byte
  garbage : List Byte
  childPid : Int
  parentPid : Int
  forked : Bool

/-- The `sizeof msg + 1` bytes from `msg` on. -/
def Setting.written (setting : Setting) : List Byte := setting.msg ++ [0, setting.behind]

/-- Who prints, and the text. -/
abbrev Line := Mover × List Byte

def childCall (setting : Setting) (state : State) : State × List Line :=
  match state.child with
  | .absent => (state, [])
  | .opening =>
      let pipe := { state.pipe with writeEnds := state.pipe.writeEnds + 1 }
      ({ state with pipe := pipe, writerCame := true, child := .meeting }, [])
  | .meeting => ({ state with child := .writing }, [])
  | .writing =>
      if state.pipe.readEnds = 0 then
        ({ state with pipe := state.pipe.closeWrite, child := .killed }, [])
      else ({ state with pipe := state.pipe.put setting.written, child := .telling }, [])
  | .telling =>
      let text := ascii "Child of pid " ++ decimal setting.childPid ++ ascii " done writing\n"
      ({ state with child := .closing }, [(.child, text)])
  | .closing => ({ state with pipe := state.pipe.closeWrite, child := .leaving }, [])
  | .leaving => ({ state with child := .exited }, [])
  | .exited => (state, [])
  | .killed => (state, [])

def parentCall (setting : Setting) (state : State) : State × List Line :=
  match state.parent with
  | .checking =>
      if setting.present then
        ({ state with parent := .forking }, [(.parent, ascii "Fifo exists\n")])
      else ({ state with parent := .making }, [])
  | .making => ({ state with parent := if setting.made then .forking else .failed }, [])
  | .failed => (state, [])
  | .forking =>
      ({ state with
          child := if setting.forked then .opening else .absent
          parent := .opening }, [])
  | .opening =>
      let pipe := { state.pipe with readEnds := state.pipe.readEnds + 1 }
      ({ state with pipe := pipe, readerCame := true, parent := .meeting }, [])
  | .meeting => ({ state with parent := .telling }, [])
  | .telling =>
      let text := ascii "Parent preparing to read , PID : " ++ decimal setting.parentPid ++
        ascii "\n"
      ({ state with parent := .reading }, [(.parent, text)])
  | .reading =>
      let received := state.pipe.contents.take bufsiz
      let msgBuf := (RecvResult.bytes received).store setting.garbage
      ({ state with pipe := state.pipe.drop bufsiz, parent := .printing msgBuf }, [])
  | .printing msgBuf =>
      ({ state with pipe := state.pipe.closeRead, parent := .exited },
        [(.parent, cString msgBuf)])
  | .exited => (state, [])

/-- The child waits in `open` for a reader; its `write` is small enough to go in at
once, and waits until it does. -/
def Child.ready (setting : Setting) (capacity : Nat) (state : State) : Child → Prop
  | .meeting => state.readerCame
  | .writing =>
      state.pipe.readEnds = 0 ∨
        state.pipe.contents.length + setting.written.length ≤ capacity
  | .absent => False
  | .exited => False
  | .killed => False
  | _ => True

instance (setting : Setting) (capacity : Nat) (state : State) :
    (child : Child) → Decidable (child.ready setting capacity state)
  | .meeting => inferInstanceAs (Decidable (state.readerCame = true))
  | .writing => inferInstanceAs (Decidable (_ ∨ _))
  | .absent | .exited | .killed => isFalse id
  | .opening | .telling | .closing | .leaving => isTrue trivial

def Parent.ready (state : State) : Parent → Prop
  | .meeting => state.writerCame
  | .reading => ¬ state.pipe.Silent
  | .failed => False
  | .exited => False
  | _ => True

instance (state : State) : (parent : Parent) → Decidable (parent.ready state)
  | .meeting => inferInstanceAs (Decidable (state.writerCame = true))
  | .reading => inferInstanceAs (Decidable (¬ state.pipe.Silent))
  | .failed | .exited => isFalse id
  | .checking | .making | .forking | .opening | .telling | .printing _ => isTrue trivial

/-- The parent has come to this point without a child. -/
def State.alone (parent : Parent) : State := ⟨⟨[], 0, 0⟩, false, false, .absent, parent⟩

def start : State := .alone .checking

def fifo (setting : Setting) (capacity : Nat) : System State Mover Line where
  initial state := state = start
  admits state
    | .child => state.child.ready setting capacity state
    | .parent => state.parent.ready state
  step state
    | .child => childCall setting state
    | .parent => parentCall setting state

instance (setting : Setting) (capacity : Nat) (state : State) :
    (mover : Mover) → Decidable ((fifo setting capacity).admits state mover)
  | .child => inferInstanceAs (Decidable (state.child.ready setting capacity state))
  | .parent => inferInstanceAs (Decidable (state.parent.ready state))

def Finished (state : State) : Prop := state.child = .exited ∧ state.parent = .exited

def said (mover : Mover) (lines : List Line) : List (List Byte) :=
  (lines.filter fun line => line.1 = mover).map Prod.snd

def msg : List Byte := ascii "This is a fifo, or a named pipe, in action compadre!\n"

end CBasics.Fifo
