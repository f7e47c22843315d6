import CBasics.FileTransfer.Client
import CBasics.Library.System

/-! The file transfer server: a parent that accepts, forks and waits, and its
children, which all write the same file. -/

set_option autoImplicit false

namespace CBasics.FileTransfer

open Library

/-- Where a child stands in `handle_file_transfer`: before `fopen`, in the loop,
after a result of 0 or of -1, and terminated. -/
inductive ChildPc where
  | opening
  | reading
  | disconnected
  | failed
  | terminated (endOfStream : Bool)
  deriving DecidableEq

/-- A child, the connection it serves, and its `FILE`: what was written to it
and is not yet in the file, and the position in the file. -/
structure Child where
  pid : Nat
  connection : Nat
  pc : ChildPc
  pending : List Byte
  offset : Nat
  deriving DecidableEq

/-- A call of the child. Its `FILE` may be flushed at any time in the loop;
`fclose`, or `exit` after an error, flushes all of it. -/
inductive ChildAnswer where
  | fopen
  | recv (result : RecvResult)
  | flush (count : Nat)
  | exit
  deriving DecidableEq

def writeAt (file : List Byte) (offset : Nat) (bytes : List Byte) : List Byte :=
  file.take offset ++ List.replicate (offset - file.length) 0 ++ bytes ++
    file.drop (offset + bytes.length)

def Child.write (child : Child) (file : List Byte) (count : Nat) : Child × List Byte :=
  let bytes := child.pending.take count
  ({ child with pending := child.pending.drop count, offset := child.offset + bytes.length },
    writeAt file child.offset bytes)

def Child.step (child : Child) (file : List Byte) : ChildAnswer → Child × List Byte
  | .fopen => ({ child with pc := .reading, pending := [], offset := 0 }, [])
  | .recv .error => ({ child with pc := .failed }, file)
  | .recv (.bytes received) =>
      if received.length > 0 then ({ child with pending := child.pending ++ received }, file)
      else ({ child with pc := .disconnected }, file)
  | .flush count => child.write file count
  | .exit =>
      let (closed, written) := child.write file child.pending.length
      ({ closed with pc := .terminated (child.pc = .disconnected) }, written)

def Child.Admits (child : Child) : ChildAnswer → Prop
  | .fopen => child.pc = .opening
  | .recv result => child.pc = .reading ∧ result.Fits buffSize
  | .flush count => child.pc = .reading ∧ count ≤ child.pending.length
  | .exit => child.pc = .disconnected ∨ child.pc = .failed

instance (child : Child) (answer : ChildAnswer) : Decidable (child.Admits answer) := by
  unfold Child.Admits
  split <;> infer_instance

def ChildAnswer.received : ChildAnswer → List Byte
  | .recv (.bytes received) => received
  | _ => []

/-- `handle_file_transfer` in a child of its own, with the bytes that each call
of `recv` delivers as events. -/
def handleFileTransfer : System (Child × List Byte) ChildAnswer (List Byte) where
  initial state := state.1.pc = .opening
  admits state answer := state.1.Admits answer
  step state answer := (state.1.step state.2 answer, [answer.received])

instance (state : Child × List Byte) (answer : ChildAnswer) :
    Decidable (handleFileTransfer.admits state answer) :=
  inferInstanceAs (Decidable (state.1.Admits answer))

/-- A client's side of a connection: what it has sent, what of that the server
has not read, and whether it has hung up. -/
structure Connection where
  sent : List Byte
  unread : List Byte
  hungUp : Bool
  deriving DecidableEq

def Connection.Delivers (connection : Connection) : ChildAnswer → Prop
  | .recv (.bytes received) =>
      received <+: connection.unread ∧ (received = [] → connection.unread = [] ∧ connection.hungUp)
  | _ => True

instance (connection : Connection) (answer : ChildAnswer) :
    Decidable (connection.Delivers answer) := by
  unfold Connection.Delivers
  split <;> infer_instance

def Connection.read (connection : Connection) (answer : ChildAnswer) : Connection :=
  { connection with unread := connection.unread.drop answer.received.length }

/-- Where the parent stands in its loop. A descriptor of a connection is
represented by the connection. -/
inductive ParentPc where
  | polling
  | accepting
  | forking (newFd : Nat)
  | closing (newFd : Nat)
  | waiting
  | exited
  deriving DecidableEq

/-- `children` are the processes that were forked and not reaped. -/
structure State where
  parent : ParentPc
  children : List Child
  file : List Byte
  backlog : List Nat
  arrived : Nat
  connections : Nat → Connection

/-- What the parent's calls answer: `poll` with the one slot's `revents`,
`accept` and `fork` with success or failure, `wait` with a pid or -1. -/
inductive ParentAnswer where
  | poll (pollCount : Int) (revents : BitVec 16)
  | accept (succeeded : Bool)
  | fork (child : Option Nat)
  | close
  | wait (child : Option Nat)
  deriving DecidableEq

/-- Whose step it is: a client's, the parent's, or a child's. -/
inductive Input where
  | connect
  | send (client : Nat) (bytes : List Byte)
  | hangUp (client : Nat)
  | parent (answer : ParentAnswer)
  | child (pid : Nat) (answer : ChildAnswer)

inductive Event where
  | forked (child : Child)
  | reaped (child : Child)
  deriving DecidableEq

def State.update (state : State) (client : Nat) (connection : Connection) : State :=
  { state with
    connections := fun other => if other = client then connection else state.connections other }

/-- After `fork`. `if (fork < 0)` compares the function, not its result, so a
failed call goes on like the parent of a child. -/
def forkTurn (state : State) (newFd : Nat) (result : Option Nat) : State × List Event :=
  match result with
  | some pid =>
      let child := ⟨pid, newFd, .opening, [], 0⟩
      ({ state with parent := .closing newFd, children := state.children ++ [child] },
        [.forked child])
  | none => ({ state with parent := .closing newFd }, [])

/-- `wait` returns a terminated child, or at once if there is no child. -/
def waitTurn (state : State) (result : Option Nat) : State × List Event :=
  match result with
  | some pid =>
      ({ state with
          parent := .polling
          children := state.children.filter fun child => child.pid ≠ pid },
        (state.children.filter fun child => child.pid = pid).map .reaped)
  | none => ({ state with parent := .polling }, [])

def parentStep (state : State) (answer : ParentAnswer) : State × List Event :=
  match state.parent, answer with
  | .polling, .poll pollCount revents =>
      if pollCount < 0 then ({ state with parent := .exited }, [])
      else if revents = pollin then ({ state with parent := .accepting }, [])
      else ({ state with parent := .polling }, [])
  | .accepting, .accept true =>
      match state.backlog with
      | newFd :: rest => ({ state with parent := .forking newFd, backlog := rest }, [])
      | [] => (state, [])
  | .accepting, .accept false => ({ state with parent := .polling }, [])
  | .forking newFd, .fork result => forkTurn state newFd result
  | .closing _, .close => ({ state with parent := .waiting }, [])
  | .waiting, .wait result => waitTurn state result
  | _, _ => (state, [])

def childStep (state : State) (pid : Nat) (answer : ChildAnswer) : State × List Event :=
  match state.children.find? fun child => child.pid = pid with
  | some child =>
      let (stepped, file) := child.step state.file answer
      let told := state.update child.connection ((state.connections child.connection).read answer)
      ({ told with
          children := state.children.map fun other => if other.pid = pid then stepped else other
          file := file }, [])
  | none => (state, [])

def step (state : State) : Input → State × List Event
  | .connect =>
      ({ state with backlog := state.backlog ++ [state.arrived], arrived := state.arrived + 1 }, [])
  | .send client bytes =>
      let connection := state.connections client
      (state.update client
        { connection with
          sent := connection.sent ++ bytes
          unread := connection.unread ++ bytes }, [])
  | .hangUp client =>
      (state.update client { state.connections client with hungUp := true }, [])
  | .parent answer => parentStep state answer
  | .child pid answer => childStep state pid answer

def AdmitsParent (state : State) (answer : ParentAnswer) : Prop :=
  match state.parent, answer with
  | .polling, .poll _ _ => True
  | .accepting, .accept succeeded => succeeded → state.backlog ≠ []
  | .forking _, .fork (some pid) => ∀ child ∈ state.children, child.pid ≠ pid
  | .forking _, .fork none => True
  | .closing _, .close => True
  | .waiting, .wait (some pid) =>
      ∃ child ∈ state.children, child.pid = pid ∧
        (child.pc = .terminated true ∨ child.pc = .terminated false)
  | .waiting, .wait none => state.children = []
  | _, _ => False

def Admits (state : State) : Input → Prop
  | .connect => True
  | .send client _ => client < state.arrived ∧ (state.connections client).hungUp = false
  | .hangUp client => client < state.arrived
  | .parent answer => AdmitsParent state answer
  | .child pid answer =>
      ∃ child ∈ state.children, child.pid = pid ∧ child.Admits answer ∧
        (state.connections child.connection).Delivers answer

instance (state : State) (answer : ParentAnswer) : Decidable (AdmitsParent state answer) := by
  unfold AdmitsParent
  split <;> infer_instance

instance (state : State) (input : Input) : Decidable (Admits state input) := by
  unfold Admits
  split <;> infer_instance

/-- The server and its clients, whoever takes the next step. -/
def main : System State Input Event where
  initial state := state.parent = .polling ∧ state.children = [] ∧ state.backlog = [] ∧
    state.arrived = 0 ∧ ∀ client, state.connections client = ⟨[], [], false⟩
  admits := Admits
  step := step

instance (state : State) (input : Input) : Decidable (main.admits state input) :=
  inferInstanceAs (Decidable (Admits state input))

end CBasics.FileTransfer
