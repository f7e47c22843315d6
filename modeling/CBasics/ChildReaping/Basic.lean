import CBasics.Library.System
import Mathlib.Data.Finset.Erase
import Mathlib.Data.Finset.Insert

/-! A server that forks a child for each connection, and its handler for
`SIGCHLD`. The handler interrupts the server between any two of its steps, and
the signal is blocked while it runs. -/

set_option autoImplicit false

namespace CBasics.ChildReaping

open Library

inductive Call where
  | sigaction
  | fork
  | other
  | exit
  deriving DecidableEq

/-- The control flow of a server: the call it makes at each point and where it
goes on when the call succeeds or fails. It forks only where it has installed
the handler before. -/
structure Program where
  Pc : Type
  start : Pc
  call : Pc → Call
  next : Pc → Bool → Pc
  installed : Pc → Bool
  start_before : installed start = false
  fork_after : ∀ pc, call pc = .fork → installed pc = true
  installed_next : ∀ pc succeeded, installed (next pc succeeded) = true →
    installed pc = true ∨ call pc = .sigaction ∧ succeeded = true

inductive ServerPc where
  | listening
  | sigaction
  | accepting
  | forking
  | closing
  | returned
  deriving DecidableEq

/-- `server`, which returns after the first connection. -/
def server : Program where
  Pc := ServerPc
  start := .listening
  call
    | .sigaction => .sigaction
    | .forking => .fork
    | .returned => .exit
    | _ => .other
  next
    | .listening, succeeded => if succeeded then .sigaction else .returned
    | .sigaction, succeeded => if succeeded then .accepting else .returned
    | .accepting, succeeded => if succeeded then .forking else .accepting
    | .forking, _ => .closing
    | .closing, _ => .returned
    | .returned, _ => .returned
  installed
    | .accepting => true
    | .forking => true
    | .closing => true
    | _ => false
  start_before := rfl
  fork_after pc := by cases pc <;> simp
  installed_next pc succeeded := by cases pc <;> cases succeeded <;> simp

inductive RawServerPc where
  | polling
  | sigaction
  | accepting
  | forking
  | closing
  | exited
  deriving DecidableEq

/-- `main` of the raw socket server, which installs the handler again in every
round. `revents` does not change after the one `poll`: either it is `POLLIN` or
the loop does nothing else. -/
def rawServer (revents : Bool) : Program where
  Pc := RawServerPc
  start := .polling
  call
    | .sigaction => .sigaction
    | .forking => .fork
    | .exited => .exit
    | _ => .other
  next
    | .polling, succeeded => if succeeded then .sigaction else .exited
    | .sigaction, succeeded =>
        if succeeded then if revents then .accepting else .sigaction else .exited
    | .accepting, succeeded => if succeeded then .forking else .exited
    | .forking, _ => .closing
    | .closing, _ => .sigaction
    | .exited, _ => .exited
  installed
    | .accepting => true
    | .forking => true
    | _ => false
  start_before := rfl
  fork_after pc := by cases pc <;> simp
  installed_next pc succeeded := by cases pc <;> cases succeeded <;> cases revents <;> simp

/-- Where the handler stands: before `errno` is saved, in the loop of `waitpid`,
before `errno` is restored, and before it returns. -/
inductive HandlerPc where
  | entered
  | draining (savedError : Int)
  | restoring (savedError : Int)
  | returning
  deriving DecidableEq

/-- The result of `waitpid(-1, NULL, WNOHANG)` and what it leaves in `errno`. -/
structure WaitAnswer where
  result : Int
  errno : Int
  deriving DecidableEq

/-- One statement of `signalChild_Handler`; `signal_child_handler` has the same
text. -/
def signalChildHandler (pc : HandlerPc) (errno : Int) (answer : WaitAnswer) :
    Option HandlerPc × Int :=
  match pc with
  | .entered => (some (.draining errno), errno)
  | .draining savedError =>
      if answer.result > 0 then (some (.draining savedError), answer.errno)
      else (some (.restoring savedError), answer.errno)
  | .restoring savedError => (some .returning, savedError)
  | .returning => (none, errno)

/-- `pending` is the one bit the kernel keeps for `SIGCHLD`; `zombies` are the
children that have terminated and were not reaped. -/
structure State (Pc : Type) where
  pc : Pc
  installed : Bool
  pending : Bool
  handler : Option HandlerPc
  errno : Int
  running : Finset Int
  zombies : Finset Int

/-- Whether a call of the server succeeds, the pid if it is a `fork`, and what
it leaves in `errno`. -/
structure CallAnswer where
  succeeded : Bool
  pid : Int
  errno : Int
  deriving DecidableEq

/-- A step of the server, the end of a child, a `SIGCHLD` for another reason,
the delivery of the signal, or a step of the handler. -/
inductive Input where
  | server (answer : CallAnswer)
  | dies (pid : Int)
  | raised
  | deliver
  | handler (answer : WaitAnswer)

inductive Event where
  | forked (pid : Int)
  | died (pid : Int)
  | delivered (errno : Int)
  | reaped (pid : Int)
  | noneTerminated
  | returned (errno : Int)
  deriving DecidableEq

section Steps

variable {program : Program}

def serverStep (state : State program.Pc) (answer : CallAnswer) :
    State program.Pc × List Event :=
  let moved := { state with pc := program.next state.pc answer.succeeded, errno := answer.errno }
  match program.call state.pc with
  | .sigaction => ({ moved with installed := state.installed || answer.succeeded }, [])
  | .fork =>
      if answer.succeeded then
        ({ moved with running := insert answer.pid state.running }, [.forked answer.pid])
      else (moved, [])
  | .other => (moved, [])
  -- the children go to another parent
  | .exit => ({ state with pending := false, running := ∅, zombies := ∅ }, [])

/-- `waitpid` reaps the child it reports. -/
def handlerStep (state : State program.Pc) (pc : HandlerPc) (answer : WaitAnswer) :
    State program.Pc × List Event :=
  let (next, errno) := signalChildHandler pc state.errno answer
  let moved := { state with handler := next, errno := errno }
  match pc with
  | .draining _ =>
      if answer.result > 0 then
        ({ moved with zombies := state.zombies.erase answer.result }, [.reaped answer.result])
      else (moved, [.noneTerminated])
  | .returning => (moved, [.returned errno])
  | _ => (moved, [])

/-- Without a handler the signal is discarded. -/
def step (state : State program.Pc) : Input → State program.Pc × List Event
  | .server answer => serverStep state answer
  | .dies pid =>
      ({ state with
          pending := state.pending || state.installed
          running := state.running.erase pid
          zombies := insert pid state.zombies }, [.died pid])
  | .raised => ({ state with pending := state.pending || state.installed }, [])
  | .deliver =>
      ({ state with pending := false, handler := some .entered }, [.delivered state.errno])
  | .handler answer =>
      match state.handler with
      | some pc => handlerStep state pc answer
      | none => (state, [])

/-- `waitpid` reports a terminated child if there is one, else 0, or -1 if there
is no child at all. -/
def AdmitsWait (state : State program.Pc) (answer : WaitAnswer) : Prop :=
  (0 < answer.result ∧ answer.result ∈ state.zombies) ∨
    (answer.result = 0 ∧ state.zombies = ∅ ∧ state.running ≠ ∅) ∨
    (answer.result = -1 ∧ state.zombies = ∅ ∧ state.running = ∅)

def Admits (state : State program.Pc) : Input → Prop
  | .server answer =>
      state.handler = none ∧ (program.call state.pc = .fork → answer.succeeded = true →
        0 < answer.pid ∧ answer.pid ∉ state.running ∧ answer.pid ∉ state.zombies)
  | .dies pid => pid ∈ state.running
  | .raised => True
  | .deliver => state.pending = true ∧ state.installed = true ∧ state.handler = none
  | .handler answer =>
      match state.handler with
      | some (.draining _) => AdmitsWait state answer
      | some _ => True
      | none => False

instance (state : State program.Pc) (answer : WaitAnswer) : Decidable (AdmitsWait state answer) :=
  inferInstanceAs (Decidable (_ ∨ _ ∨ _))

instance (state : State program.Pc) (input : Input) : Decidable (Admits state input) := by
  unfold Admits
  split
  · infer_instance
  · infer_instance
  · infer_instance
  · infer_instance
  · split <;> infer_instance

end Steps

def process (program : Program) : System (State program.Pc) Input Event where
  initial state := state.pc = program.start ∧ state.installed = false ∧ state.pending = false ∧
    state.handler = none ∧ state.running = ∅ ∧ state.zombies = ∅
  admits := Admits
  step := step

instance (program : Program) (state : State program.Pc) (input : Input) :
    Decidable ((process program).admits state input) :=
  inferInstanceAs (Decidable (Admits state input))

end CBasics.ChildReaping
