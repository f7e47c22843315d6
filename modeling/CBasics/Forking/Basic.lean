import CBasics.Library.CString
import CBasics.Library.ProcessTree
import CBasics.Library.System

/-! `fork_intro` from where it has asked for the process id of its parent, among
processes that fork and end as they like. A step is one system call of one process. -/

set_option autoImplicit false

namespace CBasics.Forking

open Library

variable (Pid : Type)

/-- Where a process that runs `fork_intro` stands. -/
inductive Stage where
  | forking
  | testing
  | ending
  | ended
  deriving DecidableEq

structure State where
  processes : Processes Pid
  ppid : Pid
  child : Pid
  motherStage : Stage
  childStage : Option Stage

inductive Who where
  | mother
  | child
  deriving DecidableEq

inductive Event where
  | said (who : Who) (text : List UInt8)
  | exited (pid : Pid)
  deriving DecidableEq

/-- Who moves: `fork` of the mother returns the process id of the child or fails. -/
inductive Move where
  | mother (result : Option Pid)
  | child
  | fork (pid child : Pid)
  | exit (pid : Pid)
  deriving DecidableEq

/-- The processes that there are from the beginning: the one that forks, the parent that it
has when it asks, and the one that takes in orphans. -/
structure Setting where
  mother : Pid
  guardian : Pid
  reaper : Pid
  mortal : mother ≠ reaper
  strange : guardian ≠ mother

variable {Pid} [DecidableEq Pid]

def parentText : List UInt8 := ascii "This is the parent\n"

def childText : List UInt8 := ascii "This is the child\n"

/-- The test on `getppid`. -/
def label (state : State Pid) (pid : Pid) : List UInt8 :=
  if state.processes.parent pid = state.ppid then parentText else childText

def State.leave (setting : Setting Pid) (state : State Pid) (pid : Pid) : State Pid :=
  { state with processes := state.processes.exit setting.reaper pid }

def motherCall (setting : Setting Pid) (state : State Pid) (result : Option Pid) :
    State Pid × List (Event Pid) :=
  match state.motherStage with
  | .forking =>
      match result with
      | none => ({ state with motherStage := .ending }, [])
      | some child =>
          ({ state with
              processes := state.processes.fork setting.mother child
              child := child
              motherStage := .testing
              childStage := some .testing }, [])
  | .testing =>
      ({ state with motherStage := .ending }, [.said .mother (label state setting.mother)])
  | .ending =>
      ({ state.leave setting setting.mother with motherStage := .ended }, [.exited setting.mother])
  | .ended => (state, [])

def childCall (setting : Setting Pid) (state : State Pid) : State Pid × List (Event Pid) :=
  match state.childStage with
  | some .testing =>
      ({ state with childStage := some .ending }, [.said .child (label state state.child)])
  | some .ending =>
      ({ state.leave setting state.child with childStage := some .ended }, [.exited state.child])
  | _ => (state, [])

/-- The process runs `fork_intro` and has not ended. -/
def State.Runs (setting : Setting Pid) (state : State Pid) (pid : Pid) : Prop :=
  pid = setting.mother ∧ state.motherStage ≠ .ended ∨
    pid = state.child ∧ (state.childStage = some .testing ∨ state.childStage = some .ending)

instance (setting : Setting Pid) (state : State Pid) (pid : Pid) :
    Decidable (state.Runs setting pid) :=
  inferInstanceAs (Decidable (_ ∨ _))

/-- A new process gets an id that nobody has; other processes end unless they are the
reaper. -/
def Admits (setting : Setting Pid) (state : State Pid) : Move Pid → Prop
  | .mother result =>
      state.motherStage ≠ .ended ∧ ∀ child ∈ result, child ∉ state.processes.live
  | .child => state.childStage = some .testing ∨ state.childStage = some .ending
  | .fork pid child =>
      pid ∈ state.processes.live ∧ child ∉ state.processes.live ∧ ¬ state.Runs setting pid
  | .exit pid => pid ∈ state.processes.live ∧ pid ≠ setting.reaper ∧ ¬ state.Runs setting pid

instance (setting : Setting Pid) (state : State Pid) :
    (move : Move Pid) → Decidable (Admits setting state move)
  | .mother _ => inferInstanceAs (Decidable (_ ∧ _))
  | .child => inferInstanceAs (Decidable (_ ∨ _))
  | .fork _ _ => inferInstanceAs (Decidable (_ ∧ _))
  | .exit _ => inferInstanceAs (Decidable (_ ∧ _))

def forkIntro (setting : Setting Pid) : System (State Pid) (Move Pid) (Event Pid) where
  initial state := state.processes.Rooted setting.reaper ∧ setting.mother ∈ state.processes.live ∧
    state.processes.parent setting.mother = setting.guardian ∧ state.ppid = setting.guardian ∧
      state.motherStage = .forking ∧ state.childStage = none
  admits := Admits setting
  step state
    | .mother result => motherCall setting state result
    | .child => childCall setting state
    | .fork pid child => ({ state with processes := state.processes.fork pid child }, [])
    | .exit pid => (state.leave setting pid, [.exited pid])

instance (setting : Setting Pid) (state : State Pid) (move : Move Pid) :
    Decidable ((forkIntro setting).admits state move) :=
  inferInstanceAs (Decidable (Admits setting state move))

end CBasics.Forking
