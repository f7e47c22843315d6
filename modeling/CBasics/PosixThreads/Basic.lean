import CBasics.Library.Interleaving

/-! The main thread of `posixThreads` and the threads that it creates and joins. -/

set_option autoImplicit false

namespace CBasics.PosixThreads

open Library

/-- Where a created thread stands in `thread_function`; `absent` is one that
`pthread_create` has not made yet. -/
inductive Local where
  | absent
  | printing
  | exiting
  | finished
  deriving DecidableEq

/-- Where the main thread stands; `failed` is after a failing `pthread_create`. -/
inductive Main where
  | storing (i : Nat)
  | creating (i : Nat)
  | announcing
  | joining (i : Nat)
  | returned
  | failed (i : Nat)
  deriving DecidableEq

inductive Line where
  | thread (number : Int)
  | allCreated
  | allTerminated
  deriving DecidableEq

/-- The array `arg`, which the threads read through their pointers. -/
abbrev Args (threadCount : Nat) := Fin threadCount → Int

/-- One action of `thread_function`. -/
def threadFunction {threadCount : Nat} (thread : Fin threadCount) (arg : Args threadCount) :
    Local → Args threadCount × Local × List Line
  | .absent => (arg, .absent, [])
  | .printing => (arg, .exiting, [.thread (arg thread)])
  | .exiting => (arg, .finished, [])
  | .finished => (arg, .finished, [])

def ready {threadCount : Nat} (_arg : Args threadCount) : Local → Prop
  | .printing => True
  | .exiting => True
  | _ => False

instance {threadCount : Nat} (arg : Args threadCount) : (loc : Local) → Decidable (ready arg loc)
  | .printing | .exiting => isTrue trivial
  | .absent | .finished => isFalse id

def routine (threadCount : Nat) : Routine (Fin threadCount) (Args threadCount) Local Line where
  start := .absent
  ready := ready
  act := threadFunction

structure State (threadCount : Nat) where
  main : Main
  threads : Threads (Fin threadCount) (Args threadCount) Local

/-- The main thread moves, and a `pthread_create` of this step succeeds or not; or one
of the other threads does. -/
inductive Move (threadCount : Nat) where
  | main (created : Bool)
  | thread (thread : Fin threadCount)
  deriving DecidableEq

section Main

variable {threadCount : Nat}

def State.setArg (state : State threadCount) (thread : Fin threadCount) (value : Int) :
    State threadCount :=
  { state with threads :=
      { state.threads with shared := Function.update state.threads.shared thread value } }

def State.create (state : State threadCount) (thread : Fin threadCount) : State threadCount :=
  { state with threads :=
      { state.threads with locals := Function.update state.threads.locals thread .printing } }

/-- One action of the main thread; the tests of the two loops are made on the way. -/
def mainAction (state : State threadCount) (created : Bool) : State threadCount × List Line :=
  match state.main with
  | .storing i =>
      if small : i < threadCount then
        ({ state.setArg ⟨i, small⟩ i with main := .creating i }, [])
      else ({ state with main := .announcing }, [])
  | .creating i =>
      if small : i < threadCount then
        if created then ({ state.create ⟨i, small⟩ with main := .storing (i + 1) }, [])
        else ({ state with main := .failed i }, [])
      else (state, [])
  | .announcing => ({ state with main := .joining 0 }, [.allCreated])
  | .joining i =>
      if i < threadCount then ({ state with main := .joining (i + 1) }, [])
      else ({ state with main := .returned }, [.allTerminated])
  | .returned => (state, [])
  | .failed _ => (state, [])

/-- `pthread_join` waits for its thread. -/
def Main.ready (threads : Threads (Fin threadCount) (Args threadCount) Local) : Main → Prop
  | .joining i => ∀ small : i < threadCount, threads.locals ⟨i, small⟩ = .finished
  | .returned => False
  | .failed _ => False
  | _ => True

instance (threads : Threads (Fin threadCount) (Args threadCount) Local) :
    (main : Main) → Decidable (main.ready threads)
  | .joining _ => inferInstanceAs (Decidable (∀ _, _ = Local.finished))
  | .returned | .failed _ => isFalse id
  | .storing _ | .creating _ | .announcing => isTrue trivial

/-- After a failing `pthread_create` the process has exited. -/
def Main.running : Main → Bool
  | .failed _ => false
  | _ => true

def Admits (state : State threadCount) : Move threadCount → Prop
  | .main _ => state.main.ready state.threads
  | .thread thread =>
      state.main.running ∧ ready state.threads.shared (state.threads.locals thread)

instance (state : State threadCount) : (move : Move threadCount) → Decidable (Admits state move)
  | .main _ => inferInstanceAs (Decidable (state.main.ready state.threads))
  | .thread _ => inferInstanceAs (Decidable (_ ∧ _))

/-- The array is not initialised. -/
def posixThreads (threadCount : Nat) : System (State threadCount) (Move threadCount) Line where
  initial state := ∃ garbage, state = ⟨.storing 0, ⟨garbage, fun _ => .absent⟩⟩
  admits := Admits
  step state
    | .main created => mainAction state created
    | .thread thread =>
        let acted := ((routine threadCount).system state.threads.shared).step state.threads thread
        ({ state with threads := acted.1 }, acted.2)

end Main

end CBasics.PosixThreads
