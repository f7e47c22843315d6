import CBasics.Library.CString
import CBasics.Library.Interleaving

/-! The threads of the spin lock demonstration. Each tests a shared number before and
after the region in which it counts the number up and down again; a thread that finds it
above two ends the process. -/

set_option autoImplicit false

namespace CBasics.SpinLockDemo

open Library

/-- Where a thread stands in `pthread_function_example`, with the value it has loaded. -/
inductive Local where
  | testing
  | locking
  | announcing
  | loadingUp
  | storingUp (loaded : UInt8)
  | loadingDown
  | storingDown (loaded : UInt8)
  | unlocking
  | testingAgain
  | telling
  | failing
  | exiting
  | finished
  deriving DecidableEq

/-- The lock is the thread that holds it; `exited` is set by `exit`. -/
structure Shared (Thread : Type) where
  cannotGoOver2 : UInt8
  spinlock : Option Thread
  exited : Bool
  deriving DecidableEq

inductive Message (Thread : Type) where
  | acquired (thread : Thread)
  | released (thread : Thread)
  deriving DecidableEq

/-- A thread that spins on a taken lock changes nothing, and counts as waiting. -/
def ready {Thread : Type} (shared : Shared Thread) : Local → Prop
  | .locking => shared.exited = false ∧ shared.spinlock = none
  | .finished => False
  | _ => shared.exited = false

instance {Thread : Type} [DecidableEq Thread] (shared : Shared Thread) (loc : Local) :
    Decidable (ready shared loc) :=
  match loc with
  | .locking => inferInstanceAs (Decidable (shared.exited = false ∧ shared.spinlock = none))
  | .finished => isFalse id
  | .testing | .announcing | .loadingUp | .storingUp _ | .loadingDown | .storingDown _
  | .unlocking | .testingAgain | .telling | .failing | .exiting =>
      inferInstanceAs (Decidable (shared.exited = false))

/-- One action of `pthread_function_example`. The two tests are made without the lock. -/
def pthreadFunctionExample {Thread : Type} (thread : Thread) (shared : Shared Thread) :
    Local → Shared Thread × Local × List (Message Thread)
  | .testing => (shared, if shared.cannotGoOver2 > 2 then .failing else .locking, [])
  | .locking => ({ shared with spinlock := some thread }, .announcing, [])
  | .announcing => (shared, .loadingUp, [.acquired thread])
  | .loadingUp => (shared, .storingUp shared.cannotGoOver2, [])
  | .storingUp loaded => ({ shared with cannotGoOver2 := loaded + 1 }, .loadingDown, [])
  | .loadingDown => (shared, .storingDown shared.cannotGoOver2, [])
  | .storingDown loaded => ({ shared with cannotGoOver2 := loaded - 1 }, .unlocking, [])
  | .unlocking => ({ shared with spinlock := none }, .testingAgain, [])
  | .testingAgain => (shared, if shared.cannotGoOver2 > 2 then .failing else .telling, [])
  | .telling => (shared, .exiting, [.released thread])
  | .failing => ({ shared with exited := true }, .finished, [])
  | .exiting => (shared, .finished, [])
  | .finished => (shared, .finished, [])

def routine (Thread : Type) : Routine Thread (Shared Thread) Local (Message Thread) where
  start := .testing
  ready := ready
  act := pthreadFunctionExample

abbrev State (threadCount : Nat) :=
  Threads (Fin threadCount) (Shared (Fin threadCount)) Local

/-- The threads that `main` creates; one that is not created yet has not moved. -/
def spinLocks (threadCount : Nat) :
    System (State threadCount) (Fin threadCount) (Message (Fin threadCount)) :=
  (routine (Fin threadCount)).system ⟨0, none, false⟩

/-- The thread is between `pthread_spin_lock` and `pthread_spin_unlock`. -/
def Local.Inside : Local → Prop
  | .announcing => True
  | .loadingUp => True
  | .storingUp _ => True
  | .loadingDown => True
  | .storingDown _ => True
  | .unlocking => True
  | _ => False

end CBasics.SpinLockDemo
