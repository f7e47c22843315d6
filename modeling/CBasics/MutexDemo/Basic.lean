import CBasics.Library.Interleaving
import Mathlib.Data.Fintype.Basic

/-! The threads of the mutex demonstration: each takes the mutex and counts ten
times. `counter++` is a load and a store, and nothing but the mutex keeps two
threads from doing both at once. -/

set_option autoImplicit false

namespace CBasics.MutexDemo

open Library

/-- The result of `int` arithmetic as the machine wraps it. -/
def wrap (value : Int) : Int := value.bmod (2 ^ 32)

/-- Where a thread stands in `my_thread_function`, with `i` and the value it
has loaded. -/
inductive Local where
  | locking
  | testing (i : Nat)
  | loading (i : Nat)
  | storing (i : Nat) (loaded : Int)
  | reading (i : Nat)
  | printing (i : Nat) (value : Int)
  | unlocking
  | exiting
  | finished
  deriving DecidableEq

structure Shared (Thread : Type) where
  counter : Int
  mutex : Option Thread
  deriving DecidableEq

structure Line (Thread : Type) where
  thread : Thread
  value : Int
  deriving DecidableEq

/-- A thread waits only where the mutex is taken, and does nothing once it has
finished. -/
def ready {Thread : Type} (shared : Shared Thread) : Local → Prop
  | .locking => shared.mutex = none
  | .finished => False
  | _ => True

instance {Thread : Type} [DecidableEq Thread] (shared : Shared Thread) (loc : Local) :
    Decidable (ready shared loc) :=
  match loc with
  | .locking => inferInstanceAs (Decidable (shared.mutex = none))
  | .finished => isFalse id
  | .testing _ | .loading _ | .storing _ _ | .reading _ | .printing _ _ | .unlocking | .exiting =>
      isTrue trivial

/-- One action of `my_thread_function`. -/
def myThreadFunction {Thread : Type} (thread : Thread) (shared : Shared Thread) :
    Local → Shared Thread × Local × List (Line Thread)
  | .locking => ({ shared with mutex := some thread }, .testing 0, [])
  | .testing i => (shared, if i < 10 then .loading i else .unlocking, [])
  | .loading i => (shared, .storing i shared.counter, [])
  | .storing i loaded => ({ shared with counter := wrap (loaded + 1) }, .reading i, [])
  | .reading i => (shared, .printing i shared.counter, [])
  | .printing i value => (shared, .testing (i + 1), [⟨thread, value⟩])
  | .unlocking => ({ shared with mutex := none }, .exiting, [])
  | .exiting => (shared, .finished, [])
  | .finished => (shared, .finished, [])

def routine (Thread : Type) : Routine Thread (Shared Thread) Local (Line Thread) where
  start := .locking
  ready := ready
  act := myThreadFunction

/-- The threads `unixMutex` creates. One that is not created yet is one that has
not taken a step. -/
def unixMutex (threadCount : Nat) :
    System (Threads (Fin threadCount) (Shared (Fin threadCount)) Local) (Fin threadCount)
      (Line (Fin threadCount)) :=
  (routine (Fin threadCount)).system ⟨0, none⟩

/-- The thread is between `pthread_mutex_lock` and `pthread_mutex_unlock`. -/
def Inside : Local → Prop
  | .locking => False
  | .exiting => False
  | .finished => False
  | _ => True

def Past : Local → Prop
  | .exiting => True
  | .finished => True
  | _ => False

end CBasics.MutexDemo
