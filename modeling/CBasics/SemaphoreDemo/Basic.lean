import CBasics.Library.Interleaving
import Mathlib.Data.Fintype.Basic

/-! The threads of the semaphore demonstration: each shifts the shared number two
bits to the left, sleeps and shifts it back. The semaphore bounds how many are
between the two shifts, and the number is tested for having left its byte. -/

set_option autoImplicit false

namespace CBasics.SemaphoreDemo

open Library

def semaphoreInitVal : Nat := 2

/-- Where a thread stands in `thread_routine`. -/
inductive Local where
  | waiting
  | shiftingLeft
  | announcing
  | testing
  | failing
  | sleeping
  | awaking
  | shiftingRight
  | leaving
  | posting
  | exiting
  | finished
  deriving DecidableEq

/-- `exited` is set when a thread has ended the process by `exit`. -/
structure Shared where
  binary : BitVec 32
  semaphore : Nat
  exited : Bool
  deriving DecidableEq

inductive Message (Thread : Type) where
  | sleepy (binary : Int) (thread : Thread)
  | awoken (thread : Thread)
  | destroyed (binary : Int) (thread : Thread)
  | outOfBounds
  deriving DecidableEq

def ready (shared : Shared) : Local → Prop
  | .waiting => shared.exited = false ∧ 0 < shared.semaphore
  | .finished => False
  | _ => shared.exited = false

instance (shared : Shared) (loc : Local) : Decidable (ready shared loc) :=
  match loc with
  | .waiting => inferInstanceAs (Decidable (shared.exited = false ∧ 0 < shared.semaphore))
  | .finished => isFalse id
  | .shiftingLeft | .announcing | .testing | .failing | .sleeping | .awaking | .shiftingRight
  | .leaving | .posting | .exiting => inferInstanceAs (Decidable (shared.exited = false))

/-- One action of `thread_routine`. The shifts and the test are those of `int`. -/
def threadRoutine {Thread : Type} (thread : Thread) (shared : Shared) :
    Local → Shared × Local × List (Message Thread)
  | .waiting => ({ shared with semaphore := shared.semaphore - 1 }, .shiftingLeft, [])
  | .shiftingLeft => ({ shared with binary := shared.binary <<< 2 }, .announcing, [])
  | .announcing => (shared, .testing, [.sleepy shared.binary.toInt thread])
  | .testing => (shared, if shared.binary.toInt > 256 then .failing else .sleeping, [])
  | .failing => ({ shared with exited := true }, .finished, [.outOfBounds])
  | .sleeping => (shared, .awaking, [])
  | .awaking => (shared, .shiftingRight, [.awoken thread])
  | .shiftingRight => ({ shared with binary := shared.binary.sshiftRight 2 }, .leaving, [])
  | .leaving => (shared, .posting, [.destroyed shared.binary.toInt thread])
  | .posting => ({ shared with semaphore := shared.semaphore + 1 }, .exiting, [])
  | .exiting => (shared, .finished, [])
  | .finished => (shared, .finished, [])

def routine (Thread : Type) : Routine Thread Shared Local (Message Thread) where
  start := .waiting
  ready := ready
  act := threadRoutine

abbrev State (threadCount : Nat) := Threads (Fin threadCount) Shared Local

/-- The threads `unixSemaphores` creates, with the value given to `sem_init`. -/
def unixSemaphores (threadCount initVal : Nat) :
    System (State threadCount) (Fin threadCount) (Message (Fin threadCount)) :=
  (routine (Fin threadCount)).system ⟨0b00000111, initVal, false⟩

/-- The thread is between `sem_wait` and `sem_post`. -/
def Local.inside : Local → Bool
  | .waiting => false
  | .exiting => false
  | .finished => false
  | _ => true

/-- The thread has shifted left and not yet shifted right. -/
def Local.shifted : Local → Bool
  | .announcing => true
  | .testing => true
  | .failing => true
  | .sleeping => true
  | .awaking => true
  | .shiftingRight => true
  | _ => false

end CBasics.SemaphoreDemo
