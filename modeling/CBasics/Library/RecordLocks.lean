import Mathlib.Data.Fintype.Defs
import Mathlib.Data.List.Basic

/-! Advisory locks of processes on the bytes of a file. A process has at most one
lock on a byte, and setting one replaces the one it had there. -/

set_option autoImplicit false

namespace CBasics.Library

inductive LockType where
  | read
  | write
  deriving DecidableEq

/-- Whether a process may get a lock where another process has this one. -/
def LockType.LetsIn : LockType → LockType → Prop
  | .read, .read => True
  | _, _ => False

instance : (held wanted : LockType) → Decidable (held.LetsIn wanted)
  | .read, .read => isTrue trivial
  | .read, .write => isFalse id
  | .write, .read => isFalse id
  | .write, .write => isFalse id

structure RecordLocks (Process : Type) where
  held : Process → Nat → Option LockType

namespace RecordLocks

variable {Process : Type}

/-- No other process has a lock on one of the bytes that conflicts. -/
def Grants (locks : RecordLocks Process) (process : Process) (wanted : LockType)
    (bytes : List Nat) : Prop :=
  ∀ byte ∈ bytes, ∀ other, other ≠ process →
    ∀ lock ∈ locks.held other byte, lock.LetsIn wanted

instance [Fintype Process] [DecidableEq Process] (locks : RecordLocks Process)
    (process : Process) (wanted : LockType) (bytes : List Nat) :
    Decidable (locks.Grants process wanted bytes) :=
  inferInstanceAs (Decidable (∀ byte ∈ bytes, ∀ other, other ≠ process →
    ∀ lock ∈ locks.held other byte, lock.LetsIn wanted))

def put [DecidableEq Process] (locks : RecordLocks Process) (process : Process)
    (lock : Option LockType) (bytes : List Nat) : RecordLocks Process where
  held other byte := if other = process ∧ byte ∈ bytes then lock else locks.held other byte

/-- The process has closed a descriptor of the file, or has ended. -/
def release [DecidableEq Process] (locks : RecordLocks Process) (process : Process) :
    RecordLocks Process where
  held other byte := if other = process then none else locks.held other byte

/-- Where a process has a write lock, no other process has a lock. -/
def Exclusive (locks : RecordLocks Process) : Prop :=
  ∀ writer other byte, other ≠ writer → locks.held writer byte = some .write →
    locks.held other byte = none

/-- The process has exactly these locks. -/
def Owns (locks : RecordLocks Process) (process : Process) (lock : LockType)
    (bytes : List Nat) : Prop :=
  ∀ byte, locks.held process byte = if byte ∈ bytes then some lock else none

def Free (locks : RecordLocks Process) (process : Process) : Prop :=
  ∀ byte, locks.held process byte = none

variable {locks : RecordLocks Process} {process other : Process} {bytes : List Nat}

theorem Owns.held (owns : locks.Owns process .read bytes) {byte : Nat} (inside : byte ∈ bytes) :
    locks.held process byte = some .read := by
  rw [owns, if_pos inside]

theorem Exclusive.not_write (exclusive : locks.Exclusive) (different : other ≠ process)
    {byte : Nat} {lock : LockType} (held : locks.held process byte = some lock) :
    locks.held other byte ≠ some .write := by
  intro written
  rw [exclusive other process byte different.symm written] at held
  cases held

/-- A write lock is not granted on a byte that somebody else has locked. -/
theorem Grants.unlocked (grants : locks.Grants other .write bytes) (different : process ≠ other)
    {byte : Nat} {lock : LockType} (held : locks.held process byte = some lock) :
    byte ∉ bytes := by
  intro member
  have lets := grants byte member process different lock held
  cases lock with
  | read => exact lets
  | write => exact lets

/-- Giving locks up keeps the rest exclusive. -/
theorem Exclusive.of_le {fewer : RecordLocks Process} (exclusive : locks.Exclusive)
    (le : ∀ process byte, fewer.held process byte = none ∨
      fewer.held process byte = locks.held process byte) : fewer.Exclusive := by
  intro writer other byte different written
  have before : locks.held writer byte = some .write := by
    rcases le writer byte with gone | same
    · rw [gone] at written
      cases written
    · rw [← same, written]
  rcases le other byte with gone | same
  · exact gone
  · rw [same]
    exact exclusive writer other byte different before

variable [DecidableEq Process]

theorem held_put_self (locks : RecordLocks Process) (process : Process) (lock : Option LockType)
    (bytes : List Nat) (byte : Nat) : (locks.put process lock bytes).held process byte =
      if byte ∈ bytes then lock else locks.held process byte := by
  simp [put]

theorem held_put_other (different : other ≠ process) (lock : Option LockType) (byte : Nat) :
    (locks.put process lock bytes).held other byte = locks.held other byte := by
  simp [put, different]

theorem held_release_other (different : other ≠ process) (byte : Nat) :
    (locks.release process).held other byte = locks.held other byte := by
  simp [release, different]

theorem Free.put (free : locks.Free process) (lock : LockType) (bytes : List Nat) :
    (locks.put process (some lock) bytes).Owns process lock bytes := by
  intro byte
  rw [held_put_self, free byte]

/-- What changes only the locks of one process leaves those of the others. -/
theorem Owns.put_other {lock : LockType} (owns : locks.Owns process lock bytes)
    (different : process ≠ other) (wanted : Option LockType) (range : List Nat) :
    (locks.put other wanted range).Owns process lock bytes := by
  intro byte
  rw [held_put_other different, owns byte]

theorem Owns.release_other {lock : LockType} (owns : locks.Owns process lock bytes)
    (different : process ≠ other) : (locks.release other).Owns process lock bytes := by
  intro byte
  rw [held_release_other different, owns byte]

theorem Free.put_other (free : locks.Free process) (different : process ≠ other)
    (wanted : Option LockType) (range : List Nat) :
    (locks.put other wanted range).Free process := by
  intro byte
  rw [held_put_other different, free byte]

theorem Free.release_other (free : locks.Free process) (different : process ≠ other) :
    (locks.release other).Free process := by
  intro byte
  rw [held_release_other different, free byte]

theorem Exclusive.put (exclusive : locks.Exclusive) {wanted : LockType}
    (grants : locks.Grants process wanted bytes) :
    (locks.put process (some wanted) bytes).Exclusive := by
  intro writer other byte different written
  by_cases writes : writer = process
  · subst writes
    rw [held_put_other different]
    rw [held_put_self] at written
    by_cases inside : byte ∈ bytes
    · rw [if_pos inside] at written
      obtain rfl := Option.some.inj written
      cases held : locks.held other byte with
      | none => rfl
      | some lock => exact absurd inside (grants.unlocked different held)
    · rw [if_neg inside] at written
      exact exclusive writer other byte different written
  · rw [held_put_other writes] at written
    by_cases own : other = process
    · subst own
      have none := exclusive writer other byte different written
      rw [held_put_self]
      by_cases inside : byte ∈ bytes
      · exact (grants byte inside writer different.symm .write written).elim
      · rw [if_neg inside, none]
    · rw [held_put_other own]
      exact exclusive writer other byte different written

theorem Exclusive.unlock (exclusive : locks.Exclusive) (process : Process) (bytes : List Nat) :
    (locks.put process none bytes).Exclusive := by
  apply exclusive.of_le
  intro other byte
  by_cases changed : other = process ∧ byte ∈ bytes
  · exact .inl (if_pos changed)
  · exact .inr (if_neg changed)

theorem Exclusive.release (exclusive : locks.Exclusive) (process : Process) :
    (locks.release process).Exclusive := by
  apply exclusive.of_le
  intro other byte
  by_cases own : other = process
  · exact .inl (if_pos own)
  · exact .inr (if_neg own)

end RecordLocks

end CBasics.Library
