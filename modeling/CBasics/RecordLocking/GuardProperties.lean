import CBasics.RecordLocking.Basic
import Mathlib.Data.Fintype.Option

/-! The lock of `record_locking` stands from the call that sets it to the end of the
parent, whatever the other processes do: what unlocks the file is not the call that
says so. -/

set_option autoImplicit false

namespace CBasics.RecordLocking

open Library

theorem recordLen_eq : recordLen = 16 := by decide

/-- The bytes from `recordLen` before the end of a file of this size. -/
def lastBytes (size : Nat) : List Nat := List.range' (size - recordLen) recordLen

theorem mem_lastBytes {size byte : Nat} (long : recordLen ≤ size) :
    byte ∈ lastBytes size ↔ size - recordLen ≤ byte ∧ byte < size := by
  rw [lastBytes, List.mem_range'_1, Nat.sub_add_cancel long]

/-- Locks on the last bytes that do not meet were asked for at sizes this far apart. -/
theorem apart_of_disjoint {size tried : Nat} (long : recordLen ≤ size)
    (longTried : recordLen ≤ tried) (disjoint : ∀ byte ∈ lastBytes size, byte ∉ lastBytes tried) :
    tried + recordLen ≤ size ∨ size + recordLen ≤ tried := by
  by_contra near
  rw [recordLen_eq] at near long longTried
  have meets := disjoint (max (size - 16) (tried - 16))
  rw [mem_lastBytes (recordLen_eq ▸ long), mem_lastBytes (recordLen_eq ▸ longTried),
    recordLen_eq] at meets
  omega

theorem parentLock_bytes (type size : Nat) : { parentLock with type := type }.bytes size =
    if size < recordLen then none else some (lastBytes size) := by
  have start : ((size : Int) + -(recordLen : Int)).toNat = size - recordLen := by omega
  by_cases short : size < recordLen
  · rw [Flock.bytes, if_pos (by simp only [parentLock]; omega), if_pos short]
  · rw [Flock.bytes, if_neg (by simp only [parentLock]; omega), if_neg short]
    simp only [parentLock, start, lastBytes]

variable {Process : Type}

section Calls

variable [Fintype Process] [DecidableEq Process] (locks : RecordLocks Process)
  (process : Process) (size : Nat)

/-- `F_SETLK` fails and changes nothing, or the file is long enough and the lock is
granted on its last bytes. -/
theorem fcntl_setlk {type : Nat} {wanted : LockType}
    (kind : type = fRdlck ∧ wanted = .read ∨ type = fWrlck ∧ wanted = .write) :
    fcntl locks process fSetlk { parentLock with type := type } size = (-1, locks) ∨
      recordLen ≤ size ∧ locks.Grants process wanted (lastBytes size) ∧
        fcntl locks process fSetlk { parentLock with type := type } size =
          (0, locks.put process (some wanted) (lastBytes size)) := by
  rw [fcntl, if_pos rfl, setlk, parentLock_bytes]
  by_cases short : size < recordLen
  · rw [if_pos short]
    exact .inl rfl
  · rw [if_neg short]
    have long := Nat.le_of_not_lt short
    by_cases grants : locks.Grants process wanted (lastBytes size)
    · refine .inr ⟨long, grants, ?_⟩
      rcases kind with ⟨rfl, rfl⟩ | ⟨rfl, rfl⟩
      · simp [fRdlck, fUnlck, grants]
      · simp [fRdlck, fWrlck, fUnlck, grants]
    · refine .inl ?_
      rcases kind with ⟨rfl, rfl⟩ | ⟨rfl, rfl⟩
      · simp [fRdlck, fUnlck, grants]
      · simp [fRdlck, fWrlck, fUnlck, grants]

/-- The number of `F_UNLCK` is that of a command which has nothing to do with locks. -/
theorem fcntl_unlck (lock : Flock) : fcntl locks process fUnlck lock size = (0, locks) := rfl

end Calls

/-- The lock is not set yet. -/
def Parent.Early : Parent → Prop
  | .opening | .writing | .locking => True
  | _ => False

/-- The lock is set and the parent has not ended. -/
def Parent.Guards : Parent → Prop
  | .forking | .waiting | .unlocking | .leaving => True
  | _ => False

theorem Parent.Early.not_guards {parent : Parent} (early : parent.Early) : ¬ parent.Guards := by
  cases parent with
  | opening | writing | locking => exact id
  | forking | waiting | unlocking | leaving | exited => exact early.elim

variable {pids : Pids Process} {contents : List Byte}

/-- No lock has been granted to the parent or the child. -/
def Ungranted (events : List Event) : Prop :=
  ∀ size, .locked size ∉ events ∧ .tried size true ∉ events

/-- Since it was set the lock has been where the size of the file put it. -/
structure Invariant (pids : Pids Process) (events : List Event) (state : State Process) :
    Prop where
  exclusive : state.locks.Exclusive
  early : state.parent.Early → Ungranted events ∧ state.locks.Free pids.parent ∧
    state.child = .absent
  guards : state.parent.Guards → ∃ size, .locked size ∈ events
  owns : ∀ size, .locked size ∈ events → recordLen ≤ size ∧
    (state.parent.Guards → state.locks.Owns pids.parent .read (lastBytes size))
  awaited : state.child.ready → state.parent = .waiting
  born : state.parent = .waiting → state.child ≠ .absent
  apart : ∀ size tried, .locked size ∈ events → .tried tried true ∈ events →
    tried + recordLen ≤ size ∨ size + recordLen ≤ tried
  claimed : state.parent = .leaving → .said (ascii "file unlocked") ∈ events

section Steps

variable {events : List Event} {state : State Process}

/-- What is printed or denied says nothing about locks. -/
theorem Invariant.append (invariant : Invariant pids events state) {more : List Event}
    (quiet : ∀ event ∈ more, (∃ text, event = .said text) ∨ (∃ index, event = .terminated index) ∨
      ∃ size, event = .tried size false) :
    Invariant pids (events ++ more) state := by
  have locked : ∀ size, .locked size ∈ events ++ more → .locked size ∈ events := by
    intro size member
    rcases List.mem_append.mp member with before | new
    · exact before
    · rcases quiet _ new with ⟨_, same⟩ | ⟨_, same⟩ | ⟨_, same⟩ <;> cases same
  have granted : ∀ size, .tried size true ∈ events ++ more → .tried size true ∈ events := by
    intro size member
    rcases List.mem_append.mp member with before | new
    · exact before
    · rcases quiet _ new with ⟨_, same⟩ | ⟨_, same⟩ | ⟨_, same⟩ <;> cases same
  exact {
    exclusive := invariant.exclusive
    early := fun early =>
      have ⟨ungranted, rest⟩ := invariant.early early
      ⟨fun size => ⟨fun member => (ungranted size).1 (locked size member),
        fun member => (ungranted size).2 (granted size member)⟩, rest⟩
    guards := fun guards => (invariant.guards guards).imp fun _ => List.mem_append_left more
    owns := fun size member => invariant.owns size (locked size member)
    awaited := invariant.awaited
    born := invariant.born
    apart := fun size tried member grant =>
      invariant.apart size tried (locked size member) (granted tried grant)
    claimed := fun leaving => List.mem_append_left more (invariant.claimed leaving) }

/-- Other processes may change their own locks, and anybody the file. -/
theorem Invariant.relock (invariant : Invariant pids events state) {locks : RecordLocks Process}
    (exclusive : locks.Exclusive)
    (owns : ∀ bytes, state.locks.Owns pids.parent .read bytes →
      locks.Owns pids.parent .read bytes)
    (free : state.locks.Free pids.parent → locks.Free pids.parent) (file : List Byte) :
    Invariant pids events { state with locks := locks, file := file } where
  exclusive := exclusive
  early := fun early =>
    have ⟨ungranted, nothing, absent⟩ := invariant.early early
    ⟨ungranted, free nothing, absent⟩
  guards := invariant.guards
  owns := fun size member =>
    have ⟨long, held⟩ := invariant.owns size member
    ⟨long, fun guards => owns _ (held guards)⟩
  awaited := invariant.awaited
  born := invariant.born
  apart := invariant.apart
  claimed := invariant.claimed

/-- While its parent waits the child goes on. -/
theorem Invariant.childMoves (invariant : Invariant pids events state)
    (waiting : state.parent = .waiting) (child : Child) (alive : child ≠ .absent) :
    Invariant pids events { state with child := child } where
  exclusive := invariant.exclusive
  early := fun early => by
    rw [waiting] at early
    exact early.elim
  guards := invariant.guards
  owns := invariant.owns
  awaited := fun _ => waiting
  born := fun _ => alive
  apart := invariant.apart
  claimed := invariant.claimed

/-- Nothing is locked by the calls before the lock. -/
theorem Invariant.earlyMoves (invariant : Invariant pids events state)
    (early : state.parent.Early) (parent : Parent) (next : parent.Early) :
    Invariant pids events { state with parent := parent } := by
  obtain ⟨ungranted, free, absent⟩ := invariant.early early
  exact {
    exclusive := invariant.exclusive
    early := fun _ => ⟨ungranted, free, absent⟩
    guards := fun guards => (next.not_guards guards).elim
    owns := fun size member => ((ungranted size).1 member).elim
    awaited := fun ready => by
      rw [absent] at ready
      exact ready.elim
    born := fun waiting => by
      subst waiting
      exact next.elim
    apart := invariant.apart
    claimed := fun leaving => by
      subst leaving
      exact next.elim }

/-- Between the lock and the end of the parent its calls leave the locks alone. -/
theorem Invariant.guardMoves (invariant : Invariant pids events state)
    (guards : state.parent.Guards) (parent : Parent) (next : parent.Guards) (child : Child)
    (awaited : child.ready → parent = .waiting) (born : parent = .waiting → child ≠ .absent)
    (claimed : parent = .leaving → .said (ascii "file unlocked") ∈ events) :
    Invariant pids events { state with parent := parent, child := child } where
  exclusive := invariant.exclusive
  early := fun early => (early.not_guards next).elim
  guards := fun _ => invariant.guards guards
  owns := fun size member =>
    have ⟨long, held⟩ := invariant.owns size member
    ⟨long, fun _ => held guards⟩
  awaited := awaited
  born := born
  apart := invariant.apart
  claimed := claimed

variable [DecidableEq Process]

theorem Invariant.release_child (invariant : Invariant pids events state) :
    Invariant pids events { state with locks := state.locks.release pids.child } :=
  invariant.relock (invariant.exclusive.release pids.child)
    (fun _ owns => owns.release_other pids.different)
    (fun free => free.release_other pids.different) state.file

/-- The child gets its lock only where its parent has none. -/
theorem Invariant.grant_child (invariant : Invariant pids events state)
    (waiting : state.parent = .waiting) (long : recordLen ≤ state.file.length)
    (grants : state.locks.Grants pids.child .write (lastBytes state.file.length)) :
    Invariant pids (events ++ [.tried state.file.length true])
      { state with
        locks := state.locks.put pids.child (some .write) (lastBytes state.file.length) } := by
  have relocked := invariant.relock (invariant.exclusive.put grants)
    (fun _ owns => owns.put_other pids.different _ _)
    (fun free => free.put_other pids.different _ _) state.file
  have guarding : state.parent.Guards := by
    rw [waiting]
    trivial
  refine {
    exclusive := relocked.exclusive
    early := ?early
    guards := fun guards => (relocked.guards guards).imp fun _ => List.mem_append_left _
    owns := fun size member => relocked.owns size (by simpa using member)
    awaited := relocked.awaited
    born := relocked.born
    apart := ?apart
    claimed := fun leaving => List.mem_append_left _ (relocked.claimed leaving) }
  case early =>
    intro early
    exact (early.not_guards guarding).elim
  case apart =>
    intro size tried locked granted
    have before : .locked size ∈ events := by simpa using locked
    rcases List.mem_append.mp granted with earlier | now
    · exact invariant.apart size tried before earlier
    · obtain ⟨rfl, -⟩ := Event.tried.inj (List.mem_singleton.mp now)
      obtain ⟨longLocked, held⟩ := invariant.owns size before
      exact apart_of_disjoint longLocked long fun byte inside =>
        grants.unlocked pids.different ((held guarding).held inside)

theorem Invariant.leaveParent (invariant : Invariant pids events state)
    (calling : state.parent ≠ .waiting) (status : Nat) :
    Invariant pids events (state.leaveParent pids status) where
  exclusive := invariant.exclusive.release pids.parent
  early := nofun
  guards := nofun
  owns := fun size member => ⟨(invariant.owns size member).1, nofun⟩
  awaited := fun ready => (calling (invariant.awaited ready)).elim
  born := nofun
  apart := invariant.apart
  claimed := nofun

/-- The parent gets its lock: from here on it is guarding. -/
theorem Invariant.grant_parent (invariant : Invariant pids events state)
    (early : state.parent.Early) (long : recordLen ≤ state.file.length)
    (grants : state.locks.Grants pids.parent .read (lastBytes state.file.length)) :
    Invariant pids (events ++ [.locked state.file.length, .said (ascii "File locked\n")])
      { state with
        locks := state.locks.put pids.parent (some .read) (lastBytes state.file.length)
        parent := .forking } := by
  obtain ⟨ungranted, free, absent⟩ := invariant.early early
  have sized : ∀ size,
      .locked size ∈ events ++ [.locked state.file.length, .said (ascii "File locked\n")] →
        size = state.file.length := by
    intro size member
    rcases List.mem_append.mp member with before | now
    · exact ((ungranted size).1 before).elim
    · simpa using now
  refine {
    exclusive := invariant.exclusive.put grants
    early := nofun
    guards := fun _ => ⟨state.file.length, by simp⟩
    owns := ?owns
    awaited := ?awaited
    born := nofun
    apart := ?apart
    claimed := nofun }
  case owns =>
    intro size member
    obtain rfl := sized size member
    exact ⟨long, fun _ => free.put .read _⟩
  case awaited =>
    intro ready
    rw [absent] at ready
    exact ready.elim
  case apart =>
    intro size tried _ granted
    have before : .tried tried true ∈ events := by simpa using granted
    exact ((ungranted tried).2 before).elim

variable [Fintype Process]

theorem Invariant.otherCall (invariant : Invariant pids events state) {process : Process}
    (other : process ≠ pids.parent) (act : Act) :
    Invariant pids events (RecordLocking.otherCall state process act) := by
  cases act with
  | lock type bytes =>
      by_cases grants : state.locks.Grants process type bytes
      · simp only [RecordLocking.otherCall, if_pos grants]
        exact invariant.relock (invariant.exclusive.put grants)
          (fun _ owns => owns.put_other other.symm _ _)
          (fun free => free.put_other other.symm _ _) _
      · simpa only [RecordLocking.otherCall, if_neg grants] using invariant
  | unlock bytes =>
      exact invariant.relock (invariant.exclusive.unlock process bytes)
        (fun _ owns => owns.put_other other.symm _ _)
        (fun free => free.put_other other.symm _ _) _
  | close =>
      exact invariant.relock (invariant.exclusive.release process)
        (fun _ owns => owns.release_other other.symm) (fun free => free.release_other other.symm) _
  | write file =>
      exact invariant.relock invariant.exclusive (fun _ owns => owns) (fun free => free) file

theorem Invariant.childCall (invariant : Invariant pids events state)
    (ready : state.child.ready) (succeeds : Bool) :
    Invariant pids (events ++ (RecordLocking.childCall pids contents state succeeds).2)
      (RecordLocking.childCall pids contents state succeeds).1 := by
  have waiting := invariant.awaited ready
  obtain ⟨locks, file, parent, child⟩ := state
  cases child with
  | absent => exact ready.elim
  | closing =>
      have moved := invariant.release_child.childMoves waiting .opening nofun
      exact moved.append (by simp [RecordLocking.childCall])
  | opening =>
      have moved := invariant.childMoves waiting (.reading succeeds) nofun
      exact moved.append (by simp [RecordLocking.childCall])
  | reading opened =>
      cases opened with
      | false =>
          have moved := invariant.childMoves waiting (.locking false) nofun
          exact moved.append (by simp [RecordLocking.childCall])
      | true =>
          have alive : (if file.take 1024 = [] then Child.leaving 1 else .locking true) ≠
              .absent := by
            split <;> exact nofun
          exact (invariant.childMoves waiting _ alive).append (by simp [RecordLocking.childCall])
  | locking opened =>
      cases opened with
      | false =>
          have moved := invariant.childMoves waiting (.leaving 1) nofun
          exact moved.append (by simp [RecordLocking.childCall])
      | true =>
          have answer := fcntl_setlk locks pids.child file.length (.inr ⟨rfl, rfl⟩)
          rcases answer with denied | ⟨long, grants, granted⟩
          · simp only [RecordLocking.childCall, denied]
            have moved := invariant.childMoves waiting (.leaving 1) nofun
            exact moved.append (by simp)
          · simp only [RecordLocking.childCall, granted]
            exact (invariant.grant_child waiting long grants).childMoves waiting _ nofun
  | leaving status =>
      have moved := invariant.release_child.childMoves waiting (.exited status) nofun
      exact moved.append (by simp [RecordLocking.childCall])
  | exited => exact ready.elim

theorem Invariant.parentCall (invariant : Invariant pids events state)
    (ready : state.parent.ready state.child) (succeeds : Bool) :
    Invariant pids (events ++ (RecordLocking.parentCall pids state succeeds).2)
      (RecordLocking.parentCall pids state succeeds).1 := by
  obtain ⟨locks, file, parent, child⟩ := state
  cases parent with
  | opening =>
      cases succeeds with
      | false => exact (invariant.leaveParent nofun 1).append (by simp [RecordLocking.parentCall])
      | true =>
          have truncated := invariant.relock invariant.exclusive (fun _ owns => owns) id []
          have moved := truncated.earlyMoves trivial .writing trivial
          exact moved.append (by simp [RecordLocking.parentCall])
  | writing =>
      have written := invariant.relock invariant.exclusive (fun _ owns => owns) id
        (buf ++ file.drop buf.length)
      exact (written.earlyMoves trivial .locking trivial).append
        (by simp [RecordLocking.parentCall])
  | locking =>
      have answer := fcntl_setlk locks pids.parent file.length (.inl ⟨rfl, rfl⟩)
      rcases answer with denied | ⟨long, grants, granted⟩
      · have failed : fcntl locks pids.parent fSetlk parentLock file.length = (-1, locks) := denied
        simp only [RecordLocking.parentCall, failed]
        exact (invariant.leaveParent nofun 1).append (by simp)
      · have done : fcntl locks pids.parent fSetlk parentLock file.length =
            (0, locks.put pids.parent (some .read) (lastBytes file.length)) := granted
        simp only [RecordLocking.parentCall, done]
        exact invariant.grant_parent trivial long grants
  | forking =>
      cases succeeds with
      | false => exact (invariant.leaveParent nofun 1).append (by simp [RecordLocking.parentCall])
      | true =>
          have moved := invariant.guardMoves trivial .waiting trivial .closing (fun _ => rfl)
            nofun nofun
          exact moved.append (by simp [RecordLocking.parentCall])
  | waiting =>
      have calm : ¬ child.ready := by
        cases child with
        | exited => exact id
        | absent | closing | opening | reading | locking | leaving => exact ready.elim
      have moved := invariant.guardMoves trivial .unlocking trivial child
        (fun active => (calm active).elim) nofun nofun
      exact moved.append (by simp [RecordLocking.parentCall])
  | unlocking =>
      simp only [RecordLocking.parentCall, fcntl_unlck]
      have calm : ¬ child.ready := fun active => nomatch invariant.awaited active
      exact (invariant.append (by simp)).guardMoves trivial .leaving trivial child
        (fun active => (calm active).elim) nofun
        fun _ => List.mem_append_right _ List.mem_cons_self
  | leaving => exact (invariant.leaveParent nofun 0).append (by simp [RecordLocking.parentCall])
  | exited => exact ready.elim

end Steps

section Runs

variable [Fintype Process] [DecidableEq Process]
  {steps : List (State Process × Move Process)} {state : State Process}

theorem run_invariant (run : (recordLocking pids contents).Run steps state) :
    Invariant pids ((recordLocking pids contents).trace steps) state := by
  apply run.traceInvariant (Invariant pids)
  case start =>
    rintro state ⟨exclusive, free, -, early, absent⟩
    exact {
      exclusive := exclusive
      early := fun _ => ⟨fun _ => ⟨nofun, nofun⟩, free, absent⟩
      guards := fun guards => by
        rw [early] at guards
        exact guards.elim
      owns := nofun
      awaited := fun ready => by
        rw [absent] at ready
        exact ready.elim
      born := fun waiting => by
        rw [early] at waiting
        cases waiting
      apart := nofun
      claimed := fun leaving => by
        rw [early] at leaving
        cases leaving }
  case keep =>
    intro events _ state move _ invariant admitted
    cases move with
    | parent succeeds => exact invariant.parentCall admitted succeeds
    | child succeeds => exact invariant.childCall admitted succeeds
    | other process act => exact (invariant.otherCall admitted.1 act).append nofun

theorem Invariant.goesOn {events : List Event} (invariant : Invariant pids events state) :
    (∃ status, state.parent = .exited status) ∨
      (recordLocking pids contents).admits state (.parent true) ∨
        (recordLocking pids contents).admits state (.child true) := by
  have born := invariant.born
  obtain ⟨locks, file, parent, child⟩ := state
  cases parent with
  | exited status => exact .inl ⟨status, rfl⟩
  | waiting =>
      cases child with
      | absent => exact absurd rfl (born rfl)
      | exited => exact .inr (.inl trivial)
      | closing | opening | reading | locking | leaving => exact .inr (.inr trivial)
  | opening | writing | locking | forking | unlocking | leaving => exact .inr (.inl trivial)

theorem Parent.early_or_guards {parent : Parent} (running : ∀ status, parent ≠ .exited status) :
    parent.Early ∨ parent.Guards := by
  cases parent with
  | opening | writing | locking => exact .inl trivial
  | forking | waiting | unlocking | leaving => exact .inr trivial
  | exited status => exact absurd rfl (running status)

end Runs

variable [Fintype Process] [DecidableEq Process]

/-- In every run, whatever other processes lock, unlock and write, and whether or not the
child can open the file: no two processes have
locks that conflict; the parent has its read lock, which keeps every writer out, until it
exits, also when it has already said that the file is unlocked; the child gets its write
lock only where the size of the file has changed by the length of a record; and neither
of them is ever stuck. -/
theorem recordLocking_guards {steps : List (State Process × Move Process)} {state : State Process}
    (run : (recordLocking pids contents).Run steps state) :
    state.locks.Exclusive ∧
      (∀ size, .locked size ∈ (recordLocking pids contents).trace steps →
        (∀ status, state.parent ≠ .exited status) →
          state.locks.Owns pids.parent .read (lastBytes size) ∧
            ∀ byte ∈ lastBytes size, ∀ process, state.locks.held process byte ≠ some .write) ∧
      (state.parent = .leaving →
        .said (ascii "file unlocked") ∈ (recordLocking pids contents).trace steps ∧
          ∃ size, .locked size ∈ (recordLocking pids contents).trace steps) ∧
      (∀ size tried, .locked size ∈ (recordLocking pids contents).trace steps →
        .tried tried true ∈ (recordLocking pids contents).trace steps →
          tried + recordLen ≤ size ∨ size + recordLen ≤ tried) ∧
      ((∃ status, state.parent = .exited status) ∨
        (recordLocking pids contents).admits state (.parent true) ∨
          (recordLocking pids contents).admits state (.child true)) := by
  have invariant := run_invariant run
  refine ⟨invariant.exclusive, ?_, ?_, invariant.apart, invariant.goesOn⟩
  · intro size locked running
    have guards : state.parent.Guards := by
      rcases Parent.early_or_guards running with early | guards
      · exact (((invariant.early early).1 size).1 locked).elim
      · exact guards
    have owns := (invariant.owns size locked).2 guards
    refine ⟨owns, fun byte inside process written => ?_⟩
    by_cases own : process = pids.parent
    · rw [own, owns.held inside] at written
      cases written
    · exact invariant.exclusive.not_write own (owns.held inside) written
  · intro leaving
    have guards : state.parent.Guards := by
      rw [leaving]
      trivial
    exact ⟨invariant.claimed leaving, invariant.guards guards⟩

/-- Another process shares a byte of the lock; the child is denied. -/
def contested (other : Process) : List (Move Process) :=
  [.parent true, .parent true, .parent true, .other other (.lock .read [60]), .parent true,
    .child true, .child true, .child true, .child true, .child true, .parent true, .parent true]

def unlockedStart : State Process := ⟨⟨fun _ _ => none⟩, [], .opening, .absent⟩

theorem unlockedStart_initial (pids : Pids Process) (contents : List Byte) :
    (recordLocking pids contents).initial unlockedStart :=
  ⟨nofun, fun _ => rfl, fun _ => rfl, rfl, rfl⟩

def threePids : Pids (Option Bool) := ⟨none, some false, nofun⟩

set_option maxRecDepth 4000 in
theorem contested_run : (recordLocking threePids []).Run
    ((recordLocking threePids []).follow unlockedStart (contested (some true)))
    ((recordLocking threePids []).finish unlockedStart (contested (some true))) :=
  .of_admitted (unlockedStart_initial threePids []) (by decide)

set_option maxRecDepth 4000 in
theorem recordLocking_guards_contested :
    .said (ascii "file unlocked") ∈ (recordLocking threePids []).trace
        ((recordLocking threePids []).follow unlockedStart (contested (some true))) ∧
      ∃ size, .locked size ∈ (recordLocking threePids []).trace
        ((recordLocking threePids []).follow unlockedStart (contested (some true))) :=
  (recordLocking_guards contested_run).2.2.1 (by decide)

end CBasics.RecordLocking
