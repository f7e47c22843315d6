import CBasics.Library.Monitor
import CBasics.SpinLockDemo.Basic

/-! The number is zero whenever the lock is free and never above one, so no thread ends
the process, and every thread gets through the locked region once. -/

set_option autoImplicit false

namespace CBasics.SpinLockDemo

open Library

/-- The number, and the value loaded of it, while a thread with these locals holds the
lock. -/
def Counts {Thread : Type} (loc : Local) (shared : Shared Thread) : Prop :=
  match loc with
  | .loadingDown => shared.cannotGoOver2 = 1
  | .storingUp loaded => shared.cannotGoOver2 = 0 ∧ loaded = 0
  | .storingDown loaded => shared.cannotGoOver2 = 1 ∧ loaded = 1
  | _ => shared.cannotGoOver2 = 0

def Unused {Thread : Type} (shared : Shared Thread) : Prop := shared.cannotGoOver2 = 0

theorem spinLocks_monitor (Thread : Type) :
    Monitor (routine Thread) Shared.spinlock Local.Inside Unused Counts where
  start := id
  enter := by
    intro thread shared loc isReady outside inside
    cases loc with
    | locking => exact ⟨isReady.2, rfl, id⟩
    | testing | testingAgain =>
        simp only [routine, pthreadFunctionExample] at inside
        split at inside <;> exact inside.elim
    | announcing | loadingUp | storingUp | loadingDown | storingDown | unlocking =>
        exact absurd trivial outside
    | telling | failing | exiting | finished => exact inside.elim
  stay := by
    intro thread shared loc inside after counts
    cases loc with
    | announcing => exact ⟨rfl, counts⟩
    | loadingUp => exact ⟨rfl, counts, counts⟩
    | storingUp loaded => exact ⟨rfl, by rw [counts.2]; rfl⟩
    | loadingDown => exact ⟨rfl, counts, counts⟩
    | storingDown loaded => exact ⟨rfl, by rw [counts.2]; rfl⟩
    | unlocking => exact after.elim
    | testing | locking | testingAgain | telling | failing | exiting | finished =>
        exact inside.elim
  leave := by
    intro thread shared loc inside after counts
    cases loc with
    | unlocking => exact ⟨rfl, counts⟩
    | announcing | loadingUp | storingUp | loadingDown | storingDown =>
        exact absurd trivial after
    | testing | locking | testingAgain | telling | failing | exiting | finished =>
        exact inside.elim
  away := by
    intro thread shared loc outside after
    cases loc with
    | locking => exact absurd trivial after
    | announcing | loadingUp | storingUp | loadingDown | storingDown | unlocking =>
        exact absurd trivial outside
    | testing | testingAgain | telling | failing | exiting | finished =>
        exact ⟨rfl, id, fun other counts => by cases other <;> exact counts⟩

def Message.thread {Thread : Type} : Message Thread → Thread
  | .acquired thread => thread
  | .released thread => thread

variable {threadCount : Nat}

def saidBy (thread : Fin threadCount) (messages : List (Message (Fin threadCount))) :
    List (Message (Fin threadCount)) :=
  messages.filter fun message => message.thread = thread

/-- What a thread has written when it stands here. -/
def Local.spoken (thread : Fin threadCount) : Local → List (Message (Fin threadCount))
  | .testing => []
  | .locking => []
  | .announcing => []
  | .exiting => [.acquired thread, .released thread]
  | .finished => [.acquired thread, .released thread]
  | _ => [.acquired thread]

/-- The invariant. -/
structure Guarded (messages : List (Message (Fin threadCount))) (state : State threadCount) :
    Prop where
  monitored : Monitored Shared.spinlock Local.Inside Unused Counts state
  running : state.shared.exited = false
  safe : state.All (· ≠ .failing)
  spoken : ∀ thread, saidBy thread messages = (state.locals thread).spoken thread

section Steps

variable {messages : List (Message (Fin threadCount))} {state : State threadCount}
  {thread : Fin threadCount}

/-- The number is zero or one, whoever asks. -/
theorem Guarded.small (guarded : Guarded messages state) : state.shared.cannotGoOver2 ≤ 1 := by
  cases holder : state.shared.spinlock with
  | none =>
      have zero : state.shared.cannotGoOver2 = 0 := guarded.monitored.free holder
      rw [zero]
      decide
  | some thread =>
      have counts := guarded.monitored.held thread ((guarded.monitored.owner thread).mp holder)
      have value : state.shared.cannotGoOver2 = 0 ∨ state.shared.cannotGoOver2 = 1 := by
        unfold Counts at counts
        split at counts
        · exact .inr counts
        · exact .inl counts.1
        · exact .inr counts.1
        · exact .inl counts
      rcases value with value | value <;> rw [value] <;> decide

theorem Guarded.not_above (guarded : Guarded messages state) :
    ¬ state.shared.cannotGoOver2 > 2 := by
  have small := guarded.small
  rw [UInt8.le_iff_toNat_le] at small
  rw [gt_iff_lt, UInt8.lt_iff_toNat_lt]
  exact Nat.not_lt_of_le (Nat.le_trans small (by decide))

theorem saidBy_append (left right : List (Message (Fin threadCount))) :
    saidBy thread (left ++ right) = saidBy thread left ++ saidBy thread right :=
  List.filter_append ..

theorem guarded_initial (initial : (spinLocks threadCount).initial state) : Guarded [] state := by
  have unused : Unused (⟨0, none, false⟩ : Shared (Fin threadCount)) := rfl
  have monitored := (spinLocks_monitor (Fin threadCount)).initial rfl unused initial
  obtain rfl : state = ⟨⟨0, none, false⟩, fun _ => .testing⟩ := initial
  exact ⟨monitored, rfl, fun _ => nofun, fun _ => rfl⟩

/-- What is left to check of a step is the acting thread. -/
theorem Guarded.moved (guarded : Guarded messages state) {before after : Local}
    {shared : Shared (Fin threadCount)} {emitted : List (Message (Fin threadCount))}
    (admitted : (spinLocks threadCount).admits state thread)
    (position : state.locals thread = before)
    (acted : pthreadFunctionExample thread state.shared before = (shared, after, emitted))
    (running : shared.exited = false) (safe : after ≠ .failing)
    (spoken : before.spoken thread ++ saidBy thread emitted = after.spoken thread)
    (own : ∀ other, other ≠ thread → saidBy other emitted = []) :
    Guarded (messages ++ (spinLocks threadCount).emits state thread)
      ((spinLocks threadCount).next state thread) := by
  have action : (routine (Fin threadCount)).act thread state.shared (state.locals thread) =
      (shared, after, emitted) := by
    rw [position]
    exact acted
  have emits : (spinLocks threadCount).emits state thread = emitted := by
    rw [spinLocks, Routine.emits_eq, action]
  have shared_next : ((spinLocks threadCount).next state thread).shared = shared := by
    rw [spinLocks, Routine.shared_next, action]
  constructor
  case monitored => exact .step (spinLocks_monitor _) guarded.monitored admitted
  case running => rw [shared_next, running]
  case safe =>
    refine Routine.forall_locals_next (fun (_ : Fin threadCount) (loc : Local) => loc ≠ .failing)
      ?_ fun other _ => guarded.safe other
    rw [action]
    exact safe
  case spoken =>
    rw [emits]
    refine Routine.forall_locals_next
      (fun (other : Fin threadCount) (loc : Local) =>
        saidBy other (messages ++ emitted) = loc.spoken other) ?_ ?_
    · rw [action, saidBy_append, guarded.spoken thread, position]
      exact spoken
    · intro other different
      rw [saidBy_append, own other different, List.append_nil]
      exact guarded.spoken other

theorem saidBy_other {message : Message (Fin threadCount)} (different : message.thread ≠ thread) :
    saidBy thread [message] = [] := by
  simp [saidBy, different]

theorem saidBy_self {message : Message (Fin threadCount)} (same : message.thread = thread) :
    saidBy thread [message] = [message] := by
  simp [saidBy, same]

theorem Guarded.step (guarded : Guarded messages state)
    (admitted : (spinLocks threadCount).admits state thread) :
    Guarded (messages ++ (spinLocks threadCount).emits state thread)
      ((spinLocks threadCount).next state thread) := by
  have isReady : ready state.shared (state.locals thread) := admitted
  have running := guarded.running
  have low := guarded.not_above
  have silent : ∀ other, other ≠ thread → saidBy other [] = [] := fun _ _ => rfl
  cases position : state.locals thread with
  | testing =>
      have acted : pthreadFunctionExample thread state.shared .testing =
          (state.shared, .locking, []) := by
        rw [pthreadFunctionExample, if_neg low]
      exact guarded.moved admitted position acted running nofun rfl silent
  | testingAgain =>
      have acted : pthreadFunctionExample thread state.shared .testingAgain =
          (state.shared, .telling, []) := by
        rw [pthreadFunctionExample, if_neg low]
      exact guarded.moved admitted position acted running nofun rfl silent
  | announcing =>
      exact guarded.moved admitted position rfl running nofun (saidBy_self rfl)
        fun other different => saidBy_other different.symm
  | telling =>
      refine guarded.moved admitted position rfl running nofun ?_ fun other different =>
        saidBy_other different.symm
      have own : saidBy thread [.released thread] = [.released thread] := saidBy_self rfl
      rw [own]
      rfl
  | failing => exact absurd position (guarded.safe thread)
  | finished =>
      rw [position] at isReady
      exact isReady.elim
  | locking | loadingUp | storingUp | loadingDown | storingDown | unlocking | exiting =>
      exact guarded.moved admitted position rfl running nofun rfl silent

end Steps

def Local.work : Local → Nat
  | .testing => 11
  | .locking => 10
  | .announcing => 9
  | .loadingUp => 8
  | .storingUp _ => 7
  | .loadingDown => 6
  | .storingDown _ => 5
  | .unlocking => 4
  | .testingAgain => 3
  | .telling => 2
  | .failing => 1
  | .exiting => 1
  | .finished => 0

theorem work_act {thread : Fin threadCount} {shared : Shared (Fin threadCount)} {loc : Local}
    (isReady : ready shared loc) :
    (pthreadFunctionExample thread shared loc).2.1.work < loc.work := by
  cases loc with
  | testing | testingAgain =>
      unfold pthreadFunctionExample
      dsimp only
      split <;> simp [Local.work]
  | finished => exact isReady.elim
  | locking | announcing | loadingUp | storingUp | loadingDown | storingDown | unlocking
  | telling | failing | exiting => simp [pthreadFunctionExample, Local.work]

theorem run_guarded {steps : List (State threadCount × Fin threadCount)}
    {state : State threadCount} (run : (spinLocks threadCount).Run steps state) :
    Guarded ((spinLocks threadCount).trace steps) state :=
  run.traceInvariant Guarded (fun _ initial => guarded_initial initial)
    fun _ _ _ _ _ guarded admitted => guarded.step admitted

theorem Guarded.goesOn {messages : List (Message (Fin threadCount))} {state : State threadCount}
    (guarded : Guarded messages state) :
    state.All (· = .finished) ∨ ∃ thread, (spinLocks threadCount).admits state thread := by
  have running := guarded.running
  cases holder : state.shared.spinlock with
  | some thread =>
      have inside := (guarded.monitored.owner thread).mp holder
      refine .inr ⟨thread, ?_⟩
      show ready state.shared (state.locals thread)
      cases position : state.locals thread with
      | announcing | loadingUp | storingUp | loadingDown | storingDown | unlocking => exact running
      | testing | locking | testingAgain | telling | failing | exiting | finished =>
          rw [position] at inside
          exact inside.elim
  | none =>
      by_cases done : state.All (· = .finished)
      · exact .inl done
      · obtain ⟨thread, unfinished⟩ := not_forall.mp done
        refine .inr ⟨thread, ?_⟩
        show ready state.shared (state.locals thread)
        cases position : state.locals thread with
        | finished => exact absurd position unfinished
        | locking => exact ⟨running, holder⟩
        | testing | announcing | loadingUp | storingUp | loadingDown | storingDown | unlocking
        | testingAgain | telling | failing | exiting => exact running

theorem spinLocks_ranked (threadCount : Nat) :
    (spinLocks threadCount).Ranked (fun state => state.All (· = .finished))
      fun state => state.total Local.work where
  falls := fun _ _ _ _ admitted => Routine.total_next_lt (work_act admitted)
  goesOn := fun _ _ run => (run_guarded run).goesOn

/-- For any number of threads and any order of their actions: at most one thread is in
the locked region, the number is zero or one, zero while the lock is free, and no thread
ends the process; the run cannot stop before all threads have finished, and each has then
reported once that it had the lock and once that it gave it back. -/
theorem spinLocks_exclude {threadCount : Nat}
    {steps : List (State threadCount × Fin threadCount)} {state : State threadCount}
    (run : (spinLocks threadCount).Run steps state) :
    state.AtMostOne Local.Inside ∧ state.shared.cannotGoOver2 ≤ 1 ∧
      (state.shared.spinlock = none → state.shared.cannotGoOver2 = 0) ∧
      state.shared.exited = false ∧ steps.length ≤ threadCount * 11 ∧
      (state.All (· = .finished) ∨ ∃ thread, (spinLocks threadCount).admits state thread) ∧
      (state.All (· = .finished) → ∀ thread, saidBy thread ((spinLocks threadCount).trace steps) =
        [.acquired thread, .released thread]) := by
  have guarded := run_guarded run
  have begins : ∀ state, (spinLocks threadCount).initial state →
      state.total Local.work ≤ threadCount * 11 := by
    rintro _ rfl
    rw [Threads.total_eq_card fun _ => rfl, Fintype.card_fin]
  obtain ⟨bound, goesOn⟩ := (spinLocks_ranked threadCount).ends begins run
  refine ⟨guarded.monitored.atMostOne, guarded.small, guarded.monitored.free, guarded.running,
    bound, goesOn, ?_⟩
  intro done thread
  rw [guarded.spoken thread, done thread]
  rfl

instance (state : State threadCount) (thread : Fin threadCount) :
    Decidable ((spinLocks threadCount).admits state thread) :=
  inferInstanceAs (Decidable (ready state.shared (state.locals thread)))

/-- Both threads pass the first test, then one is inside while the other waits. -/
def contended (holder waiter : Fin threadCount) : List (Fin threadCount) :=
  [holder, waiter, holder, holder, holder, holder]

theorem spinLocks_exclude_contended :
    ((spinLocks 2).finish ⟨⟨0, none, false⟩, fun _ => .testing⟩ (contended 0 1)).AtMostOne
      Local.Inside :=
  (spinLocks_exclude (.of_admitted rfl (by decide))).1

end CBasics.SpinLockDemo
