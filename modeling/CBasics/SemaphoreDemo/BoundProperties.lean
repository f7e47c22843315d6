import CBasics.SemaphoreDemo.Basic
import Mathlib.Tactic.IntervalCases

/-! The shared number never leaves its byte: the semaphore bounds the threads
that have shifted it, and the number is determined by how many those are. -/

set_option autoImplicit false

namespace CBasics.SemaphoreDemo

open Library

def shiftedBy (count : Nat) : BitVec 32 := (0b00000111 : BitVec 32) <<< (2 * count)

theorem shiftedBy_le {count : Nat} (few : count ≤ semaphoreInitVal) :
    (shiftedBy count).toInt ≤ 256 := by
  unfold semaphoreInitVal at few
  interval_cases count <;> decide

theorem shiftLeft_shiftedBy (count : Nat) : shiftedBy count <<< 2 = shiftedBy (count + 1) := by
  rw [shiftedBy, shiftedBy, Nat.mul_add, BitVec.shiftLeft_add]

theorem sshiftRight_shiftedBy {count : Nat} (few : count + 1 ≤ semaphoreInitVal) :
    (shiftedBy (count + 1)).sshiftRight 2 = shiftedBy count := by
  unfold semaphoreInitVal at few
  have small : count ≤ 1 := by omega
  interval_cases count <;> decide

variable {threadCount initVal : Nat}

section Step

variable {state : State threadCount} {thread : Fin threadCount} {before after : Local}
  {shared : Shared} {emitted : List (Message (Fin threadCount))}

theorem shared_next (position : state.locals thread = before)
    (acted : threadRoutine thread state.shared before = (shared, after, emitted)) :
    ((unixSemaphores threadCount initVal).next state thread).shared = shared := by
  simp [unixSemaphores, routine, position, acted]

theorem count_next (region : Local → Bool) (position : state.locals thread = before)
    (acted : threadRoutine thread state.shared before = (shared, after, emitted)) :
    ((unixSemaphores threadCount initVal).next state thread).count (region ·) +
        (region before).toNat =
      state.count (region ·) + (region after).toNat := by
  have moved : ((unixSemaphores threadCount initVal).next state thread).count (region ·) +
      (if region (state.locals thread) then 1 else 0) =
        state.count (region ·) +
          if region (threadRoutine thread state.shared (state.locals thread)).2.1 then 1 else 0 :=
    Routine.count_next (region ·)
  rw [position, acted] at moved
  simpa [Bool.toNat, Bool.cond_eq_ite] using moved

/-- The invariant: the number counts the threads between the two shifts, and the
permits that are out count those between `sem_wait` and `sem_post`. -/
structure Bounded (state : State threadCount) : Prop where
  running : state.shared.exited = false
  binary : state.shared.binary = shiftedBy (state.count (·.shifted))
  permits : state.count (·.inside) + state.shared.semaphore = semaphoreInitVal
  safe : state.All (· ≠ .failing)

theorem bounded_initial
    (initial : (unixSemaphores threadCount semaphoreInitVal).initial state) : Bounded state := by
  obtain rfl : state = ⟨⟨0b00000111, semaphoreInitVal, false⟩, fun _ => .waiting⟩ := initial
  have none : ∀ region : Local → Bool, region .waiting = false →
      (⟨⟨0b00000111, semaphoreInitVal, false⟩, fun _ => .waiting⟩ : State threadCount).count
        (region ·) = 0 :=
    fun region outside => Threads.count_eq_zero fun _ => by simp [outside]
  constructor
  case running => rfl
  case binary => rw [none Local.shifted rfl]; rfl
  case permits => rw [none Local.inside rfl, Nat.zero_add]
  case safe => intro thread; simp

theorem Bounded.shifted_le (bounded : Bounded state) :
    state.count (·.shifted) ≤ semaphoreInitVal := by
  have within : state.count (·.shifted) ≤ state.count (·.inside) :=
    Threads.count_le_count fun loc shifted => by cases loc <;> first | rfl | exact shifted
  have permits := bounded.permits
  omega

/-- What is left to check of a step once the two counts are known to move. -/
theorem Bounded.moved (bounded : Bounded state) (position : state.locals thread = before)
    (acted : threadRoutine thread state.shared before = (shared, after, emitted))
    (running : shared.exited = false) (safe : after ≠ .failing)
    (binary : ∀ count, count + before.shifted.toNat =
        state.count (·.shifted) + after.shifted.toNat → shared.binary = shiftedBy count)
    (permits : after.inside.toNat + shared.semaphore =
      before.inside.toNat + state.shared.semaphore) :
    Bounded ((unixSemaphores threadCount semaphoreInitVal).next state thread) := by
  have sharedEq : ((unixSemaphores threadCount semaphoreInitVal).next state thread).shared =
      shared := shared_next position acted
  have moved (region : Local → Bool) := @count_next threadCount semaphoreInitVal state thread
    before after shared emitted region position acted
  have shiftedMoved := moved Local.shifted
  have insideMoved := moved Local.inside
  have permitsBefore := bounded.permits
  constructor
  case running => rw [sharedEq, running]
  case binary => rw [sharedEq, binary _ shiftedMoved]
  case permits =>
    rw [sharedEq]
    omega
  case safe =>
    refine Routine.forall_locals_next (fun _ loc => loc ≠ Local.failing) ?_ fun other _ =>
      bounded.safe other
    rw [position]
    simpa only [routine, acted] using safe

theorem Bounded.step (bounded : Bounded state)
    (admitted : (unixSemaphores threadCount semaphoreInitVal).admits state thread) :
    Bounded ((unixSemaphores threadCount semaphoreInitVal).next state thread) := by
  have isReady : ready state.shared (state.locals thread) := admitted
  have few := bounded.shifted_le
  have running := bounded.running
  have unchanged : ∀ count, count = state.count (·.shifted) →
      state.shared.binary = shiftedBy count := by
    rintro count rfl
    exact bounded.binary
  cases position : state.locals thread with
  | waiting =>
      rw [position] at isReady
      refine bounded.moved position rfl running (by simp) unchanged ?_
      have free := isReady.2
      simp only [Local.inside, Bool.toNat_true, Bool.toNat_false]
      omega
  | shiftingLeft =>
      refine bounded.moved position rfl running (by simp) ?_ rfl
      rintro count rfl
      show state.shared.binary <<< 2 = _
      rw [bounded.binary, shiftLeft_shiftedBy]
      rfl
  | testing =>
      -- The exit is taken only above 256, which no two shifts reach.
      have within : ¬ state.shared.binary.toInt > 256 := by
        rw [bounded.binary, Int.not_lt]
        exact shiftedBy_le few
      refine bounded.moved position (by rw [threadRoutine, if_neg within]) running (by simp)
        ?_ (by rfl)
      intro count same
      exact unchanged count (by simpa [Local.shifted] using same)
  | failing => exact absurd position (bounded.safe thread)
  | shiftingRight =>
      refine bounded.moved position rfl running (by simp) ?_ rfl
      intro count fewer
      have countEq : state.count (·.shifted) = count + 1 := by
        simpa [Local.shifted] using fewer.symm
      show state.shared.binary.sshiftRight 2 = _
      rw [bounded.binary, countEq, sshiftRight_shiftedBy (by omega)]
  | posting =>
      refine bounded.moved position rfl running (by simp) unchanged ?_
      simp only [Local.inside, Bool.toNat_true, Bool.toNat_false]
      omega
  | announcing | sleeping | awaking | leaving | exiting =>
      refine bounded.moved position rfl running (by simp) ?_ rfl
      intro count same
      exact unchanged count (by simpa [Local.shifted] using same)
  | finished =>
      rw [position] at isReady
      exact isReady.elim

end Step

theorem run_bounded {steps : List (State threadCount × Fin threadCount)}
    {state : State threadCount}
    (run : (unixSemaphores threadCount semaphoreInitVal).Run steps state) : Bounded state :=
  run.invariant Bounded (fun _ initial => bounded_initial initial)
    (fun _ _ bounded admitted => bounded.step admitted)

/-- In every state that any number of threads can reach, the number shows how
many have shifted it, the permits add up and no thread has ended the process;
when all have finished both are back at their start. -/
theorem unixSemaphores_bounded {threadCount : Nat}
    {steps : List (State threadCount × Fin threadCount)} {state : State threadCount}
    (run : (unixSemaphores threadCount semaphoreInitVal).Run steps state) :
    state.shared.binary = (7 : BitVec 32) <<< (2 * state.count (·.shifted)) ∧
      state.count (·.inside) + state.shared.semaphore = semaphoreInitVal ∧
      state.shared.exited = false ∧ state.All (· ≠ .failing) ∧
      (state.All (· = .finished) →
        state.shared.binary = 7 ∧ state.shared.semaphore = semaphoreInitVal) := by
  have bounded := run_bounded run
  refine ⟨bounded.binary, bounded.permits, bounded.running, bounded.safe, fun done => ?_⟩
  have noneShifted : state.count (·.shifted) = 0 :=
    Threads.count_eq_zero fun thread => by simp [done thread, Local.shifted]
  have noneInside : state.count (·.inside) = 0 :=
    Threads.count_eq_zero fun thread => by simp [done thread, Local.inside]
  have binary := bounded.binary
  have permits := bounded.permits
  rw [noneShifted] at binary
  rw [noneInside, Nat.zero_add] at permits
  exact ⟨binary, permits⟩

instance (state : State threadCount) (thread : Fin threadCount) :
    Decidable ((unixSemaphores threadCount initVal).admits state thread) :=
  inferInstanceAs (Decidable (ready state.shared (state.locals thread)))

def atWait (threadCount initVal : Nat) : State threadCount :=
  ⟨⟨0b00000111, initVal, false⟩, fun _ => .waiting⟩

/-- Two of three threads are between the two shifts, and the third waits. -/
def twoShifted : List (Fin 3) := [0, 1, 1, 0, 0, 0, 1, 1]

theorem unixSemaphores_bounded_two :
    let state := (unixSemaphores 3 semaphoreInitVal).finish (atWait 3 semaphoreInitVal) twoShifted
    state.shared.binary = 112 ∧ state.shared.exited = false := by
  have bounded := unixSemaphores_bounded
    (.of_admitted rfl (by decide : (unixSemaphores 3 semaphoreInitVal).Admitted
      (atWait 3 semaphoreInitVal) twoShifted))
  exact ⟨bounded.1, bounded.2.2.1⟩

end CBasics.SemaphoreDemo
