import CBasics.SemaphoreDemo.BoundProperties

/-! Two is the most that `SEMAPHORE_INIT_VAL` can be: the test can fail exactly
if three threads are let in. -/

set_option autoImplicit false

namespace CBasics.SemaphoreDemo

open Library

variable {threadCount initVal : Nat}

/-- The same memory, but for a semaphore that started with another value. -/
structure Shifted (initVal : Nat) (shared reference : Shared) : Prop where
  binary : shared.binary = reference.binary
  exited : shared.exited = reference.exited
  permits : shared.semaphore + semaphoreInitVal = reference.semaphore + initVal

theorem Shifted.act {shared reference : Shared} (shifted : Shifted initVal shared reference)
    {Thread : Type} (thread : Thread) {loc : Local} (isReady : ready shared loc)
    (referenceReady : ready reference loc) :
    (threadRoutine thread shared loc).2.1 = (threadRoutine thread reference loc).2.1 ∧
      Shifted initVal (threadRoutine thread shared loc).1
        (threadRoutine thread reference loc).1 := by
  obtain ⟨binary, exited, permits⟩ := shifted
  cases loc with
  | waiting =>
      have free := isReady.2
      have referenceFree := referenceReady.2
      refine ⟨rfl, binary, exited, ?_⟩
      simp only [threadRoutine]
      omega
  | posting =>
      refine ⟨rfl, binary, exited, ?_⟩
      simp only [threadRoutine]
      omega
  | testing =>
      simp only [threadRoutine, binary]
      exact ⟨trivial, binary, exited, permits⟩
  | shiftingLeft | shiftingRight =>
      simp only [threadRoutine, binary]
      exact ⟨trivial, rfl, exited, permits⟩
  | failing => exact ⟨rfl, binary, rfl, permits⟩
  | announcing | sleeping | awaking | leaving | exiting | finished =>
      simp only [threadRoutine]
      exact ⟨trivial, binary, exited, permits⟩

def Follows (initVal : Nat) (state reference : State threadCount) : Prop :=
  state.locals = reference.locals ∧ Shifted initVal state.shared reference.shared

/-- Where there are no more than two permits or no more than two threads, two
permits never make a thread wait that goes on in the other run. -/
theorem Follows.ready (few : initVal ≤ semaphoreInitVal ∨ threadCount ≤ semaphoreInitVal)
    {state reference : State threadCount} (follows : Follows initVal state reference)
    (bounded : Bounded reference) {thread : Fin threadCount}
    (isReady : ready state.shared (state.locals thread)) :
    SemaphoreDemo.ready reference.shared (reference.locals thread) := by
  obtain ⟨locals, -, exited, permits⟩ := follows
  rw [locals] at isReady
  cases position : reference.locals thread with
  | waiting =>
      rw [position] at isReady
      refine ⟨exited ▸ isReady.1, ?_⟩
      have free := isReady.2
      have shared := bounded.permits
      cases few with
      | inl fewPermits => omega
      | inr fewThreads =>
          have outside : ¬ (reference.locals thread).inside = true := by
            rw [position]
            exact Bool.false_ne_true
          have others : reference.count (·.inside) < Fintype.card (Fin threadCount) :=
            Threads.count_lt_card outside
          rw [Fintype.card_fin] at others
          omega
  | finished =>
      rw [position] at isReady
      exact isReady
  | shiftingLeft | announcing | testing | failing | sleeping | awaking | shiftingRight | leaving
  | posting | exiting =>
      rw [position] at isReady
      exact exited.symm.trans isReady

theorem run_follows (few : initVal ≤ semaphoreInitVal ∨ threadCount ≤ semaphoreInitVal)
    {steps : List (State threadCount × Fin threadCount)} {state : State threadCount}
    (run : (unixSemaphores threadCount initVal).Run steps state) :
    ∃ references reference,
      (unixSemaphores threadCount semaphoreInitVal).Run references reference ∧
        Follows initVal state reference := by
  refine run.simulated ?_ ?_
  · rintro _ rfl
    exact ⟨_, rfl, rfl, rfl, rfl, Nat.add_comm _ _⟩
  · intro state thread references reference followed follows admitted
    have granted := follows.ready few (run_bounded followed) admitted
    obtain ⟨locals, shifted⟩ := follows
    have isReady : ready state.shared (reference.locals thread) := locals ▸ admitted
    obtain ⟨position, shared⟩ := shifted.act thread isReady granted
    refine ⟨thread, granted, ?_, ?_⟩
    · funext other
      by_cases same : other = thread
      · subst same
        simp only [unixSemaphores, Routine.locals_next_self, routine, locals, position]
      · simp only [unixSemaphores, Routine.locals_next_other same, locals]
    · simpa only [unixSemaphores, Routine.shared_next, routine, locals] using shared

/-- Three threads shift one after another, and the third tests the number. -/
def overfull (first second third : Fin threadCount) : List (Fin threadCount) :=
  [first, first, second, second, third, third, third, third, third]

theorem overfull_admitted (permits : 3 ≤ initVal) {first second third : Fin threadCount}
    (firstSecond : first ≠ second) (firstThird : first ≠ third) (secondThird : second ≠ third) :
    (unixSemaphores threadCount initVal).Admitted (atWait threadCount initVal)
        (overfull first second third) ∧
      ((unixSemaphores threadCount initVal).finish (atWait threadCount initVal)
        (overfull first second third)).shared.exited = true := by
  have one : 0 < initVal := by omega
  have two : 0 < initVal - 1 := by omega
  have three : 0 < initVal - 1 - 1 := by omega
  have thirdFirst := firstThird.symm
  have thirdSecond := secondThird.symm
  have secondFirst := firstSecond.symm
  simp [overfull, System.Admitted, System.finish, System.next, unixSemaphores, Routine.system,
    routine, ready, threadRoutine, atWait, Function.update, secondFirst, thirdFirst, thirdSecond]
  omega

end CBasics.SemaphoreDemo
