import CBasics.SemaphoreDemo.BoundProperties

/-! The demonstration comes to its end whatever the order of the threads, and
what each of them prints shows how many others were let in beside it. -/

set_option autoImplicit false

namespace CBasics.SemaphoreDemo

open Library

def Message.thread? {Thread : Type} : Message Thread → Option Thread
  | .sleepy _ thread => some thread
  | .awoken thread => some thread
  | .destroyed _ thread => some thread
  | .outOfBounds => none

variable {threadCount : Nat}

def saidBy (thread : Fin threadCount) (messages : List (Message (Fin threadCount))) :
    List (Message (Fin threadCount)) :=
  messages.filter fun message => message.thread? = some thread

/-- What a thread has printed when it stands here; `high` and `low` are the
numbers it has seen after the one shift and after the other. -/
def Local.spoken (thread : Fin threadCount) (high low : Int) :
    Local → List (Message (Fin threadCount))
  | .waiting => []
  | .shiftingLeft => []
  | .announcing => []
  | .shiftingRight => [.sleepy high thread, .awoken thread]
  | .leaving => [.sleepy high thread, .awoken thread]
  | .posting => [.sleepy high thread, .awoken thread, .destroyed low thread]
  | .exiting => [.sleepy high thread, .awoken thread, .destroyed low thread]
  | .finished => [.sleepy high thread, .awoken thread, .destroyed low thread]
  | _ => [.sleepy high thread]

/-- One or two threads have shifted the number when it is announced, at most one
when it is shifted back. -/
def Spoken (thread : Fin threadCount) (loc : Local) (messages : List (Message (Fin threadCount))) :
    Prop :=
  ∃ high low : Int, (high = 28 ∨ high = 112) ∧ (low = 7 ∨ low = 28) ∧
    messages = loc.spoken thread high low

section Steps

variable {messages : List (Message (Fin threadCount))} {state : State threadCount}
  {thread : Fin threadCount}

theorem Bounded.high (bounded : Bounded state) (position : state.locals thread = .announcing) :
    state.shared.binary.toInt = 28 ∨ state.shared.binary.toInt = 112 := by
  have isShifted : (state.locals thread).shifted = true := by rw [position]; rfl
  have some : 0 < state.count (·.shifted) := Threads.count_pos isShifted
  have few : state.count (·.shifted) ≤ 2 := bounded.shifted_le
  rw [bounded.binary]
  generalize state.count (·.shifted) = count at some few
  interval_cases count
  · exact .inl (by decide)
  · exact .inr (by decide)

theorem Bounded.low (bounded : Bounded state) (position : state.locals thread = .leaving) :
    state.shared.binary.toInt = 7 ∨ state.shared.binary.toInt = 28 := by
  have notShifted : ¬ (state.locals thread).shifted = true := by rw [position]; simp [Local.shifted]
  have isInside : (state.locals thread).inside = true := by rw [position]; rfl
  have fewer : state.count (·.shifted) < state.count (·.inside) :=
    Threads.count_lt_count (fun loc shifted => by cases loc <;> first | rfl | exact shifted)
      notShifted isInside
  have permits : state.count (·.inside) + state.shared.semaphore = 2 := bounded.permits
  have few : state.count (·.shifted) ≤ 1 := by omega
  rw [bounded.binary]
  generalize state.count (·.shifted) = count at few
  interval_cases count
  · exact .inl (by decide)
  · exact .inr (by decide)

theorem saidBy_append (left right : List (Message (Fin threadCount))) :
    saidBy thread (left ++ right) = saidBy thread left ++ saidBy thread right :=
  List.filter_append ..

/-- Nobody prints in another's name. -/
theorem saidBy_emits_other {other : Fin threadCount} (different : other ≠ thread) :
    saidBy other ((unixSemaphores threadCount semaphoreInitVal).emits state thread) = [] := by
  show saidBy other (threadRoutine thread state.shared (state.locals thread)).2.2 = []
  cases state.locals thread <;>
    simp [threadRoutine, saidBy, Message.thread?, different.symm]

theorem saidBy_self {message : Message (Fin threadCount)}
    (own : message.thread? = some thread) : saidBy thread [message] = [message] := by
  simp [saidBy, own]

theorem Spoken.act (bounded : Bounded state)
    (spoken : Spoken thread (state.locals thread) (saidBy thread messages)) :
    Spoken thread (threadRoutine thread state.shared (state.locals thread)).2.1
      (saidBy thread messages ++
        saidBy thread (threadRoutine thread state.shared (state.locals thread)).2.2) := by
  obtain ⟨high, low, isHigh, isLow, said⟩ := spoken
  rw [said]
  cases position : state.locals thread with
  | announcing =>
      refine ⟨state.shared.binary.toInt, low, bounded.high position, isLow, ?_⟩
      simp only [threadRoutine]
      rw [saidBy_self rfl]
      rfl
  | leaving =>
      refine ⟨high, state.shared.binary.toInt, isHigh, bounded.low position, ?_⟩
      simp only [threadRoutine]
      rw [saidBy_self rfl]
      rfl
  | awaking =>
      refine ⟨high, low, isHigh, isLow, ?_⟩
      simp only [threadRoutine]
      rw [saidBy_self rfl]
      rfl
  | testing =>
      refine ⟨high, low, isHigh, isLow, ?_⟩
      simp only [threadRoutine]
      split <;> rfl
  | failing => exact absurd position (bounded.safe thread)
  | waiting | shiftingLeft | sleeping | shiftingRight | posting | exiting | finished =>
      exact ⟨high, low, isHigh, isLow, rfl⟩

end Steps

theorem run_spoken {steps : List (State threadCount × Fin threadCount)}
    {state : State threadCount}
    (run : (unixSemaphores threadCount semaphoreInitVal).Run steps state)
    (thread : Fin threadCount) :
    Spoken thread (state.locals thread)
      (saidBy thread ((unixSemaphores threadCount semaphoreInitVal).trace steps)) := by
  refine run.traceInvariant (fun messages state =>
    Spoken thread (state.locals thread) (saidBy thread messages)) ?_ ?_
  · rintro _ rfl
    exact ⟨28, 7, .inl rfl, .inl rfl, rfl⟩
  · intro messages steps state acting run spoken admitted
    rw [saidBy_append]
    by_cases own : thread = acting
    · subst own
      have moved : ((unixSemaphores threadCount semaphoreInitVal).next state thread).locals thread =
          (threadRoutine thread state.shared (state.locals thread)).2.1 := Routine.locals_next_self
      rw [moved]
      exact spoken.act (run_bounded run)
    · rw [saidBy_emits_other own, List.append_nil]
      simpa only [unixSemaphores, Routine.locals_next_other own] using spoken

/-- What a thread still has to do. -/
def Local.work : Local → Nat
  | .waiting => 10
  | .shiftingLeft => 9
  | .announcing => 8
  | .testing => 7
  | .sleeping => 6
  | .awaking => 5
  | .shiftingRight => 4
  | .leaving => 3
  | .posting => 2
  | .exiting => 1
  | .failing => 1
  | .finished => 0

theorem work_act {thread : Fin threadCount} {shared : Shared} {loc : Local}
    (isReady : ready shared loc) : (threadRoutine thread shared loc).2.1.work < loc.work := by
  cases loc with
  | testing =>
      unfold threadRoutine
      dsimp only
      split <;> simp [Local.work]
  | finished => exact isReady.elim
  | waiting | shiftingLeft | announcing | failing | sleeping | awaking | shiftingRight | leaving
  | posting | exiting => simp [threadRoutine, Local.work]

theorem Bounded.goesOn {state : State threadCount} (bounded : Bounded state) :
    state.All (· = .finished) ∨
      ∃ thread, (unixSemaphores threadCount semaphoreInitVal).admits state thread := by
  have running := bounded.running
  by_cases idle : state.All fun loc => loc = .waiting ∨ loc = .finished
  · by_cases done : state.All (· = .finished)
    · exact .inl done
    · obtain ⟨thread, unfinished⟩ := not_forall.mp done
      have waiting := (idle thread).resolve_right unfinished
      have nobody : state.count (·.inside) = 0 := by
        refine Threads.count_eq_zero fun other => ?_
        rcases idle other with position | position <;> simp [position, Local.inside]
      have permits : state.count (·.inside) + state.shared.semaphore = 2 := bounded.permits
      refine .inr ⟨thread, ?_⟩
      show ready state.shared (state.locals thread)
      rw [waiting]
      exact ⟨running, by omega⟩
  · obtain ⟨thread, busy⟩ := not_forall.mp idle
    refine .inr ⟨thread, ?_⟩
    show ready state.shared (state.locals thread)
    cases position : state.locals thread with
    | waiting => exact absurd (.inl position) busy
    | finished => exact absurd (.inr position) busy
    | shiftingLeft | announcing | testing | failing | sleeping | awaking | shiftingRight | leaving
    | posting | exiting => exact running

theorem unixSemaphores_ranked (threadCount : Nat) :
    (unixSemaphores threadCount semaphoreInitVal).Ranked (fun state => state.All (· = .finished))
      fun state => state.total Local.work where
  falls := fun _ _ _ _ admitted => Routine.total_next_lt (work_act admitted)
  goesOn := fun _ _ run => (run_bounded run).goesOn

/-- Both have shifted the number before the first announces it. -/
def bothInside (first second : Fin threadCount) : List (Fin threadCount) :=
  [first, second, second, first, first, first, second, second] ++
    List.replicate 6 first ++ List.replicate 6 second

end CBasics.SemaphoreDemo
