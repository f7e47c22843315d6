import CBasics.Library.Interleaving

/-! Data that a lock protects. If every thread keeps to the lock, then what is claimed
of the data while the lock is free and while a thread holds it can be checked one
action at a time, with no regard to the other threads. -/

set_option autoImplicit false

namespace CBasics.Library

variable {Thread Shared Local Event : Type}

/-- The actions of a routine, sorted by whether they take the lock, give it back, go on
inside or stay outside. `Free` is claimed of the data while nobody holds the lock,
`Held` while a thread with these locals does. -/
structure Monitor (routine : Routine Thread Shared Local Event) (holder : Shared → Option Thread)
    (Inside : Local → Prop) (Free : Shared → Prop) (Held : Local → Shared → Prop) : Prop where
  start : ¬ Inside routine.start
  enter : ∀ thread shared loc, routine.ready shared loc → ¬ Inside loc →
    Inside (routine.act thread shared loc).2.1 →
    holder shared = none ∧ holder (routine.act thread shared loc).1 = some thread ∧
      (Free shared → Held (routine.act thread shared loc).2.1 (routine.act thread shared loc).1)
  stay : ∀ thread shared loc, Inside loc → Inside (routine.act thread shared loc).2.1 →
    Held loc shared →
    holder (routine.act thread shared loc).1 = holder shared ∧
      Held (routine.act thread shared loc).2.1 (routine.act thread shared loc).1
  leave : ∀ thread shared loc, Inside loc → ¬ Inside (routine.act thread shared loc).2.1 →
    Held loc shared →
    holder (routine.act thread shared loc).1 = none ∧ Free (routine.act thread shared loc).1
  away : ∀ thread shared loc, ¬ Inside loc → ¬ Inside (routine.act thread shared loc).2.1 →
    holder (routine.act thread shared loc).1 = holder shared ∧
      (Free shared → Free (routine.act thread shared loc).1) ∧
      ∀ other, Held other shared → Held other (routine.act thread shared loc).1

/-- The holder is the one thread inside, and the data is as claimed. -/
structure Monitored (holder : Shared → Option Thread) (Inside : Local → Prop)
    (Free : Shared → Prop) (Held : Local → Shared → Prop) (state : Threads Thread Shared Local) :
    Prop where
  owner : ∀ thread, holder state.shared = some thread ↔ Inside (state.locals thread)
  free : holder state.shared = none → Free state.shared
  held : ∀ thread, Inside (state.locals thread) → Held (state.locals thread) state.shared

variable {routine : Routine Thread Shared Local Event} {holder : Shared → Option Thread}
  {Inside : Local → Prop} {Free : Shared → Prop} {Held : Local → Shared → Prop}
  {state : Threads Thread Shared Local} {thread : Thread}

theorem Monitored.atMostOne (monitored : Monitored holder Inside Free Held state) :
    state.AtMostOne Inside := by
  intro first second insideFirst insideSecond
  have ownsFirst := (monitored.owner first).mpr insideFirst
  have ownsSecond := (monitored.owner second).mpr insideSecond
  exact Option.some.inj (ownsFirst.symm.trans ownsSecond)

theorem Monitored.others_outside (monitored : Monitored holder Inside Free Held state)
    (inside : Inside (state.locals thread)) {other : Thread} (different : other ≠ thread) :
    ¬ Inside (state.locals other) :=
  fun within => different (monitored.atMostOne other thread within inside)

theorem Monitored.all_outside (monitored : Monitored holder Inside Free Held state)
    (free : holder state.shared = none) (thread : Thread) : ¬ Inside (state.locals thread) := by
  intro inside
  have owns := (monitored.owner thread).mpr inside
  rw [free] at owns
  cases owns

section Steps

variable [DecidableEq Thread] {shared : Shared}

theorem Monitor.initial (monitor : Monitor routine holder Inside Free Held)
    (unlocked : holder shared = none) (free : Free shared)
    (begins : (routine.system shared).initial state) :
    Monitored holder Inside Free Held state := by
  obtain rfl : state = ⟨shared, fun _ => routine.start⟩ := begins
  refine ⟨fun thread => iff_of_false ?_ monitor.start, fun _ => free, fun thread inside => ?_⟩
  · rw [unlocked]
    exact nofun
  · exact absurd inside monitor.start

theorem Monitored.step (monitor : Monitor routine holder Inside Free Held)
    (monitored : Monitored holder Inside Free Held state)
    (admitted : (routine.system shared).admits state thread) :
    Monitored holder Inside Free Held ((routine.system shared).next state thread) := by
  by_cases inside : Inside (state.locals thread)
  · have held := monitored.held thread inside
    have owns := (monitored.owner thread).mpr inside
    have outside : ∀ other, other ≠ thread → ¬ Inside (state.locals other) :=
      fun other different => monitored.others_outside inside different
    by_cases after : Inside (routine.act thread state.shared (state.locals thread)).2.1
    · obtain ⟨same, heldAfter⟩ := monitor.stay _ _ _ inside after held
      constructor
      case owner =>
        rw [Routine.shared_next, same, owns]
        refine Routine.forall_locals_next (fun other loc => some thread = some other ↔ Inside loc)
          (iff_of_true rfl after) fun other different => ?_
        exact iff_of_false (fun mine => different (Option.some.inj mine).symm)
          (outside other different)
      case free =>
        rw [Routine.shared_next, same, owns]
        exact nofun
      case held =>
        rw [Routine.shared_next]
        exact Routine.forall_locals_next (fun _ loc => Inside loc → Held loc _)
          (fun _ => heldAfter) fun other different within =>
            absurd within (outside other different)
    · obtain ⟨released, free⟩ := monitor.leave _ _ _ inside after held
      constructor
      case owner =>
        rw [Routine.shared_next, released]
        exact Routine.forall_locals_next (fun other loc => none = some other ↔ Inside loc)
          (iff_of_false nofun after) fun other different =>
            iff_of_false nofun (outside other different)
      case free =>
        rw [Routine.shared_next]
        exact fun _ => free
      case held =>
        rw [Routine.shared_next]
        exact Routine.forall_locals_next (fun _ loc => Inside loc → Held loc _)
          (fun within => absurd within after) fun other different within =>
            absurd within (outside other different)
  · by_cases after : Inside (routine.act thread state.shared (state.locals thread)).2.1
    · obtain ⟨unlocked, taken, held⟩ := monitor.enter _ _ _ admitted inside after
      have outside := monitored.all_outside unlocked
      constructor
      case owner =>
        rw [Routine.shared_next, taken]
        refine Routine.forall_locals_next (fun other loc => some thread = some other ↔ Inside loc)
          (iff_of_true rfl after) fun other different => ?_
        exact iff_of_false (fun mine => different (Option.some.inj mine).symm) (outside other)
      case free =>
        rw [Routine.shared_next, taken]
        exact nofun
      case held =>
        rw [Routine.shared_next]
        exact Routine.forall_locals_next (fun _ loc => Inside loc → Held loc _)
          (fun _ => held (monitored.free unlocked)) fun other _ within =>
            absurd within (outside other)
    · obtain ⟨same, free, held⟩ := monitor.away _ _ _ inside after
      constructor
      case owner =>
        rw [Routine.shared_next, same]
        refine Routine.forall_locals_next
          (fun other loc => holder state.shared = some other ↔ Inside loc) ?_ fun other _ =>
            monitored.owner other
        exact iff_of_false (fun owns => inside ((monitored.owner thread).mp owns)) after
      case free =>
        rw [Routine.shared_next, same]
        exact fun unlocked => free (monitored.free unlocked)
      case held =>
        rw [Routine.shared_next]
        exact Routine.forall_locals_next (fun _ loc => Inside loc → Held loc _)
          (fun within => absurd within after) fun other _ within =>
            held _ (monitored.held other within)

end Steps

end CBasics.Library
