import CBasics.Library.System
import Mathlib.Algebra.BigOperators.Group.Finset.Basic
import Mathlib.Algebra.BigOperators.Group.Finset.Piecewise
import Mathlib.Algebra.Order.BigOperators.Group.Finset
import Mathlib.Data.Fintype.Basic

/-! Threads that all run one routine over shared memory. A step is one action of
one thread, and every order of the steps is a run. -/

set_option autoImplicit false

namespace CBasics.Library

/-- What every thread does: `ready` says where it is not blocked, and `act` is
its next action on the shared memory and on its own locals. -/
structure Routine (Thread Shared Local Event : Type) where
  start : Local
  ready : Shared → Local → Prop
  act : Thread → Shared → Local → Shared × Local × List Event

@[ext] structure Threads (Thread Shared Local : Type) where
  shared : Shared
  locals : Thread → Local

namespace Threads

variable {Thread Shared Local : Type}

def All (Holds : Local → Prop) (state : Threads Thread Shared Local) : Prop :=
  ∀ thread, Holds (state.locals thread)

instance [Fintype Thread] (Holds : Local → Prop) [DecidablePred Holds]
    (state : Threads Thread Shared Local) : Decidable (state.All Holds) :=
  inferInstanceAs (Decidable (∀ thread, Holds (state.locals thread)))

def AtMostOne (Inside : Local → Prop) (state : Threads Thread Shared Local) : Prop :=
  ∀ first second, Inside (state.locals first) → Inside (state.locals second) → first = second

variable [Fintype Thread]

/-- The sum of what each thread weighs where it stands. -/
def total (weigh : Local → Nat) (state : Threads Thread Shared Local) : Nat :=
  ∑ thread, weigh (state.locals thread)

def count (Holds : Local → Prop) [DecidablePred Holds] (state : Threads Thread Shared Local) :
    Nat :=
  state.total fun loc => if Holds loc then 1 else 0

variable {state : Threads Thread Shared Local}

theorem total_eq_card {weigh : Local → Nat} {weight : Nat}
    (same : ∀ thread, weigh (state.locals thread) = weight) :
    state.total weigh = Fintype.card Thread * weight :=
  Finset.sum_const_nat fun thread _ => same thread

theorem total_eq_zero {weigh : Local → Nat} (none : ∀ thread, weigh (state.locals thread) = 0) :
    state.total weigh = 0 :=
  Finset.sum_eq_zero fun thread _ => none thread

theorem total_le_total {light heavy : Local → Nat} (le : ∀ loc, light loc ≤ heavy loc) :
    state.total light ≤ state.total heavy :=
  Finset.sum_le_sum fun thread _ => le (state.locals thread)

theorem count_eq_zero {Holds : Local → Prop} [DecidablePred Holds]
    (none : state.All fun loc => ¬ Holds loc) : state.count Holds = 0 :=
  total_eq_zero fun thread => by simp [none thread]

theorem count_le_count {Holds Wider : Local → Prop} [DecidablePred Holds] [DecidablePred Wider]
    (wider : ∀ loc, Holds loc → Wider loc) : state.count Holds ≤ state.count Wider := by
  refine total_le_total fun loc => ?_
  by_cases holds : Holds loc
  · simp [holds, wider loc holds]
  · simp [holds]

theorem count_lt_count {Holds Wider : Local → Prop} [DecidablePred Holds] [DecidablePred Wider]
    (wider : ∀ loc, Holds loc → Wider loc) {thread : Thread}
    (outside : ¬ Holds (state.locals thread)) (inside : Wider (state.locals thread)) :
    state.count Holds < state.count Wider := by
  refine Finset.sum_lt_sum (fun other _ => ?_) ⟨thread, Finset.mem_univ thread, ?_⟩
  · by_cases holds : Holds (state.locals other)
    · simp [holds, wider _ holds]
    · simp [holds]
  · simp [outside, inside]

theorem count_lt_card {Holds : Local → Prop} [DecidablePred Holds] {thread : Thread}
    (outside : ¬ Holds (state.locals thread)) : state.count Holds < Fintype.card Thread := by
  have all : state.count (fun _ => True) = Fintype.card Thread := by
    rw [count, total_eq_card fun _ => rfl, if_pos trivial, Nat.mul_one]
  exact all ▸ count_lt_count (fun _ _ => trivial) outside trivial

theorem count_pos {Holds : Local → Prop} [DecidablePred Holds] {thread : Thread}
    (holds : Holds (state.locals thread)) : 0 < state.count Holds := by
  have none : state.count (fun _ => False) = 0 := count_eq_zero fun _ => id
  exact none ▸ count_lt_count (fun _ => False.elim) id holds

end Threads

namespace Routine

variable {Thread Shared Local Event : Type} [DecidableEq Thread]
  (routine : Routine Thread Shared Local Event)

def system (shared : Shared) : System (Threads Thread Shared Local) Thread Event where
  initial state := state = ⟨shared, fun _ => routine.start⟩
  admits state thread := routine.ready state.shared (state.locals thread)
  step state thread :=
    let acted := routine.act thread state.shared (state.locals thread)
    (⟨acted.1, Function.update state.locals thread acted.2.1⟩, acted.2.2)

variable {routine} {shared : Shared} {state : Threads Thread Shared Local} {thread : Thread}

theorem emits_eq :
    (routine.system shared).emits state thread =
      (routine.act thread state.shared (state.locals thread)).2.2 := rfl

@[simp] theorem shared_next :
    ((routine.system shared).next state thread).shared =
      (routine.act thread state.shared (state.locals thread)).1 := rfl

@[simp] theorem locals_next_self :
    ((routine.system shared).next state thread).locals thread =
      (routine.act thread state.shared (state.locals thread)).2.1 := by
  simp [System.next, system]

theorem locals_next_other {other : Thread} (different : other ≠ thread) :
    ((routine.system shared).next state thread).locals other = state.locals other := by
  simp [System.next, system, different]

/-- The other threads stay where they are: what is claimed of every thread is left
to check for the one that acts. -/
theorem forall_locals_next (Holds : Thread → Local → Prop)
    (acting : Holds thread (routine.act thread state.shared (state.locals thread)).2.1)
    (others : ∀ other, other ≠ thread → Holds other (state.locals other)) :
    ∀ other, Holds other (((routine.system shared).next state thread).locals other) := by
  intro other
  by_cases same : other = thread
  · subst other
    rw [locals_next_self]
    exact acting
  · rw [locals_next_other same]
    exact others other same

theorem total_next [Fintype Thread] (weigh : Local → Nat) :
    ((routine.system shared).next state thread).total weigh + weigh (state.locals thread) =
      state.total weigh +
        weigh (routine.act thread state.shared (state.locals thread)).2.1 := by
  have before := Finset.add_sum_erase Finset.univ (fun other => weigh (state.locals other))
    (Finset.mem_univ thread)
  have after := Finset.add_sum_erase Finset.univ
    (fun other => weigh (((routine.system shared).next state thread).locals other))
    (Finset.mem_univ thread)
  have rest : ∑ other ∈ Finset.univ.erase thread,
      weigh (((routine.system shared).next state thread).locals other) =
        ∑ other ∈ Finset.univ.erase thread, weigh (state.locals other) := by
    refine Finset.sum_congr rfl fun other member => ?_
    rw [locals_next_other (Finset.ne_of_mem_erase member)]
  simp only [locals_next_self] at after
  unfold Threads.total
  omega

/-- If an action lowers the weight of its thread, it lowers the total. -/
theorem total_next_lt [Fintype Thread] {weigh : Local → Nat}
    (lower : weigh (routine.act thread state.shared (state.locals thread)).2.1 <
      weigh (state.locals thread)) :
    ((routine.system shared).next state thread).total weigh < state.total weigh := by
  have moved : ((routine.system shared).next state thread).total weigh +
      weigh (state.locals thread) = state.total weigh + _ := total_next weigh
  omega

theorem count_next [Fintype Thread] (Holds : Local → Prop) [DecidablePred Holds] :
    ((routine.system shared).next state thread).count Holds +
        (if Holds (state.locals thread) then 1 else 0) =
      state.count Holds +
        if Holds (routine.act thread state.shared (state.locals thread)).2.1 then 1 else 0 :=
  total_next _

end Routine

end CBasics.Library
