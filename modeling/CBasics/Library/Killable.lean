import CBasics.Library.System

/-! Systems whose process may be killed in the middle of a step. Until it is, it
does what the system does that nothing kills. -/

set_option autoImplicit false

namespace CBasics.Library

section CutShort

variable {Event : Type} {fatal : Event → Option Event} {events : List Event}

/-- The events up to the first in the course of which the process dies; `fatal`
says what has happened of that one by then. -/
def cutShort (fatal : Event → Option Event) : List Event → List Event
  | [] => []
  | event :: rest =>
      match fatal event with
      | none => event :: cutShort fatal rest
      | some begun => [begun]

def Survives (fatal : Event → Option Event) (events : List Event) : Prop :=
  ∀ event ∈ events, fatal event = none

instance : Decidable (Survives fatal events) :=
  inferInstanceAs (Decidable (∀ event ∈ events, fatal event = none))

theorem Survives.cutShort_eq (survives : Survives fatal events) :
    cutShort fatal events = events := by
  induction events with
  | nil => rfl
  | cons event rest ih =>
      rw [cutShort, survives event List.mem_cons_self]
      exact congrArg (event :: ·) (ih fun later member => survives later (.tail _ member))

end CutShort

namespace System

variable {State Input Event Cause : Type} (system : System State Input Event)
  (fatal : Cause → Event → Option Event)

/-- The system in a process that may be killed: the cause that comes with an
input says in which events the process dies. -/
def killable : System (Option State) (Input × Cause) Event where
  initial
    | none => False
    | some state => system.initial state
  admits
    | none, _ => False
    | some state, entry => system.admits state entry.1
  step
    | none, _ => (none, [])
    | some state, entry =>
        (if Survives (fatal entry.2) (system.emits state entry.1) then
            some (system.next state entry.1)
          else none,
          cutShort (fatal entry.2) (system.emits state entry.1))

instance [∀ state input, Decidable (system.admits state input)] :
    (state : Option State) → (entry : Input × Cause) →
      Decidable ((system.killable fatal).admits state entry)
  | none, _ => inferInstanceAs (Decidable False)
  | some state, entry => inferInstanceAs (Decidable (system.admits state entry.1))

/-- The steps without the causes. -/
def lived (steps : List (Option State × Input × Cause)) : List (State × Input) :=
  steps.filterMap fun entry => entry.1.map fun state => (state, entry.2.1)

@[simp] theorem lived_concat (steps : List (Option State × Input × Cause)) (state : State)
    (entry : Input × Cause) :
    lived (steps ++ [(some state, entry)]) = lived steps ++ [(state, entry.1)] := by
  simp [lived]

variable {system fatal}

theorem killable_admits {reached : Option State} {entry : Input × Cause}
    (admitted : (system.killable fatal).admits reached entry) :
    ∃ state, reached = some state ∧ system.admits state entry.1 := by
  cases reached with
  | none => cases admitted
  | some state => exact ⟨state, rfl, admitted⟩

theorem killable_emits (state : State) (entry : Input × Cause) :
    (system.killable fatal).emits (some state) entry =
      cutShort (fatal entry.2) (system.emits state entry.1) := rfl

theorem killable_next_eq_some {state final : State} {entry : Input × Cause} :
    (system.killable fatal).next (some state) entry = some final ↔
      Survives (fatal entry.2) (system.emits state entry.1) ∧
        system.next state entry.1 = final := by
  by_cases survives : Survives (fatal entry.2) (system.emits state entry.1) <;>
    simp [System.next, killable, survives]

/-- While the process lives, its run is one of the system that nothing kills. -/
theorem Run.lived {steps : List (Option State × Input × Cause)} {reached : Option State}
    (run : (system.killable fatal).Run steps reached) {state : State}
    (alive : reached = some state) :
    system.Run (lived steps) state ∧
      (system.killable fatal).trace steps = system.trace (System.lived steps) := by
  induction run generalizing state with
  | start initial =>
      subst alive
      exact ⟨.start initial, rfl⟩
  | @step steps before entry run admitted ih =>
      obtain ⟨current, rfl, granted⟩ := killable_admits admitted
      obtain ⟨survives, rfl⟩ := killable_next_eq_some.mp alive
      obtain ⟨shorter, same⟩ := ih rfl
      rw [lived_concat, trace_concat, trace_concat, same, killable_emits, survives.cutShort_eq]
      exact ⟨shorter.step granted, rfl⟩

theorem Run.lived_of_mem {steps : List (Option State × Input × Cause)} {reached : Option State}
    (run : (system.killable fatal).Run steps reached) {state : State} {entry : Input × Cause}
    (member : (some state, entry) ∈ steps) :
    ∃ earlier, system.Run earlier state ∧ system.admits state entry.1 := by
  obtain ⟨earlier, before, admitted⟩ := run.of_mem member
  exact ⟨System.lived earlier, (before.lived rfl).1, admitted⟩

theorem Run.alive {steps : List (Option State × Input × Cause)} {reached : Option State}
    (run : (system.killable fatal).Run steps reached)
    (spared : ∀ entry ∈ steps, ∀ state ∈ entry.1,
      Survives (fatal entry.2.2) (system.emits state entry.2.1)) :
    ∃ state, reached = some state := by
  cases run with
  | @start reached initial =>
      cases reached with
      | none => cases initial
      | some state => exact ⟨state, rfl⟩
  | @step steps before entry run admitted =>
      obtain ⟨state, rfl, -⟩ := killable_admits admitted
      have survives := spared (some state, entry) (by simp) state rfl
      exact ⟨_, killable_next_eq_some.mpr ⟨survives, rfl⟩⟩

end System

end CBasics.Library
