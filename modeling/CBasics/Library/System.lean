import Mathlib.Data.List.Basic

/-! Programs driven by the answers of their environment. A run is a finite
sequence of steps from an initial state; invariants and the events emitted on
the way are both followed by one induction on runs. -/

set_option autoImplicit false

namespace CBasics.Library

/-- A program whose next state and visible events are a function of its state
and of what the environment answers. `admits` says which answers the
environment may give in a state. -/
structure System (State Input Event : Type) where
  initial : State → Prop
  admits : State → Input → Prop
  step : State → Input → State × List Event

namespace System

variable {State Input Event : Type} (system : System State Input Event)

def next (state : State) (input : Input) : State := (system.step state input).1

def emits (state : State) (input : Input) : List Event := (system.step state input).2

/-- The events of a sequence of steps, oldest first. -/
def trace (steps : List (State × Input)) : List Event :=
  steps.flatMap fun entry => system.emits entry.1 entry.2

@[simp] theorem trace_nil : system.trace [] = [] := rfl

@[simp] theorem trace_append (left right : List (State × Input)) :
    system.trace (left ++ right) = system.trace left ++ system.trace right := by
  simp [trace]

@[simp] theorem trace_cons (entry : State × Input) (rest : List (State × Input)) :
    system.trace (entry :: rest) = system.emits entry.1 entry.2 ++ system.trace rest := by
  simp [trace]

theorem trace_concat (steps : List (State × Input)) (entry : State × Input) :
    system.trace (steps ++ [entry]) = system.trace steps ++ system.emits entry.1 entry.2 := by
  rw [trace_append, trace_cons, trace_nil, List.append_nil]

/-- Finite runs: the steps taken, each with the state it was taken in and the
answer it got, and the state reached. -/
inductive Run : List (State × Input) → State → Prop where
  | start {state : State} : system.initial state → Run [] state
  | step {steps : List (State × Input)} {state : State} {input : Input} :
      Run steps state → system.admits state input →
      Run (steps ++ [(state, input)]) (system.next state input)

def Admitted : State → List Input → Prop
  | _, [] => True
  | state, input :: rest => system.admits state input ∧ Admitted (system.next state input) rest

def follow : State → List Input → List (State × Input)
  | _, [] => []
  | state, input :: rest => (state, input) :: follow (system.next state input) rest

def finish (state : State) (inputs : List Input) : State := inputs.foldl system.next state

@[simp] theorem finish_nil (state : State) : system.finish state [] = state := rfl

@[simp] theorem finish_cons (state : State) (input : Input) (rest : List Input) :
    system.finish state (input :: rest) = system.finish (system.next state input) rest := rfl

@[simp] theorem follow_nil (state : State) : system.follow state [] = [] := rfl

@[simp] theorem follow_cons (state : State) (input : Input) (rest : List Input) :
    system.follow state (input :: rest) =
      (state, input) :: system.follow (system.next state input) rest := rfl

theorem finish_append (state : State) (left right : List Input) :
    system.finish state (left ++ right) = system.finish (system.finish state left) right :=
  List.foldl_append

theorem follow_append (state : State) (left right : List Input) :
    system.follow state (left ++ right) =
      system.follow state left ++ system.follow (system.finish state left) right := by
  induction left generalizing state with
  | nil => rfl
  | cons input left ih => simp [ih]

instance instDecidableAdmitted [∀ state input, Decidable (system.admits state input)] :
    (state : State) → (inputs : List Input) → Decidable (system.Admitted state inputs)
  | _, [] => inferInstanceAs (Decidable True)
  | state, input :: rest =>
      have := instDecidableAdmitted (system.next state input) rest
      inferInstanceAs (Decidable (system.admits state input ∧ system.Admitted _ rest))

variable {system}

theorem Run.extend {steps : List (State × Input)} {state : State}
    (run : system.Run steps state) {inputs : List Input}
    (admitted : system.Admitted state inputs) :
    system.Run (steps ++ system.follow state inputs) (system.finish state inputs) := by
  induction inputs generalizing steps state with
  | nil => simpa using run
  | cons input rest ih =>
      have further := ih (.step run admitted.1) admitted.2
      simpa [List.append_assoc] using further

theorem Run.of_admitted {state : State} (initial : system.initial state) {inputs : List Input}
    (admitted : system.Admitted state inputs) :
    system.Run (system.follow state inputs) (system.finish state inputs) :=
  (Run.start initial).extend admitted

/-- Every step of a run was taken in a state that a shorter run reaches. -/
theorem Run.of_mem {steps : List (State × Input)} {final : State}
    (run : system.Run steps final) {state : State} {input : Input}
    (member : (state, input) ∈ steps) :
    ∃ earlier, system.Run earlier state ∧ system.admits state input := by
  induction run with
  | start => simp at member
  | @step steps current answer run admitted ih =>
      cases List.mem_append.mp member with
      | inl earlier => exact ih earlier
      | inr last =>
          obtain ⟨rfl, rfl⟩ : state = current ∧ input = answer := by simpa using last
          exact ⟨steps, run, admitted⟩

theorem Run.split {before after : List (State × Input)} {state final : State} {input : Input}
    (run : system.Run (before ++ (state, input) :: after) final) :
    system.Run before state ∧ system.admits state input := by
  generalize stepsEq : before ++ (state, input) :: after = steps at run
  induction run generalizing after with
  | start => simp at stepsEq
  | @step steps current answer run admitted ih =>
      rcases List.eq_nil_or_concat after with rfl | ⟨middle, last, rfl⟩
      · obtain ⟨rfl, same⟩ := List.append_inj' stepsEq rfl
        obtain ⟨rfl, rfl⟩ : state = current ∧ input = answer := by simpa using same
        exact ⟨run, admitted⟩
      · rw [List.concat_eq_append, ← List.cons_append, ← List.append_assoc] at stepsEq
        exact ih (List.append_inj_left' stepsEq rfl)

theorem Run.invariant (Invariant : State → Prop)
    (start : ∀ state, system.initial state → Invariant state)
    (keep : ∀ state input, Invariant state → system.admits state input →
      Invariant (system.next state input))
    {steps : List (State × Input)} {state : State} (run : system.Run steps state) :
    Invariant state := by
  induction run with
  | start initial => exact start _ initial
  | step _ admitted ih => exact keep _ _ ih admitted

theorem Run.traceInvariant (Invariant : List Event → State → Prop)
    (start : ∀ state, system.initial state → Invariant [] state)
    (keep : ∀ events steps state input, system.Run steps state → Invariant events state →
      system.admits state input →
      Invariant (events ++ system.emits state input) (system.next state input))
    {steps : List (State × Input)} {state : State} (run : system.Run steps state) :
    Invariant (system.trace steps) state := by
  induction run with
  | start initial => exact start _ initial
  | step run admitted ih =>
      simpa using keep _ _ _ _ run ih admitted

/-- An event of a run was emitted by one of its steps: what precedes it is the
trace of a shorter run and the step's own earlier events. -/
theorem Run.split_event {steps : List (State × Input)} {final : State}
    (run : system.Run steps final) {before after : List Event} {event : Event}
    (split : system.trace steps = before ++ event :: after) :
    ∃ earlier state input left right, system.Run earlier state ∧ system.admits state input ∧
      (state, input) ∈ steps ∧ system.emits state input = left ++ event :: right ∧
      before = system.trace earlier ++ left := by
  induction run generalizing after with
  | start => simp at split
  | @step steps state input run admitted ih =>
      have joined : system.trace steps ++ system.emits state input = before ++ event :: after := by
        simpa using split
      rcases List.append_eq_append_iff.mp joined with
        ⟨left, beforeEq, emitted⟩ | ⟨middle, traceEq, rest⟩
      · exact ⟨steps, state, input, left, after, run, admitted, by simp, emitted, beforeEq⟩
      · cases middle with
        | nil =>
            have emitted : system.emits state input = event :: after := by simpa using rest.symm
            exact ⟨steps, state, input, [], after, run, admitted, by simp, emitted,
              by simpa using traceEq.symm⟩
        | cons head middle =>
            obtain ⟨rfl, -⟩ : event = head ∧ after = middle ++ system.emits state input := by
              simpa using rest
            obtain ⟨earlier, origin, answer, left, right, shorter, granted, member, emitted,
              prior⟩ := ih traceEq
            exact ⟨earlier, origin, answer, left, right, shorter, granted, by simp [member],
              emitted, prior⟩

/-- Where no step emits more than one event, an event is all that its step emits. -/
theorem Run.split_single (single : ∀ state input, (system.emits state input).length ≤ 1)
    {steps : List (State × Input)} {final : State} (run : system.Run steps final)
    {before after : List Event} {event : Event}
    (split : system.trace steps = before ++ event :: after) :
    ∃ earlier state input, system.Run earlier state ∧ system.admits state input ∧
      system.emits state input = [event] ∧ before = system.trace earlier := by
  obtain ⟨earlier, state, input, left, right, shorter, admitted, -, emitted, rfl⟩ :=
    run.split_event split
  have short := single state input
  rw [emitted, List.length_append, List.length_cons] at short
  obtain rfl : left = [] := List.length_eq_zero_iff.mp (by omega)
  obtain rfl : right = [] := List.length_eq_zero_iff.mp (by omega)
  exact ⟨earlier, state, input, shorter, admitted, emitted, List.append_nil _⟩

/-- A system that can follow every step of another follows its runs. -/
theorem Run.simulated {Image Reply Sign : Type} {other : System Image Reply Sign}
    {Related : State → Image → Prop}
    (start : ∀ state, system.initial state → ∃ image, other.initial image ∧ Related state image)
    (keep : ∀ state input images image, other.Run images image → Related state image →
      system.admits state input → ∃ reply, other.admits image reply ∧
        Related (system.next state input) (other.next image reply))
    {steps : List (State × Input)} {state : State} (run : system.Run steps state) :
    ∃ images image, other.Run images image ∧ Related state image := by
  induction run with
  | start initial =>
      obtain ⟨image, begins, related⟩ := start _ initial
      exact ⟨[], image, .start begins, related⟩
  | step _ admitted ih =>
      obtain ⟨images, image, followed, related⟩ := ih
      obtain ⟨reply, granted, further⟩ := keep _ _ images image followed related admitted
      exact ⟨_, _, .step followed granted, further⟩

/-- Every step lowers the rank, and a run can go on until it has finished. -/
structure Ranked (system : System State Input Event) (Finished : State → Prop)
    (rank : State → Nat) : Prop where
  falls : ∀ steps state input, system.Run steps state → system.admits state input →
    rank (system.next state input) < rank state
  goesOn : ∀ steps state, system.Run steps state →
    Finished state ∨ ∃ input, system.admits state input

section Ranked

variable {Finished : State → Prop} {rank : State → Nat}

theorem Ranked.length_add_le (ranked : system.Ranked Finished rank) {bound : Nat}
    (start : ∀ state, system.initial state → rank state ≤ bound)
    {steps : List (State × Input)} {state : State} (run : system.Run steps state) :
    steps.length + rank state ≤ bound := by
  induction run with
  | start initial =>
      rw [List.length_nil, Nat.zero_add]
      exact start _ initial
  | step run admitted ih =>
      have falls := ranked.falls _ _ _ run admitted
      rw [List.length_append, List.length_singleton]
      omega

/-- No run is longer than the rank allows, and none stops before it has finished. -/
theorem Ranked.ends (ranked : system.Ranked Finished rank) {bound : Nat}
    (start : ∀ state, system.initial state → rank state ≤ bound)
    {steps : List (State × Input)} {state : State} (run : system.Run steps state) :
    steps.length ≤ bound ∧ (Finished state ∨ ∃ input, system.admits state input) :=
  ⟨Nat.le_of_add_right_le (ranked.length_add_le start run), ranked.goesOn steps state run⟩

end Ranked

end System

section Since

variable {Event : Type} {start : Event} {Stops : Event → Prop} {events : List Event}

/-- The event has happened, and nothing that stops it has since. -/
def Since (start : Event) (Stops : Event → Prop) (events : List Event) : Prop :=
  ∃ before after, events = before ++ start :: after ∧ ∀ event ∈ after, ¬ Stops event

theorem since_append_singleton : Since start Stops (events ++ [start]) :=
  ⟨events, [], rfl, by simp⟩

theorem Since.append (since : Since start Stops events) {more : List Event}
    (calm : ∀ event ∈ more, ¬ Stops event) : Since start Stops (events ++ more) := by
  obtain ⟨before, after, rfl, quiet⟩ := since
  refine ⟨before, after ++ more, by simp, ?_⟩
  intro event member
  cases List.mem_append.mp member with
  | inl earlier => exact quiet event earlier
  | inr later => exact calm event later

theorem Since.of_append {more : List Event} (since : Since start Stops (events ++ more))
    (absent : start ∉ more) : Since start Stops events ∧ ∀ event ∈ more, ¬ Stops event := by
  obtain ⟨before, after, split, quiet⟩ := since
  rcases List.append_eq_append_iff.mp split with ⟨middle, -, rest⟩ | ⟨middle, front, rest⟩
  · refine (absent ?_).elim
    rw [rest]
    exact List.mem_append_right _ List.mem_cons_self
  · cases middle with
    | nil =>
        refine (absent ?_).elim
        rw [← List.nil_append more, ← rest]
        exact List.mem_cons_self
    | cons head middle =>
        obtain ⟨rfl, rfl⟩ : start = head ∧ after = middle ++ more := by simpa using rest
        refine ⟨⟨before, middle, front, fun event member => ?_⟩, fun event member => ?_⟩
        · exact quiet event (List.mem_append_left _ member)
        · exact quiet event (List.mem_append_right _ member)

end Since

end CBasics.Library
