import CBasics.SelectServer.Outcome

/-! The timeout of `select` over a run. It is set before the loop and `select`
leaves in it the time it has not slept, so all calls of a run share one
interval. -/

set_option autoImplicit false

namespace CBasics.SelectServer

open Library

def Timeval.micros (tv : Timeval) : Nat := tv.sec * 1000000 + tv.usec

def configured : Timeval := ⟨5, 500000⟩

def Event.FullInterval : Event → Prop
  | .selected _ _ timeout => timeout.micros = configured.micros
  | _ => True

instance : DecidablePred Event.FullInterval
  | .selected _ _ timeout => inferInstanceAs (Decidable (timeout.micros = configured.micros))
  | .accepted _ | .received _ _ | .broadcast _ _ | .closed _ | .indexed _ _ | .copied _ _ =>
      isTrue trivial

def Input.IsSelect : Input → Prop
  | .select _ => True
  | .turn _ => False

instance : DecidablePred Input.IsSelect
  | .select _ => isTrue trivial
  | .turn _ => isFalse id

/-- What a step leaves in the timeout. -/
def timeLeft (state : State) : Input → Timeval
  | .select (.ready _ remaining) => remaining
  | .select .timedOut => ⟨0, 0⟩
  | .select .failed | .turn _ => state.tv

/-- What `select` writes back is no longer than what it was given. -/
def WritesRemaining (state : State) (input : Input) : Prop :=
  (timeLeft state input).micros ≤ state.tv.micros

instance (state : State) : DecidablePred (WritesRemaining state) :=
  fun input => inferInstanceAs (Decidable ((timeLeft state input).micros ≤ state.tv.micros))

/-- The microseconds of its timeout that a call of `select` has used up. -/
def waited (state : State) (input : Input) : Nat :=
  state.tv.micros - (timeLeft state input).micros

def waitedIn (steps : List (State × Input)) : Nat :=
  (steps.map fun entry => waited entry.1 entry.2).sum

variable {limit : Int} {state final : State} {input : Input} {events : List Event}

theorem Outcome.tv_eq (outcome : Outcome state input final events) :
    final.tv = timeLeft state input := by
  cases outcome with
  | message _ _ _ storedEq =>
      subst storedEq
      rfl
  | _ => rfl

theorem Outcome.clock (outcome : Outcome state input final events)
    (remains : WritesRemaining state input) :
    final.tv.micros + waited state input = state.tv.micros := by
  rw [outcome.tv_eq, waited]
  exact Nat.add_sub_of_le remains

theorem Outcome.calls_configured_iff (outcome : Outcome state input final events) :
    (∀ event ∈ events, event.FullInterval) ↔
      (input.IsSelect → state.tv.micros = configured.micros) := by
  cases outcome <;> simp [State.selectCall, Event.FullInterval, Input.IsSelect]

/-- All that a run has waited comes off the one interval. -/
theorem run_clock {steps : List (State × Input)} (run : (telnetservermain limit).Run steps final)
    (remains : ∀ entry ∈ steps, WritesRemaining entry.1 entry.2) :
    final.tv.micros + waitedIn steps = configured.micros := by
  induction run with
  | start initial =>
      obtain ⟨_, _, _, _, _, _, _, rfl⟩ := initial
      simp [startUp, configured, waitedIn]
  | @step steps state input run admitted ih =>
      simp only [List.forall_mem_append, List.forall_mem_singleton] at remains
      have earlier := ih remains.1
      have clock := (outcome admitted).clock remains.2
      simp only [waitedIn, List.map_append, List.map_cons, List.map_nil, List.sum_append,
        List.sum_singleton] at earlier ⊢
      omega

theorem run_micros_configured_iff {steps : List (State × Input)}
    (run : (telnetservermain limit).Run steps final)
    (remains : ∀ entry ∈ steps, WritesRemaining entry.1 entry.2) :
    final.tv.micros = configured.micros ↔ ∀ entry ∈ steps, waited entry.1 entry.2 = 0 := by
  have clock := run_clock run remains
  have noneWaited : waitedIn steps = 0 ↔ ∀ entry ∈ steps, waited entry.1 entry.2 = 0 := by
    simp only [waitedIn, List.sum_eq_zero_iff_forall_eq_nat, List.forall_mem_map]
  rw [← noneWaited]
  omega

/-- In every run each call is given the configured interval, if and only if no
call that another one follows has used up any of it. What a line that overruns
its array does to other memory, `tv` included, is not part of the state. -/
theorem fullInterval_iff {steps : List (State × Input)}
    (run : (telnetservermain limit).Run steps final)
    (remains : ∀ entry ∈ steps, WritesRemaining entry.1 entry.2) :
    (∀ event ∈ (telnetservermain limit).trace steps, event.FullInterval) ↔
      steps.Pairwise fun earlier later => later.2.IsSelect → waited earlier.1 earlier.2 = 0 := by
  induction run with
  | start => simp
  | @step steps state input run admitted ih =>
      simp only [List.forall_mem_append, List.forall_mem_singleton] at remains
      have now := (outcome admitted).calls_configured_iff
      rw [run_micros_configured_iff run remains.1] at now
      simp only [System.trace_concat, List.forall_mem_append, List.pairwise_append,
        List.pairwise_singleton, true_and, List.forall_mem_singleton, now, ih remains.1]
      exact and_congr_right fun _ =>
        ⟨fun full entry member called => full called entry member,
          fun full called entry member => full entry member called⟩

/-- `select` gives back all of the time for a connection attempt that is there
already, and `accept` fails. -/
def prompt : List Input := .select (.ready {3} configured) :: idleTurns 6 ++ [.select .timedOut]

theorem fullInterval_prompt :
    (telnetservermain fdSetSize).Admitted freshServer prompt ∧
      ∀ event ∈ (telnetservermain fdSetSize).trace
        ((telnetservermain fdSetSize).follow freshServer prompt), event.FullInterval :=
  ⟨by decide, (fullInterval_iff (freshServer_run prompt (by decide)) (by decide)).mpr (by decide)⟩

/-- Nobody connects for 5.5 seconds. -/
def quiet : List Input := [.select .timedOut, .select .timedOut]

theorem not_fullInterval_quiet :
    (telnetservermain fdSetSize).Run
        ((telnetservermain fdSetSize).follow freshServer quiet)
        ((telnetservermain fdSetSize).finish freshServer quiet) ∧
      (∀ entry ∈ (telnetservermain fdSetSize).follow freshServer quiet,
        WritesRemaining entry.1 entry.2) ∧
      ¬ ∀ event ∈ (telnetservermain fdSetSize).trace
        ((telnetservermain fdSetSize).follow freshServer quiet), event.FullInterval :=
  ⟨freshServer_run quiet (by decide), by decide, by decide⟩

end CBasics.SelectServer
