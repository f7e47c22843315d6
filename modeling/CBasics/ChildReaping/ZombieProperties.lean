import CBasics.ChildReaping.Basic

/-! No child stays a zombie: an unreaped child has a signal or a `waitpid` still
to come. The server gets back the `errno` it was interrupted with. -/

set_option autoImplicit false

namespace CBasics.ChildReaping

open Library

variable {program : Program}

/-- The handler will call `waitpid` again. -/
def HandlerPc.Reaps : HandlerPc → Prop
  | .entered => True
  | .draining _ => True
  | .restoring _ => False
  | .returning => False

/-- The `errno` that the handler is going to leave behind. -/
def HandlerPc.kept (errno : Int) : HandlerPc → Int
  | .entered => errno
  | .draining savedError => savedError
  | .restoring savedError => savedError
  | .returning => errno

/-- Control passes between the server and its handler. -/
def Event.Switches : Event → Prop
  | .delivered _ => True
  | .returned _ => True
  | _ => False

/-- What a step can do, for each kind of step that the environment admits. -/
inductive Outcome (state : State program.Pc) : Input → State program.Pc → List Event → Prop where
  | signalAction (answer : CallAnswer) :
      state.handler = none → program.call state.pc = .sigaction →
      Outcome state (.server answer)
        { state with
          pc := program.next state.pc answer.succeeded
          errno := answer.errno
          installed := state.installed || answer.succeeded } []
  | forked (answer : CallAnswer) :
      state.handler = none → program.call state.pc = .fork → answer.succeeded = true →
      Outcome state (.server answer)
        { state with
          pc := program.next state.pc answer.succeeded
          errno := answer.errno
          running := insert answer.pid state.running } [.forked answer.pid]
  | called (answer : CallAnswer) :
      state.handler = none →
      (program.call state.pc = .sigaction → answer.succeeded = false) →
      Outcome state (.server answer)
        { state with pc := program.next state.pc answer.succeeded, errno := answer.errno } []
  | exited (answer : CallAnswer) :
      state.handler = none →
      Outcome state (.server answer)
        { state with pending := false, running := ∅, zombies := ∅ } []
  | died (pid : Int) :
      pid ∈ state.running →
      Outcome state (.dies pid)
        { state with
          pending := state.pending || state.installed
          running := state.running.erase pid
          zombies := insert pid state.zombies } [.died pid]
  | raised :
      Outcome state .raised { state with pending := state.pending || state.installed } []
  | delivered :
      state.installed = true → state.handler = none →
      Outcome state .deliver
        { state with pending := false, handler := some .entered } [.delivered state.errno]
  | saved (answer : WaitAnswer) :
      state.handler = some .entered →
      Outcome state (.handler answer) { state with handler := some (.draining state.errno) } []
  | reaped (answer : WaitAnswer) (savedError : Int) :
      state.handler = some (.draining savedError) →
      Outcome state (.handler answer)
        { state with
          handler := some (.draining savedError)
          errno := answer.errno
          zombies := state.zombies.erase answer.result } [.reaped answer.result]
  | drained (answer : WaitAnswer) (savedError : Int) :
      state.handler = some (.draining savedError) → state.zombies = ∅ →
      Outcome state (.handler answer)
        { state with handler := some (.restoring savedError), errno := answer.errno }
        [.noneTerminated]
  | restored (answer : WaitAnswer) (savedError : Int) :
      state.handler = some (.restoring savedError) →
      Outcome state (.handler answer)
        { state with handler := some .returning, errno := savedError } []
  | returned (answer : WaitAnswer) :
      state.handler = some .returning →
      Outcome state (.handler answer) { state with handler := none } [.returned state.errno]

theorem AdmitsWait.drained {state : State program.Pc} {answer : WaitAnswer}
    (admitted : AdmitsWait state answer) (none : ¬ 0 < answer.result) : state.zombies = ∅ := by
  rcases admitted with ⟨positive, -⟩ | ⟨-, empty, -⟩ | ⟨-, empty, -⟩
  · exact absurd positive none
  · exact empty
  · exact empty

theorem outcome_server {state : State program.Pc} {answer : CallAnswer}
    (quiet : state.handler = none) :
    Outcome state (.server answer) ((process program).next state (.server answer))
      ((process program).emits state (.server answer)) := by
  simp only [System.next, System.emits, process, step, serverStep]
  cases call : program.call state.pc with
  | sigaction => exact .signalAction answer quiet call
  | fork =>
      cases succeeded : answer.succeeded with
      | true =>
          have forked : Outcome state _ _ _ := .forked answer quiet call succeeded
          simpa [succeeded] using forked
      | false =>
          have called : Outcome state _ _ _ := .called answer quiet (by simp [succeeded])
          simpa [succeeded] using called
  | other => exact .called answer quiet (by simp [call])
  | exit => exact .exited answer quiet

theorem outcome_handler {state : State program.Pc} {answer : WaitAnswer} {pc : HandlerPc}
    (running : state.handler = some pc)
    (admitted : ∀ savedError, pc = .draining savedError → AdmitsWait state answer) :
    Outcome state (.handler answer) ((process program).next state (.handler answer))
      ((process program).emits state (.handler answer)) := by
  simp only [System.next, System.emits, process, step, running, handlerStep, signalChildHandler]
  cases pc with
  | entered => exact .saved answer running
  | draining savedError =>
      by_cases positive : 0 < answer.result
      · simpa [positive] using Outcome.reaped answer savedError running
      · have empty := (admitted savedError rfl).drained positive
        simpa [positive] using Outcome.drained answer savedError running empty
  | restoring savedError => exact .restored answer savedError running
  | returning => exact .returned answer running

theorem outcome {state : State program.Pc} {input : Input}
    (admitted : (process program).admits state input) :
    Outcome state input ((process program).next state input)
      ((process program).emits state input) := by
  have granted : Admits state input := admitted
  cases input with
  | server answer => exact outcome_server granted.1
  | dies pid => exact .died pid granted
  | raised => exact .raised
  | deliver => exact .delivered granted.2.1 granted.2.2
  | handler answer =>
      cases running : state.handler with
      | none => simp [Admits, running] at granted
      | some pc =>
          refine outcome_handler running ?_
          rintro savedError rfl
          simpa [Admits, running] using granted

/-- Before the handler is installed there is nothing to reap; afterwards every
zombie is waited for. -/
structure Invariant (state : State program.Pc) : Prop where
  installedAt : program.installed state.pc = true → state.installed = true
  childless : state.installed = false → state.running = ∅
  awaited : ∀ pid ∈ state.zombies,
    state.pending = true ∨ ∃ pc, state.handler = some pc ∧ pc.Reaps

theorem Invariant.installed_next {state : State program.Pc} (invariant : Invariant state)
    {succeeded : Bool} (after : program.installed (program.next state.pc succeeded) = true) :
    (state.installed || (program.call state.pc = .sigaction && succeeded)) = true := by
  cases program.installed_next state.pc succeeded after with
  | inl already => simp [invariant.installedAt already]
  | inr just => simp [just.1, just.2]

/-- A handler past its loop leaves no zombie behind without another signal. -/
theorem Invariant.pending_of_done {state : State program.Pc} (invariant : Invariant state)
    {pc : HandlerPc} (handling : state.handler = some pc) (done : ¬ pc.Reaps) {pid : Int}
    (zombie : pid ∈ state.zombies) : state.pending = true := by
  obtain pending | ⟨other, same, reaps⟩ := invariant.awaited pid zombie
  · exact pending
  · obtain rfl : pc = other := by simpa [handling] using same
    exact absurd reaps done

theorem Invariant.outcome {state final : State program.Pc} {input : Input} {events : List Event}
    (invariant : Invariant state) (outcome : Outcome state input final events) :
    Invariant final := by
  cases outcome with
  | signalAction answer quiet call =>
      refine ⟨?_, ?_, invariant.awaited⟩
      · intro after
        simpa [call] using invariant.installed_next after
      · intro missing
        exact invariant.childless (Bool.or_eq_false_iff.mp missing).1
  | forked answer quiet call succeeded =>
      have ready : state.installed = true := invariant.installedAt (program.fork_after _ call)
      refine ⟨fun _ => ready, ?_, invariant.awaited⟩
      intro missing
      simp [ready] at missing
  | called answer quiet failed =>
      refine ⟨?_, invariant.childless, invariant.awaited⟩
      intro after
      by_cases call : program.call state.pc = .sigaction
      · simpa [failed call] using invariant.installed_next after
      · simpa [call] using invariant.installed_next after
  | exited answer quiet => exact ⟨invariant.installedAt, fun _ => rfl, by simp⟩
  | died pid alive =>
      have ready : state.installed = true := by
        cases installed : state.installed with
        | true => rfl
        | false => simp [invariant.childless installed] at alive
      refine ⟨invariant.installedAt, ?_, ?_⟩
      · intro missing
        simp [ready] at missing
      · intro other _
        exact .inl (by simp [ready])
  | raised =>
      refine ⟨invariant.installedAt, invariant.childless, ?_⟩
      intro pid zombie
      cases invariant.awaited pid zombie with
      | inl pending => exact .inl (by simp [pending])
      | inr handling => exact .inr handling
  | delivered ready quiet =>
      -- the signal is taken, and the handler starts with all its calls to come
      exact ⟨invariant.installedAt, invariant.childless, fun _ _ => .inr ⟨.entered, rfl, trivial⟩⟩
  | saved answer entered =>
      exact ⟨invariant.installedAt, invariant.childless, fun _ _ => .inr ⟨_, rfl, trivial⟩⟩
  | reaped answer savedError draining =>
      exact ⟨invariant.installedAt, invariant.childless, fun _ _ => .inr ⟨_, rfl, trivial⟩⟩
  | drained answer savedError draining empty =>
      refine ⟨invariant.installedAt, invariant.childless, ?_⟩
      intro pid zombie
      simp [empty] at zombie
  | restored answer savedError restoring =>
      refine ⟨invariant.installedAt, invariant.childless, ?_⟩
      intro pid zombie
      exact .inl (invariant.pending_of_done restoring id zombie)
  | returned answer returning =>
      refine ⟨invariant.installedAt, invariant.childless, ?_⟩
      intro pid zombie
      exact .inl (invariant.pending_of_done returning id zombie)

theorem run_invariant {steps : List (State program.Pc × Input)} {state : State program.Pc}
    (run : (process program).Run steps state) : Invariant state := by
  refine run.invariant Invariant ?_ ?_
  · rintro state ⟨start, -, -, -, running, zombies⟩
    refine ⟨?_, fun _ => running, by simp [zombies]⟩
    simp [start, program.start_before]
  · intro state input invariant admitted
    exact invariant.outcome (outcome admitted)

/-- What the events say about the zombies and about a handler that runs: no
`waitpid` has come back empty since a zombie died, and the `errno` the handler
keeps is the one it found. -/
structure Recorded (events : List Event) (state : State program.Pc) : Prop where
  unseen : ∀ pid ∈ state.zombies, Since (.died pid) (· = .noneTerminated) events
  interrupted : ∀ pc, state.handler = some pc →
    Since (.delivered (pc.kept state.errno)) Event.Switches events

theorem Recorded.unseen_append {state : State program.Pc} {events emitted : List Event}
    (recorded : Recorded events state) {pid : Int} (zombie : pid ∈ state.zombies)
    (found : .noneTerminated ∉ emitted) :
    Since (.died pid) (· = .noneTerminated) (events ++ emitted) :=
  (recorded.unseen pid zombie).append fun _ member same => found (same ▸ member)

/-- The handler goes on and still keeps the `errno` it found. -/
theorem Recorded.interrupted_append {state final : State program.Pc}
    {events emitted : List Event} (recorded : Recorded events state) {pc next : HandlerPc}
    (handling : state.handler = some pc) (goesOn : final.handler = some next)
    (keeps : next.kept final.errno = pc.kept state.errno)
    (calm : ∀ event ∈ emitted, ¬ event.Switches) (now : HandlerPc)
    (standing : final.handler = some now) :
    Since (.delivered (now.kept final.errno)) Event.Switches (events ++ emitted) := by
  obtain rfl : next = now := by simpa [goesOn] using standing
  rw [keeps]
  exact (recorded.interrupted pc handling).append calm

theorem Recorded.outcome {state final : State program.Pc} {input : Input}
    {events emitted : List Event} (recorded : Recorded events state)
    (outcome : Outcome state input final emitted) : Recorded (events ++ emitted) final := by
  cases outcome with
  | signalAction answer quiet call =>
      refine ⟨by simpa using recorded.unseen, ?_⟩
      simp [quiet]
  | forked answer quiet call succeeded =>
      refine ⟨fun _ zombie => recorded.unseen_append zombie (by simp), ?_⟩
      simp [quiet]
  | called answer quiet failed =>
      refine ⟨by simpa using recorded.unseen, ?_⟩
      simp [quiet]
  | exited answer quiet => exact ⟨by simp, by simp [quiet]⟩
  | died pid alive =>
      refine ⟨?_, fun pc at_ => (recorded.interrupted pc at_).append (by simp [Event.Switches])⟩
      intro other zombie
      cases Finset.mem_insert.mp zombie with
      | inl same => exact same ▸ since_append_singleton
      | inr earlier => exact recorded.unseen_append earlier (by simp)
  | raised =>
      rw [List.append_nil]
      exact ⟨recorded.unseen, recorded.interrupted⟩
  | delivered ready quiet =>
      refine ⟨fun _ zombie => recorded.unseen_append zombie (by simp), ?_⟩
      intro pc handling
      cases handling
      exact since_append_singleton
  | saved answer entered =>
      refine ⟨fun _ zombie => recorded.unseen_append zombie (by simp), ?_⟩
      exact recorded.interrupted_append entered rfl rfl (by simp)
  | reaped answer savedError draining =>
      refine ⟨?_, recorded.interrupted_append draining rfl rfl (by simp [Event.Switches])⟩
      intro pid zombie
      exact recorded.unseen_append (Finset.mem_of_mem_erase zombie) (by simp)
  | drained answer savedError draining empty =>
      refine ⟨by simp [empty], ?_⟩
      exact recorded.interrupted_append draining rfl rfl (by simp [Event.Switches])
  | restored answer savedError restoring =>
      refine ⟨fun _ zombie => recorded.unseen_append zombie (by simp), ?_⟩
      exact recorded.interrupted_append restoring rfl rfl (by simp)
  | returned answer returning =>
      refine ⟨fun _ zombie => recorded.unseen_append zombie (by simp), ?_⟩
      simp

theorem run_recorded {steps : List (State program.Pc × Input)} {state : State program.Pc}
    (run : (process program).Run steps state) :
    Recorded ((process program).trace steps) state := by
  refine run.traceInvariant Recorded ?_ ?_
  · rintro state ⟨-, -, -, quiet, -, zombies⟩
    exact ⟨by simp [zombies], by simp [quiet]⟩
  · intro events steps state input _ recorded admitted
    exact recorded.outcome (outcome admitted)

theorem Outcome.events_length {state final : State program.Pc} {input : Input}
    {events : List Event} (outcome : Outcome state input final events) : events.length ≤ 1 := by
  cases outcome <;> simp

theorem Outcome.of_returned {state final : State program.Pc} {input : Input} {errno : Int}
    {rest : List Event} (outcome : Outcome state input final (.returned errno :: rest)) :
    state.handler = some .returning ∧ state.errno = errno := by
  cases outcome with
  | returned answer returning => exact ⟨returning, rfl⟩

theorem errno_unchanged {steps : List (State program.Pc × Input)} {final : State program.Pc}
    (run : (process program).Run steps final) {before after : List Event} {errno : Int}
    (split : (process program).trace steps = before ++ .returned errno :: after) :
    Since (.delivered errno) Event.Switches before := by
  obtain ⟨earlier, state, input, left, right, shorter, admitted, -, emitted, rfl⟩ :=
    run.split_event split
  have stepped := outcome admitted
  have single := stepped.events_length
  rw [emitted] at stepped single
  obtain rfl : left = [] := by
    cases left with
    | nil => rfl
    | cons _ _ => simp at single
  obtain ⟨returning, rfl⟩ := stepped.of_returned
  simpa [HandlerPc.kept] using (run_recorded shorter).interrupted _ returning

/-- In every state of a run of the server, a child that has terminated and was
not reaped has `SIGCHLD` pending, or the handler is running, will call `waitpid`
again, and has not seen it report no terminated child since that child died. -/
theorem zombies_awaited {steps : List (State program.Pc × Input)} {state : State program.Pc}
    (run : (process program).Run steps state) :
    (∀ pid ∈ state.zombies,
      state.pending = true ∨
        (∃ pc, state.handler = some pc ∧ pc.Reaps) ∧
          Since (.died pid) (· = .noneTerminated) ((process program).trace steps)) ∧
      (state.pending = false → state.handler = none → state.zombies = ∅) ∧
      ∀ before errno after,
        (process program).trace steps = before ++ .returned errno :: after →
        Since (.delivered errno) Event.Switches before := by
  have invariant := run_invariant run
  refine ⟨?_, ?_, fun before errno after split => errno_unchanged run split⟩
  · intro pid zombie
    cases invariant.awaited pid zombie with
    | inl pending => exact .inl pending
    | inr handling => exact .inr ⟨handling, (run_recorded run).unseen pid zombie⟩
  · intro calm idle
    refine Finset.eq_empty_of_forall_notMem ?_
    intro pid zombie
    simpa [calm, idle] using invariant.awaited pid zombie

def freshServer : State (rawServer true).Pc := ⟨.polling, false, false, none, 0, ∅, ∅⟩

/-- Children 7 and 8 die before the one signal is delivered, child 9 while the
handler runs. -/
def coalescedDeaths : List Input :=
  let next (pid : Int) : Input := .server ⟨true, pid, 0⟩
  [next 0, next 0, next 0, next 7, next 0, next 0, next 0, next 8, next 0, next 0, next 0, next 9,
    .dies 7, .dies 8, .deliver, .handler ⟨0, 0⟩, .handler ⟨7, 0⟩, .dies 9, .handler ⟨8, 0⟩,
    .handler ⟨9, 0⟩, .handler ⟨-1, 10⟩, .handler ⟨0, 0⟩, .handler ⟨0, 0⟩,
    .deliver, .handler ⟨0, 0⟩, .handler ⟨-1, 10⟩, .handler ⟨0, 0⟩, .handler ⟨0, 0⟩]

theorem zombies_awaited_coalesced :
    ((process (rawServer true)).finish freshServer coalescedDeaths).zombies = ∅ := by
  have run : (process (rawServer true)).Run
      ((process (rawServer true)).follow freshServer coalescedDeaths)
      ((process (rawServer true)).finish freshServer coalescedDeaths) := by
    refine System.Run.of_admitted ?_ (by decide)
    exact ⟨rfl, rfl, rfl, rfl, rfl, rfl⟩
  exact (zombies_awaited run).2.1 (by decide) (by decide)

end CBasics.ChildReaping
