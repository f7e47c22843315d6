import CBasics.PollServer.Outcome

/-! What the registry invariant says of the slots in use and of the slots that
are handed to `poll`. -/

set_option autoImplicit false

namespace CBasics.PollServer

open Library
open scoped List

/-- The clients accepted and not closed, read off the events of a run. -/
def connected (trace : List Event) : Finset Int :=
  trace.foldl (fun clients event =>
    match event with
    | .accepted result => if result = -1 then clients else insert result clients
    | .closed fd => clients.erase fd
    | _ => clients) ∅

theorem connected_trace {steps : List (State × Input)} {state : State}
    (run : telnetServerWithPolling.Run steps state) :
    connected (telnetServerWithPolling.trace steps) = state.kernel.clients := by
  refine run.traceInvariant (fun events state => connected events = state.kernel.clients) ?_ ?_
  · rintro _ ⟨garbage, listener, buffer, openFds, _, _, _, rfl⟩
    rfl
  · intro events steps state input run same admitted
    have stepped := outcome (run_invariant run).fits admitted
    generalize telnetServerWithPolling.next state input = final at stepped ⊢
    generalize telnetServerWithPolling.emits state input = emitted at stepped ⊢
    unfold connected at same ⊢
    rw [List.foldl_append, same]
    cases stepped with
    | pollFailed => rfl
    | polled => rfl
    | passEnded => rfl
    | idle => rfl
    | acceptFailed => rfl
    | accepted _ _ _ _ _ nonneg => simp [Kernel.accept]; omega
    | hungUp => simp [Kernel.close]
    | message => rfl

/-- After start-up and after every turn the registered slots are the listener
and the connected clients, and no write left the array. -/
theorem registry_exact {steps : List (State × Input)} {state : State}
    (run : telnetServerWithPolling.Run steps state) :
    state.table.Registers state.listener (connected (telnetServerWithPolling.trace steps)) ∧
      ∀ entry ∈ steps, ∀ index allocated,
        .stored index allocated ∈ telnetServerWithPolling.emits entry.1 entry.2 →
        index < allocated ∧
          allocated = (telnetServerWithPolling.next entry.1 entry.2).table.fdSize := by
  constructor
  · rw [connected_trace run]
    exact (run_invariant run).registers
  · rintro ⟨before, input⟩ member index allocated stored
    obtain ⟨invariant, admitted, stepped⟩ := run_step run member
    have after := invariant.outcome stepped admitted
    have sized := after.registers.allocated
    dsimp only at stored ⊢
    generalize telnetServerWithPolling.next before input = final at stepped sized ⊢
    generalize telnetServerWithPolling.emits before input = emitted at stepped stored
    cases stepped with
    | pollFailed => simp at stored
    | polled => simp at stored
    | passEnded => simp at stored
    | idle => simp at stored
    | acceptFailed => simp at stored
    | accepted =>
        obtain ⟨rfl, rfl⟩ : index = _ ∧ allocated = _ := by simpa using stored
        exact ⟨invariant.registers.lt_length_addToPfds _ _, sized⟩
    | hungUp _ placed =>
        obtain ⟨rfl, rfl⟩ : index = _ ∧ allocated = _ := by simpa using stored
        exact ⟨Nat.lt_of_lt_of_le placed.inUse invariant.fits, invariant.registers.allocated⟩
    | message => simp at stored

def fourClients : List Input :=
  [4, 5, 6, 7].flatMap fun fd =>
    [pollReports [3], turnWith fd .error] ++ List.replicate (fd.toNat - 2) (turnWith (-1) .error)

/-- A fifth client finds the array full; then 5 hangs up and the last slot is
moved into the one it had. -/
def regrouped : List Input :=
  fourClients ++ [pollReports [3], turnWith 8 .error] ++ List.replicate 6 (turnWith (-1) .error) ++
    [pollReports [5], turnWith (-1) .error, turnWith (-1) .error]

theorem registry_exact_regrouped :
    (telnetServerWithPolling.finish freshServer
        (regrouped ++ [turnWith (-1) (.bytes [])])).table.Registers 3 {8, 7, 6, 4} ∧
      2 < 10 ∧ 10 = (telnetServerWithPolling.next (telnetServerWithPolling.finish freshServer
        regrouped) (turnWith (-1) (.bytes []))).table.fdSize := by
  have exactly := registry_exact
    (freshServer_run (regrouped ++ [turnWith (-1) (.bytes [])]) (by decide +kernel))
  have last : (telnetServerWithPolling.finish freshServer regrouped, turnWith (-1) (.bytes [])) ∈
      telnetServerWithPolling.follow freshServer (regrouped ++ [turnWith (-1) (.bytes [])]) := by
    simp [System.follow_append]
  have clients : connected (telnetServerWithPolling.trace (telnetServerWithPolling.follow
      freshServer (regrouped ++ [turnWith (-1) (.bytes [])]))) = {8, 7, 6, 4} := by
    decide +kernel
  exact ⟨clients ▸ exactly.1, exactly.2 _ last 2 10 (by decide +kernel)⟩

/-- The polled slots are the listener and the connected clients, each once, and
every one of them was filled by the server. -/
structure PollsExactly (slots : List PollFd) (listener : Int) (clients : Finset Int) : Prop where
  once : (slots.map PollFd.fd).Nodup
  exact : ∀ fd, fd ∈ slots.map PollFd.fd ↔ fd = listener ∨ fd ∈ clients
  filled : ∀ slot ∈ slots, slot.written

theorem Table.Registers.pollsExactly_iff {table : Table} {listener : Int} {clients : Finset Int}
    (registers : table.Registers listener clients) :
    PollsExactly table.handedToPoll listener clients ↔ table.fdCount = table.fdSize := by
  constructor
  · intro exactly
    have sameMembers : table.handedToPoll.map PollFd.fd ~ table.registered.map PollFd.fd := by
      rw [List.perm_ext_iff_of_nodup exactly.once registers.distinct]
      intro fd
      rw [exactly.exact, registers.exact]
    have lengths := sameMembers.length_eq
    have bounded := registers.bounded
    have allocated := registers.allocated
    simp only [handedToPoll, registered, used, List.length_map, List.length_take] at lengths
    omega
  · intro full
    have same : table.handedToPoll = table.registered := by
      rw [handedToPoll, ← full]
      rfl
    rw [same]
    exact ⟨registers.distinct, registers.exact,
      fun slot member => (registers.watched slot member).2⟩

theorem emits_poll (state : State) (reply : Option (Int → BitVec 16)) :
    telnetServerWithPolling.emits state (.poll reply) = [.polled state.table.handedToPoll] := by
  cases reply <;> rfl

theorem mem_emits_poll (state : State) (reply : Option (Int → BitVec 16)) :
    .polled state.table.handedToPoll ∈ telnetServerWithPolling.emits state (.poll reply) := by
  simp [emits_poll]

/-- A call of `poll` is given exactly the live connections if and only if the
array is full: its count argument is the allocated size. -/
theorem polls_exactly_iff {steps : List (State × Input)} {state : State}
    (run : telnetServerWithPolling.Run steps state) {reply : Option (Int → BitVec 16)}
    {slots : List PollFd}
    (called : .polled slots ∈ telnetServerWithPolling.emits state (.poll reply)) :
    PollsExactly slots state.listener (connected (telnetServerWithPolling.trace steps)) ↔
      state.table.fdCount = state.table.fdSize := by
  have given : slots = state.table.handedToPoll := by
    simpa [emits_poll] using called
  rw [connected_trace run, given]
  exact (run_invariant run).registers.pollsExactly_iff

theorem polls_exactly_full :
    PollsExactly (telnetServerWithPolling.finish freshServer fourClients).table.handedToPoll 3
      {7, 6, 5, 4} :=
  (polls_exactly_iff (freshServer_run fourClients (by decide)) (mem_emits_poll _ none)).mpr
    (by decide)

/-- The first poll is given five slots, four of which were never filled. -/
theorem first_poll_not_exact :
    telnetServerWithPolling.Run [] freshServer ∧
      .polled freshServer.table.handedToPoll ∈
        telnetServerWithPolling.emits freshServer (pollReports []) ∧
      ¬ PollsExactly freshServer.table.handedToPoll freshServer.listener
        (connected (telnetServerWithPolling.trace [])) := by
  refine ⟨.start freshServer_initial, mem_emits_poll _ _, ?_⟩
  intro exactly
  have unfilled : (⟨0, 0, 0, false⟩ : PollFd) ∈ freshServer.table.handedToPoll := by decide
  exact absurd (exactly.filled _ unfilled) (by decide)

end CBasics.PollServer
