import CBasics.PollServer.Registry

/-! What one step of the server can do, said once: the cases of a step with
the state and the events each leaves, and the invariant of runs that follows. -/

set_option autoImplicit false

namespace CBasics.PollServer

open Library

/-- Slot `i` is registered and holds `slot`. -/
structure Table.At (table : Table) (i : Nat) (slot : PollFd) : Prop where
  inUse : i < table.fdCount
  found : table.pollFileDescriptors[i]? = some slot

theorem Table.At.mem {table : Table} {i : Nat} {slot : PollFd} (placed : table.At i slot) :
    slot ∈ table.registered :=
  mem_used_of_getElem? placed.inUse placed.found

theorem Table.At.unique {table : Table} {i : Nat} {slot other : PollFd}
    (placed : table.At i slot) (placedOther : table.At i other) : slot = other :=
  Option.some.inj (placed.found.symm.trans placedOther.found)

def messageSends (state : State) (senderFd : Int) (received : List Byte) (results : Nat → Int) :
    List SendCall :=
  broadcast state.listener senderFd received results 0 state.table.registered

theorem Pc.isScanning_iff {pc : Pc} : pc.isScanning = true ↔ ∃ i, pc = .scanning i := by
  cases pc <;> simp [Pc.isScanning]

inductive Outcome (state : State) : Input → State → List Event → Prop where
  | pollFailed : state.pc = .polling → Outcome state (.poll none)
      { state with pc := .exited } [.polled state.table.handedToPoll]
  | polled {readiness : Int → BitVec 16} : state.pc = .polling →
      Outcome state (.poll (some readiness)) (pollRound state readiness)
        [.polled state.table.handedToPoll]
  | passEnded {i : Nat} {answers : Answers} : state.pc = .scanning i → state.table.fdCount ≤ i →
      Outcome state (.turn answers) { state with pc := .polling } []
  | idle {i : Nat} {slot : PollFd} {answers : Answers} : state.pc = .scanning i →
      state.table.At i slot → ¬ slot.ready →
      Outcome state (.turn answers) { state with pc := .scanning (i + 1) } []
  | acceptFailed {i : Nat} {slot : PollFd} {answers : Answers} : state.pc = .scanning i →
      state.table.At i slot → slot.ready → slot.fd = state.listener → answers.accept = -1 →
      Outcome state (.turn answers) { state with pc := .scanning (i + 1) } [.accepted (-1)]
  | accepted {i : Nat} {slot : PollFd} {answers : Answers} : state.pc = .scanning i →
      state.table.At i slot → slot.ready → slot.fd = state.listener →
      answers.accept ∉ state.kernel.openFds → 0 ≤ answers.accept →
      Outcome state (.turn answers)
        { state with
          pc := .scanning (i + 1)
          table := addToPfds answers.garbage answers.accept state.table
          kernel := state.kernel.accept answers.accept }
        [.accepted answers.accept, .stored state.table.fdCount
          (addToPfds answers.garbage answers.accept state.table).pollFileDescriptors.length]
  | hungUp {i : Nat} {slot : PollFd} {answers : Answers} : state.pc = .scanning i →
      state.table.At i slot → slot.ready → slot.fd ≠ state.listener →
      answers.recv = .error ∨ answers.recv = .bytes [] →
      Outcome state (.turn answers)
        { state with
          pc := .scanning (i + 1)
          buffer := answers.recv.store state.buffer
          table := delPfds i state.table
          kernel := state.kernel.close slot.fd }
        [.received slot.fd answers.recv [], .closed slot.fd,
          .stored i state.table.pollFileDescriptors.length]
  | message {i : Nat} {slot : PollFd} {answers : Answers} {received : List Byte} :
      state.pc = .scanning i → state.table.At i slot → slot.ready → slot.fd ≠ state.listener →
      answers.recv = .bytes received → received ≠ [] → received.length ≤ bufferSize →
      Outcome state (.turn answers)
        { state with
          pc := .scanning (i + 1)
          buffer := answers.recv.store state.buffer }
        [.received slot.fd answers.recv (messageSends state slot.fd received answers.send)]

theorem turn_of_at {state : State} {i : Nat} {slot : PollFd} (placed : state.table.At i slot)
    (answers : Answers) :
    turn state i answers =
      ({ (handleSlot state i slot answers).1 with pc := .scanning (i + 1) },
        (handleSlot state i slot answers).2) := by
  unfold turn
  rw [if_pos placed.inUse, placed.found]

theorem recvTurn_message {state : State} {i : Nat} {slot : PollFd} {answers : Answers}
    {received : List Byte} (result : answers.recv = .bytes received) (some : received ≠ []) :
    recvTurn state i slot answers =
      ({ state with buffer := answers.recv.store state.buffer },
        [.received slot.fd answers.recv (messageSends state slot.fd received answers.send)]) := by
  have positive : ¬ ((received.length : Int) ≤ 0) := by
    have := List.length_pos_of_ne_nil some
    omega
  unfold recvTurn
  simp only [result, RecvResult.count, if_neg positive, Int.toNat_natCast, RecvResult.take_store,
    messageSends]

theorem recvTurn_hungUp {state : State} {i : Nat} {slot : PollFd} {answers : Answers}
    (result : answers.recv = .error ∨ answers.recv = .bytes []) :
    recvTurn state i slot answers =
      ({ state with
          buffer := answers.recv.store state.buffer
          table := delPfds i state.table
          kernel := state.kernel.close slot.fd },
        [.received slot.fd answers.recv [], .closed slot.fd,
          .stored i state.table.pollFileDescriptors.length]) := by
  unfold recvTurn
  rw [if_pos]
  rcases result with result | result <;> simp [result, RecvResult.count]

theorem outcome {state : State} {input : Input}
    (fits : state.table.fdCount ≤ state.table.pollFileDescriptors.length)
    (admitted : telnetServerWithPolling.admits state input) :
    Outcome state input (telnetServerWithPolling.next state input)
      (telnetServerWithPolling.emits state input) := by
  cases input with
  | poll reply =>
      cases reply with
      | none => exact .pollFailed admitted
      | some readiness => exact .polled admitted
  | turn answers =>
      obtain ⟨inPass, mayAccept, fitsBuffer⟩ := admitted
      obtain ⟨i, scanning⟩ := Pc.isScanning_iff.mp inPass
      have stepEq : telnetServerWithPolling.step state (.turn answers) = turn state i answers := by
        simp [telnetServerWithPolling, step, scanning]
      unfold System.next System.emits
      rw [stepEq]
      by_cases inUse : i < state.table.fdCount
      · have placed : state.table.At i state.table.pollFileDescriptors[i] :=
          ⟨inUse, List.getElem?_eq_getElem (Nat.lt_of_lt_of_le inUse fits)⟩
        generalize state.table.pollFileDescriptors[i] = slot at placed
        rw [turn_of_at placed]
        unfold handleSlot
        by_cases ready : slot.ready
        · rw [if_pos ready]
          by_cases isListener : slot.fd = state.listener
          · rw [if_pos isListener]
            unfold acceptTurn
            by_cases failed : answers.accept = -1
            · rw [if_pos failed, failed]
              exact .acceptFailed scanning placed ready isListener failed
            · rw [if_neg failed]
              obtain ⟨nonneg, fresh⟩ := mayAccept.resolve_left failed
              exact .accepted scanning placed ready isListener fresh nonneg
          · rw [if_neg isListener]
            cases result : answers.recv with
            | error =>
                rw [recvTurn_hungUp (.inl result)]
                exact .hungUp scanning placed ready isListener (.inl result)
            | bytes received =>
                by_cases none : received = []
                · subst none
                  rw [recvTurn_hungUp (.inr result)]
                  exact .hungUp scanning placed ready isListener (.inr result)
                · rw [recvTurn_message result none]
                  have bound : received.length ≤ bufferSize := by
                    rw [result] at fitsBuffer
                    exact fitsBuffer
                  exact .message scanning placed ready isListener result none bound
        · rw [if_neg ready]
          exact .idle scanning placed ready
      · have endEq : turn state i answers = ({ state with pc := .polling }, []) := if_neg inUse
        rw [endEq]
        exact .passEnded scanning (Nat.le_of_not_lt inUse)

/-- What holds between the table, the kernel and the buffer in every state. -/
structure Invariant (state : State) : Prop where
  registers : state.table.Registers state.listener state.kernel.clients
  serves : state.kernel.Serves state.listener
  buffered : state.buffer.length = bufferSize

theorem Invariant.fits {state : State} (invariant : Invariant state) :
    state.table.fdCount ≤ state.table.pollFileDescriptors.length := by
  rw [invariant.registers.allocated]
  exact invariant.registers.bounded

theorem pollRound_slots {state : State} (invariant : Invariant state)
    (readiness : Int → BitVec 16) :
    (pollRound state readiness).table.pollFileDescriptors =
      state.table.pollFileDescriptors.map (pollSlot state.kernel readiness) := by
  simp [pollRound, poll, ← invariant.registers.allocated]

theorem Invariant.initial {state : State} (initial : telnetServerWithPolling.initial state) :
    Invariant state := by
  obtain ⟨garbage, listener, buffer, openFds, isOpen, _, full, rfl⟩ := initial
  exact {
    registers := .startUp garbage listener
    serves := ⟨isOpen, by simp [startUp], by simp [startUp], by simp [startUp]⟩
    buffered := full }

theorem Invariant.pollRound {state : State} (invariant : Invariant state)
    (readiness : Int → BitVec 16) : Invariant (PollServer.pollRound state readiness) where
  registers := by
    have table : (PollServer.pollRound state readiness).table =
        { state.table with pollFileDescriptors :=
            state.table.pollFileDescriptors.map (pollSlot state.kernel readiness) } := by
      rw [← pollRound_slots invariant readiness]
      rfl
    rw [table]
    exact invariant.registers.map (fun _ => rfl) (fun _ => rfl) (fun _ => rfl)
  serves := invariant.serves
  buffered := invariant.buffered

theorem Invariant.outcome {state final : State} {input : Input} {events : List Event}
    (invariant : Invariant state) (outcome : Outcome state input final events)
    (admitted : telnetServerWithPolling.admits state input) : Invariant final := by
  obtain ⟨registers, serves, buffered⟩ := invariant
  cases outcome with
  | pollFailed => exact ⟨registers, serves, buffered⟩
  | polled => exact Invariant.pollRound ⟨registers, serves, buffered⟩ _
  | passEnded => exact ⟨registers, serves, buffered⟩
  | idle => exact ⟨registers, serves, buffered⟩
  | acceptFailed => exact ⟨registers, serves, buffered⟩
  | @accepted _ _ answers _ _ _ _ fresh nonneg =>
      have notListener : answers.accept ≠ state.listener :=
        fun same => fresh (same ▸ serves.listenerOpen)
      have notClient : answers.accept ∉ state.kernel.clients :=
        fun member => fresh (serves.clientsOpen member)
      exact ⟨registers.addToPfds _ notListener notClient, serves.accept fresh nonneg, buffered⟩
  | hungUp _ placed _ isClient _ =>
      refine ⟨registers.delPfds placed.inUse placed.found isClient, serves.close isClient, ?_⟩
      exact (RecvResult.length_store (buffered ▸ admitted.2.2)).trans buffered
  | message =>
      refine ⟨registers, serves, ?_⟩
      exact (RecvResult.length_store (buffered ▸ admitted.2.2)).trans buffered

theorem run_invariant {steps : List (State × Input)} {state : State}
    (run : telnetServerWithPolling.Run steps state) : Invariant state :=
  run.invariant Invariant (fun _ initial => .initial initial)
    fun _ _ invariant admitted => invariant.outcome (outcome invariant.fits admitted) admitted

theorem run_step {steps : List (State × Input)} {final : State}
    (run : telnetServerWithPolling.Run steps final) {state : State} {input : Input}
    (member : (state, input) ∈ steps) :
    Invariant state ∧ telnetServerWithPolling.admits state input ∧
      Outcome state input (telnetServerWithPolling.next state input)
        (telnetServerWithPolling.emits state input) := by
  obtain ⟨_, earlier, admitted⟩ := run.of_mem member
  have invariant := run_invariant earlier
  exact ⟨invariant, admitted, outcome invariant.fits admitted⟩

def freshServer : State :=
  startUp (fun _ => ⟨0, 0, 0, false⟩) 3 (List.replicate bufferSize 0) {0, 1, 2, 3}

theorem freshServer_initial : telnetServerWithPolling.initial freshServer :=
  ⟨_, 3, _, {0, 1, 2, 3}, by decide, by decide, List.length_replicate, rfl⟩

theorem freshServer_run (inputs : List Input)
    (admitted : telnetServerWithPolling.Admitted freshServer inputs) :
    telnetServerWithPolling.Run (telnetServerWithPolling.follow freshServer inputs)
      (telnetServerWithPolling.finish freshServer inputs) :=
  .of_admitted freshServer_initial admitted

def pollReports (fds : List Int) : Input :=
  .poll (some fun fd => if fd ∈ fds then pollin else 0)

/-- A turn with these answers of `accept` and `recv`; every send succeeds. -/
def turnWith (accept : Int) (recv : RecvResult) : Input :=
  .turn { accept := accept, garbage := fun _ => ⟨0, 0, 0, false⟩, recv := recv, send := fun _ => 1 }

end CBasics.PollServer
