import CBasics.Library.Room
import CBasics.PollServer.RegistryProperties

/-! The server refines the chat room: its events, read as actions of a room,
are a history of one whose members are the connected clients. -/

set_option autoImplicit false

namespace CBasics.PollServer

open Library

def Event.action? : Event → Option (Room.Action Int (List Byte))
  | .accepted result => if result = -1 then none else some (.join result)
  | .closed fd => some (.leave fd)
  | .received fd (.bytes (first :: rest)) sends =>
      some (.post fd (first :: rest) (sends.map SendCall.addressed))
  | _ => none

def actions (trace : List Event) : List (Room.Action Int (List Byte)) :=
  trace.filterMap Event.action?

theorem broadcast_fst (listener senderFd : Int) (payload : List Byte) (results : Nat → Int)
    (j : Nat) (slots : List PollFd) :
    ((broadcast listener senderFd payload results j slots).map SendCall.addressed).map Prod.fst =
      (slots.map PollFd.fd).filter fun fd => fd ≠ listener ∧ fd ≠ senderFd := by
  induction slots generalizing j with
  | nil => rfl
  | cons slot rest ih =>
      unfold broadcast
      split
      · rename_i other
        rw [List.map_cons, List.map_cons, ih, List.map_cons,
          List.filter_cons_of_pos (by simpa using other)]
        rfl
      · rename_i same
        rw [ih, List.map_cons, List.filter_cons_of_neg (by simpa using same)]

theorem broadcast_payload {listener senderFd : Int} {payload : List Byte} {results : Nat → Int}
    {j : Nat} {slots : List PollFd} {call : SendCall}
    (member : call ∈ broadcast listener senderFd payload results j slots) :
    call.payload = payload ∧ call.length = payload.length := by
  induction slots generalizing j with
  | nil => simp [broadcast] at member
  | cons slot rest ih =>
      unfold broadcast at member
      split at member
      · rcases List.mem_cons.mp member with rfl | later
        · exact ⟨rfl, rfl⟩
        · exact ih later
      · exact ih member

theorem fanout {state : State} (invariant : Invariant state) (senderFd : Int)
    (payload : List Byte) (results : Nat → Int) :
    Room.Fanout state.kernel.clients senderFd payload
      ((messageSends state senderFd payload results).map SendCall.addressed) where
  once := by
    rw [messageSends, broadcast_fst]
    exact invariant.registers.distinct.filter _
  exact := by
    intro fd
    rw [messageSends, broadcast_fst, List.mem_filter, invariant.registers.exact]
    have notListener := invariant.serves.listenerNotClient
    constructor
    · rintro ⟨same | member, others⟩
      · simp [same] at others
      · exact ⟨member, by simpa using (of_decide_eq_true others).2⟩
    · rintro ⟨member, other⟩
      have different : fd ≠ state.listener := fun same => notListener (same ▸ member)
      exact ⟨.inr member, by simp [different, other]⟩
  faithful := by
    intro send member
    obtain ⟨call, called, rfl⟩ := List.mem_map.mp member
    exact (broadcast_payload called).1

theorem run_history {steps : List (State × Input)} {state : State}
    (run : telnetServerWithPolling.Run steps state) :
    Room.History ∅ (actions (telnetServerWithPolling.trace steps)) state.kernel.clients := by
  refine run.traceInvariant
    (fun events state => Room.History ∅ (actions events) state.kernel.clients) ?_ ?_
  · rintro _ ⟨garbage, listener, buffer, openFds, _, _, _, rfl⟩
    exact .nil
  · intro events steps state input run history admitted
    have invariant := run_invariant run
    have stepped := outcome invariant.fits admitted
    generalize telnetServerWithPolling.next state input = final at stepped ⊢
    generalize telnetServerWithPolling.emits state input = emitted at stepped ⊢
    rw [actions, List.filterMap_append]
    refine history.append ?_
    cases stepped with
    | pollFailed => exact .nil
    | polled => exact .nil
    | passEnded => exact .nil
    | idle => exact .nil
    | acceptFailed => exact .nil
    | @accepted _ _ answers _ _ _ _ fresh nonneg =>
        have succeeded : answers.accept ≠ -1 := by omega
        have joins : answers.accept ∉ state.kernel.clients :=
          fun member => fresh (invariant.serves.clientsOpen member)
        simp only [List.filterMap_cons, Event.action?, if_neg succeeded, List.filterMap_nil]
        exact .cons (.join joins) .nil
    | @hungUp _ slot answers _ placed _ isClient result =>
        have leaves : slot.fd ∈ state.kernel.clients :=
          ((invariant.registers.exact slot.fd).mp
            (List.mem_map_of_mem placed.mem)).resolve_left isClient
        have silent : Event.action? (.received slot.fd answers.recv []) = none := by
          rcases result with result | result <;> rw [result] <;> rfl
        simp only [List.filterMap_cons, silent, List.filterMap_nil]
        exact .cons (.leave leaves) .nil
    | @message _ slot answers received _ _ _ _ result nonempty =>
        have posts : Event.action? (.received slot.fd answers.recv
            (messageSends state slot.fd received answers.send)) =
            some (.post slot.fd received
              ((messageSends state slot.fd received answers.send).map SendCall.addressed)) := by
          obtain ⟨first, rest, rfl⟩ := List.exists_cons_of_ne_nil nonempty
          rw [result]
          rfl
        simp only [List.filterMap_cons, posts, List.filterMap_nil]
        exact .cons (.post (fanout invariant _ _ _)) .nil

/-- The payloads passed to `send` for `client`, in order. -/
def sentTo (client : Int) (trace : List Event) : List (List Byte) :=
  trace.flatMap fun
    | .received _ _ sends => (sends.filter fun call => call.fd = client).map SendCall.payload
    | _ => []

def receivedFromOthers (client : Int) (trace : List Event) : List (List Byte) :=
  trace.flatMap fun
    | .received fd (.bytes received) _ => if fd = client ∨ received = [] then [] else [received]
    | _ => []

def SendCall.blank (call : SendCall) : SendCall := { call with result := 0 }

def Event.addressing : Event → Event
  | .received fd result sends => .received fd result (sends.map SendCall.blank)
  | event => event

/-- A send goes to a client other than the sender, with all that `recv` returned. -/
structure SendCall.Relays (call : SendCall) (listener senderFd : Int) (result : RecvResult) :
    Prop where
  notListener : call.fd ≠ listener
  notSender : call.fd ≠ senderFd
  returned : result = .bytes call.payload
  whole : call.length = call.payload.length
  nonempty : 1 ≤ call.payload.length
  bounded : call.payload.length ≤ bufferSize

theorem broadcast_fd {listener senderFd : Int} {payload : List Byte} {results : Nat → Int}
    {j : Nat} {slots : List PollFd} {call : SendCall}
    (member : call ∈ broadcast listener senderFd payload results j slots) :
    call.fd ≠ listener ∧ call.fd ≠ senderFd := by
  have address : call.fd ∈ ((broadcast listener senderFd payload results j slots).map
      SendCall.addressed).map Prod.fst :=
    List.mem_map_of_mem (f := Prod.fst) (List.mem_map_of_mem member)
  rw [broadcast_fst] at address
  simpa using (List.mem_filter.mp address).2

theorem Outcome.relays {state final : State} {input : Input} {events : List Event}
    (outcome : Outcome state input final events) {fd : Int} {result : RecvResult}
    {sends : List SendCall} (received : .received fd result sends ∈ events) :
    ∀ call ∈ sends, SendCall.Relays call state.listener fd result := by
  cases outcome with
  | pollFailed => simp at received
  | polled => simp at received
  | passEnded => simp at received
  | idle => simp at received
  | acceptFailed => simp at received
  | accepted => simp at received
  | hungUp =>
      obtain ⟨-, -, rfl⟩ : fd = _ ∧ result = _ ∧ sends = [] := by simpa using received
      simp
  | message _ _ _ _ returned nonempty bounded =>
      obtain ⟨rfl, rfl, rfl⟩ : fd = _ ∧ result = _ ∧ sends = _ := by simpa using received
      intro call member
      obtain ⟨payload, whole⟩ := broadcast_payload member
      obtain ⟨notListener, notSender⟩ := broadcast_fd member
      refine ⟨notListener, notSender, payload.symm ▸ returned, payload.symm ▸ whole, ?_, ?_⟩
      · rw [payload]
        exact List.length_pos_of_ne_nil nonempty
      · rw [payload]
        exact bounded

theorem actions_cons (event : Event) (rest : List Event) :
    actions (event :: rest) = event.action?.toList ++ actions rest := by
  cases action : event.action? <;> simp [actions, action]

theorem receivedFromOthers_eq (client : Int) (trace : List Event) :
    receivedFromOthers client trace = Room.heardBy client (actions trace) := by
  induction trace with
  | nil => rfl
  | cons event rest ih =>
      rw [actions_cons, Room.heardBy_append, ← ih, receivedFromOthers, List.flatMap_cons]
      congr 1
      cases event with
      | polled => rfl
      | accepted result =>
          by_cases failed : result = -1 <;> simp [Event.action?, Room.heardBy, failed]
      | stored => rfl
      | closed => rfl
      | received fd result sends =>
          cases result with
          | error => rfl
          | bytes received =>
              cases received with
              | nil => simp [Event.action?]
              | cons first bytes =>
                  by_cases same : fd = client <;> simp [Event.action?, Room.heardBy, same]

theorem sentTo_eq (client : Int) (trace : List Event)
    (relays : ∀ fd result sends, .received fd result sends ∈ trace →
      ∀ call ∈ sends, result = .bytes call.payload ∧ 1 ≤ call.payload.length) :
    sentTo client trace = Room.addressedTo client (actions trace) := by
  induction trace with
  | nil => rfl
  | cons event rest ih =>
      have relaysRest := fun fd result sends member => relays fd result sends (.tail _ member)
      rw [actions_cons, Room.addressedTo_append, ← ih relaysRest, sentTo, List.flatMap_cons]
      congr 1
      cases event with
      | polled => rfl
      | accepted result =>
          by_cases failed : result = -1 <;> simp [Event.action?, Room.addressedTo, failed]
      | stored => rfl
      | closed => rfl
      | received fd result sends =>
          have here := relays fd result sends (.head _)
          have silent : result = .error ∨ result = .bytes [] → sends = [] := by
            intro returned
            rw [List.eq_nil_iff_forall_not_mem]
            intro call member
            obtain ⟨same, nonempty⟩ := here call member
            rcases returned with rfl | rfl
            · cases same
            · simp [← RecvResult.bytes.inj same] at nonempty
          cases result with
          | error =>
              rw [silent (.inl rfl)]
              rfl
          | bytes received =>
              cases received with
              | nil =>
                  rw [silent (.inr rfl)]
                  rfl
              | cons first bytes =>
                  simp only [Event.action?, Room.addressedTo, Option.toList_some,
                    List.flatMap_cons, List.flatMap_nil, List.append_nil, List.filter_map,
                    List.map_map]
                  rfl

theorem sentTo_window {steps : List (State × Input)} {final : State}
    (run : telnetServerWithPolling.Run steps final) (before window after : List Event)
    (split : telnetServerWithPolling.trace steps = before ++ (window ++ after)) (client : Int) :
    sentTo client window = Room.addressedTo client (actions window) := by
  apply sentTo_eq
  intro fd result sends received call member
  have inTrace : .received fd result sends ∈ telnetServerWithPolling.trace steps := by
    rw [split]
    exact List.mem_append_right _ (List.mem_append_left _ received)
  obtain ⟨⟨state, input⟩, taken, emitted⟩ := List.mem_flatMap.mp inTrace
  obtain ⟨_, _, stepped⟩ := run_step run taken
  have relays := stepped.relays emitted call member
  exact ⟨relays.returned, relays.nonempty⟩

theorem mem_actions_leave {client : Int} {window : List Event} :
    .leave client ∈ actions window ↔ .closed client ∈ window := by
  simp only [actions, List.mem_filterMap]
  constructor
  · rintro ⟨event, member, action⟩
    unfold Event.action? at action
    split at action
    · split at action <;> cases action
    · cases action
      exact member
    · cases action
    · cases action
  · intro member
    exact ⟨_, member, rfl⟩

theorem mem_actions_join {client : Int} {window : List Event}
    (joins : .join client ∈ actions window) : .accepted client ∈ window := by
  obtain ⟨event, member, action⟩ := List.mem_filterMap.mp joins
  unfold Event.action? at action
  split at action
  · split at action
    · cases action
    · cases action
      exact member
  · cases action
  · cases action
  · cases action

section Sessions

variable {steps : List (State × Input)} {final : State} {before window after : List Event}
  {client : Int}

/-- Between its registration and its removal a client is sent the payloads
received from the others. -/
theorem sentTo_session (run : telnetServerWithPolling.Run steps final)
    (split : telnetServerWithPolling.trace steps = before ++ .accepted client :: (window ++ after))
    (succeeded : client ≠ -1) (stays : .closed client ∉ window) :
    sentTo client window = receivedFromOthers client window := by
  have history := run_history run
  rw [split, actions, List.filterMap_append, List.filterMap_cons] at history
  simp only [Event.action?, if_neg succeeded, List.filterMap_append] at history
  rw [sentTo_window run (before ++ [.accepted client]) window after (by simpa using split),
    receivedFromOthers_eq]
  exact history.session fun leaves => stays (mem_actions_leave.mp leaves)

theorem sentTo_removed (run : telnetServerWithPolling.Run steps final)
    (split : telnetServerWithPolling.trace steps = before ++ .closed client :: (window ++ after))
    (staysOut : .accepted client ∉ window) : sentTo client window = [] := by
  have history := run_history run
  rw [split, actions, List.filterMap_append, List.filterMap_cons] at history
  simp only [Event.action?, List.filterMap_append] at history
  rw [sentTo_window run (before ++ [.closed client]) window after (by simpa using split)]
  exact history.absent fun joins => staysOut (mem_actions_join joins)

theorem sentTo_unregistered (run : telnetServerWithPolling.Run steps final)
    (split : telnetServerWithPolling.trace steps = window ++ after)
    (staysOut : .accepted client ∉ window) : sentTo client window = [] := by
  have history := run_history run
  rw [split, actions, List.filterMap_append] at history
  obtain ⟨_, during, _⟩ := history.split
  rw [sentTo_window run [] window after split]
  exact (during.outsider_hears_nothing (Finset.notMem_empty _)
    fun joins => staysOut (mem_actions_join joins)).2

end Sessions

theorem broadcast_blank (listener senderFd : Int) (payload : List Byte) (left right : Nat → Int)
    (j : Nat) (slots : List PollFd) :
    (broadcast listener senderFd payload left j slots).map SendCall.blank =
      (broadcast listener senderFd payload right j slots).map SendCall.blank := by
  induction slots generalizing j with
  | nil => rfl
  | cons slot rest ih =>
      unfold broadcast
      split
      · rw [List.map_cons, List.map_cons, ih]
        rfl
      · exact ih (j + 1)

/-- The same state is reached, and the same calls are made, whatever they return. -/
def Alike {Reached : Type} (left right : Reached × List Event) : Prop :=
  left.1 = right.1 ∧ left.2.map Event.addressing = right.2.map Event.addressing

theorem recvTurn_alike (state : State) (i : Nat) (slot : PollFd) (answers : Answers)
    (results : Nat → Int) :
    Alike (recvTurn state i slot { answers with send := results })
      (recvTurn state i slot answers) := by
  unfold recvTurn
  dsimp only
  split
  · exact ⟨rfl, rfl⟩
  · refine ⟨rfl, ?_⟩
    simp only [List.map_cons, List.map_nil, Event.addressing]
    rw [broadcast_blank]

theorem handleSlot_alike (state : State) (i : Nat) (slot : PollFd) (answers : Answers)
    (results : Nat → Int) :
    Alike (handleSlot state i slot { answers with send := results })
      (handleSlot state i slot answers) := by
  unfold handleSlot
  split
  · split
    · exact ⟨rfl, rfl⟩
    · exact recvTurn_alike state i slot answers results
  · exact ⟨rfl, rfl⟩

theorem turn_alike (state : State) (i : Nat) (answers : Answers) (results : Nat → Int) :
    Alike (turn state i { answers with send := results }) (turn state i answers) := by
  unfold turn
  split
  · cases state.table.pollFileDescriptors[i]? with
    | none => exact ⟨rfl, rfl⟩
    | some slot =>
        obtain ⟨sameState, sameEvents⟩ := handleSlot_alike state i slot answers results
        exact ⟨by simp only [sameState], sameEvents⟩
  · exact ⟨rfl, rfl⟩

/-- What the sends return changes neither the state nor any call of the turn. -/
theorem step_alike (state : State) (answers : Answers) (results : Nat → Int) :
    Alike (telnetServerWithPolling.step state (.turn { answers with send := results }))
      (telnetServerWithPolling.step state (.turn answers)) := by
  cases pc : state.pc with
  | polling => simp [telnetServerWithPolling, step, pc, Alike]
  | exited => simp [telnetServerWithPolling, step, pc, Alike]
  | scanning i =>
      simp only [telnetServerWithPolling, step, pc]
      exact turn_alike state i answers results

/-- Clients 4 and 5 connect, then 4 says two bytes. -/
def shortChat : List Input :=
  [pollReports [3], turnWith 4 .error, turnWith (-1) .error, turnWith (-1) .error] ++
  [pollReports [3], turnWith 5 .error, turnWith (-1) .error, turnWith (-1) .error,
    turnWith (-1) .error] ++
  [pollReports [4], turnWith (-1) .error, turnWith (-1) (.bytes [104, 105])]

end CBasics.PollServer
