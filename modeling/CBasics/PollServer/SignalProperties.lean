import CBasics.Library.Killable
import CBasics.PollServer.BroadcastProperties
import CBasics.PollServer.ServiceProperties

/-! The broadcast in a process that `SIGPIPE` may end. The server looks at what
`send` returns and goes on, but it neither handles the signal nor asks for
`MSG_NOSIGNAL`, so the first send on a broken connection is the last thing it
does. -/

set_option autoImplicit false

namespace CBasics.PollServer

open Library

/-- What has happened of an event when a send of it raises `SIGPIPE`. -/
def Event.cutOff (broken : Int → Bool) : Event → Option Event
  | .received fd result sends =>
      if SendCall.Raises broken sends then
        some (.received fd result (SendCall.made broken sends))
      else none
  | _ => none

/-- The server with the connections that are broken at each step. -/
def mortalServer : System (Option State) (Input × (Int → Bool)) Event :=
  telnetServerWithPolling.killable Event.cutOff

instance (reached : Option State) (entry : Input × (Int → Bool)) :
    Decidable (mortalServer.admits reached entry) :=
  inferInstanceAs (Decidable ((telnetServerWithPolling.killable Event.cutOff).admits _ _))

abbrev MortalSteps := List (Option State × Input × (Int → Bool))

/-- A message has been received, and one of the connections that it goes to is
broken. -/
def RaisesSigpipe (state : State) : Input → (Int → Bool) → Prop
  | .poll _, _ => False
  | .turn answers, broken =>
      ∃ i slot, state.pc = .scanning i ∧ state.table.At i slot ∧ slot.ready ∧
        slot.fd ≠ state.listener ∧ 1 ≤ answers.recv.count ∧
        ∃ other ∈ state.kernel.clients, other ≠ slot.fd ∧ broken other = true

instance (state : State) (broken : Int → Bool) :
    (input : Input) → Decidable (RaisesSigpipe state input broken)
  | .poll _ => inferInstanceAs (Decidable False)
  | .turn answers =>
      decidable_of_iff
        (∃ i ∈ List.range state.table.fdCount, state.pc = .scanning i ∧
          ∃ slot ∈ state.table.registered[i]?.toList, slot.ready ∧ slot.fd ≠ state.listener ∧
            1 ≤ answers.recv.count ∧
            ∃ other ∈ state.kernel.clients, other ≠ slot.fd ∧ broken other = true) (by
        constructor
        · rintro ⟨i, -, scanning, visited⟩
          obtain ⟨slot, placed, turn⟩ := Table.exists_at_iff.mpr visited
          exact ⟨i, slot, scanning, placed, turn⟩
        · rintro ⟨i, slot, scanning, placed, turn⟩
          exact ⟨i, List.mem_range.mpr placed.inUse, scanning,
            Table.exists_at_iff.mp ⟨slot, placed, turn⟩⟩)

theorem raises_messageSends_iff {state : State} (invariant : Invariant state) (senderFd : Int)
    (received : List Byte) (results : Nat → Int) (broken : Int → Bool) :
    SendCall.Raises broken (messageSends state senderFd received results) ↔
      ∃ other ∈ state.kernel.clients, other ≠ senderFd ∧ broken other = true := by
  have told := (fanout invariant senderFd received results).exact
  simp only [SendCall.map_addressed_fst] at told
  constructor
  · rintro ⟨call, member, isBroken⟩
    obtain ⟨isClient, other⟩ := (told call.fd).mp (List.mem_map_of_mem member)
    exact ⟨call.fd, isClient, other, isBroken⟩
  · rintro ⟨other, isClient, different, isBroken⟩
    obtain ⟨call, member, rfl⟩ := List.mem_map.mp ((told other).mpr ⟨isClient, different⟩)
    exact ⟨call, member, isBroken⟩

theorem Outcome.survives_iff {state final : State} {input : Input} {events : List Event}
    (outcome : Outcome state input final events) (invariant : Invariant state)
    (broken : Int → Bool) :
    Survives (Event.cutOff broken) events ↔ ¬ RaisesSigpipe state input broken := by
  have unraised : ∀ {i : Nat} {slot : PollFd} {answers : Answers}, state.pc = .scanning i →
      state.table.At i slot → ¬ (slot.ready ∧ slot.fd ≠ state.listener ∧ 1 ≤ answers.recv.count) →
      ¬ RaisesSigpipe state (.turn answers) broken := by
    rintro i slot answers scanning placed quiet ⟨j, other, there, placedThere, ready, isClient,
      some, -⟩
    cases scanning.symm.trans there
    obtain rfl := placed.unique placedThere
    exact quiet ⟨ready, isClient, some⟩
  cases outcome with
  | pollFailed => simp [Survives, Event.cutOff, RaisesSigpipe]
  | polled => simp [Survives, Event.cutOff, RaisesSigpipe]
  | passEnded scanning ended =>
      refine iff_of_true (by simp [Survives]) ?_
      rintro ⟨j, slot, there, placed, -⟩
      cases scanning.symm.trans there
      exact absurd placed.inUse (Nat.not_lt_of_le ended)
  | idle scanning placed notReady =>
      exact iff_of_true (by simp [Survives]) (unraised scanning placed fun turn => notReady turn.1)
  | acceptFailed scanning placed ready isListener =>
      exact iff_of_true (by simp [Survives, Event.cutOff])
        (unraised scanning placed fun turn => turn.2.1 isListener)
  | accepted scanning placed ready isListener =>
      exact iff_of_true (by simp [Survives, Event.cutOff])
        (unraised scanning placed fun turn => turn.2.1 isListener)
  | hungUp scanning placed ready isClient result =>
      refine iff_of_true (by simp [Survives, Event.cutOff, SendCall.Raises])
        (unraised scanning placed fun turn => ?_)
      have nothing := turn.2.2
      rcases result with result | result <;> simp [result, RecvResult.count] at nothing
  | @message i slot answers received scanning placed ready isClient result nonempty =>
      have some : 1 ≤ answers.recv.count := by
        have := List.length_pos_of_ne_nil nonempty
        rw [result, RecvResult.count]
        omega
      have raises := raises_messageSends_iff invariant slot.fd received answers.send broken
      simp only [Survives, List.mem_singleton, forall_eq, Event.cutOff, ite_eq_right_iff,
        reduceCtorEq, imp_false, not_iff_not, raises]
      constructor
      · intro reached
        exact ⟨i, slot, scanning, placed, ready, isClient, some, reached⟩
      · rintro ⟨j, other, there, placedThere, -, -, -, reached⟩
        cases scanning.symm.trans there
        rwa [placed.unique placedThere]

theorem survives_iff_of_mem {steps : MortalSteps} {reached : Option State}
    (run : mortalServer.Run steps reached) {state : State} {entry : Input × (Int → Bool)}
    (member : (some state, entry) ∈ steps) :
    Survives (Event.cutOff entry.2) (telnetServerWithPolling.emits state entry.1) ↔
      ¬ RaisesSigpipe state entry.1 entry.2 := by
  obtain ⟨_, earlier, admitted⟩ := run.lived_of_mem member
  have invariant := run_invariant earlier
  exact (outcome invariant.fits admitted).survives_iff invariant entry.2

/-- The broadcast is exact: during its session a client is sent what the others
said, outside of it nothing; every send relays what its turn received to another
client; and a turn comes to the same state by the same calls as it would have
done if none of its sends had failed. -/
structure Exact (steps : MortalSteps) : Prop where
  session : ∀ before window after client,
    mortalServer.trace steps = before ++ .accepted client :: (window ++ after) →
    client ≠ -1 → .closed client ∉ window →
    sentTo client window = receivedFromOthers client window
  removed : ∀ before window after client,
    mortalServer.trace steps = before ++ .closed client :: (window ++ after) →
    .accepted client ∉ window → sentTo client window = []
  unregistered : ∀ window after client, mortalServer.trace steps = window ++ after →
    .accepted client ∉ window → sentTo client window = []
  relays : ∀ state entry, (some state, entry) ∈ steps → ∀ fd result sends,
    .received fd result sends ∈ mortalServer.emits (some state) entry →
    ∀ call ∈ sends, SendCall.Relays call state.listener fd result
  unaffected : ∀ state answers broken, (some state, .turn answers, broken) ∈ steps →
    ∀ results, Alike
      (mortalServer.step (some state) (.turn { answers with send := results }, fun _ => false))
      (mortalServer.step (some state) (.turn answers, broken))

theorem survives_unbroken (events : List Event) :
    Survives (Event.cutOff fun _ => false) events := by
  intro event _
  cases event <;> simp [Event.cutOff, SendCall.Raises]

/-- A turn that is not killed is alike to one whose sends succeed, and only such a turn. -/
theorem alike_iff_survives (state : State) (answers : Answers) (broken : Int → Bool)
    (results : Nat → Int) :
    Alike (mortalServer.step (some state) (.turn { answers with send := results }, fun _ => false))
        (mortalServer.step (some state) (.turn answers, broken)) ↔
      Survives (Event.cutOff broken) (telnetServerWithPolling.emits state (.turn answers)) := by
  have unbroken := survives_unbroken
    (telnetServerWithPolling.emits state (.turn { answers with send := results }))
  simp only [mortalServer, System.killable, if_pos unbroken, unbroken.cutShort_eq]
  constructor
  · intro alike
    by_contra dies
    have next := alike.1
    rw [if_neg dies] at next
    cases next
  · intro survives
    rw [if_pos survives, survives.cutShort_eq]
    obtain ⟨sameState, sameCalls⟩ := step_alike state answers results
    exact ⟨congrArg some sameState, sameCalls⟩

/-- The broadcast of a run in which no send raises the signal is exact. -/
theorem Exact.of_spared {steps : MortalSteps} {reached : Option State}
    (run : mortalServer.Run steps reached)
    (spared : ∀ entry ∈ steps, ∀ state ∈ entry.1,
      ¬ RaisesSigpipe state entry.2.1 entry.2.2) :
    Exact steps := by
  have survives : ∀ state entry, (some state, entry) ∈ steps →
      Survives (Event.cutOff entry.2) (telnetServerWithPolling.emits state entry.1) :=
    fun state entry member => (survives_iff_of_mem run member).mpr (spared _ member state rfl)
  obtain ⟨state, alive⟩ := run.alive (by
    rintro ⟨_, entry⟩ member state rfl
    exact survives state entry member)
  obtain ⟨lived, sameTrace⟩ := run.lived alive
  exact {
    session := by
      intro before window after client split succeeded stays
      exact sentTo_session lived (sameTrace.symm.trans split) succeeded stays
    removed := by
      intro before window after client split staysOut
      exact sentTo_removed lived (sameTrace.symm.trans split) staysOut
    unregistered := by
      intro window after client split staysOut
      exact sentTo_unregistered lived (sameTrace.symm.trans split) staysOut
    relays := by
      intro current entry member fd result sends received
      obtain ⟨_, earlier, admitted⟩ := run.lived_of_mem member
      have whole : mortalServer.emits (some current) entry =
          telnetServerWithPolling.emits current entry.1 := (survives _ _ member).cutShort_eq
      rw [whole] at received
      exact (outcome (run_invariant earlier).fits admitted).relays received
    unaffected := by
      intro current answers broken member results
      exact (alike_iff_survives current answers broken results).mpr (survives _ _ member) }

/-- In every run of a process that `SIGPIPE` may end, the broadcast is exact if
and only if no send of the run raises it. -/
theorem broadcast_exact_iff {steps : MortalSteps} {reached : Option State}
    (run : mortalServer.Run steps reached) :
    Exact steps ↔ ∀ entry ∈ steps, ∀ state ∈ entry.1,
      ¬ RaisesSigpipe state entry.2.1 entry.2.2 := by
  constructor
  · rintro exactly ⟨_, input, broken⟩ member state rfl
    rw [← survives_iff_of_mem run member]
    cases input with
    | poll reply => exact (survives_iff_of_mem run member).mpr id
    | turn answers =>
        exact (alike_iff_survives state answers broken answers.send).mp
          (exactly.unaffected state answers broken member answers.send)
  · exact .of_spared run

/-- A process dies only in a turn that has a message to relay. -/
theorem Outcome.eq_received_of_dies {state final : State} {input : Input} {events : List Event}
    (outcome : Outcome state input final events) {broken : Int → Bool}
    (dies : ¬ Survives (Event.cutOff broken) events) :
    ∃ fd result sends, events = [.received fd result sends] ∧ SendCall.Raises broken sends := by
  cases outcome with
  | pollFailed => exact absurd (by simp [Survives, Event.cutOff]) dies
  | polled => exact absurd (by simp [Survives, Event.cutOff]) dies
  | passEnded => exact absurd (by simp [Survives]) dies
  | idle => exact absurd (by simp [Survives]) dies
  | acceptFailed => exact absurd (by simp [Survives, Event.cutOff]) dies
  | accepted => exact absurd (by simp [Survives, Event.cutOff]) dies
  | hungUp => exact absurd (by simp [Survives, Event.cutOff, SendCall.Raises]) dies
  | message =>
      refine ⟨_, _, _, rfl, ?_⟩
      simpa [Survives, Event.cutOff] using dies

/-- A run that is killed has the trace of one that is not, but that its last event
has only the first of the sends. -/
theorem run_cut {steps : MortalSteps} {reached : Option State}
    (run : mortalServer.Run steps reached) :
    ∃ base final, telnetServerWithPolling.Run base final ∧
      (mortalServer.trace steps = telnetServerWithPolling.trace base ∨
        reached = none ∧ ∃ front fd result made sends, made <+: sends ∧
          mortalServer.trace steps = front ++ [.received fd result made] ∧
          telnetServerWithPolling.trace base = front ++ [.received fd result sends]) := by
  cases run with
  | @start reached initial =>
      cases reached with
      | none => cases initial
      | some state => exact ⟨[], state, .start initial, .inl rfl⟩
  | @step steps before entry run admitted =>
      obtain ⟨state, rfl, granted⟩ := System.killable_admits admitted
      obtain ⟨lived, same⟩ := run.lived rfl
      have front : mortalServer.trace steps = _ := same
      refine ⟨_, _, .step lived granted, ?_⟩
      rw [System.trace_concat, System.trace_concat, front]
      by_cases survives : Survives (Event.cutOff entry.2)
          (telnetServerWithPolling.emits state entry.1)
      · exact .inl (congrArg _ survives.cutShort_eq)
      · obtain ⟨fd, result, sends, emitted, raises⟩ :=
          (outcome (run_invariant lived).fits granted).eq_received_of_dies survives
        have dead : mortalServer.next (some state) entry = none := if_neg survives
        have seen : mortalServer.emits (some state) entry =
            [.received fd result (SendCall.made entry.2 sends)] := by
          refine (congrArg (cutShort (Event.cutOff entry.2)) emitted).trans ?_
          simp [cutShort, Event.cutOff, raises]
        exact .inr ⟨dead, _, fd, result, _, sends, SendCall.made_isPrefix entry.2 sends,
          congrArg _ seen, congrArg _ emitted⟩

/-- In any run a client is sent a front of what the others said in its session,
and all of it unless the process has been killed. -/
theorem sentTo_isPrefix {steps : MortalSteps} {reached : Option State}
    (run : mortalServer.Run steps reached) {before window after : List Event} {client : Int}
    (split : mortalServer.trace steps = before ++ .accepted client :: (window ++ after))
    (succeeded : client ≠ -1) (stays : .closed client ∉ window) :
    sentTo client window <+: receivedFromOthers client window ∧
      (reached ≠ none → sentTo client window = receivedFromOthers client window) := by
  obtain ⟨base, final, lived, same | ⟨dead, front, fd, result, made, sends, fewer, cut, whole⟩⟩ :=
    run_cut run
  · have exactly := sentTo_session lived (same.symm.trans split) succeeded stays
    exact ⟨exactly ▸ List.prefix_rfl, fun _ => exactly⟩
  · refine ⟨?_, fun alive => absurd dead alive⟩
    rw [cut] at split
    rcases List.eq_nil_or_concat after with rfl | ⟨middle, last, rfl⟩
    · rcases List.eq_nil_or_concat window with rfl | ⟨middle, last, rfl⟩
      · exact List.nil_prefix
      · rw [List.append_nil, List.concat_eq_append, ← List.cons_append,
          ← List.append_assoc] at split
        obtain ⟨earlier, lastEq⟩ := List.append_inj' split rfl
        rw [List.concat_eq_append, ← lastEq] at stays ⊢
        have split : telnetServerWithPolling.trace base =
            before ++ .accepted client :: ((middle ++ [.received fd result sends]) ++ []) := by
          rw [whole, earlier]
          simp
        have exactly := sentTo_session lived split succeeded (by simpa using stays)
        have heard : receivedFromOthers client (middle ++ [.received fd result made]) =
            receivedFromOthers client (middle ++ [.received fd result sends]) := by
          rw [receivedFromOthers, receivedFromOthers, List.flatMap_append, List.flatMap_append]
          cases result <;> rfl
        rw [heard, ← exactly]
        simp only [sentTo, List.flatMap_append, List.flatMap_singleton,
          List.prefix_append_right_inj]
        exact (fewer.filter _).map _
    · rw [List.concat_eq_append, ← List.append_assoc, ← List.cons_append, ← List.append_assoc]
        at split
      obtain ⟨earlier, -⟩ := List.append_inj' split rfl
      have split : telnetServerWithPolling.trace base = before ++ .accepted client ::
          (window ++ (middle ++ [.received fd result sends])) := by
        rw [whole, earlier]
        simp
      exact sentTo_session lived split succeeded stays ▸ List.prefix_rfl

theorem mortalServer_initial : mortalServer.initial (some freshServer) := freshServer_initial

def mortalSteps (inputs : List (Input × (Int → Bool))) : MortalSteps :=
  mortalServer.follow (some freshServer) inputs

theorem mortalSteps_run (inputs : List (Input × (Int → Bool)))
    (admitted : mortalServer.Admitted (some freshServer) inputs) :
    mortalServer.Run (mortalSteps inputs) (mortalServer.finish (some freshServer) inputs) :=
  .of_admitted mortalServer_initial admitted

/-- The speaker's own connection is broken; what it said reaches client 5. -/
theorem broadcast_exact_speaker :
    sentTo 5 ((mortalServer.trace (mortalSteps (brokenAt [4] shortChat))).drop 5) =
      [[104, 105]] := by
  have run := mortalSteps_run (brokenAt [4] shortChat) (by decide)
  have session := ((broadcast_exact_iff run).mpr (by decide)).session
    ((mortalServer.trace (mortalSteps (brokenAt [4] shortChat))).take 4)
    ((mortalServer.trace (mortalSteps (brokenAt [4] shortChat))).drop 5) [] 5
    (by decide) (by decide) (by decide)
  exact session.trans (by decide)

/-- Clients 4, 5 and 6 are connected; 5 goes away before it has what 4 says, and
answers it with a reset; then 4 speaks again. -/
def goneClient : List (Input × (Int → Bool)) :=
  brokenAt [] (threeClients ++
    [pollReports [4], turnWith (-1) .error, turnWith (-1) (.bytes [97]), turnWith (-1) .error,
      turnWith (-1) .error, turnWith (-1) .error]) ++
  brokenAt [5] [pollReports [4, 5], turnWith (-1) .error, turnWith (-1) (.bytes [98])]

/-- Client 6 is never sent what 4 said last. -/
theorem not_exact_gone :
    mortalServer.Run (mortalSteps goneClient)
        (mortalServer.finish (some freshServer) goneClient) ∧
      ¬ Exact (mortalSteps goneClient) := by
  refine ⟨mortalSteps_run goneClient (by decide), fun exactly => ?_⟩
  have session := exactly.session ((mortalServer.trace (mortalSteps goneClient)).take 7)
    ((mortalServer.trace (mortalSteps goneClient)).drop 8) [] 6 (by decide) (by decide) (by decide)
  exact absurd session (by decide)

end CBasics.PollServer
