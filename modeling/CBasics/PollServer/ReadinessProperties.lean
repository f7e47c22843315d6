import CBasics.PollServer.RegistryProperties

/-! Which descriptors a pass hands to `recv`. Slots not yet visited are as the
last `poll` returned them, except that an accepted client takes over the
`revents` that its slot happened to hold. -/

set_option autoImplicit false

namespace CBasics.PollServer

open Library

theorem Table.at_iff {table : Table} {i : Nat} {slot : PollFd} :
    table.At i slot ↔ table.registered[i]? = some slot := by
  constructor
  · intro placed
    exact (getElem?_used placed.inUse).trans placed.found
  · intro found
    have inUse : i < table.fdCount := by
      have short := (List.getElem?_eq_some_iff.mp found).1
      simp only [registered, used, List.length_take] at short
      omega
    exact ⟨inUse, (getElem?_used inUse).symm.trans found⟩

/-- After `del_pfds` a slot is as it was, or is slot `i` with the last one. -/
theorem Table.At.of_delPfds {table : Table} {i k : Nat} {slot : PollFd}
    (placed : (delPfds i table).At k slot) (inUse : i < table.fdCount)
    (fits : table.fdCount ≤ table.pollFileDescriptors.length) :
    k ≠ i ∧ table.At k slot ∨
      k = i ∧ i < table.fdCount - 1 ∧ table.At (table.fdCount - 1) slot := by
  obtain ⟨below, found⟩ := placed
  have short : k < table.fdCount - 1 := below
  by_cases moved : k = i
  · subst moved
    refine .inr ⟨rfl, short, by omega, ?_⟩
    change (moveLast table.pollFileDescriptors k table.fdCount)[k]? = some slot at found
    unfold moveLast at found
    split at found
    · rename_i last lastFound
      have same : last = slot := by
        rw [List.getElem?_set] at found
        split at found
        · split at found
          · exact Option.some.inj found
          · cases found
        · contradiction
      exact same ▸ lastFound
    · rename_i lastMissing
      have missing := List.getElem?_eq_none_iff.mp lastMissing
      omega
  · refine .inl ⟨moved, by omega, ?_⟩
    exact (getElem?_moveLast_of_ne (Ne.symm moved)).symm.trans found

theorem Table.At.in_delPfds {table : Table} {i k : Nat} {slot : PollFd} (placed : table.At k slot)
    (other : k ≠ i) (notLast : k ≠ table.fdCount - 1) : (delPfds i table).At k slot where
  inUse := by
    have below := placed.inUse
    show k < table.fdCount - 1
    omega
  found := (getElem?_moveLast_of_ne other.symm).trans placed.found

namespace Table.Registers

variable {table : Table} {listener : Int} {clients : Finset Int} {i k : Nat}
  {slot other : PollFd}

/-- A descriptor is registered in one slot only. -/
theorem at_eq (registers : table.Registers listener clients) (placed : table.At i slot)
    (placedOther : table.At k other) (same : slot.fd = other.fd) : i = k := by
  have here : (table.registered.map PollFd.fd)[i]? = some slot.fd := by
    rw [List.getElem?_map, at_iff.mp placed]
    rfl
  have there : (table.registered.map PollFd.fd)[k]? = some slot.fd := by
    rw [List.getElem?_map, at_iff.mp placedOther, same]
    rfl
  obtain ⟨inside, equal⟩ := List.getElem?_eq_some_iff.mp here
  obtain ⟨insideOther, equalOther⟩ := List.getElem?_eq_some_iff.mp there
  exact (List.Nodup.getElem_inj_iff registers.distinct).mp (equal.trans equalOther.symm)

theorem index_zero (registers : table.Registers listener clients) (placed : table.At i slot)
    (isListener : slot.fd = listener) : i = 0 := by
  have first := registers.listenerFirst
  cases found : table.pollFileDescriptors[0]? with
  | none => simp [found] at first
  | some start =>
      rw [found] at first
      exact registers.at_eq placed ⟨registers.positive, found⟩
        (isListener.trans (Option.some.inj first).symm)

theorem length_registered (registers : table.Registers listener clients) :
    table.registered.length = table.fdCount := by
  refine length_used ?_
  rw [registers.allocated]
  exact registers.bounded

/-- The slots after `add_to_pfds`: those before, and one for the new descriptor. -/
theorem at_addToPfds (registers : table.Registers listener clients) (garbage : Nat → PollFd)
    (newFd : Int) :
    (PollServer.addToPfds garbage newFd table).At k slot ↔
      table.At k slot ∨
        k = table.fdCount ∧ (PollServer.addToPfds garbage newFd table).At k slot ∧
          slot.fd = newFd := by
  obtain ⟨old, appended⟩ := registers.registered_addToPfds garbage newFd
  have count := registers.length_registered
  rw [at_iff, at_iff, appended]
  cases Nat.lt_or_ge k table.registered.length with
  | inl before =>
      have notLast : ¬ k = table.fdCount := by omega
      rw [List.getElem?_append_left before]
      simp [notLast]
  | inr behind =>
      have nothing : table.registered[k]? = none := List.getElem?_eq_none behind
      rw [List.getElem?_append_right behind, nothing]
      constructor
      · intro found
        obtain ⟨inside, same⟩ := List.getElem?_eq_some_iff.mp found
        simp only [List.length_singleton] at inside
        refine .inr ⟨by omega, found, ?_⟩
        rw [← same, List.getElem_singleton]
        rfl
      · rintro (missing | ⟨_, found, _⟩)
        · cases missing
        · exact found

end Table.Registers

/-- During a pass at slot `i`: unvisited slots that were registered at the poll
are as it returned them, and later ones belong to descriptors it did not see. -/
structure Pass (state : State) (i : Nat) : Prop where
  ahead : ∀ k slot, i ≤ k → k < state.polled.length → state.table.At k slot →
    state.polled[k]? = some slot
  newcomer : ∀ k slot, state.polled.length ≤ k → state.table.At k slot →
    slot.fd ∉ state.polled.map PollFd.fd ∧ slot.fd ≠ state.listener
  start : i = 0 → state.polled.length = state.table.fdCount ∧
    ∀ slot ∈ state.polled, slot.fd ∈ state.kernel.openFds

theorem Pass.mem_polled {state : State} {i k : Nat} {slot : PollFd} (pass : Pass state i)
    (behind : i ≤ k) (seen : k < state.polled.length) (placed : state.table.At k slot) :
    slot ∈ state.polled :=
  List.mem_of_getElem? (pass.ahead k slot behind seen placed)

theorem Pass.polled {state : State} (invariant : Invariant state) (readiness : Int → BitVec 16) :
    Pass (pollRound state readiness) 0 := by
  have after := invariant.pollRound readiness
  have lengths : (pollRound state readiness).polled.length =
      (pollRound state readiness).table.fdCount := length_used after.fits
  refine ⟨?_, ?_, ?_⟩
  · intro k slot _ _ placed
    exact Table.at_iff.mp placed
  · intro k slot beyond placed
    have := placed.inUse
    omega
  · intro _
    refine ⟨lengths, ?_⟩
    intro slot member
    exact after.serves.served_open
      ((after.registers.exact slot.fd).mp (List.mem_map_of_mem member))

theorem Pass.accepted {state : State} (invariant : Invariant state) (pass : Pass state 0)
    {garbage : Nat → PollFd} {newFd : Int} (fresh : newFd ∉ state.kernel.openFds) :
    Pass
      { state with
        pc := .scanning 1
        table := addToPfds garbage newFd state.table
        kernel := state.kernel.accept newFd } 1 := by
  obtain ⟨lengths, polledOpen⟩ := pass.start rfl
  refine ⟨?_, ?_, by simp⟩
  · intro k slot _ below placed
    rcases (invariant.registers.at_addToPfds garbage newFd).mp placed with before | ⟨last, _⟩
    · exact pass.ahead k slot (Nat.zero_le k) below before
    · exact absurd below (by simp [last, lengths])
  · intro k slot beyond placed
    rcases (invariant.registers.at_addToPfds garbage newFd).mp placed with before | ⟨_, _, rfl⟩
    · exact absurd before.inUse (by rw [← lengths]; exact Nat.not_lt_of_le beyond)
    · have notListener : slot.fd ≠ state.listener :=
        fun same => fresh (same ▸ invariant.serves.listenerOpen)
      refine ⟨?_, notListener⟩
      intro member
      obtain ⟨other, polled, same⟩ := List.mem_map.mp member
      have isOpen := polledOpen other polled
      rw [same] at isOpen
      exact fresh isOpen

theorem Pass.hungUp {state : State} (invariant : Invariant state) {i : Nat} (pass : Pass state i)
    {slot : PollFd} (placed : state.table.At i slot) (buffer : List Byte) :
    Pass
      { state with
        pc := .scanning (i + 1)
        buffer := buffer
        table := delPfds i state.table
        kernel := state.kernel.close slot.fd } (i + 1) := by
  refine ⟨?_, ?_, by simp⟩
  · intro k other above below here
    rcases here.of_delPfds placed.inUse invariant.fits with ⟨_, before⟩ | ⟨same, _⟩
    · exact pass.ahead k other (by omega) below before
    · omega
  · intro k other beyond here
    rcases here.of_delPfds placed.inUse invariant.fits with ⟨_, before⟩ | ⟨same, short, before⟩
    · exact pass.newcomer k other beyond before
    · exact pass.newcomer _ other (Nat.le_trans beyond (by omega)) before

theorem Pass.skip {state final : State} {i : Nat} (pass : Pass state i)
    (table : final.table = state.table) (polled : final.polled = state.polled)
    (listener : final.listener = state.listener) : Pass final (i + 1) := by
  refine ⟨?_, ?_, by simp⟩
  · rw [table, polled]
    exact fun k slot above => pass.ahead k slot (by omega)
  · rw [table, polled, listener]
    exact pass.newcomer

theorem Pass.next {state final : State} {input : Input} {events : List Event}
    (invariant : Invariant state) (outcome : Outcome state input final events)
    (pass : ∀ i, state.pc = .scanning i → Pass state i) {j : Nat}
    (reached : final.pc = .scanning j) : Pass final j := by
  cases outcome with
  | pollFailed => cases reached
  | polled =>
      cases reached
      exact .polled invariant _
  | passEnded => cases reached
  | idle scanning =>
      cases reached
      exact (pass _ scanning).skip rfl rfl rfl
  | acceptFailed scanning =>
      cases reached
      exact (pass _ scanning).skip rfl rfl rfl
  | accepted scanning placed _ isListener fresh =>
      cases reached
      obtain rfl := invariant.registers.index_zero placed isListener
      exact (pass _ scanning).accepted invariant fresh
  | hungUp scanning placed =>
      cases reached
      exact (pass _ scanning).hungUp invariant placed _
  | message scanning =>
      cases reached
      exact (pass _ scanning).skip rfl rfl rfl

theorem run_pass {steps : List (State × Input)} {state : State}
    (run : telnetServerWithPolling.Run steps state) {i : Nat} (scanning : state.pc = .scanning i) :
    Pass state i := by
  have both := run.invariant
    (fun state => Invariant state ∧ ∀ i, state.pc = .scanning i → Pass state i) ?_ ?_
  · exact both.2 i scanning
  · intro state initial
    refine ⟨.initial initial, ?_⟩
    obtain ⟨_, _, _, _, _, _, _, rfl⟩ := initial
    intro i scanning
    cases scanning
  · rintro state input ⟨invariant, pass⟩ admitted
    have stepped := outcome invariant.fits admitted
    exact ⟨invariant.outcome stepped admitted,
      fun _ reached => .next invariant stepped pass reached⟩

/-- `fd` is a client that the round's poll was asked about and reported. -/
def Anticipated (state : State) (fd : Int) : Prop :=
  fd ≠ state.listener ∧ ∃ slot ∈ state.polled, slot.fd = fd ∧ slot.ready

instance (state : State) (fd : Int) : Decidable (Anticipated state fd) :=
  inferInstanceAs (Decidable (_ ∧ ∃ slot ∈ _, _))

/-- The pass has come to a slot that was filled after the round's poll, and the
`revents` left in its memory have the input bit. -/
def StaleReady (state : State) : Prop :=
  ∃ i slot, state.pc = .scanning i ∧ state.table.At i slot ∧ state.polled.length ≤ i ∧ slot.ready

instance (state : State) : Decidable (StaleReady state) :=
  decidable_of_iff
    (∃ i ∈ List.range state.table.fdCount, state.pc = .scanning i ∧ state.polled.length ≤ i ∧
      ∃ slot ∈ state.table.registered[i]?.toList, slot.ready) (by
    constructor
    · rintro ⟨i, -, scanning, beyond, slot, found, ready⟩
      exact ⟨i, slot, scanning, Table.at_iff.mpr (Option.mem_toList.mp found), beyond, ready⟩
    · rintro ⟨i, slot, scanning, placed, beyond, ready⟩
      exact ⟨i, List.mem_range.mpr placed.inUse, scanning, beyond, slot,
        Option.mem_toList.mpr (Table.at_iff.mp placed), ready⟩)

theorem Outcome.visits_of_received {state final : State} {input : Input} {events : List Event}
    (outcome : Outcome state input final events) {fd : Int} {result : RecvResult}
    {sends : List SendCall} (received : .received fd result sends ∈ events) :
    ∃ i slot, state.pc = .scanning i ∧ state.table.At i slot ∧ slot.ready ∧
      slot.fd ≠ state.listener ∧ fd = slot.fd := by
  cases outcome with
  | pollFailed => simp at received
  | polled => simp at received
  | passEnded => simp at received
  | idle => simp at received
  | acceptFailed => simp at received
  | accepted => simp at received
  | hungUp scanning placed ready isClient =>
      obtain ⟨same, -, -⟩ : fd = _ ∧ result = _ ∧ sends = _ := by simpa using received
      exact ⟨_, _, scanning, placed, ready, isClient, same⟩
  | message scanning placed ready isClient =>
      obtain ⟨same, -, -⟩ : fd = _ ∧ result = _ ∧ sends = _ := by simpa using received
      exact ⟨_, _, scanning, placed, ready, isClient, same⟩

theorem Outcome.received_of_visits {state final : State} {input : Input} {events : List Event}
    (outcome : Outcome state input final events) {i : Nat} {slot : PollFd}
    (scanning : state.pc = .scanning i) (placed : state.table.At i slot) (ready : slot.ready)
    (isClient : slot.fd ≠ state.listener) :
    ∃ result sends, .received slot.fd result sends ∈ events := by
  have same : ∀ {j other}, state.pc = .scanning j → state.table.At j other → other = slot := by
    intro j other there placedThere
    cases scanning.symm.trans there
    exact Option.some.inj (placedThere.found.symm.trans placed.found)
  cases outcome with
  | pollFailed polling => rw [scanning] at polling; cases polling
  | polled polling => rw [scanning] at polling; cases polling
  | passEnded there ended =>
      cases scanning.symm.trans there
      exact absurd placed.inUse (Nat.not_lt_of_le ended)
  | idle there placedThere notReady => exact absurd (same there placedThere ▸ ready) notReady
  | acceptFailed there placedThere _ isListener =>
      exact absurd (same there placedThere ▸ isListener) isClient
  | accepted there placedThere _ isListener =>
      exact absurd (same there placedThere ▸ isListener) isClient
  | hungUp there placedThere =>
      obtain rfl := same there placedThere
      exact ⟨_, _, List.mem_cons_self⟩
  | message there placedThere =>
      obtain rfl := same there placedThere
      exact ⟨_, _, List.mem_cons_self⟩

/-- Every `recv` of a run is on a client that its round's poll reported, if and
only if no pass comes to a newly filled slot with a leftover input bit. -/
theorem recv_anticipated_iff {steps : List (State × Input)} {final : State}
    (run : telnetServerWithPolling.Run steps final) :
    (∀ entry ∈ steps, ∀ fd result sends,
        .received fd result sends ∈ telnetServerWithPolling.emits entry.1 entry.2 →
        Anticipated entry.1 fd) ↔
      ∀ entry ∈ steps, ¬ StaleReady entry.1 := by
  constructor
  · rintro anticipated ⟨state, input⟩ member ⟨i, slot, scanning, placed, beyond, ready⟩
    obtain ⟨_, earlier, _⟩ := run.of_mem member
    obtain ⟨unseen, notListener⟩ := (run_pass earlier scanning).newcomer i slot beyond placed
    obtain ⟨_, _, stepped⟩ := run_step run member
    obtain ⟨result, sends, received⟩ := stepped.received_of_visits scanning placed ready notListener
    obtain ⟨_, seen, polled, same, _⟩ := anticipated _ member _ _ _ received
    exact unseen (same ▸ List.mem_map_of_mem polled)
  · rintro fresh ⟨state, input⟩ member fd result sends received
    obtain ⟨_, earlier, _⟩ := run.of_mem member
    obtain ⟨_, _, stepped⟩ := run_step run member
    obtain ⟨i, slot, scanning, placed, ready, isClient, rfl⟩ := stepped.visits_of_received received
    have seen : i < state.polled.length := by
      by_contra beyond
      exact fresh _ member ⟨i, slot, scanning, placed, Nat.le_of_not_lt beyond, ready⟩
    have polled := (run_pass earlier scanning).mem_polled (Nat.le_refl i) seen placed
    exact ⟨isClient, slot, polled, rfl, ready⟩

/-- Clients 4 and 5 connect, 4 hangs up, and in the next round 5 and the listener
are ready; the slot that the new client gets still holds a copy of 5. -/
def recycledSlot : List Input :=
  [pollReports [3], turnWith 4 .error, turnWith (-1) .error, turnWith (-1) .error] ++
  [pollReports [3], turnWith 5 .error, turnWith (-1) .error, turnWith (-1) .error,
    turnWith (-1) .error] ++
  [pollReports [4], turnWith (-1) .error, turnWith (-1) (.bytes []), turnWith (-1) .error] ++
  [pollReports [3, 5], turnWith 4 .error]

theorem recv_anticipated_before :
    Anticipated (telnetServerWithPolling.finish freshServer recycledSlot) 5 := by
  have last : (telnetServerWithPolling.finish freshServer recycledSlot,
      turnWith (-1) (.bytes [104])) ∈ telnetServerWithPolling.follow freshServer
        (recycledSlot ++ [turnWith (-1) (.bytes [104])]) := by
    simp [System.follow_append]
  exact (recv_anticipated_iff (freshServer_run _ (by decide))).mpr (by decide) _ last 5
    (.bytes [104]) [⟨4, [104], 1, 1⟩] (by decide)

/-- The next turn calls `recv` on the client that just connected. -/
theorem recv_not_anticipated :
    let inputs := recycledSlot ++ [turnWith (-1) (.bytes [104]), turnWith (-1) (.bytes [105])]
    telnetServerWithPolling.Run (telnetServerWithPolling.follow freshServer inputs)
        (telnetServerWithPolling.finish freshServer inputs) ∧
      ¬ ∀ entry ∈ telnetServerWithPolling.follow freshServer inputs, ∀ fd result sends,
        .received fd result sends ∈ telnetServerWithPolling.emits entry.1 entry.2 →
        Anticipated entry.1 fd := by
  refine ⟨freshServer_run _ (by decide), fun anticipated => ?_⟩
  have last : (telnetServerWithPolling.finish freshServer
        (recycledSlot ++ [turnWith (-1) (.bytes [104])]),
      turnWith (-1) (.bytes [105])) ∈ telnetServerWithPolling.follow freshServer
        (recycledSlot ++ [turnWith (-1) (.bytes [104]), turnWith (-1) (.bytes [105])]) := by
    simp [System.follow_append, System.finish_append]
  have silent := anticipated _ last 4 (.bytes [105]) [⟨5, [105], 1, 1⟩] (by decide)
  exact absurd silent (by decide)

end CBasics.PollServer
