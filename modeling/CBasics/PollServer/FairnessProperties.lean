import CBasics.PollServer.ServiceProperties

/-! How often a client can be left out. Whenever a turn moves a reported client
behind the loop, the client's slot index goes down; nothing ever moves it up. -/

set_option autoImplicit false

namespace CBasics.PollServer

open Library

/-- The index of the slot that registers `fd`. -/
def Table.slotOf (table : Table) (fd : Int) : Nat :=
  (table.registered.map PollFd.fd).idxOf fd

theorem Table.Registers.slotOf_eq {table : Table} {listener : Int} {clients : Finset Int}
    (registers : table.Registers listener clients) {k : Nat} {slot : PollFd}
    (placed : table.At k slot) : table.slotOf slot.fd = k := by
  have found : (table.registered.map PollFd.fd)[k]? = some slot.fd := by
    rw [List.getElem?_map, Table.at_iff.mp placed]
    rfl
  obtain ⟨inside, same⟩ := List.getElem?_eq_some_iff.mp found
  rw [slotOf, ← same]
  exact registers.distinct.idxOf_getElem k inside

theorem Table.Registers.exists_at {table : Table} {listener : Int} {clients : Finset Int}
    (registers : table.Registers listener clients) {fd : Int} (client : fd ∈ clients) :
    ∃ k slot, table.At k slot ∧ slot.fd = fd := by
  obtain ⟨slot, member, same⟩ := List.mem_map.mp ((registers.exact fd).mpr (.inr client))
  obtain ⟨k, inside, found⟩ := List.getElem_of_mem member
  exact ⟨k, slot, Table.at_iff.mpr (List.getElem?_eq_some_iff.mpr ⟨inside, found⟩), same⟩

theorem Table.At.moved_delPfds {table : Table} {i : Nat} {slot : PollFd}
    (placed : table.At (table.fdCount - 1) slot) (below : i < table.fdCount - 1)
    (fits : table.fdCount ≤ table.pollFileDescriptors.length) : (delPfds i table).At i slot where
  inUse := below
  found := by
    show (moveLast table.pollFileDescriptors i table.fdCount)[i]? = some slot
    unfold moveLast
    rw [placed.found]
    exact List.getElem?_set_self (by omega)

/-- The call of `poll` marks the slot of `fd`. -/
def Reports (fd : Int) (state : State) : Input → Prop
  | .poll (some readiness) =>
      ∃ slot ∈ (pollRound state readiness).polled, slot.fd = fd ∧ slot.ready
  | _ => False

instance (fd : Int) (state : State) : (input : Input) → Decidable (Reports fd state input)
  | .poll (some _) => inferInstanceAs (Decidable (∃ slot ∈ _, _))
  | .poll none => inferInstanceAs (Decidable False)
  | .turn _ => inferInstanceAs (Decidable False)

/-- The turn skips `fd`. -/
def Bypasses (fd : Int) (state : State) (input : Input) : Prop :=
  Skips state input ∧
    ∃ last, state.table.At (state.table.fdCount - 1) last ∧ last.fd = fd

theorem bypasses_iff {fd : Int} {state : State} {input : Input} :
    Bypasses fd state input ↔ Skips state input ∧
      ∃ last ∈ state.table.registered[state.table.fdCount - 1]?.toList, last.fd = fd := by
  rw [Bypasses, Table.exists_at_iff]

instance (fd : Int) (state : State) (input : Input) : Decidable (Bypasses fd state input) :=
  decidable_of_iff' _ bypasses_iff

def reports (fd : Int) (steps : List (State × Input)) : Nat :=
  steps.countP fun entry => Reports fd entry.1 entry.2

def bypasses (fd : Int) (steps : List (State × Input)) : Nat :=
  steps.countP fun entry => Bypasses fd entry.1 entry.2

theorem reports_append (fd : Int) (left right : List (State × Input)) :
    reports fd (left ++ right) = reports fd left + reports fd right := List.countP_append

theorem bypasses_append (fd : Int) (left right : List (State × Input)) :
    bypasses fd (left ++ right) = bypasses fd left + bypasses fd right := List.countP_append

/-- The pass has yet to come to `fd`, which its poll has reported. -/
def Owed (state : State) (fd : Int) : Prop :=
  ∃ i k slot, state.pc = .scanning i ∧ i ≤ k ∧ k < state.polled.length ∧
    state.table.At k slot ∧ slot.fd = fd ∧ slot.ready

/-- A client that was registered when the pass began. -/
structure Attended (state : State) (fd : Int) : Prop where
  invariant : Invariant state
  pass : ∀ i, state.pc = .scanning i → Pass state i
  client : fd ∈ state.kernel.clients
  known : ∀ i, state.pc = .scanning i → fd ∈ state.polled.map PollFd.fd

namespace Attended

variable {state final : State} {input : Input} {events : List Event} {fd : Int}

theorem ne_listener (attended : Attended state fd) : fd ≠ state.listener := fun same =>
  attended.invariant.serves.listenerNotClient (same ▸ attended.client)

theorem placed (attended : Attended state fd) :
    ∃ k slot, state.table.At k slot ∧ slot.fd = fd :=
  attended.invariant.registers.exists_at attended.client

/-- The slot of the client was among those of the last `poll`. -/
theorem seen (attended : Attended state fd) {i k : Nat} {slot : PollFd}
    (scanning : state.pc = .scanning i) (placed : state.table.At k slot) (same : slot.fd = fd) :
    k < state.polled.length := by
  refine Nat.lt_of_not_le fun beyond => ?_
  have newcomer := (attended.pass i scanning).newcomer k slot beyond placed
  exact newcomer.1 (same ▸ attended.known i scanning)

theorem owed_iff (attended : Attended state fd) {i k : Nat} {slot : PollFd}
    (scanning : state.pc = .scanning i) (placed : state.table.At k slot) (same : slot.fd = fd) :
    Owed state fd ↔ i ≤ k ∧ slot.ready := by
  constructor
  · rintro ⟨j, l, other, standing, behind, _, there, sameOther, ready⟩
    cases standing.symm.trans scanning
    obtain rfl := attended.invariant.registers.at_eq there placed (sameOther.trans same.symm)
    cases there.unique placed
    exact ⟨behind, ready⟩
  · rintro ⟨behind, ready⟩
    exact ⟨i, k, slot, scanning, behind, attended.seen scanning placed same, placed, same, ready⟩

/-- Where the slot of a client is after a step that does not close it. -/
theorem held (attended : Attended state fd) (outcome : Outcome state input final events)
    (isOpen : .closed fd ∉ events) {k : Nat} {slot : PollFd} (placed : state.table.At k slot)
    (same : slot.fd = fd) :
    ∃ l other, final.table.At l other ∧ other.fd = fd ∧
      (l = k ∨ state.pc = .scanning l ∧ l < k) := by
  have invariant := attended.invariant
  cases outcome with
  | pollFailed => exact ⟨k, slot, placed, same, .inl rfl⟩
  | @polled readiness =>
      have found := placed.found
      refine ⟨k, pollSlot state.kernel readiness slot, ⟨placed.inUse, ?_⟩, same, .inl rfl⟩
      rw [pollRound_slots invariant, List.getElem?_map, found]
      rfl
  | passEnded => exact ⟨k, slot, placed, same, .inl rfl⟩
  | idle => exact ⟨k, slot, placed, same, .inl rfl⟩
  | acceptFailed => exact ⟨k, slot, placed, same, .inl rfl⟩
  | accepted =>
      exact ⟨k, slot, (invariant.registers.at_addToPfds _ _).mpr (.inl placed), same, .inl rfl⟩
  | @hungUp i gone answers scanning visited =>
      have other : k ≠ i := by
        intro here
        subst here
        cases visited.unique placed
        exact isOpen (by simp [same])
      by_cases last : k = state.table.fdCount - 1
      · have inUse := visited.inUse
        have below : i < state.table.fdCount - 1 := by omega
        subst last
        exact ⟨i, slot, placed.moved_delPfds below invariant.fits, same, .inr ⟨scanning, below⟩⟩
      · exact ⟨k, slot, placed.in_delPfds other last, same, .inl rfl⟩
  | message => exact ⟨k, slot, placed, same, .inl rfl⟩

theorem next (attended : Attended state fd) (outcome : Outcome state input final events)
    (admitted : telnetServerWithPolling.admits state input) (isOpen : .closed fd ∉ events) :
    Attended final fd where
  invariant := attended.invariant.outcome outcome admitted
  pass := fun _ reached => .next attended.invariant outcome attended.pass reached
  client := by
    have client := attended.client
    cases outcome with
    | pollFailed => exact client
    | polled => exact client
    | passEnded => exact client
    | idle => exact client
    | acceptFailed => exact client
    | accepted => exact Finset.mem_insert_of_mem client
    | hungUp =>
        refine Finset.mem_erase.mpr ⟨?_, client⟩
        rintro rfl
        exact isOpen (by simp)
    | message => exact client
  known := by
    intro i reached
    cases outcome with
    | pollFailed => cases reached
    | @polled readiness =>
        have after := attended.invariant.pollRound readiness
        exact (after.registers.exact fd).mpr (.inr attended.client)
    | passEnded => cases reached
    | idle scanning => exact attended.known _ scanning
    | acceptFailed scanning => exact attended.known _ scanning
    | accepted scanning => exact attended.known _ scanning
    | hungUp scanning => exact attended.known _ scanning
    | message scanning => exact attended.known _ scanning

end Attended

theorem receives_eq_zero {fd : Int} {events : List Event}
    (silent : ∀ result sends, .received fd result sends ∉ events) : receives fd events = 0 := by
  refine List.countP_eq_zero.mpr fun event member counted => ?_
  cases event with
  | received other result sends =>
      have same : other = fd := by simpa using counted
      exact silent result sends (same ▸ member)
  | polled => cases counted
  | accepted => cases counted
  | stored => cases counted
  | closed => cases counted

open Classical in
/-- The visits that the pass owes `fd`. -/
noncomputable def due (state : State) (fd : Int) : Nat := if Owed state fd then 1 else 0

theorem due_owed {state : State} {fd : Int} (owed : Owed state fd) : due state fd = 1 := if_pos owed

theorem due_free {state : State} {fd : Int} (free : ¬ Owed state fd) : due state fd = 0 :=
  if_neg free

/-- Every report of `fd` is answered by a `recv` or a bypass or still owed, and
every bypass has moved the slot of `fd` to a smaller index. -/
structure Ledger (fd : Int) (state final : State) (steps : List (State × Input)) : Prop where
  balance : reports fd steps + due state fd =
    receives fd (telnetServerWithPolling.trace steps) + bypasses fd steps + due final fd
  slot : bypasses fd steps + final.table.slotOf fd ≤ state.table.slotOf fd

theorem Ledger.nil (fd : Int) (state : State) : Ledger fd state state [] :=
  ⟨rfl, Nat.le_of_eq (Nat.zero_add _)⟩

theorem Ledger.append {fd : Int} {state middle final : State} {left right : List (State × Input)}
    (first : Ledger fd state middle left) (second : Ledger fd middle final right) :
    Ledger fd state final (left ++ right) := by
  obtain ⟨balance, slot⟩ := first
  obtain ⟨balanceAfter, slotAfter⟩ := second
  constructor
  · rw [System.trace_append, receives_append, reports_append, bypasses_append]
    omega
  · rw [bypasses_append]
    omega

section Step

variable {state : State} {input : Input} {answers : Answers} {fd : Int}

theorem trace_single (state : State) (input : Input) :
    telnetServerWithPolling.trace [(state, input)] = telnetServerWithPolling.emits state input := by
  rw [System.trace_cons, System.trace_nil, List.append_nil]

theorem reports_turn : reports fd [(state, .turn answers)] = 0 := by
  rw [reports, List.countP_singleton]
  rfl

theorem bypasses_some (bypassed : Bypasses fd state input) :
    bypasses fd [(state, input)] = 1 := by
  rw [bypasses, List.countP_singleton]
  exact if_pos (decide_eq_true bypassed)

theorem bypasses_none (kept : ¬ Bypasses fd state input) :
    bypasses fd [(state, input)] = 0 := by
  rw [bypasses, List.countP_singleton]
  simp [kept]

theorem not_owed_of_not_scanning (standing : ∀ i, state.pc ≠ .scanning i) : ¬ Owed state fd := by
  rintro ⟨i, _, _, scanning, _⟩
  exact standing i scanning

/-- A call of `poll` reports a client and owes it a visit, or neither. -/
theorem Ledger.poll (attended : Attended state fd) {reply : Option (Int → BitVec 16)}
    (admitted : telnetServerWithPolling.admits state (.poll reply)) :
    Ledger fd state (telnetServerWithPolling.next state (.poll reply)) [(state, .poll reply)] := by
  have atTop : state.pc = .polling := admitted
  have before : due state fd = 0 := due_free (not_owed_of_not_scanning fun i => by simp [atTop])
  have kept : bypasses fd [(state, .poll reply)] = 0 := bypasses_none fun bypassed => bypassed.1
  have silent : receives fd (telnetServerWithPolling.trace [(state, .poll reply)]) = 0 := by
    rw [trace_single, emits_poll]
    rfl
  cases reply with
  | none =>
      have quiet : reports fd [(state, .poll none)] = 0 := rfl
      have after : due (telnetServerWithPolling.next state (.poll none)) fd = 0 :=
        due_free (not_owed_of_not_scanning fun i => nofun)
      refine ⟨by omega, ?_⟩
      rw [kept, Nat.zero_add]
      exact Nat.le_refl _
  | some readiness =>
      have stepped := outcome attended.invariant.fits admitted
      have next := attended.next stepped admitted (by rw [emits_poll]; simp)
      obtain ⟨k, slot, placed, same⟩ := attended.placed
      obtain ⟨l, other, there, sameThere, stays | ⟨scanning, _⟩⟩ :=
        attended.held stepped (by rw [emits_poll]; simp) placed same
      · refine ⟨?_, ?_⟩
        · have owed := next.owed_iff rfl there sameThere
          have reported : Reports fd state (.poll (some readiness)) ↔ other.ready := by
            constructor
            · rintro ⟨marked, member, sameMarked, ready⟩
              obtain ⟨m, inside, found⟩ := List.getElem_of_mem member
              have here : (pollRound state readiness).table.At m marked :=
                Table.at_iff.mpr (List.getElem?_eq_some_iff.mpr ⟨inside, found⟩)
              obtain rfl := next.invariant.registers.at_eq here there
                (sameMarked.trans sameThere.symm)
              exact here.unique there ▸ ready
            · exact fun ready => ⟨other, there.mem, sameThere, ready⟩
          by_cases ready : other.ready
          · rw [due_owed (owed.mpr ⟨Nat.zero_le l, ready⟩), silent, kept, before, reports,
              List.countP_singleton]
            exact if_pos (decide_eq_true (reported.mpr ready))
          · rw [due_free fun owes => ready (owed.mp owes).2, silent, kept, before, reports,
              List.countP_singleton]
            exact if_neg fun marked => ready (reported.mp (of_decide_eq_true marked))
        · rw [kept, ← sameThere, next.invariant.registers.slotOf_eq there, sameThere, ← same,
            attended.invariant.registers.slotOf_eq placed]
          omega
      · rw [atTop] at scanning
        cases scanning

/-- The end of a pass owes nobody anything. -/
theorem Ledger.passEnded {i : Nat} (scanning : state.pc = .scanning i)
    (done : state.table.fdCount ≤ i)
    (ended : telnetServerWithPolling.next state (.turn answers) = { state with pc := .polling })
    (silent : telnetServerWithPolling.emits state (.turn answers) = []) :
    Ledger fd state (telnetServerWithPolling.next state (.turn answers))
      [(state, .turn answers)] := by
  have before : due state fd = 0 := by
    refine due_free ?_
    rintro ⟨j, k, slot, standing, behind, _, placed, _⟩
    cases standing.symm.trans scanning
    exact absurd placed.inUse (Nat.not_lt_of_le (Nat.le_trans done behind))
  have kept : bypasses fd [(state, .turn answers)] = 0 := by
    refine bypasses_none ?_
    rintro ⟨⟨j, standing, ⟨_, slot, placed, _⟩, _⟩, _⟩
    cases standing.symm.trans scanning
    exact absurd placed.inUse (Nat.not_lt_of_le done)
  rw [ended]
  have after : due { state with pc := .polling } fd = 0 :=
    due_free (not_owed_of_not_scanning fun i => nofun)
  refine ⟨?_, ?_⟩
  · rw [reports_turn, before, trace_single, silent, kept, after]
    rfl
  · rw [kept, Nat.zero_add]

section Turn

variable {final : State} {i k : Nat} {slot : PollFd} {events : List Event}

/-- A turn that bypasses the client leaves its old index unused. -/
theorem Moved.not_bypassed (moved : Moved state answers i final events)
    (attended : Attended state fd) (scanning : state.pc = .scanning i)
    (placed : state.table.At k slot) (same : slot.fd = fd) {other : PollFd}
    (there : final.table.At k other) : ¬ Bypasses fd state (.turn answers) := by
  rintro ⟨⟨j, standing, hangs, _⟩, last, atEnd, sameLast⟩
  cases standing.symm.trans scanning
  have index := attended.invariant.registers.at_eq atEnd placed (sameLast.trans same.symm)
  have inUse := there.inUse
  rw [moved.shrunk hangs, index] at inUse
  exact Nat.lt_irrefl k inUse

/-- The slot of the client is behind the loop. -/
theorem Moved.balance_behind (moved : Moved state answers i final events)
    (attended : Attended state fd) (scanning : state.pc = .scanning i)
    (placed : state.table.At k slot) (same : slot.fd = fd) (behind : k < i) :
    due state fd = 0 ∧ receives fd events = 0 ∧ ¬ Bypasses fd state (.turn answers) := by
  have registers := attended.invariant.registers
  refine ⟨?_, ?_, ?_⟩
  · refine due_free fun owes => ?_
    exact Nat.not_le_of_lt behind ((attended.owed_iff scanning placed same).mp owes).1
  · refine moved.others fd fun visited here sameHere => ?_
    have index := registers.at_eq here placed (sameHere.trans same.symm)
    omega
  · rintro ⟨⟨j, standing, _, below, _⟩, last, there, sameLast⟩
    cases standing.symm.trans scanning
    have index := registers.at_eq there placed (sameLast.trans same.symm)
    omega

/-- The turn visits the client. -/
theorem Moved.balance_here (moved : Moved state answers i final events)
    (attended : Attended state fd)
    (outcome : Outcome state (.turn answers) final events) (scanning : state.pc = .scanning i)
    (placed : state.table.At i slot) (same : slot.fd = fd) :
    due state fd = receives fd events ∧ ¬ Bypasses fd state (.turn answers) := by
  have owed := attended.owed_iff scanning placed same
  constructor
  · by_cases ready : slot.ready
    · have isClient : slot.fd ≠ state.listener := same ▸ attended.ne_listener
      rw [due_owed (owed.mpr ⟨Nat.le_refl i, ready⟩), ← same,
        moved.served slot placed ready isClient]
    · rw [due_free fun owes => ready (owed.mp owes).2]
      refine (receives_eq_zero fun result sends received => ?_).symm
      obtain ⟨j, visited, standing, here, marked, _⟩ := outcome.visits_of_received received
      cases standing.symm.trans scanning
      exact ready (here.unique placed ▸ marked)
  · rintro ⟨⟨j, standing, _, below, _⟩, last, there, sameLast⟩
    cases standing.symm.trans scanning
    have index := attended.invariant.registers.at_eq there placed (sameLast.trans same.symm)
    omega

/-- The slot of the client is ahead: it stays there, or the turn moves it to the
index it is visiting. -/
theorem Moved.balance_ahead (moved : Moved state answers i final events)
    (attended : Attended state fd) (next : Attended final fd) (scanning : state.pc = .scanning i)
    (placed : state.table.At k slot) (same : slot.fd = fd) (ahead : i < k) {l : Nat}
    {other : PollFd} (there : final.table.At l other) (sameThere : other.fd = fd) :
    receives fd events = 0 ∧
      (l = k → due state fd = due final fd ∧ ¬ Bypasses fd state (.turn answers)) ∧
      (l = i → due final fd = 0 ∧ (due state fd = 1 ∧ Bypasses fd state (.turn answers) ∨
        due state fd = 0 ∧ ¬ Bypasses fd state (.turn answers))) := by
  have registers := attended.invariant.registers
  have owed := attended.owed_iff scanning placed same
  have owedAfter := next.owed_iff moved.pc there sameThere
  refine ⟨?_, ?_, ?_⟩
  · rw [← same]
    refine moved.others slot.fd fun visited here sameHere => ?_
    have index := registers.at_eq here placed sameHere
    omega
  · rintro rfl
    have stays : other = slot := (moved.origin l other ahead
      (attended.seen scanning placed same) there).unique placed
    subst stays
    constructor
    · by_cases ready : other.ready
      · rw [due_owed (owed.mpr ⟨Nat.le_of_lt ahead, ready⟩),
          due_owed (owedAfter.mpr ⟨ahead, ready⟩)]
      · rw [due_free fun owes => ready (owed.mp owes).2,
          due_free fun owes => ready (owedAfter.mp owes).2]
    · exact moved.not_bypassed attended scanning placed same there
  · rintro rfl
    refine ⟨due_free fun owes => Nat.not_succ_le_self l (owedAfter.mp owes).1, ?_⟩
    rcases moved.kept k slot ahead placed with stays | ⟨last, hangs⟩
    · have index := next.invariant.registers.at_eq stays there (same.trans sameThere.symm)
      omega
    · by_cases ready : slot.ready
      · refine .inl ⟨due_owed (owed.mpr ⟨Nat.le_of_lt ahead, ready⟩), ?_, slot, last ▸ placed, same⟩
        exact ⟨l, scanning, hangs, last ▸ ahead, last ▸ attended.seen scanning placed same,
          slot, last ▸ placed, ready⟩
      · refine .inr ⟨due_free fun owes => ready (owed.mp owes).2, ?_⟩
        rintro ⟨⟨_, _, _, _, _, marked, atEnd, isReady⟩, _⟩
        exact ready ((last ▸ atEnd).unique placed ▸ isReady)

end Turn

theorem Ledger.turned {i : Nat} (attended : Attended state fd)
    (admitted : telnetServerWithPolling.admits state (.turn answers))
    (isOpen : .closed fd ∉ telnetServerWithPolling.emits state (.turn answers))
    (scanning : state.pc = .scanning i)
    (moved : Moved state answers i (telnetServerWithPolling.next state (.turn answers))
      (telnetServerWithPolling.emits state (.turn answers))) :
    Ledger fd state (telnetServerWithPolling.next state (.turn answers))
      [(state, .turn answers)] := by
  have stepped := outcome attended.invariant.fits admitted
  have next := attended.next stepped admitted isOpen
  obtain ⟨k, slot, placed, same⟩ := attended.placed
  obtain ⟨l, other, there, sameThere, position⟩ := attended.held stepped isOpen placed same
  have before : state.table.slotOf fd = k := same ▸ attended.invariant.registers.slotOf_eq placed
  have after : (telnetServerWithPolling.next state (.turn answers)).table.slotOf fd = l :=
    sameThere ▸ next.invariant.registers.slotOf_eq there
  have free (index : l ≤ i) :
      due (telnetServerWithPolling.next state (.turn answers)) fd = 0 := by
    refine due_free fun owes => ?_
    have behind := ((next.owed_iff moved.pc there sameThere).mp owes).1
    omega
  have index : l = k ∨ l = i ∧ l < k := by
    rcases position with stays | ⟨standing, below⟩
    · exact .inl stays
    · cases standing.symm.trans scanning
      exact .inr ⟨rfl, below⟩
  constructor
  · rw [reports_turn, trace_single]
    rcases Nat.lt_trichotomy k i with behind | rfl | ahead
    · obtain ⟨free', silent, kept⟩ := moved.balance_behind attended scanning placed same behind
      rw [free', silent, bypasses_none kept, free (by omega)]
    · obtain ⟨answered, kept⟩ := moved.balance_here attended stepped scanning placed same
      rw [answered, bypasses_none kept, free (by omega), Nat.zero_add, Nat.add_zero]
    · obtain ⟨silent, stays, overtaken⟩ :=
        moved.balance_ahead attended next scanning placed same ahead there sameThere
      rw [silent]
      rcases index with still | ⟨here, _⟩
      · obtain ⟨balance, kept⟩ := stays still
        rw [balance, bypasses_none kept]
      · obtain ⟨nothing, ⟨owed, bypassed⟩ | ⟨owed, kept⟩⟩ := overtaken here
        · rw [nothing, owed, bypasses_some bypassed]
        · rw [nothing, owed, bypasses_none kept]
  · rw [before, after]
    rcases index with still | ⟨here, below⟩
    · subst still
      rw [bypasses_none (moved.not_bypassed attended scanning placed same there), Nat.zero_add]
    · have atMost : bypasses fd [(state, .turn answers)] ≤ 1 := List.countP_le_length
      omega

theorem Ledger.step (attended : Attended state fd)
    (admitted : telnetServerWithPolling.admits state input)
    (isOpen : .closed fd ∉ telnetServerWithPolling.emits state input) :
    Ledger fd state (telnetServerWithPolling.next state input) [(state, input)] := by
  cases input with
  | poll reply => exact .poll attended admitted
  | turn answers =>
      obtain ⟨i, scanning⟩ := Pc.isScanning_iff.mp admitted.1
      have stepped := outcome attended.invariant.fits admitted
      rcases stepped.moved attended.invariant (attended.pass i scanning) scanning with
        ⟨done, _, silent⟩ | moved
      · refine .passEnded scanning done ?_ silent
        unfold System.next
        simp [telnetServerWithPolling, PollServer.step, scanning, turn, Nat.not_lt_of_le done]
      · exact .turned attended admitted isOpen scanning moved

end Step

theorem Attended.ledger {state : State} {fd : Int} (attended : Attended state fd)
    {inputs : List Input} (admitted : telnetServerWithPolling.Admitted state inputs)
    (isOpen : ∀ entry ∈ telnetServerWithPolling.follow state inputs,
      .closed fd ∉ telnetServerWithPolling.emits entry.1 entry.2) :
    Ledger fd state (telnetServerWithPolling.finish state inputs)
        (telnetServerWithPolling.follow state inputs) ∧
      Attended (telnetServerWithPolling.finish state inputs) fd := by
  induction inputs generalizing state with
  | nil => exact ⟨.nil fd state, attended⟩
  | cons input rest ih =>
      obtain ⟨granted, admittedRest⟩ := admitted
      rw [System.follow_cons, List.forall_mem_cons] at isOpen
      have first := Ledger.step attended granted isOpen.1
      have next := attended.next (outcome attended.invariant.fits granted) granted isOpen.1
      obtain ⟨later, final⟩ := ih next admittedRest isOpen.2
      exact ⟨first.append later, final⟩

/-- Over any sequence of passes in which a client stays connected, it is received
from once for each call of `poll` that reports it but those of the passes that
bypass it, and each of these has brought its slot nearer to the listener's. -/
theorem reports_answered {before : List (State × Input)} {state : State}
    (run : telnetServerWithPolling.Run before state) (atTop : state.pc = .polling) {fd : Int}
    (client : fd ∈ connected (telnetServerWithPolling.trace before)) {inputs : List Input}
    (admitted : telnetServerWithPolling.Admitted state inputs)
    (isOpen : ∀ entry ∈ telnetServerWithPolling.follow state inputs,
      .closed fd ∉ telnetServerWithPolling.emits entry.1 entry.2)
    (ended : (telnetServerWithPolling.finish state inputs).pc = .polling) :
    let steps := telnetServerWithPolling.follow state inputs
    let final := telnetServerWithPolling.finish state inputs
    reports fd steps =
        receives fd (telnetServerWithPolling.trace steps) + bypasses fd steps ∧
      bypasses fd steps + final.table.slotOf fd ≤ state.table.slotOf fd ∧
      0 < final.table.slotOf fd := by
  have attended : Attended state fd := {
    invariant := run_invariant run
    pass := fun i scanning => run_pass run scanning
    client := connected_trace run ▸ client
    known := fun i scanning => by rw [atTop] at scanning; cases scanning }
  obtain ⟨⟨balance, slot⟩, last⟩ := attended.ledger admitted isOpen
  have nothing : due state fd = 0 := due_free (not_owed_of_not_scanning fun i => by simp [atTop])
  have settled : due (telnetServerWithPolling.finish state inputs) fd = 0 :=
    due_free (not_owed_of_not_scanning fun i => by simp [ended])
  obtain ⟨k, held, placed, same⟩ := last.placed
  refine ⟨by omega, slot, ?_⟩
  rw [← same, last.invariant.registers.slotOf_eq placed]
  exact last.invariant.registers.index_pos placed.found (same ▸ last.ne_listener)

/-- Client 5 hangs up before client 6 is served, and 6 takes over its slot. -/
theorem reports_answered_overtaken :
    let inputs := passInputs allReady (hearing [.error, .bytes [104], .error, .error])
    let steps := telnetServerWithPolling.follow crowded inputs
    reports 6 steps = receives 6 (telnetServerWithPolling.trace steps) + bypasses 6 steps ∧
      bypasses 6 steps + (telnetServerWithPolling.finish crowded inputs).table.slotOf 6 ≤
        crowded.table.slotOf 6 ∧
      0 < (telnetServerWithPolling.finish crowded inputs).table.slotOf 6 :=
  reports_answered crowded_run (by decide) (by decide) (by decide) (by decide) (by decide)

end CBasics.PollServer
