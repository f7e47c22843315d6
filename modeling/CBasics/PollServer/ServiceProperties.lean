import CBasics.PollServer.ReadinessProperties

/-! Which reported clients a pass serves. `del_pfds` moves the last slot to the
index being visited, and the loop goes on behind it: a client moved there is not
served in this pass. -/

set_option autoImplicit false

namespace CBasics.PollServer

open Library

def receives (fd : Int) (trace : List Event) : Nat :=
  trace.countP fun
    | .received other _ _ => decide (other = fd)
    | _ => false

@[simp] theorem receives_nil (fd : Int) : receives fd [] = 0 := rfl

@[simp] theorem receives_append (fd : Int) (left right : List Event) :
    receives fd (left ++ right) = receives fd left + receives fd right := List.countP_append

@[simp] theorem receives_polled (fd : Int) (slots : List PollFd) :
    receives fd [.polled slots] = 0 := rfl

/-- Slot `i` is a ready client, and its connection has ended or failed. -/
def Hangs (state : State) (answers : Answers) (i : Nat) : Prop :=
  answers.recv.count ≤ 0 ∧
    ∃ slot, state.table.At i slot ∧ slot.ready ∧ slot.fd ≠ state.listener

/-- The turn moves a slot that `poll` marked ready to an index that the loop has
already come to. -/
def Skips (state : State) : Input → Prop
  | .poll _ => False
  | .turn answers =>
      ∃ i, state.pc = .scanning i ∧ Hangs state answers i ∧
        i < state.table.fdCount - 1 ∧ state.table.fdCount - 1 < state.polled.length ∧
        ∃ last, state.table.At (state.table.fdCount - 1) last ∧ last.ready

theorem Table.exists_at_iff {table : Table} {i : Nat} {P : PollFd → Prop} :
    (∃ slot, table.At i slot ∧ P slot) ↔ ∃ slot ∈ table.registered[i]?.toList, P slot := by
  simp [at_iff]

instance (state : State) (answers : Answers) (i : Nat) : Decidable (Hangs state answers i) :=
  decidable_of_iff
    (answers.recv.count ≤ 0 ∧
      ∃ slot ∈ state.table.registered[i]?.toList, slot.ready ∧ slot.fd ≠ state.listener) (by
    rw [Hangs, Table.exists_at_iff])

theorem skips_turn_iff {state : State} {answers : Answers} :
    Skips state (.turn answers) ↔
      (∃ i ∈ List.range (state.table.fdCount - 1),
          state.pc = .scanning i ∧ Hangs state answers i) ∧
        state.table.fdCount - 1 < state.polled.length ∧
        ∃ last ∈ state.table.registered[state.table.fdCount - 1]?.toList, last.ready := by
  rw [← Table.exists_at_iff]
  constructor
  · rintro ⟨i, scanning, hangs, below, polled, last⟩
    exact ⟨⟨i, List.mem_range.mpr below, scanning, hangs⟩, polled, last⟩
  · rintro ⟨⟨i, below, scanning, hangs⟩, polled, last⟩
    exact ⟨i, scanning, hangs, List.mem_range.mp below, polled, last⟩

instance (state : State) : (input : Input) → Decidable (Skips state input)
  | .poll _ => inferInstanceAs (Decidable False)
  | .turn _ => decidable_of_iff' _ skips_turn_iff

/-- What a turn that stays in the loop does at slot `i`. -/
structure Moved (state : State) (answers : Answers) (i : Nat) (final : State)
    (events : List Event) : Prop where
  inUse : i < state.table.fdCount
  pc : final.pc = .scanning (i + 1)
  polled : final.polled = state.polled
  listener : final.listener = state.listener
  count : final.table.fdCount ≤ state.table.fdCount + if i = 0 then 1 else 0
  served : ∀ slot, state.table.At i slot → slot.ready → slot.fd ≠ state.listener →
    receives slot.fd events = 1
  others : ∀ fd, (∀ slot, state.table.At i slot → slot.fd ≠ fd) → receives fd events = 0
  origin : ∀ k slot, i < k → k < state.polled.length → final.table.At k slot →
    state.table.At k slot
  kept : ∀ k slot, i < k → state.table.At k slot →
    final.table.At k slot ∨ k = state.table.fdCount - 1 ∧ Hangs state answers i
  shrunk : Hangs state answers i → final.table.fdCount = state.table.fdCount - 1

/-- A turn that leaves the table as it was. -/
theorem Moved.still {state final : State} {answers : Answers} {i : Nat} {slot : PollFd}
    {events : List Event} (placed : state.table.At i slot) (pc : final.pc = .scanning (i + 1))
    (polled : final.polled = state.polled) (listener : final.listener = state.listener)
    (table : final.table = state.table)
    (served : slot.ready → slot.fd ≠ state.listener →
      receives slot.fd events = 1 ∧ 0 < answers.recv.count)
    (others : ∀ fd, slot.fd ≠ fd → receives fd events = 0) :
    Moved state answers i final events where
  inUse := placed.inUse
  pc := pc
  polled := polled
  listener := listener
  count := by
    rw [table]
    exact Nat.le_add_right ..
  served := by
    intro other placedOther ready isClient
    obtain rfl := placed.unique placedOther
    exact (served ready isClient).1
  others := fun fd other => others fd (other slot placed)
  origin := fun k other _ _ there => table ▸ there
  kept := fun k other _ there => .inl (table ▸ there)
  shrunk := by
    rintro ⟨lost, other, placedOther, ready, isClient⟩
    obtain rfl := placed.unique placedOther
    exact absurd (served ready isClient).2 (Int.not_lt.mpr lost)

/-- A ready client hangs up: its slot is overwritten with the last one. -/
theorem Moved.hungUp {state : State} {answers : Answers} {i : Nat} {slot : PollFd}
    {buffer : List Byte} {events : List Event} (invariant : Invariant state)
    (placed : state.table.At i slot) (ready : slot.ready) (isClient : slot.fd ≠ state.listener)
    (lost : answers.recv.count ≤ 0) (served : receives slot.fd events = 1)
    (others : ∀ fd, slot.fd ≠ fd → receives fd events = 0) :
    Moved state answers i
      { state with
        pc := .scanning (i + 1)
        buffer := buffer
        table := delPfds i state.table
        kernel := state.kernel.close slot.fd } events where
  inUse := placed.inUse
  pc := rfl
  polled := rfl
  listener := rfl
  count := by
    show state.table.fdCount - 1 ≤ _
    omega
  served := by
    intro other placedOther _ _
    obtain rfl := placed.unique placedOther
    exact served
  others := fun fd other => others fd (other slot placed)
  origin := by
    intro k other behind _ there
    rcases there.of_delPfds placed.inUse invariant.fits with ⟨_, before⟩ | ⟨same, _⟩
    · exact before
    · omega
  kept := by
    intro k other behind there
    by_cases last : k = state.table.fdCount - 1
    · exact .inr ⟨last, lost, slot, placed, ready, isClient⟩
    · exact .inl (there.in_delPfds (Nat.ne_of_gt behind) last)
  shrunk := fun _ => rfl

theorem Moved.accepted {state : State} {answers : Answers} {slot : PollFd} {newFd : Int}
    {events : List Event} (invariant : Invariant state) (pass : Pass state 0)
    (placed : state.table.At 0 slot) (isListener : slot.fd = state.listener)
    (quiet : ∀ fd, receives fd events = 0) :
    Moved state answers 0
      { state with
        pc := .scanning 1
        table := addToPfds answers.garbage newFd state.table
        kernel := state.kernel.accept newFd } events where
  inUse := placed.inUse
  pc := rfl
  polled := rfl
  listener := rfl
  count := by
    obtain ⟨-, -, count, -⟩ := invariant.registers.grow answers.garbage
    exact Nat.le_of_eq (congrArg (· + 1) count)
  served := by
    intro other placedOther _ isClient
    obtain rfl := placed.unique placedOther
    exact absurd isListener isClient
  others := fun fd _ => quiet fd
  origin := by
    intro k other _ below there
    obtain ⟨lengths, -⟩ := pass.start rfl
    rcases (invariant.registers.at_addToPfds _ _).mp there with before | ⟨last, -, -⟩
    · exact before
    · omega
  kept := fun k other _ there => .inl ((invariant.registers.at_addToPfds _ _).mpr (.inl there))
  shrunk := by
    rintro ⟨-, other, placedOther, -, isClient⟩
    obtain rfl := placed.unique placedOther
    exact absurd isListener isClient

theorem Outcome.moved {state final : State} {answers : Answers} {events : List Event} {i : Nat}
    (outcome : Outcome state (.turn answers) final events) (invariant : Invariant state)
    (pass : Pass state i) (scanning : state.pc = .scanning i) :
    (state.table.fdCount ≤ i ∧ final.pc = .polling ∧ events = []) ∨
      Moved state answers i final events := by
  cases outcome with
  | passEnded standing done =>
      cases standing.symm.trans scanning
      exact .inl ⟨done, rfl, rfl⟩
  | idle standing placed idle =>
      cases standing.symm.trans scanning
      exact .inr (.still placed rfl rfl rfl rfl (fun ready => absurd ready idle) fun _ _ => rfl)
  | acceptFailed standing placed _ isListener =>
      cases standing.symm.trans scanning
      exact .inr (.still placed rfl rfl rfl rfl (fun _ isClient => absurd isListener isClient)
        fun _ _ => rfl)
  | accepted standing placed _ isListener =>
      cases standing.symm.trans scanning
      obtain rfl := invariant.registers.index_zero placed isListener
      exact .inr (.accepted invariant pass placed isListener fun _ => rfl)
  | hungUp standing placed ready isClient lost =>
      cases standing.symm.trans scanning
      have nothing : answers.recv.count ≤ 0 := by
        rcases lost with result | result <;> simp [result, RecvResult.count]
      exact .inr (.hungUp invariant placed ready isClient nothing (by simp [receives])
        fun fd other => by simp [receives, other])
  | message standing placed ready isClient result some =>
      cases standing.symm.trans scanning
      have received : 0 < answers.recv.count := by
        rw [result]
        exact Int.natCast_pos.mpr (List.length_pos_of_ne_nil some)
      exact .inr (.still placed rfl rfl rfl rfl (fun _ _ => ⟨by simp [receives], received⟩)
        fun fd other => by simp [receives, other])

/-- Every reported client that waits at slot `i` or behind is received from once. -/
def ServedFrom (state : State) (i : Nat) (trace : List Event) : Prop :=
  ∀ k slot, i ≤ k → k < state.polled.length → state.table.At k slot → slot.ready →
    slot.fd ≠ state.listener → receives slot.fd trace = 1

/-- What the remaining steps of a pass do for the clients of its poll. -/
structure Serves (state : State) (i : Nat) (steps : List (State × Input)) : Prop where
  gone : ∀ fd ∈ state.polled.map PollFd.fd,
    (∀ k slot, i ≤ k → state.table.At k slot → slot.fd ≠ fd) →
      receives fd (telnetServerWithPolling.trace steps) = 0
  once_iff : ServedFrom state i (telnetServerWithPolling.trace steps) ↔
    ∀ entry ∈ steps, ¬ Skips entry.1 entry.2

theorem Serves.ended {state : State} {i : Nat} {answers : Answers}
    (scanning : state.pc = .scanning i) (done : state.table.fdCount ≤ i)
    (silent : telnetServerWithPolling.emits state (.turn answers) = []) :
    Serves state i [(state, .turn answers)] where
  gone := by
    intro fd _ _
    rw [System.trace_cons, silent]
    rfl
  once_iff := by
    refine iff_of_true ?_ ?_
    · intro k slot behind _ placed
      exact absurd placed.inUse (Nat.not_lt_of_le (Nat.le_trans done behind))
    · intro entry member
      obtain rfl := List.mem_singleton.mp member
      rintro ⟨j, standing, ⟨_, slot, placed, _⟩, _⟩
      cases standing.symm.trans scanning
      exact absurd placed.inUse (Nat.not_lt_of_le done)

section Turn

variable {state final : State} {answers : Answers} {i : Nat} {rest : List (State × Input)}

theorem Moved.silent {events : List Event} (moved : Moved state answers i final events)
    (invariant : Invariant state) {k : Nat} {slot : PollFd} (behind : i < k)
    (placed : state.table.At k slot) : receives slot.fd events = 0 := by
  refine moved.others slot.fd fun visited here same => ?_
  have index := invariant.registers.at_eq here placed same
  omega

/-- A client of the poll that no slot behind holds is not received from again. -/
theorem Serves.gone_later {events : List Event} (later : Serves final (i + 1) rest)
    (moved : Moved state answers i final events) (pass : Pass final (i + 1)) {fd : Int}
    (polled : fd ∈ state.polled.map PollFd.fd)
    (absent : ∀ k slot, i < k → state.table.At k slot → final.table.At k slot → slot.fd ≠ fd) :
    receives fd (telnetServerWithPolling.trace rest) = 0 := by
  rw [← moved.polled] at polled
  refine later.gone fd polled fun k slot behind placed => ?_
  cases Nat.lt_or_ge k state.polled.length with
  | inl seen => exact absent k slot behind (moved.origin k slot behind seen placed) placed
  | inr beyond =>
      rw [← moved.polled] at beyond
      exact fun same => (pass.newcomer k slot beyond placed).1 (same ▸ polled)

theorem Serves.turned (invariant : Invariant state) (scanning : state.pc = .scanning i)
    (before : Pass state i) (pass : Pass final (i + 1))
    (moved : Moved state answers i final (telnetServerWithPolling.emits state (.turn answers)))
    (later : Serves final (i + 1) rest) : Serves state i ((state, .turn answers) :: rest) where
  gone := by
    intro fd polled absent
    have now := moved.others fd fun slot => absent i slot (Nat.le_refl i)
    have afterwards := later.gone_later moved pass polled fun k slot behind here _ =>
      absent k slot (Nat.le_of_lt behind) here
    rw [System.trace_cons, receives_append, now, afterwards]
  once_iff := by
    rw [System.trace_cons, List.forall_mem_cons, ← later.once_iff]
    constructor
    · intro served
      have laterServed : ServedFrom final (i + 1) (telnetServerWithPolling.trace rest) := by
        intro k slot behind seen placed ready isClient
        rw [moved.polled] at seen
        rw [moved.listener] at isClient
        have here := moved.origin k slot behind seen placed
        have once := served k slot (Nat.le_of_lt behind) seen here ready isClient
        rwa [receives_append, moved.silent invariant behind here, Nat.zero_add] at once
      refine ⟨?_, laterServed⟩
      rintro ⟨j, standing, hangs, below, seen, last, placed, ready⟩
      cases standing.symm.trans scanning
      have isClient : last.fd ≠ state.listener := by
        intro isListener
        have zero := invariant.registers.index_zero placed isListener
        exact Nat.not_lt_zero i (Nat.lt_of_lt_of_eq below zero)
      have polled : last.fd ∈ state.polled.map PollFd.fd :=
        List.mem_map_of_mem (before.mem_polled (Nat.le_of_lt below) seen placed)
      have once := served _ last (Nat.le_of_lt below) seen placed ready isClient
      -- The last slot is now at index `i`, and its old index is no longer in use.
      have missed := later.gone_later moved pass polled fun k slot _ here there same => by
        have index := invariant.registers.at_eq here placed same
        have inUse := there.inUse
        rw [moved.shrunk hangs, index] at inUse
        exact Nat.lt_irrefl _ inUse
      rw [receives_append, moved.silent invariant below placed, missed] at once
      exact absurd once (by decide)
    · rintro ⟨kept, served⟩ k slot behind seen placed ready isClient
      rw [receives_append]
      cases Nat.eq_or_lt_of_le behind with
      | inl here =>
          subst here
          have polled : slot.fd ∈ state.polled.map PollFd.fd :=
            List.mem_map_of_mem (before.mem_polled behind seen placed)
          rw [moved.served slot placed ready isClient,
            later.gone_later moved pass polled fun k other ahead there _ same => by
              have index := invariant.registers.at_eq there placed same
              omega]
      | inr ahead =>
          rw [moved.silent invariant ahead placed, Nat.zero_add]
          rcases moved.kept k slot ahead placed with there | ⟨last, hangs⟩
          · exact served k slot ahead (moved.polled ▸ seen) there ready (moved.listener ▸ isClient)
          · subst last
            exact absurd ⟨i, scanning, hangs, ahead, seen, slot, placed, ready⟩ kept

end Turn

theorem no_turn_at_top {state : State} (atTop : state.pc = .polling) (answers : List Answers)
    (admitted : telnetServerWithPolling.Admitted state (answers.map .turn)) : answers = [] := by
  cases answers with
  | nil => rfl
  | cons next rest =>
      simp [System.Admitted, telnetServerWithPolling, Admits, atTop, Pc.isScanning] at admitted

/-- The turns of a pass at slot `i` are bounded by the slots left, and when they
end the pass has served everybody ahead unless one of them skipped somebody. -/
theorem scan_serves {state : State} {i : Nat} (answers : List Answers)
    (invariant : Invariant state) (pass : Pass state i) (scanning : state.pc = .scanning i)
    (admitted : telnetServerWithPolling.Admitted state (answers.map .turn)) :
    answers.length ≤ state.table.fdCount - i + (if i = 0 then 2 else 1) ∧
      ((telnetServerWithPolling.finish state (answers.map .turn)).pc = .polling →
        Serves state i (telnetServerWithPolling.follow state (answers.map .turn))) := by
  induction answers generalizing state i with
  | nil =>
      refine ⟨Nat.zero_le _, ?_⟩
      intro ended
      cases scanning.symm.trans ended
  | cons current rest ih =>
      obtain ⟨granted, admittedRest⟩ := admitted
      have stepped := outcome invariant.fits granted
      have kept := invariant.outcome stepped granted
      simp only [List.map_cons, System.finish_cons, System.follow_cons, List.length_cons]
      rcases stepped.moved invariant pass scanning with ⟨done, atTop, silent⟩ | moved
      · cases no_turn_at_top atTop rest admittedRest
        refine ⟨?_, fun _ => .ended scanning done silent⟩
        split <;> simp
      · have passed := Pass.next invariant stepped
          (fun j standing => (Pc.scanning.inj (scanning.symm.trans standing)) ▸ pass) moved.pc
        obtain ⟨bound, serves⟩ := ih kept passed moved.pc admittedRest
        refine ⟨?_, fun ended => .turned invariant scanning pass passed moved (serves ended)⟩
        have count := moved.count
        have inUse := moved.inUse
        rw [if_neg (Nat.succ_ne_zero i)] at bound
        split
        · rename_i first
          rw [if_pos first] at count
          omega
        · rename_i behind
          rw [if_neg behind] at count
          omega

/-- The inputs of a pass: a call of `poll` with this readiness, and turns after it. -/
def passInputs (readiness : Int → BitVec 16) (answers : List Answers) : List Input :=
  .poll (some readiness) :: answers.map .turn

/-- `recv` is called once on every registered client whose slot `poll` marked. -/
def Services (state : State) (readiness : Int → BitVec 16) (answers : List Answers) : Prop :=
  ∀ slot ∈ (pollRound state readiness).polled, slot.ready → slot.fd ≠ state.listener →
    receives slot.fd (telnetServerWithPolling.trace
      (telnetServerWithPolling.follow state (passInputs readiness answers))) = 1

instance (state : State) (readiness : Int → BitVec 16) (answers : List Answers) :
    Decidable (Services state readiness answers) :=
  inferInstanceAs (Decidable (∀ slot ∈ _, _))

/-- Clients 4, 5 and 6 in slots 1, 2 and 3. -/
def threeClients : List Input :=
  [4, 5, 6].flatMap fun fd =>
    [pollReports [3], turnWith fd .error] ++ List.replicate (fd.toNat - 2) (turnWith (-1) .error)

def crowded : State := telnetServerWithPolling.finish freshServer threeClients

theorem crowded_run :
    telnetServerWithPolling.Run (telnetServerWithPolling.follow freshServer threeClients) crowded :=
  freshServer_run threeClients (by decide)

def allReady (fd : Int) : BitVec 16 := if fd ∈ [4, 5, 6] then pollin else 0

/-- A turn for each result of `recv`; `accept` and the sends do not matter. -/
def hearing (results : List RecvResult) : List Answers :=
  results.map fun recv =>
    { accept := -1, garbage := fun _ => ⟨0, 0, 0, false⟩, recv := recv, send := fun _ => 1 }

end CBasics.PollServer
