import CBasics.SelectServer.Basic

/-! What one step of the server can do, case by case, and the invariant of its
runs. -/

set_option autoImplicit false

namespace CBasics.SelectServer

open Library

def State.selectCall (state : State) : Event :=
  .selected (state.fdMax + 1) (watched (state.fdMax + 1) state.masterSet) state.tv

structure State.Visits (state : State) (answers : Answers) (i : Int) : Prop where
  scanning : state.pc = .scanning i
  reached : i ≤ state.fdMax + 1
  ready : fdIsSet answers.beyond i state.selectSet = true

/-- The notice that a turn makes of the buffer. -/
def State.messageOf (state : State) (i : Int) (result : RecvResult) : Notice :=
  .message i (cString state.buffer) (sizeT result.count)

def messageLength (result : RecvResult) : Nat := (sizeT result.count + prependSize) % 2 ^ 64

inductive Outcome (state : State) : Input → State → List Event → Prop where
  | selectFailed : state.pc = .selecting →
      Outcome state (.select .failed) (selectRound state .failed).1 [state.selectCall]
  | timedOut : state.pc = .selecting →
      Outcome state (.select .timedOut) (selectRound state .timedOut).1 [state.selectCall]
  | selected {readable : FdSet} {remaining : Timeval} : state.pc = .selecting →
      readable ⊆ watched (state.fdMax + 1) state.masterSet →
      Outcome state (.select (.ready readable remaining))
        (selectRound state (.ready readable remaining)).1 [state.selectCall]
  | passEnded {i : Int} {answers : Answers} : state.pc = .scanning i → state.fdMax + 1 < i →
      Outcome state (.turn answers) { state with pc := .selecting } []
  | idle {i : Int} {answers : Answers} : state.pc = .scanning i → i ≤ state.fdMax + 1 →
      fdIsSet answers.beyond i state.selectSet = false →
      Outcome state (.turn answers) { state with pc := .scanning (i + 1) } [.indexed i i]
  | acceptFailed {answers : Answers} : state.Visits answers state.listener →
      answers.accept = -1 →
      Outcome state (.turn answers) { state with pc := .scanning (state.listener + 1) }
        [.indexed state.listener state.listener, .accepted (-1)]
  | accepted {answers : Answers} : state.Visits answers state.listener →
      0 ≤ answers.accept → answers.accept ∉ state.kernel.openFds →
      Outcome state (.turn answers)
        { state.join answers.accept with pc := .scanning (state.listener + 1) }
        [.indexed state.listener state.listener, .accepted answers.accept,
          .indexed answers.accept answers.accept,
          .copied .serverMessage ((Notice.joined answers.accept).text.length + 1),
          .indexed 0 (state.join answers.accept).fdMax,
          .broadcast (.joined answers.accept)
            (broadcast (state.join answers.accept) (.joined answers.accept)
              (state.join answers.accept).serverMessage bufferSize answers)]
  | hungUp {i : Int} {answers : Answers} : state.Visits answers i → i ≠ state.listener →
      answers.recv = .bytes [] →
      Outcome state (.turn answers)
        { (state.announce (.left i)).drop i with pc := .scanning (i + 1) }
        [.indexed i i, .received i (.bytes []),
          .copied .serverMessage ((Notice.left i).text.length + 1), .indexed 0 state.fdMax,
          .broadcast (.left i)
            (broadcast state (.left i) (cString (state.announce (.left i)).serverMessage)
              (cString (state.announce (.left i)).serverMessage).length answers),
          .closed i, .indexed i i]
  | message {i : Int} {answers : Answers} {stored : State} {notice : Notice} {length : Nat} :
      state.Visits answers i → i ≠ state.listener → answers.recv ≠ .bytes [] →
      stored = state.receive answers.recv → notice = stored.messageOf i answers.recv →
      length = messageLength answers.recv →
      Outcome state (.turn answers) { stored.format notice with pc := .scanning (i + 1) }
        [.indexed i i, .received i answers.recv,
          .copied .message ((cString stored.buffer).length + 1),
          .copied .prependString ((prependString i).length + 1),
          .copied .buffer (notice.text.length + 1), .indexed 0 state.fdMax,
          .broadcast notice
            (broadcast state notice ((stored.format notice).buffer.take length) length answers)]

/-- Within the buffer, only an end of stream counts as nothing received. -/
theorem sizeT_count_eq_zero_iff {result : RecvResult} (fits : result.Fits bufferSize) :
    sizeT result.count = 0 ↔ result = .bytes [] := by
  cases result with
  | error => decide
  | bytes received =>
      have bound : received.length ≤ bufferSize := fits
      simp only [sizeT, RecvResult.count, RecvResult.bytes.injEq, ← List.length_eq_zero_iff,
        bufferSize] at bound ⊢
      omega

theorem receive_nil (state : State) : state.receive (.bytes []) = state := by
  simp [State.receive, RecvResult.store]

theorem recvTurn_hungUp (state : State) (i : Int) {answers : Answers}
    (result : answers.recv = .bytes []) :
    recvTurn state i answers =
      ((state.announce (.left i)).drop i,
        [.received i (.bytes []), .copied .serverMessage ((Notice.left i).text.length + 1),
          .indexed 0 state.fdMax,
          .broadcast (.left i)
            (broadcast state (.left i) (cString (state.announce (.left i)).serverMessage)
              (cString (state.announce (.left i)).serverMessage).length answers),
          .closed i, .indexed i i]) := by
  have none : sizeT (RecvResult.bytes []).count = 0 := by decide
  simp only [recvTurn, result, none, receive_nil, Nat.le_refl, if_true, leaveNotice]
  rfl

theorem recvTurn_message {state stored : State} {i : Int} {answers : Answers} {notice : Notice}
    (fits : answers.recv.Fits bufferSize) (result : answers.recv ≠ .bytes [])
    (storedEq : stored = state.receive answers.recv)
    (noticeEq : notice = stored.messageOf i answers.recv) :
    recvTurn state i answers =
      (stored.format notice,
        [.received i answers.recv, .copied .message ((cString stored.buffer).length + 1),
          .copied .prependString ((prependString i).length + 1),
          .copied .buffer (notice.text.length + 1), .indexed 0 state.fdMax,
          .broadcast notice
            (broadcast state notice
              ((stored.format notice).buffer.take (messageLength answers.recv))
              (messageLength answers.recv) answers)]) := by
  subst noticeEq storedEq
  have some : ¬ sizeT answers.recv.count ≤ 0 :=
    fun nothing => result ((sizeT_count_eq_zero_iff fits).mp (Nat.le_zero.mp nothing))
  simp only [recvTurn, if_neg some]
  rfl

theorem step_visits {limit : Int} {state : State} {answers : Answers} {i : Int}
    (visits : state.Visits answers i) (isClient : i ≠ state.listener) :
    (telnetservermain limit).step state (.turn answers) =
      ({ (recvTurn state i answers).1 with pc := .scanning (i + 1) },
        .indexed i i :: (recvTurn state i answers).2) := by
  simp only [telnetservermain, step, visits.scanning, turn, if_pos visits.reached, handleFd,
    if_pos visits.ready, if_neg isClient]

theorem next_visits {limit : Int} {state : State} {answers : Answers} {i : Int}
    (visits : state.Visits answers i) (isClient : i ≠ state.listener) :
    (telnetservermain limit).next state (.turn answers) =
      { (recvTurn state i answers).1 with pc := .scanning (i + 1) } :=
  congrArg Prod.fst (step_visits visits isClient)

theorem emits_visits {limit : Int} {state : State} {answers : Answers} {i : Int}
    (visits : state.Visits answers i) (isClient : i ≠ state.listener) :
    (telnetservermain limit).emits state (.turn answers) =
      .indexed i i :: (recvTurn state i answers).2 :=
  congrArg Prod.snd (step_visits visits isClient)

theorem outcome {limit : Int} {state : State} {input : Input}
    (admitted : (telnetservermain limit).admits state input) :
    Outcome state input ((telnetservermain limit).next state input)
      ((telnetservermain limit).emits state input) := by
  cases input with
  | select reply =>
      obtain ⟨atTop, reported⟩ := admitted
      cases reply with
      | failed => exact .selectFailed atTop
      | timedOut => exact .timedOut atTop
      | ready readable remaining => exact .selected atTop reported
  | turn answers =>
      cases pc : state.pc with
      | selecting => simp [telnetservermain, Admits, pc] at admitted
      | exited => simp [telnetservermain, Admits, pc] at admitted
      | scanning i =>
          simp only [telnetservermain, Admits, pc] at admitted
          obtain ⟨mayAccept, -, fits, -⟩ := admitted
          have stepEq : (telnetservermain limit).step state (.turn answers) =
              turn state i answers := by
            simp [telnetservermain, step, pc]
          unfold System.next System.emits
          rw [stepEq]
          unfold turn
          by_cases reached : i ≤ state.fdMax + 1
          · rw [if_pos reached]
            unfold handleFd
            cases ready : fdIsSet answers.beyond i state.selectSet with
            | false => exact .idle pc reached ready
            | true =>
                have visits : state.Visits answers i := ⟨pc, reached, ready⟩
                by_cases isListener : i = state.listener
                · subst isListener
                  simp only [if_true, acceptTurn]
                  by_cases failed : answers.accept = -1
                  · simp only [failed]
                    exact .acceptFailed visits failed
                  · simp only [if_neg failed]
                    obtain ⟨nonneg, fresh⟩ := mayAccept.resolve_left failed
                    exact .accepted visits nonneg fresh
                · simp only [if_true, if_neg isListener]
                  by_cases result : answers.recv = .bytes []
                  · rw [recvTurn_hungUp state i result]
                    exact .hungUp visits isListener result
                  · rw [recvTurn_message fits result rfl rfl]
                    exact .message visits isListener result rfl rfl rfl
          · rw [if_neg reached]
            exact .passEnded pc (Int.not_le.mp reached)

/-- What holds between the sets, the bound and the kernel in every state,
whatever descriptors are handed out: the master set has the ones in its range. -/
structure Consistent (limit : Int) (state : State) : Prop where
  serves : state.kernel.Serves state.listener
  listenerNonneg : 0 ≤ state.listener
  watches : ∀ fd, fd ∈ state.masterSet ↔
    inRange fd ∧ (fd = state.listener ∨ fd ∈ state.kernel.clients)
  bounded : ∀ fd, fd = state.listener ∨ fd ∈ state.kernel.clients → fd ≤ state.fdMax
  openBelow : ∀ fd ∈ state.kernel.openFds, fd < limit
  maxBelow : state.fdMax < limit
  arrays : state.buffer.length = bufferSize ∧ state.serverMessage.length = bufferSize
  index : ∀ i, state.pc = .scanning i → 0 ≤ i
  scan : ∀ i, state.pc = .scanning i → ∀ fd ∈ state.selectSet, i ≤ fd → fd ∈ state.masterSet

namespace Consistent

variable {limit : Int} {state : State}

theorem initial (initial : (telnetservermain limit).initial state) : Consistent limit state := by
  obtain ⟨listener, serverMessage, openFds, isOpen, nonneg, below, full, rfl⟩ := initial
  exact {
    serves := ⟨isOpen, by simp [startUp], by simp [startUp], by simp [startUp]⟩
    listenerNonneg := nonneg
    watches := by
      intro fd
      by_cases range : inRange listener
      · simp only [startUp, fdSet, if_pos range, insert_empty_eq, Finset.mem_singleton,
          Finset.notMem_empty, or_false]
        exact ⟨fun same => ⟨same ▸ range, same⟩, And.right⟩
      · simp only [startUp, fdSet, if_neg range, Finset.notMem_empty, or_false, false_iff]
        rintro ⟨inside, rfl⟩
        exact range inside
    bounded := by simp [startUp]
    openBelow := below
    maxBelow := below listener isOpen
    arrays := ⟨List.length_replicate, full⟩
    index := by simp [startUp]
    scan := by simp [startUp] }

theorem index_next (consistent : Consistent limit state) {i : Int}
    (scanning : state.pc = .scanning i) {i' : Int}
    (next : Pc.scanning (i + 1) = .scanning i') : 0 ≤ i' := by
  have nonneg := consistent.index i scanning
  cases next
  omega

theorem scan_next (consistent : Consistent limit state) {i : Int}
    (scanning : state.pc = .scanning i) {i' : Int}
    (next : Pc.scanning (i + 1) = .scanning i') {fd : Int}
    (reported : fd ∈ state.selectSet) (later : i' ≤ fd) : fd ∈ state.masterSet := by
  cases next
  exact consistent.scan i scanning fd reported (by omega)

theorem advance (consistent : Consistent limit state) {i : Int}
    (scanning : state.pc = .scanning i) :
    Consistent limit { state with pc := .scanning (i + 1) } :=
  { consistent with
    index := fun _ next => consistent.index_next scanning next
    scan := fun _ next _ reported later => consistent.scan_next scanning next reported later }

theorem selectRound (consistent : Consistent limit state) {reply : SelectReply}
    (reported : ∀ readable remaining, reply = .ready readable remaining →
      readable ⊆ watched (state.fdMax + 1) state.masterSet) :
    Consistent limit (SelectServer.selectRound state reply).1 := by
  cases reply with
  | failed =>
      exact { consistent with
        arrays := ⟨List.length_replicate, List.length_replicate⟩
        index := by simp [SelectServer.selectRound]
        scan := by simp [SelectServer.selectRound] }
  | timedOut =>
      exact { consistent with
        arrays := ⟨List.length_replicate, List.length_replicate⟩
        index := consistent.index
        scan := by simp [SelectServer.selectRound] }
  | ready readable remaining =>
      exact { consistent with
        arrays := ⟨List.length_replicate, List.length_replicate⟩
        index := by simp [SelectServer.selectRound]
        scan := fun _ _ fd member _ => Finset.filter_subset _ _ (reported _ _ rfl member) }

theorem mem_fdSet {fd newFd : Int} {set : FdSet} :
    fd ∈ fdSet newFd set ↔ fd = newFd ∧ inRange newFd ∨ fd ∈ set := by
  unfold fdSet
  split <;> simp [*]

theorem join_fdMax_lt {newFd : Int} (oldBelow : state.fdMax < limit) (newBelow : newFd < limit) :
    (state.join newFd).fdMax < limit := by
  simp only [State.join]
  split <;> assumption

theorem join (consistent : Consistent limit state) {newFd : Int} (nonneg : 0 ≤ newFd)
    (fresh : newFd ∉ state.kernel.openFds) (below : newFd < limit) :
    Consistent limit (state.join newFd) where
  serves := consistent.serves.accept fresh nonneg
  listenerNonneg := consistent.listenerNonneg
  watches := by
    intro fd
    have known := consistent.watches fd
    simp only [State.join, mem_fdSet, Kernel.accept, Finset.mem_insert, known]
    constructor
    · rintro (⟨rfl, range⟩ | ⟨range, old⟩)
      · exact ⟨range, .inr (.inl rfl)⟩
      · exact ⟨range, old.imp_right .inr⟩
    · rintro ⟨range, isListener | rfl | isClient⟩
      · exact .inr ⟨range, .inl isListener⟩
      · exact .inl ⟨rfl, range⟩
      · exact .inr ⟨range, .inr isClient⟩
  bounded := by
    intro fd watched
    have bound := consistent.bounded fd
    simp only [State.join, Kernel.accept, Finset.mem_insert] at watched ⊢
    rcases watched with isListener | isNew | isClient
    · have old := bound (.inl isListener)
      split <;> omega
    · split <;> omega
    · have old := bound (.inr isClient)
      split <;> omega
  openBelow := by
    intro fd member
    cases Finset.mem_insert.mp member with
    | inl isNew => exact isNew ▸ below
    | inr old => exact consistent.openBelow fd old
  maxBelow := join_fdMax_lt consistent.maxBelow below
  arrays := ⟨consistent.arrays.1, (length_putString _ _).trans consistent.arrays.2⟩
  index := consistent.index
  scan := fun i scanning fd reported later =>
    mem_fdSet.mpr (.inr (consistent.scan i scanning fd reported later))

theorem mem_fdClr (consistent : Consistent limit state) {fd i : Int} :
    fd ∈ fdClr i state.masterSet ↔ fd ≠ i ∧ fd ∈ state.masterSet := by
  unfold fdClr
  split
  · exact Finset.mem_erase
  · rename_i outside
    refine ⟨fun member => ⟨?_, member⟩, And.right⟩
    rintro rfl
    exact outside ((consistent.watches fd).mp member).1

theorem hungUp (consistent : Consistent limit state) {i : Int} (isClient : i ≠ state.listener)
    (scanning : state.pc = .scanning i) :
    Consistent limit { (state.announce (.left i)).drop i with pc := .scanning (i + 1) } where
  serves := consistent.serves.close isClient
  listenerNonneg := consistent.listenerNonneg
  watches := by
    intro fd
    have known := consistent.watches fd
    simp only [State.drop, State.announce, Kernel.close, Finset.mem_erase, consistent.mem_fdClr,
      known]
    constructor
    · rintro ⟨other, range, watched⟩
      exact ⟨range, watched.imp_right fun client => ⟨other, client⟩⟩
    · rintro ⟨range, isListener | ⟨other, client⟩⟩
      · exact ⟨fun same => isClient (same.symm.trans isListener), range, .inl isListener⟩
      · exact ⟨other, range, .inr client⟩
  bounded := fun fd watched =>
    consistent.bounded fd (watched.imp_right Finset.mem_of_mem_erase)
  openBelow := fun fd member => consistent.openBelow fd (Finset.mem_of_mem_erase member)
  maxBelow := consistent.maxBelow
  arrays := ⟨consistent.arrays.1, (length_putString _ _).trans consistent.arrays.2⟩
  index := fun _ next => consistent.index_next scanning next
  scan := by
    intro i' next fd reported later
    have old : fd ∈ state.masterSet := consistent.scan_next scanning next reported later
    cases next
    exact consistent.mem_fdClr.mpr ⟨by omega, old⟩

theorem message (consistent : Consistent limit state) {i : Int} {result : RecvResult}
    (fits : result.Fits bufferSize) (scanning : state.pc = .scanning i) (notice : Notice) :
    Consistent limit
      { (state.receive result).format notice with pc := .scanning (i + 1) } := by
  have full : (result.store state.buffer).length = bufferSize := by
    rw [← consistent.arrays.1] at fits
    exact (RecvResult.length_store fits).trans consistent.arrays.1
  exact { consistent.advance scanning with
    arrays := ⟨(length_putString _ _).trans full, consistent.arrays.2⟩ }

theorem outcome {final : State} {input : Input} {events : List Event}
    (consistent : Consistent limit state) (outcome : Outcome state input final events)
    (admitted : (telnetservermain limit).admits state input) : Consistent limit final := by
  cases outcome with
  | selectFailed => exact consistent.selectRound (by simp)
  | timedOut => exact consistent.selectRound (by simp)
  | selected _ reported =>
      refine consistent.selectRound ?_
      intro readable remaining same
      cases same
      exact reported
  | passEnded => exact { consistent with index := by simp, scan := by simp }
  | idle scanning => exact consistent.advance scanning
  | acceptFailed visits => exact consistent.advance visits.scanning
  | accepted visits nonneg fresh =>
      simp only [telnetservermain, Admits, visits.scanning] at admitted
      exact (consistent.join nonneg fresh admitted.2.1).advance visits.scanning
  | hungUp visits isClient => exact consistent.hungUp isClient visits.scanning
  | message visits _ _ storedEq =>
      simp only [telnetservermain, Admits, visits.scanning] at admitted
      exact storedEq ▸ consistent.message admitted.2.2.1 visits.scanning _

end Consistent

theorem run_consistent {limit : Int} {steps : List (State × Input)} {state : State}
    (run : (telnetservermain limit).Run steps state) : Consistent limit state :=
  run.invariant (Consistent limit) (fun _ initial => .initial initial)
    fun _ _ consistent admitted => consistent.outcome (outcome admitted) admitted

/-- What holds in every state if the set has room for all descriptors. -/
structure Invariant (limit : Int) (state : State) : Prop where
  serves : state.kernel.Serves state.listener
  listenerNonneg : 0 ≤ state.listener
  watches : ∀ fd, fd ∈ state.masterSet ↔ fd = state.listener ∨ fd ∈ state.kernel.clients
  bounded : ∀ fd ∈ state.masterSet, fd ≤ state.fdMax
  openBelow : ∀ fd ∈ state.kernel.openFds, fd < limit
  maxBelow : state.fdMax < limit
  arrays : state.buffer.length = bufferSize ∧ state.serverMessage.length = bufferSize
  index : ∀ i, state.pc = .scanning i → 0 ≤ i
  scan : ∀ i, state.pc = .scanning i → ∀ fd ∈ state.selectSet, i ≤ fd → fd ∈ state.masterSet

theorem Consistent.invariant {limit : Int} {state : State} (consistent : Consistent limit state)
    (small : limit ≤ fdSetSize) : Invariant limit state :=
  { consistent with
    watches := by
      intro fd
      refine (consistent.watches fd).trans (and_iff_right_of_imp fun watched => ?_)
      have below := consistent.openBelow fd (consistent.serves.served_open watched)
      exact ⟨consistent.serves.served_nonneg consistent.listenerNonneg watched,
        Int.lt_of_lt_of_le below small⟩
    bounded := fun fd member => consistent.bounded fd ((consistent.watches fd).mp member).2 }

namespace Invariant

variable {limit : Int} {state : State}

theorem master_nonneg (invariant : Invariant limit state) {fd : Int}
    (member : fd ∈ state.masterSet) : 0 ≤ fd :=
  invariant.serves.served_nonneg invariant.listenerNonneg ((invariant.watches fd).mp member)

theorem master_open (invariant : Invariant limit state) {fd : Int}
    (member : fd ∈ state.masterSet) : fd ∈ state.kernel.openFds :=
  invariant.serves.served_open ((invariant.watches fd).mp member)

theorem consistent (invariant : Invariant limit state) (small : limit ≤ fdSetSize) :
    Consistent limit state :=
  { invariant with
    watches := by
      intro fd
      refine (invariant.watches fd).trans (and_iff_right_of_imp fun watched => ?_).symm
      have member := (invariant.watches fd).mpr watched
      have below := invariant.openBelow fd (invariant.master_open member)
      exact ⟨invariant.master_nonneg member, Int.lt_of_lt_of_le below small⟩
    bounded := fun fd watched => invariant.bounded fd ((invariant.watches fd).mpr watched) }

theorem join (invariant : Invariant limit state) (small : limit ≤ fdSetSize) {newFd : Int}
    (nonneg : 0 ≤ newFd) (fresh : newFd ∉ state.kernel.openFds) (below : newFd < limit) :
    Invariant limit (state.join newFd) :=
  ((invariant.consistent small).join nonneg fresh below).invariant small

/-- `recv` only ends the stream on an open descriptor. -/
theorem hungUp_inRange (invariant : Invariant limit state) (small : limit ≤ fdSetSize)
    {answers : Answers} {i : Int} (visits : state.Visits answers i)
    (admitted : (telnetservermain limit).admits state (.turn answers))
    (result : answers.recv = .bytes []) : inRange i := by
  simp only [telnetservermain, Admits, visits.scanning] at admitted
  have isOpen : i ∈ state.kernel.openFds := by
    by_contra closed
    have failed := admitted.2.2.2 closed
    rw [result] at failed
    cases failed
  have below := Int.lt_of_lt_of_le (invariant.openBelow i isOpen) small
  exact ⟨invariant.index i visits.scanning, below⟩

theorem outcome {final : State} {input : Input} {events : List Event}
    (invariant : Invariant limit state) (small : limit ≤ fdSetSize)
    (outcome : Outcome state input final events)
    (admitted : (telnetservermain limit).admits state input) : Invariant limit final :=
  ((invariant.consistent small).outcome outcome admitted).invariant small

end Invariant

theorem run_invariant {limit : Int} {steps : List (State × Input)} (small : limit ≤ fdSetSize)
    {state : State} (run : (telnetservermain limit).Run steps state) : Invariant limit state :=
  (run_consistent run).invariant small

def freshServer : State := startUp 3 (List.replicate bufferSize 0) {0, 1, 2, 3}

theorem freshServer_initial : (telnetservermain fdSetSize).initial freshServer :=
  ⟨3, _, {0, 1, 2, 3}, by decide, by decide, by decide, List.length_replicate, rfl⟩

theorem freshServer_run (inputs : List Input)
    (admitted : (telnetservermain fdSetSize).Admitted freshServer inputs) :
    (telnetservermain fdSetSize).Run ((telnetservermain fdSetSize).follow freshServer inputs)
      ((telnetservermain fdSetSize).finish freshServer inputs) :=
  .of_admitted freshServer_initial admitted

def selectReports (readable : FdSet) : Input := .select (.ready readable ⟨5, 0⟩)

def answersWith (accept : Int) (recv : RecvResult) : Answers :=
  { accept := accept, recv := recv, send := fun _ => 1, beyond := fun _ => false }

def turnWith (accept : Int) (recv : RecvResult) : Input := .turn (answersWith accept recv)

def idleTurns (count : Nat) : List Input := List.replicate count (turnWith (-1) .error)

end CBasics.SelectServer
