import CBasics.SelectServer.NoticeProperties
import CBasics.SelectServer.RegistryProperties

/-! What the server does about each result of `recv`. The result is kept in a
`size_t`, so -1 is not told from a long message. -/

set_option autoImplicit false

namespace CBasics.SelectServer

open Library

/-- A turn that calls `recv` on a client. -/
structure Reception where
  fd : Int
  answers : Answers

def heard (state : State) : Input → Option Reception
  | .select _ => none
  | .turn answers =>
      match state.pc with
      | .scanning i =>
          if i ≤ state.fdMax + 1 ∧ fdIsSet answers.beyond i state.selectSet = true ∧
              i ∈ state.kernel.clients then some ⟨i, answers⟩
          else none
      | _ => none

def sentCalls (events : List Event) : List SendCall :=
  events.flatMap fun
    | .broadcast _ sends => sends
    | _ => []

/-- An ended or failed connection is closed and forgotten; nobody is told of a
failure, everybody else is of an end; after a message the client stays. -/
structure Handles (state : State) (i : Int) (result : RecvResult) (final : State)
    (events : List Event) : Prop where
  closes : result = .error ∨ result = .bytes [] →
    .closed i ∈ events ∧ i ∉ final.kernel.openFds ∧ final.masterSet = state.masterSet.erase i
  silent : result = .error → ∀ call ∈ sentCalls events, call.payload = []
  leaves : result = .bytes [] → Room.Fanout state.kernel.clients i (Notice.left i).text
    ((sentCalls events).map SendCall.addressed)
  stays : ∀ text, result = .bytes text → text ≠ [] →
    final.masterSet = state.masterSet ∧ i ∈ final.kernel.openFds

theorem heard_cases {state : State} {input : Input} {reception : Reception}
    (received : reception ∈ heard state input) :
    input = .turn reception.answers ∧ state.Visits reception.answers reception.fd ∧
      reception.fd ∈ state.kernel.clients := by
  cases input with
  | select reply => cases received
  | turn answers =>
      cases pc : state.pc with
      | selecting => simp [heard, pc] at received
      | exited => simp [heard, pc] at received
      | scanning i =>
          simp only [heard, pc, Option.mem_def, Option.ite_none_right_eq_some,
            Option.some.injEq] at received
          obtain ⟨⟨reached, ready, isClient⟩, rfl⟩ := received
          exact ⟨rfl, ⟨pc, reached, ready⟩, isClient⟩

/-- One more than the largest `int`. -/
def intRange : Int := 2147483648

theorem length_left_le_bufferSize {fd : Int} (nonneg : 0 ≤ fd) (below : fd < intRange) :
    (Notice.left fd).text.length ≤ bufferSize := by
  have digits : (decimal fd).length ≤ 10 :=
    length_decimal_le nonneg (by decide) (by simp only [intRange] at below; omega)
  have user : (ascii "User ").length = 5 := by decide
  have left : (ascii " left\n").length = 6 := by decide
  simp only [Notice.text, List.length_append, user, left, bufferSize]
  omega

section Turns

variable {limit : Int} {state : State} {i : Int} {answers : Answers}

/-- After an end of stream the server does what it should, if the loop that
tells the others reads the truth. -/
theorem handles_end_iff (consistent : Consistent limit state) (representable : limit ≤ intRange)
    (isClient : i ∈ state.kernel.clients) (result : answers.recv = .bytes []) :
    Handles state i (.bytes [])
        { (recvTurn state i answers).1 with pc := .scanning (i + 1) }
        (.indexed i i :: (recvTurn state i answers).2) ↔
      ReadsTrue state answers.beyond i := by
  have nonneg := consistent.serves.clientsNonneg i isClient
  have below := consistent.openBelow i (consistent.serves.clientsOpen isClient)
  have text := cString_announce (Notice.zero_notMem_text (by simp))
    (length_left_le_bufferSize nonneg (Int.lt_of_lt_of_le below representable))
    consistent.arrays.2
  have fanout : Room.Fanout state.kernel.clients i (Notice.left i).text
      ((broadcast state (.left i) (Notice.left i).text (Notice.left i).text.length answers).map
        SendCall.addressed) ↔ ReadsTrue state answers.beyond i :=
    consistent.fanout_iff (.left i) _ _
  rw [recvTurn_hungUp state i result, text]
  constructor
  · intro handles
    have sent := handles.leaves rfl
    exact fanout.mp (by simpa [sentCalls] using sent)
  · intro reads
    have sent := fanout.mpr reads
    exact {
      closes := by
        intro _
        refine ⟨by simp, Finset.notMem_erase i _, ?_⟩
        ext fd
        exact consistent.mem_fdClr.trans Finset.mem_erase.symm
      silent := by simp
      leaves := fun _ => by simpa [sentCalls] using sent
      stays := by
        intro text same some
        exact absurd (RecvResult.bytes.inj same).symm some }

theorem handles_message {text : List Byte} (consistent : Consistent limit state)
    (isClient : i ∈ state.kernel.clients) (fits : answers.recv.Fits bufferSize)
    (result : answers.recv = .bytes text) (some : text ≠ []) :
    Handles state i (.bytes text)
      { (recvTurn state i answers).1 with pc := .scanning (i + 1) }
      (.indexed i i :: (recvTurn state i answers).2) := by
  have message : answers.recv ≠ .bytes [] := by simpa [result] using some
  rw [recvTurn_message fits message rfl rfl]
  exact {
    closes := by simp [some]
    silent := by simp
    leaves := by simp [some]
    stays := fun _ _ _ => ⟨rfl, consistent.serves.clientsOpen isClient⟩ }

/-- A failed `recv` is handled as a message would be: the client stays open. -/
theorem not_handles_error (consistent : Consistent limit state)
    (isClient : i ∈ state.kernel.clients) (result : answers.recv = .error)
    (events : List Event) :
    ¬ Handles state i .error { (recvTurn state i answers).1 with pc := .scanning (i + 1) }
      events := by
  intro handles
  have closed := (handles.closes (.inl rfl)).2.1
  have fits : answers.recv.Fits bufferSize := by
    rw [result]
    exact trivial
  rw [recvTurn_message fits (by simp [result]) rfl rfl] at closed
  exact closed (consistent.serves.clientsOpen isClient)

theorem reception_handles_iff {input : Input} {reception : Reception}
    (consistent : Consistent limit state) (representable : limit ≤ intRange)
    (admitted : (telnetservermain limit).admits state input)
    (received : reception ∈ heard state input) :
    Handles state reception.fd reception.answers.recv ((telnetservermain limit).next state input)
        ((telnetservermain limit).emits state input) ↔
      reception.answers.recv ≠ .error ∧
        (reception.answers.recv = .bytes [] →
          ReadsTrue state reception.answers.beyond reception.fd) := by
  obtain ⟨rfl, visits, isClient⟩ := heard_cases received
  have notListener : reception.fd ≠ state.listener :=
    fun same => consistent.serves.listenerNotClient (same ▸ isClient)
  simp only [telnetservermain, Admits, visits.scanning] at admitted
  have fits := admitted.2.2.1
  rw [next_visits visits notListener, emits_visits visits notListener]
  cases result : reception.answers.recv with
  | error => simpa using not_handles_error consistent isClient result _
  | bytes text =>
      by_cases none : text = []
      · subst none
        simpa using handles_end_iff consistent representable isClient result
      · simpa [none] using handles_message consistent isClient fits result none

end Turns

theorem run_handles_iff {limit : Int} {steps : List (State × Input)} {final : State}
    (representable : limit ≤ intRange) (run : (telnetservermain limit).Run steps final)
    {entry : State × Input} (member : entry ∈ steps) {reception : Reception}
    (received : reception ∈ heard entry.1 entry.2) :
    Handles entry.1 reception.fd reception.answers.recv
        ((telnetservermain limit).next entry.1 entry.2)
        ((telnetservermain limit).emits entry.1 entry.2) ↔
      reception.answers.recv ≠ .error ∧
        (reception.answers.recv = .bytes [] →
          ReadsTrue entry.1 reception.answers.beyond reception.fd) := by
  obtain ⟨_, earlier, admitted⟩ := run.of_mem member
  exact reception_handles_iff (run_consistent earlier) representable admitted received

/-- Every result of `recv` is handled. -/
def HandlesAll (limit : Int) (steps : List (State × Input)) : Prop :=
  ∀ entry ∈ steps, ∀ reception ∈ heard entry.1 entry.2,
    Handles entry.1 reception.fd reception.answers.recv
      ((telnetservermain limit).next entry.1 entry.2)
      ((telnetservermain limit).emits entry.1 entry.2)

/-- Client 4 connects and is ready in the next round. -/
def departure (result : RecvResult) : List Input :=
  [selectReports {3}] ++ idleTurns 3 ++ [turnWith 4 .error] ++ idleTurns 3 ++
    [selectReports {4}] ++ idleTurns 4 ++ [turnWith (-1) result]

end CBasics.SelectServer
