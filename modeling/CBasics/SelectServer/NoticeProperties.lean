import CBasics.SelectServer.Outcome

/-! The texts in the two arrays. As long as clients send text without NULs, the
buffer is one string and padding, and a join notice is written over zeros. -/

set_option autoImplicit false

namespace CBasics.SelectServer

open Library

theorem zero_notMem_prependString (fd : Int) : 0 ∉ prependString fd := by
  have user : 0 ∉ ascii "User " := by decide
  have colon : 0 ∉ ascii ":" := by decide
  simp [prependString, user, colon, zero_notMem_decimal]

theorem Notice.zero_notMem_text {notice : Notice}
    (noNul : ∀ fd text bytesReceived, notice = .message fd text bytesReceived → 0 ∉ text) :
    0 ∉ notice.text := by
  have user : 0 ∉ ascii "User " := by decide
  cases notice with
  | joined newFd =>
      have joined : 0 ∉ ascii " joined\n" := by decide
      simp [Notice.text, user, joined, zero_notMem_decimal]
  | left fd =>
      have left : 0 ∉ ascii " left\n" := by decide
      simp [Notice.text, user, left, zero_notMem_decimal]
  | message fd text bytesReceived =>
      have blank : 0 ∉ ascii " " := by decide
      simp [Notice.text, blank, zero_notMem_prependString, noNul fd text bytesReceived rfl]

/-- A leave notice has at most these characters; a join notice with its
terminator has at least as many. -/
def noticeRoom : Nat := 15

theorem length_left_le {fd : Int} (range : inRange fd) :
    (Notice.left fd).text.length ≤ noticeRoom := by
  have below := range.2
  have digits : (decimal fd).length ≤ 4 :=
    length_decimal_le range.1 (by decide) (by simp only [fdSetSize] at below; omega)
  have user : (ascii "User ").length = 5 := by decide
  have left : (ascii " left\n").length = 6 := by decide
  simp only [Notice.text, List.length_append, user, left, noticeRoom]
  omega

theorem noticeRoom_le_joined (fd : Int) :
    noticeRoom ≤ (Notice.joined fd).text.length + 1 := by
  have digits := length_decimal_pos fd
  have user : (ascii "User ").length = 5 := by decide
  have joined : (ascii " joined\n").length = 8 := by decide
  simp only [Notice.text, List.length_append, user, joined, noticeRoom]
  omega

theorem length_joined_lt {fd : Int} (range : inRange fd) :
    (Notice.joined fd).text.length < bufferSize := by
  have below := range.2
  have digits : (decimal fd).length ≤ 4 :=
    length_decimal_le range.1 (by decide) (by simp only [fdSetSize] at below; omega)
  have user : (ascii "User ").length = 5 := by decide
  have joined : (ascii " joined\n").length = 8 := by decide
  simp only [Notice.text, List.length_append, user, joined, bufferSize]
  omega

/-- The buffer is a string and padding; until the scan has come past the
listener, nothing longer than a leave notice was written for it. -/
structure Shape (state : State) : Prop where
  buffer : Padded state.buffer
  serverMessage : ∀ i, state.pc = .scanning i → i ≤ state.listener →
    ZeroFrom noticeRoom state.serverMessage

def Event.NulFree : Event → Prop
  | .received _ (.bytes text) => 0 ∉ text
  | _ => True

instance (event : Event) : Decidable event.NulFree := by
  unfold Event.NulFree
  split <;> infer_instance

theorem padded_receive {state : State} (padded : Padded state.buffer) {result : RecvResult}
    (noNul : ∀ received, result = .bytes received → 0 ∉ received) :
    Padded (state.receive result).buffer := by
  cases result with
  | error => exact padded
  | bytes received => exact (padded_append (noNul received rfl)).mpr (padded.drop _)

theorem padded_format {state : State} (padded : Padded state.buffer) (i : Int)
    (bytesReceived : Nat) :
    Padded (state.format (.message i (cString state.buffer) bytesReceived)).buffer := by
  refine padded_putString (Notice.zero_notMem_text ?_) ?_
  · intro fd text count same
    cases same
    exact zero_notMem_cString _
  · refine padded.zeroFrom.mono ?_
    simp only [Notice.text, List.length_append]
    omega

section Shapes

variable {limit : Int} {state final : State} {input : Input} {events : List Event}

theorem Shape.initial (initial : (telnetservermain limit).initial state) : Shape state := by
  obtain ⟨listener, serverMessage, openFds, -, -, -, -, rfl⟩ := initial
  exact {
    buffer := padded_zeros fun _ member => List.eq_of_mem_replicate member
    serverMessage := by simp [startUp] }

theorem Shape.outcome (shape : Shape state) (invariant : Invariant limit state)
    (small : limit ≤ fdSetSize) (outcome : Outcome state input final events)
    (admitted : (telnetservermain limit).admits state input)
    (noNul : ∀ event ∈ events, event.NulFree) :
    Shape final := by
  have cleared : Padded (List.replicate bufferSize 0) :=
    padded_zeros fun _ member => List.eq_of_mem_replicate member
  have ahead : ∀ {i : Int}, state.pc = .scanning i → ∀ i', Pc.scanning (i + 1) = .scanning i' →
      i' ≤ state.listener → ZeroFrom noticeRoom state.serverMessage := by
    intro i scanning i' next later
    cases next
    exact shape.serverMessage i scanning (by omega)
  cases outcome with
  | selectFailed => exact ⟨cleared, fun _ _ _ => zeroFrom_replicate _ _⟩
  | timedOut => exact ⟨cleared, fun _ _ _ => zeroFrom_replicate _ _⟩
  | selected => exact ⟨cleared, fun _ _ _ => zeroFrom_replicate _ _⟩
  | passEnded => exact ⟨shape.buffer, by simp⟩
  | idle scanning => exact ⟨shape.buffer, ahead scanning⟩
  | acceptFailed visits => exact ⟨shape.buffer, ahead visits.scanning⟩
  | accepted =>
      refine ⟨shape.buffer, ?_⟩
      intro i next later
      cases next
      have passed : state.listener + 1 ≤ state.listener := later
      omega
  | hungUp visits _ result =>
      refine ⟨shape.buffer, ?_⟩
      intro i next later
      have range := invariant.hungUp_inRange small visits admitted result
      exact (ahead visits.scanning i next later).putString (length_left_le range)
  | @message i answers _ _ _ visits _ _ storedEq noticeEq =>
      subst storedEq noticeEq
      have clean : ∀ received, answers.recv = .bytes received → 0 ∉ received := by
        intro received same
        exact noNul (.received i (.bytes received)) (by simp [same])
      exact ⟨padded_format (padded_receive shape.buffer clean) _ _, ahead visits.scanning⟩

theorem run_shape (small : limit ≤ fdSetSize) {steps : List (State × Input)}
    (run : (telnetservermain limit).Run steps state)
    (noNul : ∀ event ∈ (telnetservermain limit).trace steps, event.NulFree) : Shape state := by
  refine run.traceInvariant
    (fun events state => (∀ event ∈ events, event.NulFree) → Shape state) ?_ ?_ noNul
  · intro state initial _
    exact .initial initial
  · intro events steps state input run shape admitted noNul
    obtain ⟨before, here⟩ := List.forall_mem_append.mp noNul
    exact (shape before).outcome (run_invariant small run) small (outcome admitted) admitted here

end Shapes

theorem messageLength_bytes {text : List Byte} (fits : text.length ≤ bufferSize) :
    messageLength (.bytes text) = text.length + prependSize := by
  simp only [messageLength, sizeT, RecvResult.count, bufferSize, prependSize] at fits ⊢
  omega

theorem nonzero_formatted {buffer line : List Byte} (noNul : 0 ∉ line)
    (padded : Padded (putString buffer line)) {length : Nat} (fits : length ≤ buffer.length) :
    nonzero ((putString buffer line).take length) = line.take length := by
  rw [(padded.take length).nonzero_eq, cString_take, cString_putString buffer noNul, List.take_take,
    Nat.min_eq_left fits]

/-- The join notice is sent with the padding of the whole array. -/
theorem nonzero_joined {state : State} {newFd : Int} (range : inRange newFd)
    (zero : ZeroFrom noticeRoom state.serverMessage)
    (full : state.serverMessage.length = bufferSize) :
    nonzero (state.join newFd).serverMessage = (Notice.joined newFd).text := by
  have noNul : 0 ∉ (Notice.joined newFd).text := Notice.zero_notMem_text (by simp)
  have padded := padded_putString noNul (zero.mono (noticeRoom_le_joined newFd))
  have short := length_joined_lt range
  have string := padded.nonzero_eq.trans (cString_putString state.serverMessage noNul)
  rwa [List.take_of_length_le (by omega)] at string

theorem cString_announce {state : State} {notice : Notice} (noNul : 0 ∉ notice.text)
    (short : notice.text.length ≤ bufferSize) (full : state.serverMessage.length = bufferSize) :
    cString (state.announce notice).serverMessage = notice.text :=
  (cString_putString state.serverMessage noNul).trans (List.take_of_length_le (full ▸ short))

/-- The leave notice is sent up to its terminator. -/
theorem cString_left {state : State} {fd : Int} (range : inRange fd)
    (full : state.serverMessage.length = bufferSize) :
    cString (state.announce (.left fd)).serverMessage = (Notice.left fd).text := by
  refine cString_announce (Notice.zero_notMem_text (by simp)) ?_ full
  exact Nat.le_trans (length_left_le range) (by decide)

section Copies

def Target.size : Target → Nat
  | .serverMessage => bufferSize
  | .message => bufferSize
  | .prependString => prependSize
  | .buffer => bufferSize

/-- A string that is copied fits the array it is written to. -/
def Event.CopyFits : Event → Prop
  | .copied target bytes => bytes ≤ target.size
  | _ => True

instance : (event : Event) → Decidable event.CopyFits
  | .copied target bytes => inferInstanceAs (Decidable (bytes ≤ target.size))
  | .selected .. | .accepted _ | .received .. | .broadcast .. | .closed _ | .indexed .. =>
      isTrue trivial

/-- The label and the line that is made of the whole string in the buffer after
`recv` fit their arrays. -/
def LineFits (buffer : List Byte) (fd : Int) (result : RecvResult) : Prop :=
  (prependString fd).length + 1 ≤ prependSize ∧
    (prependString fd).length + 2 + (cString (result.store buffer)).length ≤ bufferSize

instance (buffer : List Byte) (fd : Int) (result : RecvResult) :
    Decidable (LineFits buffer fd result) :=
  inferInstanceAs (Decidable (_ ∧ _))

theorem length_text_messageOf (state : State) (i : Int) (result : RecvResult) :
    (state.messageOf i result).text.length =
      (prependString i).length + 1 + (cString state.buffer).length := by
  have blank : (ascii " ").length = 1 := by decide
  simp only [State.messageOf, Notice.text, List.length_append, blank]

/-- The three copies that make a message of the buffer fit exactly if the line does. -/
theorem messageCopies_iff (state : State) (i : Int) (result : RecvResult) :
    (cString (state.receive result).buffer).length + 1 ≤ bufferSize ∧
        (prependString i).length + 1 ≤ prependSize ∧
        ((state.receive result).messageOf i result).text.length + 1 ≤ bufferSize ↔
      LineFits state.buffer i result := by
  have stored : (state.receive result).buffer = result.store state.buffer := rfl
  rw [length_text_messageOf, stored, LineFits]
  constructor
  · rintro ⟨-, label, line⟩
    exact ⟨label, by omega⟩
  · rintro ⟨label, line⟩
    exact ⟨by omega, label, by omega⟩

end Copies

end CBasics.SelectServer
