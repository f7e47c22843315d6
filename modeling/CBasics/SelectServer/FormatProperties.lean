import CBasics.SelectServer.NoticeProperties

/-! The line that is made of a message in the buffer it was received into: what
of it is sent, and whether the arrays hold it. -/

set_option autoImplicit false

namespace CBasics.SelectServer

open Library

/-- The loops over the master set find nobody else to send to. -/
def Alone (state : State) (answers : Answers) (i : Int) : Prop :=
  ∀ j ∈ descriptors state.fdMax, fdIsSet answers.beyond j state.masterSet = true →
    j = state.listener ∨ j = i

instance (state : State) (answers : Answers) (i : Int) : Decidable (Alone state answers i) :=
  inferInstanceAs (Decidable (∀ j ∈ _, _))

theorem forall_broadcast_iff {state : State} {answers : Answers} {notice : Notice}
    {payload : List Byte} {length : Nat} {P : List Byte → Nat → Prop} :
    (∀ call ∈ broadcast state notice payload length answers, P call.payload call.length) ↔
      Alone state answers notice.about ∨ P payload length := by
  rw [broadcast, List.forall_mem_map]
  constructor
  · intro all
    by_cases holds : P payload length
    · exact .inr holds
    · refine .inl fun j inside isSet => ?_
      by_contra other
      exact holds (all j (List.mem_filter.mpr ⟨inside, by simpa [isSet] using other⟩))
  · rintro (alone | holds) j member
    · obtain ⟨inside, sent⟩ := List.mem_filter.mp member
      obtain ⟨isSet, notListener, other⟩ := of_decide_eq_true sent
      exact absurd (alone j inside isSet) (by tauto)
    · exact holds

/-- A client's text, and what else the calls of its turn answer. -/
structure Speech where
  fd : Int
  text : List Byte
  answers : Answers

/-- The turn receives a short text without NULs from a client up to 999. -/
def spoken (state : State) : Input → Option Speech
  | .select _ => none
  | .turn answers =>
      match state.pc, answers.recv with
      | .scanning i, .bytes text =>
          if i ≤ state.fdMax + 1 ∧ fdIsSet answers.beyond i state.selectSet = true ∧
              i ≠ state.listener ∧ i ≤ 999 ∧ text ≠ [] ∧ 0 ∉ text ∧
              text.length + prependSize < bufferSize then some ⟨i, text, answers⟩
          else none
      | _, _ => none

/-- The payload of every send is the label, the text and only NULs. -/
def Event.CarriesOnly (i : Int) (text : List Byte) : Event → Prop
  | .broadcast _ sends => ∀ call ∈ sends, ∃ count,
      call.payload = prependString i ++ ascii " " ++ text ++ List.replicate count 0
  | _ => True

/-- Nothing of what was in the buffer is sent: it was left with a NUL where the
text ends, and with another where the label of one digit makes the length reach,
or the label leaves no room. -/
def NoneSent (buffer : List Byte) (i : Int) (text : List Byte) : Prop :=
  100 ≤ i ∨ buffer[text.length]? = some 0 ∧ (10 ≤ i ∨ buffer[text.length + 9]? = some 0)

instance (buffer : List Byte) (i : Int) (text : List Byte) : Decidable (NoneSent buffer i text) :=
  inferInstanceAs (Decidable (_ ∨ _ ∧ (_ ∨ _)))

/-- The line fits with all that was left behind the text, and of that nothing is
sent, or there is nobody to send it to. -/
def Unmixed (state : State) (answers : Answers) (i : Int) (text : List Byte) : Prop :=
  LineFits state.buffer i (.bytes text) ∧ (Alone state answers i ∨ NoneSent state.buffer i text)

instance (state : State) (answers : Answers) (i : Int) (text : List Byte) :
    Decidable (Unmixed state answers i text) :=
  inferInstanceAs (Decidable (_ ∧ (_ ∨ _)))

theorem spoken_cases {state : State} {input : Input} {speech : Speech}
    (said : speech ∈ spoken state input) :
    input = .turn speech.answers ∧ state.Visits speech.answers speech.fd ∧
      speech.fd ≠ state.listener ∧ speech.fd ≤ 999 ∧ speech.answers.recv = .bytes speech.text ∧
      speech.text ≠ [] ∧ 0 ∉ speech.text ∧ speech.text.length + prependSize < bufferSize := by
  cases input with
  | select reply => cases said
  | turn answers =>
      cases pc : state.pc with
      | selecting => simp [spoken, pc] at said
      | exited => simp [spoken, pc] at said
      | scanning i =>
          cases result : answers.recv with
          | error => simp [spoken, pc, result] at said
          | bytes text =>
              simp only [spoken, pc, result, Option.mem_def, Option.ite_none_right_eq_some,
                Option.some.injEq] at said
              obtain ⟨⟨reached, ready, isClient, upTo, some, noNul, short⟩, rfl⟩ := said
              exact ⟨rfl, ⟨pc, reached, ready⟩, isClient, upTo, result, some, noNul, short⟩

theorem length_prependString (fd : Int) :
    (prependString fd ++ ascii " ").length = (decimal fd).length + 7 := by
  have user : (ascii "User ").length = 5 := by decide
  have colon : (ascii ":").length = 1 := by decide
  have blank : (ascii " ").length = 1 := by decide
  simp only [prependString, List.length_append, user, colon, blank]
  omega

theorem lt_ten_iff {i : Int} (nonneg : 0 ≤ i) : (decimal i).length ≤ 1 ↔ i < 10 :=
  length_decimal_le_iff nonneg (by decide)

theorem lt_hundred_iff {i : Int} (nonneg : 0 ≤ i) : (decimal i).length ≤ 2 ↔ i < 100 :=
  length_decimal_le_iff nonneg (by decide)

/-- What is sent of the line is the label, the text and only NULs exactly if the
buffer was left so. -/
theorem line_carries_iff {buffer text : List Byte} {i : Int} (nonneg : 0 ≤ i) (upTo : i ≤ 999)
    (noNul : 0 ∉ text) (short : text.length + prependSize < bufferSize)
    (full : buffer.length = bufferSize) :
    (∃ count,
        (putString (text ++ buffer.drop text.length)
            (prependString i ++ ascii " " ++ cString (text ++ buffer.drop text.length))).take
          (text.length + prependSize) =
        prependString i ++ ascii " " ++ text ++ List.replicate count 0) ↔
      NoneSent buffer i text := by
  have label := length_prependString i
  have digits := length_decimal_pos i
  have one := lt_ten_iff nonneg
  have two := lt_hundred_iff nonneg
  have three : (decimal i).length ≤ 3 ↔ i < 1000 := length_decimal_le_iff nonneg (by decide)
  have size : prependSize = 10 := rfl
  have inside : text.length < buffer.length := by omega
  generalize prependString i ++ ascii " " = front at label ⊢
  have cut : text.length + prependSize = (front ++ text).length + (3 - (decimal i).length) := by
    rw [List.length_append]
    omega
  have room : (front ++ text).length + (3 - (decimal i).length) ≤
      (text ++ buffer.drop text.length).length := by
    simp only [List.length_append, List.length_drop]
    omega
  rw [cString_append noNul, ← List.append_assoc, cut, take_putString room,
    exists_append_replicate_iff, NoneSent, ← cString_drop_eq_nil_iff inside]
  by_cases many : 100 ≤ i
  · have none : 3 - (decimal i).length = 0 := by omega
    simp [none, many]
  by_cases some : 10 ≤ i
  · have last : 3 - (decimal i).length = 0 + 1 := by omega
    rw [last, take_cString_zeros_iff]
    simp [many, some]
  · have last : 3 - (decimal i).length = 1 + 1 := by omega
    have position : (front ++ text).length + 1 = text.length + 9 := by
      rw [List.length_append]
      omega
    have behind : (text ++ buffer.drop text.length).drop (text.length + 9) =
        buffer.drop (text.length + 9) := by
      rw [List.drop_append, List.drop_eq_nil_of_le (Nat.le_add_right _ 9), List.nil_append,
        Nat.add_sub_cancel_left, List.drop_drop]
    have room : text.length + 9 < buffer.length := by omega
    rw [last, take_cString_zeros_iff]
    simp only [many, some, false_or]
    refine and_congr_right fun empty => ?_
    rw [empty, List.append_nil, position, behind, List.drop_eq_getElem_cons room,
      List.getElem?_eq_getElem room]
    simp only [List.take_succ_cons, List.take_zero, List.forall_mem_singleton, Option.some.injEq]

/-- In a turn that receives a short text the copies fit and the broadcast carries
only that text, if and only if the line is unmixed. -/
theorem speech_carriesOnly_iff {limit : Int} {state : State} {input : Input} {speech : Speech}
    (consistent : Consistent limit state) (said : speech ∈ spoken state input) :
    (∀ event ∈ (telnetservermain limit).emits state input,
        event.CopyFits ∧ event.CarriesOnly speech.fd speech.text) ↔
      Unmixed state speech.answers speech.fd speech.text := by
  obtain ⟨rfl, visits, isClient, upTo, result, some, noNul, short⟩ := spoken_cases said
  have nonneg := consistent.index speech.fd visits.scanning
  have full := consistent.arrays.1
  have within : speech.text.length ≤ bufferSize := Nat.le_of_add_right_le (Nat.le_of_lt short)
  have fits : speech.answers.recv.Fits bufferSize := by
    rw [result]
    exact within
  have message : speech.answers.recv ≠ .bytes [] := by simpa [result] using some
  have copies := messageCopies_iff state speech.fd (.bytes speech.text)
  rw [emits_visits visits isClient, recvTurn_message fits message rfl rfl, result,
    messageLength_bytes within, Unmixed, ← copies,
    ← line_carries_iff nonneg upTo noNul short full]
  simp only [List.forall_mem_cons, Event.CopyFits, Event.CarriesOnly, Target.size, and_true,
    true_and]
  rw [and_iff_left (List.forall_mem_nil _)]
  simp only [and_assoc]
  refine and_congr_right fun _ => and_congr_right fun _ => and_congr_right fun _ => ?_
  exact forall_broadcast_iff (P := fun payload _ => ∃ count,
    payload = prependString speech.fd ++ ascii " " ++ speech.text ++ List.replicate count 0)

theorem run_carriesOnly_iff {limit : Int} {steps : List (State × Input)} {final : State}
    (run : (telnetservermain limit).Run steps final) {entry : State × Input}
    (member : entry ∈ steps) {speech : Speech} (said : speech ∈ spoken entry.1 entry.2) :
    (∀ event ∈ (telnetservermain limit).emits entry.1 entry.2,
        event.CopyFits ∧ event.CarriesOnly speech.fd speech.text) ↔
      Unmixed entry.1 speech.answers speech.fd speech.text := by
  obtain ⟨_, earlier, _⟩ := run.of_mem member
  exact speech_carriesOnly_iff (run_consistent earlier) said

/-- For every short text the copies fit, and the broadcast carries only the text. -/
def CarriesOnly (limit : Int) (steps : List (State × Input)) : Prop :=
  ∀ entry ∈ steps, ∀ speech ∈ spoken entry.1 entry.2,
    ∀ event ∈ (telnetservermain limit).emits entry.1 entry.2,
      event.CopyFits ∧ event.CarriesOnly speech.fd speech.text

/-- In every run the broadcast of a short text carries only that text, and its
line stays in the arrays, if and only if earlier texts left the buffer so. What a
longer text that overruns them does to other memory is not part of the state. -/
theorem carriesOnly_iff {limit : Int} {steps : List (State × Input)} {final : State}
    (run : (telnetservermain limit).Run steps final) :
    CarriesOnly limit steps ↔
      ∀ entry ∈ steps, ∀ speech ∈ spoken entry.1 entry.2,
        Unmixed entry.1 speech.answers speech.fd speech.text :=
  forall₂_congr fun _ member => forall₂_congr fun _ said => run_carriesOnly_iff run member said

/-- Clients 4 and 5 connect, and then both are ready. -/
def conversation (first second : List Byte) : List Input :=
  [selectReports {3}] ++ idleTurns 3 ++ [turnWith 4 .error] ++ idleTurns 3 ++
    [selectReports {3}] ++ idleTurns 3 ++ [turnWith 5 .error] ++ idleTurns 4 ++
    [selectReports {4, 5}] ++ idleTurns 4 ++
    [turnWith (-1) (.bytes first), turnWith (-1) (.bytes second)]

theorem carriesOnly_longer :
    CarriesOnly fdSetSize ((telnetservermain fdSetSize).follow freshServer
      (conversation [104, 105] (List.replicate 10 97))) :=
  (carriesOnly_iff (freshServer_run _ (by decide))).mpr (by decide +kernel)

/-- Client 4 says "hello world" and then client 5 "hi": what is sent for client 5
is "User 5: hier". -/
theorem not_carriesOnly_shorter :
    let steps := (telnetservermain fdSetSize).follow freshServer
      (conversation (ascii "hello world") (ascii "hi"))
    (telnetservermain fdSetSize).Run steps
        ((telnetservermain fdSetSize).finish freshServer
          (conversation (ascii "hello world") (ascii "hi"))) ∧
      ¬ CarriesOnly fdSetSize steps := by
  have run := freshServer_run (conversation (ascii "hello world") (ascii "hi")) (by decide)
  refine ⟨run, fun carries => ?_⟩
  have unmixed : ∀ entry ∈ (telnetservermain fdSetSize).follow freshServer
      (conversation (ascii "hello world") (ascii "hi")),
      ∀ speech ∈ spoken entry.1 entry.2,
        Unmixed entry.1 speech.answers speech.fd speech.text := by
    intro entry member speech said
    exact (run_carriesOnly_iff run member said).mp (carries entry member speech said)
  exact absurd unmixed (by decide +kernel)

section Arrays

/-- Strings fit the arrays they are written to, and sends the buffer. -/
def Event.InBounds : Event → Prop
  | .copied target bytes => bytes ≤ target.size
  | .broadcast _ sends => ∀ call ∈ sends, call.length ≤ bufferSize
  | _ => True

def InBounds (events : List Event) : Prop := ∀ event ∈ events, event.InBounds

/-- For every descriptor that a set has room for and every content of the buffer
after `recv`, the formatting of a message stays in bounds if and only if the
descriptor has at most three digits, the line fits the buffer, and the message
leaves the ten bytes that are added to its length, or nobody else is there. -/
theorem recvTurn_inBounds_iff {state : State} {i : Int} {answers : Answers} {received : List Byte}
    (range : inRange i) (result : answers.recv = .bytes received)
    (some : received ≠ []) (fits : received.length ≤ bufferSize) :
    InBounds (recvTurn state i answers).2 ↔
      i ≤ 999 ∧
        (decimal i).length + 8 +
          (cString (received ++ state.buffer.drop received.length)).length ≤ bufferSize ∧
        (received.length + prependSize ≤ bufferSize ∨ Alone state answers i) := by
  have message : answers.recv ≠ .bytes [] := by simpa [result] using some
  have within : answers.recv.Fits bufferSize := by
    rw [result]
    exact fits
  rw [recvTurn_message within message rfl rfl, result, messageLength_bytes fits]
  generalize noticeEq : (state.receive (.bytes received)).messageOf i (.bytes received) = notice
  have about : notice.about = i := noticeEq ▸ rfl
  have copied : (state.receive (.bytes received)).buffer =
      received ++ state.buffer.drop received.length := rfl
  have line : notice.text.length = (decimal i).length + 7 +
      (cString (received ++ state.buffer.drop received.length)).length := by
    rw [← noticeEq, ← length_prependString i]
    exact List.length_append
  have label : (prependString i).length = (decimal i).length + 6 := by
    have whole := length_prependString i
    rw [List.length_append] at whole
    exact Nat.succ.inj whole
  have digits : (decimal i).length ≤ 3 ↔ i < 1000 := length_decimal_le_iff range.1 (by decide)
  have size : prependSize = 10 := rfl
  simp only [InBounds, List.forall_mem_cons, Event.InBounds, Target.size, true_and]
  rw [forall_broadcast_iff (P := fun _ length => length ≤ bufferSize), about,
    and_iff_left (List.forall_mem_nil _), or_comm, line, label, copied]
  constructor
  · rintro ⟨_, labelFits, lineFits, sendFits⟩
    exact ⟨by omega, by omega, sendFits⟩
  · rintro ⟨upTo, lineFits, sendFits⟩
    exact ⟨by omega, by omega, by omega, sendFits⟩

def longText : List Byte := List.replicate 1000 97

theorem length_longText : longText.length = 1000 := List.length_replicate

/-- Client 4 alone, and 1000 bytes of text over zeros. -/
theorem recvTurn_inBounds_alone :
    InBounds (recvTurn (freshServer.join 4) 4 (answersWith (-1) (.bytes longText))).2 :=
  (recvTurn_inBounds_iff (by decide) rfl
    (List.ne_nil_of_length_pos (by rw [length_longText]; decide))
    (by rw [length_longText]; decide)).mpr (by decide +kernel)

/-- The label of client 1000 needs eleven bytes. -/
theorem recvTurn_not_inBounds_thousand :
    inRange 1000 ∧
      ¬ InBounds (recvTurn (freshServer.join 1000) 1000 (answersWith (-1) (.bytes [97]))).2 := by
  refine ⟨by decide, fun inBounds => ?_⟩
  have label : Event.copied .prependString 11 ∈
      (recvTurn (freshServer.join 1000) 1000 (answersWith (-1) (.bytes [97]))).2 := by
    decide +kernel
  have fits : 11 ≤ prependSize := inBounds _ label
  exact absurd fits (by decide)

end Arrays

end CBasics.SelectServer
