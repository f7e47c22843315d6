import CBasics.SelectServer.NoticeProperties
import CBasics.SelectServer.RegistryProperties
import CBasics.TelnetClient.Basic

/-! What one client is told by the server, and what its reading thread prints
of it. -/

set_option autoImplicit false

namespace CBasics.SelectServer

open Library

/-- The client an event is about and the text the others should read of it. -/
def Event.said : Event → Option (Int × List Byte)
  | .accepted newFd => if newFd = -1 then none else some (newFd, (Notice.joined newFd).text)
  | .received fd (.bytes []) => some (fd, (Notice.left fd).text)
  | .received fd (.bytes (first :: rest)) =>
      some (fd, prependString fd ++ ascii " " ++ (first :: rest))
  | _ => none

/-- All that others than `client` did and said, as text. -/
def told (client : Int) (trace : List Event) : List Byte :=
  trace.flatMap fun event =>
    match event.said with
    | some (about, text) => if about = client then [] else text
    | none => []

/-- The payloads passed to `send` for `client`, in order. -/
def sentTo (client : Int) (trace : List Event) : List (List Byte) :=
  trace.flatMap fun
    | .broadcast _ sends => (sends.filter fun call => call.fd = client).map SendCall.payload
    | _ => []

@[simp] theorem told_append (client : Int) (left right : List Event) :
    told client (left ++ right) = told client left ++ told client right := by
  simp [told]

@[simp] theorem sentTo_append (client : Int) (left right : List Event) :
    sentTo client (left ++ right) = sentTo client left ++ sentTo client right := by
  simp [sentTo]

/-- The label fits `prepend_string`, and what is sent for the text the buffer. -/
def FitsArrays (fd : Int) (text : List Byte) : Prop :=
  (prependString fd).length + 1 ≤ prependSize ∧ text.length + prependSize ≤ bufferSize

instance (fd : Int) (text : List Byte) : Decidable (FitsArrays fd text) :=
  inferInstanceAs (Decidable (_ ∧ _))

/-- From others than `client` come only hang-ups and texts that fit. -/
def Event.Legible (client : Int) : Event → Prop
  | .received fd .error => fd = client
  | .received fd (.bytes text) => fd = client ∨ text = [] ∨ FitsArrays fd text
  | _ => True

instance (client : Int) : (event : Event) → Decidable (event.Legible client)
  | .received fd .error => inferInstanceAs (Decidable (fd = client))
  | .received fd (.bytes text) =>
      inferInstanceAs (Decidable (fd = client ∨ text = [] ∨ FitsArrays fd text))
  | .selected .. | .accepted _ | .broadcast .. | .closed _ | .indexed .. | .copied .. =>
      isTrue trivial

/-- Nothing of what was in the buffer is sent: the label takes all the room there
is for more than the text, or the string left there is not longer than the text
received over it. -/
def Overwrites (buffer : List Byte) (fd : Int) (text : List Byte) : Prop :=
  (prependString fd).length + 1 = prependSize ∨ (cString buffer).length ≤ text.length

instance (buffer : List Byte) (fd : Int) (text : List Byte) :
    Decidable (Overwrites buffer fd text) :=
  inferInstanceAs (Decidable (_ ∨ _))

/-- What is sent after the text of a message: the end of the string that was in
the buffer, as far as the length reaches. -/
def leftover (buffer : List Byte) (fd : Int) (text : List Byte) : List Byte :=
  ((cString buffer).drop text.length).take (prependSize - ((prependString fd).length + 1))

/-- Nothing follows the text exactly if it overwrites what was there. -/
theorem leftover_eq_nil_iff {buffer : List Byte} {fd : Int} {text : List Byte}
    (fits : FitsArrays fd text) : leftover buffer fd text = [] ↔ Overwrites buffer fd text := by
  have label := fits.1
  rw [leftover, List.take_eq_nil_iff, List.drop_eq_nil_iff, Overwrites]
  exact or_congr ⟨fun none => by omega, fun full => by omega⟩ Iff.rfl

/-- Nothing but the text is sent to `client` of a message of somebody else. -/
def Event.Tailless (client : Int) (buffer : List Byte) : Event → Prop
  | .received fd (.bytes text) => fd = client ∨ text = [] ∨ Overwrites buffer fd text
  | _ => True

instance (client : Int) (buffer : List Byte) : (event : Event) →
    Decidable (event.Tailless client buffer)
  | .received fd (.bytes text) =>
      inferInstanceAs (Decidable (fd = client ∨ text = [] ∨ Overwrites buffer fd text))
  | .received _ .error | .selected .. | .accepted _ | .broadcast .. | .closed _ | .indexed .. |
    .copied .. => isTrue trivial

/-- The line that is made after this `recv` fits, with all that was left in the
buffer behind what was received. -/
def Event.LineFits (buffer : List Byte) : Event → Prop
  | .received fd result => result = .bytes [] ∨ SelectServer.LineFits buffer fd result
  | _ => True

instance (buffer : List Byte) : (event : Event) → Decidable (event.LineFits buffer)
  | .received _ _ => inferInstanceAs (Decidable (_ ∨ SelectServer.LineFits _ _ _))
  | .selected .. | .accepted _ | .broadcast .. | .closed _ | .indexed .. | .copied .. =>
      isTrue trivial

def eventsOf (entry : State × Input) : List Event :=
  (telnetservermain fdSetSize).emits entry.1 entry.2

def TaillessStep (client : Int) (entry : State × Input) : Prop :=
  ∀ event ∈ eventsOf entry, event.Tailless client entry.1.buffer

/-- What an earlier text left in the buffer neither is sent to `client` behind a
text of this step nor makes its line too long for the arrays. -/
def CleanStep (client : Int) (entry : State × Input) : Prop :=
  ∀ event ∈ eventsOf entry,
    event.Tailless client entry.1.buffer ∧ event.LineFits entry.1.buffer

instance (client : Int) (entry : State × Input) : Decidable (CleanStep client entry) :=
  inferInstanceAs (Decidable (∀ event ∈ _, Event.Tailless client entry.1.buffer event ∧
    Event.LineFits entry.1.buffer event))

section Steps

variable {state final : State} {input : Input} {events : List Event} {client : Int}

theorem Invariant.sentTo_broadcast (invariant : Invariant fdSetSize state) (notice : Notice)
    (payload : List Byte) (length : Nat) (answers : Answers)
    (member : client ∈ state.kernel.clients) :
    ((broadcast state notice payload length answers).filter fun call => call.fd = client).map
      SendCall.payload = if notice.about = client then [] else [payload] := by
  have fanout := invariant.fanout (Int.le_refl _) notice payload length answers
  rw [SendCall.map_payload_filter, fanout.filter_eq]
  by_cases same : notice.about = client
  · simp [same]
  · simp [same, member, Ne.symm same]

/-- What another client's `recv` gives, unless it ends, is a text that fits. -/
theorem Event.Legible.text {i : Int} {result : RecvResult}
    (legible : (Event.received i result).Legible client)
    (noNul : (Event.received i result).NulFree) (other : i ≠ client) (some : result ≠ .bytes []) :
    ∃ text, result = .bytes text ∧ text ≠ [] ∧ 0 ∉ text ∧ FitsArrays i text := by
  cases result with
  | error => exact absurd legible other
  | bytes text =>
      have nonempty : text ≠ [] := by
        rintro rfl
        exact some rfl
      have fits := (legible.resolve_left other).resolve_left nonempty
      exact ⟨text, rfl, nonempty, noNul, fits⟩

/-- What is sent of a message is the label, the user's text and the leftover. -/
theorem nonzero_message (shape : Shape state) (full : state.buffer.length = bufferSize) {i : Int}
    {text : List Byte} (noNul : 0 ∉ text) (fits : FitsArrays i text) {stored : State}
    {notice : Notice} (storedEq : stored = state.receive (.bytes text))
    (noticeEq : notice = stored.messageOf i (.bytes text)) :
    nonzero ((stored.format notice).buffer.take (messageLength (.bytes text))) =
      (prependString i ++ ascii " " ++ text) ++ leftover state.buffer i text := by
  subst noticeEq storedEq
  obtain ⟨label, room⟩ := fits
  have short : text.length ≤ bufferSize := Nat.le_of_add_right_le room
  have padded : Padded (state.receive (.bytes text)).buffer :=
    padded_receive shape.buffer fun received same => RecvResult.bytes.inj same ▸ noNul
  have copied : cString (state.receive (.bytes text)).buffer =
      text ++ (cString state.buffer).drop text.length := by
    rw [State.receive, RecvResult.store, cString_append noNul, shape.buffer.cString_drop]
  have bound : (RecvResult.bytes text).Fits state.buffer.length := by
    have within : text.length ≤ state.buffer.length := by omega
    exact within
  have length : (state.receive (.bytes text)).buffer.length = bufferSize :=
    (RecvResult.length_store bound).trans full
  have lineNoNul : 0 ∉ ((state.receive (.bytes text)).messageOf i (.bytes text)).text := by
    refine Notice.zero_notMem_text ?_
    intro fd copy count same
    cases same
    exact zero_notMem_cString _
  have cut : messageLength (.bytes text) =
      (prependString i ++ ascii " " ++ text).length +
        (prependSize - ((prependString i).length + 1)) := by
    have blank : (ascii " ").length = 1 := by decide
    simp only [messageLength_bytes short, List.length_append, blank]
    omega
  have enough : messageLength (.bytes text) ≤ (state.receive (.bytes text)).buffer.length := by
    rw [messageLength_bytes short, length]
    exact room
  refine (nonzero_formatted lineNoNul (padded_format padded i _) enough).trans ?_
  rw [cut, State.messageOf, Notice.text, copied, ← List.append_assoc, List.take_length_add_append,
    leftover]

/-- In a step that leaves a client connected, what it is sent is what the
others did and said, and more unless the step is clean. -/
theorem Outcome.carries (outcome : Outcome state input final events)
    (invariant : Invariant fdSetSize state) (shape : Shape state)
    (admitted : (telnetservermain fdSetSize).admits state input)
    (noNul : ∀ event ∈ events, event.NulFree) (legible : ∀ event ∈ events, event.Legible client)
    (member : client ∈ state.kernel.clients) (stays : .closed client ∉ events) :
    ∃ excess, nonzero (sentTo client events).flatten = told client events ++ excess ∧
      (excess = [] ↔ ∀ event ∈ events, event.Tailless client state.buffer) := by
  have small : fdSetSize ≤ fdSetSize := Int.le_refl _
  cases outcome with
  | selectFailed => exact ⟨[], rfl, by simp [State.selectCall, Event.Tailless]⟩
  | timedOut => exact ⟨[], rfl, by simp [State.selectCall, Event.Tailless]⟩
  | selected => exact ⟨[], rfl, by simp [State.selectCall, Event.Tailless]⟩
  | passEnded => exact ⟨[], rfl, by simp⟩
  | idle => exact ⟨[], rfl, by simp [Event.Tailless]⟩
  | acceptFailed => exact ⟨[], rfl, by simp [Event.Tailless]⟩
  | @accepted answers visits nonneg fresh =>
      have zero := shape.serverMessage _ visits.scanning (Int.le_refl _)
      simp only [telnetservermain, Admits, visits.scanning] at admitted
      have below := admitted.2.1
      have joined := invariant.join small nonneg fresh below
      have other : answers.accept ≠ client :=
        fun same => fresh (same ▸ invariant.serves.clientsOpen member)
      have succeeded : answers.accept ≠ -1 := by omega
      have sent := joined.sentTo_broadcast (.joined answers.accept)
        (state.join answers.accept).serverMessage bufferSize answers
        (Finset.mem_insert_of_mem member)
      rw [Notice.about, if_neg other] at sent
      refine ⟨[], ?_, by simp [Event.Tailless]⟩
      simp [sentTo, sent, told, Event.said, succeeded, other,
        nonzero_joined ⟨nonneg, below⟩ zero invariant.arrays.2]
  | @hungUp i answers visits isClient result =>
      have other : i ≠ client := by
        rintro rfl
        simp at stays
      have range := invariant.hungUp_inRange small visits admitted result
      have noNul : 0 ∉ (Notice.left i).text := Notice.zero_notMem_text (by simp)
      have sent := invariant.sentTo_broadcast (.left i) (Notice.left i).text
        (Notice.left i).text.length answers member
      rw [Notice.about, if_neg other] at sent
      rw [cString_left range invariant.arrays.2]
      refine ⟨[], ?_, by simp [Event.Tailless]⟩
      simp [sentTo, sent, told, Event.said, other, nonzero_eq_self noNul]
  | @message i answers stored notice length visits isClient some storedEq noticeEq lengthEq =>
      have sent := invariant.sentTo_broadcast notice
        ((stored.format notice).buffer.take length) length answers member
      have about : notice.about = i := by
        rw [noticeEq]
        rfl
      by_cases same : i = client
      · rw [about, if_pos same] at sent
        refine ⟨[], ?_, ?_⟩
        · cases answers.recv with
          | error => simp [sentTo, sent, told, Event.said]
          | bytes text => cases text <;> simp [sentTo, sent, told, Event.said, same]
        · cases answers.recv with
          | error => simp [Event.Tailless]
          | bytes text => simp [Event.Tailless, same]
      · rw [about, if_neg same] at sent
        obtain ⟨text, result, nonempty, clean, fits⟩ :=
          Event.Legible.text (legible (.received i answers.recv) (by simp))
            (noNul (.received i answers.recv) (by simp)) same some
        rw [result] at storedEq noticeEq lengthEq
        have payload := nonzero_message shape invariant.arrays.1 clean fits storedEq noticeEq
        rw [← lengthEq] at payload
        have none := @leftover_eq_nil_iff state.buffer i text fits
        obtain ⟨first, rest, rfl⟩ := List.exists_cons_of_ne_nil nonempty
        refine ⟨leftover state.buffer i (first :: rest), ?_, ?_⟩
        · simpa [sentTo, sent, told, Event.said, same, result] using payload
        · simpa [Event.Tailless, same, result] using none

/-- The copies of a step fit if and only if the line does that it makes. -/
theorem Outcome.copies_iff (outcome : Outcome state input final events)
    (invariant : Invariant fdSetSize state)
    (admitted : (telnetservermain fdSetSize).admits state input) :
    (∀ event ∈ events, event.CopyFits) ↔ ∀ event ∈ events, event.LineFits state.buffer := by
  have small : fdSetSize ≤ fdSetSize := Int.le_refl _
  cases outcome with
  | selectFailed => simp [State.selectCall, Event.CopyFits, Event.LineFits]
  | timedOut => simp [State.selectCall, Event.CopyFits, Event.LineFits]
  | selected => simp [State.selectCall, Event.CopyFits, Event.LineFits]
  | passEnded => simp
  | idle => simp [Event.CopyFits, Event.LineFits]
  | acceptFailed => simp [Event.CopyFits, Event.LineFits]
  | @accepted answers visits nonneg fresh =>
      simp only [telnetservermain, Admits, visits.scanning] at admitted
      have fits : (Notice.joined answers.accept).text.length + 1 ≤ bufferSize :=
        length_joined_lt ⟨nonneg, admitted.2.1⟩
      simp [Event.CopyFits, Event.LineFits, Target.size, fits]
  | @hungUp i answers visits isClient result =>
      have range := invariant.hungUp_inRange small visits admitted result
      have fits : (Notice.left i).text.length + 1 ≤ bufferSize :=
        Nat.le_trans (Nat.succ_le_succ (length_left_le range)) (by decide)
      simp [Event.CopyFits, Event.LineFits, Target.size, fits]
  | @message i answers stored notice length visits isClient some storedEq noticeEq =>
      subst storedEq noticeEq
      have copies := messageCopies_iff state i answers.recv
      simp only [List.forall_mem_cons, Event.CopyFits, Event.LineFits, Target.size, some,
        false_or, true_and]
      rw [and_iff_left (List.forall_mem_nil _), and_iff_left (List.forall_mem_nil _)]
      exact copies

end Steps

section Windows

theorem told_trace (client : Int) (steps : List (State × Input)) :
    told client ((telnetservermain fdSetSize).trace steps) =
      steps.flatMap fun entry => told client (eventsOf entry) := by
  induction steps with
  | nil => rfl
  | cons entry rest ih => rw [System.trace_cons, told_append, ih, List.flatMap_cons, eventsOf]

theorem nonzero_sentTo_trace (client : Int) (steps : List (State × Input)) :
    nonzero (sentTo client ((telnetservermain fdSetSize).trace steps)).flatten =
      steps.flatMap fun entry => nonzero (sentTo client (eventsOf entry)).flatten := by
  induction steps with
  | nil => rfl
  | cons entry rest ih =>
      rw [System.trace_cons, sentTo_append, List.flatten_append, nonzero_append, ih,
        List.flatMap_cons, eventsOf]

/-- A client's session: the steps since its `accept`, in which it is not closed
and the others send text that fits the arrays, or hang up. -/
structure Session (client : Int) (before : List (State × Input)) (joining : State × Input)
    (window : List (State × Input)) (final : State) : Prop where
  run : (telnetservermain fdSetSize).Run (before ++ joining :: window) final
  joined : .accepted client ∈ eventsOf joining
  succeeded : client ≠ -1
  stays : .closed client ∉ (telnetservermain fdSetSize).trace window
  noNul : ∀ event ∈ (telnetservermain fdSetSize).trace (before ++ joining :: window), event.NulFree
  legible : ∀ event ∈ (telnetservermain fdSetSize).trace window, event.Legible client

/-- Results of `recv` of 1 to 2047 bytes that make up what was sent. -/
structure Cuts (chunks : List (List Byte)) (sent : List (List Byte)) : Prop where
  stream : chunks.flatten = sent.flatten
  sized : ∀ chunk ∈ chunks, 1 ≤ chunk.length ∧ chunk.length ≤ 2047

variable {before window : List (State × Input)} {joining : State × Input} {final : State}
  {client : Int}

/-- What holds at a step of a session: the client is connected, and stays so. -/
theorem Session.at_step (session : Session client before joining window final)
    {state : State} {input : Input} (inWindow : (state, input) ∈ window) :
    Invariant fdSetSize state ∧ Shape state ∧
      (telnetservermain fdSetSize).admits state input ∧ client ∈ state.kernel.clients ∧
      .closed client ∉ eventsOf (state, input) ∧
      ∀ event ∈ eventsOf (state, input), event.NulFree ∧ event.Legible client := by
  obtain ⟨run, joined, succeeded, stays, noNul, legible⟩ := session
  obtain ⟨left, right, rfl⟩ := List.append_of_mem inWindow
  have placed : before ++ joining :: (left ++ (state, input) :: right) =
      (before ++ joining :: left) ++ (state, input) :: right := by simp
  rw [placed] at run noNul
  obtain ⟨earlier, admitted⟩ := run.split
  simp only [System.trace_append, System.trace_cons, List.mem_append, not_or] at stays noNul legible
  have small : fdSetSize ≤ fdSetSize := Int.le_refl _
  have member := client_stays earlier joined succeeded stays.1
  have shape := run_shape small earlier
    fun event inside => noNul event (.inl (by simpa using inside))
  exact ⟨run_invariant small earlier, shape, admitted, member, stays.2.1,
    fun event inside => ⟨noNul event (.inr (.inl inside)), legible event (.inr (.inl inside))⟩⟩

theorem Session.carries (session : Session client before joining window final) :
    ∀ entry ∈ window,
      Carries (fun entry => nonzero (sentTo client (eventsOf entry)).flatten)
        (fun entry => told client (eventsOf entry)) (TaillessStep client) entry := by
  rintro ⟨state, input⟩ inWindow
  obtain ⟨invariant, shape, admitted, member, stays, readable⟩ := session.at_step inWindow
  exact (outcome admitted).carries invariant shape admitted
    (fun event inside => (readable event inside).1)
    (fun event inside => (readable event inside).2) member stays

theorem Session.cleanSteps_iff (session : Session client before joining window final) :
    (∀ entry ∈ window, CleanStep client entry) ↔
      (∀ entry ∈ window, TaillessStep client entry) ∧
        ∀ event ∈ (telnetservermain fdSetSize).trace window, event.CopyFits := by
  have copies : (∀ event ∈ (telnetservermain fdSetSize).trace window, event.CopyFits) ↔
      ∀ entry ∈ window, ∀ event ∈ eventsOf entry, event.LineFits entry.1.buffer := by
    rw [System.trace, List.forall_mem_flatMap]
    refine forall₂_congr fun entry inWindow => ?_
    obtain ⟨invariant, -, admitted, -⟩ := session.at_step inWindow
    exact (outcome admitted).copies_iff invariant admitted
  rw [copies, ← forall₂_and]
  exact forall₂_congr fun entry _ => forall₂_and

/-- The client prints what the others did and said, and no copy of the session
overruns its array. -/
def PrintsTold (client : Int) (window : List (State × Input)) (chunks : List (List Byte)) : Prop :=
  TelnetClient.printedText (TelnetClient.threadRead (chunks.map .bytes)) =
      told client ((telnetservermain fdSetSize).trace window) ∧
    ∀ event ∈ (telnetservermain fdSetSize).trace window, event.CopyFits

instance (client : Int) (window : List (State × Input)) (chunks : List (List Byte)) :
    Decidable (PrintsTold client window chunks) :=
  inferInstanceAs (Decidable (_ ∧ ∀ event ∈ _, Event.CopyFits event))

/-- If all messages of the session are clean of what was left in the buffer, the
client prints what the others said if and only if no result of `recv` has text
after a NUL; and if none has, if and only if all messages are clean. -/
theorem printsTold_iff (session : Session client before joining window final)
    {chunks : List (List Byte)}
    (cuts : Cuts chunks (sentTo client ((telnetservermain fdSetSize).trace window))) :
    ((∀ entry ∈ window, CleanStep client entry) →
        (PrintsTold client window chunks ↔ ∀ chunk ∈ chunks, Padded chunk)) ∧
      ((∀ chunk ∈ chunks, Padded chunk) →
        (PrintsTold client window chunks ↔ ∀ entry ∈ window, CleanStep client entry)) := by
  have carried : nonzero chunks.flatten =
      window.flatMap fun entry => nonzero (sentTo client (eventsOf entry)).flatten := by
    rw [cuts.stream, nonzero_sentTo_trace]
  have nonempty : ∀ chunk ∈ chunks, 1 ≤ chunk.length := by
    intro chunk member
    exact (cuts.sized chunk member).1
  rw [PrintsTold, TelnetClient.printedText_threadRead nonempty, told_trace, session.cleanSteps_iff]
  constructor
  · rintro ⟨tailless, fit⟩
    exact (and_iff_left fit).trans (printed_eq_iff_padded session.carries carried tailless)
  · intro padded
    exact and_congr_left fun _ => printed_eq_iff_clean session.carries carried padded

end Windows

def arrival : List Input := selectReports {3} :: idleTurns 3

def arriving : State × Input :=
  ((telnetservermain fdSetSize).finish freshServer arrival, turnWith 4 .error)

def visit : List Input :=
  idleTurns 3 ++ (selectReports {3} :: idleTurns 3) ++ [turnWith 5 .error] ++ idleTurns 4 ++
    (selectReports {5} :: idleTurns 5) ++ [turnWith (-1) (.bytes [97])]

def visiting : List (State × Input) :=
  (telnetservermain fdSetSize).follow
    ((telnetservermain fdSetSize).next arriving.1 arriving.2) visit

def visited : State :=
  (telnetservermain fdSetSize).finish
    ((telnetservermain fdSetSize).next arriving.1 arriving.2) visit

theorem visiting_session :
    Session 4 ((telnetservermain fdSetSize).follow freshServer arrival) arriving visiting
      visited := by
  have run := freshServer_run (arrival ++ turnWith 4 .error :: visit) (by decide +kernel)
  rw [System.follow_append, System.finish_append, System.follow_cons, System.finish_cons] at run
  exact {
    run := by
      dsimp only [arriving, visiting, visited]
      exact run
    joined := by decide +kernel
    succeeded := by decide
    stays := by decide +kernel
    noNul := by decide +kernel
    legible := by decide +kernel }

def visitSent : List (List Byte) :=
  sentTo 4 ((telnetservermain fdSetSize).trace visiting)

theorem printsTold_payloads : PrintsTold 4 visiting visitSent :=
  ((printsTold_iff visiting_session ⟨rfl, by decide +kernel⟩).1 (by decide +kernel)).mpr
    (by decide +kernel)

/-- If both arrive together, the message behind the join notice is lost. -/
theorem not_printsTold_together :
    Session 4 ((telnetservermain fdSetSize).follow freshServer arrival) arriving visiting visited ∧
      Cuts [visitSent.flatten] visitSent ∧ ¬ PrintsTold 4 visiting [visitSent.flatten] ∧
      TelnetClient.printedText (TelnetClient.threadRead [.bytes visitSent.flatten]) =
        (Notice.joined 5).text :=
  ⟨visiting_session, ⟨by simp, by decide +kernel⟩, by decide +kernel, by decide +kernel⟩

end CBasics.SelectServer
