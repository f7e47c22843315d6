import CBasics.PollServer.SignalProperties
import CBasics.TelnetClient.SendProperties

/-! From one user's keyboard to another user's screen: telnet clients on both
sides of the poll server. -/

set_option autoImplicit false

namespace CBasics.PollServer

open Library TelnetClient

/-- What the server receives from others than `client`, with the descriptor of each. -/
def utterances (client : Int) (trace : List Event) : List (Int × List Byte) :=
  trace.flatMap fun
    | .received fd (.bytes received) _ =>
        if fd = client ∨ received = [] then [] else [(fd, received)]
    | _ => []

/-- All that is received from `fd`, in order. -/
def heardFrom (client fd : Int) (trace : List Event) : List Byte :=
  ((utterances client trace).filter fun utterance => utterance.1 = fd).flatMap Prod.snd

/-- A telnet client that has run for some time: its socket, its standard input,
the turns of its loop and the state they lead to. -/
structure Desk where
  sockFd : Int
  text : List Byte
  steps : List (Sender × Int)
  final : Sender

def Desk.trace (desk : Desk) : List SenderEvent :=
  (telnetClient desk.sockFd desk.text).trace desk.steps

/-- What happens from one closing of a descriptor to the next: the sessions of the
connections that have its number one after the other. -/
def sessions (fd : Int) (window : List Event) : List (List Event) :=
  window.splitOnP fun event => decide (event = .closed fd)

/-- What the server receives from `fd` in a session is a part of what the client's
socket took. -/
structure Typist (client fd : Int) (session : List Event) (desk : Desk) : Prop where
  run : (telnetClient desk.sockFd desk.text).Run desk.steps desk.final
  received : heardFrom client fd session <:+: transmitted desk.trace

/-- The connections of the session that has this number all are telnet clients,
each with its own user. -/
def Typists (client : Int) (window : List Event) (desks : Int → Nat → Desk) : Prop :=
  ∀ fd, fd ≠ client → ∀ k session, (sessions fd window)[k]? = some session →
    Typist client fd session (desks fd k)

/-- What has arrived at a client, as `recv` returned it: a front of what it was
sent, each `send` to it having taken its whole payload, in pieces that leave room
for a terminator. -/
structure Arrived (chunks sent : List (List Byte)) : Prop where
  stream : chunks.flatten <+: sent.flatten
  sized : ∀ chunk ∈ chunks, 1 ≤ chunk.length ∧ chunk.length < maxBytes

theorem utterances_snd (client : Int) (trace : List Event) :
    (utterances client trace).map Prod.snd = receivedFromOthers client trace := by
  rw [utterances, receivedFromOthers, List.map_flatMap]
  refine List.flatMap_congr fun event _ => ?_
  cases event with
  | received fd result sends =>
      cases result with
      | error => rfl
      | bytes received =>
          dsimp only
          split <;> rfl
  | polled => rfl
  | accepted => rfl
  | stored => rfl
  | closed => rfl

theorem fst_ne_of_mem_utterances {client : Int} {trace : List Event} {utterance : Int × List Byte}
    (member : utterance ∈ utterances client trace) : utterance.1 ≠ client := by
  obtain ⟨event, _, said⟩ := List.mem_flatMap.mp member
  cases event with
  | received fd result sends =>
      cases result with
      | error => cases said
      | bytes received =>
          by_cases silent : fd = client ∨ received = []
          · simp [silent] at said
          · simp only [if_neg silent, List.mem_singleton] at said
            rw [said]
            exact fun same => silent (.inl same)
  | polled => cases said
  | accepted => cases said
  | stored => cases said
  | closed => cases said

theorem exists_session {fd : Int} {event : Event} {window : List Event} (member : event ∈ window)
    (other : event ≠ .closed fd) : ∃ session ∈ sessions fd window, event ∈ session := by
  unfold sessions
  induction window with
  | nil => cases member
  | cons first rest ih =>
      rw [List.splitOnP_cons_eq_if_modifyHead]
      split
      · rename_i closes
        have same := of_decide_eq_true closes
        have later := (List.mem_cons.mp member).resolve_left fun isFirst =>
          other (isFirst.trans same)
        obtain ⟨session, inSessions, inSession⟩ := ih later
        exact ⟨session, List.mem_cons_of_mem _ inSessions, inSession⟩
      · obtain ⟨head, tail, split⟩ := List.exists_cons_of_ne_nil (List.splitOnP_ne_nil
          (fun event => decide (event = Event.closed fd)) rest)
        rw [split] at ih ⊢
        rw [List.modifyHead_cons]
        rcases List.mem_cons.mp member with rfl | later
        · exact ⟨_, List.mem_cons_self, List.mem_cons_self⟩
        · obtain ⟨session, inSessions, inSession⟩ := ih later
          rcases List.mem_cons.mp inSessions with rfl | inTail
          · exact ⟨_, List.mem_cons_self, List.mem_cons_of_mem _ inSession⟩
          · exact ⟨session, List.mem_cons_of_mem _ inTail, inSession⟩

/-- What is said is said in one of the sessions of the speaker's descriptor. -/
theorem exists_session_of_mem_utterances {client : Int} {window : List Event}
    {utterance : Int × List Byte} (said : utterance ∈ utterances client window) :
    ∃ session ∈ sessions utterance.1 window, utterance ∈ utterances client session := by
  obtain ⟨event, member, here⟩ := List.mem_flatMap.mp said
  have notClosed : event ≠ .closed utterance.1 := by
    rintro rfl
    cases here
  obtain ⟨session, inSessions, inSession⟩ := exists_session member notClosed
  exact ⟨session, inSessions, List.mem_flatMap.mpr ⟨event, inSession, here⟩⟩

theorem zero_notMem_utterances {client : Int} {window : List Event} {desks : Int → Nat → Desk}
    (typists : Typists client window desks) :
    0 ∉ (utterances client window).flatMap Prod.snd := by
  intro member
  obtain ⟨⟨fd, received⟩, said, inReceived⟩ := List.mem_flatMap.mp member
  obtain ⟨session, inSessions, saidThere⟩ := exists_session_of_mem_utterances said
  obtain ⟨k, found⟩ := List.mem_iff_getElem?.mp inSessions
  have typist := typists fd (fst_ne_of_mem_utterances said) k session found
  have heard : 0 ∈ heardFrom client fd session :=
    List.mem_flatMap.mpr ⟨(fd, received), List.mem_filter.mpr ⟨saidThere, by simp⟩, inReceived⟩
  exact zero_notMem_transmitted typist.run (typist.received.subset heard)

/-- During the session of a client in which everybody uses the telnet client, the
screen shows a front of what the others were heard saying, in the order in which
the server received it, and all of it once everything that was sent has arrived,
unless `SIGPIPE` has killed the server. In each session of a descriptor what was
heard is a part of what was typed at that client, unless a `send` of it was cut
short or a NUL was typed. The server's sends are assumed to take whole payloads,
and the results of `recv` at the reader to be shorter than its buffer. -/
theorem conversation_shown {steps : MortalSteps} {reached : Option State}
    (run : mortalServer.Run steps reached) {before window after : List Event} {client : Int}
    (split : mortalServer.trace steps = before ++ .accepted client :: (window ++ after))
    (succeeded : client ≠ -1) (stays : .closed client ∉ window) {desks : Int → Nat → Desk}
    (typists : Typists client window desks)
    {chunks : List (List Byte)} (arrived : Arrived chunks (sentTo client window)) :
    printedText (threadRead (chunks.map .bytes)) <+:
        (utterances client window).flatMap Prod.snd ∧
      (chunks.flatten = (sentTo client window).flatten → reached ≠ none →
        printedText (threadRead (chunks.map .bytes)) =
          (utterances client window).flatMap Prod.snd) ∧
      ∀ fd, fd ≠ client → ∀ k session, (sessions fd window)[k]? = some session →
        0 ∉ (desks fd k).text → (∀ call ∈ calls (desks fd k).trace, Whole call) →
        heardFrom client fd session <:+: (desks fd k).text := by
  have said : (receivedFromOthers client window).flatten =
      (utterances client window).flatMap Prod.snd := by
    rw [← utterances_snd, List.flatMap_def]
  obtain ⟨front, whole⟩ := sentTo_isPrefix run split succeeded stays
  obtain ⟨stream, sized⟩ := arrived
  have heard : chunks.flatten <+: (utterances client window).flatMap Prod.snd :=
    said ▸ stream.trans front.flatten
  have noNul : ∀ chunk ∈ chunks, 0 ∉ chunk := by
    intro chunk member zero
    have inStream : 0 ∈ chunks.flatten := List.mem_flatten_of_mem member zero
    exact zero_notMem_utterances typists (heard.subset inStream)
  have shown : printedText (threadRead (chunks.map .bytes)) = chunks.flatten := by
    rw [printedText_threadRead fun chunk member => (sized chunk member).1,
      printed_eq_flatten noNul]
  refine ⟨shown ▸ heard, ?_, ?_⟩
  · intro all alive
    rw [shown, all, whole alive, said]
  · intro fd other k session found clean complete
    have typist := typists fd other k session found
    exact typist.received.trans (transmitted_isPrefix typist.run complete clean).isInfix

def Desk.after (text : List Byte) (results : List Int) : Desk where
  sockFd := 3
  text := text
  steps := (telnetClient 3 text).follow ⟨3, text, true⟩ results
  final := (telnetClient 3 text).finish ⟨3, text, true⟩ results

theorem Desk.after_run {text : List Byte} {results : List Int}
    (admitted : (telnetClient 3 text).Admitted ⟨3, text, true⟩ results) :
    (telnetClient (Desk.after text results).sockFd (Desk.after text results).text).Run
      (Desk.after text results).steps (Desk.after text results).final :=
  .of_admitted rfl admitted

/-- Clients 4 and 5 connect; 4 says two bytes and leaves, and the next client,
which is given the number 4 again, says one. -/
def reusedNumber : List (Input × (Int → Bool)) :=
  brokenAt [] (shortChat ++ List.replicate 2 (turnWith (-1) .error) ++
    [pollReports [4], turnWith (-1) .error, turnWith (-1) (.bytes []), turnWith (-1) .error] ++
    pollReports [3] :: turnWith 4 .error :: List.replicate 3 (turnWith (-1) .error) ++
    [pollReports [4], turnWith (-1) .error, turnWith (-1) .error, turnWith (-1) (.bytes [120])])

def reusedTrace : List Event := mortalServer.trace (mortalSteps reusedNumber)

def Event.closes : Event → Option Int
  | .closed fd => some fd
  | _ => none

def talkers (fd : Int) (k : Nat) : Desk :=
  if fd = 4 then if k = 0 then .after [104, 105] [2] else .after [120] [1] else .after [] []

theorem talkers_typists : Typists 5 (reusedTrace.drop 5) talkers := by
  intro fd _ k session found
  unfold talkers
  by_cases speaks : fd = 4
  · subst speaks
    have two : sessions 4 (reusedTrace.drop 5) =
        [(reusedTrace.drop 5).take 5, (reusedTrace.drop 5).drop 6] := by decide +kernel
    rw [two] at found
    match k, found with
    | 0, found =>
        rw [← Option.some.inj found]
        exact ⟨Desk.after_run (by decide +kernel), by decide +kernel⟩
    | 1, found =>
        rw [← Option.some.inj found]
        exact ⟨Desk.after_run (by decide +kernel), by decide +kernel⟩
  · have stays : ∀ event ∈ reusedTrace.drop 5, event ≠ .closed fd := by
      have onlyFour : ∀ event ∈ reusedTrace.drop 5,
          event.closes = none ∨ event.closes = some 4 := by
        decide +kernel
      rintro event member rfl
      rcases onlyFour _ member with none | four
      · cases none
      · exact speaks (Option.some.inj four)
    have whole : sessions fd (reusedTrace.drop 5) = [reusedTrace.drop 5] :=
      List.splitOnP_eq_singleton fun event member => decide_eq_false (stays event member)
    have said : utterances 5 (reusedTrace.drop 5) = [(4, [104, 105]), (4, [120])] := by
      decide +kernel
    rw [whole] at found
    have same := List.mem_singleton.mp (List.mem_of_getElem? found)
    have silent : heardFrom 5 fd session = [] := by
      simp [heardFrom, same, said, Ne.symm speaks]
    rw [if_neg speaks]
    exact ⟨Desk.after_run trivial, silent ▸ List.nil_infix⟩

theorem conversation_shown_reused :
    printedText (threadRead ([[104], [105, 120]].map .bytes)) = [104, 105, 120] := by
  have run := mortalSteps_run reusedNumber (by decide +kernel)
  have split : reusedTrace =
      reusedTrace.take 4 ++ .accepted 5 :: (reusedTrace.drop 5 ++ []) := by decide +kernel
  have arrived : Arrived [[104], [105, 120]] (sentTo 5 (reusedTrace.drop 5)) :=
    ⟨by decide +kernel, by decide⟩
  have shown := conversation_shown run split (by decide) (by decide +kernel) talkers_typists arrived
  exact (shown.2.1 (by decide +kernel) (by decide +kernel)).trans (by decide +kernel)

end CBasics.PollServer
