import CBasics.FileTransfer.Server

/-! What a child has written is what it has received, and what the client put
on the wire is its file if no `send` was short. -/

set_option autoImplicit false

namespace CBasics.FileTransfer

open Library

/-- What a child has received so far is in the file or still pending; when it
has terminated, all of it is in the file. -/
def Child.Wrote (child : Child) (file received : List Byte) : Prop :=
  match child.pc with
  | .opening => received = []
  | .terminated _ => file = received
  | _ => child.offset = file.length ∧ file ++ child.pending = received

theorem writeAt_length (file bytes : List Byte) :
    writeAt file file.length bytes = file ++ bytes := by
  simp [writeAt]

theorem Child.write_eq {child : Child} {file : List Byte} (atEnd : child.offset = file.length)
    (count : Nat) :
    child.write file count =
      ({ child with
          pending := child.pending.drop count
          offset := (file ++ child.pending.take count).length },
        file ++ child.pending.take count) := by
  rw [Child.write, atEnd, writeAt_length, List.length_append]

theorem Child.Wrote.of_reading {child : Child} {file received : List Byte}
    (wrote : child.Wrote file received)
    (inLoop : child.pc = .reading ∨ child.pc = .disconnected ∨ child.pc = .failed) :
    child.offset = file.length ∧ file ++ child.pending = received := by
  unfold Child.Wrote at wrote
  rcases inLoop with pc | pc | pc
  · rwa [pc] at wrote
  · rwa [pc] at wrote
  · rwa [pc] at wrote

theorem Child.Wrote.step {child : Child} {file received : List Byte}
    (wrote : child.Wrote file received) {answer : ChildAnswer} (admitted : child.Admits answer) :
    (child.step file answer).1.Wrote (child.step file answer).2 (received ++ answer.received) := by
  cases answer with
  | fopen =>
      have opening : child.pc = .opening := admitted
      unfold Child.Wrote at wrote
      rw [opening] at wrote
      subst wrote
      exact ⟨rfl, rfl⟩
  | recv result =>
      obtain ⟨atEnd, split⟩ := wrote.of_reading (.inl admitted.1)
      cases result with
      | error =>
          have nothing : (ChildAnswer.recv .error).received = [] := rfl
          rw [nothing, List.append_nil]
          exact ⟨atEnd, split⟩
      | bytes chunk =>
          rw [ChildAnswer.received, ← split, List.append_assoc]
          cases chunk with
          | nil => exact ⟨atEnd, by rw [List.append_nil]; rfl⟩
          | cons first rest =>
              simp only [Child.step, List.length_cons, Nat.succ_pos, if_true]
              have reading := admitted.1
              simp only [Child.Wrote, reading]
              exact ⟨atEnd, trivial⟩
  | flush count =>
      obtain ⟨atEnd, split⟩ := wrote.of_reading (.inl admitted.1)
      have reading := admitted.1
      rw [Child.step, Child.write_eq atEnd]
      simp only [Child.Wrote, reading, ChildAnswer.received, List.append_nil, true_and]
      rw [List.append_assoc, List.take_append_drop, split]
  | exit =>
      obtain ⟨atEnd, split⟩ := wrote.of_reading (.inr admitted)
      rw [Child.step, Child.write_eq atEnd]
      simp only [Child.Wrote, ChildAnswer.received, List.append_nil, List.take_length]
      exact split

/-- A child that has terminated leaves what it received as the file. -/
theorem handleFileTransfer_wrote {steps : List ((Child × List Byte) × ChildAnswer)}
    {state : Child × List Byte} (run : handleFileTransfer.Run steps state) :
    state.1.Wrote state.2 (handleFileTransfer.trace steps).flatten := by
  refine run.traceInvariant (fun events state => state.1.Wrote state.2 events.flatten) ?_ ?_
  · intro state opening
    have pc : state.1.pc = .opening := opening
    simp [Child.Wrote, pc]
  · intro events steps state answer run wrote admitted
    have stepped := wrote.step admitted
    have emitted : handleFileTransfer.emits state answer = [answer.received] := rfl
    rw [emitted, List.flatten_append, List.flatten_singleton]
    exact stepped

/-- When the client exits successfully the file that a child leaves, having read
what the client put on the wire, is the client's. -/
def Faithful (content : List Byte) (sends : List Int) (file : List Byte) : Prop :=
  (main2 content sends).exit = .success → file = content

/-- The transfer is faithful exactly if a needed send fails or is missing, so
that the client does not exit successfully, or every one takes all it is given:
a short send is not repeated. -/
theorem faithful_iff {content : List Byte} {sends : List Int}
    (valid : ValidSends content.length sends) {steps : List ((Child × List Byte) × ChildAnswer)}
    {child : Child} {file : List Byte} (run : handleFileTransfer.Run steps (child, file))
    (ended : child.pc = .terminated true)
    (delivered : (handleFileTransfer.trace steps).flatten = (main2 content sends).accepted) :
    Faithful content sends file ↔
      Aborts content.length sends ∨ AllTaken content.length sends := by
  have wrote := handleFileTransfer_wrote run
  simp only [Child.Wrote, ended, delivered] at wrote
  have counted : 0 + content.length = content.length := Nat.zero_add _
  have exits : (main2 content sends).exit = .success ↔ ¬ Aborts content.length sends :=
    sendLoop_exit counted sends
  have taken := (sendLoop_accepted counted valid).2
  rw [Faithful, wrote, exits]
  by_cases aborts : Aborts content.length sends
  · simp [aborts]
  · have whole := taken (exits.mpr aborts)
    simp only [aborts, not_false_eq_true, forall_true_left, false_or]
    exact whole

def readWhole (delivered : List Byte) : List ChildAnswer :=
  [.fopen, .recv (.bytes delivered), .flush 1, .recv (.bytes []), .exit]

def newChild : Child × List Byte := (⟨100, 0, .opening, [], 0⟩, [9])

theorem newChild_run (answers : List ChildAnswer)
    (admitted : handleFileTransfer.Admitted newChild answers) :
    handleFileTransfer.Run (handleFileTransfer.follow newChild answers)
      (handleFileTransfer.finish newChild answers) := by
  refine System.Run.of_admitted ?_ admitted
  exact rfl

theorem faithful_whole :
    Faithful [1, 2, 3] [3] (handleFileTransfer.finish newChild (readWhole [1, 2, 3])).2 :=
  (faithful_iff (by decide) (newChild_run (readWhole [1, 2, 3]) (by decide)) (by decide)
    (by decide)).mpr (.inr (by decide))

/-- A send that takes two of three bytes: the client exits successfully, and the
third byte is in no file. -/
theorem not_faithful_short :
    ValidSends 3 [2] ∧
      handleFileTransfer.Run (handleFileTransfer.follow newChild (readWhole [1, 2]))
        (handleFileTransfer.finish newChild (readWhole [1, 2])) ∧
      (handleFileTransfer.finish newChild (readWhole [1, 2])).1.pc = .terminated true ∧
      (handleFileTransfer.trace (handleFileTransfer.follow newChild (readWhole [1, 2]))).flatten =
        (main2 [1, 2, 3] [2]).accepted ∧
      ¬ Faithful [1, 2, 3] [2] (handleFileTransfer.finish newChild (readWhole [1, 2])).2 := by
  refine ⟨by decide, newChild_run _ (by decide), by decide, by decide, ?_⟩
  intro faithful
  exact absurd (faithful (by decide)) (by decide)

end CBasics.FileTransfer
