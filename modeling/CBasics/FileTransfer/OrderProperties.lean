import CBasics.FileTransfer.UploadProperties

/-! Clients are served one after another in the order in which they arrived, and
between two uploads the file is the one that the last upload left. -/

set_option autoImplicit false

namespace CBasics.FileTransfer

open Library

/-- A child as it was when its parent forked it. -/
def Child.begun (child : Child) : Child := ⟨child.pid, child.connection, .opening, [], 0⟩

def Event.ended : Event → Option Child
  | .reaped child => some child
  | .forked _ => none

/-- The children that have been reaped, each as it was then. -/
def served (events : List Event) : List Child := events.filterMap Event.ended

def uploads (children : List Child) : List Event :=
  children.flatMap fun child => [.forked child.begun, .reaped child]

def ParentPc.taken : ParentPc → List Nat
  | .forking newFd => [newFd]
  | _ => []

/-- The clients whose uploads are going on or still to come, the next one first. -/
def State.line (state : State) : List Nat :=
  state.children.map Child.connection ++ (state.parent.taken ++ state.backlog)

@[simp] theorem served_append (events more : List Event) :
    served (events ++ more) = served events ++ served more :=
  List.filterMap_append

@[simp] theorem uploads_append (children more : List Child) :
    uploads (children ++ more) = uploads children ++ uploads more :=
  List.flatMap_append

/-- A client that has hung up sends nothing more. -/
structure Ends (before after : Connection) : Prop where
  sent : before.hungUp = true → after.sent = before.sent
  hungUp : before.hungUp = true → after.hungUp = true

theorem Ends.refl (connection : Connection) : Ends connection connection := ⟨fun _ => rfl, id⟩

theorem Ends.read (connection : Connection) (answer : ChildAnswer) :
    Ends connection (connection.read answer) := ⟨fun _ => rfl, id⟩

theorem Ends.send {before : Connection} (bytes : List Byte) (isOpen : before.hungUp = false) :
    Ends before
      { before with sent := before.sent ++ bytes, unread := before.unread ++ bytes } where
  sent := by simp [isOpen]
  hungUp := by simp [isOpen]

theorem Ends.hangUp (before : Connection) : Ends before { before with hungUp := true } where
  sent := fun _ => rfl
  hungUp := fun _ => rfl

theorem Ends.update {state : State} {client : Nat} {connection : Connection}
    (ends : Ends (state.connections client) connection) (other : Nat) :
    Ends (state.connections other) ((state.update client connection).connections other) := by
  rw [update_connections]
  split
  · rename_i same
    exact same ▸ ends
  · exact .refl _

/-- The file is what the client sent whose upload was the last to finish, if
that upload came to the end of its stream. -/
def Left (state : State) (children : List Child) : Prop :=
  ∀ child, children.getLast? = some child → child.pc = .terminated true →
    (state.connections child.connection).sent = state.file ∧
      (state.connections child.connection).hungUp = true

structure Books (events : List Event) (state : State) : Prop where
  trace : events = uploads (served events) ++ (state.children.map Child.begun).map .forked
  ordered : ((served events).map Child.connection ++ state.line).Pairwise (· < ·)
  arrived : ∀ client ∈ (served events).map Child.connection ++ state.line, client < state.arrived
  left : state.children = [] → Left state (served events)

namespace Books

variable {events : List Event} {state : State}

/-- A step that forks no child and reaps none; it may drop clients from the line. -/
theorem keep (books : Books events state) {next : State}
    (children : next.children.map Child.begun = state.children.map Child.begun)
    (line : next.line.Sublist state.line) (arrived : next.arrived = state.arrived)
    (file : next.children = [] → next.file = state.file)
    (ends : ∀ client, Ends (state.connections client) (next.connections client)) :
    Books events next where
  trace := by
    rw [children]
    exact books.trace
  ordered := books.ordered.sublist (line.append_left _)
  arrived := by
    rw [arrived]
    exact fun client member => books.arrived client ((line.append_left _).subset member)
  left := by
    intro noChildren child last ended
    have before : state.children = [] := by simpa [noChildren] using children.symm
    obtain ⟨sent, hungUp⟩ := books.left before child last ended
    rw [(ends _).sent hungUp, file noChildren]
    exact ⟨sent, (ends _).hungUp hungUp⟩

/-- The parent goes on; it may drop a client that it has accepted. -/
theorem turn (books : Books events state) {next : ParentPc} {rest : List Nat}
    (line : (next.taken ++ rest).Sublist (state.parent.taken ++ state.backlog)) :
    Books events { state with parent := next, backlog := rest } :=
  books.keep rfl (line.append_left _) rfl (fun _ => rfl) fun _ => .refl _

theorem update (books : Books events state) {client : Nat} {connection : Connection}
    (ends : Ends (state.connections client) connection) :
    Books events (state.update client connection) :=
  books.keep rfl (List.Sublist.refl _) rfl (fun _ => rfl) ends.update

theorem connect (books : Books events state) :
    Books events
      { state with backlog := state.backlog ++ [state.arrived], arrived := state.arrived + 1 } := by
  have longer : State.line
      { state with backlog := state.backlog ++ [state.arrived], arrived := state.arrived + 1 } =
        state.line ++ [state.arrived] := by
    simp [State.line]
  exact {
    trace := books.trace
    ordered := by
      rw [longer, ← List.append_assoc]
      refine List.pairwise_append.mpr ⟨books.ordered, List.pairwise_singleton _ _, ?_⟩
      intro client member last isLast
      rw [List.mem_singleton.mp isLast]
      exact books.arrived client member
    arrived := by
      rw [longer, ← List.append_assoc]
      intro client member
      cases List.mem_append.mp member with
      | inl before => exact Nat.lt_succ_of_lt (books.arrived client before)
      | inr last =>
          rw [List.mem_singleton.mp last]
          exact Nat.lt_succ_self _
    left := books.left }

theorem forked (books : Books events state) (noChildren : state.children = []) {newFd pid : Nat}
    (forking : state.parent = .forking newFd) :
    Books (events ++ [.forked ⟨pid, newFd, .opening, [], 0⟩])
      { state with
        parent := .closing newFd
        children := state.children ++ [⟨pid, newFd, .opening, [], 0⟩] } := by
  have silent : served [.forked ⟨pid, newFd, .opening, [], 0⟩] = [] := rfl
  have sameLine : State.line
      { state with
        parent := .closing newFd
        children := state.children ++ [⟨pid, newFd, .opening, [], 0⟩] } = state.line := by
    simp [State.line, ParentPc.taken, forking, noChildren]
  exact {
    trace := by
      have trace := books.trace
      rw [noChildren] at trace
      simp only [served_append, silent, List.append_nil, noChildren, List.nil_append,
        List.map_cons, List.map_nil]
      conv_lhs => rw [trace]
      simp [Child.begun]
    ordered := by
      rw [served_append, silent, List.append_nil, sameLine]
      exact books.ordered
    arrived := by
      rw [served_append, silent, List.append_nil, sameLine]
      exact books.arrived
    left := by simp }

theorem reaped (books : Books events state) {child : Child} (children : state.children = [child])
    (waiting : state.parent = .waiting) (wrote : Left state [child]) :
    Books (events ++ [.reaped child]) { state with parent := .polling, children := [] } := by
  have one : served [.reaped child] = [child] := rfl
  have moved : (served (events ++ [.reaped child])).map Child.connection ++
      State.line { state with parent := .polling, children := [] } =
        (served events).map Child.connection ++ state.line := by
    simp [one, State.line, ParentPc.taken, children, waiting]
  exact {
    trace := by
      have trace := books.trace
      rw [children] at trace
      rw [served_append, one, uploads_append]
      conv_lhs => rw [trace]
      simp [uploads]
    ordered := by
      rw [moved]
      exact books.ordered
    arrived := by
      rw [moved]
      exact books.arrived
    left := by
      intro _ last isLast ended
      rw [served_append, one, List.getLast?_concat] at isLast
      exact wrote last isLast ended }

end Books

/-- A child that is about to be reaped has left what its client sent. -/
theorem Serving.left {state : State} {child : Child} (serving : Serving state child) :
    Left state [child] := by
  intro last isLast ended
  obtain rfl : child = last := by simpa using isLast
  obtain ⟨received, wrote, sent⟩ := serving.wrote
  obtain ⟨empty, hungUp⟩ := serving.ended (.inr ended)
  rw [sent, empty, List.append_nil]
  exact ⟨by simpa only [Child.Wrote, ended, eq_comm] using wrote, hungUp⟩

@[simp] theorem Child.step_begun (child : Child) (file : List Byte) (answer : ChildAnswer) :
    (child.step file answer).1.begun = child.begun := by
  cases answer with
  | recv result =>
      cases result with
      | error => rfl
      | bytes received =>
          unfold Child.step
          dsimp only
          split <;> rfl
  | fopen => rfl
  | flush count => rfl
  | exit => rfl

theorem Books.served {events : List Event} {state : State} {child : Child} {answer : ChildAnswer}
    (books : Books events state) (children : state.children = [child]) :
    Books events (childStep state child.pid answer).1 := by
  rw [childStep_alone children]
  refine books.keep ?_ ?_ rfl (by simp) fun client => (Ends.read _ answer).update client
  · simp [children]
  · simp only [State.line, children, List.map_cons, List.map_nil, Child.step_connection]
    exact List.Sublist.refl _

theorem Books.outcome {events emitted : List Event} {state next : State} {input : Input}
    (books : Books events state) (invariant : Invariant state)
    (outcome : Outcome state input next emitted) : Books (events ++ emitted) next := by
  cases outcome with
  | forked forking =>
      exact books.forked (invariant.none (by simp [forking]) (by simp [forking])) forking
  | @reaped pid waiting found =>
      obtain ⟨child, member, rfl⟩ := found
      have children := invariant.single member
      have done := books.reaped children waiting (invariant.serving child member).left
      simpa [children] using done
  | connect =>
      rw [List.append_nil]
      exact books.connect
  | send _ isOpen =>
      rw [List.append_nil]
      exact books.update (.send _ isOpen)
  | hangUp =>
      rw [List.append_nil]
      exact books.update (.hangUp _)
  | turned before after =>
      rw [List.append_nil]
      refine books.turn ?_
      rcases before with before | before <;> rcases after with rfl | rfl | rfl <;>
        simp [ParentPc.taken, before]
  | accepted accepting backlog =>
      rw [List.append_nil]
      exact books.turn (by simp [ParentPc.taken, accepting, backlog])
  | forkFailed forking =>
      rw [List.append_nil]
      exact books.turn (by simp [ParentPc.taken, forking])
  | closed closing =>
      rw [List.append_nil]
      exact books.turn (by simp [ParentPc.taken, closing])
  | noChild waiting =>
      rw [List.append_nil]
      exact books.turn (by simp [ParentPc.taken, waiting])
  | child member samePid =>
      subst samePid
      rw [List.append_nil]
      exact books.served (invariant.single member)

theorem run_books {steps : List (State × Input)} {state : State} (run : main.Run steps state) :
    Books (main.trace steps) state := by
  refine run.traceInvariant Books ?_ ?_
  · rintro state ⟨polling, noChildren, empty, none, connections⟩
    exact {
      trace := by simp [noChildren, served, uploads]
      ordered := by simp [served, State.line, ParentPc.taken, polling, noChildren, empty]
      arrived := by simp [served, State.line, ParentPc.taken, polling, noChildren, empty]
      left := fun _ child last => by simp [served] at last }
  · intro events steps state input run books admitted
    exact books.outcome (run_invariant run) (FileTransfer.outcome admitted)

/-- Uploads never overlap and nobody is overtaken: the children are forked and
reaped in turn, for clients in the order of their arrival. Between two uploads,
if the last one came to the end of its stream, the file is all that its client
sent, hence the content of that client's file exactly if none of its sends was
short. -/
theorem uploads_inOrder {steps : List (State × Input)} {state : State}
    (run : main.Run steps state) :
    main.trace steps = uploads (served (main.trace steps)) ++
        (state.children.map Child.begun).map .forked ∧
      ((served (main.trace steps)).map Child.connection ++ state.line).Pairwise (· < ·) ∧
      (state.children = [] → ∀ child, (served (main.trace steps)).getLast? = some child →
        child.pc = .terminated true →
        (state.connections child.connection).sent = state.file ∧
          ∀ content sends, ValidSends content.length sends →
            (main2 content sends).exit = .success →
            (state.connections child.connection).sent = (main2 content sends).accepted →
            (state.file = content ↔ AllTaken content.length sends)) := by
  have books := run_books run
  refine ⟨books.trace, books.ordered, ?_⟩
  intro noChildren child last ended
  obtain ⟨sent, -⟩ := books.left noChildren child last ended
  refine ⟨sent, ?_⟩
  intro content sends valid success uploaded
  have counted : 0 + content.length = content.length := Nat.zero_add _
  rw [← sent, uploaded]
  exact (sendLoop_accepted counted valid).2 success

theorem uploads_inOrder_two :
    (main.finish idleServer twoUploads).file = [3] := by
  have run : main.Run (main.follow idleServer twoUploads) (main.finish idleServer twoUploads) :=
    .of_admitted idleServer_initial (by decide)
  have left := (uploads_inOrder run).2.2 (by decide) ⟨101, 1, .terminated true, [], 1⟩ (by decide)
    rfl
  exact (left.2 [3] [1] (by decide) (by decide) (by decide)).mpr (by decide)

end CBasics.FileTransfer
