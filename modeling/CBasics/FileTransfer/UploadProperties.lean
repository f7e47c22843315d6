import CBasics.FileTransfer.TransferProperties

/-! The parent waits for each child before it accepts again, so that no two
children ever share the file. -/

set_option autoImplicit false

namespace CBasics.FileTransfer

open Library

/-- What one step can do, whoever takes it. -/
inductive Outcome (state : State) : Input → State → List Event → Prop where
  | connect : Outcome state .connect
      { state with backlog := state.backlog ++ [state.arrived], arrived := state.arrived + 1 } []
  | send {client : Nat} {bytes : List Byte} : client < state.arrived →
      (state.connections client).hungUp = false →
      Outcome state (.send client bytes)
        (state.update client
          { state.connections client with
            sent := (state.connections client).sent ++ bytes
            unread := (state.connections client).unread ++ bytes }) []
  | hangUp {client : Nat} : client < state.arrived →
      Outcome state (.hangUp client)
        (state.update client { state.connections client with hungUp := true }) []
  | turned {answer : ParentAnswer} {next : ParentPc} :
      state.parent = .polling ∨ state.parent = .accepting →
      next = .polling ∨ next = .accepting ∨ next = .exited →
      Outcome state (.parent answer) { state with parent := next } []
  | accepted {newFd : Nat} {rest : List Nat} : state.parent = .accepting →
      state.backlog = newFd :: rest →
      Outcome state (.parent (.accept true))
        { state with parent := .forking newFd, backlog := rest } []
  | forked {newFd pid : Nat} : state.parent = .forking newFd →
      Outcome state (.parent (.fork (some pid)))
        { state with
          parent := .closing newFd
          children := state.children ++ [⟨pid, newFd, .opening, [], 0⟩] }
        [.forked ⟨pid, newFd, .opening, [], 0⟩]
  | forkFailed {newFd : Nat} : state.parent = .forking newFd →
      Outcome state (.parent (.fork none)) { state with parent := .closing newFd } []
  | closed {newFd : Nat} : state.parent = .closing newFd →
      Outcome state (.parent .close) { state with parent := .waiting } []
  | reaped {pid : Nat} : state.parent = .waiting →
      (∃ child ∈ state.children, child.pid = pid) →
      Outcome state (.parent (.wait (some pid)))
        { state with
          parent := .polling
          children := state.children.filter fun child => child.pid ≠ pid }
        ((state.children.filter fun child => child.pid = pid).map .reaped)
  | noChild : state.parent = .waiting → state.children = [] →
      Outcome state (.parent (.wait none)) { state with parent := .polling } []
  | child {pid : Nat} {child : Child} {answer : ChildAnswer} :
      child ∈ state.children → child.pid = pid → child.Admits answer →
      (state.connections child.connection).Delivers answer →
      Outcome state (.child pid answer) (childStep state pid answer).1 []

theorem childStep_events (state : State) (pid : Nat) (answer : ChildAnswer) :
    (childStep state pid answer).2 = [] := by
  unfold childStep
  split <;> rfl

theorem parentOutcome {state : State} {answer : ParentAnswer}
    (admitted : AdmitsParent state answer) :
    Outcome state (.parent answer) (parentStep state answer).1 (parentStep state answer).2 := by
  unfold AdmitsParent at admitted
  unfold parentStep
  split at admitted
  · rename_i pollCount revents pc
    simp only [pc]
    split
    · exact .turned (.inl pc) (.inr (.inr rfl))
    · split
      · exact .turned (.inl pc) (.inr (.inl rfl))
      · exact .turned (.inl pc) (.inl rfl)
  · rename_i succeeded pc
    cases succeeded with
    | true =>
        cases backlog : state.backlog with
        | nil => exact absurd backlog (admitted rfl)
        | cons newFd rest =>
            simp only [pc]
            exact .accepted pc backlog
    | false =>
        simp only [pc]
        exact .turned (.inr pc) (.inl rfl)
  · rename_i newFd pid pc
    simp only [pc]
    exact .forked pc
  · rename_i newFd pc
    simp only [pc]
    exact .forkFailed pc
  · rename_i newFd pc
    simp only [pc]
    exact .closed pc
  · rename_i pid pc
    simp only [pc]
    obtain ⟨child, member, samePid, _⟩ := admitted
    exact .reaped pc ⟨child, member, samePid⟩
  · rename_i pc
    simp only [pc]
    exact .noChild pc admitted
  · exact False.elim admitted

theorem outcome {state : State} {input : Input} (admitted : main.admits state input) :
    Outcome state input (main.next state input) (main.emits state input) := by
  cases input with
  | connect => exact .connect
  | send client bytes => exact .send admitted.1 admitted.2
  | hangUp client => exact .hangUp admitted
  | parent answer => exact parentOutcome admitted
  | child pid answer =>
      obtain ⟨child, member, samePid, admits, delivers⟩ := admitted
      have silent : main.emits state (.child pid answer) = [] := childStep_events state pid answer
      rw [silent]
      exact .child member samePid admits delivers

structure Untouched (state : State) (client : Nat) : Prop where
  known : client < state.arrived
  unread : (state.connections client).unread = (state.connections client).sent

/-- What a child has received and what is left unread make up what its client
sent; past the end of the stream nothing is left. -/
structure Serving (state : State) (child : Child) : Prop where
  notQueued : child.connection ∉ state.backlog
  known : child.connection < state.arrived
  wrote : ∃ received, child.Wrote state.file received ∧
    (state.connections child.connection).sent =
      received ++ (state.connections child.connection).unread
  ended : child.pc = .disconnected ∨ child.pc = .terminated true →
    (state.connections child.connection).unread = [] ∧
      (state.connections child.connection).hungUp = true

/-- There is a child only between the parent's `fork` and its `wait`, and then
only one. -/
structure Invariant (state : State) : Prop where
  alone : state.children.length ≤ 1
  none : (∀ newFd, state.parent ≠ .closing newFd) → state.parent ≠ .waiting → state.children = []
  queueNodup : state.backlog.Nodup
  queued : ∀ client ∈ state.backlog, Untouched state client
  coming : ∀ client, state.arrived ≤ client → state.connections client = ⟨[], [], false⟩
  forking : ∀ newFd, state.parent = .forking newFd →
    newFd ∉ state.backlog ∧ Untouched state newFd
  serving : ∀ child ∈ state.children, Serving state child

namespace Invariant

variable {state : State}

theorem initial (initial : main.initial state) : Invariant state := by
  obtain ⟨polling, noChildren, empty, none, connections⟩ := initial
  exact {
    alone := by simp [noChildren]
    none := fun _ _ => noChildren
    queueNodup := by simp [empty]
    queued := by simp [empty]
    coming := fun client _ => connections client
    forking := by simp [polling]
    serving := by simp [noChildren] }

theorem connect (invariant : Invariant state) :
    Invariant
      { state with backlog := state.backlog ++ [state.arrived], arrived := state.arrived + 1 } where
  alone := invariant.alone
  none := invariant.none
  queueNodup := by
    have fresh : state.arrived ∉ state.backlog :=
      fun member => Nat.lt_irrefl _ (invariant.queued _ member).known
    exact List.nodup_append.mpr ⟨invariant.queueNodup, by simp,
      fun client member other last => by
        rw [List.mem_singleton.mp last]
        exact fun same => fresh (same ▸ member)⟩
  queued := by
    intro client member
    cases List.mem_append.mp member with
    | inl old =>
        obtain ⟨known, unread⟩ := invariant.queued client old
        exact ⟨Nat.lt_succ_of_lt known, unread⟩
    | inr last =>
        rw [List.mem_singleton.mp last]
        have empty := invariant.coming state.arrived (Nat.le_refl _)
        exact ⟨Nat.lt_succ_self _, by simp [empty]⟩
  coming := fun client later => invariant.coming client (Nat.le_of_succ_le later)
  forking := by
    intro newFd parent
    obtain ⟨notQueued, known, unread⟩ := invariant.forking newFd parent
    refine ⟨?_, Nat.lt_succ_of_lt known, unread⟩
    simp [notQueued, Nat.ne_of_lt known]
  serving := by
    intro child member
    obtain ⟨notQueued, known, wrote, ended⟩ := invariant.serving child member
    refine ⟨?_, Nat.lt_succ_of_lt known, wrote, ended⟩
    simp [notQueued, Nat.ne_of_lt known]

end Invariant

theorem update_connections (state : State) (client : Nat) (connection : Connection) (other : Nat) :
    (state.update client connection).connections other =
      if other = client then connection else state.connections other := rfl

structure Continues (before after : Connection) : Prop where
  unread : before.unread = before.sent → after.unread = after.sent
  split : ∀ received, before.sent = received ++ before.unread →
    after.sent = received ++ after.unread
  ended : before.unread = [] ∧ before.hungUp = true → after.unread = [] ∧ after.hungUp = true

section Clients

variable {state : State} {client : Nat} {connection : Connection}

theorem Untouched.update {other : Nat} (untouched : Untouched state other)
    (continues : Continues (state.connections client) connection) :
    Untouched (state.update client connection) other where
  known := untouched.known
  unread := by
    rw [update_connections]
    split
    · rename_i same
      exact continues.unread (same ▸ untouched.unread)
    · exact untouched.unread

theorem Serving.update {child : Child} (serving : Serving state child)
    (continues : Continues (state.connections client) connection) :
    Serving (state.update client connection) child := by
  obtain ⟨notQueued, known, ⟨received, wrote, sent⟩, ended⟩ := serving
  by_cases same : child.connection = client
  · rw [same] at sent ended
    exact {
      notQueued := notQueued
      known := known
      wrote := by
        refine ⟨received, wrote, ?_⟩
        rw [update_connections, if_pos same]
        exact continues.split received sent
      ended := by
        intro past
        rw [update_connections, if_pos same]
        exact continues.ended (ended past) }
  · exact {
      notQueued := notQueued
      known := known
      wrote := by
        refine ⟨received, wrote, ?_⟩
        rw [update_connections, if_neg same]
        exact sent
      ended := by
        intro past
        rw [update_connections, if_neg same]
        exact ended past }

theorem Invariant.update (invariant : Invariant state) (known : client < state.arrived)
    (continues : Continues (state.connections client) connection) :
    Invariant (state.update client connection) where
  alone := invariant.alone
  none := invariant.none
  queueNodup := invariant.queueNodup
  queued := fun other member => (invariant.queued other member).update continues
  coming := by
    intro other later
    have coming : state.arrived ≤ other := later
    rw [update_connections, if_neg (by omega)]
    exact invariant.coming other coming
  forking := by
    intro newFd parent
    obtain ⟨notQueued, untouched⟩ := invariant.forking newFd parent
    exact ⟨notQueued, untouched.update continues⟩
  serving := fun child member => (invariant.serving child member).update continues

theorem Continues.send {before : Connection} (bytes : List Byte) (open' : before.hungUp = false) :
    Continues before
      { before with sent := before.sent ++ bytes, unread := before.unread ++ bytes } where
  unread := fun same => by rw [same]
  split := fun received same => by rw [same, List.append_assoc]
  ended := by simp [open']

theorem Continues.hangUp (before : Connection) :
    Continues before { before with hungUp := true } where
  unread := id
  split := fun _ same => same
  ended := fun ended => ⟨ended.1, rfl⟩

end Clients

section Children

variable {state : State} {child : Child} {answer : ChildAnswer}

@[simp] theorem Child.step_connection (child : Child) (file : List Byte) (answer : ChildAnswer) :
    (child.step file answer).1.connection = child.connection := by
  cases answer with
  | recv result =>
      cases result with
      | error => rfl
      | bytes received =>
          unfold Child.step
          dsimp only
          split <;> rfl
  | fopen => rfl
  | flush count => rfl
  | exit => rfl

/-- A child gets past the end of the stream only by a `recv` that found it. -/
theorem Child.step_ended {file : List Byte} (admitted : child.Admits answer)
    (ended : (child.step file answer).1.pc = .disconnected ∨
      (child.step file answer).1.pc = .terminated true) :
    answer = .recv (.bytes []) ∨ answer = .exit ∧ child.pc = .disconnected := by
  cases answer with
  | fopen => simp [Child.step] at ended
  | recv result =>
      cases result with
      | error => simp [Child.step] at ended
      | bytes received =>
          cases received with
          | nil => exact .inl rfl
          | cons first rest => simp [Child.step, admitted.1] at ended
  | flush count => simp [Child.step, Child.write, admitted.1] at ended
  | exit => exact .inr ⟨rfl, by simpa [Child.step] using ended⟩

theorem Connection.Delivers.split {connection : Connection}
    (delivers : connection.Delivers answer) :
    answer.received ++ (connection.read answer).unread = connection.unread := by
  cases answer with
  | recv result =>
      cases result with
      | error => rfl
      | bytes received =>
          obtain ⟨rest, same⟩ := delivers.1
          rw [Connection.read, ChildAnswer.received, ← same, List.drop_left]
  | fopen => rfl
  | flush count => rfl
  | exit => rfl

/-- The only child takes a step. -/
theorem childStep_alone (children : state.children = [child]) :
    (childStep state child.pid answer).1 =
      { state.update child.connection ((state.connections child.connection).read answer) with
        children := [(child.step state.file answer).1]
        file := (child.step state.file answer).2 } := by
  simp [childStep, children]

theorem Serving.step (serving : Serving state child) (admits : child.Admits answer)
    (delivers : (state.connections child.connection).Delivers answer) {next : State}
    (backlog : next.backlog = state.backlog) (arrived : next.arrived = state.arrived)
    (file : next.file = (child.step state.file answer).2)
    (connection : next.connections child.connection =
      (state.connections child.connection).read answer) :
    Serving next (child.step state.file answer).1 := by
  obtain ⟨notQueued, known, ⟨received, wrote, sent⟩, ended⟩ := serving
  have split := delivers.split
  exact {
    notQueued := by
      rw [Child.step_connection, backlog]
      exact notQueued
    known := by
      rw [Child.step_connection, arrived]
      exact known
    wrote := by
      refine ⟨received ++ answer.received, ?_, ?_⟩
      · rw [file]
        exact wrote.step admits
      · rw [Child.step_connection, connection, List.append_assoc, split]
        exact sent
    ended := by
      intro past
      rw [Child.step_connection, connection]
      rcases Child.step_ended admits past with rfl | ⟨rfl, disconnected⟩
      · obtain ⟨empty, hungUp⟩ := delivers.2 rfl
        exact ⟨by simp [Connection.read, empty], hungUp⟩
      · obtain ⟨empty, hungUp⟩ := ended (.inl disconnected)
        exact ⟨by simp [Connection.read, empty], hungUp⟩ }

theorem Invariant.served (invariant : Invariant state) (children : state.children = [child])
    (admits : child.Admits answer)
    (delivers : (state.connections child.connection).Delivers answer) :
    Invariant (childStep state child.pid answer).1 := by
  have serving := invariant.serving child (by simp [children])
  rw [childStep_alone children]
  exact {
    alone := Nat.le_refl 1
    none := by
      intro notClosing notWaiting
      have noChildren := invariant.none notClosing notWaiting
      rw [children] at noChildren
      cases noChildren
    queueNodup := invariant.queueNodup
    queued := by
      intro other member
      obtain ⟨known, unread⟩ := invariant.queued other member
      have different : other ≠ child.connection :=
        fun same => serving.notQueued (same ▸ member)
      exact ⟨known, by simpa [update_connections, different] using unread⟩
    coming := by
      intro other later
      have coming : state.arrived ≤ other := later
      have known := serving.known
      have different : other ≠ child.connection := by omega
      simpa [update_connections, different] using invariant.coming other coming
    forking := by
      intro newFd parent
      have forking : state.parent = .forking newFd := parent
      have noChildren := invariant.none (by simp [forking]) (by simp [forking])
      rw [children] at noChildren
      cases noChildren
    serving := by
      intro stepped member
      rw [List.mem_singleton.mp member]
      exact serving.step admits delivers rfl rfl rfl (by simp [update_connections]) }

end Children

theorem Invariant.single {state : State} (invariant : Invariant state) {child : Child}
    (member : child ∈ state.children) : state.children = [child] := by
  obtain ⟨only, same⟩ := List.length_eq_one_iff.mp
    (Nat.le_antisymm invariant.alone (List.length_pos_of_mem member))
  rw [same] at member ⊢
  rw [List.mem_singleton.mp member]

section Parent

variable {state : State}

theorem Invariant.move (invariant : Invariant state) {next : ParentPc}
    (keeps : state.children = [] ∨ next = .waiting ∨ ∃ newFd, next = .closing newFd)
    (notForking : ∀ newFd, next ≠ .forking newFd) : Invariant { state with parent := next } where
  alone := invariant.alone
  none := by
    intro notClosing notWaiting
    rcases keeps with noChildren | waiting | ⟨newFd, closing⟩
    · exact noChildren
    · exact absurd waiting notWaiting
    · exact absurd closing (notClosing newFd)
  queueNodup := invariant.queueNodup
  queued := fun client member => ⟨(invariant.queued client member).known,
    (invariant.queued client member).unread⟩
  coming := invariant.coming
  forking := fun newFd parent => absurd parent (notForking newFd)
  serving := by
    intro child member
    obtain ⟨notQueued, known, wrote, ended⟩ := invariant.serving child member
    exact ⟨notQueued, known, wrote, ended⟩

theorem Invariant.accepted (invariant : Invariant state) (accepting : state.parent = .accepting)
    {newFd : Nat} {rest : List Nat} (backlog : state.backlog = newFd :: rest) :
    Invariant { state with parent := .forking newFd, backlog := rest } := by
  have noChildren := invariant.none (by simp [accepting]) (by simp [accepting])
  have nodup := invariant.queueNodup
  rw [backlog, List.nodup_cons] at nodup
  have queued := invariant.queued
  rw [backlog] at queued
  exact {
    alone := invariant.alone
    none := fun _ _ => noChildren
    queueNodup := nodup.2
    queued := fun client member => ⟨(queued client (.tail _ member)).known,
      (queued client (.tail _ member)).unread⟩
    coming := invariant.coming
    forking := by
      intro other parent
      cases parent
      exact ⟨nodup.1, (queued newFd (.head _)).known, (queued newFd (.head _)).unread⟩
    serving := by simp [noChildren] }

theorem Invariant.forked (invariant : Invariant state) {newFd pid : Nat}
    (forking : state.parent = .forking newFd) :
    Invariant
      { state with
        parent := .closing newFd
        children := state.children ++ [⟨pid, newFd, .opening, [], 0⟩] } := by
  have noChildren := invariant.none (by simp [forking]) (by simp [forking])
  obtain ⟨notQueued, known, unread⟩ := invariant.forking newFd forking
  exact {
    alone := by simp [noChildren]
    none := fun notClosing _ => absurd rfl (notClosing newFd)
    queueNodup := invariant.queueNodup
    queued := fun client member => ⟨(invariant.queued client member).known,
      (invariant.queued client member).unread⟩
    coming := invariant.coming
    forking := by simp
    serving := by
      intro child member
      obtain rfl : child = ⟨pid, newFd, .opening, [], 0⟩ := by simpa [noChildren] using member
      exact ⟨notQueued, known, ⟨[], rfl, unread.symm⟩, by simp⟩ }

theorem Invariant.filter_children (invariant : Invariant state) {pid : Nat}
    (found : ∃ child ∈ state.children, child.pid = pid) :
    (state.children.filter fun child => child.pid ≠ pid) = [] := by
  obtain ⟨child, member, samePid⟩ := found
  simp [invariant.single member, samePid]

theorem Invariant.reaped (invariant : Invariant state) {pid : Nat}
    (found : ∃ child ∈ state.children, child.pid = pid) :
    Invariant
      { state with
        parent := .polling
        children := state.children.filter fun child => child.pid ≠ pid } := by
  rw [invariant.filter_children found]
  exact {
    alone := Nat.zero_le 1
    none := fun _ _ => rfl
    queueNodup := invariant.queueNodup
    queued := fun client member => ⟨(invariant.queued client member).known,
      (invariant.queued client member).unread⟩
    coming := invariant.coming
    forking := by simp
    serving := by simp }

end Parent

theorem Invariant.outcome {state final : State} {input : Input} {events : List Event}
    (invariant : Invariant state) (outcome : Outcome state input final events) :
    Invariant final := by
  cases outcome with
  | connect => exact invariant.connect
  | send known isOpen => exact invariant.update known (.send _ isOpen)
  | hangUp known => exact invariant.update known (.hangUp _)
  | turned before next =>
      have noChildren : state.children = [] := by
        cases before with
        | inl polling => exact invariant.none (by simp [polling]) (by simp [polling])
        | inr accepting => exact invariant.none (by simp [accepting]) (by simp [accepting])
      refine invariant.move (.inl noChildren) ?_
      rintro newFd rfl
      simp at next
  | accepted accepting backlog => exact invariant.accepted accepting backlog
  | forked forking => exact invariant.forked forking
  | forkFailed => exact invariant.move (.inr (.inr ⟨_, rfl⟩)) (by simp)
  | closed => exact invariant.move (.inr (.inl rfl)) (by simp)
  | reaped _ found => exact invariant.reaped found
  | noChild _ noChildren => exact invariant.move (.inl noChildren) (by simp)
  | child member samePid admits delivers =>
      subst samePid
      exact invariant.served (invariant.single member) admits delivers

theorem run_invariant {steps : List (State × Input)} {state : State}
    (run : main.Run steps state) : Invariant state :=
  run.invariant Invariant (fun _ initial => .initial initial)
    fun _ _ invariant admitted => invariant.outcome (outcome admitted)

theorem Outcome.reaped_child {state final : State} {input : Input} {events : List Event}
    (outcome : Outcome state input final events) {child : Child}
    (reaped : .reaped child ∈ events) :
    child ∈ state.children ∧ final.file = state.file ∧ final.connections = state.connections := by
  cases outcome with
  | reaped =>
      obtain ⟨found, member, same⟩ := List.mem_map.mp reaped
      cases same
      exact ⟨(List.mem_filter.mp member).1, rfl, rfl⟩
  | forked => simp at reaped
  | _ => simp at reaped

/-- Whatever the interleaving: there is never more than one child, and when a
child is reaped that came to the end of its stream, the file is all its client
sent. -/
theorem uploads_separate {steps : List (State × Input)} {state : State}
    (run : main.Run steps state) :
    state.children.length ≤ 1 ∧
      ∀ entry ∈ steps, ∀ child, .reaped child ∈ main.emits entry.1 entry.2 →
        child.pc = .terminated true →
        (main.next entry.1 entry.2).file =
            ((main.next entry.1 entry.2).connections child.connection).sent ∧
          ((main.next entry.1 entry.2).connections child.connection).hungUp = true := by
  refine ⟨(run_invariant run).alone, ?_⟩
  rintro ⟨before, input⟩ member child reaped ended
  obtain ⟨_, earlier, admitted⟩ := run.of_mem member
  obtain ⟨isChild, file, connections⟩ := (outcome admitted).reaped_child reaped
  obtain ⟨-, -, ⟨received, wrote, sent⟩, past⟩ := (run_invariant earlier).serving child isChild
  obtain ⟨empty, hungUp⟩ := past (.inr ended)
  have written : before.file = received := by
    simpa only [Child.Wrote, ended] using wrote
  dsimp only at file connections ⊢
  rw [file, connections, sent, empty, List.append_nil]
  exact ⟨written, hungUp⟩

def idleServer : State := ⟨.polling, [], [9], [], 0, fun _ => ⟨[], [], false⟩⟩

def oneUpload : List Input :=
  [.connect, .send 0 [1, 2], .parent (.poll 1 pollin), .parent (.accept true),
    .parent (.fork (some 100)), .child 100 .fopen, .hangUp 0, .parent .close,
    .child 100 (.recv (.bytes [1, 2])), .child 100 (.recv (.bytes [])), .child 100 .exit]

/-- The second client connects and writes while the first is being served. -/
def twoUploads : List Input :=
  .connect :: oneUpload ++ [.send 1 [3], .parent (.wait (some 100)), .parent (.poll 1 pollin),
    .parent (.accept true), .parent (.fork (some 101)), .parent .close, .child 101 .fopen,
    .child 101 (.recv (.bytes [3])), .hangUp 1, .child 101 (.recv (.bytes [])), .child 101 .exit,
    .parent (.wait (some 101))]

theorem idleServer_initial : main.initial idleServer := ⟨rfl, rfl, rfl, rfl, fun _ => rfl⟩

theorem uploads_separate_two :
    (main.finish idleServer twoUploads).children.length ≤ 1 ∧
      (main.finish idleServer (twoUploads.take 14)).file = [1, 2] ∧
      (main.finish idleServer twoUploads).file = [3] := by
  have run : main.Run (main.follow idleServer twoUploads) (main.finish idleServer twoUploads) :=
    .of_admitted idleServer_initial (by decide)
  obtain ⟨alone, separate⟩ := uploads_separate run
  have first : (main.finish idleServer (twoUploads.take 13), .parent (.wait (some 100))) ∈
      main.follow idleServer twoUploads :=
    List.mem_of_getElem? (i := 13) rfl
  have second : (main.finish idleServer (twoUploads.take 23), .parent (.wait (some 101))) ∈
      main.follow idleServer twoUploads :=
    List.mem_of_getElem? (i := 23) rfl
  exact ⟨alone, (separate _ first ⟨100, 0, .terminated true, [], 2⟩ (by decide) rfl).1,
    (separate _ second ⟨101, 1, .terminated true, [], 1⟩ (by decide) rfl).1⟩

end CBasics.FileTransfer
