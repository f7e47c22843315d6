import CBasics.Pipes.Basic

/-! The message gets through the pipe in every interleaving, whatever the
capacity of the pipe: both processes exit, and neither is left waiting. -/

set_option autoImplicit false

namespace CBasics.Pipes

open Library

/-- What the child has read and not yet printed. -/
def Child.held : Child → List Byte
  | .printing buf => [buf]
  | _ => []

def Child.readEnds : Child → Nat
  | .leaving => 0
  | .exited => 0
  | _ => 1

def Child.writeEnds : Child → Nat
  | .closingWrite => 1
  | _ => 0

/-- The line break is printed. -/
def Child.ended : Child → Bool
  | .closingRead => true
  | .leaving => true
  | .exited => true
  | _ => false

/-- The child has seen the end of the pipe. -/
def Child.past : Child → Bool
  | .ending => true
  | child => child.ended

def Parent.unwritten (message : List Byte) : Parent → List Byte
  | .closingRead => message
  | .writing rest => rest
  | _ => []

def Parent.readEnds : Parent → Nat
  | .closingRead => 1
  | _ => 0

def Parent.writeEnds : Parent → Nat
  | .waiting => 0
  | .exited => 0
  | .killed => 0
  | _ => 1

theorem Child.past_of_ended (child : Child) (ended : child.ended) : child.past := by
  cases child with
  | ending => rfl
  | _ => exact ended

theorem Child.held_of_past (child : Child) (past : child.past) : child.held = [] := by
  cases child with
  | printing => cases past
  | _ => rfl

theorem Parent.unwritten_of_closed (message : List Byte) (parent : Parent)
    (closed : parent.writeEnds = 0) : parent.unwritten message = [] := by
  cases parent with
  | closingRead => cases closed
  | writing => cases closed
  | _ => rfl

/-- Where every byte of the message is, and which ends are open. -/
structure Invariant (message : List Byte) (capacity : Nat) (output : List Byte) (state : State) :
    Prop where
  carries : ∃ sent printed, message = sent ++ state.parent.unwritten message ∧
    state.pipe.Carries capacity sent (printed ++ state.child.held) ∧
    output = printed ++ if state.child.ended then [newline] else []
  readEnds : state.pipe.readEnds = state.child.readEnds + state.parent.readEnds
  writeEnds : state.pipe.writeEnds = state.child.writeEnds + state.parent.writeEnds
  past : state.child.past → state.pipe.contents = [] ∧ state.parent.writeEnds = 0
  alive : state.parent ≠ .killed
  reaped : state.parent = .exited → state.child = .exited

theorem Invariant.initial (message : List Byte) (capacity : Nat) :
    Invariant message capacity [] ⟨⟨[], 2, 2⟩, .closingWrite, .closingRead⟩ where
  carries := ⟨[], [], rfl, ⟨rfl, Nat.zero_le capacity⟩, rfl⟩
  readEnds := rfl
  writeEnds := rfl
  past := nofun
  alive := nofun
  reaped := nofun

section Steps

variable {message output : List Byte} {capacity : Nat} {state : State}

theorem Invariant.childCall (invariant : Invariant message capacity output state)
    (ready : state.child.ready state.pipe) :
    Invariant message capacity (output ++ (Pipes.childCall state).2) (Pipes.childCall state).1 := by
  obtain ⟨⟨sent, printed, split, carries, shown⟩, readEnds, writeEnds, past, alive, reaped⟩ :=
    invariant
  have running : state.parent ≠ .exited := by
    intro exited
    rw [reaped exited] at ready
    exact ready
  obtain ⟨pipe, child, parent⟩ := state
  subst shown
  dsimp only at *
  cases child with
  | closingWrite =>
      refine ⟨⟨sent, printed, split, carries.closeWrite, by simp [Pipes.childCall, Child.ended]⟩,
        readEnds, ?_, nofun, alive, fun exited => absurd exited running⟩
      simp only [Child.writeEnds] at writeEnds
      simp [Pipes.childCall, Pipe.closeWrite, writeEnds, Child.writeEnds]
  | reading =>
      simp only [Child.held, List.append_nil] at carries
      cases contents : pipe.contents with
      | nil =>
          have noWriter : parent.writeEnds = 0 := by
            have notSilent : ¬ pipe.Silent := ready
            have closed : ¬ 0 < pipe.writeEnds := fun writer => notSilent ⟨contents, writer⟩
            simp only [Child.writeEnds] at writeEnds
            omega
          simp only [Pipes.childCall, contents]
          refine ⟨⟨sent, printed, split, ?_, by simp [Child.ended]⟩, readEnds, writeEnds,
            fun _ => ⟨contents, noWriter⟩, alive, fun exited => absurd exited running⟩
          simpa [Child.held] using carries
      | cons buf rest =>
          simp only [Pipes.childCall, contents]
          refine ⟨⟨sent, printed, split, ?_, by simp [Child.ended]⟩, readEnds, writeEnds, nofun,
            alive, fun exited => absurd exited running⟩
          have taken := carries.drop 1
          rwa [contents] at taken
  | printing buf =>
      refine ⟨⟨sent, printed ++ [buf], split, ?_, by simp [Pipes.childCall, Child.ended]⟩, readEnds,
        writeEnds, nofun, alive, fun exited => absurd exited running⟩
      simpa [Pipes.childCall, Child.held] using carries
  | ending =>
      exact ⟨⟨sent, printed, split, carries, by simp [Pipes.childCall, Child.ended]⟩, readEnds,
        writeEnds, fun _ => past rfl, alive, fun exited => absurd exited running⟩
  | closingRead =>
      refine ⟨⟨sent, printed, split, carries.closeRead, by simp [Pipes.childCall, Child.ended]⟩, ?_,
        writeEnds, fun _ => past rfl, alive, fun exited => absurd exited running⟩
      simp only [Child.readEnds] at readEnds
      simp [Pipes.childCall, Pipe.closeRead, readEnds, Child.readEnds]
  | leaving =>
      exact ⟨⟨sent, printed, split, carries, by simp [Pipes.childCall, Child.ended]⟩, readEnds,
        writeEnds, fun _ => past rfl, alive, fun _ => rfl⟩
  | exited => exact ready.elim

/-- While the parent writes, the child keeps its read end open. -/
theorem Invariant.reader (invariant : Invariant message capacity output state)
    (writes : state.parent.writeEnds = 1) : state.child.readEnds = 1 := by
  have past := invariant.past
  cases standing : state.child with
  | leaving =>
      rw [standing] at past
      exact absurd writes (by rw [(past rfl).2]; decide)
  | exited =>
      rw [standing] at past
      exact absurd writes (by rw [(past rfl).2]; decide)
  | closingWrite => rfl
  | reading => rfl
  | printing => rfl
  | ending => rfl
  | closingRead => rfl

theorem Invariant.parentCall (invariant : Invariant message capacity output state) {count : Nat}
    (ready : state.parent.ready capacity state.pipe state.child count) :
    Invariant message capacity output (Pipes.parentCall message count state) := by
  have reader := invariant.reader
  obtain ⟨⟨sent, printed, split, carries, shown⟩, readEnds, writeEnds, past, alive, reaped⟩ :=
    invariant
  obtain ⟨pipe, child, parent⟩ := state
  dsimp only at *
  cases parent with
  | closingRead =>
      refine ⟨⟨sent, printed, split, carries.closeRead, shown⟩, ?_, writeEnds, past, nofun, nofun⟩
      simp [Pipes.parentCall, Pipe.closeRead, readEnds, Parent.readEnds]
  | writing rest =>
      cases rest with
      | nil =>
          exact ⟨⟨sent, printed, split, carries, shown⟩, readEnds, writeEnds, past, nofun, nofun⟩
      | cons first rest =>
          have isOpen : pipe.readEnds ≠ 0 := by
            rw [readEnds, reader rfl]
            exact Nat.add_eq_zero_iff.not.mpr fun none => nomatch none.1
          obtain ⟨_, fits, room⟩ := ready.resolve_left isOpen
          simp only [Pipes.parentCall, if_neg isOpen]
          refine ⟨⟨sent ++ (first :: rest).take count, printed, ?_, carries.put ?_, shown⟩,
            readEnds, writeEnds, fun ended => absurd (past ended).2 Nat.one_ne_zero, nofun, nofun⟩
          · rw [List.append_assoc]
            simpa [Parent.unwritten] using split
          · rw [List.length_take, Nat.min_eq_left fits]
            exact room
  | closingWrite =>
      refine ⟨⟨sent, printed, split, carries.closeWrite, shown⟩, readEnds, ?_, ?_, nofun, nofun⟩
      · simp [Pipes.parentCall, Pipe.closeWrite, writeEnds, Parent.writeEnds]
      · exact fun ended => absurd (past ended).2 Nat.one_ne_zero
  | waiting =>
      exact ⟨⟨sent, printed, split, carries, shown⟩, readEnds, writeEnds, past, nofun,
        fun _ => ready⟩
  | exited => exact ready.elim
  | killed => exact ready.elim

end Steps

theorem run_invariant {message : List Byte} {capacity : Nat} {steps : List (State × Move)}
    {state : State} (run : (pipes message capacity).Run steps state) :
    Invariant message capacity ((pipes message capacity).trace steps) state := by
  refine run.traceInvariant (Invariant message capacity) ?_ ?_
  · rintro _ rfl
    exact .initial message capacity
  · intro output steps state move _ invariant admitted
    cases move with
    | child => exact invariant.childCall admitted
    | parent count =>
        show Invariant message capacity (output ++ []) _
        rw [List.append_nil]
        exact invariant.parentCall admitted

/-- The calls that the parent has still to make; each part of its `write` moves at
least one byte. -/
def Parent.work (message : List Byte) : Parent → Nat
  | .closingRead => message.length + 4
  | .writing rest => rest.length + 3
  | .closingWrite => 2
  | .waiting => 1
  | .exited => 0
  | .killed => 0

/-- The calls that the child has still to make for this many bytes to come. -/
def Child.work (pending : Nat) : Child → Nat
  | .closingWrite => 2 * pending + 5
  | .reading => 2 * pending + 4
  | .printing _ => 2 * pending + 5
  | .ending => 3
  | .closingRead => 2
  | .leaving => 1
  | .exited => 0

theorem Child.work_mono {fewer more : Nat} (le : fewer ≤ more) (child : Child) :
    child.work fewer ≤ child.work more := by
  cases child <;> simp only [Child.work] <;> omega

def work (message : List Byte) (state : State) : Nat :=
  state.parent.work message +
    state.child.work (state.pipe.contents.length + (state.parent.unwritten message).length)

section Progress

variable {message output : List Byte} {capacity : Nat} {state : State}

theorem work_childCall (ready : state.child.ready state.pipe) :
    work message (childCall state).1 < work message state := by
  obtain ⟨pipe, child, parent⟩ := state
  cases child with
  | closingWrite => simp [work, childCall, Child.work, Pipe.closeWrite]
  | reading =>
      cases contents : pipe.contents with
      | nil =>
          simp only [work, childCall, contents, Child.work]
          omega
      | cons buf rest =>
          simp only [work, childCall, contents, Child.work, Pipe.drop, List.length_drop,
            List.length_cons]
          omega
  | printing buf => simp [work, childCall, Child.work]
  | ending => simp [work, childCall, Child.work]
  | closingRead => simp [work, childCall, Child.work]
  | leaving => simp [work, childCall, Child.work]
  | exited => exact ready.elim

theorem work_parentCall {count : Nat}
    (ready : state.parent.ready capacity state.pipe state.child count) :
    work message (parentCall message count state) < work message state := by
  obtain ⟨pipe, child, parent⟩ := state
  cases parent with
  | closingRead => simp [work, parentCall, Parent.work, Parent.unwritten, Pipe.closeRead]
  | writing rest =>
      cases rest with
      | nil => simp [work, parentCall, Parent.work, Parent.unwritten]
      | cons first rest =>
          by_cases broken : pipe.readEnds = 0
          · have fewer : pipe.contents.length + 0 ≤ pipe.contents.length + (first :: rest).length :=
              Nat.add_le_add_left (Nat.zero_le _) _
            have less := Child.work_mono fewer child
            simp only [work, parentCall, if_pos broken, Parent.work, Parent.unwritten,
              Pipe.closeWrite, List.length_nil]
            omega
          · obtain ⟨some, fits, _⟩ := ready.resolve_left broken
            have pending : (pipe.contents ++ (first :: rest).take count).length +
                ((first :: rest).drop count).length =
                  pipe.contents.length + (first :: rest).length := by
              rw [List.length_append, List.length_take, List.length_drop]
              omega
            have left : ((first :: rest).drop count).length < (first :: rest).length := by
              rw [List.length_drop]
              omega
            simp only [work, parentCall, if_neg broken, Parent.work, Parent.unwritten, Pipe.put,
              pending]
            omega
  | closingWrite => simp [work, parentCall, Parent.work, Parent.unwritten, Pipe.closeWrite]
  | waiting => simp [work, parentCall, Parent.work, Parent.unwritten]
  | exited => exact ready.elim
  | killed => exact ready.elim

/-- When the child waits for bytes, the parent can go on. -/
theorem Invariant.parent_goesOn (invariant : Invariant message capacity output state)
    (positive : 0 < capacity) (silent : state.pipe.Silent) (reading : state.child = .reading) :
    ∃ count, state.parent.ready capacity state.pipe state.child count := by
  have writeEnds := invariant.writeEnds
  rw [reading] at writeEnds
  cases standing : state.parent with
  | closingRead => exact ⟨0, trivial⟩
  | writing rest =>
      cases rest with
      | nil => exact ⟨0, trivial⟩
      | cons first rest =>
          refine ⟨1, .inr ⟨Nat.le_refl 1, Nat.le_add_left 1 _, ?_⟩⟩
          rw [silent.1]
          exact positive
  | closingWrite => exact ⟨0, trivial⟩
  | waiting =>
      rw [standing] at writeEnds
      exact absurd silent.2 (by rw [writeEnds]; decide)
  | exited =>
      rw [standing] at writeEnds
      exact absurd silent.2 (by rw [writeEnds]; decide)
  | killed => exact absurd standing invariant.alive

theorem Invariant.goesOn (invariant : Invariant message capacity output state)
    (positive : 0 < capacity) : Finished state ∨ ∃ move, Admits capacity state move := by
  have past := invariant.past
  cases standing : state.child with
  | reading =>
      by_cases silent : state.pipe.Silent
      · obtain ⟨count, ready⟩ := invariant.parent_goesOn positive silent standing
        exact .inr ⟨.parent count, ready⟩
      · refine .inr ⟨.child, ?_⟩
        rw [Admits, standing]
        exact silent
  | exited =>
      rw [standing] at past
      have closed := (past rfl).2
      cases waits : state.parent with
      | waiting =>
          refine .inr ⟨.parent 0, ?_⟩
          rw [Admits, waits]
          exact standing
      | exited => exact .inl ⟨standing, waits⟩
      | killed => exact absurd waits invariant.alive
      | closingRead => rw [waits] at closed; cases closed
      | writing => rw [waits] at closed; cases closed
      | closingWrite => rw [waits] at closed; cases closed
  | closingWrite | printing | ending | closingRead | leaving =>
      refine .inr ⟨.child, ?_⟩
      rw [Admits, standing]
      trivial

theorem Invariant.output_eq (invariant : Invariant message capacity output state)
    (ended : state.child.ended) : output = message ++ [newline] := by
  obtain ⟨sent, printed, split, carries, shown⟩ := invariant.carries
  have past := state.child.past_of_ended ended
  obtain ⟨empty, closed⟩ := invariant.past past
  have received := carries.eq_of_empty empty
  rw [state.child.held_of_past past, List.append_nil] at received
  rw [state.parent.unwritten_of_closed message closed, List.append_nil] at split
  rw [shown, if_pos ended, received, split]

theorem Invariant.output_isPrefix (invariant : Invariant message capacity output state) :
    output <+: message ++ [newline] := by
  by_cases ended : state.child.ended
  · rw [invariant.output_eq ended]
  · obtain ⟨sent, printed, split, carries, shown⟩ := invariant.carries
    rw [shown, if_neg ended, List.append_nil, split, List.append_assoc]
    exact (List.prefix_append printed _).trans
      (carries.received_isPrefix.trans (List.prefix_append sent _))

end Progress

theorem pipes_ranked {message : List Byte} {capacity : Nat} (positive : 0 < capacity) :
    (pipes message capacity).Ranked Finished (work message) where
  falls := by
    intro steps state move _ admitted
    cases move with
    | child => exact work_childCall admitted
    | parent count => exact work_parentCall admitted
  goesOn := fun _ _ run => (run_invariant run).goesOn positive

/-- Both processes to their end, over a pipe of one byte. -/
def hiMoves : List Move :=
  [.parent 0, .parent 1, .child, .child, .child, .parent 1, .parent 0, .parent 0, .child, .child,
    .child, .child, .child, .child, .parent 0]

/-- For every message, every capacity and every order of the two processes' calls: no
run is longer than the message accounts for, none gets stuck, the parent is never
killed by writing, and the child, which never prints anything else, has printed the
message and a line break when it exits. -/
theorem pipes_delivers {message : List Byte} {capacity : Nat} (positive : 0 < capacity)
    {steps : List (State × Move)} {state : State}
    (run : (pipes message capacity).Run steps state) :
    steps.length ≤ 3 * message.length + 9 ∧
      (Finished state ∨ ∃ move, (pipes message capacity).admits state move) ∧
      state.parent ≠ .killed ∧
      (pipes message capacity).trace steps <+: message ++ [newline] ∧
      (state.child = .exited → (pipes message capacity).trace steps = message ++ [newline]) := by
  have invariant := run_invariant run
  have begins : ∀ start, (pipes message capacity).initial start →
      work message start ≤ 3 * message.length + 9 := by
    rintro _ rfl
    simp only [work, Parent.work, Child.work, Parent.unwritten, List.length_nil]
    omega
  obtain ⟨bound, goesOn⟩ := (pipes_ranked positive).ends begins run
  refine ⟨bound, goesOn, invariant.alive, invariant.output_isPrefix, ?_⟩
  exact fun exited => invariant.output_eq (by rw [exited]; rfl)

theorem pipes_delivers_hi :
    (pipes (ascii "hi") 1).trace
      ((pipes (ascii "hi") 1).follow ⟨⟨[], 2, 2⟩, .closingWrite, .closingRead⟩ hiMoves) =
        ascii "hi" ++ [newline] :=
  (pipes_delivers Nat.one_pos (.of_admitted rfl (by decide))).2.2.2.2 (by decide)

end CBasics.Pipes
