import CBasics.Fifo.Basic

/-! The text of the child is what the parent prints, in every interleaving, after its
own announcements; a parent whose `fork` failed waits for it in `open`. -/

set_option autoImplicit false

namespace CBasics.Fifo

open Library

def Child.writeEnds : Child → Nat
  | .meeting => 1
  | .writing => 1
  | .telling => 1
  | .closing => 1
  | _ => 0

def Child.hasWritten : Child → Bool
  | .telling => true
  | .closing => true
  | .leaving => true
  | .exited => true
  | _ => false

def Parent.readEnds : Parent → Nat
  | .meeting => 1
  | .telling => 1
  | .reading => 1
  | .printing _ => 1
  | _ => 0

def Parent.hasRead : Parent → Bool
  | .printing _ => true
  | .exited => true
  | _ => false

/-- Before the `fork`. -/
def Parent.early : Parent → Bool
  | .checking => true
  | .making => true
  | .failed => true
  | .forking => true
  | _ => false

/-- There is a named pipe to open. -/
def Setting.Provided (setting : Setting) : Prop := setting.present = true ∨ setting.made = true

instance (setting : Setting) : Decidable setting.Provided := inferInstanceAs (Decidable (_ ∨ _))

/-- What the parent prints about the name. -/
def Setting.notice (setting : Setting) : List (List Byte) :=
  if setting.present then [ascii "Fifo exists\n"] else []

/-- What the parent prints before it reads. -/
def Setting.announcement (setting : Setting) : List Byte :=
  ascii "Parent preparing to read , PID : " ++ decimal setting.parentPid ++ ascii "\n"

def Parent.spoken (setting : Setting) : Parent → List (List Byte)
  | .reading => setting.notice ++ [setting.announcement]
  | .printing _ => setting.notice ++ [setting.announcement]
  | .exited => setting.notice ++ [setting.announcement, setting.msg]
  | _ => setting.notice

/-- A text without NULs that one `write` and one `read` can move. -/
structure Setting.Fits (setting : Setting) (capacity : Nat) : Prop where
  noNul : 0 ∉ setting.msg
  readable : setting.msg.length + 2 ≤ bufsiz
  room : setting.msg.length + 2 ≤ capacity

/-- What holds before the `fork`. -/
inductive Early (setting : Setting) : List Line → State → Prop where
  | checking : Early setting [] (.alone .checking)
  | making : setting.present = false → Early setting [] (.alone .making)
  | failed : ¬ setting.Provided → Early setting [] (.alone .failed)
  | forking : setting.Provided →
      Early setting (setting.notice.map fun text => (.parent, text)) (.alone .forking)

/-- What holds after a `fork` that succeeded. -/
structure Invariant (setting : Setting) (lines : List Line) (state : State) : Prop where
  begun : state.parent.early = false
  born : state.child ≠ .absent
  alive : state.child ≠ .killed
  readEnds : state.pipe.readEnds = state.parent.readEnds
  writeEnds : state.pipe.writeEnds = state.child.writeEnds
  readerCame : state.readerCame = true ↔ state.parent ≠ .opening
  writerCame : state.writerCame = true ↔ state.child ≠ .opening
  reader : state.child = .writing → state.parent ≠ .opening
  writer : state.parent ≠ .opening → state.parent ≠ .meeting → state.child ≠ .opening
  order : state.parent.hasRead → state.child.hasWritten
  contents : state.pipe.contents =
    if state.child.hasWritten = true ∧ state.parent.hasRead = false then setting.written else []
  buffered : ∀ msgBuf, state.parent = .printing msgBuf → cString msgBuf = setting.msg
  spoken : said .parent lines = state.parent.spoken setting

theorem said_append (mover : Mover) (left right : List Line) :
    said mover (left ++ right) = said mover left ++ said mover right := by
  simp [said]

theorem said_notice (setting : Setting) :
    said .parent (setting.notice.map fun text => (.parent, text)) = setting.notice := by
  unfold Setting.notice
  split <;> rfl

/-- The state after the `fork`. -/
def afterFork (forked : Bool) : State :=
  { State.alone .opening with child := if forked then .opening else .absent }

theorem Invariant.begins (setting : Setting) :
    Invariant setting (setting.notice.map fun text => (.parent, text)) (afterFork true) where
  begun := rfl
  born := nofun
  alive := nofun
  readEnds := rfl
  writeEnds := rfl
  readerCame := ⟨nofun, fun other => absurd rfl other⟩
  writerCame := ⟨nofun, fun other => absurd rfl other⟩
  reader := nofun
  writer := fun other => absurd rfl other
  order := nofun
  contents := rfl
  buffered := nofun
  spoken := said_notice setting

section Steps

variable {setting : Setting} {capacity : Nat} {lines : List Line} {state : State}

theorem Setting.length_written (setting : Setting) :
    setting.written.length = setting.msg.length + 2 := by
  simp [written]

theorem Setting.cString_received (setting : Setting) (noNul : 0 ∉ setting.msg)
    (garbage : List Byte) :
    cString ((RecvResult.bytes setting.written).store garbage) = setting.msg := by
  rw [RecvResult.store, written, List.append_assoc, List.cons_append, cString_append_zero,
    cString_eq_self noNul]

/-- While the child has not written, somebody can still read. -/
theorem Invariant.isOpen (invariant : Invariant setting lines state)
    (writing : state.child = .writing) : state.pipe.readEnds = 1 := by
  have order := invariant.order
  have reader := invariant.reader writing
  have begun := invariant.begun
  rw [writing] at order
  rw [invariant.readEnds]
  cases standing : state.parent with
  | checking | making | failed | forking =>
      rw [standing] at begun
      cases begun
  | opening => exact absurd standing reader
  | exited =>
      rw [standing] at order
      cases order rfl
  | meeting | telling | reading | printing => rfl

theorem said_childCall (setting : Setting) (state : State) :
    said .parent (Fifo.childCall setting state).2 = [] := by
  unfold Fifo.childCall
  cases state.child with
  | writing =>
      dsimp only
      split <;> rfl
  | _ => rfl

theorem Invariant.childCall (invariant : Invariant setting lines state)
    (ready : state.child.ready setting capacity state) :
    Invariant setting (lines ++ (Fifo.childCall setting state).2)
      (Fifo.childCall setting state).1 := by
  have isOpen := invariant.isOpen
  obtain ⟨begun, born, alive, readEnds, writeEnds, readerCame, writerCame, reader, writer, order,
    contents, buffered, spoken⟩ := invariant
  have spokenStill : said .parent (lines ++ (Fifo.childCall setting state).2) =
      state.parent.spoken setting := by
    rw [said_append, said_childCall, List.append_nil]
    exact spoken
  obtain ⟨pipe, readerCameNow, writerCameNow, child, parent⟩ := state
  dsimp only at *
  cases child with
  | absent => exact ready.elim
  | opening =>
      exact ⟨begun, nofun, nofun, readEnds, congrArg (· + 1) writeEnds, readerCame,
        ⟨fun _ => nofun, fun _ => rfl⟩, nofun, fun _ _ => nofun, order, contents, buffered,
        spokenStill⟩
  | meeting =>
      exact ⟨begun, nofun, nofun, readEnds, writeEnds, readerCame,
        ⟨fun _ => nofun, fun _ => writerCame.mpr nofun⟩, fun _ => readerCame.mp ready,
        fun _ _ => nofun, order, contents, buffered, spokenStill⟩
  | writing =>
      have someReader : pipe.readEnds ≠ 0 := Nat.ne_of_gt (Nat.lt_of_lt_of_eq Nat.one_pos
        (isOpen rfl).symm)
      have unread : parent.hasRead = false := by
        cases read : parent.hasRead with
        | false => rfl
        | true => cases order read
      have empty : pipe.contents = [] := contents
      have after : (pipe.put setting.written).contents = setting.written := by
        rw [Pipe.put, empty, List.nil_append]
      simp only [Fifo.childCall, if_neg someReader] at spokenStill ⊢
      exact ⟨begun, nofun, nofun, readEnds, writeEnds, readerCame,
        ⟨fun _ => nofun, fun _ => writerCame.mpr nofun⟩, nofun, fun _ _ => nofun, fun _ => rfl,
        after.trans (if_pos ⟨rfl, unread⟩).symm, buffered, spokenStill⟩
  | telling =>
      exact ⟨begun, nofun, nofun, readEnds, writeEnds, readerCame,
        ⟨fun _ => nofun, fun _ => writerCame.mpr nofun⟩, nofun, fun _ _ => nofun, order, contents,
        buffered, spokenStill⟩
  | closing =>
      exact ⟨begun, nofun, nofun, readEnds, congrArg (· - 1) writeEnds, readerCame,
        ⟨fun _ => nofun, fun _ => writerCame.mpr nofun⟩, nofun, fun _ _ => nofun, order, contents,
        buffered, spokenStill⟩
  | leaving =>
      exact ⟨begun, nofun, nofun, readEnds, writeEnds, readerCame,
        ⟨fun _ => nofun, fun _ => writerCame.mpr nofun⟩, nofun, fun _ _ => nofun, order, contents,
        buffered, spokenStill⟩
  | exited => exact ready.elim
  | killed => exact ready.elim

/-- The parent never finds the pipe at its end: it finds the whole text. -/
theorem Invariant.contents_of_ready (invariant : Invariant setting lines state)
    (reading : state.parent = .reading) (notSilent : ¬ state.pipe.Silent) :
    state.child.hasWritten = true ∧ state.pipe.contents = setting.written := by
  have came := invariant.writer (by rw [reading]; nofun) (by rw [reading]; nofun)
  have contents := invariant.contents
  rw [reading] at contents
  cases written : state.child.hasWritten with
  | true =>
      rw [written] at contents
      exact ⟨rfl, contents.trans (if_pos ⟨rfl, rfl⟩)⟩
  | false =>
      rw [written] at contents
      refine absurd ⟨contents.trans (if_neg nofun), ?_⟩ notSilent
      rw [invariant.writeEnds]
      cases standing : state.child with
      | opening => exact absurd standing came
      | absent => exact absurd standing invariant.born
      | killed => exact absurd standing invariant.alive
      | meeting => exact Nat.one_pos
      | writing => exact Nat.one_pos
      | telling | closing | leaving | exited => rw [standing] at written; cases written

theorem Invariant.parentCall (invariant : Invariant setting lines state)
    (fits : setting.Fits capacity) (ready : state.parent.ready state) :
    Invariant setting (lines ++ (Fifo.parentCall setting state).2)
      (Fifo.parentCall setting state).1 := by
  have found := invariant.contents_of_ready
  obtain ⟨begun, born, alive, readEnds, writeEnds, readerCame, writerCame, reader, writer, order,
    contents, buffered, spoken⟩ := invariant
  obtain ⟨pipe, readerCameNow, writerCameNow, child, parent⟩ := state
  dsimp only at *
  cases parent with
  | checking | making | failed | forking => cases begun
  | opening =>
      refine ⟨rfl, born, alive, congrArg (· + 1) readEnds, writeEnds,
        ⟨fun _ => nofun, fun _ => rfl⟩, writerCame, fun _ => nofun,
        fun _ other => absurd rfl other, order, contents, nofun, ?_⟩
      rw [said_append, spoken]
      exact List.append_nil _
  | meeting =>
      refine ⟨rfl, born, alive, readEnds, writeEnds,
        ⟨fun _ => nofun, fun _ => readerCame.mpr nofun⟩, writerCame, fun _ => nofun,
        fun _ _ => writerCame.mp ready, order, contents, nofun, ?_⟩
      rw [said_append, spoken]
      exact List.append_nil _
  | telling =>
      refine ⟨rfl, born, alive, readEnds, writeEnds,
        ⟨fun _ => nofun, fun _ => readerCame.mpr nofun⟩, writerCame, fun _ => nofun,
        fun _ _ => writer nofun nofun, order, contents, nofun, ?_⟩
      rw [said_append, spoken]
      rfl
  | reading =>
      obtain ⟨written, whole⟩ := found rfl ready
      have readable : pipe.contents.length ≤ bufsiz := by
        rw [whole, setting.length_written]
        exact fits.readable
      have rest : (pipe.drop bufsiz).contents = [] := List.drop_eq_nil_of_le readable
      refine ⟨rfl, born, alive, readEnds, writeEnds,
        ⟨fun _ => nofun, fun _ => readerCame.mpr nofun⟩, writerCame, fun _ => nofun,
        fun _ _ => writer nofun nofun, fun _ => written,
        rest.trans (if_neg fun both => nomatch both.2).symm, ?_, ?_⟩
      · intro msgBuf same
        have stored := Parent.printing.inj same
        rw [List.take_of_length_le readable, whole] at stored
        rw [← stored]
        exact setting.cString_received fits.noNul setting.garbage
      · rw [said_append, spoken]
        exact List.append_nil _
  | printing msgBuf =>
      refine ⟨rfl, born, alive, congrArg (· - 1) readEnds, writeEnds,
        ⟨fun _ => nofun, fun _ => readerCame.mpr nofun⟩, writerCame, fun _ => nofun,
        fun _ _ => writer nofun nofun, order, contents, nofun, ?_⟩
      rw [said_append, spoken]
      show setting.notice ++ [setting.announcement] ++ [cString msgBuf] = _
      rw [buffered msgBuf rfl, List.append_assoc]
      rfl
  | exited => exact ready.elim

theorem Invariant.goesOn (invariant : Invariant setting lines state)
    (fits : setting.Fits capacity) :
    Finished state ∨ ∃ mover, (fifo setting capacity).admits state mover := by
  have contents := invariant.contents
  have begun := invariant.begun
  cases standing : state.child with
  | absent => exact absurd standing invariant.born
  | killed => exact absurd standing invariant.alive
  | opening | telling | closing | leaving =>
      refine .inr ⟨.child, ?_⟩
      show state.child.ready setting capacity state
      rw [standing]
      trivial
  | meeting =>
      by_cases came : state.readerCame = true
      · refine .inr ⟨.child, ?_⟩
        show state.child.ready setting capacity state
        rw [standing]
        exact came
      · refine .inr ⟨.parent, ?_⟩
        show state.parent.ready state
        rw [Decidable.not_not.mp fun other => came (invariant.readerCame.mpr other)]
        trivial
  | writing =>
      refine .inr ⟨.child, ?_⟩
      show state.child.ready setting capacity state
      rw [standing] at contents ⊢
      have empty : state.pipe.contents = [] := contents
      refine .inr ?_
      rw [empty, setting.length_written]
      exact Nat.le_trans (Nat.le_of_eq (Nat.zero_add _)) fits.room
  | exited =>
      rw [standing] at contents
      cases waits : state.parent with
      | checking | making | failed | forking =>
          rw [waits] at begun
          cases begun
      | exited => exact .inl ⟨standing, waits⟩
      | opening | telling | printing =>
          refine .inr ⟨.parent, ?_⟩
          show state.parent.ready state
          rw [waits]
          trivial
      | meeting =>
          refine .inr ⟨.parent, ?_⟩
          show state.parent.ready state
          rw [waits]
          exact invariant.writerCame.mpr (by rw [standing]; nofun)
      | reading =>
          refine .inr ⟨.parent, ?_⟩
          show state.parent.ready state
          rw [waits] at contents ⊢
          rintro ⟨empty, _⟩
          have length := congrArg List.length
            (empty.symm.trans (contents.trans (if_pos ⟨rfl, rfl⟩)))
          rw [setting.length_written] at length
          cases length

end Steps

def Child.work : Child → Nat
  | .opening => 6
  | .meeting => 5
  | .writing => 4
  | .telling => 3
  | .closing => 2
  | .leaving => 1
  | .absent => 0
  | .exited => 0
  | .killed => 0

def Parent.work : Parent → Nat
  | .checking => 14
  | .making => 13
  | .failed => 0
  | .forking => 12
  | .opening => 5
  | .meeting => 4
  | .telling => 3
  | .reading => 2
  | .printing _ => 1
  | .exited => 0

def work (state : State) : Nat := state.child.work + state.parent.work

theorem work_childCall {setting : Setting} {capacity : Nat} {state : State}
    (ready : state.child.ready setting capacity state) :
    work (childCall setting state).1 < work state := by
  obtain ⟨pipe, readerCame, writerCame, child, parent⟩ := state
  cases child with
  | writing =>
      unfold childCall
      dsimp only
      split <;> simp [work, Child.work]
  | absent | exited | killed => exact ready.elim
  | opening | meeting | telling | closing | leaving => simp [work, childCall, Child.work]

theorem work_parentCall {setting : Setting} {state : State} (ready : state.parent.ready state) :
    work (parentCall setting state).1 < work state := by
  obtain ⟨pipe, readerCame, writerCame, child, parent⟩ := state
  cases parent with
  | failed | exited => exact ready.elim
  | checking =>
      unfold parentCall
      dsimp only
      split <;> simp [work, Parent.work]
  | making =>
      unfold parentCall
      dsimp only
      split <;> simp [work, Parent.work]
  | forking =>
      unfold parentCall
      dsimp only
      split <;> simp only [work, Parent.work, Child.work] <;> omega
  | opening | meeting | telling | reading | printing => simp [work, parentCall, Parent.work]

section Runs

variable {setting : Setting} {capacity : Nat} {lines : List Line} {steps : List (State × Mover)}
  {state : State}

/-- What holds after a `fork` that failed: the parent is alone with the pipe. -/
structure Lonely (setting : Setting) (lines : List Line) (state : State) : Prop where
  absent : state.child = .absent
  nobody : state.writerCame = false
  waits : state.parent = .opening ∨ state.parent = .meeting
  spoken : said .parent lines = setting.notice

/-- What holds in every state of a run. -/
inductive Phase (setting : Setting) (lines : List Line) (state : State) : Prop where
  | early : Early setting lines state → Phase setting lines state
  | begun : setting.Provided → setting.forked = true → Invariant setting lines state →
      Phase setting lines state
  | lonely : setting.Provided → setting.forked = false → Lonely setting lines state →
      Phase setting lines state

theorem Early.next (early : Early setting lines state) {mover : Mover}
    (admitted : (fifo setting capacity).admits state mover) :
    Phase setting (lines ++ (fifo setting capacity).emits state mover)
      ((fifo setting capacity).next state mover) := by
  cases mover with
  | child => cases early <;> exact admitted.elim
  | parent =>
      cases early with
      | checking =>
          cases present : setting.present with
          | true =>
              have provided : setting.Provided := .inl present
              have forking := Early.forking provided
              refine .early ?_
              simpa [System.next, System.emits, fifo, parentCall, State.alone, present,
                Setting.notice] using forking
          | false =>
              have making := Early.making present
              refine .early ?_
              simpa [System.next, System.emits, fifo, parentCall, State.alone, present] using making
      | making unmade =>
          cases made : setting.made with
          | true =>
              have provided : setting.Provided := .inr made
              have forking := Early.forking provided
              refine .early ?_
              simpa [System.next, System.emits, fifo, parentCall, State.alone, unmade, made,
                Setting.notice] using forking
          | false =>
              have unprovided : ¬ setting.Provided := by
                rintro (present | isMade)
                · exact Bool.false_ne_true (unmade.symm.trans present)
                · exact Bool.false_ne_true (made.symm.trans isMade)
              have failed := Early.failed unprovided
              refine .early ?_
              simpa [System.next, System.emits, fifo, parentCall, State.alone, made] using failed
      | failed => exact admitted.elim
      | forking provided =>
          have silent : (fifo setting capacity).emits (.alone .forking) .parent = [] := rfl
          have next : (fifo setting capacity).next (.alone .forking) .parent =
              afterFork setting.forked := rfl
          rw [silent, next, List.append_nil]
          cases forked : setting.forked with
          | true => exact .begun provided forked (.begins setting)
          | false => exact .lonely provided forked ⟨rfl, rfl, .inl rfl, said_notice setting⟩

theorem Lonely.next (lonely : Lonely setting lines state) {mover : Mover}
    (admitted : (fifo setting capacity).admits state mover) :
    Lonely setting (lines ++ (fifo setting capacity).emits state mover)
      ((fifo setting capacity).next state mover) := by
  obtain ⟨absent, nobody, waits, spoken⟩ := lonely
  cases mover with
  | child =>
      have ready : state.child.ready setting capacity state := admitted
      rw [absent] at ready
      exact ready.elim
  | parent =>
      have ready : state.parent.ready state := admitted
      rcases waits with opening | meeting
      · simp only [System.next, System.emits, fifo, parentCall, opening, List.append_nil]
        exact ⟨absent, nobody, .inr rfl, spoken⟩
      · rw [meeting] at ready
        exact absurd (nobody.symm.trans ready) nofun

theorem run_phase (fits : setting.Fits capacity) (run : (fifo setting capacity).Run steps state) :
    Phase setting ((fifo setting capacity).trace steps) state := by
  refine run.traceInvariant (Phase setting) ?_ ?_
  · intro state initial
    have begins : state = start := initial
    rw [begins]
    exact .early .checking
  · intro lines steps state mover _ phase admitted
    cases phase with
    | early early => exact early.next admitted
    | begun provided forked invariant =>
        cases mover with
        | child => exact .begun provided forked (invariant.childCall admitted)
        | parent => exact .begun provided forked (invariant.parentCall fits admitted)
    | lonely provided failed lonely => exact .lonely provided failed (lonely.next admitted)

theorem Early.goesOn (early : Early setting lines state) :
    state.parent = .failed ∨ ∃ mover, (fifo setting capacity).admits state mover := by
  cases early with
  | failed => exact .inl rfl
  | checking | making | forking => exact .inr ⟨.parent, trivial⟩

/-- Both processes are done, or there is only the parent: `mkfifo` failed, or it waits
in `open` after a `fork` that failed. -/
def Ended (setting : Setting) (state : State) : Prop :=
  state.parent = .failed ∨ Finished state ∨ setting.forked = false ∧ state.parent = .meeting

instance (setting : Setting) (state : State) : Decidable (Ended setting state) :=
  inferInstanceAs (Decidable (_ ∨ (_ ∧ _) ∨ _ ∧ _))

theorem fifo_ranked (fits : setting.Fits capacity) :
    (fifo setting capacity).Ranked (Ended setting) work where
  falls := by
    intro steps state mover _ admitted
    cases mover with
    | child => exact work_childCall admitted
    | parent => exact work_parentCall admitted
  goesOn := by
    intro steps state run
    cases run_phase fits run with
    | early early => exact early.goesOn.imp_left .inl
    | begun _ _ invariant => exact (invariant.goesOn fits).imp_left fun done => .inr (.inl done)
    | lonely _ failed lonely =>
        rcases lonely.waits with opening | meeting
        · refine .inr ⟨.parent, ?_⟩
          show state.parent.ready state
          rw [opening]
          trivial
        · exact .inl (.inr (.inr ⟨failed, meeting⟩))

theorem Early.ended (early : Early setting lines state) (ended : Ended setting state) :
    state.parent = .failed ∧ ¬ setting.Provided ∧ state.child = .absent ∧
      said .parent lines = [] := by
  cases early with
  | failed bare => exact ⟨rfl, bare, rfl, rfl⟩
  | checking | making | forking => exact absurd ended (by simp [Ended, Finished, State.alone])

theorem Invariant.ended (invariant : Invariant setting lines state)
    (forked : setting.forked = true) (ended : Ended setting state) :
    Finished state ∧
      said .parent lines = setting.notice ++ [setting.announcement, setting.msg] := by
  have finished : Finished state := by
    rcases ended with failed | finished | ⟨failed, -⟩
    · have begun := invariant.begun
      rw [failed] at begun
      cases begun
    · exact finished
    · exact absurd (forked.symm.trans failed) nofun
  refine ⟨finished, ?_⟩
  rw [invariant.spoken, finished.2]
  rfl

/-- Where the parent waits nobody can move: it is alone, and no writer has come. -/
theorem Lonely.ended (lonely : Lonely setting lines state) (ended : Ended setting state) :
    state.parent = .meeting ∧ said .parent lines = setting.notice ∧
      ∀ mover, ¬ (fifo setting capacity).admits state mover := by
  have waits : state.parent = .meeting := by
    rcases lonely.waits with opening | meeting
    · exact absurd ended (by simp [Ended, Finished, opening])
    · exact meeting
  refine ⟨waits, lonely.spoken, ?_⟩
  intro mover admitted
  cases mover with
  | child =>
      have ready : state.child.ready setting capacity state := admitted
      rw [lonely.absent] at ready
      exact ready
  | parent =>
      have ready : state.parent.ready state := admitted
      rw [waits] at ready
      exact absurd (lonely.nobody.symm.trans ready) nofun

end Runs

def greeting : Setting where
  present := true
  made := false
  msg := msg
  behind := 7
  garbage := []
  childPid := 2
  parentPid := 1
  forked := true

theorem greeting_fits : greeting.Fits 512 := ⟨by decide, by decide, by decide⟩

/-- The name exists; the child comes first, and the parent reads before the child has
closed. -/
def greetingMoves : List Mover :=
  [.parent, .parent, .child, .parent, .child, .child, .parent, .parent, .parent, .child, .parent,
    .child, .child]

end CBasics.Fifo
