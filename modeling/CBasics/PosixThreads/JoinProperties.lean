import CBasics.PosixThreads.Basic
import Mathlib.Data.List.FinRange
import Mathlib.Data.List.Nodup

/-! Every thread prints its own number once, and the main thread has joined them all
before it says so. -/

set_option autoImplicit false

namespace CBasics.PosixThreads

open Library

def Local.printed : Local → Bool
  | .exiting => true
  | .finished => true
  | _ => false

/-- The threads below this number have been created. -/
def Main.created (threadCount : Nat) : Main → Nat
  | .storing i => i
  | .creating i => i
  | .failed i => i
  | _ => threadCount

/-- The arguments below this number have been stored. -/
def Main.stored (threadCount : Nat) : Main → Nat
  | .storing i => i
  | .creating i => i + 1
  | .failed i => i + 1
  | _ => threadCount

/-- The threads below this number have been joined. -/
def Main.joined (threadCount : Nat) : Main → Nat
  | .joining i => i
  | .returned => threadCount
  | _ => 0

def Main.notes : Main → List Line
  | .joining _ => [.allCreated]
  | .returned => [.allCreated, .allTerminated]
  | _ => []

def Line.number? : Line → Option Int
  | .thread number => some number
  | _ => none

/-- The numbers that the threads have printed, in order. -/
def numbers (lines : List Line) : List Int := lines.filterMap Line.number?

/-- What the main thread has printed. -/
def notes (lines : List Line) : List Line := lines.filter fun line => line.number?.isNone

theorem numbers_append (left right : List Line) :
    numbers (left ++ right) = numbers left ++ numbers right := List.filterMap_append

theorem notes_append (left right : List Line) :
    notes (left ++ right) = notes left ++ notes right := List.filter_append ..

variable {threadCount : Nat}

/-- The value that `arg[i]` is given. -/
def index (thread : Fin threadCount) : Int := (thread : Nat)

structure Invariant (lines : List Line) (state : State threadCount) : Prop where
  bounded : state.main.stored threadCount ≤ threadCount
  absent : ∀ thread : Fin threadCount,
    state.threads.locals thread = .absent ↔ state.main.created threadCount ≤ thread
  arg : ∀ thread : Fin threadCount, (thread : Nat) < state.main.stored threadCount →
    state.threads.shared thread = index thread
  joined : ∀ thread : Fin threadCount, (thread : Nat) < state.main.joined threadCount →
    state.threads.locals thread = .finished
  notes : notes lines = state.main.notes
  printed : ∃ order : List (Fin threadCount), order.Nodup ∧
    (∀ thread, thread ∈ order ↔ (state.threads.locals thread).printed = true) ∧
    numbers lines = order.map index
  last : state.main = .returned → ∃ before, lines = before ++ [.allTerminated]

section Steps

variable {lines : List Line} {state : State threadCount}

theorem invariant_initial (initial : (posixThreads threadCount).initial state) :
    Invariant [] state := by
  obtain ⟨garbage, rfl⟩ := initial
  exact {
    bounded := Nat.zero_le _
    absent := fun thread => iff_of_true rfl (Nat.zero_le _)
    arg := fun thread small => absurd small (Nat.not_lt_zero _)
    joined := fun thread small => absurd small (Nat.not_lt_zero _)
    notes := rfl
    printed := ⟨[], List.nodup_nil, fun thread => iff_of_false List.not_mem_nil nofun, rfl⟩
    last := nofun }

/-- A thread that can move has been created, and its argument stored. -/
theorem Invariant.own (invariant : Invariant lines state) {thread : Fin threadCount}
    (exists_ : state.threads.locals thread ≠ .absent) :
    state.threads.shared thread = index thread := by
  refine invariant.arg thread ?_
  have below := Nat.lt_of_not_le fun le => exists_ ((invariant.absent thread).mpr le)
  have order : state.main.created threadCount ≤ state.main.stored threadCount := by
    cases state.main <;> simp [Main.created, Main.stored]
  exact Nat.lt_of_lt_of_le below order

/-- What is left to check of a thread's action is the thread and what it prints. -/
theorem Invariant.acted (invariant : Invariant lines state) {thread : Fin threadCount}
    {before after : Local} {emitted : List Line} (position : state.threads.locals thread = before)
    (acts : threadFunction thread state.threads.shared before =
      (state.threads.shared, after, emitted))
    (present : before ≠ .absent) (unfinished : before ≠ .finished) (remains : after ≠ .absent)
    (quiet : PosixThreads.notes emitted = [])
    (printed : ∃ order : List (Fin threadCount), order.Nodup ∧
      (∀ other, other ∈ order ↔
        ((Function.update state.threads.locals thread after) other).printed = true) ∧
      numbers (lines ++ emitted) = order.map index) :
    Invariant (lines ++ emitted)
      { state with threads :=
          ⟨state.threads.shared, Function.update state.threads.locals thread after⟩ } where
  bounded := invariant.bounded
  absent := by
    intro other
    rw [← invariant.absent other]
    by_cases same : other = thread
    · subst same
      dsimp only
      rw [Function.update_self, position]
      exact iff_of_false remains present
    · dsimp only
      rw [Function.update_of_ne same]
  arg := invariant.arg
  joined := by
    intro other small
    have done := invariant.joined other small
    dsimp only
    by_cases same : other = thread
    · subst same
      exact absurd (position.symm.trans done) unfinished
    · rw [Function.update_of_ne same]
      exact done
  notes := by rw [notes_append, quiet, List.append_nil, invariant.notes]
  printed := printed
  last := by
    intro returned
    have small : (thread : Nat) < state.main.joined threadCount := by
      rw [show state.main = .returned from returned]
      exact thread.isLt
    exact absurd (position.symm.trans (invariant.joined thread small)) unfinished

theorem Invariant.threadStep (invariant : Invariant lines state) {thread : Fin threadCount}
    (admitted : (posixThreads threadCount).admits state (.thread thread)) :
    Invariant (lines ++ (posixThreads threadCount).emits state (.thread thread))
      ((posixThreads threadCount).next state (.thread thread)) := by
  have isReady : ready state.threads.shared (state.threads.locals thread) := admitted.2
  obtain ⟨order, nodup, members, printed⟩ := invariant.printed
  have emits : (posixThreads threadCount).emits state (.thread thread) =
      (threadFunction thread state.threads.shared (state.threads.locals thread)).2.2 := rfl
  have next : (posixThreads threadCount).next state (.thread thread) =
      { state with threads :=
          ⟨(threadFunction thread state.threads.shared (state.threads.locals thread)).1,
            Function.update state.threads.locals thread
              (threadFunction thread state.threads.shared
                (state.threads.locals thread)).2.1⟩ } := rfl
  cases position : state.threads.locals thread with
  | absent =>
      rw [position] at isReady
      exact isReady.elim
  | finished =>
      rw [position] at isReady
      exact isReady.elim
  | printing =>
      have own := invariant.own (by rw [position]; nofun)
      rw [emits, next, position]
      refine invariant.acted position rfl nofun nofun nofun rfl ⟨order ++ [thread], ?_, ?_, ?_⟩
      · refine List.nodup_append.mpr ⟨nodup, List.nodup_singleton thread, ?_⟩
        rintro other member _ last rfl
        rw [List.mem_singleton.mp last, members, position] at member
        cases member
      · intro other
        by_cases same : other = thread
        · subst same
          rw [Function.update_self]
          exact iff_of_true (by simp) rfl
        · rw [Function.update_of_ne same, ← members]
          simp [same]
      · rw [numbers_append, printed, List.map_append, threadFunction, own]
        rfl
  | exiting =>
      rw [emits, next, position]
      refine invariant.acted position rfl nofun nofun nofun rfl ⟨order, nodup, ?_, ?_⟩
      · intro other
        by_cases same : other = thread
        · subst same
          rw [Function.update_self, members, position]
          exact iff_of_true rfl rfl
        · rw [Function.update_of_ne same, members]
      · rw [numbers_append, printed]
        exact List.append_nil _

theorem Invariant.mainStep (invariant : Invariant lines state) {created : Bool}
    (admitted : (posixThreads threadCount).admits state (.main created)) :
    Invariant (lines ++ (posixThreads threadCount).emits state (.main created))
      ((posixThreads threadCount).next state (.main created)) := by
  have ready : state.main.ready state.threads := admitted
  show Invariant (lines ++ (mainAction state created).2) (mainAction state created).1
  obtain ⟨bounded, absent, arg, joined, notes, printed, last⟩ := invariant
  obtain ⟨main, threads⟩ := state
  dsimp only at *
  cases main with
  | storing i =>
      by_cases small : i < threadCount
      · simp only [mainAction, dif_pos small, List.append_nil]
        refine ⟨small, absent, ?_, fun _ none => absurd none (Nat.not_lt_zero _), notes, printed,
          nofun⟩
        intro thread below
        show Function.update threads.shared ⟨i, small⟩ (i : Int) thread = index thread
        by_cases same : thread = ⟨i, small⟩
        · subst same
          exact Function.update_self ..
        · rw [Function.update_of_ne same]
          have other : (thread : Nat) ≠ i := fun equal => same (Fin.ext equal)
          exact arg thread (Nat.lt_of_le_of_ne (Nat.le_of_lt_succ below) other)
      · have whole : i = threadCount := Nat.le_antisymm bounded (Nat.le_of_not_lt small)
        subst whole
        simp only [mainAction, dif_neg small, List.append_nil]
        exact ⟨bounded, absent, arg, fun _ none => absurd none (Nat.not_lt_zero _), notes, printed,
          nofun⟩
  | creating i =>
      have small : i < threadCount := bounded
      cases created with
      | false =>
          simp only [mainAction, dif_pos small, Bool.false_eq_true, if_false, List.append_nil]
          exact ⟨bounded, absent, arg, fun _ none => absurd none (Nat.not_lt_zero _), notes,
            printed, nofun⟩
      | true =>
          simp only [mainAction, dif_pos small, if_true, List.append_nil]
          obtain ⟨order, nodup, members, printed⟩ := printed
          have fresh : threads.locals ⟨i, small⟩ = .absent :=
            (absent ⟨i, small⟩).mpr (Nat.le_refl i)
          refine ⟨small, ?_, arg, fun _ none => absurd none (Nat.not_lt_zero _), notes,
            ⟨order, nodup, ?_, printed⟩, nofun⟩
          · intro thread
            show Function.update threads.locals ⟨i, small⟩ .printing thread = .absent ↔
              i + 1 ≤ (thread : Nat)
            by_cases same : thread = ⟨i, small⟩
            · subst same
              rw [Function.update_self]
              exact iff_of_false nofun (Nat.not_succ_le_self i)
            · have other : i ≠ (thread : Nat) := fun equal => same (Fin.ext equal.symm)
              rw [Function.update_of_ne same, absent thread]
              exact ⟨fun le => Nat.lt_of_le_of_ne le other, Nat.le_of_succ_le⟩
          · intro thread
            show thread ∈ order ↔
              (Function.update threads.locals ⟨i, small⟩ .printing thread).printed = true
            by_cases same : thread = ⟨i, small⟩
            · subst same
              rw [Function.update_self, members, fresh]
              rfl
            · rw [Function.update_of_ne same, members]
  | announcing =>
      obtain ⟨order, nodup, members, printed⟩ := printed
      refine ⟨bounded, absent, arg, fun _ none => absurd none (Nat.not_lt_zero _), ?_,
        ⟨order, nodup, members, ?_⟩, nofun⟩
      · rw [notes_append, notes]
        rfl
      · rw [numbers_append, printed]
        exact List.append_nil _
  | joining i =>
      by_cases small : i < threadCount
      · simp only [mainAction, if_pos small, List.append_nil]
        refine ⟨bounded, absent, arg, ?_, notes, printed, nofun⟩
        intro thread below
        by_cases same : (thread : Nat) = i
        · subst same
          exact ready small
        · exact joined thread (Nat.lt_of_le_of_ne (Nat.le_of_lt_succ below) same)
      · simp only [mainAction, if_neg small]
        obtain ⟨order, nodup, members, printed⟩ := printed
        refine ⟨bounded, absent, arg, ?_, ?_, ⟨order, nodup, members, ?_⟩, fun _ => ⟨lines, rfl⟩⟩
        · exact fun thread below =>
            joined thread (Nat.lt_of_lt_of_le below (Nat.le_of_not_lt small))
        · rw [notes_append, notes]
          rfl
        · rw [numbers_append, printed]
          exact List.append_nil _
  | returned => exact ready.elim
  | failed i => exact ready.elim

/-- Unless a thread could not be created, the main thread or the one it waits for can
move. -/
theorem Invariant.goesOn (invariant : Invariant lines state) :
    state.main = .returned ∨ (∃ i, state.main = .failed i) ∨
      ∃ move, (posixThreads threadCount).admits state move := by
  cases standing : state.main with
  | returned => exact .inl rfl
  | failed i => exact .inr (.inl ⟨i, rfl⟩)
  | storing | creating | announcing =>
      refine .inr (.inr ⟨.main true, ?_⟩)
      show state.main.ready state.threads
      rw [standing]
      trivial
  | joining i =>
      refine .inr (.inr ?_)
      by_cases waits : state.main.ready state.threads
      · exact ⟨.main true, waits⟩
      · rw [standing] at waits
        obtain ⟨small, unfinished⟩ := not_forall.mp waits
        have present : state.threads.locals ⟨i, small⟩ ≠ .absent := by
          rw [Ne, invariant.absent, standing]
          exact Nat.not_le_of_lt small
        have running : state.main.running := by
          rw [standing]
          rfl
        refine ⟨.thread ⟨i, small⟩, running, ?_⟩
        cases position : state.threads.locals ⟨i, small⟩ with
        | absent => exact absurd position present
        | finished => exact absurd position unfinished
        | printing => trivial
        | exiting => trivial

end Steps

theorem run_invariant {steps : List (State threadCount × Move threadCount)}
    {state : State threadCount} (run : (posixThreads threadCount).Run steps state) :
    Invariant ((posixThreads threadCount).trace steps) state := by
  refine run.traceInvariant Invariant (fun _ initial => invariant_initial initial) ?_
  intro lines steps state move _ invariant admitted
  cases move with
  | main created => exact invariant.mainStep admitted
  | thread thread => exact invariant.threadStep admitted

def Local.work : Local → Nat
  | .absent => 2
  | .printing => 2
  | .exiting => 1
  | .finished => 0

def Main.work (threadCount : Nat) : Main → Nat
  | .storing i => 2 * (threadCount - i) + threadCount + 3
  | .creating i => 2 * (threadCount - i) + threadCount + 2
  | .announcing => threadCount + 2
  | .joining i => threadCount - i + 1
  | .returned => 0
  | .failed _ => 0

def work (state : State threadCount) : Nat :=
  state.main.work threadCount + state.threads.total Local.work

section Work

variable {state : State threadCount}

theorem total_create {thread : Fin threadCount}
    (fresh : state.threads.locals thread = .absent) :
    (state.create thread).threads.total Local.work = state.threads.total Local.work := by
  refine Finset.sum_congr rfl fun other _ => ?_
  by_cases same : other = thread
  · subst same
    rw [fresh]
    show (Function.update state.threads.locals other .printing other).work = _
    rw [Function.update_self]
    rfl
  · show (Function.update state.threads.locals thread .printing other).work = _
    rw [Function.update_of_ne same]

theorem work_mainAction {lines : List Line} (invariant : Invariant lines state) (created : Bool)
    (ready : state.main.ready state.threads) : work (mainAction state created).1 < work state := by
  have bounded := invariant.bounded
  have absent := invariant.absent
  have total (thread : Fin threadCount) := @total_create threadCount state thread
  obtain ⟨main, threads⟩ := state
  unfold work
  dsimp only at *
  cases main with
  | storing i =>
      by_cases small : i < threadCount
      · simp only [mainAction, dif_pos small, Main.work, State.setArg, Threads.total]
        omega
      · simp only [mainAction, dif_neg small, Main.work]
        omega
  | creating i =>
      have small : i < threadCount := bounded
      cases created with
      | false =>
          simp only [mainAction, dif_pos small, Bool.false_eq_true, if_false, Main.work]
          omega
      | true =>
          have same := total ⟨i, small⟩ ((absent ⟨i, small⟩).mpr (Nat.le_refl i))
          simp only [mainAction, dif_pos small, if_true, Main.work, same]
          omega
  | announcing =>
      simp only [mainAction, Main.work]
      omega
  | joining i =>
      by_cases small : i < threadCount
      · simp only [mainAction, if_pos small, Main.work]
        omega
      · simp only [mainAction, if_neg small, Main.work]
        omega
  | returned => exact ready.elim
  | failed i => exact ready.elim

theorem work_threadFunction {thread : Fin threadCount} {arg : Args threadCount} {loc : Local}
    (isReady : ready arg loc) : (threadFunction thread arg loc).2.1.work < loc.work := by
  cases loc with
  | absent => exact isReady.elim
  | finished => exact isReady.elim
  | printing => exact Nat.lt_succ_self 1
  | exiting => exact Nat.one_pos

end Work

theorem posixThreads_ranked (threadCount : Nat) :
    (posixThreads threadCount).Ranked
      (fun state => state.main = .returned ∨ ∃ i, state.main = .failed i) work where
  falls := by
    intro steps state move run admitted
    cases move with
    | main created => exact work_mainAction (run_invariant run) created admitted
    | thread thread =>
        have less : (((routine threadCount).system state.threads.shared).next state.threads
            thread).total Local.work < state.threads.total Local.work :=
          Routine.total_next_lt (work_threadFunction admitted.2)
        exact Nat.add_lt_add_left less _
  goesOn := fun _ _ run => or_assoc.mpr (run_invariant run).goesOn

theorem mainAction_failed {state : State threadCount} {created : Bool} {i : Nat}
    (ready : state.main.ready state.threads)
    (failed : (mainAction state created).1.main = .failed i) : created = false := by
  obtain ⟨main, threads⟩ := state
  unfold mainAction at failed
  cases main with
  | storing j =>
      dsimp only at failed
      split at failed <;> cases failed
  | creating j =>
      cases created with
      | false => rfl
      | true =>
          dsimp only at failed
          split at failed <;> cases failed
  | announcing => cases failed
  | joining j =>
      dsimp only at failed
      split at failed <;> cases failed
  | returned => exact ready.elim
  | failed j => exact ready.elim

/-- The main thread gives up only because a thread could not be created. -/
theorem failed_of_create {steps : List (State threadCount × Move threadCount)}
    {state : State threadCount} (run : (posixThreads threadCount).Run steps state) {i : Nat}
    (failed : state.main = .failed i) : ∃ entry ∈ steps, entry.2 = .main false := by
  cases run with
  | start initial =>
      obtain ⟨garbage, rfl⟩ := initial
      cases failed
  | @step steps state move run admitted =>
      cases move with
      | main created =>
          obtain rfl := mainAction_failed admitted failed
          exact ⟨(state, .main false), List.mem_append_right _ List.mem_cons_self, rfl⟩
      | thread thread =>
          have gone : state.main = .failed i := failed
          have running := admitted.1
          rw [gone] at running
          cases running

theorem notMem_mainAction {state : State threadCount} {created : Bool} {number : Int} :
    .thread number ∉ (mainAction state created).2 := by
  obtain ⟨main, threads⟩ := state
  intro printed
  unfold mainAction at printed
  cases main <;> dsimp only at printed
  case storing i => split at printed <;> cases printed
  case creating i =>
    split at printed
    · split at printed <;> cases printed
    · cases printed
  case announcing => simp at printed
  case joining i => split at printed <;> simp at printed
  case returned => cases printed
  case failed i => cases printed

/-- The number that a step prints is that of the thread whose step it is. -/
theorem number_own {steps : List (State threadCount × Move threadCount)}
    {final : State threadCount} (run : (posixThreads threadCount).Run steps final)
    {state : State threadCount} {move : Move threadCount} (member : (state, move) ∈ steps)
    {number : Int} (printed : .thread number ∈ (posixThreads threadCount).emits state move) :
    ∃ thread, move = .thread thread ∧ number = index thread := by
  cases move with
  | main created => exact absurd printed notMem_mainAction
  | thread thread =>
      obtain ⟨_, earlier, -⟩ := run.of_mem member
      have acts : .thread number ∈
          (threadFunction thread state.threads.shared (state.threads.locals thread)).2.2 := printed
      cases position : state.threads.locals thread with
      | absent => simp [position, threadFunction] at acts
      | exiting => simp [position, threadFunction] at acts
      | finished => simp [position, threadFunction] at acts
      | printing =>
          have own : state.threads.shared thread = index thread :=
            (run_invariant earlier).own (by simp [position])
          rw [position] at acts
          obtain rfl := Line.thread.inj (List.mem_singleton.mp acts)
          exact ⟨thread, rfl, own⟩

/-- For any number of threads and any order of the steps: a number is printed by the
thread that it is the number of, and at most once; the main thread, unless a thread cannot be created, returns after a
bounded number of steps, and then all numbers have been printed, and the main thread's
last line comes behind all of them. -/
theorem posixThreads_joins {threadCount : Nat}
    {steps : List (State threadCount × Move threadCount)} {state : State threadCount}
    (run : (posixThreads threadCount).Run steps state) :
    (∃ order : List (Fin threadCount), order.Nodup ∧
        numbers ((posixThreads threadCount).trace steps) = order.map index) ∧
      (∀ entry ∈ steps, ∀ number,
        .thread number ∈ (posixThreads threadCount).emits entry.1 entry.2 →
        ∃ thread, entry.2 = .thread thread ∧ number = index thread) ∧
      (state.main = .returned → ∃ before,
        (posixThreads threadCount).trace steps = before ++ [.allTerminated] ∧
          (numbers before).Perm ((List.finRange threadCount).map index) ∧
          notes before = [.allCreated]) ∧
      steps.length ≤ 5 * threadCount + 3 ∧
      (state.main = .returned ∨ (∃ entry ∈ steps, entry.2 = .main false) ∨
        ∃ move, (posixThreads threadCount).admits state move) := by
  have invariant := run_invariant run
  obtain ⟨order, nodup, members, printed⟩ := invariant.printed
  have begins : ∀ state, (posixThreads threadCount).initial state →
      work state ≤ 5 * threadCount + 3 := by
    rintro _ ⟨garbage, rfl⟩
    unfold work
    rw [Threads.total_eq_card fun _ => rfl, Fintype.card_fin]
    simp only [Main.work]
    omega
  obtain ⟨bound, goesOn⟩ := (posixThreads_ranked threadCount).ends begins run
  refine ⟨⟨order, nodup, printed⟩, fun _ member _ => number_own run member, ?_, bound, ?_⟩
  · intro returned
    obtain ⟨before, split⟩ := invariant.last returned
    have all : order.Perm (List.finRange threadCount) := by
      rw [List.perm_ext_iff_of_nodup nodup (List.nodup_finRange threadCount)]
      intro thread
      have small : (thread : Nat) < state.main.joined threadCount := by
        rw [returned]
        exact thread.isLt
      rw [members, invariant.joined thread small]
      exact iff_of_true rfl (List.mem_finRange thread)
    have quiet := invariant.notes
    rw [split] at printed quiet
    rw [numbers_append, show numbers [.allTerminated] = [] from rfl, List.append_nil] at printed
    rw [notes_append, returned] at quiet
    refine ⟨before, split, printed ▸ all.map index, ?_⟩
    exact List.append_cancel_right (quiet : notes before ++ [.allTerminated] = [.allCreated] ++ _)
  · rcases goesOn with (returned | ⟨i, failed⟩) | moves
    · exact .inl returned
    · exact .inr (.inl (failed_of_create run failed))
    · exact .inr (.inr moves)

/-- The second thread prints first. -/
def crossed (first second : Fin threadCount) : List (Move threadCount) :=
  [.main true, .main true, .main true, .main true, .thread second, .thread first, .main true,
    .main true, .thread second, .thread first, .main true, .main true, .main true]

instance (state : State threadCount) (move : Move threadCount) :
    Decidable ((posixThreads threadCount).admits state move) :=
  inferInstanceAs (Decidable (Admits state move))

/-- The array holds anything at first. -/
def crossedStart : State 2 := ⟨.storing 0, ⟨fun _ => 7, fun _ => .absent⟩⟩

theorem crossedStart_initial : (posixThreads 2).initial crossedStart := ⟨fun _ => 7, rfl⟩

theorem crossed_run : (posixThreads 2).Run ((posixThreads 2).follow crossedStart (crossed 0 1))
    ((posixThreads 2).finish crossedStart (crossed 0 1)) :=
  .of_admitted crossedStart_initial (by decide)

theorem posixThreads_joins_crossed :
    (∃ thread, Move.thread 1 = .thread thread ∧ (1 : Int) = index (thread : Fin 2)) ∧
      ∃ before, (posixThreads 2).trace ((posixThreads 2).follow crossedStart (crossed 0 1)) =
        before ++ [.allTerminated] := by
  obtain ⟨-, own, returns, -⟩ := posixThreads_joins crossed_run
  obtain ⟨before, split, -⟩ := returns (by decide)
  have first : ((posixThreads 2).finish crossedStart ((crossed 0 1).take 4), Move.thread 1) ∈
      (posixThreads 2).follow crossedStart (crossed 0 1) :=
    List.mem_of_getElem? (i := 4) rfl
  exact ⟨own _ first 1 (by decide), before, split⟩

end CBasics.PosixThreads
