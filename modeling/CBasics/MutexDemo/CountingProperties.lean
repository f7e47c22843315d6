import CBasics.MutexDemo.Basic
import Mathlib.Data.Fintype.Card
import Mathlib.Data.List.FinRange
import Mathlib.Data.List.Nodup

/-! No increment is lost: the threads count one after the other, each ten times,
whatever the order of their steps. -/

set_option autoImplicit false

namespace CBasics.MutexDemo

open Library

/-- The lines a thread has printed since it took the mutex. -/
def printed : Local → Nat
  | .testing i => i
  | .loading i => i
  | .storing i _ => i
  | .reading i => i
  | .printing i _ => i
  | .unlocking => 10
  | _ => 0

/-- The increments a thread has stored and not printed yet. -/
def ahead : Local → Nat
  | .reading _ => 1
  | .printing _ _ => 1
  | _ => 0

/-- The loop index is in range and a loaded value is still the counter's. -/
def Coherent (counter : Int) : Local → Prop
  | .testing i => i ≤ 10
  | .loading i => i < 10
  | .storing i loaded => i < 10 ∧ loaded = counter
  | .reading i => i < 10
  | .printing i value => i < 10 ∧ value = counter
  | _ => True

def countUp (length : Nat) : List Int := (List.range length).map fun k => (k : Int) + 1

theorem countUp_succ (length : Nat) :
    countUp (length + 1) = countUp length ++ [(length : Int) + 1] := by
  simp [countUp, List.range_succ]

variable {threadCount : Nat}

abbrev State (threadCount : Nat) :=
  Threads (Fin threadCount) (Shared (Fin threadCount)) Local

/-- The lines of the thread that holds the mutex, by their thread. -/
def turn (state : State threadCount) : List (Fin threadCount) :=
  match state.shared.mutex with
  | none => []
  | some thread => List.replicate (printed (state.locals thread)) thread

def pending (state : State threadCount) : Nat :=
  match state.shared.mutex with
  | none => 0
  | some thread => ahead (state.locals thread)

/-- The invariant. `order` is the order in which the threads have unlocked. -/
structure Counted (order : List (Fin threadCount)) (lines : List (Line (Fin threadCount)))
    (state : State threadCount) : Prop where
  nodup : order.Nodup
  mem_order : ∀ thread, thread ∈ order ↔ Past (state.locals thread)
  owner : ∀ thread, state.shared.mutex = some thread ↔ Inside (state.locals thread)
  threads : lines.map Line.thread = order.flatMap (List.replicate 10) ++ turn state
  values : lines.map Line.value = countUp lines.length
  counter : state.shared.counter = lines.length + pending state
  coherent : ∀ thread, Inside (state.locals thread) →
    Coherent state.shared.counter (state.locals thread)

section Step

variable {order : List (Fin threadCount)} {lines : List (Line (Fin threadCount))}
  {state : State threadCount} {thread : Fin threadCount}

theorem counted_initial {state : State threadCount}
    (initial : (unixMutex threadCount).initial state) : Counted [] [] state := by
  obtain rfl : state = ⟨⟨0, none⟩, fun _ => .locking⟩ := initial
  constructor <;> simp [Past, Inside, turn, pending, countUp]

theorem Counted.length_eq (counted : Counted order lines state) :
    lines.length = 10 * order.length + (turn state).length := by
  have lengths := congrArg List.length counted.threads
  simpa [List.length_flatMap, Nat.mul_comm] using lengths

/-- The thread that counts leaves room for its own lines. -/
theorem Counted.length_lt (counted : Counted order lines state)
    (held : state.shared.mutex = some thread) (few : printed (state.locals thread) < 10) :
    lines.length < 10 * threadCount := by
  have inside := (counted.owner thread).mp held
  have fresh : thread ∉ order := by
    intro member
    have past := (counted.mem_order thread).mp member
    cases position : state.locals thread <;> simp_all [Past, Inside]
  have room := (List.nodup_cons.mpr ⟨fresh, counted.nodup⟩).length_le_card
  have lengths := counted.length_eq
  simp only [turn, held, List.length_replicate] at lengths
  simp only [List.length_cons, Fintype.card_fin] at room
  omega

theorem next_self {before after : Local} {shared : Shared (Fin threadCount)}
    {emitted : List (Line (Fin threadCount))} (position : state.locals thread = before)
    (acted : myThreadFunction thread state.shared before = (shared, after, emitted)) :
    ((unixMutex threadCount).next state thread).shared = shared ∧
      ((unixMutex threadCount).next state thread).locals thread = after ∧
      (unixMutex threadCount).emits state thread = emitted := by
  simp [unixMutex, Routine.emits_eq, routine, position, acted]

theorem next_other {other : Fin threadCount} (different : other ≠ thread) :
    ((unixMutex threadCount).next state thread).locals other = state.locals other :=
  Routine.locals_next_other different

theorem forall_next (Holds : Fin threadCount → Local → Prop) {before after : Local}
    {shared : Shared (Fin threadCount)} {emitted : List (Line (Fin threadCount))}
    (position : state.locals thread = before)
    (acted : myThreadFunction thread state.shared before = (shared, after, emitted))
    (acting : Holds thread after)
    (others : ∀ other, other ≠ thread → Holds other (state.locals other)) :
    ∀ other, Holds other (((unixMutex threadCount).next state thread).locals other) := by
  refine Routine.forall_locals_next Holds ?_ others
  rw [position]
  simpa only [routine, acted] using acting

theorem ready_of_inside {shared : Shared (Fin threadCount)} {position : Local}
    (inside : Inside position) : ready shared position := by
  cases position <;> simp_all [Inside, ready]

theorem not_past_of_inside {position : Local} (inside : Inside position) : ¬ Past position := by
  cases position <;> simp_all [Inside, Past]

theorem Counted.outside (counted : Counted order lines state)
    (held : state.shared.mutex = some thread) :
    ∀ other, other ≠ thread → ¬ Inside (state.locals other) := by
  intro other different within
  have owns := (counted.owner other).mpr within
  exact different (Option.some.inj (owns.symm.trans held))

theorem Counted.free (counted : Counted order lines state)
    (nobody : ∀ thread, ¬ Inside (state.locals thread)) : state.shared.mutex = none := by
  cases holder : state.shared.mutex with
  | none => rfl
  | some thread => exact absurd ((counted.owner thread).mp holder) (nobody thread)

/-- A step inside the locked region: only the holder's turn grows. -/
theorem Counted.stay (counted : Counted order lines state)
    (held : state.shared.mutex = some thread)
    {shared : Shared (Fin threadCount)} {loc : Local} {emitted : List (Line (Fin threadCount))}
    (acted : myThreadFunction thread state.shared (state.locals thread) = (shared, loc, emitted))
    (keeps : shared.mutex = some thread) (inside : Inside loc)
    (own : emitted.map Line.thread = List.replicate emitted.length thread)
    (grows : printed loc = printed (state.locals thread) + emitted.length)
    (values : (lines ++ emitted).map Line.value = countUp (lines ++ emitted).length)
    (counter : shared.counter = (lines ++ emitted).length + ahead loc)
    (coherent : Coherent shared.counter loc) :
    Counted order (lines ++ (unixMutex threadCount).emits state thread)
      ((unixMutex threadCount).next state thread) := by
  obtain ⟨sharedEq, locEq, emitsEq⟩ := next_self rfl acted
  have insideBefore := (counted.owner thread).mp held
  have notMember : thread ∉ order := fun member =>
    not_past_of_inside insideBefore ((counted.mem_order thread).mp member)
  have outside := counted.outside held
  rw [emitsEq]
  constructor
  case nodup => exact counted.nodup
  case mem_order =>
    refine forall_next (fun other loc => other ∈ order ↔ Past loc) rfl acted ?_ ?_
    · exact iff_of_false notMember (not_past_of_inside inside)
    · exact fun other _ => counted.mem_order other
  case owner =>
    rw [sharedEq, keeps]
    refine forall_next (fun other loc => some thread = some other ↔ Inside loc) rfl
      acted ?_ ?_
    · exact iff_of_true rfl inside
    · intro other different
      exact iff_of_false (fun same => different (Option.some.inj same).symm)
        (outside other different)
  case threads =>
    have before := counted.threads
    simp only [turn, held] at before
    simp only [turn, sharedEq, keeps, locEq, grows, List.map_append, before, own,
      List.append_assoc, List.replicate_add]
  case values => exact values
  case counter => simpa only [pending, sharedEq, keeps, locEq] using counter
  case coherent =>
    rw [sharedEq]
    refine forall_next (fun _ loc => Inside loc → Coherent shared.counter loc) rfl
      acted ?_ ?_
    · exact fun _ => coherent
    · exact fun other different within => absurd within (outside other different)

/-- A step inside that changes nothing but where the holder stands. -/
theorem Counted.quiet (counted : Counted order lines state)
    (held : state.shared.mutex = some thread) {before after : Local}
    (position : state.locals thread = before)
    (acted : myThreadFunction thread state.shared before = (state.shared, after, []))
    (inside : Inside after) (samePrinted : printed after = printed before)
    (sameAhead : ahead after = ahead before) (coherent : Coherent state.shared.counter after) :
    Counted order (lines ++ (unixMutex threadCount).emits state thread)
      ((unixMutex threadCount).next state thread) := by
  have counter := counted.counter
  rw [← position] at acted samePrinted sameAhead
  simp only [pending, held] at counter
  refine counted.stay held acted held inside rfl samePrinted ?_ ?_ coherent
  · simpa using counted.values
  · rw [List.append_nil, sameAhead]
    exact counter

theorem Counted.lock (counted : Counted order lines state)
    (position : state.locals thread = .locking) (free : state.shared.mutex = none) :
    Counted order (lines ++ (unixMutex threadCount).emits state thread)
      ((unixMutex threadCount).next state thread) := by
  obtain ⟨sharedEq, locEq, emitsEq⟩ := next_self position rfl
  have outside : ∀ other, ¬ Inside (state.locals other) := by
    intro other within
    simpa [free] using (counted.owner other).mpr within
  rw [emitsEq, List.append_nil]
  constructor
  case nodup => exact counted.nodup
  case mem_order =>
    refine forall_next (fun other loc => other ∈ order ↔ Past loc) position rfl ?_ ?_
    · rw [counted.mem_order, position]
      rfl
    · exact fun other _ => counted.mem_order other
  case owner =>
    rw [sharedEq]
    refine forall_next (fun other loc => some thread = some other ↔ Inside loc)
      position rfl ?_ ?_
    · exact iff_of_true rfl trivial
    · intro other different
      exact iff_of_false (fun same => different (Option.some.inj same).symm) (outside other)
  case threads => simpa [turn, free, sharedEq, locEq, printed] using counted.threads
  case values => exact counted.values
  case counter => simpa [pending, free, sharedEq, locEq, ahead] using counted.counter
  case coherent =>
    refine forall_next (fun _ loc => Inside loc → Coherent _ loc) position rfl
      ?_ ?_
    · exact fun _ => Nat.zero_le 10
    · exact fun other _ within => absurd within (outside other)

theorem Counted.unlock (counted : Counted order lines state)
    (position : state.locals thread = .unlocking) :
    Counted (order ++ [thread]) (lines ++ (unixMutex threadCount).emits state thread)
      ((unixMutex threadCount).next state thread) := by
  obtain ⟨sharedEq, locEq, emitsEq⟩ := next_self position rfl
  have held : state.shared.mutex = some thread :=
    (counted.owner thread).mpr (by simp [position, Inside])
  have outside := counted.outside held
  have fresh : thread ∉ order := by
    intro member
    simpa [position, Past] using (counted.mem_order thread).mp member
  rw [emitsEq, List.append_nil]
  constructor
  case nodup =>
    rw [List.nodup_append]
    refine ⟨counted.nodup, by simp, ?_⟩
    intro earlier member last lastEq
    obtain rfl : last = thread := by simpa using lastEq
    rintro rfl
    exact fresh member
  case mem_order =>
    refine forall_next (fun other loc => other ∈ order ++ [thread] ↔ Past loc) position
      rfl ?_ ?_
    · exact iff_of_true (by simp) trivial
    · intro other different
      simpa [different] using counted.mem_order other
  case owner =>
    rw [sharedEq]
    refine forall_next (fun other loc => none = some other ↔ Inside loc) position rfl
      ?_ ?_
    · exact iff_of_false (by simp) id
    · exact fun other different => iff_of_false (by simp) (outside other different)
  case threads =>
    have before := counted.threads
    simp only [turn, held, position, printed] at before
    simp [turn, sharedEq, before]
  case values => exact counted.values
  case counter =>
    have before := counted.counter
    simp only [pending, held, position, ahead] at before
    simpa [pending, sharedEq] using before
  case coherent =>
    refine forall_next (fun _ loc => Inside loc → Coherent _ loc) position rfl
      ?_ ?_
    · exact fun _ => trivial
    · exact fun other different within => absurd within (outside other different)

theorem Counted.exit (counted : Counted order lines state)
    (position : state.locals thread = .exiting) :
    Counted order (lines ++ (unixMutex threadCount).emits state thread)
      ((unixMutex threadCount).next state thread) := by
  obtain ⟨sharedEq, locEq, emitsEq⟩ := next_self position rfl
  have notOwner : state.shared.mutex ≠ some thread := by
    intro held
    simpa [position, Inside] using (counted.owner thread).mp held
  have holderKept : ∀ holder, state.shared.mutex = some holder →
      ((unixMutex threadCount).next state thread).locals holder = state.locals holder := by
    intro holder held
    refine next_other ?_
    rintro rfl
    exact notOwner held
  rw [emitsEq, List.append_nil]
  constructor
  case nodup => exact counted.nodup
  case mem_order =>
    refine forall_next (fun other loc => other ∈ order ↔ Past loc) position rfl ?_ ?_
    · rw [counted.mem_order, position]
      rfl
    · exact fun other _ => counted.mem_order other
  case owner =>
    rw [sharedEq]
    refine forall_next (fun other loc => state.shared.mutex = some other ↔ Inside loc)
      position rfl ?_ ?_
    · exact iff_of_false notOwner id
    · exact fun other _ => counted.owner other
  case threads =>
    rw [counted.threads]
    cases holder : state.shared.mutex with
    | none => simp [turn, sharedEq, holder]
    | some other => simp [turn, sharedEq, holder, holderKept other holder]
  case values => exact counted.values
  case counter =>
    rw [sharedEq, counted.counter]
    cases holder : state.shared.mutex with
    | none => simp [pending, sharedEq, holder]
    | some other => simp [pending, sharedEq, holder, holderKept other holder]
  case coherent =>
    rw [sharedEq]
    refine forall_next (fun _ loc => Inside loc → Coherent _ loc) position rfl
      ?_ ?_
    · exact fun _ => trivial
    · exact fun other _ => counted.coherent other

theorem wrap_eq {value : Int} (low : 0 ≤ value) (high : value ≤ 2147483647) :
    wrap value = value := by
  unfold wrap
  rw [Int.bmod_eq_of_le] <;> omega

theorem Counted.step (inRange : 10 * threadCount ≤ 2147483647)
    (counted : Counted order lines state)
    (admitted : (unixMutex threadCount).admits state thread) :
    ∃ extended, Counted extended (lines ++ (unixMutex threadCount).emits state thread)
      ((unixMutex threadCount).next state thread) := by
  have isReady : ready state.shared (state.locals thread) := admitted
  have holds : Inside (state.locals thread) → state.shared.mutex = some thread :=
    (counted.owner thread).mpr
  have coherent := counted.coherent thread
  have counter := counted.counter
  cases position : state.locals thread with
  | locking =>
      rw [position] at isReady
      exact ⟨order, counted.lock position isReady⟩
  | testing i =>
      have held := holds (by simp [position, Inside])
      have index : i ≤ 10 := by simpa [position, Inside, Coherent] using coherent
      by_cases more : i < 10
      · have acted : myThreadFunction thread state.shared (.testing i) =
            (state.shared, .loading i, []) := by rw [myThreadFunction, if_pos more]
        exact ⟨order, counted.quiet held position acted trivial rfl rfl more⟩
      · have acted : myThreadFunction thread state.shared (.testing i) =
            (state.shared, .unlocking, []) := by rw [myThreadFunction, if_neg more]
        have all : printed .unlocking = printed (.testing i) := by
          simp only [printed]
          omega
        exact ⟨order, counted.quiet held position acted trivial all rfl trivial⟩
  | loading i =>
      have held := holds (by simp [position, Inside])
      have index : i < 10 := by simpa [position, Inside, Coherent] using coherent
      exact ⟨order, counted.quiet held position rfl trivial rfl rfl ⟨index, rfl⟩⟩
  | storing i loaded =>
      have held := holds (by simp [position, Inside])
      obtain ⟨index, loadedEq⟩ : i < 10 ∧ loaded = state.shared.counter := by
        simpa [position, Inside, Coherent] using coherent
      have room := counted.length_lt held (by simpa [position, printed] using index)
      have counterEq : state.shared.counter = lines.length := by
        simpa [pending, held, position, ahead] using counter
      have wrapped : wrap (loaded + 1) = lines.length + 1 := by
        rw [loadedEq, counterEq]
        exact wrap_eq (by omega) (by omega)
      refine ⟨order, counted.stay held (by rw [position, myThreadFunction]) ?_ ?_ rfl
        ?_ (by simpa using counted.values) ?_ ?_⟩
      · exact held
      · trivial
      · simp [position, printed]
      · simpa [ahead] using wrapped
      · exact index
  | reading i =>
      have held := holds (by simp [position, Inside])
      have index : i < 10 := by simpa [position, Inside, Coherent] using coherent
      exact ⟨order, counted.quiet held position rfl trivial rfl rfl ⟨index, rfl⟩⟩
  | printing i value =>
      have held := holds (by simp [position, Inside])
      obtain ⟨index, valueEq⟩ : i < 10 ∧ value = state.shared.counter := by
        simpa [position, Inside, Coherent] using coherent
      have counterEq : state.shared.counter = lines.length + 1 := by
        simpa [pending, held, position, ahead] using counter
      refine ⟨order, counted.stay held (by rw [position, myThreadFunction]) held ?_ ?_
        ?_ ?_ ?_ ?_⟩
      · trivial
      · rfl
      · simp [position, printed]
      · simp [counted.values, countUp_succ, valueEq, counterEq]
      · simpa [ahead] using counterEq
      · exact index
  | unlocking => exact ⟨_, counted.unlock position⟩
  | exiting => exact ⟨_, counted.exit position⟩
  | finished =>
      rw [position] at isReady
      exact isReady.elim

end Step

theorem run_counted (inRange : 10 * threadCount ≤ 2147483647)
    {steps : List (State threadCount × Fin threadCount)} {state : State threadCount}
    (run : (unixMutex threadCount).Run steps state) :
    ∃ order, Counted order ((unixMutex threadCount).trace steps) state :=
  run.traceInvariant (fun lines reached => ∃ order, Counted order lines reached)
    (fun _ initial => ⟨[], counted_initial initial⟩)
    (fun _ _ _ _ _ ⟨_, counted⟩ admitted => counted.step inRange admitted)

theorem Counted.atMostOne {order : List (Fin threadCount)}
    {lines : List (Line (Fin threadCount))} {state : State threadCount}
    (counted : Counted order lines state) : state.AtMostOne Inside := by
  intro first second firstInside secondInside
  have firstOwns := (counted.owner first).mpr firstInside
  have secondOwns := (counted.owner second).mpr secondInside
  exact Option.some.inj (firstOwns.symm.trans secondOwns)

theorem Counted.finished {order : List (Fin threadCount)}
    {lines : List (Line (Fin threadCount))} {state : State threadCount}
    (counted : Counted order lines state) (done : state.All (· = .finished)) :
    (∀ thread, thread ∈ order) ∧ lines.map Line.thread = order.flatMap (List.replicate 10) ∧
      lines.length = 10 * threadCount ∧ state.shared.counter = 10 * threadCount := by
  have all : ∀ thread, thread ∈ order := by
    intro thread
    rw [counted.mem_order, done thread]
    trivial
  have free : state.shared.mutex = none := counted.free fun thread inside => by
    rw [done thread] at inside
    exact inside
  have turns : order.length = threadCount := by
    have perm : order.Perm (List.finRange threadCount) :=
      (List.perm_ext_iff_of_nodup counted.nodup (List.nodup_finRange _)).mpr fun thread => by
        simp [all thread]
    simpa using perm.length_eq
  have lengths := counted.length_eq
  have counter := counted.counter
  simp only [turn, pending, free, List.length_nil] at lengths counter
  refine ⟨all, by simpa [turn, free] using counted.threads, by omega, by omega⟩

/-- A thread inside is never blocked, so the others never wait for ever. -/
theorem Counted.stuck {order : List (Fin threadCount)}
    {lines : List (Line (Fin threadCount))} {state : State threadCount}
    (counted : Counted order lines state)
    (stuck : ∀ thread, ¬ (unixMutex threadCount).admits state thread) :
    state.All (· = .finished) := by
  have blocked : ∀ thread, ¬ ready state.shared (state.locals thread) := stuck
  have free := counted.free fun thread inside => blocked thread (ready_of_inside inside)
  intro thread
  have here := blocked thread
  cases position : state.locals thread <;> simp_all [ready]

def remaining : Local → Nat
  | .locking => 54
  | .testing i => 53 - 5 * i
  | .loading i => 52 - 5 * i
  | .storing i _ => 51 - 5 * i
  | .reading i => 50 - 5 * i
  | .printing i _ => 49 - 5 * i
  | .unlocking => 2
  | .exiting => 1
  | .finished => 0

theorem Counted.remaining_next {order : List (Fin threadCount)}
    {lines : List (Line (Fin threadCount))} {state : State threadCount} {thread : Fin threadCount}
    (counted : Counted order lines state)
    (admitted : (unixMutex threadCount).admits state thread) :
    ((unixMutex threadCount).next state thread).total remaining + 1 = state.total remaining := by
  have moved : ((unixMutex threadCount).next state thread).total remaining +
      remaining (state.locals thread) = state.total remaining +
        remaining (myThreadFunction thread state.shared (state.locals thread)).2.1 :=
    Routine.total_next remaining
  have isReady : ready state.shared (state.locals thread) := admitted
  have coherent := counted.coherent thread
  cases position : state.locals thread with
  | testing i =>
      have index : i ≤ 10 := by simpa [position, Inside, Coherent] using coherent
      by_cases more : i < 10
      · simp only [position, myThreadFunction, if_pos more, remaining] at moved
        omega
      · simp only [position, myThreadFunction, if_neg more, remaining] at moved
        omega
  | finished =>
      rw [position] at isReady
      exact isReady.elim
  | locking | unlocking | exiting =>
      simp only [position, myThreadFunction, remaining] at moved
      omega
  | loading i | reading i =>
      have index : i < 10 := by simpa [position, Inside, Coherent] using coherent
      simp only [position, myThreadFunction, remaining] at moved
      omega
  | storing i value | printing i value =>
      have index : i < 10 := by
        have both := coherent (by simp [position, Inside])
        simp only [position, Coherent] at both
        exact both.1
      simp only [position, myThreadFunction, remaining] at moved
      omega

theorem run_length (inRange : 10 * threadCount ≤ 2147483647)
    {steps : List (State threadCount × Fin threadCount)} {state : State threadCount}
    (run : (unixMutex threadCount).Run steps state) :
    steps.length + state.total remaining = 54 * threadCount := by
  induction run with
  | @start state initial =>
      obtain rfl : state = ⟨⟨0, none⟩, fun _ => .locking⟩ := initial
      simp [Threads.total, remaining, Nat.mul_comm]
  | step earlier admitted ih =>
      obtain ⟨_, counted⟩ := run_counted inRange earlier
      have moved := counted.remaining_next admitted
      rw [List.length_append, List.length_singleton]
      omega

/-- For every number of threads and every order of their steps: one thread at a
time is inside, the values count up, and a run that cannot go on has lost nothing
and shows each thread's ten lines together. -/
theorem unixMutex_counts {threadCount : Nat} (inRange : 10 * threadCount ≤ 2147483647)
    {steps : List (State threadCount × Fin threadCount)} {state : State threadCount}
    (run : (unixMutex threadCount).Run steps state) :
    let lines := (unixMutex threadCount).trace steps
    state.AtMostOne Inside ∧ lines.map Line.value = countUp lines.length ∧
      ((∀ thread, ¬ (unixMutex threadCount).admits state thread) →
        state.All (· = .finished)) ∧
      (state.All (· = .finished) →
        lines.map Line.value = countUp (10 * threadCount) ∧
        state.shared.counter = 10 * threadCount ∧
        ∃ order : List (Fin threadCount), order.Nodup ∧ (∀ thread, thread ∈ order) ∧
          lines.map Line.thread = order.flatMap (List.replicate 10)) := by
  intro lines
  obtain ⟨order, counted⟩ := run_counted inRange run
  refine ⟨counted.atMostOne, counted.values, counted.stuck, fun done => ?_⟩
  obtain ⟨all, threads, length, counter⟩ := counted.finished done
  exact ⟨by rw [← length]; exact counted.values, counter, order, counted.nodup, all, threads⟩

instance (state : State threadCount) (thread : Fin threadCount) :
    Decidable ((unixMutex threadCount).admits state thread) :=
  inferInstanceAs (Decidable (ready state.shared (state.locals thread)))

def atLock (threadCount : Nat) : State threadCount := ⟨⟨0, none⟩, fun _ => .locking⟩

/-- The second of two threads takes the mutex before the first has exited. -/
def twoTurns : List (Fin 2) := List.replicate 53 0 ++ [1, 0] ++ List.replicate 53 1

set_option maxRecDepth 4000 in
theorem unixMutex_counts_two :
    let lines := (unixMutex 2).trace ((unixMutex 2).follow (atLock 2) twoTurns)
    lines.map Line.value = countUp 20 ∧
      ((unixMutex 2).finish (atLock 2) twoTurns).shared.counter = 20 := by
  have done : ((unixMutex 2).finish (atLock 2) twoTurns).All (· = .finished) := by
    decide +kernel
  have counts := (unixMutex_counts (by decide)
    (.of_admitted rfl (by decide : (unixMutex 2).Admitted (atLock 2) twoTurns))).2.2.2 done
  exact ⟨counts.1, counts.2.1⟩

/-- No order of the threads ends in a deadlock or goes on for ever: whatever the order,
all have finished after 54 actions of each, and not before. -/
theorem unixMutex_ends {threadCount : Nat} (inRange : 10 * threadCount ≤ 2147483647)
    {steps : List (State threadCount × Fin threadCount)} {state : State threadCount}
    (run : (unixMutex threadCount).Run steps state) :
    steps.length ≤ 54 * threadCount ∧
      (steps.length = 54 * threadCount ↔ state.All (· = .finished)) ∧
      (state.All (· = .finished) ∨ ∃ thread, (unixMutex threadCount).admits state thread) := by
  obtain ⟨_, counted⟩ := run_counted inRange run
  have length := run_length inRange run
  have goesOn : state.All (· = .finished) ∨
      ∃ thread, (unixMutex threadCount).admits state thread := by
    by_cases moves : ∃ thread, (unixMutex threadCount).admits state thread
    · exact .inr moves
    · exact .inl (counted.stuck fun thread admitted => moves ⟨thread, admitted⟩)
  refine ⟨by omega, ⟨fun all => ?_, fun done => ?_⟩, goesOn⟩
  · rcases goesOn with done | ⟨thread, admitted⟩
    · exact done
    · have moved := counted.remaining_next admitted
      omega
  · have nothing : state.total remaining = 0 :=
      Threads.total_eq_zero fun thread => by simp only [done thread, remaining]
    omega

set_option maxRecDepth 4000 in
theorem unixMutex_ends_two :
    ((unixMutex 2).finish (atLock 2) twoTurns).All (· = .finished) :=
  (unixMutex_ends (by decide)
    (.of_admitted rfl (by decide : (unixMutex 2).Admitted (atLock 2) twoTurns))).2.1.mp
      (by decide +kernel)

end CBasics.MutexDemo
