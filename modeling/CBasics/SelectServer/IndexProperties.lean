import CBasics.SelectServer.Outcome

/-! The indices that the descriptor set macros are used with. Nothing compares a
descriptor with `FD_SETSIZE`, and the scan goes one index past `fd_max`. -/

set_option autoImplicit false

namespace CBasics.SelectServer

open Library

/-- The macros are used on numbers that a set has room for. -/
def Event.IndexesInRange : Event → Prop
  | .indexed low high => ∀ j, low ≤ j → j ≤ high → inRange j
  | _ => True

def Event.AcceptsInRange : Event → Prop
  | .accepted result => result < fdSetSize
  | _ => True

instance : (event : Event) → Decidable event.AcceptsInRange
  | .accepted result => inferInstanceAs (Decidable (result < fdSetSize))
  | .selected .. | .received .. | .broadcast .. | .closed _ | .indexed .. | .copied .. =>
      isTrue trivial

/-- The scan is at the last index that it comes to when `fd_max` is the highest
descriptor that a set has room for. -/
def Overruns (state : State) : Prop :=
  state.pc = .scanning fdSetSize ∧ fdSetSize ≤ state.fdMax + 1

instance (state : State) : Decidable (Overruns state) := inferInstanceAs (Decidable (_ ∧ _))

theorem not_indexesInRange {low high : Int} (ordered : low ≤ high) (outside : fdSetSize ≤ high) :
    ¬ (Event.indexed low high).IndexesInRange := by
  intro inside
  have below := (inside high ordered (Int.le_refl high)).2
  omega

section Steps

variable {limit : Int} {state final : State} {input : Input} {events : List Event}

theorem Outcome.listener_eq (outcome : Outcome state input final events) :
    final.listener = state.listener := by
  cases outcome with
  | message _ _ _ storedEq =>
      subst storedEq
      rfl
  | _ => rfl

/-- `fd_max` is below `FD_SETSIZE` as long as the descriptors handed out are. -/
theorem Outcome.fdMax_lt (outcome : Outcome state input final events)
    (below : state.fdMax < fdSetSize) (accepts : ∀ event ∈ events, event.AcceptsInRange) :
    final.fdMax < fdSetSize := by
  cases outcome with
  | @accepted answers =>
      have newBelow : answers.accept < fdSetSize := accepts (.accepted answers.accept) (by simp)
      exact Consistent.join_fdMax_lt below newBelow
  | message _ _ _ storedEq =>
      subst storedEq
      exact below
  | _ => exact below

theorem Consistent.index_iff (consistent : Consistent limit state) {i : Int}
    (scanning : state.pc = .scanning i) (reached : i ≤ state.fdMax + 1)
    (below : state.fdMax < fdSetSize) :
    (Event.indexed i i).IndexesInRange ↔ ¬ Overruns state := by
  have nonneg := consistent.index i scanning
  constructor
  · rintro inside ⟨standing, _⟩
    cases standing.symm.trans scanning
    exact not_indexesInRange (Int.le_refl _) (Int.le_refl _) inside
  · intro stops j least most
    have last : i ≠ fdSetSize := by
      rintro rfl
      exact stops ⟨scanning, reached⟩
    exact ⟨by omega, by omega⟩

theorem Outcome.indexes_iff (outcome : Outcome state input final events)
    (consistent : Consistent limit state) (below : state.fdMax < fdSetSize) :
    (∀ event ∈ events, event.IndexesInRange) ↔
      (∀ event ∈ events, event.AcceptsInRange) ∧ ¬ Overruns state := by
  have loop : (Event.indexed 0 state.fdMax).IndexesInRange :=
    fun _ least most => ⟨least, Int.lt_of_le_of_lt most below⟩
  cases outcome with
  | selectFailed atTop =>
      simp [State.selectCall, Event.IndexesInRange, Event.AcceptsInRange, Overruns, atTop]
  | timedOut atTop =>
      simp [State.selectCall, Event.IndexesInRange, Event.AcceptsInRange, Overruns, atTop]
  | selected atTop =>
      simp [State.selectCall, Event.IndexesInRange, Event.AcceptsInRange, Overruns, atTop]
  | passEnded scanning done =>
      refine iff_of_true (by simp) ⟨by simp, ?_⟩
      rintro ⟨standing, reached⟩
      cases standing.symm.trans scanning
      omega
  | idle scanning reached =>
      have here := consistent.index_iff scanning reached below
      simpa [Event.AcceptsInRange] using here
  | acceptFailed visits =>
      have here := consistent.index_iff visits.scanning visits.reached below
      have failed : (-1 : Int) < fdSetSize := by decide
      simpa [Event.AcceptsInRange, Event.IndexesInRange, failed] using here
  | @accepted answers visits nonneg =>
      have here := consistent.index_iff visits.scanning visits.reached below
      constructor
      · intro inside
        refine ⟨?_, here.mp (inside _ (by simp))⟩
        have added : (Event.indexed answers.accept answers.accept).IndexesInRange :=
          inside _ (by simp)
        have newBelow := (added answers.accept (Int.le_refl _) (Int.le_refl _)).2
        simpa [Event.AcceptsInRange] using newBelow
      · rintro ⟨accepts, stops⟩
        have newBelow : answers.accept < fdSetSize := accepts (.accepted answers.accept) (by simp)
        have joinedBelow : (state.join answers.accept).fdMax < fdSetSize :=
          Consistent.join_fdMax_lt below newBelow
        simp only [List.forall_mem_cons]
        exact ⟨here.mpr stops, trivial,
          fun _ least most => ⟨Int.le_trans nonneg least, Int.lt_of_le_of_lt most newBelow⟩,
          trivial, fun _ least most => ⟨least, Int.lt_of_le_of_lt most joinedBelow⟩, trivial,
          List.forall_mem_nil _⟩
  | hungUp visits =>
      have here := consistent.index_iff visits.scanning visits.reached below
      constructor
      · intro inside
        exact ⟨by simp [Event.AcceptsInRange], here.mp (inside _ (by simp))⟩
      · rintro ⟨-, stops⟩
        simp only [List.forall_mem_cons]
        exact ⟨here.mpr stops, trivial, trivial, loop, trivial, trivial, here.mpr stops,
          List.forall_mem_nil _⟩
  | message visits =>
      have here := consistent.index_iff visits.scanning visits.reached below
      constructor
      · intro inside
        exact ⟨by simp [Event.AcceptsInRange], here.mp (inside _ (by simp))⟩
      · rintro ⟨-, stops⟩
        simp only [List.forall_mem_cons]
        exact ⟨here.mpr stops, trivial, trivial, trivial, trivial, loop, trivial,
          List.forall_mem_nil _⟩

end Steps

theorem run_indexes {limit : Int} {steps : List (State × Input)} {final : State}
    (run : (telnetservermain limit).Run steps final) (listenerBelow : final.listener < fdSetSize) :
    ((∀ event ∈ (telnetservermain limit).trace steps, event.IndexesInRange) ↔
        (∀ event ∈ (telnetservermain limit).trace steps, event.AcceptsInRange) ∧
          ∀ entry ∈ steps, ¬ Overruns entry.1) ∧
      ((∀ event ∈ (telnetservermain limit).trace steps, event.AcceptsInRange) →
        final.fdMax < fdSetSize) := by
  induction run with
  | start initial =>
      obtain ⟨listener, _, _, _, _, _, _, rfl⟩ := initial
      exact ⟨by simp, fun _ => listenerBelow⟩
  | @step steps state input run admitted ih =>
      have stepped := outcome admitted
      rw [stepped.listener_eq] at listenerBelow
      obtain ⟨earlier, bounded⟩ := ih listenerBelow
      have here := fun below => stepped.indexes_iff (run_consistent run) below
      rw [System.trace_concat]
      simp only [List.forall_mem_append, List.forall_mem_singleton]
      refine ⟨⟨?_, ?_⟩, ?_⟩
      · rintro ⟨before, now⟩
        obtain ⟨accepts, stops⟩ := earlier.mp before
        obtain ⟨acceptsNow, stopsNow⟩ := (here (bounded accepts)).mp now
        exact ⟨⟨accepts, acceptsNow⟩, stops, stopsNow⟩
      · rintro ⟨⟨accepts, acceptsNow⟩, stops, stopsNow⟩
        exact ⟨earlier.mpr ⟨accepts, stops⟩, (here (bounded accepts)).mpr ⟨acceptsNow, stopsNow⟩⟩
      · rintro ⟨accepts, acceptsNow⟩
        exact stepped.fdMax_lt (bounded accepts) acceptsNow

/-- In every run the macros are used on numbers below `FD_SETSIZE`, if and only
if all descriptors handed out are and no scan overruns. -/
theorem indexesInRange_iff {limit : Int} {steps : List (State × Input)} {final : State}
    (run : (telnetservermain limit).Run steps final) :
    (inRange final.listener ∧
        ∀ event ∈ (telnetservermain limit).trace steps, event.IndexesInRange) ↔
      final.listener < fdSetSize ∧
        (∀ event ∈ (telnetservermain limit).trace steps, event.AcceptsInRange) ∧
        ∀ entry ∈ steps, ¬ Overruns entry.1 := by
  rw [inRange, and_iff_right (run_consistent run).listenerNonneg]
  exact and_congr_right fun listenerBelow => (run_indexes run listenerBelow).1

/-- A client connects to a server whose listener is 3. -/
def connecting (newFd : Int) : List Input :=
  selectReports {3} :: idleTurns 3 ++ [turnWith newFd .error]

theorem indexesInRange_connecting :
    inRange 3 ∧ ∀ event ∈ (telnetservermain fdSetSize).trace
      ((telnetservermain fdSetSize).follow freshServer (connecting 4)), event.IndexesInRange :=
  (indexesInRange_iff (freshServer_run (connecting 4) (by decide))).mpr (by decide)

/-- `accept` returns 1024, the first number that a set has no room for. -/
theorem not_indexesInRange_connecting :
    (telnetservermain (fdSetSize + 1)).Run
        ((telnetservermain (fdSetSize + 1)).follow freshServer (connecting fdSetSize))
        ((telnetservermain (fdSetSize + 1)).finish freshServer (connecting fdSetSize)) ∧
      ¬ ∀ event ∈ (telnetservermain (fdSetSize + 1)).trace
        ((telnetservermain (fdSetSize + 1)).follow freshServer (connecting fdSetSize)),
        event.IndexesInRange := by
  refine ⟨.of_admitted ?_ (by decide), fun inside => ?_⟩
  · exact ⟨3, _, {0, 1, 2, 3}, by decide, by decide, by decide, List.length_replicate, rfl⟩
  · have set : Event.indexed fdSetSize fdSetSize ∈ (telnetservermain (fdSetSize + 1)).trace
        ((telnetservermain (fdSetSize + 1)).follow freshServer (connecting fdSetSize)) := by
      decide +kernel
    exact not_indexesInRange (Int.le_refl _) (Int.le_refl _) (inside _ set)

end CBasics.SelectServer
