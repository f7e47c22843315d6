import Mathlib.Algebra.Order.Ring.Int
import CBasics.SelectServer.Outcome

/-! A pass of the scan serves each reported descriptor once. The set that
`select` left does not change during a pass, and what is still ahead in it
stays open, so no descriptor handed out on the way is in it. -/

set_option autoImplicit false

namespace CBasics.SelectServer

open Library

def accepts (trace : List Event) : Nat :=
  trace.countP fun
    | .accepted _ => true
    | _ => false

def receives (fd : Int) (trace : List Event) : Nat :=
  trace.countP fun
    | .received other _ => decide (other = fd)
    | _ => false

@[simp] theorem accepts_append (left right : List Event) :
    accepts (left ++ right) = accepts left + accepts right := List.countP_append

@[simp] theorem receives_append (fd : Int) (left right : List Event) :
    receives fd (left ++ right) = receives fd left + receives fd right := List.countP_append

theorem receives_pos {fd : Int} {result : RecvResult} {trace : List Event}
    (member : .received fd result ∈ trace) : 0 < receives fd trace :=
  List.countP_pos_iff.mpr ⟨_, member, by simp⟩

/-- The later event is not a `recv` on a descriptor that the earlier one, an
`accept`, has handed out. -/
def Apart (earlier later : Event) : Prop :=
  ∀ fd result, earlier = .accepted fd → fd ≠ -1 → later ≠ .received fd result

/-- What a turn that stays in the scan does at index `i`. -/
structure Moved (state : State) (i : Int) (final : State) (events : List Event) : Prop where
  inBound : i ≤ state.fdMax + 1
  pc : final.pc = .scanning (i + 1)
  selectSet : final.selectSet = state.selectSet
  listener : final.listener = state.listener
  accepts : accepts events = if i ∈ state.selectSet ∧ i = state.listener then 1 else 0
  receives : ∀ fd, receives fd events =
    if i ∈ state.selectSet ∧ i ≠ state.listener ∧ i = fd then 1 else 0
  apart : events.Pairwise Apart
  fresh : ∀ fd, .accepted fd ∈ events → fd = -1 ∨ fd ∉ state.kernel.openFds

variable {limit : Int} {state final : State} {i : Int}

theorem Invariant.fdIsSet_selectSet (invariant : Invariant limit state)
    (small : limit + 1 ≤ fdSetSize) (scanning : state.pc = .scanning i)
    (inBound : i ≤ state.fdMax + 1) (beyond : Int → Bool) :
    fdIsSet beyond i state.selectSet = decide (i ∈ state.selectSet) := by
  have below := invariant.maxBelow
  exact if_pos ⟨invariant.index i scanning, by omega⟩

theorem Invariant.visits_reported (invariant : Invariant limit state)
    (small : limit + 1 ≤ fdSetSize) {answers : Answers} (visits : state.Visits answers i) :
    i ∈ state.selectSet := by
  have ready := visits.ready
  rw [invariant.fdIsSet_selectSet small visits.scanning visits.reached] at ready
  exact of_decide_eq_true ready

theorem Outcome.turned {answers : Answers} {events : List Event}
    (outcome : Outcome state (.turn answers) final events) (invariant : Invariant limit state)
    (small : limit + 1 ≤ fdSetSize) (scanning : state.pc = .scanning i) :
    (state.fdMax + 1 < i ∧ final.pc = .selecting ∧ events = []) ∨ Moved state i final events := by
  cases outcome with
  | passEnded standing done =>
      cases standing.symm.trans scanning
      exact .inl ⟨done, rfl, rfl⟩
  | idle standing inBound unset =>
      cases standing.symm.trans scanning
      rw [invariant.fdIsSet_selectSet small scanning inBound] at unset
      have absent := of_decide_eq_false unset
      exact .inr {
        inBound := inBound
        pc := rfl
        selectSet := rfl
        listener := rfl
        accepts := by simp [accepts, absent]
        receives := by simp [receives, absent]
        apart := by simp
        fresh := by simp }
  | acceptFailed visits =>
      cases visits.scanning.symm.trans scanning
      have present := invariant.visits_reported small visits
      exact .inr {
        inBound := visits.reached
        pc := rfl
        selectSet := rfl
        listener := rfl
        accepts := by simp [accepts, present]
        receives := by simp [receives]
        apart := by simp [Apart]
        fresh := by simp }
  | accepted visits nonneg fresh =>
      cases visits.scanning.symm.trans scanning
      have present := invariant.visits_reported small visits
      exact .inr {
        inBound := visits.reached
        pc := rfl
        selectSet := rfl
        listener := rfl
        accepts := by simp [accepts, present]
        receives := by simp [receives]
        apart := by simp [Apart]
        fresh := by simp [fresh] }
  | hungUp visits isClient =>
      cases visits.scanning.symm.trans scanning
      have present := invariant.visits_reported small visits
      exact .inr {
        inBound := visits.reached
        pc := rfl
        selectSet := rfl
        listener := rfl
        accepts := by simp [accepts, isClient]
        receives := by simp [receives, present, isClient, List.countP_cons]
        apart := by simp [Apart]
        fresh := by simp }
  | message visits isClient _ storedEq =>
      cases visits.scanning.symm.trans scanning
      have present := invariant.visits_reported small visits
      subst storedEq
      exact .inr {
        inBound := visits.reached
        pc := rfl
        selectSet := rfl
        listener := rfl
        accepts := by simp [accepts, isClient]
        receives := by simp [receives, present, isClient, List.countP_cons]
        apart := by simp [Apart]
        fresh := by simp }

/-- The calls of a pass that still has the indices from `i` on before it. -/
structure Serves (state : State) (i : Int) (events : List Event) : Prop where
  accepts : accepts events = if state.listener ∈ state.selectSet ∧ i ≤ state.listener then 1 else 0
  receives : ∀ fd, receives fd events =
    if fd ∈ state.selectSet ∧ fd ≠ state.listener ∧ i ≤ fd then 1 else 0
  apart : events.Pairwise Apart

/-- When the scan ends it has come past everything that was reported. -/
theorem Serves.ended (invariant : Invariant limit state) (scanning : state.pc = .scanning i)
    (done : state.fdMax + 1 < i) : Serves state i [] := by
  have past : ∀ fd ∈ state.selectSet, ¬ i ≤ fd := by
    intro fd reported ahead
    have bound := invariant.bounded fd (invariant.scan i scanning fd reported ahead)
    omega
  exact {
    accepts := (if_neg fun both => past _ both.1 both.2).symm
    receives := fun fd => (if_neg fun all => past _ all.1 all.2.2).symm
    apart := .nil }

theorem Serves.moved {events rest : List Event} (invariant : Invariant limit state)
    (scanning : state.pc = .scanning i) (moved : Moved state i final events)
    (later : Serves final (i + 1) rest) : Serves state i (events ++ rest) where
  accepts := by
    rw [accepts_append, moved.accepts, later.accepts, moved.selectSet, moved.listener]
    by_cases here : i = state.listener
    · subst here
      simp
    · have next : i + 1 ≤ state.listener ↔ i ≤ state.listener := by omega
      simp [here, next]
  receives := by
    intro fd
    rw [receives_append, moved.receives, later.receives, moved.selectSet, moved.listener]
    by_cases here : i = fd
    · subst here
      simp
    · have next : i + 1 ≤ fd ↔ i ≤ fd := by omega
      simp [here, next]
  apart := by
    refine List.pairwise_append.mpr ⟨moved.apart, later.apart, ?_⟩
    rintro _ earlier _ after fd result rfl succeeded rfl
    have counted := receives_pos after
    rw [later.receives, moved.selectSet] at counted
    split at counted
    · rename_i reported
      have ahead := invariant.scan i scanning fd reported.1 (by omega)
      exact (moved.fresh fd earlier).elim succeeded fun fresh => fresh (invariant.master_open ahead)
    · omega

theorem no_turn_at_top (atTop : state.pc = .selecting) (answers : List Answers)
    (admitted : (telnetservermain limit).Admitted state (answers.map .turn)) : answers = [] := by
  cases answers with
  | nil => rfl
  | cons next rest => simp [System.Admitted, telnetservermain, Admits, atTop] at admitted

/-- The turns of a scan at index `i` are bounded by the indices left, and when
they end the pass they have served what was reported from `i` on. -/
theorem scan_serves (small : limit + 1 ≤ fdSetSize) (answers : List Answers)
    (invariant : Invariant limit state) (scanning : state.pc = .scanning i)
    (reached : i ≤ limit + 1)
    (admitted : (telnetservermain limit).Admitted state (answers.map .turn)) :
    answers.length + i ≤ limit + 2 ∧
      (((telnetservermain limit).finish state (answers.map .turn)).pc = .selecting →
        Serves state i
          ((telnetservermain limit).trace
            ((telnetservermain limit).follow state (answers.map .turn)))) := by
  induction answers generalizing state i with
  | nil =>
      refine ⟨by simp; omega, ?_⟩
      intro ended
      cases scanning.symm.trans ended
  | cons current rest ih =>
      obtain ⟨granted, admittedRest⟩ := admitted
      have stepped := outcome granted
      have kept := invariant.outcome (by omega) stepped granted
      simp only [List.map_cons, System.finish_cons, System.follow_cons, System.trace_cons]
      rcases stepped.turned invariant small scanning with ⟨done, atTop, silent⟩ | moved
      · cases no_turn_at_top atTop rest admittedRest
        rw [silent]
        exact ⟨by simp; omega, fun _ => .ended invariant scanning done⟩
      · have below := invariant.maxBelow
        have inBound := moved.inBound
        obtain ⟨bound, serves⟩ := ih kept moved.pc (by omega) admittedRest
        refine ⟨by simp; omega, ?_⟩
        intro ended
        exact .moved invariant scanning moved (serves ended)

/-- A call of `select` that reports these descriptors, and turns after it. -/
def passInputs (readable : FdSet) (remaining : Timeval) (answers : List Answers) : List Input :=
  .select (.ready readable remaining) :: answers.map .turn

/-- One `accept` if the listener was reported, one `recv` on each client that
was and on nothing else, and none on a descriptor accepted on the way. -/
structure ServesOnce (listener : Int) (readable : FdSet) (pass : List Event) : Prop where
  accepts : accepts pass = if listener ∈ readable then 1 else 0
  receives : ∀ fd, receives fd pass = if fd ∈ readable ∧ fd ≠ listener then 1 else 0
  apart : pass.Pairwise Apart

theorem Serves.servesOnce {rest : List Event} (served : Serves state 0 rest)
    (nonneg : ∀ fd ∈ state.selectSet, 0 ≤ fd) {nfds : Int} {seen : FdSet} {timeout : Timeval} :
    ServesOnce state.listener state.selectSet (.selected nfds seen timeout :: rest) where
  accepts := by
    have both : (state.listener ∈ state.selectSet ∧ 0 ≤ state.listener) ↔
        state.listener ∈ state.selectSet :=
      ⟨And.left, fun reported => ⟨reported, nonneg _ reported⟩⟩
    have counted := served.accepts.trans (if_congr both rfl rfl)
    simpa [SelectServer.accepts, List.countP_cons] using counted
  receives := by
    intro fd
    have both : (fd ∈ state.selectSet ∧ fd ≠ state.listener ∧ 0 ≤ fd) ↔
        fd ∈ state.selectSet ∧ fd ≠ state.listener :=
      ⟨fun all => ⟨all.1, all.2.1⟩, fun all => ⟨all.1, all.2, nonneg fd all.1⟩⟩
    have counted := (served.receives fd).trans (if_congr both rfl rfl)
    simpa [SelectServer.receives, List.countP_cons] using counted
  apart := by
    refine List.pairwise_cons.mpr ⟨?_, served.apart⟩
    intro _ _ fd result called
    cases called

/-- A server whose listener is 5, after its client 4 has connected. -/
def recyclingServer : State :=
  (telnetservermain (fdSetSize - 1)).finish
    (startUp 5 (List.replicate bufferSize 0) {0, 1, 2, 5})
    (selectReports {5} :: idleTurns 5 ++ [turnWith 4 .error] ++ idleTurns 2)

theorem recyclingServer_run :
    (telnetservermain (fdSetSize - 1)).Run
      ((telnetservermain (fdSetSize - 1)).follow
        (startUp 5 (List.replicate bufferSize 0) {0, 1, 2, 5})
        (selectReports {5} :: idleTurns 5 ++ [turnWith 4 .error] ++ idleTurns 2))
      recyclingServer := by
  refine System.Run.of_admitted ?_ (by decide)
  exact ⟨5, _, {0, 1, 2, 5}, by decide, by decide, by decide, List.length_replicate, rfl⟩

end CBasics.SelectServer
