import CBasics.Library.Killable
import CBasics.SelectServer.RegistryProperties

/-! The registry and the three broadcast loops in a process that `SIGPIPE` may
end. Each loop looks at what `send` returns and goes on, but the signal is
neither handled nor held off, so a loop ends at the first broken connection. -/

set_option autoImplicit false

namespace CBasics.SelectServer

open Library

/-- What has happened of an event when a send of it raises `SIGPIPE`. -/
def Event.cutOff (broken : Int → Bool) : Event → Option Event
  | .broadcast notice sends =>
      if SendCall.Raises broken sends then
        some (.broadcast notice (SendCall.made broken sends))
      else none
  | _ => none

/-- The server with the connections that are broken at each step. -/
def mortalServer (limit : Int) : System (Option State) (Input × (Int → Bool)) Event :=
  (telnetservermain limit).killable Event.cutOff

instance (limit : Int) (reached : Option State) (entry : Input × (Int → Bool)) :
    Decidable ((mortalServer limit).admits reached entry) :=
  inferInstanceAs (Decidable (((telnetservermain limit).killable Event.cutOff).admits _ _))

abbrev MortalSteps := List (Option State × Input × (Int → Bool))

/-- What a turn owes the others: a notice of a client that has joined or left, or
the message that was received. -/
def owed (state : State) : Input → Option Notice
  | .select _ => none
  | .turn answers =>
      match state.pc with
      | .scanning i =>
          if i ≤ state.fdMax + 1 ∧ fdIsSet answers.beyond i state.selectSet = true then
            if i = state.listener then
              if answers.accept = -1 then none else some (.joined answers.accept)
            else if answers.recv = .bytes [] then some (.left i)
            else some ((state.receive answers.recv).messageOf i answers.recv)
          else none
      | _ => none

/-- A send of the turn raises `SIGPIPE`, and there is somebody whom the loop, which
goes up the descriptors, has not come to by then. -/
def CutsLoop (state : State) (input : Input) (broken : Int → Bool) : Prop :=
  ∃ notice ∈ owed state input, ∃ fd ∈ state.kernel.clients, ∃ later ∈ state.kernel.clients,
    fd ≠ notice.about ∧ later ≠ notice.about ∧ fd < later ∧ broken fd = true

instance (state : State) (input : Input) (broken : Int → Bool) :
    Decidable (CutsLoop state input broken) :=
  inferInstanceAs (Decidable (∃ notice ∈ owed state input, ∃ fd ∈ _, ∃ later ∈ _, _))

def Event.loop? : Event → Option (Notice × List SendCall)
  | .broadcast notice sends => some (notice, sends)
  | _ => none

/-- The broadcast loops among some events. -/
def loops (events : List Event) : List (Notice × List SendCall) := events.filterMap Event.loop?

/-- The calls of a loop that are made are those up to the first broken connection. -/
theorem mem_made_iff {broken : Int → Bool} {calls : List SendCall}
    (ascending : (calls.map SendCall.fd).Pairwise (· < ·)) (fd : Int) :
    fd ∈ (SendCall.made broken calls).map SendCall.fd ↔
      fd ∈ calls.map SendCall.fd ∧
        ∀ earlier ∈ calls.map SendCall.fd, earlier < fd → broken earlier = false := by
  induction calls with
  | nil => simp [SendCall.made]
  | cons call rest ih =>
      obtain ⟨above, sorted⟩ := List.pairwise_cons.mp ascending
      unfold SendCall.made
      cases isBroken : broken call.fd with
      | false =>
          rw [if_neg Bool.false_ne_true]
          simp only [List.map_cons, List.mem_cons, ih sorted, forall_eq_or_imp, isBroken,
            implies_true, true_and]
          constructor
          · rintro (rfl | ⟨member, spared⟩)
            · refine ⟨.inl rfl, fun earlier inRest below => ?_⟩
              have := above earlier inRest
              omega
            · exact ⟨.inr member, spared⟩
          · rintro ⟨rfl | member, spared⟩
            · exact .inl rfl
            · exact .inr ⟨member, spared⟩
      | true =>
          rw [if_pos rfl]
          simp only [List.map_cons, List.map_nil, List.mem_cons, List.not_mem_nil, or_false,
            forall_eq_or_imp, isBroken, Bool.true_eq_false, imp_false, Int.not_lt]
          constructor
          · rintro rfl
            refine ⟨.inl rfl, Int.le_refl _, fun earlier inRest below => ?_⟩
            have := above earlier inRest
            omega
          · rintro ⟨rfl | member, low, -⟩
            · rfl
            · have := above fd member
              omega

theorem ascending_broadcast (state : State) (notice : Notice) (payload : List Byte) (length : Nat)
    (answers : Answers) :
    ((broadcast state notice payload length answers).map SendCall.fd).Pairwise (· < ·) := by
  rw [broadcast_fds]
  refine List.Pairwise.filter _ ?_
  exact List.pairwise_lt_range.map _ fun _ _ less => Int.ofNat_lt.mpr less

/-- A loop that reaches everybody goes on to do so if and only if no connection
but that of the last is broken. -/
theorem reaches_made_iff {clients : Finset Int} {state : State} {notice : Notice}
    {sends : List SendCall} (reaches : Reaches clients state notice sends)
    (ascending : (sends.map SendCall.fd).Pairwise (· < ·)) (broken : Int → Bool) :
    Reaches clients state notice (SendCall.made broken sends) ↔
      ∀ fd ∈ clients, ∀ later ∈ clients, fd ≠ notice.about → later ≠ notice.about →
        fd < later → broken fd = false := by
  have prior := SendCall.made_isPrefix broken sends
  constructor
  · intro made fd isClient later laterClient notAbout laterNot below
    have called := (made.exact later).mpr ⟨laterClient, laterNot⟩
    exact ((mem_made_iff ascending later).mp called).2 fd
      ((reaches.exact fd).mpr ⟨isClient, notAbout⟩) below
  · intro spared
    exact {
      once := reaches.once.sublist (prior.sublist.map _)
      exact := by
        intro fd
        rw [mem_made_iff ascending, reaches.exact]
        refine and_iff_left_of_imp ?_
        rintro ⟨isClient, notAbout⟩ earlier called below
        obtain ⟨earlierClient, earlierNot⟩ := (reaches.exact earlier).mp called
        exact spared earlier earlierClient fd isClient earlierNot notAbout below
      notListener := fun call member => reaches.notListener call (prior.subset member)
      isOpen := fun call member => reaches.isOpen call (prior.subset member) }

theorem owed_visits {state : State} {answers : Answers} {i : Int}
    (visits : state.Visits answers i) :
    owed state (.turn answers) =
      if i = state.listener then
        if answers.accept = -1 then none else some (.joined answers.accept)
      else if answers.recv = .bytes [] then some (.left i)
      else some ((state.receive answers.recv).messageOf i answers.recv) := by
  simp only [owed, visits.scanning]
  exact if_pos ⟨visits.reached, visits.ready⟩

/-- A step that owes a notice broadcasts it in one loop, and no other step has a loop. -/
theorem Outcome.loops {state final : State} {input : Input} {events : List Event}
    (outcome : Outcome state input final events) :
    owed state input = none ∧ loops events = [] ∨
      ∃ notice told payload length answers, owed state input = some notice ∧
        loops events = [(notice, broadcast told notice payload length answers)] := by
  cases outcome with
  | selectFailed => exact .inl ⟨rfl, rfl⟩
  | timedOut => exact .inl ⟨rfl, rfl⟩
  | selected => exact .inl ⟨rfl, rfl⟩
  | passEnded scanning ended =>
      refine .inl ⟨?_, rfl⟩
      simp only [owed, scanning]
      exact if_neg fun visited => Int.not_le.mpr ended visited.1
  | idle scanning reached unset =>
      refine .inl ⟨?_, rfl⟩
      simp only [owed, scanning]
      exact if_neg fun visited => Bool.false_ne_true (unset.symm.trans visited.2)
  | acceptFailed visits failed =>
      exact .inl ⟨by rw [owed_visits visits, if_pos rfl, if_pos failed], rfl⟩
  | @accepted answers visits nonneg fresh =>
      have succeeded : answers.accept ≠ -1 := by omega
      exact .inr ⟨_, _, _, _, _, by rw [owed_visits visits, if_pos rfl, if_neg succeeded], rfl⟩
  | hungUp visits isClient result =>
      exact .inr ⟨_, _, _, _, _, by rw [owed_visits visits, if_neg isClient, if_pos result], rfl⟩
  | message visits isClient result storedEq noticeEq =>
      subst storedEq noticeEq
      exact .inr ⟨_, _, _, _, _, by rw [owed_visits visits, if_neg isClient, if_neg result], rfl⟩

theorem mem_loops {notice : Notice} {sends : List SendCall} {events : List Event} :
    (notice, sends) ∈ loops events ↔ .broadcast notice sends ∈ events := by
  simp only [loops, List.mem_filterMap]
  constructor
  · rintro ⟨event, member, looped⟩
    cases event <;> simp [Event.loop?] at looped
    obtain ⟨rfl, rfl⟩ := looped
    exact member
  · intro member
    exact ⟨_, member, rfl⟩

theorem cutShort_of_silent {events : List Event} (silent : loops events = [])
    (broken : Int → Bool) : cutShort (Event.cutOff broken) events = events := by
  refine Survives.cutShort_eq fun event member => ?_
  cases event with
  | broadcast notice sends =>
      have looped := mem_loops.mpr member
      rw [silent] at looped
      cases looped
  | selected => rfl
  | accepted => rfl
  | received => rfl
  | closed => rfl
  | indexed => rfl
  | copied => rfl

/-- Of a step with one loop those calls are seen that are made. -/
theorem loops_cutShort {notice : Notice} {sends : List SendCall} {events : List Event}
    (single : loops events = [(notice, sends)]) (broken : Int → Bool) :
    loops (cutShort (Event.cutOff broken) events) = [(notice, SendCall.made broken sends)] := by
  induction events with
  | nil => cases single
  | cons event rest ih =>
      have skip : Event.loop? event = none → Event.cutOff broken event = none →
          loops (cutShort (Event.cutOff broken) (event :: rest)) =
            [(notice, SendCall.made broken sends)] := by
        intro noLoop survives
        rw [loops, List.filterMap_cons_none noLoop] at single
        rw [cutShort, survives, loops, List.filterMap_cons_none noLoop]
        exact ih single
      cases event with
      | broadcast told calls =>
          obtain ⟨same, silent⟩ := List.cons.inj single
          obtain ⟨rfl, rfl⟩ := Prod.mk.inj same
          unfold cutShort
          by_cases raises : SendCall.Raises broken calls
          · simp [Event.cutOff, raises, loops, Event.loop?]
          · simp only [Event.cutOff, if_neg raises]
            rw [cutShort_of_silent silent, SendCall.made_eq raises]
            exact single
      | selected => exact skip rfl rfl
      | accepted => exact skip rfl rfl
      | received => exact skip rfl rfl
      | closed => exact skip rfl rfl
      | indexed => exact skip rfl rfl
      | copied => exact skip rfl rfl

/-- The master set is the listener and these clients, none above `fd_max`. -/
structure Registers (clients : Finset Int) (state : State) : Prop where
  exact : ∀ fd, fd ∈ state.masterSet ↔ fd = state.listener ∨ fd ∈ clients
  bounded : ∀ fd ∈ state.masterSet, fd ≤ state.fdMax

/-- Before and after every step the master set is exact, each `select` watches all
of it, and each turn that owes a notice makes one loop, which reaches all the
clients but the one it is about; no other step has a loop. -/
structure Reaching (limit : Int) (steps : MortalSteps) (reached : Option State) : Prop where
  registered : ∀ before state entry after, steps = before ++ (some state, entry) :: after →
    Registers (connected ((mortalServer limit).trace before)) state
  registers : ∀ state ∈ reached, Registers (connected ((mortalServer limit).trace steps)) state
  watches : ∀ before state reply broken after,
    steps = before ++ (some state, .select reply, broken) :: after →
    ∃ nfds seen timeout,
      (mortalServer limit).emits (some state) (.select reply, broken) =
          [.selected nfds seen timeout] ∧
        ∀ fd, fd ∈ seen ↔
          fd = state.listener ∨ fd ∈ connected ((mortalServer limit).trace before)
  tells : ∀ before state entry after, steps = before ++ (some state, entry) :: after →
    ∀ notice ∈ owed state entry.1, ∃ sends,
      loops ((mortalServer limit).emits (some state) entry) = [(notice, sends)] ∧
        Reaches (connected ((mortalServer limit).trace before)) state notice sends
  silent : ∀ state entry, (some state, entry) ∈ steps → owed state entry.1 = none →
    loops ((mortalServer limit).emits (some state) entry) = []

section Runs

variable {steps before after : MortalSteps} {reached : Option State} {state : State}
  {entry : Input × (Int → Bool)}

theorem connected_mortal (run : (mortalServer fdSetSize).Run steps (some state)) :
    Invariant fdSetSize state ∧
      connected ((mortalServer fdSetSize).trace steps) = state.kernel.clients := by
  obtain ⟨lived, sameTrace⟩ := run.lived rfl
  have traced : (mortalServer fdSetSize).trace steps = _ := sameTrace
  rw [traced]
  exact ⟨run_invariant (Int.le_refl _) lived, connected_trace lived⟩

theorem registers_mortal (run : (mortalServer fdSetSize).Run steps (some state)) :
    Registers (connected ((mortalServer fdSetSize).trace steps)) state := by
  obtain ⟨invariant, clients⟩ := connected_mortal run
  rw [clients]
  exact ⟨invariant.watches, invariant.bounded⟩

/-- A step's one loop is cut exactly if a send before the last raises the signal. -/
theorem tells_iff {earlier : List (State × Input)}
    (run : (telnetservermain fdSetSize).Run earlier state)
    (admitted : (telnetservermain fdSetSize).admits state entry.1) :
    (∀ notice ∈ owed state entry.1, ∃ sends,
      loops ((mortalServer fdSetSize).emits (some state) entry) = [(notice, sends)] ∧
        Reaches state.kernel.clients state notice sends) ↔
      ¬ CutsLoop state entry.1 entry.2 := by
  have small : fdSetSize ≤ fdSetSize := Int.le_refl _
  have invariant := run_invariant small run
  have stepped := outcome admitted
  rcases stepped.loops with ⟨nothing, -⟩ | ⟨notice, told, payload, length, answers, owes, single⟩
  · simp [CutsLoop, nothing]
  · have told : .broadcast notice (broadcast told notice payload length answers) ∈
        (telnetservermain fdSetSize).emits state entry.1 := mem_loops.mp (by simp [single])
    obtain ⟨_, fanout⟩ := stepped.fanout invariant small admitted told
    have made := reaches_made_iff (reaches_of_fanout invariant.serves fanout)
      (ascending_broadcast _ _ _ _ _) entry.2
    have seen : loops ((mortalServer fdSetSize).emits (some state) entry) = _ :=
      loops_cutShort single entry.2
    simp only [owes, Option.mem_def, Option.some.injEq, forall_eq', CutsLoop, exists_eq_left',
      seen, List.cons.injEq, Prod.mk.injEq, and_true, true_and, made]
    simp only [not_exists, not_and, Bool.not_eq_true]

theorem Reaching.of_spared (run : (mortalServer fdSetSize).Run steps reached)
    (spared : ∀ entry ∈ steps, ∀ state ∈ entry.1, ¬ CutsLoop state entry.2.1 entry.2.2) :
    Reaching fdSetSize steps reached where
  registered := by
    intro before state entry after split
    exact registers_mortal (split ▸ run).split.1
  registers := by
    rintro state rfl
    exact registers_mortal run
  watches := by
    intro before state reply broken after split
    have member : (some state, .select reply, broken) ∈ steps := by simp [split]
    obtain ⟨earlier, -⟩ := (split ▸ run).split
    obtain ⟨invariant, clients⟩ := connected_mortal earlier
    obtain ⟨_, _, admitted⟩ := run.lived_of_mem member
    rw [clients]
    have stepped := outcome admitted
    have called : (telnetservermain fdSetSize).emits state (.select reply) =
        [state.selectCall] := by
      cases reply <;> rfl
    have seen : (mortalServer fdSetSize).emits (some state) (.select reply, broken) =
        [state.selectCall] :=
      (cutShort_of_silent (called ▸ rfl) broken).trans called
    exact ⟨_, _, _, seen, stepped.watches invariant (called ▸ List.mem_cons_self)⟩
  tells := by
    intro before state entry after split
    have member : (some state, entry) ∈ steps := by simp [split]
    obtain ⟨earlier, -⟩ := (split ▸ run).split
    obtain ⟨_, lived, admitted⟩ := run.lived_of_mem member
    rw [(connected_mortal earlier).2]
    exact (tells_iff lived admitted).mpr (spared _ member state rfl)
  silent := by
    intro state entry member nothing
    obtain ⟨_, _, admitted⟩ := run.lived_of_mem member
    rcases (outcome admitted).loops with ⟨-, silent⟩ | ⟨notice, _, _, _, _, owes, -⟩
    · have whole : (mortalServer fdSetSize).emits (some state) entry =
          (telnetservermain fdSetSize).emits state entry.1 :=
        cutShort_of_silent silent entry.2
      rw [whole, silent]
    · rw [nothing] at owes
      cases owes

end Runs

/-- In every run of a process that `SIGPIPE` may end, the master set, the calls of
`select` and the loops are exact if and only if no send raises the signal except
at the end of its loop. -/
theorem master_exact_iff {steps : MortalSteps} {reached : Option State}
    (run : (mortalServer fdSetSize).Run steps reached) :
    Reaching fdSetSize steps reached ↔ ∀ entry ∈ steps, ∀ state ∈ entry.1,
      ¬ CutsLoop state entry.2.1 entry.2.2 := by
  constructor
  · rintro reaching ⟨_, entry⟩ member state rfl
    obtain ⟨before, after, split⟩ := List.append_of_mem member
    obtain ⟨earlier, -⟩ := (split ▸ run).split
    obtain ⟨_, lived, admitted⟩ := run.lived_of_mem member
    refine (tells_iff lived admitted).mp fun notice owes => ?_
    rw [← (connected_mortal earlier).2]
    exact reaching.tells before state entry after split notice owes
  · exact .of_spared run

def mortalSteps (inputs : List (Input × (Int → Bool))) : MortalSteps :=
  (mortalServer fdSetSize).follow (some freshServer) inputs

theorem mortalServer_initial : (mortalServer fdSetSize).initial (some freshServer) :=
  freshServer_initial

theorem mortalSteps_run (inputs : List (Input × (Int → Bool)))
    (admitted : (mortalServer fdSetSize).Admitted (some freshServer) inputs) :
    (mortalServer fdSetSize).Run (mortalSteps inputs)
      ((mortalServer fdSetSize).finish (some freshServer) inputs) :=
  .of_admitted mortalServer_initial admitted

/-- A pass in which the listener hands out a descriptor. -/
def accepting (fd : Int) (highest : Nat) : List Input :=
  selectReports {3} :: idleTurns 3 ++ turnWith fd .error :: idleTurns highest

/-- Clients 4 and 5 join, then 5 says two bytes, and 4 leaves. -/
def fullVisit : List Input :=
  accepting 4 3 ++ accepting 5 4 ++
    selectReports {5} :: idleTurns 5 ++ turnWith (-1) (.bytes [104, 105]) :: idleTurns 2 ++
    selectReports {4} :: idleTurns 4 ++ [turnWith (-1) (.bytes [])]

/-- What is told about whom, and to whom. -/
def toldTo (steps : MortalSteps) : List (Int × List Int) :=
  (loops ((mortalServer fdSetSize).trace steps)).map fun loop =>
    (loop.1.about, loop.2.map SendCall.fd)

theorem master_exact_visit :
    Reaching fdSetSize (mortalSteps (brokenAt [] fullVisit))
        ((mortalServer fdSetSize).finish (some freshServer) (brokenAt [] fullVisit)) ∧
      toldTo (mortalSteps (brokenAt [] fullVisit)) = [(4, []), (5, [4]), (5, [4]), (4, [5])] ∧
      ((mortalServer fdSetSize).finish (some freshServer) (brokenAt [] fullVisit)).map
        State.masterSet = some {3, 5} :=
  ⟨(master_exact_iff (mortalSteps_run (brokenAt [] fullVisit) (by decide +kernel))).mpr
    (by decide +kernel), by decide +kernel, by decide +kernel⟩

/-- Clients 4, 5 and 6 join; 5 goes away before it has what 4 says, and answers it
with a reset. -/
def goneClient : List (Input × (Int → Bool)) :=
  brokenAt [] (accepting 4 3 ++ accepting 5 4 ++ accepting 6 5 ++
    selectReports {4} :: idleTurns 4 ++ turnWith (-1) (.bytes [97]) :: idleTurns 4 ++
    selectReports {4, 5} :: idleTurns 4)

/-- Client 4 speaks again while the connection of 5 is broken. -/
def speaksAgain : Input × (Int → Bool) := (turnWith (-1) (.bytes [98]), fun fd => decide (fd = 5))

/-- The second message goes to client 5, which ends the server, and not to client 6. -/
theorem not_reaching_gone :
    (mortalServer fdSetSize).Run (mortalSteps (goneClient ++ [speaksAgain]))
        ((mortalServer fdSetSize).finish (some freshServer) (goneClient ++ [speaksAgain])) ∧
      ¬ Reaching fdSetSize (mortalSteps (goneClient ++ [speaksAgain]))
        ((mortalServer fdSetSize).finish (some freshServer) (goneClient ++ [speaksAgain])) := by
  refine ⟨mortalSteps_run _ (by decide +kernel), fun reaching => ?_⟩
  have owes : ((mortalServer fdSetSize).finish (some freshServer) goneClient).map
      (fun state => owed state speaksAgain.1) = some (some (.message 4 [98] 1)) := by
    decide +kernel
  have called : (loops ((mortalServer fdSetSize).emits
      ((mortalServer fdSetSize).finish (some freshServer) goneClient) speaksAgain)).map
      (fun loop => loop.2.map SendCall.fd) = [[5]] := by
    decide +kernel
  have isClient : 6 ∈ connected ((mortalServer fdSetSize).trace (mortalSteps goneClient)) := by
    decide +kernel
  have split : mortalSteps (goneClient ++ [speaksAgain]) = mortalSteps goneClient ++
      ((mortalServer fdSetSize).finish (some freshServer) goneClient, speaksAgain) :: [] := by
    simp [mortalSteps, System.follow_append]
  cases reached : (mortalServer fdSetSize).finish (some freshServer) goneClient with
  | none =>
      rw [reached] at owes
      cases owes
  | some state =>
      rw [reached] at owes called split
      obtain ⟨sends, looped, reaches⟩ :=
        reaching.tells _ state speaksAgain [] split _ (Option.some.inj owes)
      have addressed : sends.map SendCall.fd = [5] := by
        rw [looped] at called
        exact (List.cons.inj called).1
      have told := (reaches.exact 6).mpr ⟨isClient, by decide⟩
      rw [addressed] at told
      exact absurd told (by decide)

end CBasics.SelectServer
