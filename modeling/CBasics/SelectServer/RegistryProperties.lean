import CBasics.Library.Room
import CBasics.SelectServer.Outcome

/-! The master set is the registry of the clients, and both `select` and the
loops of the broadcasts go over all of it. -/

set_option autoImplicit false

namespace CBasics.SelectServer

open Library

def register (clients : Finset Int) : Event → Finset Int
  | .accepted result => if result = -1 then clients else insert result clients
  | .closed fd => clients.erase fd
  | _ => clients

/-- The clients accepted and not closed, read off the events of a run. -/
def connected (trace : List Event) : Finset Int := trace.foldl register ∅

theorem connected_trace {limit : Int} {steps : List (State × Input)} {state : State}
    (run : (telnetservermain limit).Run steps state) :
    connected ((telnetservermain limit).trace steps) = state.kernel.clients := by
  refine run.traceInvariant (fun events state => connected events = state.kernel.clients) ?_ ?_
  · rintro _ ⟨listener, serverMessage, openFds, _, _, _, _, rfl⟩
    rfl
  · intro events steps state input run same admitted
    have stepped := outcome admitted
    generalize (telnetservermain limit).next state input = final at stepped ⊢
    generalize (telnetservermain limit).emits state input = emitted at stepped ⊢
    unfold connected at same ⊢
    rw [List.foldl_append, same]
    cases stepped with
    | selectFailed => rfl
    | timedOut => rfl
    | selected => rfl
    | passEnded => rfl
    | idle => rfl
    | acceptFailed => rfl
    | @accepted answers _ nonneg =>
        have succeeded : answers.accept ≠ -1 := by omega
        simp [State.join, Kernel.accept, register, succeeded]
    | hungUp => rfl
    | message _ _ _ storedEq =>
        subst storedEq
        rfl

theorem mem_foldl_register {client : Int} {clients : Finset Int} (member : client ∈ clients)
    {trace : List Event} (stays : .closed client ∉ trace) :
    client ∈ trace.foldl register clients := by
  induction trace generalizing clients with
  | nil => exact member
  | cons event rest ih =>
      have staysRest : .closed client ∉ rest := fun later => stays (.tail _ later)
      refine ih ?_ staysRest
      cases event with
      | accepted result =>
          by_cases failed : result = -1
          · simpa [register, failed] using member
          · simp [register, failed, member]
      | closed fd =>
          have other : client ≠ fd := fun same => stays (same ▸ .head _)
          exact Finset.mem_erase.mpr ⟨other, member⟩
      | selected => exact member
      | received => exact member
      | broadcast => exact member
      | indexed => exact member
      | copied => exact member

theorem Outcome.mem_clients {state final : State} {input : Input} {events : List Event}
    (outcome : Outcome state input final events) {client : Int}
    (joined : .accepted client ∈ events) (succeeded : client ≠ -1) :
    client ∈ final.kernel.clients := by
  cases outcome with
  | selectFailed => simp [State.selectCall] at joined
  | timedOut => simp [State.selectCall] at joined
  | selected => simp [State.selectCall] at joined
  | passEnded => simp at joined
  | idle => simp at joined
  | acceptFailed =>
      simp only [List.mem_cons, reduceCtorEq, Event.accepted.injEq, List.not_mem_nil, or_false,
        false_or] at joined
      exact absurd joined succeeded
  | accepted =>
      obtain rfl : client = _ := by simpa using joined
      exact Finset.mem_insert_self _ _
  | hungUp => simp at joined
  | message => simp at joined

/-- After it has been accepted a client is one as long as it is not closed. -/
theorem client_stays {limit : Int} {before window : List (State × Input)} {joining : State × Input}
    {state : State} (run : (telnetservermain limit).Run (before ++ joining :: window) state)
    {client : Int}
    (joined : .accepted client ∈ (telnetservermain limit).emits joining.1 joining.2)
    (succeeded : client ≠ -1) (stays : .closed client ∉ (telnetservermain limit).trace window) :
    client ∈ state.kernel.clients := by
  obtain ⟨origin, admitted⟩ := run.split
  have entered := (outcome admitted).mem_clients joined succeeded
  have start := connected_trace (System.Run.step origin admitted)
  have whole : before ++ joining :: window = (before ++ [joining]) ++ window := by simp
  rw [← connected_trace run, whole, System.trace_append, connected, List.foldl_append]
  refine mem_foldl_register ?_ stays
  rw [← start] at entered
  exact entered

theorem mem_descriptors {fdMax fd : Int} : fd ∈ descriptors fdMax ↔ 0 ≤ fd ∧ fd ≤ fdMax := by
  simp only [descriptors, List.mem_map, List.mem_range]
  constructor
  · rintro ⟨index, bound, rfl⟩
    simp only [Int.ofNat_eq_natCast]
    omega
  · rintro ⟨nonneg, bound⟩
    exact ⟨fd.toNat, by omega, Int.toNat_of_nonneg nonneg⟩

theorem nodup_descriptors (fdMax : Int) : (descriptors fdMax).Nodup :=
  List.nodup_range.map fun _ _ => Int.ofNat.inj

theorem broadcast_fds (state : State) (notice : Notice) (payload : List Byte) (length : Nat)
    (answers : Answers) :
    (broadcast state notice payload length answers).map SendCall.fd =
      (descriptors state.fdMax).filter fun j =>
        fdIsSet answers.beyond j state.masterSet ∧ j ≠ state.listener ∧ j ≠ notice.about := by
  simp [broadcast, Function.comp_def]

theorem broadcast_payload {state : State} {notice : Notice} {payload : List Byte} {length : Nat}
    {answers : Answers} {call : SendCall}
    (member : call ∈ broadcast state notice payload length answers) :
    call.payload = payload ∧ call.length = length := by
  obtain ⟨j, _, rfl⟩ := List.mem_map.mp member
  exact ⟨rfl, rfl⟩

theorem mem_broadcast {state : State} {notice : Notice} {payload : List Byte} {length : Nat}
    {answers : Answers} {fd : Int} :
    fd ∈ (broadcast state notice payload length answers).map SendCall.fd ↔
      fd ∈ descriptors state.fdMax ∧ fdIsSet answers.beyond fd state.masterSet = true ∧
        fd ≠ state.listener ∧ fd ≠ notice.about := by
  rw [broadcast_fds, List.mem_filter, decide_eq_true_iff]

/-- Nothing is sent twice or altered, so only who is reached is in question. -/
theorem broadcast_fanout_iff {state : State} {notice : Notice} {payload : List Byte}
    {length : Nat} {answers : Answers} {clients : Finset Int} :
    Room.Fanout clients notice.about payload
        ((broadcast state notice payload length answers).map SendCall.addressed) ↔
      ∀ fd, fd ∈ (broadcast state notice payload length answers).map SendCall.fd ↔
        fd ∈ clients ∧ fd ≠ notice.about := by
  constructor
  · intro fanout fd
    rw [← SendCall.map_addressed_fst]
    exact fanout.exact fd
  · intro exactly
    refine ⟨?_, ?_, ?_⟩
    · rw [SendCall.map_addressed_fst, broadcast_fds]
      exact (nodup_descriptors state.fdMax).filter _
    · intro fd
      rw [SendCall.map_addressed_fst]
      exact exactly fd
    · intro send member
      obtain ⟨call, called, rfl⟩ := List.mem_map.mp member
      exact (broadcast_payload called).1

/-- Where the loop over `j` reads memory behind the master set, it happens to
find the clients there. -/
def ReadsTrue (state : State) (beyond : Int → Bool) (i : Int) : Prop :=
  ∀ j ∈ descriptors state.fdMax, inRange j ∨ j = state.listener ∨ j = i ∨
    (beyond j = true ↔ j ∈ state.kernel.clients)

instance (state : State) (beyond : Int → Bool) (i : Int) : Decidable (ReadsTrue state beyond i) :=
  inferInstanceAs (Decidable (∀ j ∈ _, _))

/-- In the loops a number in the range of the set is found if it is a client. -/
theorem Consistent.fdIsSet_iff {limit : Int} {state : State} (consistent : Consistent limit state)
    (beyond : Int → Bool) {fd : Int} (notListener : fd ≠ state.listener) :
    (fdIsSet beyond fd state.masterSet = true ↔ fd ∈ state.kernel.clients) ↔
      inRange fd ∨ (beyond fd = true ↔ fd ∈ state.kernel.clients) := by
  unfold fdIsSet
  split
  · rename_i range
    have known := (consistent.watches fd).trans (and_iff_right range)
    simp [range, known, notListener]
  · rename_i outside
    simp [outside]

theorem Consistent.client_inside {limit : Int} {state : State}
    (consistent : Consistent limit state) {fd : Int} (isClient : fd ∈ state.kernel.clients) :
    fd ∈ descriptors state.fdMax ∧ fd ≠ state.listener :=
  ⟨mem_descriptors.mpr
      ⟨consistent.serves.clientsNonneg fd isClient, consistent.bounded fd (.inr isClient)⟩,
    fun same => consistent.serves.listenerNotClient (same ▸ isClient)⟩

/-- A broadcast reaches exactly the other clients if and only if what is read
behind the master set is true of them. -/
theorem Consistent.fanout_iff {limit : Int} {state : State} (consistent : Consistent limit state)
    {answers : Answers} (notice : Notice) (payload : List Byte) (length : Nat) :
    Room.Fanout state.kernel.clients notice.about payload
        ((broadcast state notice payload length answers).map SendCall.addressed) ↔
      ReadsTrue state answers.beyond notice.about := by
  have found := fun fd => @Consistent.fdIsSet_iff limit state consistent answers.beyond fd
  rw [broadcast_fanout_iff]
  constructor
  · intro reached j inside
    by_cases isListener : j = state.listener
    · exact .inr (.inl isListener)
    by_cases about : j = notice.about
    · exact .inr (.inr (.inl about))
    have here := reached j
    rw [mem_broadcast, and_iff_right inside] at here
    simp only [isListener, about, ne_eq, not_false_eq_true, and_true] at here
    exact ((found j isListener).mp here).imp_right fun holds => .inr (.inr holds)
  · intro reads fd
    have known : fd ∈ descriptors state.fdMax → fd ≠ state.listener → fd ≠ notice.about →
        (fdIsSet answers.beyond fd state.masterSet = true ↔ fd ∈ state.kernel.clients) := by
      intro inside notListener other
      refine (found fd notListener).mpr ((reads fd inside).imp_right fun rest => ?_)
      exact (rest.resolve_left notListener).resolve_left other
    rw [mem_broadcast]
    constructor
    · rintro ⟨inside, isSet, notListener, other⟩
      exact ⟨(known inside notListener other).mp isSet, other⟩
    · rintro ⟨isClient, other⟩
      obtain ⟨inside, notListener⟩ := consistent.client_inside isClient
      exact ⟨inside, (known inside notListener other).mpr isClient, notListener, other⟩

/-- A set with room for all descriptors is never read behind. -/
theorem Invariant.fanout {limit : Int} {state : State} (invariant : Invariant limit state)
    (small : limit ≤ fdSetSize) (notice : Notice) (payload : List Byte) (length : Nat)
    (answers : Answers) :
    Room.Fanout state.kernel.clients notice.about payload
      ((broadcast state notice payload length answers).map SendCall.addressed) := by
  refine ((invariant.consistent small).fanout_iff notice payload length).mpr ?_
  intro j inside
  obtain ⟨nonneg, bound⟩ := mem_descriptors.mp inside
  have below := invariant.maxBelow
  exact .inl ⟨nonneg, by omega⟩

theorem Outcome.fanout {limit : Int} {state final : State} {input : Input} {events : List Event}
    (outcome : Outcome state input final events) (invariant : Invariant limit state)
    (small : limit ≤ fdSetSize) (admitted : (telnetservermain limit).admits state input)
    {notice : Notice} {sends : List SendCall} (told : .broadcast notice sends ∈ events) :
    ∃ payload, Room.Fanout state.kernel.clients notice.about payload
      (sends.map SendCall.addressed) := by
  cases outcome with
  | selectFailed => simp [State.selectCall] at told
  | timedOut => simp [State.selectCall] at told
  | selected => simp [State.selectCall] at told
  | passEnded => simp at told
  | idle => simp at told
  | acceptFailed => simp at told
  | @accepted answers visits nonneg fresh =>
      obtain ⟨rfl, rfl⟩ : notice = _ ∧ sends = _ := by simpa using told
      simp only [telnetservermain, Admits, visits.scanning] at admitted
      have joined := invariant.join small nonneg fresh admitted.2.1
      exact ⟨_, (joined.fanout small (.joined answers.accept) _ _ _).of_insert⟩
  | hungUp =>
      obtain ⟨rfl, rfl⟩ : notice = _ ∧ sends = _ := by simpa using told
      exact ⟨_, invariant.fanout small _ _ _ _⟩
  | message =>
      obtain ⟨rfl, rfl⟩ : notice = _ ∧ sends = _ := by simpa using told
      exact ⟨_, invariant.fanout small _ _ _ _⟩

/-- A broadcast attempts one send to each of these clients but the one it is
about, and none to anything else. -/
structure Reaches (clients : Finset Int) (state : State) (notice : Notice)
    (sends : List SendCall) : Prop where
  once : (sends.map SendCall.fd).Nodup
  exact : ∀ fd, fd ∈ sends.map SendCall.fd ↔ fd ∈ clients ∧ fd ≠ notice.about
  notListener : ∀ call ∈ sends, call.fd ≠ state.listener
  isOpen : ∀ call ∈ sends, call.fd ∈ state.kernel.openFds

theorem reaches_of_fanout {state : State} (serves : state.kernel.Serves state.listener)
    {notice : Notice} {sends : List SendCall} {payload : List Byte}
    (fanout : Room.Fanout state.kernel.clients notice.about payload
      (sends.map SendCall.addressed)) :
    Reaches state.kernel.clients state notice sends := by
  have exactly : ∀ fd, fd ∈ sends.map SendCall.fd ↔
      fd ∈ state.kernel.clients ∧ fd ≠ notice.about := by
    intro fd
    rw [← SendCall.map_addressed_fst]
    exact fanout.exact fd
  have isClient : ∀ call ∈ sends, call.fd ∈ state.kernel.clients :=
    fun call member => ((exactly call.fd).mp (List.mem_map_of_mem member)).1
  exact {
    once := by
      rw [← SendCall.map_addressed_fst]
      exact fanout.once
    exact := exactly
    notListener := fun call member same => serves.listenerNotClient (same ▸ isClient call member)
    isOpen := fun call member => serves.clientsOpen (isClient call member) }

theorem mem_watched {nfds fd : Int} {set : FdSet} : fd ∈ watched nfds set ↔ fd ∈ set ∧ fd < nfds :=
  Finset.mem_filter

theorem Outcome.watches {limit : Int} {state final : State} {input : Input} {events : List Event}
    (outcome : Outcome state input final events) (invariant : Invariant limit state)
    {nfds : Int} {seen : FdSet} {timeout : Timeval} (called : .selected nfds seen timeout ∈ events)
    (fd : Int) : fd ∈ seen ↔ fd = state.listener ∨ fd ∈ state.kernel.clients := by
  have whole : fd ∈ watched (state.fdMax + 1) state.masterSet ↔
      fd = state.listener ∨ fd ∈ state.kernel.clients := by
    rw [mem_watched, ← invariant.watches]
    exact ⟨And.left, fun member => ⟨member, Int.lt_add_one_of_le (invariant.bounded fd member)⟩⟩
  cases outcome with
  | selectFailed =>
      obtain ⟨-, rfl, -⟩ : nfds = _ ∧ seen = _ ∧ timeout = _ := by
        simpa [State.selectCall] using called
      exact whole
  | timedOut =>
      obtain ⟨-, rfl, -⟩ : nfds = _ ∧ seen = _ ∧ timeout = _ := by
        simpa [State.selectCall] using called
      exact whole
  | selected =>
      obtain ⟨-, rfl, -⟩ : nfds = _ ∧ seen = _ ∧ timeout = _ := by
        simpa [State.selectCall] using called
      exact whole
  | passEnded => simp at called
  | idle => simp at called
  | acceptFailed => simp at called
  | accepted => simp at called
  | hungUp => simp at called
  | message => simp at called

end CBasics.SelectServer
