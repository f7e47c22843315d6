import CBasics.SocketSetup.LoopProperties

/-! Whether the clients go on with an open, connected descriptor. The loop of two
of them leaves a failed connection by the `break` of a successful one. -/

set_option autoImplicit false

namespace CBasics.SocketSetup

/-- The client goes on exactly if some address works, and then with the open and
connected descriptor of the first of them; it leaves nothing else open; if it
does not go on, it reports a failure. -/
structure UsesConnected (entries : List ClientEntry) (sockets : Sockets) (setup : Setup) :
    Prop where
  uses_iff : (∃ fd, setup.outcome = .uses fd) ↔ ∃ entry ∈ entries, entry.works = true
  uses : ∀ fd, setup.outcome = .uses fd →
    (entries.find? (·.works)).map (·.socket) = some fd ∧
      fd ∈ setup.sockets.openFds ∧ fd ∈ setup.sockets.connected
  closed : ∀ fd, fd ∈ setup.sockets.openFds ↔
    fd ∈ sockets.openFds ∨ setup.outcome = .uses fd
  stops : (∀ fd, setup.outcome ≠ .uses fd) →
    setup.errors ≠ [] ∧ ∃ status, setup.outcome = .stops status ∧ status ≠ 0

/-- The first address for which a socket is made can be connected to. -/
def FirstConnects (entries : List ClientEntry) : Prop :=
  ∀ entry ∈ entries.find? (·.opens), entry.connect ≠ -1

instance (entries : List ClientEntry) : Decidable (FirstConnects entries) :=
  inferInstanceAs (Decidable (∀ entry ∈ entries.find? (·.opens), entry.connect ≠ -1))

section Test

variable {entries : List ClientEntry} {sockets : Sockets} {left : Left} {report : String}
  {status : Int}

theorem usesConnected_of_broke {entry : ClientEntry} (broke : left.ending = .broke entry.socket)
    (first : entries.find? (·.works) = some entry)
    (openFds : left.sockets.openFds = insert entry.socket sockets.openFds)
    (connected : entry.socket ∈ left.sockets.connected) :
    UsesConnected entries sockets (left.test report status) := by
  have outcome : left.test report status =
      ⟨.uses entry.socket, left.sockets, left.tried, left.errors⟩ := by
    simp [Left.test, broke]
  rw [outcome]
  constructor
  case uses_iff =>
    have works : entry.works = true := List.find?_some first
    exact ⟨fun _ => ⟨entry, List.mem_of_find?_eq_some first, works⟩,
      fun _ => ⟨entry.socket, rfl⟩⟩
  case uses =>
    rintro fd ⟨⟩
    refine ⟨by rw [first]; rfl, ?_, connected⟩
    rw [openFds]
    exact Finset.mem_insert_self _ _
  case closed =>
    intro fd
    have used : fd = entry.socket ↔ Outcome.uses entry.socket = .uses fd := by
      rw [Outcome.uses.injEq, eq_comm]
    rw [openFds, Finset.mem_insert, used, or_comm]
  case stops => exact fun stopped => absurd rfl (stopped entry.socket)

theorem usesConnected_of_exhausted (failure : status ≠ 0) (exhausted : left.ending = .exhausted)
    (none : ∀ entry ∈ entries, entry.works = false)
    (openFds : left.sockets.openFds = sockets.openFds) :
    UsesConnected entries sockets (left.test report status) := by
  have outcome : left.test report status =
      ⟨.stops status, left.sockets, left.tried, left.errors ++ [report]⟩ := by
    simp [Left.test, exhausted]
  rw [outcome]
  constructor
  case uses_iff =>
    refine ⟨fun ⟨fd, used⟩ => (nomatch used), fun ⟨entry, member, works⟩ => ?_⟩
    rw [none entry member] at works
    cases works
  case uses => exact fun fd used => nomatch used
  case closed =>
    intro fd
    rw [openFds]
    exact ⟨Or.inl, fun either => either.resolve_right fun used => nomatch used⟩
  case stops => exact fun _ => ⟨by simp, status, rfl, failure⟩

end Test

section AddressLoop

variable {entries : List ClientEntry} {sockets : Sockets} {socketError connectError : String}

theorem addressLoop_exhausted (none : ∀ entry ∈ entries, entry.opens = false) :
    (addressLoop socketError connectError entries sockets).ending = .exhausted ∧
      (addressLoop socketError connectError entries sockets).sockets = sockets := by
  induction entries with
  | nil => exact ⟨rfl, rfl⟩
  | cons entry rest ih =>
      obtain ⟨here, later⟩ := List.forall_mem_cons.mp none
      have failed : entry.socket = -1 := by simpa [ClientEntry.opens] using here
      rw [addressLoop, if_pos failed]
      exact ih later

/-- The loop ends with the first descriptor it gets, connected or closed. -/
theorem addressLoop_first {first : ClientEntry}
    (found : entries.find? (·.opens) = some first) :
    (addressLoop socketError connectError entries sockets).ending = .broke first.socket ∧
      (addressLoop socketError connectError entries sockets).sockets =
        if first.connect = -1 then (sockets.socket first.socket).close first.socket
        else (sockets.socket first.socket).connect first.socket := by
  induction entries with
  | nil => simp at found
  | cons entry rest ih =>
      rw [addressLoop]
      by_cases failed : entry.socket = -1
      · have notOpens : entry.opens = false := by simp [ClientEntry.opens, failed]
        rw [List.find?_cons, notOpens] at found
        rw [if_pos failed]
        exact ih found
      · have opens : entry.opens = true := by simp [ClientEntry.opens, failed]
        rw [List.find?_cons, opens] at found
        obtain rfl : entry = first := Option.some.inj found
        rw [if_neg failed]
        by_cases refused : entry.connect = -1
        · simp [refused]
        · simp [refused]

theorem find?_works {entry : ClientEntry} (first : entries.find? (·.opens) = some entry)
    (connects : entry.connect ≠ -1) : entries.find? (·.works) = some entry := by
  rw [List.find?_eq_some_iff_append] at first ⊢
  obtain ⟨opens, before, after, rfl, earlier⟩ := first
  refine ⟨by simp [ClientEntry.works, opens, connects], before, after, rfl, ?_⟩
  intro other member
  simp [ClientEntry.works, earlier other member]

/-- A client with this loop is right exactly if no connection fails before one
succeeds. -/
theorem usesConnected_addressLoop_iff {report : String} {status : Int} (failure : status ≠ 0)
    (mayOpen : ∀ entry ∈ entries, sockets.MayOpen entry.socket) :
    UsesConnected entries sockets
        ((addressLoop socketError connectError entries sockets).test report status) ↔
      FirstConnects entries := by
  unfold FirstConnects
  cases found : entries.find? (·.opens) with
  | none =>
      have none : ∀ entry ∈ entries, entry.opens = false := by simpa using found
      have exhausted := @addressLoop_exhausted entries sockets socketError connectError none
      refine iff_of_true (usesConnected_of_exhausted failure exhausted.1 ?_ ?_) (by simp)
      · intro entry member
        simp [ClientEntry.works, none entry member]
      · rw [exhausted.2]
  | some first =>
      have broke := @addressLoop_first entries sockets socketError connectError first found
      have opens : first.opens = true := List.find?_some found
      have made : first.socket ≠ -1 := by simpa [ClientEntry.opens] using opens
      have new := (mayOpen first (List.mem_of_find?_eq_some found)).new made
      by_cases refused : first.connect = -1
      · refine iff_of_false (fun right => ?_) (by simp [refused])
        have used : ((addressLoop socketError connectError entries sockets).test report
            status).outcome = .uses first.socket := by
          simp [Left.test, broke.1]
        have isOpen := (right.uses first.socket used).2.1
        have socketsEq : ((addressLoop socketError connectError entries sockets).test report
            status).sockets = (sockets.socket first.socket).close first.socket := by
          simp [Left.test, broke.1, broke.2, refused]
        rw [socketsEq, Sockets.openFds_close_socket new] at isOpen
        exact new isOpen
      · refine iff_of_true (usesConnected_of_broke broke.1 (find?_works found refused) ?_ ?_)
          (by simpa using refused)
        · simp [broke.2, refused]
        · simp [broke.2, refused, Sockets.connect]

end AddressLoop

/-- `telnetClient` and `streamSocketClient` use a connected descriptor, or report
a failure, exactly if the first socket they get can be connected. -/
theorem clients_usesConnected_iff (entries : List ClientEntry) (sockets : Sockets)
    (mayOpen : ∀ entry ∈ entries, sockets.MayOpen entry.socket) :
    (UsesConnected entries sockets (telnetClient entries sockets) ↔ FirstConnects entries) ∧
      (UsesConnected entries sockets (streamSocketClient entries sockets) ↔
        FirstConnects entries) :=
  ⟨usesConnected_addressLoop_iff (by decide) mayOpen,
    usesConnected_addressLoop_iff (by decide) mayOpen⟩

def standard : Sockets := ⟨{0, 1, 2}, ∅, ∅, ∅⟩

theorem clients_usesConnected_second :
    UsesConnected [⟨-1, 0⟩, ⟨3, 0⟩] standard (telnetClient [⟨-1, 0⟩, ⟨3, 0⟩] standard) ∧
      UsesConnected [⟨-1, 0⟩, ⟨3, 0⟩] standard
        (streamSocketClient [⟨-1, 0⟩, ⟨3, 0⟩] standard) :=
  have both := clients_usesConnected_iff [⟨-1, 0⟩, ⟨3, 0⟩] standard (by decide)
  ⟨both.1.mpr (by decide), both.2.mpr (by decide)⟩

/-- The first of two addresses refuses, the second would not: both clients go on
with the descriptor that they have closed. -/
theorem not_clients_usesConnected_refused :
    ¬ UsesConnected [⟨3, -1⟩, ⟨3, 0⟩] standard (telnetClient [⟨3, -1⟩, ⟨3, 0⟩] standard) ∧
      ¬ UsesConnected [⟨3, -1⟩, ⟨3, 0⟩] standard
        (streamSocketClient [⟨3, -1⟩, ⟨3, 0⟩] standard) := by
  constructor
  · intro right
    exact absurd (right.uses 3 (by decide)).2.1 (by decide)
  · intro right
    exact absurd (right.uses 3 (by decide)).2.1 (by decide)

/-- `main2`, which continues with the next address, is right on every list. -/
theorem main2_usesConnected {entries : List ClientEntry} {sockets : Sockets}
    (mayOpen : ∀ entry ∈ entries, sockets.MayOpen entry.socket) :
    UsesConnected entries sockets (main2 entries sockets) := by
  have keeps := main2Loop_keepsFirst mayOpen
  cases found : entries.find? (·.works) with
  | none =>
      obtain ⟨exhausted, openFds⟩ := keeps.none found
      exact usesConnected_of_exhausted (by decide) exhausted (by simpa using found) openFds
  | some first =>
      obtain ⟨broke, openFds, connected, -⟩ := keeps.first first found
      exact usesConnected_of_broke broke found openFds connected

theorem main2_usesConnected_second :
    UsesConnected [⟨3, -1⟩, ⟨3, 0⟩] standard (main2 [⟨3, -1⟩, ⟨3, 0⟩] standard) :=
  main2_usesConnected (by decide)

end CBasics.SocketSetup
