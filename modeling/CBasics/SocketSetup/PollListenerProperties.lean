import CBasics.SocketSetup.LoopProperties

/-! The listener of the poll server. Where no address can be bound its set-up closes a
descriptor instead of leaving, and it is `listen` that ends the process. -/

set_option autoImplicit false

namespace CBasics.SocketSetup

variable {entries : List ListenerEntry} {sockets : Sockets}

theorem pollListenerLoop_eq (entries : List ListenerEntry) (sockets : Sockets) :
    pollListenerLoop entries sockets = { listenerLoop entries sockets with errors := [] } := by
  induction entries generalizing sockets with
  | nil => rfl
  | cons entry rest ih =>
      rw [pollListenerLoop, listenerLoop]
      by_cases failed : entry.socket < 0
      · rw [if_pos failed, if_pos failed, ih]
        rfl
      · rw [if_neg failed, if_neg failed]
        by_cases refused : entry.bind < 0
        · simp only [if_pos refused, ih]
          rfl
        · simp only [if_neg refused]

theorem pollListenerLoop_keepsFirst
    (mayOpen : ∀ entry ∈ entries, sockets.MayOpen entry.socket) :
    KeepsFirst ListenerEntry.works ListenerEntry.socket Sockets.bound entries sockets
      (pollListenerLoop entries sockets) := by
  have keeps := listenerLoop_keepsFirst mayOpen
  rw [pollListenerLoop_eq]
  exact ⟨keeps.none, keeps.first⟩

theorem listenOn_open {left : Left} {listener : Int} (isOpen : listener ∈ left.sockets.openFds)
    (listen : Int) :
    listenOn left listener listen =
      if listen ≠ 0 then
        ⟨.stops 1, left.sockets, left.tried,
          left.errors ++ ["Error on call to listen() with fd " ++ toString listener]⟩
      else ⟨.uses listener, left.sockets.listen listener, left.tried, left.errors⟩ := by
  rw [listenOn, listenAnswer, if_pos isOpen]

theorem listenOn_closed {left : Left} {listener : Int}
    (closed : listener ∉ left.sockets.openFds) (listen : Int) :
    (listenOn left listener listen).outcome = .stops 1 ∧
      (listenOn left listener listen).sockets = left.sockets := by
  rw [listenOn, listenAnswer, if_neg closed, if_pos (by decide)]
  exact ⟨rfl, rfl⟩

/-- What `socket` has returned last is not open where the loop has come to the end. -/
theorem lastListener_closed (nonempty : entries ≠ []) (valid : -1 ∉ sockets.openFds)
    (mayOpen : ∀ entry ∈ entries, sockets.MayOpen entry.socket) :
    lastListener entries ∉ sockets.openFds := by
  rw [lastListener, List.getLast?_eq_some_getLast nonempty]
  rcases mayOpen _ (List.getLast_mem nonempty) with failed | ⟨-, new⟩
  · rw [Option.map_some, Option.getD_some, failed]
    exact valid
  · exact new

/-- For every list that `getaddrinfo` may return and all answers: the first address that can
be bound is the one the server listens on, if `listen` works; without such an address the
process loses its standard output, but exits all the same, since the descriptor it calls
`listen` on is not open any more. -/
theorem pollListenerSocket_picksFirst (listen : Int) (nonempty : entries ≠ [])
    (valid : -1 ∉ sockets.openFds)
    (mayOpen : ∀ entry ∈ entries, sockets.MayOpen entry.socket) :
    (∀ fd, (pollListenerSocket entries listen sockets).outcome = .uses fd ↔
        listen = 0 ∧ (entries.find? (·.works)).map (·.socket) = some fd) ∧
      (∀ fd, (pollListenerSocket entries listen sockets).outcome = .uses fd →
        (pollListenerSocket entries listen sockets).sockets.openFds =
            insert fd sockets.openFds ∧
          fd ∈ (pollListenerSocket entries listen sockets).sockets.bound ∧
          fd ∈ (pollListenerSocket entries listen sockets).sockets.listening) ∧
      (entries.find? (·.works) = none →
        (pollListenerSocket entries listen sockets).outcome = .stops 1 ∧
          (pollListenerSocket entries listen sockets).sockets.openFds =
            sockets.openFds.erase 1) := by
  have keeps := pollListenerLoop_keepsFirst mayOpen
  cases found : entries.find? (·.works) with
  | none =>
      obtain ⟨exhausted, openFds⟩ := keeps.none found
      have closed := lastListener_closed nonempty valid mayOpen
      have lost : lastListener entries ∉
          (pollListenerLoop entries sockets).failBind.sockets.openFds := by
        refine fun isOpen => closed ?_
        rw [← openFds]
        exact Finset.mem_of_mem_erase isOpen
      obtain ⟨stops, same⟩ := listenOn_closed lost listen
      simp only [pollListenerSocket, exhausted, stops, same]
      refine ⟨fun fd => ⟨nofun, fun answers => nomatch answers.2⟩, nofun, fun _ => ⟨trivial, ?_⟩⟩
      exact congrArg (·.erase 1) openFds
  | some first =>
      obtain ⟨broke, openFds, bound, -⟩ := keeps.first first found
      have isOpen : first.socket ∈ (pollListenerLoop entries sockets).sockets.openFds := by
        rw [openFds]
        exact Finset.mem_insert_self _ _
      simp only [pollListenerSocket, broke, listenOn_open isOpen, Option.map_some]
      by_cases refused : listen ≠ 0
      · simp only [if_pos refused]
        exact ⟨fun fd => ⟨nofun, fun answers => (refused answers.1).elim⟩, nofun, nofun⟩
      · simp only [if_neg refused]
        refine ⟨fun fd => ?_, ?_, nofun⟩
        · rw [Option.some.injEq, Outcome.uses.injEq]
          exact ⟨fun same => ⟨Decidable.not_not.mp refused, same⟩, And.right⟩
        · rintro fd ⟨⟩
          exact ⟨openFds, bound, Finset.mem_insert_self _ _⟩

theorem pollListenerSocket_picksFirst_none :
    (pollListenerSocket [⟨3, 0, -1⟩, ⟨3, 0, -1⟩] 0 ⟨{0, 1, 2}, ∅, ∅, ∅⟩).outcome = .stops 1 ∧
      (pollListenerSocket [⟨3, 0, -1⟩, ⟨3, 0, -1⟩] 0 ⟨{0, 1, 2}, ∅, ∅, ∅⟩).sockets.openFds =
        Finset.erase {0, 1, 2} 1 :=
  (pollListenerSocket_picksFirst 0 (by decide) (by decide) (by decide)).2.2 (by decide)

end CBasics.SocketSetup
