import CBasics.SocketSetup.LoopProperties

/-! The two servers listen on the first address that can be bound. -/

set_option autoImplicit false

namespace CBasics.SocketSetup

/-- The descriptor made for the first address that can be bound is returned; it
listens, nothing else that was made is open, and no later address was tried.
Without such an address the process exits and leaves nothing open. -/
structure PicksFirst (entries : List ListenerEntry) (sockets : Sockets) (setup : Setup) :
    Prop where
  returns : ∀ first, entries.find? (·.works) = some first →
    setup.outcome = .uses first.socket ∧
      setup.sockets.openFds = insert first.socket sockets.openFds ∧
      first.socket ∈ setup.sockets.bound ∧ first.socket ∈ setup.sockets.listening ∧
      setup.tried = entries.findIdx (·.works) + 1
  exits : entries.find? (·.works) = none →
    (∃ status, setup.outcome = .stops status) ∧ setup.sockets.openFds = sockets.openFds

variable {entries : List ListenerEntry} {sockets : Sockets}

theorem getListenerSocketFd_picksFirst
    (mayOpen : ∀ entry ∈ entries, sockets.MayOpen entry.socket)
    (optionSet : ∀ entry ∈ entries, entry.setsockopt = 0) :
    PicksFirst entries sockets (getListenerSocketFd entries 0 sockets) := by
  have keeps := listenerFdLoop_keepsFirst mayOpen optionSet
  by_cases empty : entries = []
  · subst empty
    exact ⟨fun first found => by simp at found, fun _ => ⟨⟨1, rfl⟩, rfl⟩⟩
  · constructor
    case returns =>
      intro first found
      obtain ⟨broke, openFds, bound, tried⟩ := keeps.first first found
      have setup : getListenerSocketFd entries 0 sockets =
          ⟨.uses first.socket, (listenerFdLoop entries sockets).sockets.listen first.socket,
            (listenerFdLoop entries sockets).tried, (listenerFdLoop entries sockets).errors⟩ := by
        simp [getListenerSocketFd, empty, broke]
      rw [setup]
      exact ⟨rfl, openFds, bound, Finset.mem_insert_self _ _, tried⟩
    case exits =>
      intro found
      obtain ⟨exhausted, openFds⟩ := keeps.none found
      simp only [getListenerSocketFd, if_neg empty, exhausted]
      exact ⟨⟨1, rfl⟩, openFds⟩

/-- `get_listener_socket` does not need the option to have been set. -/
theorem getListenerSocket_picksFirst
    (mayOpen : ∀ entry ∈ entries, sockets.MayOpen entry.socket) :
    PicksFirst entries sockets (getListenerSocket entries 0 sockets) := by
  have keeps := listenerLoop_keepsFirst mayOpen
  constructor
  case returns =>
    intro first found
    obtain ⟨broke, openFds, bound, tried⟩ := keeps.first first found
    have setup : getListenerSocket entries 0 sockets =
        ⟨.uses first.socket, (listenerLoop entries sockets).sockets.listen first.socket,
          (listenerLoop entries sockets).tried, (listenerLoop entries sockets).errors⟩ := by
      simp [getListenerSocket, broke]
    rw [setup]
    exact ⟨rfl, openFds, bound, Finset.mem_insert_self _ _, tried⟩
  case exits =>
    intro found
    obtain ⟨exhausted, openFds⟩ := keeps.none found
    simp only [getListenerSocket, exhausted]
    exact ⟨⟨1, rfl⟩, openFds⟩

/-- Both set-ups, whatever `socket` and `bind` answer for each address. -/
theorem listeners_picksFirst (entries : List ListenerEntry) (sockets : Sockets)
    (mayOpen : ∀ entry ∈ entries, sockets.MayOpen entry.socket)
    (optionSet : ∀ entry ∈ entries, entry.setsockopt = 0) :
    PicksFirst entries sockets (getListenerSocketFd entries 0 sockets) ∧
      PicksFirst entries sockets (getListenerSocket entries 0 sockets) :=
  ⟨getListenerSocketFd_picksFirst mayOpen optionSet, getListenerSocket_picksFirst mayOpen⟩

theorem listeners_picksFirst_third :
    PicksFirst [⟨-1, 0, 0⟩, ⟨3, 0, -1⟩, ⟨3, 0, 0⟩, ⟨4, 0, 0⟩] ⟨{0, 1, 2}, ∅, ∅, ∅⟩
        (getListenerSocketFd [⟨-1, 0, 0⟩, ⟨3, 0, -1⟩, ⟨3, 0, 0⟩, ⟨4, 0, 0⟩] 0
          ⟨{0, 1, 2}, ∅, ∅, ∅⟩) ∧
      PicksFirst [⟨-1, 0, 0⟩, ⟨3, 0, -1⟩, ⟨3, 0, 0⟩, ⟨4, 0, 0⟩] ⟨{0, 1, 2}, ∅, ∅, ∅⟩
        (getListenerSocket [⟨-1, 0, 0⟩, ⟨3, 0, -1⟩, ⟨3, 0, 0⟩, ⟨4, 0, 0⟩] 0
          ⟨{0, 1, 2}, ∅, ∅, ∅⟩) :=
  listeners_picksFirst _ _ (by decide) (by decide)

end CBasics.SocketSetup
