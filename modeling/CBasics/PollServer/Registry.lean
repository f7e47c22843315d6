import CBasics.PollServer.Basic

/-! The registered slots are, in every state of a run, the listener and the
connected clients, each once. Growth, append and removal keep this one table
invariant; a turn only composes them. -/

set_option autoImplicit false

namespace CBasics.PollServer

open Library

/-- The first `fd_count` slots register the listener and the given clients. -/
structure Table.Registers (table : Table) (listener : Int) (clients : Finset Int) : Prop where
  positive : 1 ≤ table.fdCount
  bounded : table.fdCount ≤ table.fdSize
  allocated : table.pollFileDescriptors.length = table.fdSize
  listenerFirst : table.pollFileDescriptors[0]?.map PollFd.fd = some listener
  distinct : (table.registered.map PollFd.fd).Nodup
  watched : ∀ slot ∈ table.registered, slot.events = pollin ∧ slot.written
  exact : ∀ fd, fd ∈ table.registered.map PollFd.fd ↔ fd = listener ∨ fd ∈ clients

theorem length_allocate (garbage : Nat → PollFd) (start size : Nat) :
    (allocate garbage start size).length = size - start := by
  simp [allocate]

namespace Table.Registers

variable {table : Table} {listener : Int} {clients : Finset Int}

theorem startUp (garbage : Nat → PollFd) (listener : Int) :
    Registers
      { pollFileDescriptors := (allocate garbage 0 5).modify 0 (PollFd.watch listener)
        fdCount := 1
        fdSize := 5 } listener ∅ where
  positive := le_refl 1
  bounded := by simp
  allocated := by simp [length_allocate]
  listenerFirst := by simp [allocate, List.range', PollFd.watch]
  distinct := by simp [registered, used, allocate, List.range']
  watched := by simp [registered, used, allocate, List.range', PollFd.watch]
  exact := by simp [registered, used, allocate, List.range', PollFd.watch]

theorem map (registers : table.Registers listener clients) {change : PollFd → PollFd}
    (keepFd : ∀ slot, (change slot).fd = slot.fd)
    (keepEvents : ∀ slot, (change slot).events = slot.events)
    (keepWritten : ∀ slot, (change slot).written = slot.written) :
    Registers { table with pollFileDescriptors := table.pollFileDescriptors.map change }
      listener clients := by
  have changed : Table.registered { table with
      pollFileDescriptors := table.pollFileDescriptors.map change } =
      table.registered.map change := by
    simp [registered, used, List.map_take]
  have sameFds : (table.registered.map change).map PollFd.fd = table.registered.map PollFd.fd := by
    rw [List.map_map]
    exact List.map_congr_left fun slot _ => keepFd slot
  refine ⟨registers.positive, registers.bounded, ?_, ?_, ?_, ?_, ?_⟩
  · simpa using registers.allocated
  · have first := registers.listenerFirst
    cases found : table.pollFileDescriptors[0]? with
    | none => simp [found] at first
    | some slot => simpa [found, keepFd] using first
  · rw [changed, sameFds]
    exact registers.distinct
  · intro slot member
    rw [changed] at member
    obtain ⟨old, oldMember, rfl⟩ := List.mem_map.mp member
    rw [keepEvents, keepWritten]
    exact registers.watched old oldMember
  · intro fd
    rw [changed, sameFds]
    exact registers.exact fd

theorem grow (registers : table.Registers listener clients) (garbage : Nat → PollFd) :
    (table.grow garbage).Registers listener clients ∧
      (table.grow garbage).registered = table.registered ∧
      (table.grow garbage).fdCount = table.fdCount ∧
      table.fdCount < (table.grow garbage).pollFileDescriptors.length := by
  have positive := registers.positive
  have bounded := registers.bounded
  have allocated := registers.allocated
  have fits : table.fdCount ≤ table.pollFileDescriptors.length := by omega
  unfold Table.grow
  split
  · rename_i full
    have same : Table.registered
        { table with
          fdSize := table.fdSize * 2
          pollFileDescriptors := table.pollFileDescriptors ++
            allocate garbage table.pollFileDescriptors.length (table.fdSize * 2) } =
        table.registered := used_append fits _
    refine ⟨⟨positive, ?_, ?_, ?_, ?_, ?_, ?_⟩, same, rfl, ?_⟩
    · show table.fdCount ≤ table.fdSize * 2
      omega
    · simp only [List.length_append, length_allocate]
      omega
    · rw [List.getElem?_append_left (by omega)]
      exact registers.listenerFirst
    · rw [same]
      exact registers.distinct
    · rw [same]
      exact registers.watched
    · rw [same]
      exact registers.exact
    · simp only [List.length_append, length_allocate]
      omega
  · exact ⟨registers, rfl, rfl, by omega⟩

theorem registered_addToPfds (registers : table.Registers listener clients)
    (garbage : Nat → PollFd) (newFd : Int) :
    ∃ old : PollFd, (PollServer.addToPfds garbage newFd table).registered =
      table.registered ++ [old.watch newFd] := by
  obtain ⟨-, same, count, room⟩ := registers.grow garbage
  rw [← count] at room
  refine ⟨(table.grow garbage).pollFileDescriptors[(table.grow garbage).fdCount], ?_⟩
  rw [← same]
  exact used_modify _ (List.getElem?_eq_getElem room)

/-- The slot that `add_to_pfds` fills is allocated, also when the array was full. -/
theorem lt_length_addToPfds (registers : table.Registers listener clients)
    (garbage : Nat → PollFd) (newFd : Int) :
    table.fdCount < (PollServer.addToPfds garbage newFd table).pollFileDescriptors.length := by
  obtain ⟨-, -, -, room⟩ := registers.grow garbage
  simpa [PollServer.addToPfds] using room

theorem addToPfds (registers : table.Registers listener clients) (garbage : Nat → PollFd)
    {newFd : Int} (notListener : newFd ≠ listener) (notClient : newFd ∉ clients) :
    (PollServer.addToPfds garbage newFd table).Registers listener (insert newFd clients) := by
  obtain ⟨old, appended⟩ := registers.registered_addToPfds garbage newFd
  obtain ⟨grown, -, count, room⟩ := registers.grow garbage
  refine ⟨Nat.le_add_left 1 _, ?_, ?_, ?_, ?_, ?_, ?_⟩
  · show (table.grow garbage).fdCount + 1 ≤ (table.grow garbage).fdSize
    rw [count, ← grown.allocated]
    exact room
  · simpa [PollServer.addToPfds] using grown.allocated
  · have other : (table.grow garbage).fdCount ≠ 0 := Nat.ne_of_gt grown.positive
    simpa [PollServer.addToPfds, List.getElem?_modify, other] using grown.listenerFirst
  · rw [appended, List.map_append, List.nodup_append]
    refine ⟨registers.distinct, by simp, ?_⟩
    intro fd member other singleton same
    have added : other = newFd := by simpa [PollFd.watch] using singleton
    subst same added
    cases (registers.exact fd).mp member with
    | inl isListener => exact notListener isListener
    | inr isClient => exact notClient isClient
  · intro slot member
    rw [appended] at member
    cases List.mem_append.mp member with
    | inl before => exact registers.watched slot before
    | inr added =>
        have same : slot = old.watch newFd := by simpa using added
        rw [same]
        exact ⟨rfl, rfl⟩
  · intro fd
    rw [appended, List.map_append, List.mem_append, registers.exact fd, Finset.mem_insert]
    simp only [List.map_cons, List.map_nil, List.mem_singleton, PollFd.watch]
    tauto

theorem index_pos (registers : table.Registers listener clients) {i : Nat} {slot : PollFd}
    (found : table.pollFileDescriptors[i]? = some slot) (client : slot.fd ≠ listener) : 0 < i := by
  rcases Nat.eq_zero_or_pos i with rfl | positive
  · have first := registers.listenerFirst
    rw [found] at first
    exact absurd (Option.some.inj first) client
  · exact positive

theorem delPfds (registers : table.Registers listener clients) {i : Nat} {slot : PollFd}
    (inUse : i < table.fdCount) (found : table.pollFileDescriptors[i]? = some slot)
    (client : slot.fd ≠ listener) :
    (PollServer.delPfds i table).Registers listener (clients.erase slot.fd) := by
  have fits : table.fdCount ≤ table.pollFileDescriptors.length := by
    rw [registers.allocated]
    exact registers.bounded
  have notFirst := registers.index_pos found client
  have bounded := registers.bounded
  refine ⟨?_, ?_, ?_, ?_, ?_, ?_, ?_⟩
  · show 1 ≤ table.fdCount - 1
    omega
  · show table.fdCount - 1 ≤ table.fdSize
    omega
  · exact (length_moveLast _ _ _).trans registers.allocated
  · show (moveLast table.pollFileDescriptors i table.fdCount)[0]?.map PollFd.fd = some listener
    rw [getElem?_moveLast_of_ne (by omega)]
    exact registers.listenerFirst
  · exact nodup_map_used_moveLast PollFd.fd registers.distinct fits inUse found
  · intro other member
    have kept := (used_moveLast_perm fits inUse found).subset (List.mem_cons_of_mem slot member)
    exact registers.watched other kept
  · intro fd
    refine (mem_map_used_moveLast PollFd.fd registers.distinct fits inUse found fd).trans ?_
    rw [show fd ∈ (used table.pollFileDescriptors table.fdCount).map PollFd.fd ↔
      fd = listener ∨ fd ∈ clients from registers.exact fd, Finset.mem_erase]
    constructor
    · rintro ⟨rfl | isClient, other⟩
      · exact .inl rfl
      · exact .inr ⟨other, isClient⟩
    · rintro (rfl | ⟨other, isClient⟩)
      · exact ⟨.inl rfl, client.symm⟩
      · exact ⟨.inr isClient, other⟩

end Table.Registers

end CBasics.PollServer
