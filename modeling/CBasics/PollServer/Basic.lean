import CBasics.Kernel
import CBasics.Library.CompactTable
import CBasics.Library.System

/-! The chat server of `telnetServerWithPolling`. One step is one call of
`poll` or one turn of the loop over the slots; what the system calls answer
comes in as the input of the step. -/

set_option autoImplicit false

namespace CBasics.PollServer

open Library

def pollerr : BitVec 16 := 0x008
def pollhup : BitVec 16 := 0x010
def pollnval : BitVec 16 := 0x020

/-- `struct pollfd`. `written` records whether the program ever stored a
descriptor here; memory fresh from the allocator has arbitrary fields. -/
structure PollFd where
  fd : Int
  events : BitVec 16
  revents : BitVec 16
  written : Bool
  deriving DecidableEq

def PollFd.ready (slot : PollFd) : Prop := slot.revents &&& pollin ≠ 0

instance (slot : PollFd) : Decidable slot.ready := inferInstanceAs (Decidable (_ ≠ _))

/-- Store a descriptor and ask for input on it; `revents` is not assigned. -/
def PollFd.watch (newFd : Int) (slot : PollFd) : PollFd :=
  { slot with fd := newFd, events := pollin, written := true }

def allocate (garbage : Nat → PollFd) (start size : Nat) : List PollFd :=
  (List.range' start (size - start)).map fun index => { garbage index with written := false }

/-- The array and its two counters. -/
structure Table where
  pollFileDescriptors : List PollFd
  fdCount : Nat
  fdSize : Nat

def Table.registered (table : Table) : List PollFd :=
  used table.pollFileDescriptors table.fdCount

/-- Double the size if the array is full; `realloc` keeps what was there. -/
def Table.grow (garbage : Nat → PollFd) (table : Table) : Table :=
  if table.fdCount = table.fdSize then
    { table with
      fdSize := table.fdSize * 2
      pollFileDescriptors := table.pollFileDescriptors ++
        allocate garbage table.pollFileDescriptors.length (table.fdSize * 2) }
  else table

def addToPfds (garbage : Nat → PollFd) (newFd : Int) (table : Table) : Table :=
  let grown := table.grow garbage
  { grown with
    pollFileDescriptors := grown.pollFileDescriptors.modify grown.fdCount (PollFd.watch newFd)
    fdCount := grown.fdCount + 1 }

def delPfds (i : Nat) (table : Table) : Table :=
  { table with
    pollFileDescriptors := moveLast table.pollFileDescriptors i table.fdCount
    fdCount := table.fdCount - 1 }

inductive Pc where
  | polling
  | scanning (i : Nat)
  | exited
  deriving DecidableEq

def Pc.isScanning : Pc → Bool
  | .scanning _ => true
  | _ => false

/-- The locals of the server and the kernel. `polled` records the registered
slots as the last `poll` returned them. -/
structure State where
  pc : Pc
  listener : Int
  buffer : List Byte
  table : Table
  kernel : Kernel
  polled : List PollFd

/-- What the calls of one turn answer. `send` is indexed by the slot. -/
structure Answers where
  accept : Int
  garbage : Nat → PollFd
  recv : RecvResult
  send : Nat → Int

inductive Input where
  | poll (reply : Option (Int → BitVec 16))
  | turn (answers : Answers)

/-- What a step does to the outside. `polled` is a call of `poll` with the slots
it is given, `stored` is a write to a slot of the array
and the number of slots allocated then; `received` is one `recv` with the calls
of `send` that its turn goes on to make. -/
inductive Event where
  | polled (slots : List PollFd)
  | accepted (result : Int)
  | stored (index allocated : Nat)
  | received (fd : Int) (result : RecvResult) (sends : List SendCall)
  | closed (fd : Int)
  deriving DecidableEq

def bufferSize : Nat := 1024

/-- What `poll` writes to one slot: nothing for a negative descriptor, an error
for a closed one, else the asked-for part of the descriptor's readiness. -/
def pollSlot (kernel : Kernel) (readiness : Int → BitVec 16) (slot : PollFd) : PollFd :=
  { slot with
    revents :=
      if slot.fd < 0 then 0
      else if slot.fd ∈ kernel.openFds then
        readiness slot.fd &&& (slot.events ||| pollerr ||| pollhup)
      else pollnval }

def poll (kernel : Kernel) (readiness : Int → BitVec 16) (nfds : Nat) (slots : List PollFd) :
    List PollFd :=
  (slots.take nfds).map (pollSlot kernel readiness) ++ slots.drop nfds

/-- Everything before the infinite loop, once there is a listener. -/
def startUp (garbage : Nat → PollFd) (listener : Int) (buffer : List Byte)
    (openFds : Finset Int) : State where
  pc := .polling
  listener := listener
  buffer := buffer
  table :=
    { pollFileDescriptors := (allocate garbage 0 5).modify 0 (PollFd.watch listener)
      fdCount := 1
      fdSize := 5 }
  kernel := { openFds := openFds, clients := ∅ }
  polled := []

/-- The slots of the poll at the top of the loop; its count is `fd_size`. -/
def Table.handedToPoll (table : Table) : List PollFd :=
  table.pollFileDescriptors.take table.fdSize

def pollRound (state : State) (readiness : Int → BitVec 16) : State :=
  let slots := poll state.kernel readiness state.table.fdSize state.table.pollFileDescriptors
  { state with
    pc := .scanning 0
    table := { state.table with pollFileDescriptors := slots }
    polled := used slots state.table.fdCount }

/-- The branch for the listener. -/
def acceptTurn (state : State) (answers : Answers) : State × List Event :=
  if answers.accept = -1 then (state, [.accepted answers.accept])
  else
    let table := addToPfds answers.garbage answers.accept state.table
    ({ state with table := table, kernel := state.kernel.accept answers.accept },
      [.accepted answers.accept, .stored state.table.fdCount table.pollFileDescriptors.length])

/-- The loop over `j`: everybody but the listener and the sender. -/
def broadcast (listener senderFd : Int) (payload : List Byte) (results : Nat → Int) :
    Nat → List PollFd → List SendCall
  | _, [] => []
  | j, slot :: rest =>
      if slot.fd ≠ listener ∧ slot.fd ≠ senderFd then
        ⟨slot.fd, payload, payload.length, results j⟩ ::
          broadcast listener senderFd payload results (j + 1) rest
      else broadcast listener senderFd payload results (j + 1) rest

/-- The branch for a client in slot `i`. -/
def recvTurn (state : State) (i : Nat) (slot : PollFd) (answers : Answers) :
    State × List Event :=
  let messageBytes := answers.recv.count
  let buffer := answers.recv.store state.buffer
  let senderFd := slot.fd
  if messageBytes ≤ 0 then
    ({ state with
        buffer := buffer
        table := delPfds i state.table
        kernel := state.kernel.close slot.fd },
      [.received senderFd answers.recv [], .closed slot.fd,
        .stored i state.table.pollFileDescriptors.length])
  else
    let sends := broadcast state.listener senderFd (buffer.take messageBytes.toNat) answers.send 0
      state.table.registered
    ({ state with buffer := buffer }, [.received senderFd answers.recv sends])

/-- The body of the loop over `i`. -/
def handleSlot (state : State) (i : Nat) (slot : PollFd) (answers : Answers) :
    State × List Event :=
  if slot.ready then
    if slot.fd = state.listener then acceptTurn state answers
    else recvTurn state i slot answers
  else (state, [])

/-- One turn of the loop over `i`, or its end. -/
def turn (state : State) (i : Nat) (answers : Answers) : State × List Event :=
  if i < state.table.fdCount then
    match state.table.pollFileDescriptors[i]? with
    | some slot =>
        let (handled, events) := handleSlot state i slot answers
        ({ handled with pc := .scanning (i + 1) }, events)
    | none => (state, [])
  else ({ state with pc := .polling }, [])

def step (state : State) : Input → State × List Event
  | .poll none => ({ state with pc := .exited }, [.polled state.table.handedToPoll])
  | .poll (some readiness) => (pollRound state readiness, [.polled state.table.handedToPoll])
  | .turn answers =>
      match state.pc with
      | .scanning i => turn state i answers
      | _ => (state, [])

/-- `poll` is called at the top of the loop; during the pass `accept` returns
-1 or a descriptor that is not open, and `recv` at most a buffer of bytes. -/
def Admits (state : State) : Input → Prop
  | .poll _ => state.pc = .polling
  | .turn answers =>
      state.pc.isScanning ∧ state.kernel.MayAccept answers.accept ∧ answers.recv.Fits bufferSize

instance (state : State) : (input : Input) → Decidable (Admits state input)
  | .poll _ => inferInstanceAs (Decidable (state.pc = .polling))
  | .turn _ => inferInstanceAs (Decidable (_ ∧ _ ∧ _))

/-- A listener is an open descriptor; `malloc` and the stack hold anything. -/
def Initial (state : State) : Prop :=
  ∃ garbage listener buffer openFds, listener ∈ openFds ∧ 0 ≤ listener ∧
    buffer.length = bufferSize ∧ state = startUp garbage listener buffer openFds

def telnetServerWithPolling : System State Input Event where
  initial := Initial
  admits := Admits
  step := step

instance (state : State) (input : Input) :
    Decidable (telnetServerWithPolling.admits state input) :=
  inferInstanceAs (Decidable (Admits state input))

end CBasics.PollServer
