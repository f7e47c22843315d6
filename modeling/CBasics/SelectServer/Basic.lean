import CBasics.Kernel
import CBasics.Library.CString
import CBasics.Library.System
import Mathlib.Data.Finset.Filter

/-! The chat server of `telnetservermain`. One step is one call of `select` or
one turn of the scan over the descriptors that follows it. -/

set_option autoImplicit false

namespace CBasics.SelectServer

open Library

def bufferSize : Nat := 1024

/-- `sizeof prepend_string` -/
def prependSize : Nat := 10

def fdSetSize : Int := 1024

/-- `fd_set`: a set of the numbers from 0 to `FD_SETSIZE`. The macros do not
check their index: out of range they touch other memory, so a test reads
whatever bit `beyond` that memory holds. -/
abbrev FdSet := Finset Int

def inRange (fd : Int) : Prop := 0 ≤ fd ∧ fd < fdSetSize

instance (fd : Int) : Decidable (inRange fd) := inferInstanceAs (Decidable (_ ∧ _))

def fdIsSet (beyond : Int → Bool) (fd : Int) (set : FdSet) : Bool :=
  if inRange fd then decide (fd ∈ set) else beyond fd

def fdSet (fd : Int) (set : FdSet) : FdSet := if inRange fd then insert fd set else set

def fdClr (fd : Int) (set : FdSet) : FdSet := if inRange fd then set.erase fd else set

structure Timeval where
  sec : Nat
  usec : Nat
  deriving DecidableEq

/-- Conversion of a signed result to `size_t`. -/
def sizeT (value : Int) : Nat := (value % 2 ^ 64).toNat

inductive Pc where
  | selecting
  | scanning (i : Int)
  | exited
  deriving DecidableEq

structure State where
  pc : Pc
  listener : Int
  selectSet : FdSet
  masterSet : FdSet
  fdMax : Int
  buffer : List Byte
  serverMessage : List Byte
  tv : Timeval
  kernel : Kernel

/-- How `select` returns: negative, zero, or with the readable descriptors left
in the set; on Linux the time not slept is left in the timeout. -/
inductive SelectReply where
  | failed
  | timedOut
  | ready (readable : FdSet) (remaining : Timeval)

/-- What the calls of one turn answer. `send` is indexed by the destination. -/
structure Answers where
  accept : Int
  recv : RecvResult
  send : Int → Int
  beyond : Int → Bool

inductive Input where
  | select (reply : SelectReply)
  | turn (answers : Answers)

/-- The three texts that are broadcast. -/
inductive Notice where
  | joined (newFd : Int)
  | left (fd : Int)
  | message (fd : Int) (text : List Byte) (bytesReceived : Nat)
  deriving DecidableEq

def Notice.about : Notice → Int
  | .joined newFd => newFd
  | .left fd => fd
  | .message fd _ _ => fd

def prependString (fd : Int) : List Byte := ascii "User " ++ decimal fd ++ ascii ":"

/-- The text that `sprintf` writes for a notice. -/
def Notice.text : Notice → List Byte
  | .joined newFd => ascii "User " ++ decimal newFd ++ ascii " joined\n"
  | .left fd => ascii "User " ++ decimal fd ++ ascii " left\n"
  | .message fd text _ => prependString fd ++ ascii " " ++ text

inductive Target where
  | serverMessage
  | message
  | prependString
  | buffer
  deriving DecidableEq

/-- What a step does to the outside and to memory. `broadcast` is one of the
three loops of sends, `indexed` the use of the descriptor set macros on all
indices of a range, `copied` a string written to an array of that many bytes. -/
inductive Event where
  | selected (nfds : Int) (watched : FdSet) (timeout : Timeval)
  | accepted (result : Int)
  | received (fd : Int) (result : RecvResult)
  | broadcast (notice : Notice) (sends : List SendCall)
  | closed (fd : Int)
  | indexed (low high : Int)
  | copied (target : Target) (bytes : Nat)
  deriving DecidableEq

def watched (nfds : Int) (set : FdSet) : FdSet := set.filter fun fd => fd < nfds

def startUp (listener : Int) (serverMessage : List Byte) (openFds : Finset Int) : State where
  pc := .selecting
  listener := listener
  selectSet := ∅
  masterSet := fdSet listener ∅
  fdMax := listener
  buffer := List.replicate bufferSize 0
  serverMessage := serverMessage
  tv := ⟨5, 500000⟩
  kernel := { openFds := openFds, clients := ∅ }

/-- The top of the loop: clear both arrays, copy the master set, `select`. -/
def selectRound (state : State) (reply : SelectReply) : State × List Event :=
  let cleared : State :=
    { state with
      serverMessage := List.replicate bufferSize 0
      buffer := List.replicate bufferSize 0
      selectSet := state.masterSet }
  let call := .selected (state.fdMax + 1) (watched (state.fdMax + 1) cleared.selectSet) state.tv
  match reply with
  | .failed => ({ cleared with pc := .exited }, [call])
  | .timedOut => ({ cleared with selectSet := ∅, tv := ⟨0, 0⟩ }, [call])
  | .ready readable remaining =>
      ({ cleared with selectSet := readable, tv := remaining, pc := .scanning 0 }, [call])

def descriptors (fdMax : Int) : List Int := (List.range (fdMax + 1).toNat).map Int.ofNat

/-- The loop over `j`: everybody in the master set but the listener and the
descriptor the text is about. -/
def broadcast (state : State) (notice : Notice) (payload : List Byte) (length : Nat)
    (answers : Answers) : List SendCall :=
  ((descriptors state.fdMax).filter fun j =>
    fdIsSet answers.beyond j state.masterSet ∧ j ≠ state.listener ∧ j ≠ notice.about).map
    fun j => ⟨j, payload, length, answers.send j⟩

/-- A new client enters the master set and its join notice the array. -/
def State.join (state : State) (newFd : Int) : State :=
  { state with
    masterSet := fdSet newFd state.masterSet
    fdMax := if newFd > state.fdMax then newFd else state.fdMax
    serverMessage := putString state.serverMessage (Notice.joined newFd).text
    kernel := state.kernel.accept newFd }

def State.receive (state : State) (result : RecvResult) : State :=
  { state with buffer := result.store state.buffer }

def State.announce (state : State) (notice : Notice) : State :=
  { state with serverMessage := putString state.serverMessage notice.text }

def State.format (state : State) (notice : Notice) : State :=
  { state with buffer := putString state.buffer notice.text }

def State.drop (state : State) (fd : Int) : State :=
  { state with masterSet := fdClr fd state.masterSet, kernel := state.kernel.close fd }

/-- The branch for the listener. -/
def acceptTurn (state : State) (answers : Answers) : State × List Event :=
  let newFd := answers.accept
  if newFd = -1 then (state, [.accepted newFd])
  else
    let notice := Notice.joined newFd
    let joined := state.join newFd
    (joined,
      [.accepted newFd, .indexed newFd newFd, .copied .serverMessage (notice.text.length + 1),
        .indexed 0 joined.fdMax,
        .broadcast notice (broadcast joined notice joined.serverMessage bufferSize answers)])

def leaveNotice (state : State) (i : Int) (answers : Answers) : State × List Event :=
  let notice := Notice.left i
  let left := state.announce notice
  let payload := cString left.serverMessage
  (left,
    [.copied .serverMessage (notice.text.length + 1), .indexed 0 state.fdMax,
      .broadcast notice (broadcast left notice payload payload.length answers)])

/-- The broadcast of what was received. The number of bytes sent is computed in
`size_t` from the number received. -/
def messageNotice (state : State) (i : Int) (bytesReceived : Nat) (answers : Answers) :
    State × List Event :=
  let message := cString state.buffer
  let notice := Notice.message i message bytesReceived
  let formatted := state.format notice
  let length := (bytesReceived + prependSize) % 2 ^ 64
  (formatted,
    [.copied .message (message.length + 1), .copied .prependString ((prependString i).length + 1),
      .copied .buffer (notice.text.length + 1), .indexed 0 state.fdMax,
      .broadcast notice (broadcast formatted notice (formatted.buffer.take length) length answers)])

/-- The branch for a client. The result of `recv` is stored in a `size_t`, so
the test `<= 0` only sees zero. -/
def recvTurn (state : State) (i : Int) (answers : Answers) : State × List Event :=
  let bytesReceived := sizeT answers.recv.count
  let stored := state.receive answers.recv
  if bytesReceived ≤ 0 then
    let (told, events) :=
      if bytesReceived = 0 then leaveNotice stored i answers else (stored, [])
    (told.drop i, .received i answers.recv :: events ++ [.closed i, .indexed i i])
  else
    let (told, events) := messageNotice stored i bytesReceived answers
    (told, .received i answers.recv :: events)

/-- The body of the scan. -/
def handleFd (state : State) (i : Int) (answers : Answers) : State × List Event :=
  if fdIsSet answers.beyond i state.selectSet then
    if i = state.listener then acceptTurn state answers else recvTurn state i answers
  else (state, [])

/-- One turn of the scan, which goes on to `fd_max + 1`, or its end. -/
def turn (state : State) (i : Int) (answers : Answers) : State × List Event :=
  if i ≤ state.fdMax + 1 then
    let (handled, events) := handleFd state i answers
    ({ handled with pc := .scanning (i + 1) }, .indexed i i :: events)
  else ({ state with pc := .selecting }, [])

def step (state : State) : Input → State × List Event
  | .select reply => selectRound state reply
  | .turn answers =>
      match state.pc with
      | .scanning i => turn state i answers
      | _ => (state, [])

/-- `select` reports watched descriptors. During the scan `accept` returns -1
or a descriptor below `limit` that is not open, and `recv` fails on a
descriptor that is not open. -/
def Admits (limit : Int) (state : State) : Input → Prop
  | .select reply =>
      state.pc = .selecting ∧
        match reply with
        | .ready readable _ => readable ⊆ watched (state.fdMax + 1) state.masterSet
        | _ => True
  | .turn answers =>
      match state.pc with
      | .scanning i =>
          state.kernel.MayAccept answers.accept ∧ answers.accept < limit ∧
            answers.recv.Fits bufferSize ∧ (i ∉ state.kernel.openFds → answers.recv = .error)
      | _ => False

instance (limit : Int) (state : State) : (input : Input) → Decidable (Admits limit state input)
  | .select .failed => inferInstanceAs (Decidable (_ ∧ True))
  | .select .timedOut => inferInstanceAs (Decidable (_ ∧ True))
  | .select (.ready readable _) =>
      inferInstanceAs (Decidable (_ ∧ readable ⊆ watched (state.fdMax + 1) state.masterSet))
  | .turn answers => by
      unfold Admits
      cases state.pc <;> infer_instance

def Initial (limit : Int) (state : State) : Prop :=
  ∃ listener serverMessage openFds, listener ∈ openFds ∧ 0 ≤ listener ∧
    (∀ fd ∈ openFds, fd < limit) ∧ serverMessage.length = bufferSize ∧
    state = startUp listener serverMessage openFds

/-- The server in a process whose descriptors stay below `limit`. -/
def telnetservermain (limit : Int) : System State Input Event where
  initial := Initial limit
  admits := Admits limit
  step := step

instance (limit : Int) (state : State) (input : Input) :
    Decidable ((telnetservermain limit).admits state input) :=
  inferInstanceAs (Decidable (Admits limit state input))

end CBasics.SelectServer
