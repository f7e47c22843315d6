import CBasics.Kernel
import CBasics.Library.ByteOrder
import CBasics.Library.System

/-! The watch on a file: events are read into a buffer of 4096 bytes, and a walk
over the buffer prints a message for each. -/

set_option autoImplicit false

namespace CBasics.FileEvents

open Library

def inAccess : BitVec 32 := 0x1

def inModify : BitVec 32 := 0x2

def inCloseWrite : BitVec 32 := 0x8

def inCreate : BitVec 32 := 0x100

def inDelete : BitVec 32 := 0x200

def inMoveSelf : BitVec 32 := 0x800

def watchMask : BitVec 32 :=
  inCreate ||| inDelete ||| inAccess ||| inCloseWrite ||| inModify ||| inMoveSelf

/-- `sizeof(struct inotify_event)`: four words, and then comes the name. -/
def headerSize : Nat := 16

def bufferSize : Nat := 4096

/-- An event as the kernel hands it out. -/
structure Record where
  wd : BitVec 32
  mask : BitVec 32
  cookie : BitVec 32
  name : List Byte
  nameFits : name.length < 2 ^ 32

def Record.len (record : Record) : BitVec 32 := .ofNat 32 record.name.length

def Record.bytes (order : ByteOrder) (record : Record) : List Byte :=
  order.storeWord record.wd ++ order.storeWord record.mask ++ order.storeWord record.cookie ++
    order.storeWord record.len ++ record.name

def layout (order : ByteOrder) (records : List Record) : List Byte :=
  records.flatMap (Record.bytes order)

/-- `notificationMessage` after the six tests; the last one that holds counts. -/
def notify (mask : BitVec 32) (message : Option String) : Option String :=
  let message := if mask &&& inCreate ≠ 0 then some "File created\n" else message
  let message := if mask &&& inDelete ≠ 0 then some "File deleted\n" else message
  let message := if mask &&& inAccess ≠ 0 then some "File accessed\n" else message
  let message := if mask &&& inCloseWrite ≠ 0 then some "File writen and closed\n" else message
  let message := if mask &&& inModify ≠ 0 then some "File modified\n" else message
  if mask &&& inMoveSelf ≠ 0 then some "File moved\n" else message

/-- A turn of the walk: where the event was taken to be, what was read of it,
and the text that was printed, if any. -/
structure Visit where
  offset : Nat
  mask : BitVec 32
  len : BitVec 32
  printed : Option String
  deriving DecidableEq

/-- The turns of a walk, where it stopped, and the message it leaves. -/
structure Walk where
  visits : List Visit
  stop : Nat
  message : Option String

def Walk.after (visit : Visit) (walk : Walk) : Walk := { walk with visits := visit :: walk.visits }

def maskAt (order : ByteOrder) (memory : Nat → Byte) (offset : Nat) : BitVec 32 :=
  order.loadWord (read memory (offset + 4) 4)

def lenAt (order : ByteOrder) (memory : Nat → Byte) (offset : Nat) : BitVec 32 :=
  order.loadWord (read memory (offset + 12) 4)

/-- The loop over the buffer. `continue` goes to its third clause as well. -/
def walk (order : ByteOrder) (memory : Nat → Byte) (readLength offset : Nat)
    (notificationMessage : Option String) : Walk :=
  if offset < readLength then
    let watchEventMask := maskAt order memory offset
    let watchEventLen := lenAt order memory offset
    let notificationMessage := notify watchEventMask notificationMessage
    let printed :=
      match notificationMessage with
      | none => none
      | some text => some (text ++ "\n")
    (walk order memory readLength (offset + (headerSize + watchEventLen.toNat))
      notificationMessage).after ⟨offset, watchEventMask, watchEventLen, printed⟩
  else ⟨[], offset, notificationMessage⟩
termination_by readLength - offset
decreasing_by
  simp only [headerSize]
  omega

inductive Pc where
  | reading
  | exited
  deriving DecidableEq

/-- `notificationMessage` is declared without a value: it starts as a null
pointer or as a pointer to anything. -/
structure State where
  pc : Pc
  buffer : Nat → Byte
  notificationMessage : Option String

/-- What `read` answers: -1, or whole events that fit the buffer. -/
inductive Input where
  | failed
  | events (records : List Record)

def Admits (order : ByteOrder) (state : State) : Input → Prop
  | .failed => state.pc = .reading
  | .events records => state.pc = .reading ∧ (layout order records).length ≤ bufferSize

def step (order : ByteOrder) (state : State) : Input → State × List Visit
  | .failed => ({ state with pc := .exited }, [])
  | .events records =>
      let buffer := copyIn (layout order records) state.buffer
      let walked := walk order buffer (layout order records).length 0 state.notificationMessage
      ({ state with buffer := buffer, notificationMessage := walked.message }, walked.visits)

def unixFileEventWatching (order : ByteOrder) : System State Input Visit where
  initial := fun state => state.pc = .reading
  admits := Admits order
  step := step order

end CBasics.FileEvents
