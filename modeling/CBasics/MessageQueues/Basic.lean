import CBasics.Kernel
import CBasics.Library.CString
import CBasics.Library.MessageQueue
import CBasics.Library.System

/-! The parent and the child of `message_queues` on a queue that may hold messages from
before and that other processes use too. A step is one system call of one process. -/

set_option autoImplicit false

namespace CBasics.MessageQueues

open Library

abbrev Msg := Message (List Byte)

def msgSize : Nat := 1024

/-- The size of the type in front of the text. -/
def typeSize : Nat := 8

/-- `sizeof message` counts the type too, and is used as the size of the text. -/
def sizeofMessage : Nat := typeSize + msgSize

def greeting : List Byte := ascii "child process checking in!\n"

/-- The text of the child and the zeros of a global array. -/
def mtext : List Byte := greeting ++ List.replicate (msgSize - greeting.length) 0

/-- What the child sends; `beyond` are the bytes that lie behind its message. -/
def childMessage (beyond : List Byte) : Msg := ⟨1, mtext ++ beyond⟩

/-- What the parent has in `message.mtext` after a message of this text was stored. -/
def stored (text : List Byte) : List Byte := text ++ List.replicate (msgSize - text.length) 0

def report (mtext : List Byte) : List Byte :=
  ascii "Parent received this message from the child: " ++ cString mtext ++ ascii "\n"

inductive Parent where
  | forking
  | waiting
  | receiving
  | removing
  | exited (status : Nat)
  deriving DecidableEq

inductive Child where
  | absent
  | sending
  | leaving
  | exited
  deriving DecidableEq

/-- The queue is gone once somebody has removed it. -/
structure State where
  queue : Option (List Msg)
  parent : Parent
  child : Child
  deriving DecidableEq

inductive By where
  | parent
  | child
  | other
  deriving DecidableEq

inductive Event where
  | sent (side : By) (message : Msg)
  | received (side : By) (message : Msg)
  | removed (side : By)
  | said (side : By) (text : List Byte)
  deriving DecidableEq

inductive Act where
  | send (message : Msg)
  | receive (msgtyp : Int)
  | remove
  deriving DecidableEq

/-- Who moves; `fork` may fail. -/
inductive Move where
  | parent (succeeds : Bool)
  | child
  | other (act : Act)
  deriving DecidableEq

/-- `msgrcv` fails where the queue is gone or the message is too long, and the parent
prints what it has. -/
def msgrcv (state : State) : State × List Event :=
  let missed := ({ state with parent := .removing }, [.said .parent (report (stored []))])
  match state.queue with
  | none => missed
  | some queue =>
      match Message.receive 1 queue with
      | none => missed
      | some (message, rest) =>
          if message.text.length ≤ sizeofMessage then
            ({ state with queue := some rest, parent := .removing },
              [.received .parent message, .said .parent (report (stored message.text))])
          else missed

def parentCall (state : State) (succeeds : Bool) : State × List Event :=
  match state.parent with
  | .forking =>
      if succeeds then ({ state with parent := .waiting, child := .sending }, [])
      else ({ state with parent := .exited 1 }, [])
  | .waiting => ({ state with parent := .receiving }, [])
  | .receiving => msgrcv state
  | .removing => ({ state with queue := none, parent := .exited 0 }, [.removed .parent])
  | .exited _ => (state, [])

def childCall (beyond : List Byte) (state : State) : State × List Event :=
  match state.child with
  | .sending =>
      let told := .said .child (ascii "Child sent message to queue\n")
      match state.queue with
      | none => ({ state with child := .leaving }, [told])
      | some queue =>
          ({ state with queue := some (queue ++ [childMessage beyond]), child := .leaving },
            [.sent .child (childMessage beyond), told])
  | .leaving => ({ state with child := .exited }, [])
  | .absent => (state, [])
  | .exited => (state, [])

def otherCall (state : State) (act : Act) : State × List Event :=
  match state.queue with
  | none => (state, [])
  | some queue =>
      match act with
      | .send message => ({ state with queue := some (queue ++ [message]) }, [.sent .other message])
      | .receive msgtyp =>
          match Message.receive msgtyp queue with
          | none => (state, [])
          | some (message, rest) =>
              ({ state with queue := some rest }, [.received .other message])
      | .remove => ({ state with queue := none }, [.removed .other])

def bytesIn (queue : List Msg) : Nat := (queue.map (·.text.length)).sum

/-- `msgsnd` waits for room in the queue, whose limit is one on the bytes of its texts
and on the number of its messages alike. -/
def HasRoom (qbytes : Nat) (message : Msg) : Option (List Msg) → Prop
  | none => True
  | some queue => bytesIn queue + message.text.length ≤ qbytes ∧ queue.length + 1 ≤ qbytes

instance (qbytes : Nat) (message : Msg) :
    (queue : Option (List Msg)) → Decidable (HasRoom qbytes message queue)
  | none => isTrue trivial
  | some _ => inferInstanceAs (Decidable (_ ∧ _))

/-- `msgrcv` waits for a message that it can take. -/
def HasMessage (msgtyp : Int) : Option (List Msg) → Prop
  | none => True
  | some queue => Message.receive msgtyp queue ≠ none

instance (msgtyp : Int) : (queue : Option (List Msg)) → Decidable (HasMessage msgtyp queue)
  | none => isTrue trivial
  | some queue => inferInstanceAs (Decidable (Message.receive msgtyp queue ≠ none))

def ParentReady (state : State) : Prop :=
  match state.parent with
  | .forking => True
  | .waiting => state.child = .exited
  | .receiving => HasMessage 1 state.queue
  | .removing => True
  | .exited _ => False

def ChildReady (qbytes : Nat) (beyond : List Byte) (state : State) : Prop :=
  match state.child with
  | .absent => False
  | .sending => HasRoom qbytes (childMessage beyond) state.queue
  | .leaving => True
  | .exited => False

def Admits (qbytes : Nat) (beyond : List Byte) (state : State) : Move → Prop
  | .parent _ => ParentReady state
  | .child => ChildReady qbytes beyond state
  | .other (.send message) => 0 < message.type ∧ HasRoom qbytes message state.queue
  | .other (.receive msgtyp) => HasMessage msgtyp state.queue
  | .other .remove => True

/-- `msgget` has found or made a queue with the messages `old`. -/
def messageQueues (old : List Msg) (qbytes : Nat) (beyond : List Byte) :
    System State Move Event where
  initial state := state = ⟨some old, .forking, .absent⟩
  admits := Admits qbytes beyond
  step state
    | .parent succeeds => parentCall state succeeds
    | .child => childCall beyond state
    | .other act => otherCall state act

end CBasics.MessageQueues
