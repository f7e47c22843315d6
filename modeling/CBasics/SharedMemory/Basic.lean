import CBasics.Kernel
import CBasics.Library.CString
import CBasics.Library.SharedSegment
import CBasics.Library.System

/-! The parent and the child of `shared_memory` from the `fork`, and all others that use the
segment meanwhile. A step is one system call of one process, with the calls of `printf` up to
its next one, or one access to the memory. -/

set_option autoImplicit false

namespace CBasics.SharedMemory

open Library

def shmSize : Nat := 1024

def childMessage : List Byte := ascii "The child was here"

def childText : List Byte := ascii "Child getting ready to write to shared memory space\n"

def report (contents : List Byte) : List Byte :=
  ascii "Parent has retreived the following the shared memory : " ++ cString contents ++ ascii "\n"

inductive Parent where
  | forking
  | waiting
  | reading
  | removing
  | detaching
  | exited (status : Nat)
  deriving DecidableEq

inductive Child where
  | absent
  | greeting
  | writing
  | removing
  | detaching
  | exited (status : Nat)
  deriving DecidableEq

variable (Name : Type)

/-- Who may have the segment attached; the names are those of all other processes. -/
inductive Holder where
  | parent
  | child
  | other (name : Name)
  deriving DecidableEq

structure State where
  segment : Option (Segment (Holder Name) (List Byte))
  parent : Parent
  child : Child

inductive Who where
  | parent
  | child
  | other
  deriving DecidableEq

inductive Event where
  | said (who : Who) (text : List Byte)
  | wrote (who : Who)
  deriving DecidableEq

inductive Act where
  | attach
  | detach
  | remove
  | write (contents : List Byte)
  deriving DecidableEq

inductive Move where
  | parent (forks : Bool)
  | child
  | other (name : Name) (act : Act)
  deriving DecidableEq

variable {Name} [DecidableEq Name]

/-- The kernel detaches what a process that ends has attached. -/
def State.exitChild (state : State Name) (status : Nat) : State Name :=
  { state with segment := Segment.detach .child state.segment, child := .exited status }

def State.exitParent (state : State Name) (status : Nat) : State Name :=
  { state with segment := Segment.detach .parent state.segment, parent := .exited status }

/-- `shmctl` fails where the segment is gone or belongs to somebody else. -/
def Removable (mayRemove : Bool) (state : State Name) : Prop :=
  mayRemove = true ∧ state.segment.isSome = true

instance (mayRemove : Bool) (state : State Name) : Decidable (Removable mayRemove state) :=
  inferInstanceAs (Decidable (_ ∧ _))

def childCall (mayRemove : Bool) (state : State Name) : State Name × List Event :=
  match state.child with
  | .greeting => ({ state with child := .writing }, [.said .child childText])
  | .writing =>
      ({ state with
          segment := Segment.write (putString · childMessage) state.segment
          child := .removing }, [.wrote .child])
  | .removing =>
      if Removable mayRemove state then
        ({ state with segment := Segment.remove state.segment, child := .detaching }, [])
      else (state.exitChild 1, [])
  | .detaching =>
      if Segment.Attached state.segment .child then (state.exitChild 0, [])
      else (state.exitChild 1, [])
  | .absent | .exited _ => (state, [])

/-- What the parent prints of the memory. -/
def retrieved (segment : Option (Segment (Holder Name) (List Byte))) : List Event :=
  (segment.map fun segment => .said .parent (report segment.contents)).toList

def parentCall (mayRemove : Bool) (state : State Name) (forks : Bool) :
    State Name × List Event :=
  match state.parent with
  | .forking =>
      if forks then
        ({ state with
            segment := Segment.attach .child state.segment
            parent := .waiting
            child := .greeting }, [])
      else (state.exitParent 1, [])
  | .waiting => ({ state with parent := .reading }, [])
  | .reading => ({ state with parent := .removing }, retrieved state.segment)
  | .removing =>
      if Removable mayRemove state then
        ({ state with segment := Segment.remove state.segment, parent := .detaching }, [])
      else (state.exitParent 1, [])
  | .detaching =>
      if Segment.Attached state.segment .parent then (state.exitParent 0, [])
      else (state.exitParent 1, [])
  | .exited _ => (state, [])

def otherCall (state : State Name) (name : Name) : Act → State Name × List Event
  | .attach => ({ state with segment := Segment.attach (.other name) state.segment }, [])
  | .detach => ({ state with segment := Segment.detach (.other name) state.segment }, [])
  | .remove => ({ state with segment := Segment.remove state.segment }, [])
  | .write contents =>
      ({ state with segment := Segment.write (fun _ => contents) state.segment },
        [.wrote .other])

def Child.ready : Child → Prop
  | .absent | .exited _ => False
  | .greeting | .writing | .removing | .detaching => True

instance : (child : Child) → Decidable child.ready
  | .absent | .exited _ => isFalse id
  | .greeting | .writing | .removing | .detaching => isTrue trivial

/-- `wait` returns when the child has ended. -/
def Parent.ready (parent : Parent) (child : Child) : Prop :=
  match parent with
  | .exited _ => False
  | .waiting => ∃ status, child = .exited status
  | .forking | .reading | .removing | .detaching => True

instance (child : Child) : (parent : Parent) → Decidable (parent.ready child)
  | .exited _ => isFalse id
  | .waiting =>
      match child with
      | .exited status => isTrue ⟨status, rfl⟩
      | .absent | .greeting | .writing | .removing | .detaching => isFalse nofun
  | .forking | .reading | .removing | .detaching => isTrue trivial

/-- Others write as much as there is room for. -/
def Admits (state : State Name) : Move Name → Prop
  | .parent _ => state.parent.ready state.child
  | .child => state.child.ready
  | .other _ (.write contents) => shmSize ≤ contents.length
  | .other _ _ => True

instance (state : State Name) : (move : Move Name) → Decidable (Admits state move)
  | .parent _ => inferInstanceAs (Decidable (state.parent.ready state.child))
  | .child => inferInstanceAs (Decidable state.child.ready)
  | .other _ (.write contents) => inferInstanceAs (Decidable (shmSize ≤ contents.length))
  | .other _ .attach | .other _ .detach | .other _ .remove => inferInstanceAs (Decidable True)

/-- The segment has been attached and is as large as asked for; whether somebody has removed it
since and who else has it attached is left open. -/
def Initial (state : State Name) : Prop :=
  Segment.Attached state.segment .parent ∧ ¬ Segment.Attached state.segment .child ∧
    Segment.Keeps (shmSize ≤ ·.length) state.segment ∧
      state.parent = .forking ∧ state.child = .absent

def sharedMemory (mayRemove : Bool) : System (State Name) (Move Name) Event where
  initial := Initial
  admits := Admits
  step state
    | .parent forks => parentCall mayRemove state forks
    | .child => childCall mayRemove state
    | .other name act => otherCall state name act

instance (mayRemove : Bool) (state : State Name) (move : Move Name) :
    Decidable ((sharedMemory mayRemove).admits state move) :=
  inferInstanceAs (Decidable (Admits state move))

end CBasics.SharedMemory
