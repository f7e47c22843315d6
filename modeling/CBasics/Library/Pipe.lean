import Mathlib.Data.List.Infix

/-! Channels of bounded capacity with a number of open ends on each side. What
goes in at one side comes out at the other, in order and once. -/

set_option autoImplicit false

namespace CBasics.Library

structure Pipe (Item : Type) where
  contents : List Item
  readEnds : Nat
  writeEnds : Nat
  deriving DecidableEq

namespace Pipe

variable {Item : Type}

def closeRead (pipe : Pipe Item) : Pipe Item := { pipe with readEnds := pipe.readEnds - 1 }

def closeWrite (pipe : Pipe Item) : Pipe Item := { pipe with writeEnds := pipe.writeEnds - 1 }

def put (pipe : Pipe Item) (items : List Item) : Pipe Item :=
  { pipe with contents := pipe.contents ++ items }

def drop (pipe : Pipe Item) (count : Nat) : Pipe Item :=
  { pipe with contents := pipe.contents.drop count }

/-- A reader waits while there is nothing to read and somebody may still write. -/
def Silent (pipe : Pipe Item) : Prop := pipe.contents = [] ∧ 0 < pipe.writeEnds

instance [DecidableEq Item] (pipe : Pipe Item) : Decidable pipe.Silent :=
  inferInstanceAs (Decidable (_ ∧ _))

/-- What has been put in is what has been taken out and what is still inside. -/
structure Carries (pipe : Pipe Item) (capacity : Nat) (sent received : List Item) : Prop where
  split : sent = received ++ pipe.contents
  bounded : pipe.contents.length ≤ capacity

variable {pipe : Pipe Item} {capacity : Nat} {sent received : List Item}

theorem Carries.put (carries : pipe.Carries capacity sent received) {items : List Item}
    (room : pipe.contents.length + items.length ≤ capacity) :
    (pipe.put items).Carries capacity (sent ++ items) received where
  split := by
    rw [carries.split, List.append_assoc]
    rfl
  bounded := by
    show (pipe.contents ++ items).length ≤ capacity
    rwa [List.length_append]

theorem Carries.drop (carries : pipe.Carries capacity sent received) (count : Nat) :
    (pipe.drop count).Carries capacity sent (received ++ pipe.contents.take count) where
  split := by
    show sent = received ++ pipe.contents.take count ++ pipe.contents.drop count
    rw [List.append_assoc, List.take_append_drop]
    exact carries.split
  bounded := by
    have bounded := carries.bounded
    show (pipe.contents.drop count).length ≤ capacity
    rw [List.length_drop]
    omega

theorem Carries.closeRead (carries : pipe.Carries capacity sent received) :
    pipe.closeRead.Carries capacity sent received :=
  ⟨carries.split, carries.bounded⟩

theorem Carries.closeWrite (carries : pipe.Carries capacity sent received) :
    pipe.closeWrite.Carries capacity sent received :=
  ⟨carries.split, carries.bounded⟩

theorem Carries.eq_of_empty (carries : pipe.Carries capacity sent received)
    (empty : pipe.contents = []) : received = sent := by
  have split := carries.split
  rw [empty, List.append_nil] at split
  exact split.symm

theorem Carries.received_isPrefix (carries : pipe.Carries capacity sent received) :
    received <+: sent :=
  ⟨pipe.contents, carries.split.symm⟩

end Pipe

end CBasics.Library
