import CBasics.SocketSetup.Basic
import Mathlib.Data.List.Basic

/-! The loops that try one address after the other, close what did not work and
keep the first that did. -/

set_option autoImplicit false

namespace CBasics.SocketSetup

section KeepsFirst

variable {Entry : Type} {works : Entry → Bool} {made : Entry → Int}
  {used : Sockets → Finset Int} {entry : Entry} {rest : List Entry} {sockets : Sockets}
  {left : Left}

/-- The loop has left with the descriptor of the first entry that works, put to
use and alone open, and has tried no later entry; or it has come to the end. -/
structure KeepsFirst (works : Entry → Bool) (made : Entry → Int) (used : Sockets → Finset Int)
    (entries : List Entry) (sockets : Sockets) (left : Left) : Prop where
  none : entries.find? works = none →
    left.ending = .exhausted ∧ left.sockets.openFds = sockets.openFds
  first : ∀ first, entries.find? works = some first →
    left.ending = .broke (made first) ∧
      left.sockets.openFds = insert (made first) sockets.openFds ∧
      made first ∈ used left.sockets ∧ left.tried = entries.findIdx works + 1

theorem keepsFirst_nil :
    KeepsFirst works made used [] sockets ⟨.exhausted, sockets, 0, []⟩ where
  none := fun _ => ⟨rfl, rfl⟩
  first := fun first found => by simp at found

/-- An entry that does not work is passed over, if it leaves nothing open. -/
theorem KeepsFirst.after {between : Sockets} (keeps : KeepsFirst works made used rest between left)
    (fails : works entry = false) (same : between.openFds = sockets.openFds)
    (errors : List String) :
    KeepsFirst works made used (entry :: rest) sockets (left.after errors) where
  none found := by
    rw [List.find?_cons, fails] at found
    rw [← same]
    exact keeps.none found
  first first found := by
    rw [List.find?_cons, fails] at found
    obtain ⟨ending, openFds, inUse, tried⟩ := keeps.first first found
    refine ⟨ending, by rw [← same]; exact openFds, inUse, ?_⟩
    rw [List.findIdx_cons, fails]
    exact congrArg (· + 1) tried

theorem keepsFirst_broke (holds : works entry = true)
    (ending : left.ending = .broke (made entry))
    (openFds : left.sockets.openFds = insert (made entry) sockets.openFds)
    (inUse : made entry ∈ used left.sockets) (tried : left.tried = 1) :
    KeepsFirst works made used (entry :: rest) sockets left where
  none found := by simp [holds] at found
  first first found := by
    rw [List.find?_cons, holds] at found
    obtain rfl : entry = first := Option.some.inj found
    exact ⟨ending, openFds, inUse, by rw [List.findIdx_cons, holds, tried]; rfl⟩

end KeepsFirst

def ClientEntry.opens (entry : ClientEntry) : Bool := entry.socket != -1

def ClientEntry.works (entry : ClientEntry) : Bool := entry.opens && entry.connect != -1

theorem main2Loop_keepsFirst {entries : List ClientEntry} {sockets : Sockets}
    (mayOpen : ∀ entry ∈ entries, sockets.MayOpen entry.socket) :
    KeepsFirst ClientEntry.works ClientEntry.socket Sockets.connected entries sockets
      (main2Loop entries sockets) := by
  induction entries generalizing sockets with
  | nil => exact keepsFirst_nil
  | cons entry rest ih =>
      obtain ⟨mayOpenHere, mayOpenLater⟩ := List.forall_mem_cons.mp mayOpen
      rw [main2Loop]
      by_cases failed : entry.socket = -1
      · rw [if_pos failed]
        exact (ih mayOpenLater).after (by simp [ClientEntry.works, ClientEntry.opens, failed]) rfl _
      · rw [if_neg failed]
        by_cases refused : entry.connect = -1
        · rw [if_pos refused]
          exact (ih (mayOpenHere.again failed mayOpenLater)).after
            (by simp [ClientEntry.works, refused])
            (Sockets.openFds_close_socket (mayOpenHere.new failed)) _
        · rw [if_neg refused]
          refine keepsFirst_broke ?_ rfl rfl (Finset.mem_insert_self _ _) rfl
          simp [ClientEntry.works, ClientEntry.opens, failed, refused]

def ListenerEntry.works (entry : ListenerEntry) : Bool :=
  decide (0 ≤ entry.socket) && decide (0 ≤ entry.bind)

theorem ListenerEntry.works_eq_true (entry : ListenerEntry) (made : ¬ entry.socket < 0)
    (bound : ¬ entry.bind < 0) : entry.works = true := by
  simp only [works, Bool.and_eq_true, decide_eq_true_eq]
  omega

/-- With the option set on every socket, the loop of the select server never
ends the process. -/
theorem listenerFdLoop_keepsFirst {entries : List ListenerEntry} {sockets : Sockets}
    (mayOpen : ∀ entry ∈ entries, sockets.MayOpen entry.socket)
    (optionSet : ∀ entry ∈ entries, entry.setsockopt = 0) :
    KeepsFirst ListenerEntry.works ListenerEntry.socket Sockets.bound entries sockets
      (listenerFdLoop entries sockets) := by
  induction entries generalizing sockets with
  | nil => exact keepsFirst_nil
  | cons entry rest ih =>
      obtain ⟨mayOpenHere, mayOpenLater⟩ := List.forall_mem_cons.mp mayOpen
      obtain ⟨optionHere, optionLater⟩ := List.forall_mem_cons.mp optionSet
      rw [listenerFdLoop]
      by_cases failed : entry.socket < 0
      · rw [if_pos failed]
        exact (ih mayOpenLater optionLater).after (by simp [ListenerEntry.works, failed]) rfl _
      · have made : entry.socket ≠ -1 := by omega
        rw [if_neg failed]
        simp only [optionHere, ne_eq, not_true_eq_false, if_false]
        by_cases refused : entry.bind < 0
        · rw [if_pos refused]
          exact (ih (mayOpenHere.again made mayOpenLater) optionLater).after
            (by simp [ListenerEntry.works, refused])
            (Sockets.openFds_close_socket (mayOpenHere.new made)) _
        · rw [if_neg refused]
          exact keepsFirst_broke (entry.works_eq_true failed refused) rfl rfl
            (Finset.mem_insert_self _ _) rfl

theorem listenerLoop_keepsFirst {entries : List ListenerEntry} {sockets : Sockets}
    (mayOpen : ∀ entry ∈ entries, sockets.MayOpen entry.socket) :
    KeepsFirst ListenerEntry.works ListenerEntry.socket Sockets.bound entries sockets
      (listenerLoop entries sockets) := by
  induction entries generalizing sockets with
  | nil => exact keepsFirst_nil
  | cons entry rest ih =>
      obtain ⟨mayOpenHere, mayOpenLater⟩ := List.forall_mem_cons.mp mayOpen
      rw [listenerLoop]
      by_cases failed : entry.socket < 0
      · rw [if_pos failed]
        exact (ih mayOpenLater).after (by simp [ListenerEntry.works, failed]) rfl _
      · have made : entry.socket ≠ -1 := by omega
        rw [if_neg failed]
        by_cases refused : entry.bind < 0
        · rw [if_pos refused]
          exact (ih (mayOpenHere.again made mayOpenLater)).after
            (by simp [ListenerEntry.works, refused])
            (Sockets.openFds_close_socket (mayOpenHere.new made)) _
        · rw [if_neg refused]
          exact keepsFirst_broke (entry.works_eq_true failed refused) rfl rfl
            (Finset.mem_insert_self _ _) rfl

end CBasics.SocketSetup
