import Mathlib.Data.Finset.Erase
import Mathlib.Data.Finset.Insert

/-! The part of the kernel that the socket programs talk to: the descriptors
open in the process, and what the calls on a stream socket may answer. -/

set_option autoImplicit false

namespace CBasics

abbrev Byte := UInt8

def pollin : BitVec 16 := 0x001

/-- What `recv` returns: -1, or the bytes it stored, none at end of stream. -/
inductive RecvResult where
  | error
  | bytes (received : List Byte)
  deriving DecidableEq

namespace RecvResult

def count : RecvResult → Int
  | .error => -1
  | .bytes received => received.length

/-- The caller's buffer afterwards; an error leaves it as it was. -/
def store (buffer : List Byte) : RecvResult → List Byte
  | .error => buffer
  | .bytes received => received ++ buffer.drop received.length

def Fits (capacity : Nat) : RecvResult → Prop
  | .error => True
  | .bytes received => received.length ≤ capacity

instance (capacity : Nat) : (result : RecvResult) → Decidable (result.Fits capacity)
  | .error => inferInstanceAs (Decidable True)
  | .bytes received => inferInstanceAs (Decidable (received.length ≤ capacity))

theorem length_store {buffer : List Byte} {result : RecvResult}
    (fits : result.Fits buffer.length) : (result.store buffer).length = buffer.length := by
  cases result with
  | error => rfl
  | bytes received =>
      have bound : received.length ≤ buffer.length := fits
      simp only [store, List.length_append, List.length_drop]
      omega

theorem take_store (buffer received : List Byte) :
    ((bytes received).store buffer).take received.length = received := by
  simp [store]

end RecvResult

/-- The descriptors open in the process. `clients` records which of them a
server got from `accept` and has not closed. -/
structure Kernel where
  openFds : Finset Int
  clients : Finset Int

namespace Kernel

def accept (kernel : Kernel) (fd : Int) : Kernel :=
  { openFds := insert fd kernel.openFds, clients := insert fd kernel.clients }

def close (kernel : Kernel) (fd : Int) : Kernel :=
  { openFds := kernel.openFds.erase fd, clients := kernel.clients.erase fd }

/-- `accept` returns -1 or a descriptor that is not open. -/
def MayAccept (kernel : Kernel) (result : Int) : Prop :=
  result = -1 ∨ 0 ≤ result ∧ result ∉ kernel.openFds

instance (kernel : Kernel) (result : Int) : Decidable (kernel.MayAccept result) :=
  inferInstanceAs (Decidable (_ ∨ _))

/-- The listener and the clients are open descriptors, and different ones. -/
structure Serves (kernel : Kernel) (listener : Int) : Prop where
  listenerOpen : listener ∈ kernel.openFds
  clientsOpen : kernel.clients ⊆ kernel.openFds
  listenerNotClient : listener ∉ kernel.clients
  clientsNonneg : ∀ fd ∈ kernel.clients, 0 ≤ fd

section Served

variable {kernel : Kernel} {listener fd : Int}

theorem Serves.served_open (serves : kernel.Serves listener)
    (served : fd = listener ∨ fd ∈ kernel.clients) : fd ∈ kernel.openFds := by
  cases served with
  | inl isListener =>
      rw [isListener]
      exact serves.listenerOpen
  | inr isClient => exact serves.clientsOpen isClient

theorem Serves.served_nonneg (serves : kernel.Serves listener) (nonneg : 0 ≤ listener)
    (served : fd = listener ∨ fd ∈ kernel.clients) : 0 ≤ fd := by
  cases served with
  | inl isListener => rwa [isListener]
  | inr isClient => exact serves.clientsNonneg fd isClient

end Served

theorem Serves.accept {kernel : Kernel} {listener fd : Int} (serves : kernel.Serves listener)
    (fresh : fd ∉ kernel.openFds) (nonneg : 0 ≤ fd) : (kernel.accept fd).Serves listener where
  listenerOpen := Finset.mem_insert_of_mem serves.listenerOpen
  clientsOpen := Finset.insert_subset_insert fd serves.clientsOpen
  listenerNotClient := by
    have other : listener ≠ fd := fun same => fresh (same ▸ serves.listenerOpen)
    simp [Kernel.accept, other, serves.listenerNotClient]
  clientsNonneg := by
    intro client member
    rcases Finset.mem_insert.mp member with rfl | old
    · exact nonneg
    · exact serves.clientsNonneg client old

theorem Serves.close {kernel : Kernel} {listener fd : Int} (serves : kernel.Serves listener)
    (other : fd ≠ listener) : (kernel.close fd).Serves listener where
  listenerOpen := Finset.mem_erase.mpr ⟨other.symm, serves.listenerOpen⟩
  clientsOpen := Finset.erase_subset_erase fd serves.clientsOpen
  listenerNotClient := fun member => serves.listenerNotClient (Finset.mem_of_mem_erase member)
  clientsNonneg := fun client member => serves.clientsNonneg client (Finset.mem_of_mem_erase member)

end Kernel

/-- One call of `send`: the descriptor, the bytes of the caller's buffer within
the length argument, that argument, and the result. -/
structure SendCall where
  fd : Int
  payload : List Byte
  length : Nat
  result : Int
  deriving DecidableEq

def SendCall.addressed (call : SendCall) : Int × List Byte := (call.fd, call.payload)

@[simp] theorem SendCall.map_addressed_fst (calls : List SendCall) :
    (calls.map SendCall.addressed).map Prod.fst = calls.map SendCall.fd := by
  simp [SendCall.addressed, Function.comp_def]

theorem SendCall.map_payload_filter (calls : List SendCall) (fd : Int) :
    (calls.filter fun call => call.fd = fd).map SendCall.payload =
      ((calls.map SendCall.addressed).filter fun send => send.1 = fd).map Prod.snd := by
  rw [List.filter_map, List.map_map]
  rfl

/-- A send on a broken connection, which the peer has closed and then reset, raises
`SIGPIPE`, and the program that neither handles it nor asks for `MSG_NOSIGNAL` dies
in the call: these are the calls of a loop that are made. -/
def SendCall.made (broken : Int → Bool) : List SendCall → List SendCall
  | [] => []
  | call :: rest => if broken call.fd then [call] else call :: made broken rest

/-- Some call is on a broken connection. -/
def SendCall.Raises (broken : Int → Bool) (calls : List SendCall) : Prop :=
  ∃ call ∈ calls, broken call.fd = true

instance (broken : Int → Bool) (calls : List SendCall) :
    Decidable (SendCall.Raises broken calls) :=
  inferInstanceAs (Decidable (∃ call ∈ calls, _))

theorem SendCall.made_eq {broken : Int → Bool} {calls : List SendCall}
    (spared : ¬ Raises broken calls) : made broken calls = calls := by
  induction calls with
  | nil => rfl
  | cons call rest ih =>
      have whole : ¬ broken call.fd = true := fun isBroken =>
        spared ⟨call, List.mem_cons_self, isBroken⟩
      rw [made, if_neg whole, ih]
      rintro ⟨later, member, isBroken⟩
      exact spared ⟨later, List.mem_cons_of_mem call member, isBroken⟩

theorem SendCall.made_isPrefix (broken : Int → Bool) (calls : List SendCall) :
    made broken calls <+: calls := by
  induction calls with
  | nil => exact List.nil_prefix
  | cons call rest ih =>
      unfold made
      split
      · exact List.prefix_cons_iff.mpr (.inr ⟨[], rfl, List.nil_prefix⟩)
      · exact List.prefix_cons_iff.mpr (.inr ⟨_, rfl, ih⟩)

/-- The inputs, and that of all connections these ones are broken throughout. -/
def brokenAt {Input : Type} (fds : List Int) (inputs : List Input) :
    List (Input × (Int → Bool)) :=
  inputs.map fun input => (input, fun fd => decide (fd ∈ fds))

end CBasics
