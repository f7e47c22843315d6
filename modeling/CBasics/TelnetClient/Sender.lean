import CBasics.Library.Lines
import CBasics.Library.System
import CBasics.TelnetClient.Basic

/-! The loop of `telnetClient` that sends what is typed. One step is one turn; what
`send` returns comes in as the input of the step. -/

set_option autoImplicit false

namespace CBasics.TelnetClient

open Library

/-- The loop's state: the standard input left, the socket, and whether the
process still runs. -/
structure Sender where
  sockFd : Int
  stdin : List Byte
  running : Bool

inductive SenderEvent where
  | called (call : SendCall)
  | exited (success : Bool)
  deriving DecidableEq

/-- `memset` and `fgets`. -/
def Sender.read (sender : Sender) : List Byte × List Byte :=
  fgets (List.replicate maxBytes 0) sender.stdin

/-- One turn: the terminator is stored where the string ends already, and `send`
is asked once for the whole string. -/
def sendTurn (sender : Sender) (result : Int) : Sender × List SenderEvent :=
  let (line, stdin) := sender.read
  let len := (cString line).length
  let buf := line.set len 0
  let length := (cString buf).length
  let call : SendCall := ⟨sender.sockFd, buf.take length, length, result⟩
  if result < 0 then
    ({ sender with stdin := stdin, running := false }, [.called call, .exited false])
  else ({ sender with stdin := stdin }, [.called call])

/-- `send` fails, or takes at most the bytes it is offered. -/
def Sender.Admits (sender : Sender) (result : Int) : Prop :=
  sender.running ∧
    (result = -1 ∨ 0 ≤ result ∧ result ≤ (cString sender.read.1).length)

instance (sender : Sender) (result : Int) : Decidable (sender.Admits result) :=
  inferInstanceAs (Decidable (_ ∧ _))

/-- The loop on a socket and a standard input of this text. -/
def telnetClient (sockFd : Int) (text : List Byte) : System Sender Int SenderEvent where
  initial sender := sender = ⟨sockFd, text, true⟩
  admits := Sender.Admits
  step := sendTurn

instance (sockFd : Int) (text : List Byte) (sender : Sender) (result : Int) :
    Decidable ((telnetClient sockFd text).admits sender result) :=
  inferInstanceAs (Decidable (sender.Admits result))

def SenderEvent.call? : SenderEvent → Option SendCall
  | .called call => some call
  | .exited _ => none

def calls (trace : List SenderEvent) : List SendCall := trace.filterMap SenderEvent.call?

/-- What the socket took of a call; a failed one takes nothing. -/
def accepted (call : SendCall) : List Byte := call.payload.take call.result.toNat

/-- All that the socket took, in order. -/
def transmitted (trace : List SenderEvent) : List Byte := (calls trace).flatMap accepted

/-- A call that the socket took whole. -/
def Whole (call : SendCall) : Prop := call.result.toNat = call.length

instance (call : SendCall) : Decidable (Whole call) := inferInstanceAs (Decidable (_ = _))

theorem calls_append (left right : List SenderEvent) :
    calls (left ++ right) = calls left ++ calls right := List.filterMap_append

/-- The part of the standard input that one turn takes. -/
def Sender.piece (sender : Sender) : List Byte := takeLine (maxBytes - 1) sender.stdin

theorem Sender.cString_read (sender : Sender) :
    cString sender.read.1 = cString sender.piece := (fgets_zeros maxBytes sender.stdin).1

theorem Sender.stdin_eq (sender : Sender) : sender.stdin = sender.piece ++ sender.read.2 :=
  (fgets_zeros maxBytes sender.stdin).2

/-- The call of `send` that a turn makes. -/
def Sender.call (sender : Sender) (result : Int) : SendCall :=
  ⟨sender.sockFd, cString sender.piece, (cString sender.piece).length, result⟩

theorem cString_set_terminator (line : List Byte) :
    cString (line.set (cString line).length 0) = cString line := by
  cases Nat.lt_or_ge (cString line).length line.length with
  | inl inside =>
      have front := take_length_cString line
      have noNul : 0 ∉ line.take (cString line).length := front.symm ▸ zero_notMem_cString line
      rw [cString_set_zero inside noNul, front]
  | inr beyond => rw [List.set_eq_of_length_le beyond]

theorem take_set_terminator (line : List Byte) :
    (line.set (cString line).length 0).take (cString line).length = cString line := by
  have front := take_length_cString (line.set (cString line).length 0)
  rwa [cString_set_terminator] at front

theorem sendTurn_eq (sender : Sender) (result : Int) :
    sendTurn sender result =
      if result < 0 then
        ({ sender with stdin := sender.read.2, running := false },
          [.called (sender.call result), .exited false])
      else ({ sender with stdin := sender.read.2 }, [.called (sender.call result)]) := by
  unfold sendTurn
  dsimp only
  rw [cString_set_terminator, take_set_terminator, sender.cString_read]
  rfl

/-- The call offers a piece of the input, up to its first NUL. -/
structure Offers (call : SendCall) (piece : List Byte) : Prop where
  payload : call.payload = cString piece
  length : call.length = call.payload.length
  taken : call.result.toNat ≤ call.length

theorem Offers.accepted_isPrefix {call : SendCall} {piece : List Byte}
    (offers : Offers call piece) : accepted call <+: piece := by
  rw [accepted, offers.payload]
  exact (List.take_prefix _ _).trans (cString_isPrefix piece)

/-- The socket takes the whole piece if and only if `send` is not cut short and
the piece has no NUL. -/
theorem Offers.accepted_eq_iff {call : SendCall} {piece : List Byte} (offers : Offers call piece) :
    accepted call = piece ↔ Whole call ∧ 0 ∉ piece := by
  obtain ⟨payload, length, taken⟩ := offers
  constructor
  · intro same
    have noNul : 0 ∉ piece := by
      rw [← same, accepted, payload]
      exact fun member => zero_notMem_cString piece (List.mem_of_mem_take member)
    have size := congrArg List.length same
    rw [accepted, payload, cString_eq_self noNul, List.length_take] at size
    rw [payload, cString_eq_self noNul] at length
    have whole : call.result.toNat = call.length := by omega
    exact ⟨whole, noNul⟩
  · rintro ⟨whole, noNul⟩
    have result : call.result.toNat = call.length := whole
    rw [accepted, result, length, List.take_length, payload, cString_eq_self noNul]

end CBasics.TelnetClient
