import CBasics.Kernel

/-! The loop around `send` that is meant to send a whole message. -/

set_option autoImplicit false

namespace CBasics.SendAll

def intMax : Int := 2147483647

/-- One call of `send`. The bytes offered start at this distance from `buffer`. -/
structure Request where
  socketFd : Int
  start : Nat
  size : Nat
  result : Int
  deriving DecidableEq

/-- How the function is left. It is not when `totalSent` overflows, or when the
results of `send` end before the loop does. -/
inductive Ending where
  | returned (value : Int)
  | overflow
  | sending
  deriving DecidableEq

/-- The calls of `send`, and `*length` afterwards. -/
structure Call where
  requests : List Request
  length : Int
  ending : Ending

def Call.after (request : Request) (call : Call) : Call :=
  { call with requests := request :: call.requests }

/-- The two statements behind the loop. -/
def leave (numberSent totalSent : Int) : Call where
  requests := []
  length := totalSent
  ending := .returned (if numberSent = -1 then -1 else 0)

/-- The loop, one result of `send` a turn. `sizeof buffer` is the size of a
pointer, and `buffer` itself never moves. -/
def sendLoop (socketFd : Int) (pointerSize : Nat) (length numberSent totalSent : Int) :
    List Int → Call
  | [] => if totalSent < length then ⟨[], length, .sending⟩ else leave numberSent totalSent
  | result :: later =>
      if totalSent < length then
        let request : Request := ⟨socketFd, 0, pointerSize, result⟩
        if result = -1 then (leave result totalSent).after request
        else if intMax < totalSent + result then ⟨[request], length, .overflow⟩
        else
          (sendLoop socketFd pointerSize length result (totalSent + result) later).after request
      else leave numberSent totalSent

/-- `numberSent` is not initialised: it is whatever the stack holds. -/
def sendAllOfMessage (socketFd : Int) (pointerSize : Nat) (numberSent length : Int)
    (results : List Int) : Call :=
  sendLoop socketFd pointerSize length numberSent 0 results

/-- This many bytes of the memory that `buffer` points to. -/
def bytesAt (buffer : Nat → Byte) (start count : Nat) : List Byte :=
  (List.range count).map fun i => buffer (start + i)

/-- What the socket took of the bytes offered; a failed `send` takes none. -/
def Request.accepted (buffer : Nat → Byte) (request : Request) : List Byte :=
  bytesAt buffer request.start request.result.toNat

def Call.accepted (buffer : Nat → Byte) (call : Call) : List Byte :=
  call.requests.flatMap (Request.accepted buffer)

def Call.Failed (call : Call) : Prop := ∃ request ∈ call.requests, request.result = -1

instance (call : Call) : Decidable call.Failed :=
  inferInstanceAs (Decidable (∃ request ∈ call.requests, request.result = -1))

/-- Every `send` fails or takes at least one of the bytes requested. -/
def ValidResults (pointerSize : Nat) (results : List Int) : Prop :=
  ∀ result ∈ results, result = -1 ∨ 1 ≤ result ∧ result ≤ pointerSize

instance (pointerSize : Nat) (results : List Int) : Decidable (ValidResults pointerSize results) :=
  inferInstanceAs (Decidable (∀ result ∈ results, _))

@[simp] theorem bytesAt_zero (buffer : Nat → Byte) (start : Nat) : bytesAt buffer start 0 = [] :=
  rfl

@[simp] theorem length_bytesAt (buffer : Nat → Byte) (start count : Nat) :
    (bytesAt buffer start count).length = count := by
  simp [bytesAt]

theorem bytesAt_add (buffer : Nat → Byte) (start left right : Nat) :
    bytesAt buffer start (left + right) =
      bytesAt buffer start left ++ bytesAt buffer (start + left) right := by
  simp [bytesAt, List.range_add, Nat.add_assoc]

theorem take_bytesAt (buffer : Nat → Byte) (start : Nat) {count whole : Nat}
    (within : count ≤ whole) :
    (bytesAt buffer start whole).take count = bytesAt buffer start count := by
  obtain ⟨rest, rfl⟩ := Nat.exists_eq_add_of_le within
  rw [bytesAt_add, List.take_left' (length_bytesAt buffer start count)]

section Calls

variable (buffer : Nat → Byte) (request : Request) (call : Call) (numberSent totalSent : Int)

@[simp] theorem length_after : (call.after request).length = call.length := rfl

@[simp] theorem ending_after : (call.after request).ending = call.ending := rfl

@[simp] theorem accepted_after :
    (call.after request).accepted buffer = request.accepted buffer ++ call.accepted buffer := rfl

theorem failed_after : (call.after request).Failed ↔ request.result = -1 ∨ call.Failed := by
  simp [Call.Failed, Call.after]

@[simp] theorem length_leave : (leave numberSent totalSent).length = totalSent := rfl

@[simp] theorem accepted_leave : (leave numberSent totalSent).accepted buffer = [] := rfl

@[simp] theorem not_failed_leave : ¬ (leave numberSent totalSent).Failed := by
  simp [Call.Failed, leave]

end Calls

end CBasics.SendAll
