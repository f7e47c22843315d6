import CBasics.Kernel
import Mathlib.Data.List.Basic

/-! The sending loop of the file transfer client. -/

set_option autoImplicit false

namespace CBasics.FileTransfer

/-- `BUFFSIZE`, the same in the client and the server. -/
def buffSize : Nat := 4096

/-- How the client stops: by `exit` with either status, or it does not, because
the schedule of `send` results ends before the loop does. -/
inductive Exit where
  | success
  | failure
  | blocked
  deriving DecidableEq

structure Transfer where
  accepted : List Byte
  byteTotal : Nat
  exit : Exit

/-- `fread` a block; the loop goes on unless the file has ended or the total has
reached `st_size`. -/
def nextBlock (stSize : Nat) (file : List Byte) (byteTotal : Nat) : Option (List Byte) :=
  let buffer := file.take buffSize
  if buffer.length > 0 then
    if byteTotal = stSize then none else some buffer
  else none

/-- The loop of `main2` over the rest of the file: `send` each block once, and
count what was read. -/
def sendLoop (stSize : Nat) (file : List Byte) (byteTotal : Nat) : List Int → Transfer
  | [] =>
      match nextBlock stSize file byteTotal with
      | none => ⟨[], byteTotal, .success⟩
      | some _ => ⟨[], byteTotal, .blocked⟩
  | bytesSent :: later =>
      match nextBlock stSize file byteTotal with
      | none => ⟨[], byteTotal, .success⟩
      | some buffer =>
          if bytesSent = -1 then ⟨[], byteTotal, .failure⟩
          else
            let rest := sendLoop stSize (file.drop buffSize) (byteTotal + buffer.length) later
            { rest with accepted := buffer.take bytesSent.toNat ++ rest.accepted }

/-- `main2` on a file of this content, from `stat` to its exit. -/
def main2 (content : List Byte) (sends : List Int) : Transfer :=
  sendLoop content.length content 0 sends

/-- The sizes of the blocks that `fread` returns for a file of this length. -/
def requested (length : Nat) : List Int :=
  List.replicate (length / buffSize) (buffSize : Int) ++
    if length % buffSize = 0 then [] else [((length % buffSize : Nat) : Int)]

def ValidSends (length : Nat) (sends : List Int) : Prop :=
  ∀ pair ∈ (requested length).zip sends, pair.2 = -1 ∨ 1 ≤ pair.2 ∧ pair.2 ≤ pair.1

instance (length : Nat) (sends : List Int) : Decidable (ValidSends length sends) :=
  inferInstanceAs (Decidable (∀ pair ∈ _, _))

def Aborts (length : Nat) (sends : List Int) : Prop :=
  sends.length < (requested length).length ∨ -1 ∈ sends.take (requested length).length

instance (length : Nat) (sends : List Int) : Decidable (Aborts length sends) :=
  inferInstanceAs (Decidable (_ ∨ _))

def AllTaken (length : Nat) (sends : List Int) : Prop := requested length <+: sends

instance (length : Nat) (sends : List Int) : Decidable (AllTaken length sends) :=
  inferInstanceAs (Decidable (_ <+: _))

theorem requested_zero : requested 0 = [] := rfl

theorem requested_pos {length : Nat} (positive : 0 < length) :
    requested length = ((min buffSize length : Nat) : Int) :: requested (length - buffSize) := by
  have size : 0 < buffSize := by decide
  unfold requested
  by_cases full : buffSize ≤ length
  · rw [Nat.div_eq_sub_div size full, Nat.mod_eq_sub_mod full, List.replicate_succ,
      Nat.min_eq_left full, List.cons_append]
  · have short := Nat.lt_of_not_le full
    have le := Nat.le_of_lt short
    rw [Nat.div_eq_of_lt short, Nat.mod_eq_of_lt short, Nat.min_eq_right le,
      Nat.sub_eq_zero_of_le le, Nat.zero_div, Nat.zero_mod, if_neg (Nat.ne_of_gt positive)]
    simp

theorem aborts_zero (sends : List Int) : ¬ Aborts 0 sends := by
  rw [Aborts, requested_zero]
  simp

theorem aborts_nil {length : Nat} (positive : 0 < length) : Aborts length [] := by
  left
  rw [requested_pos positive, List.length_nil, List.length_cons]
  exact Nat.succ_pos (requested (length - buffSize)).length

theorem aborts_cons {length : Nat} (positive : 0 < length) (bytesSent : Int) (later : List Int) :
    Aborts length (bytesSent :: later) ↔ bytesSent = -1 ∨ Aborts (length - buffSize) later := by
  have swap : -1 = bytesSent ↔ bytesSent = -1 := eq_comm
  rw [Aborts, Aborts, requested_pos positive, List.length_cons, List.length_cons,
    Nat.add_lt_add_iff_right, List.take_succ_cons, List.mem_cons, swap]
  exact or_left_comm

theorem allTaken_cons {length : Nat} (positive : 0 < length) (bytesSent : Int)
    (later : List Int) :
    AllTaken length (bytesSent :: later) ↔
      bytesSent = (min buffSize length : Nat) ∧ AllTaken (length - buffSize) later := by
  rw [AllTaken, requested_pos positive, List.cons_prefix_cons, eq_comm]
  rfl

theorem validSends_cons {length : Nat} (positive : 0 < length) {bytesSent : Int}
    {later : List Int} (valid : ValidSends length (bytesSent :: later)) :
    (bytesSent = -1 ∨ 1 ≤ bytesSent ∧ bytesSent ≤ (min buffSize length : Nat)) ∧
      ValidSends (length - buffSize) later := by
  rw [ValidSends, requested_pos positive, List.zip_cons_cons] at valid
  exact List.forall_mem_cons.mp valid

theorem nextBlock_eq {stSize byteTotal : Nat} {file : List Byte}
    (counted : byteTotal + file.length = stSize) :
    nextBlock stSize file byteTotal = if file = [] then none else some (file.take buffSize) := by
  cases file with
  | nil => rfl
  | cons byte rest =>
      have size : buffSize = 4096 := rfl
      have some : ((byte :: rest).take buffSize).length > 0 := by
        rw [List.length_take, List.length_cons]
        omega
      have before : byteTotal ≠ stSize := by
        rw [List.length_cons] at counted
        omega
      rw [nextBlock, if_pos some, if_neg before, if_neg (List.cons_ne_nil _ _)]

section Loop

variable {stSize byteTotal : Nat} {file : List Byte}

/-- The client exits successfully unless a send it needs fails or is missing. -/
theorem sendLoop_exit (counted : byteTotal + file.length = stSize) (sends : List Int) :
    (sendLoop stSize file byteTotal sends).exit = .success ↔ ¬ Aborts file.length sends := by
  induction sends generalizing file byteTotal with
  | nil =>
      unfold sendLoop
      rw [nextBlock_eq counted]
      by_cases done : file = []
      · simp [done, aborts_zero]
      · have positive := List.length_pos_of_ne_nil done
        simp [done, aborts_nil positive]
  | cons bytesSent later ih =>
      unfold sendLoop
      rw [nextBlock_eq counted]
      by_cases done : file = []
      · simp [done, aborts_zero]
      · have positive := List.length_pos_of_ne_nil done
        rw [aborts_cons positive, if_neg done]
        by_cases failed : bytesSent = -1
        · simp [failed]
        · have recounted : byteTotal + (file.take buffSize).length +
              (file.drop buffSize).length = stSize := by
            rw [List.length_take, List.length_drop]
            omega
          have next := ih recounted
          rw [List.length_drop] at next
          simp only [failed, false_or, if_false]
          exact next

theorem take_append_eq_iff {block tail accepted : List Byte} {count : Nat}
    (bound : accepted.length ≤ tail.length) :
    block.take count ++ accepted = block ++ tail ↔ block.length ≤ count ∧ accepted = tail := by
  constructor
  · intro same
    have lengths := congrArg List.length same
    simp only [List.length_append, List.length_take] at lengths
    have whole : block.length ≤ count := by omega
    rw [List.take_of_length_le whole] at same
    exact ⟨whole, List.append_cancel_left same⟩
  · rintro ⟨whole, rfl⟩
    rw [List.take_of_length_le whole]

theorem sendLoop_accepted (counted : byteTotal + file.length = stSize) {sends : List Int}
    (valid : ValidSends file.length sends) :
    (sendLoop stSize file byteTotal sends).accepted.length ≤ file.length ∧
      ((sendLoop stSize file byteTotal sends).exit = .success →
        ((sendLoop stSize file byteTotal sends).accepted = file ↔ AllTaken file.length sends)) := by
  induction sends generalizing file byteTotal with
  | nil =>
      unfold sendLoop
      rw [nextBlock_eq counted]
      by_cases done : file = []
      · subst done
        simp [AllTaken, requested_zero]
      · simp [done]
  | cons bytesSent later ih =>
      unfold sendLoop
      rw [nextBlock_eq counted]
      by_cases done : file = []
      · subst done
        simp [AllTaken, requested_zero]
      · have positive := List.length_pos_of_ne_nil done
        rw [allTaken_cons positive, if_neg done]
        obtain ⟨here, validRest⟩ := validSends_cons positive valid
        by_cases failed : bytesSent = -1
        · simp [failed]
        · have recounted : byteTotal + (file.take buffSize).length +
              (file.drop buffSize).length = stSize := by
            rw [List.length_take, List.length_drop]
            omega
          rw [← List.length_drop] at validRest ⊢
          obtain ⟨bound, taken⟩ := ih recounted validRest
          have block : (file.take buffSize).length = min buffSize file.length := List.length_take
          have count : (file.take buffSize).length ≤ bytesSent.toNat ↔
              bytesSent = (min buffSize file.length : Nat) := by
            have valid := here.resolve_left failed
            omega
          have arrives := @take_append_eq_iff (file.take buffSize) (file.drop buffSize) _
            bytesSent.toNat bound
          rw [List.take_append_drop, count] at arrives
          simp only [failed, if_false]
          refine ⟨?_, ?_⟩
          · simp only [List.length_append, List.length_take, List.length_drop] at bound ⊢
            omega
          · intro succeeded
            rw [arrives, taken succeeded]

end Loop

end CBasics.FileTransfer
