import CBasics.TelnetClient.Sender

/-! What the client sends of its standard input, over whole runs. -/

set_option autoImplicit false

namespace CBasics.TelnetClient

open Library

/-- A piece of the input for each call: at most a buffer, and only its last byte
can end a line. It stops at a newline, with a full buffer or at the end of the
input, so only a line that does not fit is cut; and it is empty only at the end. -/
structure Takes (sends : List SendCall) (pieces : List (List Byte)) (rest : List Byte) :
    Prop where
  offered : List.Forall₂ Offers sends pieces
  sized : ∀ piece ∈ pieces, piece.length < maxBytes
  lines : ∀ piece ∈ pieces, newline ∉ piece.dropLast
  maximal : ∀ before piece after, pieces = before ++ piece :: after →
    piece.getLast? = some newline ∨ piece.length = maxBytes - 1 ∨ after.flatten ++ rest = []
  nonempty : rest ≠ [] → ∀ piece ∈ pieces, piece ≠ []

theorem Sender.offers (sender : Sender) {result : Int} (admitted : sender.Admits result) :
    Offers (sender.call result) sender.piece where
  payload := rfl
  length := rfl
  taken := by
    have bound := admitted.2
    rw [sender.cString_read] at bound
    show result.toNat ≤ (cString sender.piece).length
    omega

theorem Sender.length_piece_lt (sender : Sender) : sender.piece.length < maxBytes := by
  have bound := length_takeLine_le (maxBytes - 1) sender.stdin
  have positive : 0 < maxBytes := by decide
  show (takeLine (maxBytes - 1) sender.stdin).length < maxBytes
  omega

theorem Sender.piece_ne_nil {sender : Sender} (some : sender.stdin ≠ []) : sender.piece ≠ [] :=
  takeLine_ne_nil (by decide) some

theorem Sender.piece_maximal (sender : Sender) :
    sender.piece.getLast? = some newline ∨ sender.piece.length = maxBytes - 1 ∨
      sender.read.2 = [] := by
  refine (takeLine_maximal (maxBytes - 1) sender.stdin).imp_right (Or.imp_right fun whole => ?_)
  have split := sender.stdin_eq
  rw [Sender.piece, whole] at split
  exact List.append_right_eq_self.mp split.symm

theorem Takes.turn {sends : List SendCall} {pieces : List (List Byte)} {sender : Sender}
    (takes : Takes sends pieces sender.stdin) {result : Int} (admitted : sender.Admits result) :
    Takes (sends ++ [sender.call result]) (pieces ++ [sender.piece]) sender.read.2 where
  offered := List.rel_append takes.offered (.cons (sender.offers admitted) .nil)
  sized := by
    rw [List.forall_mem_append, List.forall_mem_singleton]
    exact ⟨takes.sized, sender.length_piece_lt⟩
  lines := by
    rw [List.forall_mem_append, List.forall_mem_singleton]
    exact ⟨takes.lines, newline_notMem_dropLast_takeLine _ _⟩
  maximal := by
    intro before piece after split
    rcases List.eq_nil_or_concat after with rfl | ⟨middle, last, rfl⟩
    · obtain ⟨-, same⟩ := List.append_inj' split rfl
      rw [← List.singleton_inj.mp same, List.flatten_nil, List.nil_append]
      exact sender.piece_maximal
    · rw [List.concat_eq_append, ← List.cons_append, ← List.append_assoc] at split
      obtain ⟨earlier, same⟩ := List.append_inj' split rfl
      rw [List.concat_eq_append, ← same, List.flatten_append, List.flatten_singleton,
        List.append_assoc, ← sender.stdin_eq]
      exact takes.maximal before piece middle earlier
  nonempty := by
    intro some
    have before : sender.stdin ≠ [] := by
      intro none
      have split := sender.stdin_eq
      rw [none] at split
      exact some (List.append_eq_nil_iff.mp split.symm).2
    rw [List.forall_mem_append, List.forall_mem_singleton]
    exact ⟨takes.nonempty before, Sender.piece_ne_nil before⟩

section Runs

variable {sockFd : Int} {text : List Byte} {steps : List (Sender × Int)} {final : Sender}

theorem next_stdin (sender : Sender) (result : Int) :
    ((telnetClient sockFd text).next sender result).stdin = sender.read.2 := by
  simp only [System.next, telnetClient, sendTurn_eq]
  split <;> dsimp only

theorem calls_emits (sender : Sender) (result : Int) :
    calls ((telnetClient sockFd text).emits sender result) = [sender.call result] := by
  simp only [System.emits, telnetClient, sendTurn_eq]
  split <;> rfl

theorem run_takes (run : (telnetClient sockFd text).Run steps final) :
    ∃ pieces, text = pieces.flatten ++ final.stdin ∧
      Takes (calls ((telnetClient sockFd text).trace steps)) pieces final.stdin := by
  refine run.traceInvariant
    (fun events sender => ∃ pieces, text = pieces.flatten ++ sender.stdin ∧
      Takes (calls events) pieces sender.stdin) ?_ ?_
  · rintro _ rfl
    exact ⟨[], rfl, .nil, nofun, nofun, by simp, nofun⟩
  · rintro events steps sender result run ⟨pieces, split, takes⟩ admitted
    refine ⟨pieces ++ [sender.piece], ?_, ?_⟩
    · rw [next_stdin, List.flatten_append, List.flatten_singleton, List.append_assoc,
        ← sender.stdin_eq]
      exact split
    · rw [calls_append, calls_emits, next_stdin]
      exact takes.turn admitted

theorem Takes.transmitted_eq_iff {events : List SenderEvent} {pieces : List (List Byte)}
    {rest : List Byte} (takes : Takes (calls events) pieces rest) :
    transmitted events = pieces.flatten ↔
      (∀ call ∈ calls events, Whole call) ∧ 0 ∉ pieces.flatten := by
  obtain ⟨offered, -, -, -, -⟩ := takes
  unfold transmitted
  generalize calls events = sends at offered ⊢
  rw [List.flatMap_def, flatten_eq_iff_of_prefixes
    (List.forall₂_map_left_iff.mpr (offered.imp fun _ _ offers => offers.accepted_isPrefix)),
    List.forall₂_map_left_iff]
  induction offered with
  | nil => simp
  | @cons call piece sends pieces offers later ih =>
      rw [List.forall₂_cons, ih, offers.accepted_eq_iff, List.forall_mem_cons,
        List.flatten_cons, List.mem_append, not_or]
      tauto

theorem zero_notMem_transmitted (run : (telnetClient sockFd text).Run steps final) :
    0 ∉ transmitted ((telnetClient sockFd text).trace steps) := by
  obtain ⟨pieces, -, ⟨offered, -, -, -, -⟩⟩ := run_takes run
  unfold transmitted
  generalize calls ((telnetClient sockFd text).trace steps) = sends at offered ⊢
  induction offered with
  | nil => exact List.not_mem_nil
  | @cons call piece sends pieces offers later ih =>
      rw [List.flatMap_cons, List.mem_append, not_or]
      refine ⟨fun member => ?_, ih⟩
      rw [accepted, offers.payload] at member
      exact zero_notMem_cString piece (List.mem_of_mem_take member)

/-- Sends that are never cut short take a front of a text without NULs. -/
theorem transmitted_isPrefix (run : (telnetClient sockFd text).Run steps final)
    (whole : ∀ call ∈ calls ((telnetClient sockFd text).trace steps), Whole call)
    (noNul : 0 ∉ text) : transmitted ((telnetClient sockFd text).trace steps) <+: text := by
  obtain ⟨pieces, split, takes⟩ := run_takes run
  have clean : 0 ∉ pieces.flatten := fun member =>
    noNul (split ▸ List.mem_append_left final.stdin member)
  rw [takes.transmitted_eq_iff.mpr ⟨whole, clean⟩, split]
  exact List.prefix_append pieces.flatten final.stdin

/-- At the end of the input the loop goes on for as long as `send` does. -/
theorem idle_turns {sender : Sender} (atEnd : sender.stdin = []) (running : sender.running)
    (count : Nat) :
    (telnetClient sockFd text).Admitted sender (List.replicate count 0) ∧
      (telnetClient sockFd text).finish sender (List.replicate count 0) = sender ∧
      calls ((telnetClient sockFd text).trace
        ((telnetClient sockFd text).follow sender (List.replicate count 0))) =
          List.replicate count ⟨sender.sockFd, [], 0, 0⟩ := by
  have piece : sender.piece = [] := by
    rw [Sender.piece, atEnd]
    rfl
  have split := sender.stdin_eq
  rw [piece, List.nil_append] at split
  have call : sender.call 0 = ⟨sender.sockFd, [], 0, 0⟩ := by
    rw [Sender.call, piece]
    rfl
  have next : (telnetClient sockFd text).next sender 0 = sender := by
    simp only [System.next, telnetClient, sendTurn_eq, Int.lt_irrefl, if_false, ← split]
  have granted : (telnetClient sockFd text).admits sender 0 :=
    ⟨running, .inr ⟨Int.le_refl 0, Int.natCast_nonneg _⟩⟩
  induction count with
  | zero => exact ⟨trivial, rfl, rfl⟩
  | succ count ih =>
      obtain ⟨admitted, finish, sends⟩ := ih
      simp only [List.replicate_succ, System.Admitted, System.finish_cons, System.follow_cons,
        System.trace_cons, calls_append, calls_emits, next, finish, sends, call]
      exact ⟨⟨granted, admitted⟩, trivial, rfl⟩

end Runs

/-- Over every run the calls of `send` are for the lines of the input in order, only
those that do not fit the buffer in pieces. What the socket takes is the input read so far
if and only if no call is cut short and the input has no NUL; and once it has all been
read, the loop calls `send` with nothing for ever. -/
theorem sends_lines {sockFd : Int} {text : List Byte} {steps : List (Sender × Int)}
    {final : Sender} (run : (telnetClient sockFd text).Run steps final) :
    ∃ pieces, text = pieces.flatten ++ final.stdin ∧
      Takes (calls ((telnetClient sockFd text).trace steps)) pieces final.stdin ∧
      (transmitted ((telnetClient sockFd text).trace steps) = pieces.flatten ↔
        (∀ call ∈ calls ((telnetClient sockFd text).trace steps), Whole call) ∧
          0 ∉ pieces.flatten) ∧
      (final.stdin = [] → final.running → ∀ count,
        (telnetClient sockFd text).Admitted final (List.replicate count 0) ∧
          (telnetClient sockFd text).finish final (List.replicate count 0) = final ∧
          calls ((telnetClient sockFd text).trace
            ((telnetClient sockFd text).follow final (List.replicate count 0))) =
              List.replicate count ⟨final.sockFd, [], 0, 0⟩) := by
  obtain ⟨pieces, split, takes⟩ := run_takes run
  exact ⟨pieces, split, takes, takes.transmitted_eq_iff, idle_turns⟩

/-- Two lines. -/
def typed : List Byte := ascii "hi\nyou\n"

def typedSteps : List (Sender × Int) :=
  (telnetClient 3 typed).follow ⟨3, typed, true⟩ [3, 4]

def typedFinal : Sender := (telnetClient 3 typed).finish ⟨3, typed, true⟩ [3, 4]

theorem typed_run : (telnetClient 3 typed).Run typedSteps typedFinal :=
  .of_admitted rfl (by decide +kernel)

theorem sends_lines_typed :
    transmitted ((telnetClient 3 typed).trace typedSteps) = typed := by
  obtain ⟨pieces, split, -, whole, -⟩ := sends_lines typed_run
  have read : typedFinal.stdin = [] := by decide +kernel
  rw [read, List.append_nil] at split
  rw [← split] at whole
  exact whole.mpr ⟨by decide +kernel, by decide⟩

end CBasics.TelnetClient
