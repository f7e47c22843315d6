import CBasics.SendAll.Basic
import Mathlib.Algebra.Order.Ring.Int

/-! Which messages the loop delivers. It offers the first bytes of the message
again and again, as many as a pointer has, whatever was taken before. -/

set_option autoImplicit false

namespace CBasics.SendAll

/-- A whole message was sent, or a prefix of it up to a send that failed. -/
structure SendsWhole (buffer : Nat → Byte) (n : Nat) (call : Call) : Prop where
  returns : call.ending = .returned 0 ∨ call.ending = .returned (-1)
  within : call.length ≤ n
  accepted : call.accepted buffer = (bytesAt buffer 0 n).take call.length.toNat
  inside : ∀ request ∈ call.requests, request.start + request.size ≤ n
  zero : call.ending = .returned 0 ↔ call.length = n ∧ ¬ call.Failed
  minusOne : call.ending = .returned (-1) ↔ call.Failed
  sentPrefix : call.Failed → call.accepted buffer <+: bytesAt buffer 0 n

/-- Whatever is taken, up to the end or to a failure, does not go past the end
of the message, and its bytes are those that are due next. -/
def Repeats (buffer : Nat → Byte) (n : Nat) : Nat → List Int → Prop
  | _, [] => True
  | sent, result :: later =>
      sent < n → result ≠ -1 →
        sent + result.toNat ≤ n ∧
          bytesAt buffer sent result.toNat = bytesAt buffer 0 result.toNat ∧
          Repeats buffer n (sent + result.toNat) later

instance instDecidableRepeats (buffer : Nat → Byte) (n : Nat) :
    (sent : Nat) → (results : List Int) → Decidable (Repeats buffer n sent results)
  | _, [] => inferInstanceAs (Decidable True)
  | sent, result :: later =>
      have := instDecidableRepeats buffer n (sent + result.toNat) later
      inferInstanceAs (Decidable (sent < n → result ≠ -1 → _ ∧ _ ∧ _))

section Loop

variable {socketFd : Int} {pointerSize n sent : Nat} {numberSent result : Int}
  {later results : List Int}

theorem sendLoop_done (done : n ≤ sent) :
    sendLoop socketFd pointerSize n numberSent sent results = leave numberSent sent := by
  have stop : ¬ (sent : Int) < n := by omega
  cases results with
  | nil => rw [sendLoop, if_neg stop]
  | cons result later => rw [sendLoop, if_neg stop]

theorem sendLoop_failed (more : sent < n) :
    sendLoop socketFd pointerSize n numberSent sent (-1 :: later) =
      (leave (-1) sent).after ⟨socketFd, 0, pointerSize, -1⟩ := by
  rw [sendLoop, if_pos (Int.ofNat_lt.mpr more)]
  rfl

theorem sendLoop_overflow (more : sent < n) (positive : 1 ≤ result)
    (large : intMax < sent + result) :
    sendLoop socketFd pointerSize n numberSent sent (result :: later) =
      ⟨[⟨socketFd, 0, pointerSize, result⟩], n, .overflow⟩ := by
  rw [sendLoop, if_pos (Int.ofNat_lt.mpr more)]
  simp only [if_neg (show result ≠ -1 by omega), if_pos large]

theorem sendLoop_taken (more : sent < n) (positive : 1 ≤ result)
    (small : sent + result ≤ intMax) :
    sendLoop socketFd pointerSize n numberSent sent (result :: later) =
      (sendLoop socketFd pointerSize n result (sent + result.toNat : Nat) later).after
        ⟨socketFd, 0, pointerSize, result⟩ := by
  have sum : (sent : Int) + result = ((sent + result.toNat : Nat) : Int) := by omega
  rw [sendLoop, if_pos (Int.ofNat_lt.mpr more)]
  simp only [if_neg (show result ≠ -1 by omega)]
  rw [if_neg (Int.not_lt.mpr small), sum]

/-- What one result can do to a loop that has not sent everything. -/
theorem result_cases (valid : ValidResults pointerSize (result :: later)) :
    (result = -1 ∨ 1 ≤ result) ∧ ValidResults pointerSize later := by
  obtain ⟨first, rest⟩ := List.forall_mem_cons.mp valid
  refine ⟨?_, rest⟩
  cases first with
  | inl failed => exact .inl failed
  | inr taken => exact .inr taken.1

/-- A way through the loop, with the results that a `send` can have. -/
inductive Sending (socketFd : Int) (pointerSize n : Nat) : Int → Nat → List Int → Call → Prop where
  | done {numberSent : Int} {sent : Nat} {results : List Int} : n ≤ sent →
      Sending socketFd pointerSize n numberSent sent results (leave numberSent sent)
  | starved {numberSent : Int} {sent : Nat} : sent < n →
      Sending socketFd pointerSize n numberSent sent [] ⟨[], n, .sending⟩
  | failed {numberSent : Int} {sent : Nat} {later : List Int} : sent < n →
      Sending socketFd pointerSize n numberSent sent (-1 :: later)
        ((leave (-1) sent).after ⟨socketFd, 0, pointerSize, -1⟩)
  | overflow {numberSent result : Int} {sent : Nat} {later : List Int} : sent < n → 1 ≤ result →
      intMax < sent + result →
      Sending socketFd pointerSize n numberSent sent (result :: later)
        ⟨[⟨socketFd, 0, pointerSize, result⟩], n, .overflow⟩
  | taken {numberSent result : Int} {sent : Nat} {later : List Int} {call : Call} : sent < n →
      1 ≤ result → Sending socketFd pointerSize n result (sent + result.toNat) later call →
      Sending socketFd pointerSize n numberSent sent (result :: later)
        (call.after ⟨socketFd, 0, pointerSize, result⟩)

theorem sendLoop_sending (valid : ValidResults pointerSize results) :
    Sending socketFd pointerSize n numberSent sent results
      (sendLoop socketFd pointerSize n numberSent sent results) := by
  induction results generalizing numberSent sent with
  | nil =>
      by_cases done : n ≤ sent
      · rw [sendLoop_done done]
        exact .done done
      · have more := Nat.lt_of_not_le done
        rw [sendLoop, if_pos (Int.ofNat_lt.mpr more)]
        exact .starved more
  | cons result later ih =>
      by_cases done : n ≤ sent
      · rw [sendLoop_done done]
        exact .done done
      have more := Nat.lt_of_not_le done
      obtain ⟨rfl | positive, validLater⟩ := result_cases valid
      · rw [sendLoop_failed more]
        exact .failed more
      by_cases small : sent + result ≤ intMax
      · rw [sendLoop_taken more positive small]
        exact .taken more positive (ih validLater)
      · rw [sendLoop_overflow more positive (Int.not_le.mp small)]
        exact .overflow more positive (Int.not_le.mp small)

theorem Sending.le_length {call : Call}
    (sending : Sending socketFd pointerSize n numberSent sent results call) :
    (sent : Int) ≤ call.length := by
  induction sending with
  | done => exact Int.le_refl _
  | starved more => exact Int.ofNat_le.mpr (Nat.le_of_lt more)
  | failed => exact Int.le_refl _
  | overflow more => exact Int.ofNat_le.mpr (Nat.le_of_lt more)
  | taken _ _ _ ih =>
      rw [length_after]
      omega

/-- The loop goes on with the message from this byte on. -/
structure Continues (buffer : Nat → Byte) (n sent : Nat) (call : Call) : Prop where
  returns : call.ending ≠ .overflow
  within : call.length ≤ n
  accepted : call.accepted buffer = bytesAt buffer sent (call.length.toNat - sent)

theorem continues_leave (buffer : Nat → Byte) (within : sent ≤ n) :
    Continues buffer n sent (leave numberSent sent) where
  returns := by simp [leave]
  within := Int.ofNat_le.mpr within
  accepted := by simp

/-- One send more: the bytes taken are those due, and the rest goes on. -/
theorem continues_after_iff {buffer : Nat → Byte} {call : Call} {request : Request}
    (start : request.start = 0) (longer : sent + request.result.toNat ≤ call.length.toNat) :
    Continues buffer n sent (call.after request) ↔
      bytesAt buffer sent request.result.toNat = bytesAt buffer 0 request.result.toNat ∧
        Continues buffer n (sent + request.result.toNat) call := by
  have cut : bytesAt buffer sent (call.length.toNat - sent) =
      bytesAt buffer sent request.result.toNat ++
        bytesAt buffer (sent + request.result.toNat)
          (call.length.toNat - (sent + request.result.toNat)) := by
    rw [← bytesAt_add]
    congr 1
    omega
  constructor
  · rintro ⟨returns, within, accepted⟩
    rw [accepted_after, Request.accepted, start, length_after, cut] at accepted
    obtain ⟨taken, rest⟩ := List.append_inj accepted (by simp)
    exact ⟨taken.symm, returns, within, rest⟩
  · rintro ⟨taken, returns, within, accepted⟩
    refine ⟨returns, within, ?_⟩
    rw [accepted_after, Request.accepted, start, length_after, cut, accepted, taken]

/-- Everything accepted is the message if and only if the bytes taken each time
are the ones due. -/
theorem Sending.continues_iff {call : Call}
    (sending : Sending socketFd pointerSize n numberSent sent results call) (buffer : Nat → Byte)
    (within : sent ≤ n) (representable : (n : Int) ≤ intMax)
    (enough : n ≤ sent + results.length) :
    Continues buffer n sent call ↔ Repeats buffer n sent results := by
  induction sending with
  | @done _ _ results done =>
      refine iff_of_true (continues_leave buffer within) ?_
      cases results with
      | nil => trivial
      | cons => exact fun more => absurd more (Nat.not_lt.mpr done)
  | starved more => exact absurd more (Nat.not_lt.mpr enough)
  | failed =>
      have kept : Continues buffer n _ (leave (-1) _) := continues_leave buffer within
      refine iff_of_true ⟨by simp [leave], kept.within, ?_⟩ fun _ some => absurd rfl some
      rw [accepted_after, kept.accepted]
      rfl
  | overflow more positive large =>
      rw [Repeats]
      constructor
      · intro continued
        exact absurd rfl continued.returns
      · intro repeated
        have bound := (repeated more (by omega)).1
        omega
  | @taken _ result sent _ _ more positive rest ih =>
      have longer := rest.le_length
      rw [continues_after_iff rfl (by simp only; omega), Repeats]
      by_cases inside : sent + result.toNat ≤ n
      · rw [List.length_cons] at enough
        rw [ih inside (by omega)]
        constructor
        · intro both _ _
          exact ⟨inside, both⟩
        · intro repeated
          exact (repeated more (by omega)).2
      · constructor
        · intro both
          have bound := both.2.within
          omega
        · intro repeated
          exact absurd (repeated more (by omega)).1 inside

/-- How a loop that had something to send, or no failure before, is left. -/
inductive Leaves (n : Nat) (call : Call) : Prop where
  | overflow : call.ending = .overflow → Leaves n call
  | failed : call.ending = .returned (-1) → call.Failed → call.length < n → Leaves n call
  | finished : call.ending = .returned 0 → ¬ call.Failed → n ≤ call.length → Leaves n call

theorem Leaves.after {call : Call} {request : Request} (leaves : Leaves n call)
    (taken : request.result ≠ -1) : Leaves n (call.after request) := by
  cases leaves with
  | overflow ending => exact .overflow ending
  | failed ending failed short => exact .failed ending ((failed_after ..).mpr (.inr failed)) short
  | finished ending none all =>
      refine .finished ending (fun failed => ?_) all
      cases (failed_after ..).mp failed with
      | inl here => exact taken here
      | inr later => exact none later

theorem leaves_done (initialised : numberSent ≠ -1) (done : n ≤ sent) :
    Leaves n (leave numberSent sent) :=
  .finished (by rw [leave, if_neg initialised]) (not_failed_leave _ _) (Int.ofNat_le.mpr done)

theorem Sending.leaves {call : Call}
    (sending : Sending socketFd pointerSize n numberSent sent results call)
    (enough : n ≤ sent + results.length) (defined : sent < n ∨ numberSent ≠ -1) :
    Leaves n call := by
  induction sending with
  | done done => exact leaves_done (defined.resolve_left (Nat.not_lt.mpr done)) done
  | starved more => exact absurd more (Nat.not_lt.mpr enough)
  | failed more => exact .failed rfl ((failed_after ..).mpr (.inl rfl)) (Int.ofNat_lt.mpr more)
  | overflow => exact .overflow rfl
  | @taken _ result _ _ _ _ positive _ ih =>
      have taken : result ≠ -1 := by omega
      rw [List.length_cons] at enough
      exact (ih (by omega) (.inr taken)).after taken

/-- Every request is for the first bytes of the buffer, as many as a pointer has. -/
theorem Sending.request_eq {call : Call}
    (sending : Sending socketFd pointerSize n numberSent sent results call) {request : Request}
    (member : request ∈ call.requests) : request.start = 0 ∧ request.size = pointerSize := by
  induction sending with
  | done => exact absurd member List.not_mem_nil
  | starved => exact absurd member List.not_mem_nil
  | failed =>
      obtain rfl := List.mem_singleton.mp member
      exact ⟨rfl, rfl⟩
  | overflow =>
      obtain rfl := List.mem_singleton.mp member
      exact ⟨rfl, rfl⟩
  | taken _ _ _ ih =>
      cases List.mem_cons.mp member with
      | inl here => exact here ▸ ⟨rfl, rfl⟩
      | inr further => exact ih further

theorem Sending.exists_request {call : Call}
    (sending : Sending socketFd pointerSize n numberSent sent results call) (more : sent < n)
    (enough : n ≤ sent + results.length) : ∃ request, request ∈ call.requests := by
  cases sending with
  | done done => exact absurd more (Nat.not_lt.mpr done)
  | starved => exact absurd more (Nat.not_lt.mpr enough)
  | failed => exact ⟨_, List.mem_cons_self⟩
  | overflow => exact ⟨_, List.mem_cons_self⟩
  | taken => exact ⟨_, List.mem_cons_self⟩

theorem Sending.inside_iff {call : Call}
    (sending : Sending socketFd pointerSize n numberSent sent results call) (more : sent < n)
    (enough : n ≤ sent + results.length) :
    (∀ request ∈ call.requests, request.start + request.size ≤ n) ↔ pointerSize ≤ n := by
  constructor
  · intro inside
    obtain ⟨request, member⟩ := sending.exists_request more enough
    obtain ⟨start, size⟩ := sending.request_eq member
    have fits := inside request member
    rw [start, size, Nat.zero_add] at fits
    exact fits
  · intro fits request member
    obtain ⟨start, size⟩ := sending.request_eq member
    rw [start, size, Nat.zero_add]
    exact fits

end Loop

section Message

variable {socketFd : Int} {pointerSize n : Nat} {numberSent : Int} {results : List Int}
  {buffer : Nat → Byte}

theorem sendsWhole_empty :
    SendsWhole buffer 0 (sendAllOfMessage socketFd pointerSize numberSent 0 results) ↔
      numberSent ≠ -1 := by
  have call : sendAllOfMessage socketFd pointerSize numberSent 0 results = leave numberSent 0 :=
    @sendLoop_done socketFd pointerSize 0 0 numberSent results (Nat.le_refl 0)
  rw [call]
  constructor
  · rintro whole rfl
    exact not_failed_leave _ _ (whole.minusOne.mp rfl)
  · intro initialised
    have ending : (leave numberSent 0).ending = .returned 0 := by rw [leave, if_neg initialised]
    exact {
      returns := .inl ending
      within := Int.le_refl 0
      accepted := rfl
      inside := fun _ member => absurd member List.not_mem_nil
      zero := ⟨fun _ => ⟨rfl, not_failed_leave _ _⟩, fun _ => ending⟩
      minusOne := by simp [ending]
      sentPrefix := fun failed => absurd failed (not_failed_leave _ _) }

theorem sendsWhole_iff_continues {call : Call} (buffer : Nat → Byte) (leaves : Leaves n call)
    (nonneg : 0 ≤ call.length) :
    SendsWhole buffer n call ↔
      (∀ request ∈ call.requests, request.start + request.size ≤ n) ∧
        Continues buffer n 0 call := by
  constructor
  · intro whole
    have within := whole.within
    refine ⟨whole.inside, ?_, within, ?_⟩
    · cases whole.returns with
      | inl zero => simp [zero]
      | inr minusOne => simp [minusOne]
    · rw [whole.accepted, take_bytesAt buffer 0 (by omega), Nat.sub_zero]
  · rintro ⟨inside, returns, within, taken⟩
    have accepted : call.accepted buffer = (bytesAt buffer 0 n).take call.length.toNat := by
      rw [taken, take_bytesAt buffer 0 (by omega), Nat.sub_zero]
    have sentPrefix : call.Failed → call.accepted buffer <+: bytesAt buffer 0 n :=
      fun _ => accepted ▸ List.take_prefix call.length.toNat (bytesAt buffer 0 n)
    cases leaves with
    | overflow ending => exact absurd ending returns
    | failed ending failed short =>
        exact {
          returns := .inr ending
          within := within
          accepted := accepted
          inside := inside
          zero := by simp [ending, failed]
          minusOne := by simp [ending, failed]
          sentPrefix := sentPrefix }
    | finished ending none all =>
        exact {
          returns := .inl ending
          within := within
          accepted := accepted
          inside := inside
          zero := by simp [ending, none, Int.le_antisymm within all]
          minusOne := by simp [ending, none]
          sentPrefix := sentPrefix }

theorem sendsWhole_positive (valid : ValidResults pointerSize results) (positive : 0 < n)
    (representable : (n : Int) ≤ intMax) (enough : n ≤ results.length) :
    SendsWhole buffer n (sendAllOfMessage socketFd pointerSize numberSent n results) ↔
      pointerSize ≤ n ∧ Repeats buffer n 0 results := by
  have enoughLater : n ≤ 0 + results.length := by omega
  have sending : Sending socketFd pointerSize n numberSent 0 results
      (sendAllOfMessage socketFd pointerSize numberSent n results) := sendLoop_sending valid
  have whole := sendsWhole_iff_continues buffer (sending.leaves enoughLater (.inl positive))
    sending.le_length
  exact whole.trans (and_congr (sending.inside_iff positive enoughLater)
    (sending.continues_iff buffer (Nat.zero_le n) representable enoughLater))

/-- The call sends the whole message, or a prefix of it up to a failure, if and
only if the message is empty and the uninitialised `numberSent` happens not to be
-1, or it is no shorter than a pointer and repeats itself wherever it is sent on. -/
theorem sendsWhole_iff (pointer : 0 < pointerSize) (valid : ValidResults pointerSize results)
    (representable : (n : Int) ≤ intMax) (enough : n ≤ results.length) :
    SendsWhole buffer n (sendAllOfMessage socketFd pointerSize numberSent n results) ↔
      n = 0 ∧ numberSent ≠ -1 ∨ pointerSize ≤ n ∧ Repeats buffer n 0 results := by
  cases Nat.eq_zero_or_pos n with
  | inl empty =>
      subst empty
      have short : ¬ pointerSize ≤ 0 := Nat.not_le.mpr pointer
      rw [Int.natCast_zero, sendsWhole_empty]
      simp [short]
  | inr positive =>
      have some : ¬ n = 0 := Nat.ne_of_gt positive
      rw [sendsWhole_positive valid positive representable enough]
      simp [some]

/-- Eight bytes that one `send` takes whole. -/
theorem sendsWhole_once :
    SendsWhole (fun address => .ofNat address) 8
      (sendAllOfMessage 3 8 0 8 [8, -1, -1, -1, -1, -1, -1, -1]) :=
  (sendsWhole_iff (n := 8) (by decide) (by decide) (by decide) (by decide)).mpr (by decide)

/-- Sixteen different bytes: the first eight are sent twice. -/
theorem not_sendsWhole_twice :
    (sendAllOfMessage 3 8 0 16 (List.replicate 16 8)).accepted (fun address => .ofNat address) =
        [0, 1, 2, 3, 4, 5, 6, 7, 0, 1, 2, 3, 4, 5, 6, 7] ∧
      ¬ SendsWhole (fun address => .ofNat address) 16
        (sendAllOfMessage 3 8 0 16 (List.replicate 16 8)) := by
  refine ⟨by decide, ?_⟩
  intro whole
  exact absurd whole.accepted (by decide)

end Message

end CBasics.SendAll
