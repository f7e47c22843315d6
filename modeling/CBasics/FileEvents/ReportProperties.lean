import CBasics.FileEvents.WalkProperties

/-! What is printed for an event. The message is never reset, so an event
without a watched bit repeats the message of an earlier one. -/

set_option autoImplicit false

namespace CBasics.FileEvents

open Library

def Watched (mask : BitVec 32) : Prop := mask &&& watchMask ≠ 0

instance (mask : BitVec 32) : Decidable (Watched mask) := inferInstanceAs (Decidable (_ ≠ _))

theorem not_watched_iff {mask : BitVec 32} :
    ¬ Watched mask ↔ mask &&& inCreate = 0 ∧ mask &&& inDelete = 0 ∧ mask &&& inAccess = 0 ∧
      mask &&& inCloseWrite = 0 ∧ mask &&& inModify = 0 ∧ mask &&& inMoveSelf = 0 := by
  have or_eq_zero : ∀ left right : BitVec 32, left ||| right = 0 ↔ left = 0 ∧ right = 0 :=
    fun _ _ => BitVec.or_eq_zero_iff
  simp only [Watched, ne_eq, not_not, watchMask, BitVec.and_or_distrib_left, or_eq_zero, and_assoc]

/-- An event without a watched bit leaves the message, any other replaces it. -/
theorem notify_eq (mask : BitVec 32) (message : Option String) :
    notify mask message = if Watched mask then notify mask none else message := by
  by_cases watched : Watched mask
  · rw [if_pos watched]
    have some : ¬ (mask &&& inCreate = 0 ∧ mask &&& inDelete = 0 ∧ mask &&& inAccess = 0 ∧
        mask &&& inCloseWrite = 0 ∧ mask &&& inModify = 0 ∧ mask &&& inMoveSelf = 0) :=
      fun none => not_watched_iff.mpr none watched
    unfold notify
    simp only [ne_eq]
    split_ifs <;> simp_all
  · obtain ⟨create, delete, access, closeWrite, modify, moveSelf⟩ := not_watched_iff.mp watched
    rw [if_neg watched]
    simp [notify, create, delete, access, closeWrite, modify, moveSelf]

/-- What should be printed for an event: nothing, or the message of its mask. -/
def report (mask : BitVec 32) : Option String :=
  if Watched mask then (notify mask none).map (· ++ "\n") else none

theorem notify_eq_none_iff {mask : BitVec 32} {message : Option String} :
    notify mask message = none ↔ ¬ Watched mask ∧ message = none := by
  by_cases watched : Watched mask
  · refine iff_of_false ?_ fun both => both.1 watched
    intro none
    unfold notify at none
    simp only [ne_eq] at none
    split_ifs at none with moveSelf modify closeWrite access delete create
    exact not_watched_iff.mpr ⟨create, delete, access, closeWrite, modify, moveSelf⟩ watched
  · rw [notify_eq, if_neg watched, and_iff_right watched]

/-- In the turn for an event its own report is printed, unless it has no watched
bit and there is a message. -/
theorem printed_eq_report_iff {mask : BitVec 32} {message : Option String} :
    (notify mask message).map (· ++ "\n") = report mask ↔ Watched mask ∨ message = none := by
  rw [notify_eq, report]
  by_cases watched : Watched mask
  · simp [watched]
  · simp [watched]

/-- An event without a watched bit comes only while there is no message yet. -/
def Unspoiled (message : Option String) (records : List Record) : Prop :=
  if message = none then
    ∀ record ∈ records.dropWhile fun record => ¬ Watched record.mask, Watched record.mask
  else ∀ record ∈ records, Watched record.mask

instance (message : Option String) (records : List Record) :
    Decidable (Unspoiled message records) := by
  unfold Unspoiled
  infer_instance

theorem unspoiled_null {records : List Record} :
    Unspoiled none records ↔
      ∀ record ∈ records.dropWhile fun record => ¬ Watched record.mask, Watched record.mask :=
  Iff.of_eq (if_pos rfl)

theorem unspoiled_of_ne {message : Option String} (some : message ≠ none)
    {records : List Record} :
    Unspoiled message records ↔ ∀ record ∈ records, Watched record.mask :=
  Iff.of_eq (if_neg some)

theorem unspoiled_cons {message : Option String} {record : Record} {rest : List Record} :
    Unspoiled message (record :: rest) ↔
      (Watched record.mask ∨ message = none) ∧ Unspoiled (notify record.mask message) rest := by
  by_cases watched : Watched record.mask
  · have some : notify record.mask message ≠ none := fun none =>
      (notify_eq_none_iff.mp none).1 watched
    rw [unspoiled_of_ne some]
    cases message with
    | none => simp [unspoiled_null, watched]
    | some text => simp [unspoiled_of_ne, watched]
  · rw [notify_eq, if_neg watched]
    cases message with
    | none => simp [unspoiled_null, watched]
    | some text => simp [unspoiled_of_ne, watched]

def messageAfter (message : Option String) (records : List Record) : Option String :=
  records.foldl (fun message record => notify record.mask message) message

theorem messageAfter_append (message : Option String) (left right : List Record) :
    messageAfter message (left ++ right) = messageAfter (messageAfter message left) right :=
  List.foldl_append

@[simp] theorem unspoiled_nil (message : Option String) : Unspoiled message [] := by
  cases message with
  | none => simp [unspoiled_null]
  | some text => simp [unspoiled_of_ne]

theorem unspoiled_append {message : Option String} {left right : List Record} :
    Unspoiled message (left ++ right) ↔
      Unspoiled message left ∧ Unspoiled (messageAfter message left) right := by
  induction left generalizing message with
  | nil => exact (and_iff_right (unspoiled_nil message)).symm
  | cons record rest ih =>
      rw [List.cons_append, unspoiled_cons, unspoiled_cons, ih, and_assoc]
      rfl

theorem message_walkOver (message : Option String) (offset : Nat) (records : List Record) :
    (walkOver message offset records).message = messageAfter message records := by
  induction records generalizing message offset with
  | nil => rfl
  | cons record rest ih => exact ih _ _

theorem printed_walkOver_iff {message : Option String} {offset : Nat} {records : List Record} :
    (walkOver message offset records).visits.map Visit.printed =
        records.map (fun record => report record.mask) ↔
      Unspoiled message records := by
  induction records generalizing message offset with
  | nil => simp [walkOver]
  | cons record rest ih =>
      rw [unspoiled_cons, ← printed_eq_report_iff, ← ih, List.map_cons, ← List.cons.injEq]
      rfl

section Runs

variable {order : ByteOrder}

def recordsOf : Input → List Record
  | .failed => []
  | .events records => records

theorem step_eq_walkOver (order : ByteOrder) (state : State) (input : Input) :
    (unixFileEventWatching order).emits state input =
        (walkOver state.notificationMessage 0 (recordsOf input)).visits ∧
      ((unixFileEventWatching order).next state input).notificationMessage =
        messageAfter state.notificationMessage (recordsOf input) := by
  cases input with
  | failed => exact ⟨rfl, rfl⟩
  | events records =>
      have walked := walk_eq_walkOver state.notificationMessage
        (stored_copyIn (layout order records) state.buffer) (Nat.zero_add _).symm
      refine ⟨congrArg Walk.visits walked, ?_⟩
      rw [recordsOf, ← message_walkOver _ 0]
      exact congrArg Walk.message walked

/-- For every event of the run its own report is printed. -/
def ReportsOwn (order : ByteOrder) (steps : List (State × Input)) : Prop :=
  ∀ entry ∈ steps,
    ((unixFileEventWatching order).emits entry.1 entry.2).map Visit.printed =
      (recordsOf entry.2).map fun record => report record.mask

def allRecords (steps : List (State × Input)) : List Record :=
  steps.flatMap fun entry => recordsOf entry.2

theorem allRecords_append (steps : List (State × Input)) (state : State) (input : Input) :
    allRecords (steps ++ [(state, input)]) = allRecords steps ++ recordsOf input := by
  simp [allRecords]

/-- What `notificationMessage` held before it was first assigned. -/
def startMessage (final : State) : List (State × Input) → Option String
  | [] => final.notificationMessage
  | entry :: _ => entry.1.notificationMessage

theorem startMessage_append (state final : State) (input : Input) (steps : List (State × Input)) :
    startMessage final (steps ++ [(state, input)]) = startMessage state steps := by
  cases steps with
  | nil => rfl
  | cons => rfl

theorem run_message {steps : List (State × Input)} {final : State}
    (run : (unixFileEventWatching order).Run steps final) :
    final.notificationMessage = messageAfter (startMessage final steps) (allRecords steps) := by
  induction run with
  | start => rfl
  | @step steps state input _ _ ih =>
      rw [(step_eq_walkOver order state input).2, startMessage_append, allRecords_append,
        messageAfter_append, ← ih]

/-- In every run what is printed for each event is the report of its own mask,
if and only if events without a watched bit come only while the pointer is null:
before any other, and if it happens to start so. -/
theorem reportsOwn_iff {steps : List (State × Input)} {final : State}
    (run : (unixFileEventWatching order).Run steps final) :
    ReportsOwn order steps ↔ Unspoiled (startMessage final steps) (allRecords steps) := by
  induction run with
  | start => exact iff_of_true (fun _ member => absurd member List.not_mem_nil) (unspoiled_nil _)
  | @step steps state input run _ ih =>
      rw [startMessage_append, allRecords_append, unspoiled_append, ← run_message run, ← ih,
        ← @printed_walkOver_iff _ 0, ← (step_eq_walkOver order state input).1]
      simp only [ReportsOwn, List.forall_mem_append, List.forall_mem_singleton]

end Runs

/-- A file is created in a watched directory, and then the watch is removed. -/
def removal (first second : Record) : List Input := [.events [first], .events [second]]

def freshWatch : State := ⟨.reading, fun _ => 0, none⟩

theorem removal_run (first second : Record)
    (fits : (unixFileEventWatching .little).Admitted freshWatch (removal first second)) :
    (unixFileEventWatching .little).Run
      ((unixFileEventWatching .little).follow freshWatch (removal first second))
      ((unixFileEventWatching .little).finish freshWatch (removal first second)) :=
  .of_admitted rfl fits

/-- Without a message yet nothing is printed for the removal. -/
theorem reportsOwn_before :
    ReportsOwn .little
      ((unixFileEventWatching .little).follow freshWatch (removal ignored created)) :=
  (reportsOwn_iff (removal_run ignored created ⟨⟨rfl, by decide⟩, ⟨rfl, by decide⟩, trivial⟩)).mpr
    (by decide)

/-- Behind the creation it is printed again for the removal. -/
theorem not_reportsOwn_behind :
    (unixFileEventWatching .little).Run
        ((unixFileEventWatching .little).follow freshWatch (removal created ignored))
        ((unixFileEventWatching .little).finish freshWatch (removal created ignored)) ∧
      ¬ ReportsOwn .little
        ((unixFileEventWatching .little).follow freshWatch (removal created ignored)) := by
  refine ⟨removal_run created ignored ⟨⟨rfl, by decide⟩, ⟨rfl, by decide⟩, trivial⟩, ?_⟩
  intro reports
  have second := reports _ (List.mem_cons_of_mem _ List.mem_cons_self)
  rw [(step_eq_walkOver ..).1, printed_walkOver_iff, (step_eq_walkOver ..).2] at second
  exact absurd second (by decide)

end CBasics.FileEvents
