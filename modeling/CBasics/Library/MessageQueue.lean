import Mathlib.Data.List.Basic

/-! Message queues of System V. A message has a positive type, and a receiver says
by one number which types it takes; among messages of one type the oldest goes first. -/

set_option autoImplicit false

namespace CBasics.Library

structure Message (Text : Type) where
  type : Int
  text : Text
  deriving DecidableEq

namespace Message

variable {Text : Type}

/-- The messages of one type, oldest first. -/
def ofType (type : Int) (messages : List (Message Text)) : List (Message Text) :=
  messages.filter (·.type = type)

@[simp] theorem ofType_nil (type : Int) : ofType type ([] : List (Message Text)) = [] := rfl

@[simp] theorem ofType_append (type : Int) (left right : List (Message Text)) :
    ofType type (left ++ right) = ofType type left ++ ofType type right :=
  List.filter_append left right

theorem ofType_singleton (type : Int) (message : Message Text) :
    ofType type [message] = if message.type = type then [message] else [] := by
  by_cases same : message.type = type
  · simp [ofType, same]
  · simp [ofType, same]

/-- The type that a receiver takes its message from: the first one's, a given one, or
the lowest one up to a limit. -/
def wanted (msgtyp : Int) (queue : List (Message Text)) : Option Int :=
  if msgtyp = 0 then queue.head?.map (·.type)
  else if 0 < msgtyp then some msgtyp
  else ((queue.map (·.type)).filter (· ≤ -msgtyp)).min?

/-- The message that `msgrcv` takes, and the queue without it. -/
def receive (msgtyp : Int) (queue : List (Message Text)) :
    Option (Message Text × List (Message Text)) :=
  match wanted msgtyp queue with
  | none => none
  | some type =>
      match queue.find? (·.type = type) with
      | none => none
      | some message => some (message, queue.eraseP (·.type = type))

theorem ofType_cons (type : Int) (first : Message Text) (rest : List (Message Text)) :
    ofType type (first :: rest) = ofType type [first] ++ ofType type rest :=
  ofType_append type [first] rest

/-- Messages of different types do not overtake each other within a type. -/
theorem ofType_comm {first second : Message Text} (different : first.type ≠ second.type)
    (type : Int) :
    ofType type [first] ++ ofType type [second] = ofType type [second] ++ ofType type [first] := by
  by_cases counted : first.type = type
  · have apart : second.type ≠ type := fun same => different (counted.trans same.symm)
    rw [ofType_singleton type second, if_neg apart, List.append_nil, List.nil_append]
  · rw [ofType_singleton type first, if_neg counted, List.append_nil, List.nil_append]

/-- Taking the oldest message of a type takes the head of that type. -/
theorem ofType_eraseP {type : Int} {queue : List (Message Text)} {message : Message Text}
    (found : queue.find? (·.type = type) = some message) (other : Int) :
    ofType other queue =
      ofType other [message] ++ ofType other (queue.eraseP (·.type = type)) := by
  induction queue with
  | nil => cases found
  | cons first rest ih =>
      by_cases here : first.type = type
      · rw [List.find?_cons_of_pos (by simpa using here)] at found
        obtain rfl := Option.some.inj found
        rw [List.eraseP_cons_of_pos (by simpa using here), ofType_cons]
      · rw [List.find?_cons_of_neg (by simpa using here)] at found
        have later : message.type = type := by simpa using List.find?_some found
        have different : first.type ≠ message.type := by rwa [later]
        rw [List.eraseP_cons_of_neg (by simpa using here), ofType_cons, ih found,
          ofType_cons other first (rest.eraseP _), ← List.append_assoc, ofType_comm different,
          List.append_assoc]

theorem receive_spec {msgtyp : Int} {queue rest : List (Message Text)} {message : Message Text}
    (received : receive msgtyp queue = some (message, rest)) (other : Int) :
    ofType other queue = ofType other [message] ++ ofType other rest := by
  unfold receive at received
  split at received
  · cases received
  · split at received
    · cases received
    · rename_i type _ _ found
      cases received
      exact ofType_eraseP found other

theorem receive_pos {type : Int} (positive : 0 < type) (queue : List (Message Text)) :
    receive type queue =
      (queue.find? (·.type = type)).map fun message =>
        (message, queue.eraseP (·.type = type)) := by
  have asked : wanted type queue = some type := by
    rw [wanted, if_neg (by omega), if_pos positive]
  simp only [receive, asked]
  cases queue.find? (·.type = type) with
  | none => rfl
  | some message => rfl

theorem receive_type {type : Int} (positive : 0 < type) {queue rest : List (Message Text)}
    {message : Message Text} (received : receive type queue = some (message, rest)) :
    message.type = type := by
  rw [receive_pos positive] at received
  obtain ⟨found, present, same⟩ := Option.map_eq_some_iff.mp received
  obtain rfl := (Prod.mk.inj same).1
  simpa using List.find?_some present

/-- A receiver of one type waits only while there is no message of that type. -/
theorem receive_eq_none_iff {type : Int} (positive : 0 < type) (queue : List (Message Text)) :
    receive type queue = none ↔ ofType type queue = [] := by
  rw [receive_pos positive, Option.map_eq_none_iff, List.find?_eq_none, ofType,
    List.filter_eq_nil_iff]

/-- For every type, what was put in is what was taken out and what is still there. -/
def Accounts (sent received queue : List (Message Text)) : Prop :=
  ∀ type, ofType type sent = ofType type received ++ ofType type queue

variable {sent received queue : List (Message Text)}

theorem Accounts.send (accounts : Accounts sent received queue) (message : Message Text) :
    Accounts (sent ++ [message]) received (queue ++ [message]) := by
  intro type
  rw [ofType_append, ofType_append, accounts type, List.append_assoc]

theorem Accounts.receive (accounts : Accounts sent received queue) {msgtyp : Int}
    {message : Message Text} {rest : List (Message Text)}
    (taken : Message.receive msgtyp queue = some (message, rest)) :
    Accounts sent (received ++ [message]) rest := by
  intro type
  rw [accounts type, receive_spec taken type, ofType_append, List.append_assoc]

end Message

end CBasics.Library
