import CBasics.MessageQueues.Basic

/-! What `message_queues` prints is the oldest message of its type in the queue, which
need not be the one of its child; nothing of any type is lost or taken twice. -/

set_option autoImplicit false

namespace CBasics.MessageQueues

open Library Message

def sentOf (events : List Event) : List Msg :=
  events.filterMap fun
    | .sent _ message => some message
    | _ => none

def receivedOf (events : List Event) : List Msg :=
  events.filterMap fun
    | .received _ message => some message
    | _ => none

@[simp] theorem sentOf_append (left right : List Event) :
    sentOf (left ++ right) = sentOf left ++ sentOf right := List.filterMap_append

@[simp] theorem receivedOf_append (left right : List Event) :
    receivedOf (left ++ right) = receivedOf left ++ receivedOf right := List.filterMap_append

/-- What the parent has printed. -/
def textsOf (events : List Event) : List (List Byte) :=
  events.filterMap fun
    | .said .parent text => some text
    | _ => none

@[simp] theorem textsOf_append (left right : List Event) :
    textsOf (left ++ right) = textsOf left ++ textsOf right := List.filterMap_append

theorem mem_textsOf {text : List Byte} {events : List Event} :
    text ∈ textsOf events ↔ .said .parent text ∈ events := by
  simp only [textsOf, List.mem_filterMap]
  constructor
  · rintro ⟨event, member, said⟩
    split at said
    · cases said
      exact member
    · cases said
  · intro member
    exact ⟨_, member, rfl⟩

/-- No other process has sent or taken a message of type 1, or removed the queue. -/
structure Undisturbed (events : List Event) : Prop where
  sent : ∀ message, .sent .other message ∈ events → message.type ≠ 1
  received : ∀ message, .received .other message ∈ events → message.type ≠ 1
  kept : .removed .other ∉ events

theorem Undisturbed.of_append {events more : List Event}
    (undisturbed : Undisturbed (events ++ more)) : Undisturbed events where
  sent := fun message member => undisturbed.sent message (List.mem_append_left more member)
  received := fun message member => undisturbed.received message (List.mem_append_left more member)
  kept := fun member => undisturbed.kept (List.mem_append_left more member)

/-- What the parent prints when this message is the first that it could take. -/
def shown (message : Msg) : List Byte :=
  report (stored (if message.text.length ≤ sizeofMessage then message.text else []))

theorem length_greeting : greeting.length = 27 := by decide

theorem length_childMessage {beyond : List Byte} (size : beyond.length = typeSize) :
    (childMessage beyond).text.length = sizeofMessage := by
  simp only [childMessage, mtext, List.length_append, List.length_replicate, length_greeting, size,
    sizeofMessage, msgSize]
  omega

theorem shown_childMessage {beyond : List Byte} (size : beyond.length = typeSize) :
    shown (childMessage beyond) = report greeting := by
  have zeros : List.replicate (msgSize - greeting.length) (0 : Byte) =
      0 :: List.replicate (msgSize - greeting.length - 1) 0 := by
    rw [← List.replicate_succ, length_greeting]
    rfl
  rw [shown, if_pos (length_childMessage size).le, report, report, stored, childMessage, mtext,
    zeros]
  simp only [List.append_assoc, List.cons_append]
  rw [cString_append_zero]

/-- The child has sent its message. -/
def Child.Sent : Child → Prop
  | .leaving => True
  | .exited => True
  | _ => False

/-- The parent has not yet looked for a message. -/
def Parent.Early : Parent → Prop
  | .forking => True
  | .waiting => True
  | .receiving => True
  | _ => False

/-- The parent has waited for its child. -/
def Parent.Reaped : Parent → Prop
  | .receiving => True
  | .removing => True
  | .exited 0 => True
  | _ => False

/-- How things stand as long as nobody else uses messages of type 1. -/
structure Settled (old : List Msg) (beyond : List Byte) (events : List Event) (state : State) :
    Prop where
  unsent : ¬ state.child.Sent → ofType 1 (sentOf events) = []
  sent : state.child.Sent → ofType 1 (sentOf events) = [childMessage beyond]
  present : state.parent ≠ .exited 0 → ∃ queue, state.queue = some queue
  early : state.parent.Early → ofType 1 (receivedOf events) = [] ∧
    ∀ text, .said .parent text ∉ events
  said : ∀ text, .said .parent text ∈ events → ∃ message,
    (ofType 1 old ++ [childMessage beyond]).head? = some message ∧ text = shown message

structure Invariant (old : List Msg) (beyond : List Byte) (events : List Event) (state : State) :
    Prop where
  accounts : ∀ queue, state.queue = some queue →
    Accounts (old ++ sentOf events) (receivedOf events) queue
  unborn : state.parent = .forking → state.child = .absent
  forked : state.child = .absent → state.parent = .forking ∨ state.parent = .exited 1
  reaped : state.parent.Reaped → state.child = .exited
  settled : Undisturbed events → Settled old beyond events state

section Steps

variable {old : List Msg} {beyond : List Byte} {events : List Event} {state : State}

/-- The first message for the parent is the oldest one of type 1. -/
theorem Settled.taken (settled : Settled old beyond events state) {queue rest : List Msg}
    {message : Msg} (accounts : Accounts (old ++ sentOf events) (receivedOf events) queue)
    (early : state.parent.Early) (sent : state.child.Sent)
    (received : receive 1 queue = some (message, rest)) :
    (ofType 1 old ++ [childMessage beyond]).head? = some message := by
  have balance := accounts 1
  rw [ofType_append, settled.sent sent, (settled.early early).1, List.nil_append,
    receive_spec received, ofType_singleton, if_pos (receive_type Int.one_pos received)] at balance
  rw [balance]
  rfl

/-- Once the child has sent, there is a message for the parent. -/
theorem Settled.hasMessage (settled : Settled old beyond events state) {queue : List Msg}
    (accounts : Accounts (old ++ sentOf events) (receivedOf events) queue)
    (early : state.parent.Early) (sent : state.child.Sent) : receive 1 queue ≠ none := by
  have balance := accounts 1
  rw [ofType_append, settled.sent sent, (settled.early early).1, List.nil_append] at balance
  rw [ne_eq, receive_eq_none_iff Int.one_pos, ← balance]
  simp

/-- The first look of the parent at the queue. -/
theorem Settled.prints (settled : Settled old beyond events state) {message : Msg}
    (early : state.parent.Early)
    (first : (ofType 1 old ++ [childMessage beyond]).head? = some message)
    {queue : List Msg} {more : List Event} (unsent : sentOf more = [])
    (said : ∀ text, .said .parent text ∈ more → text = shown message) :
    Settled old beyond (events ++ more)
      { state with queue := some queue, parent := .removing } where
  unsent := fun waits => by rw [sentOf_append, unsent, List.append_nil, settled.unsent waits]
  sent := fun sent => by rw [sentOf_append, unsent, List.append_nil, settled.sent sent]
  present := fun _ => ⟨queue, rfl⟩
  early := nofun
  said := fun text member => by
    rcases List.mem_append.mp member with before | now
    · exact ((settled.early early).2 text before).elim
    · exact ⟨message, first, said text now⟩

/-- A step that sends and takes nothing of type 1 and says nothing for the parent. -/
theorem Settled.silent (settled : Settled old beyond events state) {more : List Event}
    {next : State} (sent : next.child.Sent ↔ state.child.Sent)
    (unsent : ofType 1 (sentOf more) = []) (untaken : ofType 1 (receivedOf more) = [])
    (mute : ∀ text, .said .parent text ∉ more)
    (present : next.parent ≠ .exited 0 → ∃ queue, next.queue = some queue)
    (early : next.parent.Early → state.parent.Early) :
    Settled old beyond (events ++ more) next where
  unsent := fun waits => by
    rw [sentOf_append, ofType_append, unsent, List.append_nil]
    exact settled.unsent fun before => waits (sent.mpr before)
  sent := fun done => by
    rw [sentOf_append, ofType_append, unsent, List.append_nil, settled.sent (sent.mp done)]
  present := present
  early := fun still => by
    obtain ⟨none, quiet⟩ := settled.early (early still)
    refine ⟨by rw [receivedOf_append, ofType_append, untaken, List.append_nil, none], ?_⟩
    intro text member
    rcases List.mem_append.mp member with before | now
    · exact quiet text before
    · exact mute text now
  said := fun text member => by
    rcases List.mem_append.mp member with before | now
    · exact settled.said text before
    · exact (mute text now).elim

theorem Settled.childSends {queue : List Msg} {parent : Parent}
    (settled : Settled old beyond events ⟨some queue, parent, .sending⟩) :
    Settled old beyond
      (events ++ (MessageQueues.childCall beyond ⟨some queue, parent, .sending⟩).2)
      (MessageQueues.childCall beyond ⟨some queue, parent, .sending⟩).1 where
  unsent := fun unsent => (unsent trivial).elim
  sent := fun _ => by
    rw [sentOf_append, ofType_append, settled.unsent id]
    rfl
  present := fun _ => ⟨_, rfl⟩
  early := fun early => by
    obtain ⟨untaken, quiet⟩ := settled.early early
    refine ⟨?_, fun text member => quiet text ?_⟩
    · rw [receivedOf_append, ofType_append, untaken]
      rfl
    · simpa [MessageQueues.childCall] using member
  said := fun text member => settled.said text (by simpa [MessageQueues.childCall] using member)

theorem Invariant.otherCall (invariant : Invariant old beyond events state) (act : Act) :
    Invariant old beyond (events ++ (MessageQueues.otherCall state act).2)
      (MessageQueues.otherCall state act).1 := by
  obtain ⟨queue, parent, child⟩ := state
  cases queue with
  | none => simpa [MessageQueues.otherCall] using invariant
  | some queue =>
      have accounts := invariant.accounts queue rfl
      cases act with
      | send message =>
          refine ⟨?_, invariant.unborn, invariant.forked, invariant.reaped, ?_⟩
          · intro _ same
            obtain rfl := Option.some.inj same
            simpa [MessageQueues.otherCall, sentOf, receivedOf] using accounts.send message
          · intro undisturbed
            have other := undisturbed.sent message (by simp [MessageQueues.otherCall])
            refine (invariant.settled undisturbed.of_append).silent Iff.rfl ?_ rfl ?_
              (fun _ => ⟨_, rfl⟩) id
            · show ofType 1 [message] = []
              rw [ofType_singleton, if_neg other]
            · simp [MessageQueues.otherCall]
      | receive msgtyp =>
          cases taken : Message.receive msgtyp queue with
          | none => simpa [MessageQueues.otherCall, taken] using invariant
          | some entry =>
              obtain ⟨message, rest⟩ := entry
              simp only [MessageQueues.otherCall, taken]
              refine ⟨?_, invariant.unborn, invariant.forked, invariant.reaped, ?_⟩
              · intro _ same
                obtain rfl := Option.some.inj same
                simpa [sentOf, receivedOf] using accounts.receive taken
              · intro undisturbed
                have other := undisturbed.received message (by simp)
                refine (invariant.settled undisturbed.of_append).silent Iff.rfl rfl ?_ (by simp)
                  (fun _ => ⟨_, rfl⟩) id
                show ofType 1 [message] = []
                rw [ofType_singleton, if_neg other]
      | remove =>
          refine ⟨nofun, invariant.unborn, invariant.forked, invariant.reaped, ?_⟩
          intro undisturbed
          exact (undisturbed.kept (by simp [MessageQueues.otherCall])).elim

theorem Invariant.childCall (invariant : Invariant old beyond events state) {qbytes : Nat}
    (ready : ChildReady qbytes beyond state) :
    Invariant old beyond (events ++ (MessageQueues.childCall beyond state).2)
      (MessageQueues.childCall beyond state).1 := by
  obtain ⟨queue, parent, child⟩ := state
  cases child with
  | absent => exact ready.elim
  | exited => exact ready.elim
  | leaving =>
      have forked : parent ≠ .forking := fun forking => nomatch invariant.unborn forking
      refine ⟨?_, fun forking => (forked forking).elim, nofun, fun _ => rfl, ?_⟩
      · simpa [MessageQueues.childCall] using invariant.accounts
      · intro undisturbed
        have settled := invariant.settled undisturbed.of_append
        exact settled.silent Iff.rfl rfl rfl (by simp [MessageQueues.childCall]) settled.present id
  | sending =>
      have unreaped : ¬ parent.Reaped := fun reaped => nomatch invariant.reaped reaped
      have forked : parent ≠ .forking := fun forking => nomatch invariant.unborn forking
      cases queue with
      | none =>
          refine ⟨nofun, fun forking => (forked forking).elim, nofun,
            fun reaped => (unreaped reaped).elim, ?_⟩
          intro undisturbed
          have running : parent ≠ .exited 0 := by
            rintro rfl
            exact unreaped trivial
          obtain ⟨queue, gone⟩ := (invariant.settled undisturbed.of_append).present running
          cases gone
      | some queue =>
          refine ⟨?_, fun forking => (forked forking).elim, nofun,
            fun reaped => (unreaped reaped).elim, ?_⟩
          · intro _ same
            obtain rfl := Option.some.inj same
            have accounts := invariant.accounts queue rfl
            simpa [MessageQueues.childCall, sentOf, receivedOf] using
              accounts.send (childMessage beyond)
          · intro undisturbed
            exact (invariant.settled undisturbed.of_append).childSends

theorem Invariant.msgrcv (invariant : Invariant old beyond events state)
    (receiving : state.parent = .receiving) (ready : HasMessage 1 state.queue) :
    Invariant old beyond (events ++ (MessageQueues.msgrcv state).2)
      (MessageQueues.msgrcv state).1 := by
  obtain ⟨queue, parent, child⟩ := state
  cases receiving
  obtain rfl : child = .exited := invariant.reaped trivial
  cases queue with
  | none =>
      refine ⟨nofun, nofun, nofun, fun _ => rfl, ?_⟩
      intro undisturbed
      obtain ⟨queue, gone⟩ := (invariant.settled undisturbed.of_append).present nofun
      cases gone
  | some queue =>
      have accounts := invariant.accounts queue rfl
      cases taken : receive 1 queue with
      | none => exact (ready taken).elim
      | some entry =>
          obtain ⟨message, rest⟩ := entry
          by_cases fits : message.text.length ≤ sizeofMessage
          · simp only [MessageQueues.msgrcv, taken, if_pos fits]
            refine ⟨?_, nofun, nofun, fun _ => rfl, ?_⟩
            · intro _ same
              obtain rfl := Option.some.inj same
              simpa [sentOf, receivedOf] using accounts.receive taken
            · intro undisturbed
              have settled := invariant.settled undisturbed.of_append
              refine settled.prints trivial (settled.taken accounts trivial trivial taken) rfl ?_
              simp [shown, fits]
          · simp only [MessageQueues.msgrcv, taken, if_neg fits]
            refine ⟨?_, nofun, nofun, fun _ => rfl, ?_⟩
            · simpa [sentOf, receivedOf] using accounts
            · intro undisturbed
              have settled := invariant.settled undisturbed.of_append
              refine settled.prints trivial (settled.taken accounts trivial trivial taken) rfl ?_
              simp [shown, fits]

theorem Invariant.parentCall (invariant : Invariant old beyond events state)
    (ready : ParentReady state) (succeeds : Bool) :
    Invariant old beyond (events ++ (MessageQueues.parentCall state succeeds).2)
      (MessageQueues.parentCall state succeeds).1 := by
  obtain ⟨queue, parent, child⟩ := state
  cases parent with
  | forking =>
      obtain rfl := invariant.unborn rfl
      cases succeeds with
      | true =>
          refine ⟨?_, nofun, nofun, nofun, fun undisturbed => ?_⟩
          · simpa [MessageQueues.parentCall] using invariant.accounts
          · have settled := invariant.settled undisturbed.of_append
            exact settled.silent Iff.rfl rfl rfl nofun (fun _ => settled.present nofun) id
      | false =>
          refine ⟨?_, nofun, fun _ => .inr rfl, nofun, fun undisturbed => ?_⟩
          · simpa [MessageQueues.parentCall] using invariant.accounts
          · have settled := invariant.settled undisturbed.of_append
            exact settled.silent Iff.rfl rfl rfl nofun (fun _ => settled.present nofun) nofun
  | waiting =>
      obtain rfl : child = .exited := ready
      refine ⟨?_, nofun, nofun, fun _ => rfl, fun undisturbed => ?_⟩
      · simpa [MessageQueues.parentCall] using invariant.accounts
      · have settled := invariant.settled undisturbed.of_append
        exact settled.silent Iff.rfl rfl rfl nofun (fun _ => settled.present nofun) id
  | receiving => exact invariant.msgrcv rfl ready
  | removing =>
      obtain rfl : child = .exited := invariant.reaped trivial
      refine ⟨nofun, nofun, nofun, fun _ => rfl, fun undisturbed => ?_⟩
      have settled := invariant.settled undisturbed.of_append
      exact settled.silent Iff.rfl rfl rfl (by simp [MessageQueues.parentCall])
        (fun running => absurd rfl running) nofun
  | exited => exact ready.elim

/-- The parent prints in the step in which it looks for a message, and in no other. -/
def Parent.texts : Parent → Nat
  | .removing => 1
  | .exited 0 => 1
  | _ => 0

theorem texts_parentCall (ready : ParentReady state) (succeeds : Bool) :
    state.parent.texts + (textsOf (MessageQueues.parentCall state succeeds).2).length =
      (MessageQueues.parentCall state succeeds).1.parent.texts := by
  obtain ⟨queue, parent, child⟩ := state
  cases parent with
  | forking => cases succeeds <;> rfl
  | waiting => rfl
  | receiving =>
      show 0 + (textsOf (MessageQueues.msgrcv ⟨queue, .receiving, child⟩).2).length =
        (MessageQueues.msgrcv ⟨queue, .receiving, child⟩).1.parent.texts
      unfold MessageQueues.msgrcv
      dsimp only
      split
      · rfl
      · split
        · rfl
        · split <;> rfl
  | removing => rfl
  | exited => exact ready.elim

theorem texts_childCall (beyond : List Byte) (state : State) :
    textsOf (MessageQueues.childCall beyond state).2 = [] ∧
      (MessageQueues.childCall beyond state).1.parent = state.parent := by
  obtain ⟨queue, parent, child⟩ := state
  cases child with
  | sending => cases queue <;> exact ⟨rfl, rfl⟩
  | absent | leaving | exited => exact ⟨rfl, rfl⟩

theorem texts_otherCall (state : State) (act : Act) :
    textsOf (MessageQueues.otherCall state act).2 = [] ∧
      (MessageQueues.otherCall state act).1.parent = state.parent := by
  obtain ⟨queue, parent, child⟩ := state
  cases queue with
  | none => exact ⟨rfl, rfl⟩
  | some queue =>
      cases act with
      | send message => exact ⟨rfl, rfl⟩
      | receive msgtyp =>
          cases taken : Message.receive msgtyp queue <;>
            simp [MessageQueues.otherCall, taken, textsOf]
      | remove => exact ⟨rfl, rfl⟩

end Steps

section Runs

variable {old : List Msg} {qbytes : Nat} {beyond : List Byte} {steps : List (State × Move)}
  {state : State}

theorem run_invariant (run : (messageQueues old qbytes beyond).Run steps state) :
    Invariant old beyond ((messageQueues old qbytes beyond).trace steps) state := by
  apply run.traceInvariant (Invariant old beyond)
  case start =>
    rintro _ rfl
    refine ⟨?_, fun _ => rfl, fun _ => .inl rfl, nofun, fun _ => ?_⟩
    · intro _ same type
      obtain rfl := Option.some.inj same
      simp [sentOf, receivedOf]
    · exact ⟨fun _ => rfl, nofun, fun _ => ⟨old, rfl⟩, fun _ => ⟨rfl, nofun⟩, nofun⟩
  case keep =>
    intro events _ state move _ invariant admitted
    cases move with
    | parent succeeds => exact invariant.parentCall admitted succeeds
    | child => exact invariant.childCall admitted
    | other act => exact invariant.otherCall act

theorem run_texts (run : (messageQueues old qbytes beyond).Run steps state) :
    (textsOf ((messageQueues old qbytes beyond).trace steps)).length = state.parent.texts := by
  apply run.traceInvariant fun events state => (textsOf events).length = state.parent.texts
  case start =>
    rintro _ rfl
    rfl
  case keep =>
    intro events _ state move _ counted admitted
    rw [textsOf_append, List.length_append, counted]
    cases move with
    | parent succeeds => exact texts_parentCall admitted succeeds
    | child =>
        obtain ⟨mute, same⟩ := texts_childCall beyond state
        show _ + (textsOf (MessageQueues.childCall beyond state).2).length =
          (MessageQueues.childCall beyond state).1.parent.texts
        rw [mute, same]
        rfl
    | other act =>
        obtain ⟨mute, same⟩ := texts_otherCall state act
        show _ + (textsOf (MessageQueues.otherCall state act).2).length =
          (MessageQueues.otherCall state act).1.parent.texts
        rw [mute, same]
        rfl

/-- Only a full queue can hold the two processes up. -/
theorem Invariant.goesOn {events : List Event} (invariant : Invariant old beyond events state)
    (undisturbed : Undisturbed events) :
    (∃ status, state.parent = .exited status) ∨
      (messageQueues old qbytes beyond).admits state (.parent true) ∨
      (messageQueues old qbytes beyond).admits state .child ∨
      state.child = .sending ∧ ¬ HasRoom qbytes (childMessage beyond) state.queue := by
  have settled := invariant.settled undisturbed
  obtain ⟨queue, parent, child⟩ := state
  cases parent with
  | forking => exact .inr (.inl trivial)
  | waiting =>
      cases child with
      | absent =>
          rcases invariant.forked rfl with forking | failed
          · cases forking
          · cases failed
      | sending =>
          by_cases room : HasRoom qbytes (childMessage beyond) queue
          · exact .inr (.inr (.inl room))
          · exact .inr (.inr (.inr ⟨rfl, room⟩))
      | leaving => exact .inr (.inr (.inl trivial))
      | exited => exact .inr (.inl rfl)
  | receiving =>
      obtain rfl : child = .exited := invariant.reaped trivial
      obtain ⟨queue, rfl⟩ : ∃ messages, queue = some messages := settled.present nofun
      exact .inr (.inl (settled.hasMessage (invariant.accounts queue rfl) trivial trivial))
  | removing => exact .inr (.inl trivial)
  | exited status => exact .inl ⟨status, rfl⟩

end Runs

/-- The queue holds a message from before. -/
def leftover : List Msg := [⟨1, ascii "hi"⟩]

def zeros : List Byte := List.replicate typeSize 0

theorem length_zeros : zeros.length = typeSize := List.length_replicate

def leftoverMoves : List Move := [.parent true, .child, .child, .parent true, .parent true]

theorem leftover_run : (messageQueues leftover 2000 zeros).Run
    ((messageQueues leftover 2000 zeros).follow ⟨some leftover, .forking, .absent⟩ leftoverMoves)
    ((messageQueues leftover 2000 zeros).finish ⟨some leftover, .forking, .absent⟩
      leftoverMoves) := by
  have room : bytesIn leftover + (childMessage zeros).text.length ≤ 2000 ∧
      leftover.length + 1 ≤ 2000 := by
    rw [length_childMessage length_zeros]
    decide
  exact .of_admitted rfl ⟨trivial, room, trivial, rfl, nofun, trivial⟩

theorem leftover_trace : (messageQueues leftover 2000 zeros).trace
    ((messageQueues leftover 2000 zeros).follow ⟨some leftover, .forking, .absent⟩ leftoverMoves) =
      [.sent .child (childMessage zeros), .said .child (ascii "Child sent message to queue\n"),
        .received .parent ⟨1, ascii "hi"⟩, .said .parent (report (stored (ascii "hi")))] := rfl

end CBasics.MessageQueues
