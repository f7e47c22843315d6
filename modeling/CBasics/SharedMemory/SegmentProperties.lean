import CBasics.SharedMemory.Basic

/-! The segment is there as long as one of the two needs it, and not for them any longer. -/

set_option autoImplicit false

namespace CBasics.SharedMemory

open Library
open Segment (Attached Held Removed Keeps)

/-- The child has removed the segment, or may not. -/
def Child.Past : Child → Prop
  | .detaching | .exited _ => True
  | .absent | .greeting | .writing | .removing => False

/-- The child has left its message. -/
def Child.Written : Child → Prop
  | .removing | .detaching | .exited _ => True
  | .absent | .greeting | .writing => False

def Parent.Waited : Parent → Prop
  | .reading | .removing | .detaching => True
  | .forking | .waiting | .exited _ => False

theorem Holder.apart {Name : Type} : (Holder.parent : Holder Name) ≠ .child := nofun

/-- Nobody else has written since the child has. -/
def Undisturbed (events : List Event) : Prop :=
  Since (.wrote .child) (· = .wrote .other) events

variable {Name : Type} {mayRemove : Bool}

structure Invariant (mayRemove : Bool) (events : List Event) (state : State Name) : Prop where
  held : Held state.segment
  roomy : Keeps (shmSize ≤ ·.length) state.segment
  parentHolds : (∀ status, state.parent ≠ .exited status) → Attached state.segment .parent
  childHolds : Attached state.segment .child ↔ state.child.ready
  forking : state.parent = .forking → state.child = .absent
  born : state.parent = .waiting → state.child ≠ .absent
  permitted : state.child = .detaching ∨ state.parent = .detaching → mayRemove = true
  waited : state.parent.Waited → ∃ status, state.child = .exited status
  written : state.child.Written → .wrote .child ∈ events
  fresh : Undisturbed events → Keeps (cString · = childMessage) state.segment
  removed : mayRemove = true → state.child.Past → Removed state.segment
  childStatus : ∀ status, state.child = .exited status → status = if mayRemove then 0 else 1
  parentLeft : (∃ status, state.parent = .exited status) → ¬ Attached state.segment .parent
  parentStatus : ∀ status, state.parent = .exited status →
    (∃ childStatus, state.child = .exited childStatus) ∧ status = (if mayRemove then 0 else 1) ∨
      state.child = .absent ∧ status = 1

section Steps

variable {events more : List Event} {state : State Name}

/-- The segment changes, but who of the two has it attached does not. -/
theorem Invariant.change (invariant : Invariant mayRemove events state)
    {segment : Option (Segment (Holder Name) (List Byte))} (held : Held segment)
    (roomy : Keeps (shmSize ≤ ·.length) segment)
    (parent : Attached segment .parent ↔ Attached state.segment .parent)
    (child : Attached segment .child ↔ Attached state.segment .child)
    (fresh : Undisturbed (events ++ more) → Keeps (cString · = childMessage) segment)
    (removed : Removed state.segment → Removed segment) :
    Invariant mayRemove (events ++ more) { state with segment := segment } where
  held := held
  roomy := roomy
  parentHolds := fun running => parent.mpr (invariant.parentHolds running)
  childHolds := child.trans invariant.childHolds
  forking := invariant.forking
  born := invariant.born
  permitted := invariant.permitted
  waited := invariant.waited
  written := fun written => List.mem_append_left _ (invariant.written written)
  fresh := fresh
  removed := fun may past => removed (invariant.removed may past)
  childStatus := invariant.childStatus
  parentLeft := fun exited => parent.not.mpr (invariant.parentLeft exited)
  parentStatus := invariant.parentStatus

/-- The child gets further, but not to its end. -/
theorem Invariant.childMoves (invariant : Invariant mayRemove events state)
    (ready : state.child.ready) (child : Child) (active : child.ready)
    (permitted : child = .detaching → mayRemove = true)
    (written : child.Written → .wrote .child ∈ events)
    (removed : mayRemove = true → child.Past → Removed state.segment) :
    Invariant mayRemove events { state with child := child } where
  held := invariant.held
  roomy := invariant.roomy
  parentHolds := invariant.parentHolds
  childHolds := ⟨fun _ => active, fun _ => invariant.childHolds.mpr ready⟩
  forking := fun forking => by
    rw [invariant.forking forking] at ready
    exact ready.elim
  born := fun _ absent => by
    subst absent
    exact active
  permitted := fun detaching =>
    detaching.elim permitted fun last => invariant.permitted (.inr last)
  waited := fun waited => by
    obtain ⟨status, exited⟩ := invariant.waited waited
    rw [exited] at ready
    exact ready.elim
  written := written
  fresh := invariant.fresh
  removed := removed
  childStatus := by
    rintro status ⟨⟩
    exact active.elim
  parentLeft := invariant.parentLeft
  parentStatus := fun status exited => by
    rcases invariant.parentStatus status exited with ⟨⟨_, gone⟩, -⟩ | ⟨gone, -⟩
    · rw [gone] at ready
      exact ready.elim
    · rw [gone] at ready
      exact ready.elim

/-- After its wait the parent gets further, but not to its end. -/
theorem Invariant.parentMoves (invariant : Invariant mayRemove events state)
    (running : ∀ status, state.parent ≠ .exited status) (parent : Parent) (later : parent.Waited)
    (permitted : parent = .detaching → mayRemove = true)
    (waited : ∃ status, state.child = .exited status) :
    Invariant mayRemove events { state with parent := parent } where
  held := invariant.held
  roomy := invariant.roomy
  parentHolds := fun _ => invariant.parentHolds running
  childHolds := invariant.childHolds
  forking := by
    rintro rfl
    exact later.elim
  born := by
    rintro rfl
    exact later.elim
  permitted := fun detaching =>
    detaching.elim (fun first => invariant.permitted (.inl first)) permitted
  waited := fun _ => waited
  written := invariant.written
  fresh := invariant.fresh
  removed := invariant.removed
  childStatus := invariant.childStatus
  parentLeft := by
    rintro ⟨status, rfl⟩
    exact later.elim
  parentStatus := by
    rintro status rfl
    exact later.elim

theorem Invariant.said (invariant : Invariant mayRemove events state) (who : Who)
    (text : List Byte) : Invariant mayRemove (events ++ [.said who text]) state :=
  invariant.change invariant.held invariant.roomy .rfl .rfl
    (fun undisturbed => invariant.fresh (undisturbed.of_append (by simp)).1) id

theorem Invariant.childWrites (invariant : Invariant mayRemove events state) :
    Invariant mayRemove (events ++ [.wrote .child])
      { state with segment := Segment.write (putString · childMessage) state.segment } := by
  refine invariant.change (invariant.held.write _) ?roomy Segment.attached_write
    Segment.attached_write ?fresh fun removed => removed.write _
  case roomy =>
    refine invariant.roomy.write fun contents long => ?_
    rw [length_putString]
    exact long
  case fresh =>
    intro _
    refine invariant.roomy.write fun contents long => ?_
    have fits : childMessage.length ≤ contents.length := Nat.le_trans (by decide) long
    rw [cString_putString contents (by decide), List.take_of_length_le fits]

theorem Invariant.otherWrites (invariant : Invariant mayRemove events state)
    {contents : List Byte} (long : shmSize ≤ contents.length) :
    Invariant mayRemove (events ++ [.wrote .other])
      { state with segment := Segment.write (fun _ => contents) state.segment } :=
  invariant.change (invariant.held.write _) (invariant.roomy.write fun _ _ => long)
    Segment.attached_write Segment.attached_write
    (fun undisturbed =>
      ((undisturbed.of_append (by simp)).2 _ (List.mem_singleton_self _) rfl).elim)
    fun removed => removed.write _

/-- Nothing is written: the segment is attached, detached or removed by somebody. -/
theorem Invariant.relink (invariant : Invariant mayRemove events state)
    {segment : Option (Segment (Holder Name) (List Byte))} (held : Held segment)
    (keeps : ∀ {P : List Byte → Prop}, Keeps P state.segment → Keeps P segment)
    (parent : Attached segment .parent ↔ Attached state.segment .parent)
    (child : Attached segment .child ↔ Attached state.segment .child)
    (removed : Removed state.segment → Removed segment) :
    Invariant mayRemove events { state with segment := segment } := by
  have changed : Invariant mayRemove (events ++ []) { state with segment := segment } := by
    refine invariant.change held (keeps invariant.roomy) parent child ?_ removed
    rw [List.append_nil]
    exact fun undisturbed => keeps (invariant.fresh undisturbed)
  rwa [List.append_nil] at changed

/-- Once the parent has ended well, a segment that is left is somebody else's. -/
theorem Invariant.left (invariant : Invariant mayRemove events state)
    (exited : state.parent = .exited 0) :
    ∀ segment ∈ state.segment, segment.removed = true ∧
      ∃ name, .other name ∈ segment.attached := by
  intro segment member
  have gone : mayRemove = true ∧ ∃ status, state.child = .exited status := by
    rcases invariant.parentStatus 0 exited with ⟨waited, ends⟩ | ⟨-, failed⟩
    · by_cases may : mayRemove = true
      · exact ⟨may, waited⟩
      · rw [if_neg may] at ends
        cases ends
    · cases failed
  obtain ⟨may, status, ended⟩ := gone
  have removed : segment.removed = true := by
    refine invariant.removed may ?_ segment member
    rw [ended]
    trivial
  obtain ⟨holder, inside⟩ := invariant.held segment member removed
  refine ⟨removed, ?_⟩
  cases holder with
  | parent => exact (invariant.parentLeft ⟨0, exited⟩ ⟨segment, member, inside⟩).elim
  | child =>
      have ready := invariant.childHolds.mp ⟨segment, member, inside⟩
      rw [ended] at ready
      exact ready.elim
  | other name => exact ⟨name, inside⟩

theorem removable_iff {holder : Holder Name} (attached : Attached state.segment holder) :
    Removable mayRemove state ↔ mayRemove = true := by
  obtain ⟨segment, member, -⟩ := attached
  have there : state.segment.isSome = true := Option.isSome_of_mem member
  exact ⟨And.left, fun may => ⟨may, there⟩⟩

variable [DecidableEq Name]

theorem Invariant.childExits (invariant : Invariant mayRemove events state)
    (ready : state.child.ready) (status : Nat) (ends : status = if mayRemove then 0 else 1)
    (written : .wrote .child ∈ events) (removed : mayRemove = true → Removed state.segment) :
    Invariant mayRemove events (state.exitChild status) where
  held := Segment.held_detach _ _
  roomy := invariant.roomy.detach _
  parentHolds := fun running =>
    (Segment.attached_detach_other Holder.apart).mpr (invariant.parentHolds running)
  childHolds := ⟨fun attached => (Segment.not_attached_detach _ _ attached).elim, False.elim⟩
  forking := fun forking => by
    rw [invariant.forking forking] at ready
    exact ready.elim
  born := nofun
  permitted := fun detaching => detaching.elim nofun fun last => invariant.permitted (.inr last)
  waited := fun _ => ⟨status, rfl⟩
  written := fun _ => written
  fresh := fun undisturbed => (invariant.fresh undisturbed).detach _
  removed := fun may _ => (removed may).detach _
  childStatus := by
    rintro _ ⟨⟩
    exact ends
  parentLeft := fun exited attached =>
    invariant.parentLeft exited ((Segment.attached_detach_other Holder.apart).mp attached)
  parentStatus := fun status exited => by
    rcases invariant.parentStatus status exited with ⟨⟨_, gone⟩, -⟩ | ⟨gone, -⟩
    · rw [gone] at ready
      exact ready.elim
    · rw [gone] at ready
      exact ready.elim

theorem Invariant.parentExits (invariant : Invariant mayRemove events state) (status : Nat)
    (ends : (∃ childStatus, state.child = .exited childStatus) ∧
        status = (if mayRemove then 0 else 1) ∨ state.child = .absent ∧ status = 1) :
    Invariant mayRemove events (state.exitParent status) where
  held := Segment.held_detach _ _
  roomy := invariant.roomy.detach _
  parentHolds := fun running => (running status rfl).elim
  childHolds := (Segment.attached_detach_other Holder.apart.symm).trans invariant.childHolds
  forking := nofun
  born := nofun
  permitted := fun detaching => detaching.elim (fun first => invariant.permitted (.inl first)) nofun
  waited := False.elim
  written := invariant.written
  fresh := fun undisturbed => (invariant.fresh undisturbed).detach _
  removed := fun may past => (invariant.removed may past).detach _
  childStatus := invariant.childStatus
  parentLeft := fun _ => Segment.not_attached_detach _ _
  parentStatus := by
    rintro _ ⟨⟩
    exact ends

theorem Invariant.forks (invariant : Invariant mayRemove events state)
    (forking : state.parent = .forking) :
    Invariant mayRemove events
      { state with
        segment := Segment.attach .child state.segment
        parent := .waiting
        child := .greeting } := by
  have holds : Attached state.segment .parent :=
    invariant.parentHolds fun status exited => nomatch forking.symm.trans exited
  exact {
    held := Segment.held_attach _ _
    roomy := invariant.roomy.attach _
    parentHolds := fun _ => (Segment.attached_attach_other Holder.apart).mpr holds
    childHolds := ⟨fun _ => trivial, fun _ => Segment.attached_attach holds _⟩
    forking := nofun
    born := nofun
    permitted := fun detaching => detaching.elim nofun nofun
    waited := False.elim
    written := False.elim
    fresh := fun undisturbed => (invariant.fresh undisturbed).attach _
    removed := fun _ => False.elim
    childStatus := nofun
    parentLeft := nofun
    parentStatus := nofun }

theorem Invariant.removes (invariant : Invariant mayRemove events state) :
    Invariant mayRemove events { state with segment := Segment.remove state.segment } :=
  invariant.relink (Segment.held_remove _) Keeps.remove Segment.attached_remove
    Segment.attached_remove fun _ => Segment.removed_remove _

theorem Invariant.otherCall (invariant : Invariant mayRemove events state) {name : Name}
    {act : Act} (admitted : Admits state (.other name act)) :
    Invariant mayRemove (events ++ (SharedMemory.otherCall state name act).2)
      (SharedMemory.otherCall state name act).1 := by
  have parent : (Holder.parent : Holder Name) ≠ .other name := nofun
  have child : (Holder.child : Holder Name) ≠ .other name := nofun
  cases act with
  | attach =>
      simp only [SharedMemory.otherCall, List.append_nil]
      exact invariant.relink (Segment.held_attach _ _) (Keeps.attach · _)
        (Segment.attached_attach_other parent) (Segment.attached_attach_other child)
        (Removed.attach · _)
  | detach =>
      simp only [SharedMemory.otherCall, List.append_nil]
      exact invariant.relink (Segment.held_detach _ _) (Keeps.detach · _)
        (Segment.attached_detach_other parent) (Segment.attached_detach_other child)
        (Removed.detach · _)
  | remove =>
      simp only [SharedMemory.otherCall, List.append_nil]
      exact invariant.removes
  | write contents => exact invariant.otherWrites admitted

theorem Invariant.childCall (invariant : Invariant mayRemove events state)
    (ready : state.child.ready) :
    Invariant mayRemove (events ++ (SharedMemory.childCall mayRemove state).2)
      (SharedMemory.childCall mayRemove state).1 := by
  have attached := invariant.childHolds.mpr ready
  unfold SharedMemory.childCall
  cases stands : state.child with
  | greeting =>
      exact (invariant.said .child childText).childMoves ready .writing trivial nofun
        False.elim fun _ => False.elim
  | writing =>
      exact invariant.childWrites.childMoves ready .removing trivial nofun
        (fun _ => List.mem_append_right _ (List.mem_singleton_self _)) fun _ => False.elim
  | removing =>
      have written := invariant.written (by rw [stands]; trivial)
      by_cases may : mayRemove = true
      · simp only [removable_iff attached, if_pos may, List.append_nil]
        exact invariant.removes.childMoves ready .detaching trivial (fun _ => may)
          (fun _ => written) fun _ _ => Segment.removed_remove _
      · simp only [removable_iff attached, if_neg may, List.append_nil]
        exact invariant.childExits ready 1 (if_neg may).symm written fun must => (may must).elim
  | detaching =>
      have written := invariant.written (by rw [stands]; trivial)
      have may := invariant.permitted (.inl stands)
      simp only [if_pos attached, List.append_nil]
      exact invariant.childExits ready 0 (if_pos may).symm written
        fun may => invariant.removed may (by rw [stands]; trivial)
  | absent | exited =>
      rw [stands] at ready
      exact ready.elim

theorem Invariant.parentCall (invariant : Invariant mayRemove events state)
    (ready : state.parent.ready state.child) (forks : Bool) :
    Invariant mayRemove (events ++ (SharedMemory.parentCall mayRemove state forks).2)
      (SharedMemory.parentCall mayRemove state forks).1 := by
  have running : ∀ status, state.parent ≠ .exited status := by
    intro status exited
    rw [exited] at ready
    exact ready.elim
  have attached := invariant.parentHolds running
  unfold SharedMemory.parentCall
  cases stands : state.parent with
  | forking =>
      cases forks with
      | false =>
          simp only [Bool.false_eq_true, if_false, List.append_nil]
          exact invariant.parentExits 1 (.inr ⟨invariant.forking stands, rfl⟩)
      | true =>
          simp only [if_true, List.append_nil]
          exact invariant.forks stands
  | waiting =>
      rw [stands] at ready
      rw [List.append_nil]
      exact invariant.parentMoves running .reading trivial nofun ready
  | reading =>
      have waited := invariant.waited (by rw [stands]; trivial)
      obtain ⟨segment, member, -⟩ := attached
      have said := invariant.said .parent (report segment.contents)
      have moved := said.parentMoves running .removing trivial nofun waited
      have printed : retrieved state.segment = [.said .parent (report segment.contents)] := by
        rw [retrieved, Option.mem_def.mp member, Option.map_some, Option.toList_some]
      simp only [printed]
      exact moved
  | removing =>
      have waited := invariant.waited (by rw [stands]; trivial)
      by_cases may : mayRemove = true
      · simp only [removable_iff attached, if_pos may, List.append_nil]
        exact invariant.removes.parentMoves running .detaching trivial (fun _ => may) waited
      · simp only [removable_iff attached, if_neg may, List.append_nil]
        exact invariant.parentExits 1 (.inl ⟨waited, (if_neg may).symm⟩)
  | detaching =>
      have waited := invariant.waited (by rw [stands]; trivial)
      have may := invariant.permitted (.inr stands)
      simp only [if_pos attached, List.append_nil]
      exact invariant.parentExits 0 (.inl ⟨waited, (if_pos may).symm⟩)
  | exited => exact (running _ stands).elim

/-- At every time one of the two can go on, until the parent has ended. -/
theorem Invariant.goesOn (invariant : Invariant mayRemove events state) :
    (∃ status, state.parent = .exited status) ∨
      (sharedMemory mayRemove).admits state (.parent true) ∨
        (sharedMemory mayRemove).admits state .child := by
  cases stands : state.parent with
  | exited status => exact .inl ⟨status, rfl⟩
  | waiting =>
      right
      change state.parent.ready state.child ∨ state.child.ready
      rw [stands]
      cases child : state.child with
      | absent => exact (invariant.born stands child).elim
      | exited status => exact .inl ⟨status, rfl⟩
      | greeting | writing | removing | detaching => exact .inr trivial
  | forking | reading | removing | detaching =>
      right
      left
      change state.parent.ready state.child
      rw [stands]
      trivial

theorem length_emits_le (mayRemove : Bool) (state : State Name) (move : Move Name) :
    ((sharedMemory mayRemove).emits state move).length ≤ 1 := by
  cases move with
  | parent forks =>
      change (parentCall mayRemove state forks).2.length ≤ 1
      unfold parentCall
      cases state.parent with
      | reading => cases state.segment <;> simp [retrieved]
      | forking | removing | detaching =>
          dsimp only
          split <;> exact Nat.zero_le 1
      | waiting | exited => exact Nat.zero_le 1
  | child =>
      change (childCall mayRemove state).2.length ≤ 1
      unfold childCall
      cases state.child with
      | greeting | writing => exact Nat.le_refl 1
      | removing | detaching =>
          dsimp only
          split <;> exact Nat.zero_le 1
      | absent | exited => exact Nat.zero_le 1
  | other name act => cases act <;> simp [System.emits, sharedMemory, otherCall]

theorem said_of_mem_emits {move : Move Name} {text : List Byte}
    (said : .said .parent text ∈ (sharedMemory mayRemove).emits state move) :
    state.parent = .reading ∧ ∃ segment ∈ state.segment, text = report segment.contents := by
  cases move with
  | parent forks =>
      change _ ∈ (parentCall mayRemove state forks).2 at said
      unfold parentCall at said
      cases stands : state.parent with
      | reading =>
          simp only [stands, retrieved, Option.mem_toList,
            Option.map_eq_some_iff] at said
          obtain ⟨segment, member, same⟩ := said
          exact ⟨rfl, segment, member, (Event.said.inj same).2.symm⟩
      | forking | removing | detaching =>
          simp only [stands] at said
          split at said <;> cases said
      | waiting | exited =>
          simp only [stands] at said
          cases said
  | child =>
      change _ ∈ (childCall mayRemove state).2 at said
      unfold childCall at said
      cases stands : state.child with
      | greeting | writing => simp [stands] at said
      | removing | detaching =>
          simp only [stands] at said
          split at said <;> cases said
      | absent | exited =>
          simp only [stands] at said
          cases said
  | other name act => cases act <;> simp [System.emits, sharedMemory, otherCall] at said

end Steps

variable [DecidableEq Name]

section Runs

variable {steps : List (State Name × Move Name)} {state : State Name}

theorem run_invariant (run : (sharedMemory mayRemove).Run steps state) :
    Invariant mayRemove ((sharedMemory mayRemove).trace steps) state := by
  apply run.traceInvariant (Invariant mayRemove)
  case start =>
    rintro state ⟨holds, unborn, roomy, forking, absent⟩
    exact {
      held := by
        obtain ⟨segment, member, inside⟩ := holds
        rintro other same -
        obtain rfl : segment = other := Option.mem_unique member same
        exact ⟨_, inside⟩
      roomy := roomy
      parentHolds := fun _ => holds
      childHolds := by
        rw [absent]
        exact ⟨fun attached => (unborn attached).elim, False.elim⟩
      forking := fun _ => absent
      born := by
        rw [forking]
        exact nofun
      permitted := by
        rw [absent, forking]
        exact fun detaching => detaching.elim nofun nofun
      waited := by
        rw [forking]
        exact False.elim
      written := by
        rw [absent]
        exact False.elim
      fresh := by
        rintro ⟨before, after, split, -⟩
        cases before <;> cases split
      removed := fun _ => by
        rw [absent]
        exact False.elim
      childStatus := by
        rw [absent]
        exact nofun
      parentLeft := by
        rw [forking]
        exact nofun
      parentStatus := by
        rw [forking]
        exact nofun }
  case keep =>
    intro events _ state move _ invariant admitted
    cases move with
    | parent forks => exact invariant.parentCall admitted forks
    | child => exact invariant.childCall admitted
    | other name act => exact invariant.otherCall admitted

end Runs

def attachedStart : State Name :=
  ⟨some ⟨List.replicate shmSize 0, {.parent}, false⟩, .forking, .absent⟩

/-- Somebody else attaches the segment before the child has removed it, and keeps it. -/
def keptMoves (name : Name) : List (Move Name) :=
  [.parent true, .child, .other name .attach, .child, .child, .child, .parent true, .parent true,
    .parent true, .parent true]

omit [DecidableEq Name] in
theorem attachedStart_initial : Initial (attachedStart : State Name) := by
  refine ⟨⟨_, rfl, Finset.mem_singleton_self _⟩, ?_, ?_, rfl, rfl⟩
  · rintro ⟨_, ⟨⟩, inside⟩
    exact nomatch Finset.mem_singleton.mp inside
  · rintro _ ⟨⟩
    exact (List.length_replicate ..).ge

theorem kept_run : (sharedMemory true).Run
    ((sharedMemory true).follow attachedStart (keptMoves true))
    ((sharedMemory true).finish attachedStart (keptMoves true)) :=
  .of_admitted attachedStart_initial (by decide)

end CBasics.SharedMemory
