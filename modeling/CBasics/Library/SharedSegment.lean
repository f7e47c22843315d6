import Mathlib.Data.Finset.Erase
import Mathlib.Data.Finset.Insert

/-! Segments of shared memory. One that is removed lives on until the last of those that
have attached it lets it go. -/

set_option autoImplicit false

namespace CBasics.Library

structure Segment (Holder Contents : Type) where
  contents : Contents
  attached : Finset Holder
  removed : Bool

namespace Segment

variable {Holder Contents : Type} [DecidableEq Holder]

/-- A removed segment that nobody has attached is destroyed. -/
def settle (segment : Segment Holder Contents) : Option (Segment Holder Contents) :=
  if segment.removed = true ∧ segment.attached = ∅ then none else some segment

def attach (holder : Holder) (store : Option (Segment Holder Contents)) :
    Option (Segment Holder Contents) :=
  store.map fun segment => { segment with attached := insert holder segment.attached }

def detach (holder : Holder) (store : Option (Segment Holder Contents)) :
    Option (Segment Holder Contents) :=
  store.bind fun segment => settle { segment with attached := segment.attached.erase holder }

def remove (store : Option (Segment Holder Contents)) : Option (Segment Holder Contents) :=
  store.bind fun segment => settle { segment with removed := true }

def write (change : Contents → Contents) (store : Option (Segment Holder Contents)) :
    Option (Segment Holder Contents) :=
  store.map fun segment => { segment with contents := change segment.contents }

def Attached (store : Option (Segment Holder Contents)) (holder : Holder) : Prop :=
  ∃ segment ∈ store, holder ∈ segment.attached

instance (store : Option (Segment Holder Contents)) (holder : Holder) :
    Decidable (Attached store holder) :=
  match store with
  | none => isFalse nofun
  | some segment =>
      decidable_of_iff (holder ∈ segment.attached)
        ⟨fun inside => ⟨segment, rfl, inside⟩, fun ⟨_, same, inside⟩ =>
          Option.some.inj same ▸ inside⟩

/-- If it is still there, it has been removed. -/
def Removed (store : Option (Segment Holder Contents)) : Prop :=
  ∀ segment ∈ store, segment.removed = true

/-- A removed segment is there for somebody. -/
def Held (store : Option (Segment Holder Contents)) : Prop :=
  ∀ segment ∈ store, segment.removed = true → segment.attached.Nonempty

/-- Something that holds of what is kept in the segment. -/
def Keeps (P : Contents → Prop) (store : Option (Segment Holder Contents)) : Prop :=
  ∀ segment ∈ store, P segment.contents

variable {store : Option (Segment Holder Contents)} {holder other : Holder}

theorem settle_eq_some {segment settled : Segment Holder Contents}
    (there : settle segment = some settled) :
    settled = segment ∧ (segment.removed = true → segment.attached.Nonempty) := by
  unfold settle at there
  by_cases gone : segment.removed = true ∧ segment.attached = ∅
  · rw [if_pos gone] at there
    cases there
  · rw [if_neg gone] at there
    refine ⟨(Option.some.inj there).symm, fun removed => ?_⟩
    exact Finset.nonempty_iff_ne_empty.mpr fun empty => gone ⟨removed, empty⟩

theorem settle_of_mem {segment : Segment Holder Contents} (inside : holder ∈ segment.attached) :
    settle segment = some segment := by
  refine if_neg fun gone => ?_
  rw [gone.2] at inside
  exact Finset.notMem_empty _ inside

/-- What is left after an operation was there before, changed by the operation. -/
theorem of_mem_attach {segment : Segment Holder Contents} (there : segment ∈ attach holder store) :
    ∃ before ∈ store, segment = { before with attached := insert holder before.attached } := by
  obtain ⟨before, member, same⟩ := Option.map_eq_some_iff.mp there
  exact ⟨before, member, same.symm⟩

theorem of_mem_detach {segment : Segment Holder Contents} (there : segment ∈ detach holder store) :
    (segment.removed = true → segment.attached.Nonempty) ∧
      ∃ before ∈ store, segment = { before with attached := before.attached.erase holder } := by
  obtain ⟨before, member, settled⟩ := Option.bind_eq_some_iff.mp there
  obtain ⟨rfl, held⟩ := settle_eq_some settled
  exact ⟨held, before, member, rfl⟩

theorem of_mem_remove {segment : Segment Holder Contents} (there : segment ∈ remove store) :
    segment.attached.Nonempty ∧ ∃ before ∈ store, segment = { before with removed := true } := by
  obtain ⟨before, member, settled⟩ := Option.bind_eq_some_iff.mp there
  obtain ⟨rfl, held⟩ := settle_eq_some settled
  exact ⟨held rfl, before, member, rfl⟩

omit [DecidableEq Holder] in
theorem of_mem_write {change : Contents → Contents} {segment : Segment Holder Contents}
    (there : segment ∈ write change store) :
    ∃ before ∈ store, segment = { before with contents := change before.contents } := by
  obtain ⟨before, member, same⟩ := Option.map_eq_some_iff.mp there
  exact ⟨before, member, same.symm⟩

section Attached

theorem attached_attach (there : Attached store other) (holder : Holder) :
    Attached (attach holder store) holder := by
  obtain ⟨segment, member, -⟩ := there
  exact ⟨_, Option.map_eq_some_iff.mpr ⟨segment, member, rfl⟩, Finset.mem_insert_self ..⟩

theorem not_attached_detach (holder : Holder) (store : Option (Segment Holder Contents)) :
    ¬ Attached (detach holder store) holder := by
  rintro ⟨_, there, inside⟩
  obtain ⟨-, segment, -, rfl⟩ := of_mem_detach there
  exact Finset.notMem_erase _ _ inside

theorem attached_attach_other (different : other ≠ holder) :
    Attached (attach holder store) other ↔ Attached store other := by
  constructor
  · rintro ⟨_, there, inside⟩
    obtain ⟨segment, member, rfl⟩ := of_mem_attach there
    exact ⟨segment, member, Finset.mem_of_mem_insert_of_ne inside different⟩
  · rintro ⟨segment, member, inside⟩
    exact ⟨_, Option.map_eq_some_iff.mpr ⟨segment, member, rfl⟩, Finset.mem_insert_of_mem inside⟩

/-- Nobody's letting go takes the segment from anybody else. -/
theorem attached_detach_other (different : other ≠ holder) :
    Attached (detach holder store) other ↔ Attached store other := by
  constructor
  · rintro ⟨_, there, inside⟩
    obtain ⟨-, segment, member, rfl⟩ := of_mem_detach there
    exact ⟨segment, member, Finset.mem_of_mem_erase inside⟩
  · rintro ⟨segment, member, inside⟩
    have kept : other ∈ segment.attached.erase holder := Finset.mem_erase.mpr ⟨different, inside⟩
    exact ⟨_, Option.bind_eq_some_iff.mpr ⟨segment, member, settle_of_mem kept⟩, kept⟩

theorem attached_remove : Attached (remove store) other ↔ Attached store other := by
  constructor
  · rintro ⟨_, there, inside⟩
    obtain ⟨-, segment, member, rfl⟩ := of_mem_remove there
    exact ⟨segment, member, inside⟩
  · rintro ⟨segment, member, inside⟩
    exact ⟨_, Option.bind_eq_some_iff.mpr ⟨segment, member, settle_of_mem inside⟩, inside⟩

omit [DecidableEq Holder] in
theorem attached_write {change : Contents → Contents} :
    Attached (write change store) other ↔ Attached store other := by
  constructor
  · rintro ⟨_, there, inside⟩
    obtain ⟨segment, member, rfl⟩ := of_mem_write there
    exact ⟨segment, member, inside⟩
  · rintro ⟨segment, member, inside⟩
    exact ⟨_, Option.map_eq_some_iff.mpr ⟨segment, member, rfl⟩, inside⟩

end Attached

section Held

theorem held_attach (holder : Holder) (store : Option (Segment Holder Contents)) :
    Held (attach holder store) := by
  intro _ there _
  obtain ⟨segment, -, rfl⟩ := of_mem_attach there
  exact Finset.insert_nonempty ..

theorem held_detach (holder : Holder) (store : Option (Segment Holder Contents)) :
    Held (detach holder store) :=
  fun _ there => (of_mem_detach there).1

theorem held_remove (store : Option (Segment Holder Contents)) : Held (remove store) :=
  fun _ there _ => (of_mem_remove there).1

omit [DecidableEq Holder] in
theorem Held.write (held : Held store) (change : Contents → Contents) :
    Held (write change store) := by
  intro _ there
  obtain ⟨segment, member, rfl⟩ := of_mem_write there
  exact held segment member

end Held

section Removed

theorem removed_remove (store : Option (Segment Holder Contents)) : Removed (remove store) := by
  intro _ there
  obtain ⟨-, segment, -, rfl⟩ := of_mem_remove there
  rfl

theorem Removed.attach (removed : Removed store) (holder : Holder) :
    Removed (attach holder store) := by
  intro _ there
  obtain ⟨segment, member, rfl⟩ := of_mem_attach there
  exact removed segment member

theorem Removed.detach (removed : Removed store) (holder : Holder) :
    Removed (detach holder store) := by
  intro _ there
  obtain ⟨-, segment, member, rfl⟩ := of_mem_detach there
  exact removed segment member

omit [DecidableEq Holder] in
theorem Removed.write (removed : Removed store) (change : Contents → Contents) :
    Removed (write change store) := by
  intro _ there
  obtain ⟨segment, member, rfl⟩ := of_mem_write there
  exact removed segment member

end Removed

section Keeps

variable {P Q : Contents → Prop}

theorem Keeps.attach (keeps : Keeps P store) (holder : Holder) :
    Keeps P (attach holder store) := by
  intro _ there
  obtain ⟨segment, member, rfl⟩ := of_mem_attach there
  exact keeps segment member

theorem Keeps.detach (keeps : Keeps P store) (holder : Holder) :
    Keeps P (detach holder store) := by
  intro _ there
  obtain ⟨-, segment, member, rfl⟩ := of_mem_detach there
  exact keeps segment member

theorem Keeps.remove (keeps : Keeps P store) : Keeps P (remove store) := by
  intro _ there
  obtain ⟨-, segment, member, rfl⟩ := of_mem_remove there
  exact keeps segment member

omit [DecidableEq Holder] in
theorem Keeps.write (keeps : Keeps P store) {change : Contents → Contents}
    (changed : ∀ contents, P contents → Q (change contents)) : Keeps Q (write change store) := by
  intro _ there
  obtain ⟨segment, member, rfl⟩ := of_mem_write there
  exact changed _ (keeps segment member)

end Keeps

end Segment

end CBasics.Library
