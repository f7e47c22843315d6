import CBasics.FileEvents.Basic

/-! The walk over a buffer of events: the length read in each header leads to
the next one, and from the last to the end of what was read. -/

set_option autoImplicit false

namespace CBasics.FileEvents

open Library

section Layout

variable {order : ByteOrder} {record : Record}

theorem length_bytes (order : ByteOrder) (record : Record) :
    (record.bytes order).length = headerSize + record.name.length := by
  simp only [Record.bytes, List.length_append, ByteOrder.length_storeWord, headerSize]

@[simp] theorem toNat_len (record : Record) : record.len.toNat = record.name.length := by
  rw [Record.len, BitVec.toNat_ofNat, Nat.mod_eq_of_lt record.nameFits]

theorem layout_cons (order : ByteOrder) (record : Record) (rest : List Record) :
    layout order (record :: rest) = record.bytes order ++ layout order rest :=
  List.flatMap_cons

theorem loadWord_read {memory : Nat → Byte} {address : Nat} {word : BitVec 32}
    (stored : Stored memory address (order.storeWord word)) :
    order.loadWord (read memory address 4) = word := by
  have bytes := stored.read_eq
  rw [ByteOrder.length_storeWord] at bytes
  rw [bytes, ByteOrder.loadWord_storeWord]

theorem header_read {memory : Nat → Byte} {offset : Nat}
    (stored : Stored memory offset (record.bytes order)) :
    maskAt order memory offset = record.mask ∧ lenAt order memory offset = record.len := by
  simp only [Record.bytes, stored_append, List.length_append, ByteOrder.length_storeWord]
    at stored
  obtain ⟨⟨⟨⟨-, mask⟩, -⟩, len⟩, -⟩ := stored
  exact ⟨loadWord_read mask, loadWord_read len⟩

end Layout

/-- What the loop does with a sequence of events. -/
def walkOver (notificationMessage : Option String) (offset : Nat) : List Record → Walk
  | [] => ⟨[], offset, notificationMessage⟩
  | record :: rest =>
      let notificationMessage := notify record.mask notificationMessage
      (walkOver notificationMessage (offset + (headerSize + record.name.length)) rest).after
        ⟨offset, record.mask, record.len, notificationMessage.map (· ++ "\n")⟩

/-- The walk over the bytes is one over the events that were laid out. -/
theorem walk_eq_walkOver {order : ByteOrder} {memory : Nat → Byte} {readLength offset : Nat}
    {records : List Record} (message : Option String)
    (stored : Stored memory offset (layout order records))
    (lengthEq : readLength = offset + (layout order records).length) :
    walk order memory readLength offset message = walkOver message offset records := by
  induction records generalizing offset message with
  | nil =>
      have done : ¬ offset < readLength := by
        rw [lengthEq]
        exact Nat.lt_irrefl offset
      rw [walk, if_neg done, walkOver]
  | cons record rest ih =>
      rw [layout_cons, stored_append] at stored
      rw [layout_cons, List.length_append] at lengthEq
      have size := length_bytes order record
      have more : offset < readLength := by
        simp only [headerSize] at size
        omega
      obtain ⟨mask, len⟩ := header_read stored.1
      have next : readLength =
          offset + (headerSize + record.name.length) + (layout order rest).length := by omega
      rw [walk, if_pos more]
      simp only [mask, len, toNat_len]
      rw [ih _ (size ▸ stored.2) next, walkOver]
      cases notify record.mask message with
      | none => rfl
      | some text => rfl

def placed (order : ByteOrder) (offset : Nat) : List Record → List (Nat × BitVec 32 × BitVec 32)
  | [] => []
  | record :: rest =>
      (offset, record.mask, record.len) ::
        placed order (offset + (record.bytes order).length) rest

def Visit.place (visit : Visit) : Nat × BitVec 32 × BitVec 32 :=
  (visit.offset, visit.mask, visit.len)

/-- A walk that comes to these events and to nothing else. -/
structure WalksOver (order : ByteOrder) (records : List Record) (offset readLength : Nat)
    (walk : Walk) : Prop where
  visited : walk.visits.map Visit.place = placed order offset records
  inside : ∀ visit ∈ walk.visits, visit.offset + headerSize ≤ readLength
  stop : walk.stop = readLength

theorem walksOver_walkOver (order : ByteOrder) (records : List Record) (message : Option String)
    {offset readLength : Nat} (lengthEq : readLength = offset + (layout order records).length) :
    WalksOver order records offset readLength (walkOver message offset records) := by
  induction records generalizing offset message with
  | nil => exact ⟨rfl, by simp [walkOver], lengthEq.symm⟩
  | cons record rest ih =>
      have size := length_bytes order record
      rw [layout_cons, List.length_append] at lengthEq
      have next : readLength =
          offset + (headerSize + record.name.length) + (layout order rest).length := by omega
      have later := ih (notify record.mask message) next
      refine ⟨?_, ?_, later.stop⟩
      · rw [placed, size, ← later.visited]
        rfl
      · intro visit member
        cases List.mem_cons.mp member with
        | inl here =>
            subst here
            simp only
            omega
        | inr further => exact later.inside visit further

/-- Whatever events lie in the buffer one behind the other, whatever the message
was before, the walk comes to each of them once, in order, and ends where they
end. -/
theorem walk_walksOver {order : ByteOrder} {records : List Record} {memory : Nat → Byte}
    (message : Option String) (stored : Stored memory 0 (layout order records)) :
    WalksOver order records 0 (layout order records).length
      (walk order memory (layout order records).length 0 message) := by
  have lengthEq : (layout order records).length = 0 + (layout order records).length :=
    (Nat.zero_add _).symm
  rw [walk_eq_walkOver message stored lengthEq]
  exact walksOver_walkOver order records message lengthEq

def created : Record := ⟨1, inCreate, 0, [102, 0, 0, 0], by decide⟩

/-- The watch is gone; none of the watched bits is set. -/
def ignored : Record := ⟨1, 0x8000, 0, [], by decide⟩

theorem walk_walksOver_ignored :
    WalksOver .little [ignored, created] 0 36
      (walk .little (copyIn (layout .little [ignored, created]) fun _ => 0) 36 0 none) :=
  walk_walksOver none (stored_copyIn (layout .little [ignored, created]) fun _ => 0)

end CBasics.FileEvents
