import CBasics.RawServer.Basic

/-! The exclusive-or checksum. A host whose plain `char` is signed turns the high
byte over once for every byte above 0x7F, and the comparison passes the address
of one pointer where an array of pointers is read. -/

set_option autoImplicit false

namespace CBasics.RawServer

/-- The pointers of `data` lead to these bytes, in order. -/
def Holds (memory : Address → Byte) (data : Nat → Address) (bytes : List Byte) : Prop :=
  (List.range bytes.length).map (fun i => memory (data i)) = bytes

instance (memory : Address → Byte) (data : Nat → Address) (bytes : List Byte) :
    Decidable (Holds memory data bytes) :=
  inferInstanceAs (Decidable (_ = _))

/-- The exclusive or of the byte values. -/
def xorBytes (bytes : List Byte) : Nat := (bytes.map UInt8.toNat).foldl (· ^^^ ·) 0

/-- The number of bytes above 0x7F. -/
def highBytes (bytes : List Byte) : Nat := bytes.countP fun byte => 0x7F < byte

theorem calculateChecksum_eq {memory : Address → Byte} {data : Nat → Address}
    {bytes : List Byte} (holds : Holds memory data bytes) (sign : CharSign) :
    calculateChecksum sign memory data bytes.length =
      bytes.foldl (fun checksum byte => checksum ^^^ promote sign byte) 0 := by
  conv_rhs => rw [← holds, List.foldl_map]
  rfl

theorem toNat_foldl_unsigned (bytes : List Byte) (start : BitVec 16) :
    (bytes.foldl (fun checksum byte => checksum ^^^ promote .unsigned byte) start).toNat =
      (bytes.map UInt8.toNat).foldl (· ^^^ ·) start.toNat := by
  induction bytes generalizing start with
  | nil => rfl
  | cons byte rest ih =>
      have step : (start ^^^ promote .unsigned byte).toNat = start.toNat ^^^ byte.toNat := by
        have small : byte.toNat < 2 ^ 16 := Nat.lt_trans byte.toNat_lt (by decide)
        rw [BitVec.toNat_xor, promote, BitVec.toNat_setWidth, UInt8.toNat_toBitVec,
          Nat.mod_eq_of_lt small]
      rw [List.foldl_cons, ih, step, List.map_cons, List.foldl_cons]

/-- What the sign of the high bytes does to the checksum. -/
def signMask (count : Nat) : BitVec 16 := if count % 2 = 0 then 0 else 0xFF00

theorem promote_signed (byte : Byte) :
    promote .signed byte = promote .unsigned byte ^^^ signMask (if 0x7F < byte then 1 else 0) := by
  obtain ⟨bits⟩ := byte
  revert bits
  decide +kernel

theorem signMask_add (left right : Nat) :
    signMask left ^^^ signMask right = signMask (left + right) := by
  unfold signMask
  rcases Nat.mod_two_eq_zero_or_one left with even | odd <;>
    rcases Nat.mod_two_eq_zero_or_one right with evenRight | oddRight <;>
      simp [Nat.add_mod, *]

theorem foldl_xor_start (term : Byte → BitVec 16) (bytes : List Byte) (start shift : BitVec 16) :
    bytes.foldl (fun checksum byte => checksum ^^^ term byte) (start ^^^ shift) =
      bytes.foldl (fun checksum byte => checksum ^^^ term byte) start ^^^ shift := by
  induction bytes generalizing start with
  | nil => rfl
  | cons byte rest ih =>
      have exchanged : start ^^^ shift ^^^ term byte = start ^^^ term byte ^^^ shift := by
        rw [BitVec.xor_assoc, BitVec.xor_comm shift, ← BitVec.xor_assoc]
      rw [List.foldl_cons, List.foldl_cons, exchanged, ih]

/-- The two folds differ by the mask of the number of high bytes. -/
theorem foldl_signed (bytes : List Byte) (start : BitVec 16) :
    bytes.foldl (fun checksum byte => checksum ^^^ promote .signed byte) start =
      bytes.foldl (fun checksum byte => checksum ^^^ promote .unsigned byte) start ^^^
        signMask (highBytes bytes) := by
  induction bytes generalizing start with
  | nil => simp [highBytes, signMask]
  | cons byte rest ih =>
      have count : highBytes (byte :: rest) = (if 0x7F < byte then 1 else 0) + highBytes rest := by
        rw [highBytes, List.countP_cons, Nat.add_comm]
        simp [highBytes]
      rw [List.foldl_cons, List.foldl_cons, ih, promote_signed, ← BitVec.xor_assoc,
        foldl_xor_start, BitVec.xor_assoc, signMask_add, count]

theorem calculateChecksum_unsigned {memory : Address → Byte} {data : Nat → Address}
    {bytes : List Byte} (holds : Holds memory data bytes) :
    (calculateChecksum .unsigned memory data bytes.length).toNat = xorBytes bytes := by
  rw [calculateChecksum_eq holds, toNat_foldl_unsigned]
  rfl

theorem calculateChecksum_signed {memory receiverMemory : Address → Byte}
    {data receiverData : Nat → Address} {bytes : List Byte} (sent : Holds memory data bytes)
    (received : Holds receiverMemory receiverData bytes) :
    calculateChecksum .signed memory data bytes.length =
      calculateChecksum .unsigned receiverMemory receiverData bytes.length ^^^
        signMask (highBytes bytes) := by
  rw [calculateChecksum_eq sent, calculateChecksum_eq received, foldl_signed]

theorem xor_signMask_eq_iff (value : BitVec 16) (count : Nat) :
    value ^^^ signMask count = value ↔ count % 2 = 0 := by
  have cancel : value ^^^ signMask count = value ↔ signMask count = 0 := by
    constructor
    · intro same
      have both : value ^^^ (value ^^^ signMask count) = value ^^^ value := by rw [same]
      rwa [← BitVec.xor_assoc, BitVec.xor_self, BitVec.zero_xor] at both
    · intro zero
      rw [zero]
      exact BitVec.xor_zero
  rw [cancel, signMask]
  split
  · simp [*]
  · simp [*]

/-- The checksum is the exclusive or of the byte values on a host with signed
and on one with unsigned `char`, and the two agree, if and only if the number of
bytes above 0x7F is even. -/
theorem calculateChecksum_agrees_iff {memory receiverMemory : Address → Byte}
    {data receiverData : Nat → Address} {bytes : List Byte} (sent : Holds memory data bytes)
    (received : Holds receiverMemory receiverData bytes) :
    ((calculateChecksum .signed memory data bytes.length).toNat = xorBytes bytes ∧
        (calculateChecksum .unsigned receiverMemory receiverData bytes.length).toNat =
          xorBytes bytes ∧
        calculateChecksum .signed memory data bytes.length =
          calculateChecksum .unsigned receiverMemory receiverData bytes.length) ↔
      highBytes bytes % 2 = 0 := by
  have unsigned := calculateChecksum_unsigned received
  rw [calculateChecksum_signed sent received]
  constructor
  · intro both
    exact (xor_signMask_eq_iff _ _).mp both.2.2
  · intro even
    rw [(xor_signMask_eq_iff _ _).mpr even]
    exact ⟨unsigned, unsigned, rfl⟩

/-- Two bytes above 0x7F, one after the other in the memory of both hosts. -/
def highMemory : Address → Byte := fun address => if address < 2 then 0xE9 else 0x41

theorem calculateChecksum_agrees_even :
    calculateChecksum .signed highMemory id 3 = calculateChecksum .unsigned highMemory id 3 := by
  have holds : Holds highMemory id [0xE9, 0xE9, 0x41] := by decide
  exact ((calculateChecksum_agrees_iff holds holds).mpr (by decide)).2.2

/-- One byte above 0x7F. -/
theorem calculateChecksum_disagrees :
    Holds highMemory id [0xE9] ∧ xorBytes [0xE9] = 0xE9 ∧
      (calculateChecksum .signed highMemory id 1).toNat = 0xFFE9 ∧
      (calculateChecksum .unsigned highMemory id 1).toNat = 0xE9 := by
  decide

section Comparing

/-- A read of a byte of the buffer, or of the parameter that points to it. -/
def Read.InBuffer (data : Address) (length : Nat) : Read → Prop
  | .pointer index => index = 0
  | .byte address => data ≤ address ∧ address < data + length

instance (data : Address) (length : Nat) : (read : Read) → Decidable (read.InBuffer data length)
  | .pointer index => inferInstanceAs (Decidable (index = 0))
  | .byte address => inferInstanceAs (Decidable (data ≤ address ∧ address < data + length))

/-- Only the buffer is read, the verdict is good for the checksum of the bytes in
order, and compares equal to `CHECKSUM_NOT_GOOD` for every other. -/
structure AcceptsIntact (sign : CharSign) (memory : Address → Byte) (data : Address)
    (length : Nat) (receivedChecksum : BitVec 16) (comparison : Comparison) : Prop where
  inside : ∀ read ∈ comparison.reads, read.InBuffer data length
  good : (comparison.verdict.toNat : Int) = checksumGood ↔
    receivedChecksum = calculateChecksum sign memory (fun i => data + i) length
  notGood : receivedChecksum ≠ calculateChecksum sign memory (fun i => data + i) length →
    (comparison.verdict.toNat : Int) = checksumNotGood

theorem calculateChecksum_one (sign : CharSign) (memory : Address → Byte) (data : Nat → Address) :
    calculateChecksum sign memory data 1 = promote sign (memory (data 0)) := by
  simp [calculateChecksum]

theorem verdict_eq (sign : CharSign) (memory : Address → Byte) (beyond : Nat → Address)
    (data : Address) (length : Nat) (receivedChecksum : BitVec 16) :
    ((compareChecksum sign memory beyond data length receivedChecksum).verdict.toNat : Int) =
      if receivedChecksum = calculateChecksum sign memory (addressOf data beyond) length then 0
      else 255 := by
  simp only [compareChecksum]
  by_cases same : receivedChecksum = calculateChecksum sign memory (addressOf data beyond) length
  · have zero : calculateChecksum sign memory (addressOf data beyond) length ^^^
        receivedChecksum = 0 := by rw [same]; exact BitVec.xor_self
    rw [if_pos same, if_neg (not_not.mpr zero)]
    rfl
  · have nonzero : calculateChecksum sign memory (addressOf data beyond) length ^^^
        receivedChecksum ≠ 0 := fun zero => same (BitVec.xor_eq_zero_iff.mp zero).symm
    rw [if_neg same, if_pos nonzero]
    rfl

/-- The second pointer is not one: only one byte can be compared. -/
theorem inside_iff {data : Address} {beyond : Nat → Address} {length : Nat}
    (positive : 1 ≤ length) :
    (∀ read ∈ calculateReads (addressOf data beyond) length, read.InBuffer data length) ↔
      length = 1 := by
  constructor
  · intro inside
    by_contra several
    have second : Read.pointer 1 ∈ calculateReads (addressOf data beyond) length :=
      List.mem_flatMap.mpr ⟨1, List.mem_range.mpr (by omega), List.mem_cons_self⟩
    exact absurd (inside _ second) Nat.one_ne_zero
  · rintro rfl
    simp [calculateReads, Read.InBuffer, addressOf]

/-- The comparison accepts exactly intact data if and only if there is one byte
and its checksum was received: the verdict for another checksum is 255, not -1,
and for a longer buffer a second pointer is read. -/
theorem acceptsIntact_iff (sign : CharSign) (memory : Address → Byte) (beyond : Nat → Address)
    (data : Address) {length : Nat} (receivedChecksum : BitVec 16) (positive : 1 ≤ length) :
    AcceptsIntact sign memory data length receivedChecksum
        (compareChecksum sign memory beyond data length receivedChecksum) ↔
      length = 1 ∧ receivedChecksum = promote sign (memory data) := by
  have verdict := verdict_eq sign memory beyond data length receivedChecksum
  constructor
  · rintro ⟨inside, good, notGood⟩
    obtain rfl : length = 1 := (inside_iff positive).mp inside
    refine ⟨rfl, ?_⟩
    by_contra other
    have compared := notGood (by rwa [calculateChecksum_one])
    have unequal : receivedChecksum ≠ calculateChecksum sign memory (addressOf data beyond) 1 := by
      rwa [calculateChecksum_one]
    rw [verdict, if_neg unequal] at compared
    exact absurd compared (by decide)
  · rintro ⟨rfl, same⟩
    have intact : receivedChecksum = calculateChecksum sign memory (fun i => data + i) 1 := by
      rw [calculateChecksum_one]
      exact same
    have accepted : receivedChecksum = calculateChecksum sign memory (addressOf data beyond) 1 := by
      rw [calculateChecksum_one]
      exact same
    rw [if_pos accepted] at verdict
    exact {
      inside := (inside_iff positive).mpr rfl
      good := ⟨fun _ => intact, fun _ => verdict⟩
      notGood := fun different => absurd intact different }

theorem acceptsIntact_one :
    AcceptsIntact .unsigned highMemory 7 1 0x41
      (compareChecksum .unsigned highMemory (fun _ => 0) 7 1 0x41) :=
  (acceptsIntact_iff .unsigned highMemory (fun _ => 0) 7 0x41 (Nat.le_refl 1)).mpr (by decide)

/-- A wrong checksum of one byte: the verdict 255 is not `CHECKSUM_NOT_GOOD`. -/
theorem not_acceptsIntact_wrong :
    ¬ AcceptsIntact .unsigned highMemory 7 1 0x42
      (compareChecksum .unsigned highMemory (fun _ => 0) 7 1 0x42) := by
  intro accepts
  exact absurd (accepts.notGood (by decide)) (by decide)

end Comparing

end CBasics.RawServer
