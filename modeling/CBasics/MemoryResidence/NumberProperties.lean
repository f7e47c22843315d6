import CBasics.Library.Numeral
import CBasics.MemoryResidence.GetNum

/-! Numeric arguments: what `getLong` and `getInt` return is what the text spells, and
what they complain about is the case. -/

set_option autoImplicit false

namespace CBasics.MemoryResidence

open Library

/-- The value passes the checks that were asked for. -/
structure Allowed (flags : Nat) (value : Int) : Prop where
  nonneg : flags &&& gnNonneg ≠ 0 → 0 ≤ value
  positive : flags &&& gnGt0 ≠ 0 → 0 < value

/-- What is wrong with the argument when this message is printed. -/
inductive Faults (flags : Nat) (arg : List Byte) (low high : Int) : String → Prop where
  | empty : arg = [] → Faults flags arg low high "null or empty string"
  | outOfLong : (∀ value, Spells (baseOf flags) arg value → value < longMin ∨ longMax < value) →
      Faults flags arg low high "strtol() failed"
  | nonnumeric : (∀ value, ¬ Spells (baseOf flags) arg value) →
      Faults flags arg low high "nonnumeric characters"
  | negative (value : Int) : Spells (baseOf flags) arg value → flags &&& gnNonneg ≠ 0 → value < 0 →
      Faults flags arg low high "negative value not allowed"
  | notPositive (value : Int) : Spells (baseOf flags) arg value → flags &&& gnGt0 ≠ 0 → value ≤ 0 →
      Faults flags arg low high "value must be > 0"
  | outOfRange (value : Int) : Spells (baseOf flags) arg value → value < low ∨ high < value →
      Faults flags arg low high "integer out of range"

/-- The number that the text spells, if it may be used; else a complaint that is true. -/
structure Reads (fname : String) (arg : List Byte) (flags : Nat) (name : String) (low high : Int)
    (result : Except GnFail Int) : Prop where
  accepts : ∀ value, result = .ok value ↔
    Spells (baseOf flags) arg value ∧ Allowed flags value ∧ low ≤ value ∧ value ≤ high
  complains : ∀ failure, result = .error failure →
    ∃ msg, failure = ⟨fname, msg, arg, name⟩ ∧ Faults flags arg low high msg

theorem baseOf_le (flags : Nat) : baseOf flags ≤ 16 := by
  unfold baseOf
  split_ifs <;> decide

variable {arg : List Byte} {flags : Nat}

theorem not_spells_nil (base : Nat) (value : Int) : ¬ Spells base [] value := by
  rintro ⟨spaces, sign, negative, pre, digits, radix, values, split, -, -, -, some, -, -⟩
  have parts := List.append_eq_nil_iff.mp split.symm
  have rest := List.append_eq_nil_iff.mp (List.append_eq_nil_iff.mp parts.2).2
  exact some rest.2

/-- The checks of the value, once it is there. -/
theorem getNum_of_spells {value : Int} (spells : Spells (baseOf flags) arg value)
    (inLong : longMin ≤ value ∧ value ≤ longMax) (fname name : String) :
    getNum fname arg flags name =
      if flags &&& gnNonneg ≠ 0 ∧ value < 0 then
        .error ⟨fname, "negative value not allowed", arg, name⟩
      else if flags &&& gnGt0 ≠ 0 ∧ value ≤ 0 then
        .error ⟨fname, "value must be > 0", arg, name⟩
      else .ok value := by
  have some : arg ≠ [] := by
    rintro rfl
    exact not_spells_nil _ value spells
  have read := strtol_of_spells (baseOf_le flags) spells
  rw [if_neg (Int.not_lt.mpr inLong.2), if_neg (Int.not_lt.mpr inLong.1)] at read
  simp only [getNum, if_neg some, read, Bool.false_eq_true, if_false, ne_eq, not_true_eq_false]

/-- A text that is out of the range of `long`, or no numeral. -/
theorem getNum_of_not_spells (outside : ∀ value, Spells (baseOf flags) arg value →
      value < longMin ∨ longMax < value) (fname name : String) (low high : Int) :
    ∃ msg, getNum fname arg flags name = .error ⟨fname, msg, arg, name⟩ ∧
      Faults flags arg low high msg := by
  unfold getNum
  by_cases empty : arg = []
  · rw [if_pos empty]
    exact ⟨_, rfl, .empty empty⟩
  · rw [if_neg empty]
    dsimp only
    by_cases range : (strtol arg (baseOf flags)).outOfRange = true
    · rw [if_pos range]
      exact ⟨_, rfl, .outOfLong outside⟩
    · rw [if_neg range]
      have unspelled : ∀ value, ¬ Spells (baseOf flags) arg value := by
        intro value spells
        have read := strtol_of_spells (baseOf_le flags) spells
        rcases outside value spells with below | above
        · have notAbove : ¬ value > longMax := by
            have order : longMin ≤ longMax := by decide
            omega
          rw [if_neg notAbove, if_pos below] at read
          exact range (by rw [read])
        · rw [if_pos above] at read
          exact range (by rw [read])
      by_cases ended : (strtol arg (baseOf flags)).endptr = []
      · obtain ⟨value, spells⟩ := spells_of_strtol empty ended
        exact (unspelled value spells).elim
      · rw [if_pos ended]
        exact ⟨_, rfl, .nonnumeric unspelled⟩

/-- A text spells one number at most, if it is one of type `long`. -/
theorem spells_unique {value other : Int} (spells : Spells (baseOf flags) arg value)
    (inLong : longMin ≤ value ∧ value ≤ longMax) (again : Spells (baseOf flags) arg other) :
    other = value := by
  have read := strtol_of_spells (baseOf_le flags) spells
  rw [if_neg (Int.not_lt.mpr inLong.2), if_neg (Int.not_lt.mpr inLong.1),
    strtol_of_spells (baseOf_le flags) again] at read
  split_ifs at read
  · cases read
  · cases read
  · exact congrArg Strtol.value read

theorem getNum_reads (fname : String) (arg : List Byte) (flags : Nat) (name : String) :
    Reads fname arg flags name longMin longMax (getNum fname arg flags name) := by
  by_cases inside : ∃ value, Spells (baseOf flags) arg value ∧ longMin ≤ value ∧ value ≤ longMax
  · obtain ⟨value, spells, inLong⟩ := inside
    have checks := getNum_of_spells spells inLong fname name
    have only : ∀ other, Spells (baseOf flags) arg other → other = value :=
      fun _ => spells_unique spells inLong
    rw [checks]
    by_cases negative : flags &&& gnNonneg ≠ 0 ∧ value < 0
    · rw [if_pos negative]
      refine ⟨fun other => ⟨nofun, ?_⟩, ?_⟩
      · rintro ⟨again, allowed, -⟩
        obtain rfl := only other again
        exact absurd (allowed.nonneg negative.1) (Int.not_le.mpr negative.2)
      · rintro _ ⟨⟩
        exact ⟨_, rfl, .negative value spells negative.1 negative.2⟩
    · rw [if_neg negative]
      by_cases notPositive : flags &&& gnGt0 ≠ 0 ∧ value ≤ 0
      · rw [if_pos notPositive]
        refine ⟨fun other => ⟨nofun, ?_⟩, ?_⟩
        · rintro ⟨again, allowed, -⟩
          obtain rfl := only other again
          exact absurd (allowed.positive notPositive.1) (Int.not_lt.mpr notPositive.2)
        · rintro _ ⟨⟩
          exact ⟨_, rfl, .notPositive value spells notPositive.1 notPositive.2⟩
      · rw [if_neg notPositive]
        refine ⟨fun other => ⟨?_, ?_⟩, nofun⟩
        · rintro ⟨⟩
          exact ⟨spells, ⟨fun asked => Int.not_lt.mp fun below => negative ⟨asked, below⟩,
            fun asked => Int.not_le.mp fun below => notPositive ⟨asked, below⟩⟩, inLong⟩
        · rintro ⟨again, -⟩
          rw [only other again]
  · have outside : ∀ value, Spells (baseOf flags) arg value →
        value < longMin ∨ longMax < value := by
      intro value spells
      by_contra inLong
      rw [not_or, Int.not_lt, Int.not_lt] at inLong
      exact inside ⟨value, spells, inLong⟩
    obtain ⟨msg, fails, faults⟩ := getNum_of_not_spells outside fname name longMin longMax
    rw [fails]
    refine ⟨fun value => ⟨nofun, ?_⟩, ?_⟩
    · rintro ⟨spells, -, inLong⟩
      exact (inside ⟨value, spells, inLong⟩).elim
    · rintro _ ⟨⟩
      exact ⟨msg, rfl, faults⟩

/-- A complaint about a number of type `long` is true of a narrower type too. -/
theorem Faults.narrow {low high : Int} {msg : String}
    (faults : Faults flags arg longMin longMax msg) (lower : longMin ≤ low)
    (upper : high ≤ longMax) : Faults flags arg low high msg := by
  cases faults with
  | empty empty => exact .empty empty
  | outOfLong outside => exact .outOfLong outside
  | nonnumeric unspelled => exact .nonnumeric unspelled
  | negative value spells asked below => exact .negative value spells asked below
  | notPositive value spells asked below => exact .notPositive value spells asked below
  | outOfRange value spells outside =>
      refine .outOfRange value spells (outside.imp ?_ ?_)
      · intro below
        omega
      · intro above
        omega

theorem getInt_reads (arg : List Byte) (flags : Nat) (name : String) :
    Reads "getInt" arg flags name intMin intMax (getInt arg flags name) := by
  have reads := getNum_reads "getInt" arg flags name
  have lower : longMin ≤ intMin := by decide
  have upper : intMax ≤ longMax := by decide
  unfold getInt
  cases result : getNum "getInt" arg flags name with
  | error failure =>
      rw [result] at reads
      refine ⟨fun value => ⟨nofun, ?_⟩, ?_⟩
      · rintro ⟨spells, allowed, above, below⟩
        exact nomatch (reads.accepts value).mpr
          ⟨spells, allowed, lower.trans above, below.trans upper⟩
      · rintro _ ⟨⟩
        obtain ⟨msg, same, faults⟩ := reads.complains failure rfl
        exact ⟨msg, same, faults.narrow lower upper⟩
  | ok res =>
      rw [result] at reads
      obtain ⟨spells, allowed, inLong⟩ := (reads.accepts res).mp rfl
      dsimp only
      by_cases outside : res > intMax ∨ res < intMin
      · rw [if_pos outside]
        refine ⟨fun value => ⟨nofun, ?_⟩, ?_⟩
        · rintro ⟨again, -, above, below⟩
          obtain rfl := spells_unique spells inLong again
          omega
        · rintro _ ⟨⟩
          exact ⟨_, rfl, .outOfRange res spells outside.symm⟩
      · rw [if_neg outside]
        refine ⟨fun value => ⟨?_, ?_⟩, nofun⟩
        · rintro ⟨⟩
          exact ⟨spells, allowed, by omega, by omega⟩
        · rintro ⟨again, -⟩
          rw [spells_unique spells inLong again]

/-- For every argument and all flags, `getLong` and `getInt` return a number exactly if
the text spells it in the base asked for and it passes the checks asked for and fits the
type; otherwise they name the argument and complain of something that is the case. Where
the base is ten and the sign checks allow it, what has been printed with `%d` is read back. -/
theorem numbers_read (arg : List Byte) (flags : Nat) (name : String) :
    Reads "getLong" arg flags name longMin longMax (getLong arg flags name) ∧
      Reads "getInt" arg flags name intMin intMax (getInt arg flags name) ∧
      (baseOf flags = 10 → ∀ value, Allowed flags value → intMin ≤ value → value ≤ intMax →
        getInt (decimal value) flags name = .ok value) := by
  refine ⟨getNum_reads "getLong" arg flags name, getInt_reads arg flags name, ?_⟩
  intro ten value allowed above below
  have spells : Spells (baseOf flags) (decimal value) value := by
    rw [ten]
    exact spells_decimal value
  exact ((getInt_reads (decimal value) flags name).accepts value).mpr
    ⟨spells, allowed, above, below⟩

end CBasics.MemoryResidence
