import CBasics.Library.Strtol

/-! The numerals that `strtol` reads, described apart from how it reads them: blanks,
a sign, the prefix of a base and digits. It takes a whole text exactly if the text is
one of these. -/

set_option autoImplicit false

namespace CBasics.Library

/-- The digits stand for these numbers, all below the base. -/
def DigitsOf (base : Nat) (digits : List UInt8) (values : List Nat) : Prop :=
  digits.map digitValue = values.map some ∧ ∀ value ∈ values, value < base

/-- The number that digits stand for, the most significant first. -/
def number (base : Nat) (values : List Nat) : Nat :=
  values.foldl (fun total value => base * total + value) 0

/-- The prefix and the base that go with digits when this base was asked for. -/
inductive Radix (base : Nat) : List UInt8 → List UInt8 → Nat → Prop where
  | given (digits : List UInt8) : base ≠ 0 → Radix base [] digits base
  | hexadecimal (letter : UInt8) (digits : List UInt8) : base = 0 ∨ base = 16 →
      letter = 120 ∨ letter = 88 → Radix base [48, letter] digits 16
  | octal (digits : List UInt8) : base = 0 → Radix base [] (48 :: digits) 8
  | decimal (first : UInt8) (digits : List UInt8) : base = 0 → first ≠ 48 →
      Radix base [] (first :: digits) 10

inductive Sign : List UInt8 → Bool → Prop where
  | absent : Sign [] false
  | plus : Sign [43] false
  | minus : Sign [45] true

def signed (negative : Bool) (value : Nat) : Int := if negative then -value else value

/-- The text is a numeral and this is its value. -/
def Spells (base : Nat) (text : List UInt8) (value : Int) : Prop :=
  ∃ spaces sign negative pre digits radix values,
    text = spaces ++ (sign ++ (pre ++ digits)) ∧ (∀ byte ∈ spaces, isSpace byte) ∧
      Sign sign negative ∧ Radix base pre digits radix ∧ digits ≠ [] ∧
        DigitsOf radix digits values ∧ value = signed negative (number radix values)

section Scan

variable {base : Nat} {digits text : List UInt8} {values : List Nat}

theorem digitsOf_nil (base : Nat) : DigitsOf base [] [] := ⟨rfl, nofun⟩

theorem DigitsOf.cons {byte : UInt8} {value : Nat} (digit : digitValue byte = some value)
    (small : value < base) (later : DigitsOf base digits values) :
    DigitsOf base (byte :: digits) (value :: values) :=
  ⟨by rw [List.map_cons, List.map_cons, digit, later.1], List.forall_mem_cons.mpr ⟨small, later.2⟩⟩

theorem DigitsOf.uncons {byte : UInt8} (digitsOf : DigitsOf base (byte :: digits) values) :
    ∃ value later, values = value :: later ∧ digitValue byte = some value ∧ value < base ∧
      DigitsOf base digits later := by
  obtain ⟨same, small⟩ := digitsOf
  cases values with
  | nil => simp at same
  | cons value later =>
      rw [List.map_cons, List.map_cons, List.cons.injEq] at same
      obtain ⟨smallFirst, smallLater⟩ := List.forall_mem_cons.mp small
      exact ⟨value, later, rfl, same.1, smallFirst, same.2, smallLater⟩

/-- Digits are scanned to their end. -/
theorem scanDigits_of_digitsOf (digitsOf : DigitsOf base digits values) (start : Nat) :
    scanDigits base start digits =
      (values.foldl (fun total value => base * total + value) start, []) := by
  induction digits generalizing values start with
  | nil =>
      obtain rfl : values = [] := by simpa using digitsOf.1.symm
      rfl
  | cons byte digits ih =>
      obtain ⟨value, later, rfl, digit, small, rest⟩ := digitsOf.uncons
      simp only [scanDigits, digit, if_pos small]
      rw [ih rest, List.foldl_cons]

/-- What is scanned to its end consists of digits. -/
theorem digitsOf_of_scanDigits {start total : Nat}
    (scanned : scanDigits base start text = (total, [])) :
    ∃ values, DigitsOf base text values ∧
      total = values.foldl (fun total value => base * total + value) start := by
  induction text generalizing start with
  | nil => exact ⟨[], digitsOf_nil base, (Prod.mk.inj scanned).1.symm⟩
  | cons byte rest ih =>
      unfold scanDigits at scanned
      cases digit : digitValue byte with
      | none =>
          simp only [digit] at scanned
          cases scanned
      | some value =>
          simp only [digit] at scanned
          by_cases small : value < base
          · rw [if_pos small] at scanned
            obtain ⟨values, later, same⟩ := ih scanned
            exact ⟨value :: values, later.cons digit small, same⟩
          · rw [if_neg small] at scanned
            cases scanned

theorem startsWithDigit_of_digitsOf (digitsOf : DigitsOf base digits values)
    (nonempty : digits ≠ []) : startsWithDigit base digits = true := by
  cases digits with
  | nil => exact absurd rfl nonempty
  | cons byte digits =>
      obtain ⟨value, later, rfl, digit, small, rest⟩ := digitsOf.uncons
      simp [startsWithDigit, digit, small]

theorem toNat_of_digitValue {byte : UInt8} {value : Nat} (digit : digitValue byte = some value) :
    48 ≤ byte.toNat := by
  have low : ∀ bound : UInt8, 48 ≤ bound.toNat → bound ≤ byte → 48 ≤ byte.toNat :=
    fun bound above le => above.trans (UInt8.le_iff_toNat_le.mp le)
  unfold digitValue at digit
  split at digit
  · rename_i range
    exact low 48 (by decide) range.1
  · split at digit
    · rename_i range
      exact low 65 (by decide) range.1
    · split at digit
      · rename_i range
        exact low 97 (by decide) range.1
      · cases digit

/-- Digits are no blanks. -/
theorem isSpace_of_digitValue {byte : UInt8} {value : Nat} (digit : digitValue byte = some value) :
    isSpace byte = false := by
  have low := toNat_of_digitValue digit
  have notBlank : byte ≠ 32 := by
    rintro rfl
    exact absurd low (by decide)
  have notTab : ¬ byte ≤ 13 := by
    intro le
    have small := UInt8.le_iff_toNat_le.mp le
    have limit : (13 : UInt8).toNat = 13 := rfl
    omega
  simp [isSpace, notBlank, notTab]

/-- Digits are no signs. -/
theorem takeSign_digitValue {byte : UInt8} {value : Nat} (digit : digitValue byte = some value)
    (rest : List UInt8) : takeSign (byte :: rest) = (false, byte :: rest) := by
  have low := toNat_of_digitValue digit
  unfold takeSign
  split
  · rename_i same
    obtain ⟨rfl, -⟩ := List.cons.inj same
    exact absurd low (by decide)
  · rename_i same
    obtain ⟨rfl, -⟩ := List.cons.inj same
    exact absurd low (by decide)
  · rfl

end Scan

section Text

variable {base radix : Nat} {text spaces sign pre digits : List UInt8} {values : List Nat}
  {negative : Bool}

/-- The prefix and the digits together begin with a digit. -/
theorem Radix.begins (chosen : Radix base pre digits radix)
    (digitsOf : DigitsOf radix digits values) (nonempty : digits ≠ []) :
    ∃ byte rest value, pre ++ digits = byte :: rest ∧ digitValue byte = some value := by
  have first : ∃ byte rest value, digits = byte :: rest ∧ digitValue byte = some value := by
    cases digits with
    | nil => exact absurd rfl nonempty
    | cons byte rest =>
        obtain ⟨value, -, -, digit, -⟩ := digitsOf.uncons
        exact ⟨byte, rest, value, rfl, digit⟩
  cases chosen with
  | given => exact first
  | octal => exact first
  | decimal => exact first
  | hexadecimal letter => exact ⟨48, letter :: digits, 0, rfl, rfl⟩

/-- The letters of the prefix are no digits up to base 16. -/
theorem not_letter_of_digitsOf (small : radix ≤ 16) {letter : UInt8} {rest : List UInt8}
    (digitsOf : DigitsOf radix (48 :: letter :: rest) values) : ¬ (letter = 120 ∨ letter = 88) := by
  obtain ⟨-, later, -, -, -, behind⟩ := digitsOf.uncons
  obtain ⟨value, -, -, digit, below, -⟩ := behind.uncons
  rintro (rfl | rfl)
  · obtain rfl : 33 = value := Option.some.inj digit
    omega
  · obtain rfl : 33 = value := Option.some.inj digit
    omega

theorem choosePrefix_of_radix (small : base ≤ 16) (chosen : Radix base pre digits radix)
    (digitsOf : DigitsOf radix digits values) (nonempty : digits ≠ []) :
    choosePrefix base (pre ++ digits) = (radix, digits) := by
  cases chosen with
  | given _ positive =>
      rw [List.nil_append]
      unfold choosePrefix
      split
      · have notLetter := not_letter_of_digitsOf small digitsOf
        rw [if_neg fun prefixed => notLetter prefixed.1, if_neg positive]
      · rw [if_neg positive]
      · rw [if_neg positive]
  | hexadecimal letter _ asked letters =>
      have starts := startsWithDigit_of_digitsOf digitsOf nonempty
      show (if _ then _ else _) = _
      rw [if_pos ⟨letters, starts, asked⟩]
      rfl
  | octal rest zero =>
      rw [List.nil_append]
      cases rest with
      | nil =>
          show ((if base = 0 then 8 else base), [48]) = _
          rw [if_pos zero]
      | cons letter rest =>
          have notLetter := not_letter_of_digitsOf (by decide : 8 ≤ 16) digitsOf
          show (if _ then _ else _) = _
          rw [if_neg fun prefixed => notLetter prefixed.1, if_pos zero]
  | decimal first rest zero different =>
      rw [List.nil_append]
      unfold choosePrefix
      split
      · rename_i same
        exact absurd (List.cons.inj same).1 different
      · rename_i same
        exact absurd (List.cons.inj same).1 different
      · rw [if_pos zero]

/-- Every choice of the base goes with some prefix of the text. -/
theorem radix_of_choosePrefix (chosen : choosePrefix base text = (radix, digits))
    (starts : startsWithDigit radix digits = true) :
    ∃ pre, text = pre ++ digits ∧ Radix base pre digits radix := by
  have whole : ∀ {first rest}, text = first :: rest → first = 48 →
      ((if base = 0 then 8 else base), text) = (radix, digits) → Radix base [] digits radix := by
    rintro first rest rfl rfl same
    obtain ⟨rfl, rfl⟩ := Prod.mk.inj same
    by_cases zero : base = 0
    · rw [if_pos zero]
      exact .octal rest zero
    · rw [if_neg zero]
      exact .given _ zero
  unfold choosePrefix at chosen
  split at chosen
  · rename_i letter rest
    by_cases prefixed : (letter = 120 ∨ letter = 88) ∧ startsWithDigit 16 rest ∧
        (base = 0 ∨ base = 16)
    · rw [if_pos prefixed] at chosen
      obtain ⟨rfl, rfl⟩ := Prod.mk.inj chosen
      exact ⟨[48, letter], rfl, .hexadecimal letter rest prefixed.2.2 prefixed.1⟩
    · rw [if_neg prefixed] at chosen
      exact ⟨[], (Prod.mk.inj chosen).2, whole rfl rfl chosen⟩
  · exact ⟨[], (Prod.mk.inj chosen).2, whole rfl rfl chosen⟩
  · rename_i prefixed alone
    obtain ⟨rfl, rfl⟩ := Prod.mk.inj chosen
    refine ⟨[], rfl, ?_⟩
    by_cases zero : base = 0
    · rw [if_pos zero] at starts ⊢
      cases text with
      | nil => cases starts
      | cons first rest =>
          refine .decimal first rest zero ?_
          rintro rfl
          cases rest with
          | nil => exact alone rfl
          | cons letter rest => exact prefixed letter rest rfl
    · rw [if_neg zero]
      exact .given _ zero

/-- What `strtol` makes of a numeral that is the whole text. -/
theorem strtol_of_spells (small : base ≤ 16) {value : Int} (spells : Spells base text value) :
    strtol text base =
      if value > longMax then ⟨longMax, [], true⟩
      else if value < longMin then ⟨longMin, [], true⟩
      else ⟨value, [], false⟩ := by
  obtain ⟨spaces, sign, negative, pre, digits, radix, values, rfl, blank, signs, chosen, nonempty,
    digitsOf, rfl⟩ := spells
  obtain ⟨byte, rest, first, body, digit⟩ := chosen.begins digitsOf nonempty
  have skips : (spaces ++ (sign ++ (pre ++ digits))).dropWhile isSpace =
      sign ++ (pre ++ digits) := by
    rw [List.dropWhile_append_of_pos blank, body]
    cases signs with
    | absent => exact List.dropWhile_cons_of_neg (by simp [isSpace_of_digitValue digit])
    | plus => rfl
    | minus => rfl
  have signed : takeSign (sign ++ (pre ++ digits)) = (negative, pre ++ digits) := by
    rw [body]
    cases signs with
    | absent => exact takeSign_digitValue digit rest
    | plus => rfl
    | minus => rfl
  have scanned := scanDigits_of_digitsOf digitsOf 0
  simp only [strtol, skips, signed, choosePrefix_of_radix small chosen digitsOf nonempty,
    startsWithDigit_of_digitsOf digitsOf nonempty, if_true, scanned]
  rfl

theorem endptr_strtol (text : List UInt8) (base : Nat) : (strtol text base).endptr =
    let chosen := choosePrefix base (takeSign (text.dropWhile isSpace)).2
    if startsWithDigit chosen.1 chosen.2 then (scanDigits chosen.1 0 chosen.2).2 else text := by
  unfold strtol
  dsimp only
  split_ifs <;> rfl

/-- What `strtol` reads to its end is a numeral. -/
theorem spells_of_strtol (nonempty : text ≠ []) (ended : (strtol text base).endptr = []) :
    ∃ value, Spells base text value := by
  have blank : ∀ byte ∈ text.takeWhile isSpace, isSpace byte :=
    fun byte member => List.mem_takeWhile_imp member
  obtain ⟨sign, negative, body, signs, signed, split⟩ : ∃ sign negative body, Sign sign negative ∧
      takeSign (text.dropWhile isSpace) = (negative, body) ∧
        text.dropWhile isSpace = sign ++ body := by
    generalize text.dropWhile isSpace = rest
    unfold takeSign
    split
    · exact ⟨[45], true, _, .minus, rfl, rfl⟩
    · exact ⟨[43], false, _, .plus, rfl, rfl⟩
    · exact ⟨[], false, _, .absent, rfl, rfl⟩
  cases chosen : choosePrefix base body with
  | mk radix digits =>
      by_cases starts : startsWithDigit radix digits = true
      · have behind : (scanDigits radix 0 digits).2 = [] := by
          rw [endptr_strtol, signed] at ended
          simpa only [chosen, if_pos starts] using ended
        obtain ⟨values, digitsOf, -⟩ := digitsOf_of_scanDigits (Prod.ext rfl behind)
        obtain ⟨pre, rfl, prefixed⟩ := radix_of_choosePrefix chosen starts
        have some : digits ≠ [] := by
          rintro rfl
          cases starts
        refine ⟨_, _, sign, negative, pre, digits, radix, values, ?_, blank, signs, prefixed, some,
          digitsOf, rfl⟩
        rw [← split, List.takeWhile_append_dropWhile]
      · rw [endptr_strtol, signed] at ended
        simp only [chosen, if_neg starts] at ended
        exact absurd ended nonempty

end Text

/-- What `%d` prints is a numeral of base 10. -/
theorem spells_decimal (value : Int) : Spells 10 (decimal value) value := by
  have isDigits : ∀ char ∈ Nat.toDigits 10 value.natAbs, char.isDigit = true :=
    fun char member => Nat.isDigit_of_mem_toDigits (by decide) (by decide) member
  have scanned := scanDigits_digits isDigits 0
  rw [Nat.ofDigitChars_ten_toDigits] at scanned
  obtain ⟨values, digitsOf, magnitude⟩ := digitsOf_of_scanDigits scanned
  have some : (Nat.toDigits 10 value.natAbs).map Char.toUInt8 ≠ [] :=
    fun none => Nat.toDigits_ne_nil (List.map_eq_nil_iff.mp none)
  by_cases negative : value < 0
  · refine ⟨[], [45], true, [], _, 10, values, ?_, nofun, .minus, .given _ (by decide), some,
      digitsOf, ?_⟩
    · rw [decimal, if_pos negative]
      rfl
    · rw [signed, if_pos rfl, number, ← magnitude]
      omega
  · refine ⟨[], [], false, [], _, 10, values, ?_, nofun, .absent, .given _ (by decide), some,
      digitsOf, ?_⟩
    · rw [decimal, if_neg negative]
      rfl
    · rw [signed, if_neg Bool.false_ne_true, number, ← magnitude]
      omega

end CBasics.Library
