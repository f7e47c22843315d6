import CBasics.Library.Lines

/-! Strings cut into tokens where they stand. Each call of `strtok` writes a NUL over the
delimiter behind the token it has found and goes on behind that. -/

set_option autoImplicit false

namespace CBasics.Library

def strspn (bytes accept : List UInt8) : Nat :=
  ((cString bytes).takeWhile (· ∈ accept)).length

/-- What a call of `strtok` leaves: the array, where the next call goes on, and where the
token begins. -/
structure Strtok where
  array : List UInt8
  saved : Nat
  token : Option Nat

/-- `strtok` from a position of the array. -/
def strtok (array : List UInt8) (start : Nat) (delim : List UInt8) : Strtok :=
  let first := start + strspn (array.drop start) delim
  if cString (array.drop first) = [] then ⟨array, first, none⟩
  else
    let stop := first + strcspn (array.drop first) delim
    if cString (array.drop stop) = [] then ⟨array, stop, some first⟩
    else ⟨array.set stop 0, stop + 1, some first⟩

/-- Delimiters, none of which ends a string. -/
structure Gap (delim gap : List UInt8) : Prop where
  noNul : 0 ∉ gap
  delimits : ∀ byte ∈ gap, byte ∈ delim

structure Word (delim word : List UInt8) : Prop where
  noNul : 0 ∉ word
  nonempty : word ≠ []
  plain : ∀ byte ∈ word, byte ∉ delim

theorem takeWhile_cString {text rest : List UInt8} {p : UInt8 → Bool} (noNul : 0 ∉ text)
    (inside : ∀ byte ∈ text, p byte = true)
    (ends : ∀ byte ∈ (cString rest).head?, p byte = false) :
    (cString (text ++ rest)).takeWhile p = text := by
  have none : (cString rest).takeWhile p = [] := by
    cases string : cString rest with
    | nil => rfl
    | cons byte rest =>
        rw [string] at ends
        rw [List.takeWhile_cons_of_neg (by simpa using ends byte rfl)]
  rw [cString_append noNul, List.takeWhile_append_of_pos inside, none, List.append_nil]

variable {delim gap word before rest : List UInt8}

theorem strspn_gap (isGap : Gap delim gap)
    (ends : ∀ byte ∈ (cString rest).head?, byte ∉ delim) :
    strspn (gap ++ rest) delim = gap.length := by
  rw [strspn, takeWhile_cString isGap.noNul (by simpa using isGap.delimits) (by simpa using ends)]

theorem strcspn_word (isWord : Word delim word)
    (ends : ∀ byte ∈ (cString rest).head?, byte ∈ delim) :
    strcspn (word ++ rest) delim = word.length := by
  rw [strcspn, takeWhile_cString isWord.noNul (by simpa using isWord.plain) (by simpa using ends)]

theorem Word.head (isWord : Word delim word) (rest : List UInt8) :
    ∀ byte ∈ (cString (word ++ rest)).head?, byte ∉ delim := by
  intro byte first
  rw [cString_append isWord.noNul, List.head?_append_of_ne_nil _ isWord.nonempty] at first
  exact isWord.plain byte (List.mem_of_mem_head? first)

/-- Behind the last token there is none. -/
theorem strtok_none (isGap : Gap delim gap) :
    strtok (before ++ gap ++ 0 :: rest) before.length delim =
      ⟨before ++ gap ++ 0 :: rest, (before ++ gap).length, none⟩ := by
  have spans : strspn ((before ++ gap ++ 0 :: rest).drop before.length) delim = gap.length := by
    rw [List.append_assoc, List.drop_left]
    exact strspn_gap isGap nofun
  have ended : cString ((before ++ gap ++ 0 :: rest).drop (before.length + gap.length)) = [] := by
    rw [← List.length_append, List.drop_left]
    rfl
  simp only [strtok, spans, if_pos ended, List.length_append]

theorem strtok_found (isGap : Gap delim gap) (isWord : Word delim word)
    (ends : ∀ byte ∈ (cString rest).head?, byte ∈ delim) :
    strtok (before ++ gap ++ word ++ rest) before.length delim =
      if cString rest = [] then
        ⟨before ++ gap ++ word ++ rest, (before ++ gap ++ word).length,
          some (before ++ gap).length⟩
      else
        ⟨(before ++ gap ++ word ++ rest).set (before ++ gap ++ word).length 0,
          (before ++ gap ++ word).length + 1, some (before ++ gap).length⟩ := by
  have spans : strspn ((before ++ gap ++ word ++ rest).drop before.length) delim =
      gap.length := by
    rw [List.append_assoc, List.append_assoc, List.drop_left]
    exact strspn_gap isGap (isWord.head rest)
  have atWord : (before ++ gap ++ word ++ rest).drop (before ++ gap).length = word ++ rest := by
    rw [List.append_assoc, List.drop_left]
  have begins : cString (word ++ rest) ≠ [] := by
    rw [cString_append isWord.noNul]
    exact List.append_ne_nil_of_left_ne_nil isWord.nonempty _
  have behind : (before ++ gap ++ word ++ rest).drop (before ++ gap ++ word).length = rest :=
    List.drop_left
  simp only [strtok, spans, ← List.length_append, atWord, if_neg begins,
    strcspn_word isWord ends, behind]

/-- A token that the end of the string ends. -/
theorem strtok_last (isGap : Gap delim gap) (isWord : Word delim word) :
    strtok (before ++ gap ++ word ++ 0 :: rest) before.length delim =
      ⟨before ++ gap ++ word ++ 0 :: rest, (before ++ gap ++ word).length,
        some (before ++ gap).length⟩ := by
  have ended : cString (0 :: rest) = [] := rfl
  have ends : ∀ byte ∈ (cString (0 :: rest)).head?, byte ∈ delim := nofun
  rw [strtok_found isGap isWord ends, if_pos ended]

/-- A token that a delimiter ends, which becomes a NUL. -/
theorem strtok_next (isGap : Gap delim gap) (isWord : Word delim word) {ending : UInt8}
    (nonzero : ending ≠ 0) (delimits : ending ∈ delim) :
    strtok (before ++ gap ++ word ++ ending :: rest) before.length delim =
      ⟨before ++ gap ++ word ++ 0 :: rest, (before ++ gap ++ word ++ [0]).length,
        some (before ++ gap).length⟩ := by
  have string : cString (ending :: rest) = ending :: cString rest :=
    List.takeWhile_cons_of_pos (by simpa using nonzero)
  have ends : ∀ byte ∈ (cString (ending :: rest)).head?, byte ∈ delim := by
    rw [string]
    rintro byte ⟨⟩
    exact delimits
  have more : cString (ending :: rest) ≠ [] := by
    rw [string]
    exact List.cons_ne_nil _ _
  rw [strtok_found isGap isWord ends, if_neg more, List.set_append_right _ _ (Nat.le_refl _),
    Nat.sub_self, List.set_cons_zero]
  simp only [List.length_append, List.length_singleton]

/-- A call that finds a token goes on behind where it started, in an array of the same
length. -/
theorem strtok_advances {array : List UInt8} {start : Nat} {delim : List UInt8} {position : Nat}
    (found : (strtok array start delim).token = some position) :
    (strtok array start delim).array.length = array.length ∧ start < array.length ∧
      start < (strtok array start delim).saved := by
  obtain ⟨first, behind, stop, onward, answer⟩ : ∃ first, start ≤ first ∧ ∃ stop, first ≤ stop ∧
      strtok array start delim =
        if cString (array.drop first) = [] then ⟨array, first, none⟩
        else if cString (array.drop stop) = [] then ⟨array, stop, some first⟩
        else ⟨array.set stop 0, stop + 1, some first⟩ :=
    ⟨_, Nat.le_add_right .., _, Nat.le_add_right .., rfl⟩
  rw [answer] at found ⊢
  by_cases none : cString (array.drop first) = []
  · rw [if_pos none] at found
    cases found
  · have inside : first < array.length := by
      by_contra outside
      rw [List.drop_eq_nil_of_le (Nat.not_lt.mp outside)] at none
      exact none rfl
    rw [if_neg none]
    by_cases last : cString (array.drop stop) = []
    · have moved : first ≠ stop := by
        rintro rfl
        exact none last
      rw [if_pos last]
      exact ⟨rfl, by omega, Nat.lt_of_le_of_lt behind (Nat.lt_of_le_of_ne onward moved)⟩
    · rw [if_neg last]
      exact ⟨List.length_set, by omega, Nat.lt_succ_of_le (Nat.le_trans behind onward)⟩

end CBasics.Library
