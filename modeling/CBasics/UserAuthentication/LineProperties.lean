import CBasics.UserAuthentication.Basic

/-! Which part of the input becomes the user name and which the password. What
of the first line does not fit its array is what the second read finds. -/

set_option autoImplicit false

namespace CBasics.UserAuthentication

open Library

/-- Both lines are used as they are, or nothing is checked and the attempt
fails. -/
def ReadsLines (username password : List Byte) (run : Run) : Prop :=
  run.called = [(username, password)] ∨ run.called = [] ∧ run.ending ≠ .returned 0

variable {username password rest : List Byte}

theorem Arrays.username_room (arrays : Arrays) : 1 < arrays.username.length := by
  rw [arrays.username_length]
  decide

theorem Arrays.password_room (arrays : Arrays) : 1 < arrays.password.length := by
  rw [arrays.password_length]
  decide

theorem authenticateUser_called (shadow : List Byte → Option (List Byte))
    (username password : List Byte) :
    (authenticateUser shadow username password).called = [(username, password)] := by
  unfold authenticateUser
  cases shadow username <;> rfl

/-- The line that the second read starts in. -/
def secondLine (username password : List Byte) : List Byte :=
  if username.length + 1 < maxUsernameLength then password
  else username.drop (maxUsernameLength - 1)

theorem secondLine_isLine (usernameLine : IsLine username) (passwordLine : IsLine password) :
    IsLine (secondLine username password) := by
  unfold secondLine
  split
  · exact passwordLine
  · exact {
      noNul := fun member => usernameLine.noNul (List.mem_of_mem_drop member)
      noNewline := fun member => usernameLine.noNewline (List.mem_of_mem_drop member) }

/-- After the first read the stream stands before the second line, or in the
middle of the first one. -/
theorem fgets_username (arrays : Arrays) (usernameLine : IsLine username) :
    ∃ behind, (fgets arrays.username (username ++ newline :: (password ++ newline :: rest))).2 =
      secondLine username password ++ newline :: behind := by
  rw [fgets_line usernameLine.noNewline arrays.username_room, arrays.username_length, secondLine]
  split
  · rename_i fits
    refine ⟨rest, ?_⟩
    rw [List.drop_eq_nil_of_le (by simp; omega), List.nil_append]
  · rename_i full
    refine ⟨password ++ newline :: rest, ?_⟩
    rw [List.drop_append_of_le_length (by omega), List.append_assoc, List.singleton_append]

/-- What is checked for any two lines: as much of the first one as fits, and as
much of what the second read finds. -/
theorem unixUserAuth_called (shadow : List Byte → Option (List Byte)) (arrays : Arrays)
    (usernameLine : IsLine username) (passwordLine : IsLine password) :
    (unixUserAuth shadow arrays (username ++ newline :: (password ++ newline :: rest))).called =
      [(username.take (maxUsernameLength - 1),
        (secondLine username password).take (maxPasswordLength - 1))] := by
  obtain ⟨behind, stream⟩ := @fgets_username username password rest arrays usernameLine
  have first := @cString_endAtNewline_fgets arrays.username username
    (password ++ newline :: rest) usernameLine arrays.username_room
  have second := @cString_endAtNewline_fgets arrays.password (secondLine username password)
    behind (secondLine_isLine usernameLine passwordLine) arrays.password_room
  rw [arrays.username_length] at first
  rw [arrays.password_length] at second
  simp only [unixUserAuth, authenticateUser_called, first, stream, second]

/-- For any two lines: they are used as they are if and only if both fit their
arrays, the first with its newline, or an empty second line follows a first one
that leaves no room for its own. -/
theorem readsLines_iff (shadow : List Byte → Option (List Byte)) (arrays : Arrays)
    (usernameLine : IsLine username) (passwordLine : IsLine password) :
    ReadsLines username password
        (unixUserAuth shadow arrays (username ++ newline :: (password ++ newline :: rest))) ↔
      (username.length + 1 < maxUsernameLength ∧ password.length < maxPasswordLength) ∨
        (username.length + 1 = maxUsernameLength ∧ password = []) := by
  unfold ReadsLines
  rw [unixUserAuth_called shadow arrays usernameLine passwordLine]
  simp only [List.cons_ne_nil, false_and, or_false, List.cons.injEq, Prod.mk.injEq, and_true,
    List.take_eq_self_iff]
  by_cases fits : username.length + 1 < maxUsernameLength
  · have second : secondLine username password = password := if_pos fits
    rw [second, List.take_eq_self_iff]
    unfold maxUsernameLength maxPasswordLength at *
    omega
  · have second : secondLine username password = username.drop (maxUsernameLength - 1) :=
      if_neg fits
    rw [second]
    constructor
    · rintro ⟨whole, remainder⟩
      rw [List.drop_eq_nil_of_le whole, List.take_nil] at remainder
      have room : 0 < maxUsernameLength := by decide
      exact .inr ⟨by omega, remainder.symm⟩
    · rintro (⟨fitsAfterAll, -⟩ | ⟨exact, rfl⟩)
      · exact absurd fitsAfterAll fits
      · have whole : username.length ≤ maxUsernameLength - 1 := by omega
        exact ⟨whole, by rw [List.drop_eq_nil_of_le whole, List.take_nil]⟩

def clearedArrays : Arrays where
  username := List.replicate maxUsernameLength 0
  password := List.replicate maxPasswordLength 0
  username_length := List.length_replicate
  password_length := List.length_replicate

theorem readsLines_root :
    ReadsLines (ascii "root") (ascii "secret")
      (unixUserAuth (fun _ => none) clearedArrays
        (ascii "root" ++ newline :: (ascii "secret" ++ newline :: []))) :=
  (readsLines_iff _ clearedArrays (by decide) (by decide)).mpr (by decide)

/-- A user name of 120 bytes: its last 21 are the password. -/
theorem not_readsLines_long :
    ¬ ReadsLines (List.replicate 120 97) (ascii "secret")
      (unixUserAuth (fun _ => none) clearedArrays
        (List.replicate 120 97 ++ newline :: (ascii "secret" ++ newline :: []))) := by
  unfold ReadsLines
  rw [unixUserAuth_called _ clearedArrays (by decide +kernel) (by decide)]
  decide +kernel

end CBasics.UserAuthentication
