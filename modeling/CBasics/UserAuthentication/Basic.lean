import CBasics.Kernel
import CBasics.Library.Lines

/-! The login program: a user name and a password are read from standard input
and checked against the shadow file. -/

set_option autoImplicit false

namespace CBasics.UserAuthentication

open Library

def maxUsernameLength : Nat := 100

def maxPasswordLength : Nat := 100

/-- What the two arrays hold before anything is read into them. -/
structure Arrays where
  username : List Byte
  password : List Byte
  username_length : username.length = maxUsernameLength
  password_length : password.length = maxPasswordLength

inductive Ending where
  | returned (status : Nat)
  | exited (status : Nat)
  deriving DecidableEq

/-- The calls of `authenticate_user`, what the program prints, and its end. -/
structure Run where
  called : List (List Byte × List Byte)
  stdout : List Byte
  stderr : List Byte
  ending : Ending
  deriving DecidableEq

/-- `shadow` gives the password field of the entry that `getspnam` finds. As the
call of `crypt` is commented out, the encrypted password is always empty. -/
def authenticateUser (shadow : List Byte → Option (List Byte)) (username password : List Byte) :
    Run :=
  let encryptedPassword : List Byte := []
  match shadow username with
  | none =>
      { called := [(username, password)]
        stdout := []
        stderr := ascii "User " ++ username ++ ascii " not found\n"
        ending := .exited 1 }
  | some spPwdp =>
      let (text, status) :=
        if encryptedPassword = spPwdp then ("Authentication succeeded\n", 0)
        else ("Authentication failed\n", 1)
      { called := [(username, password)]
        stdout := ascii text
        stderr := []
        ending := .returned status }

def unixUserAuth (shadow : List Byte → Option (List Byte)) (arrays : Arrays)
    (stdin : List Byte) : Run :=
  let (usernameRead, rest) := fgets arrays.username stdin
  let username := endAtNewline usernameRead
  let (passwordRead, _) := fgets arrays.password rest
  let password := endAtNewline passwordRead
  let attempt := authenticateUser shadow (cString username) (cString password)
  { attempt with
    stdout := ascii "Enter username: " ++ ascii "Enter password: " ++ attempt.stdout
    ending :=
      match attempt.ending with
      | .returned status => .returned (if status = 0 then 0 else 1)
      | .exited status => .exited status }

end CBasics.UserAuthentication
