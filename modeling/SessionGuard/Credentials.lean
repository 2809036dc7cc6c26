import SessionGuard.Text.Escaped

/-!
# Secrets and the forms that carry them

A `Token` proves who the user is.  `Credentials`, `Registration` and `NewPassword` are the filled
forms for signing in, opening an account and setting a new password.  `describe` writes each for a
log, its secrets left out.
-/

namespace SessionGuard

/-- A bearer token. -/
structure Token where
  text : String
  deriving DecidableEq

/-- The answer to a login. -/
structure AccessToken where
  token : Token
  kind : String
  deriving DecidableEq

/-- An answer that is a text for the user. -/
structure Message where
  text : String
  deriving DecidableEq

structure Credentials where
  email : String
  password : String
  deriving DecidableEq

structure Registration where
  email : String
  password : String
  fullName : Option String
  deriving DecidableEq

structure NewPassword where
  token : String
  newPassword : String
  deriving DecidableEq

/-- The credentials to sign in with once the account is open. -/
def Registration.credentials (r : Registration) : Credentials := ⟨r.email, r.password⟩

/-! ## For the log -/

/-- What stands for a secret. -/
def redacted : String := "<redacted>"

def Token.describe (_ : Token) : String := "Token(" ++ redacted ++ ")"

def NewPassword.describe (_ : NewPassword) : String := "NewPassword(" ++ redacted ++ ")"

def Credentials.describe (c : Credentials) : String :=
  "Credentials \x7b email: " ++ Text.escaped c.email ++ ", password: " ++ Text.escaped redacted
    ++ " \x7d"

def Registration.describe (r : Registration) : String :=
  let name :=
    match r.fullName with
    | some name => "Some(" ++ Text.escaped name ++ ")"
    | none => "None"
  "Registration \x7b email: " ++ Text.escaped r.email ++ ", password: " ++ Text.escaped redacted
    ++ ", full_name: " ++ name ++ " \x7d"

theorem Credentials.describe_password (e p q : String) :
    Credentials.describe ⟨e, p⟩ = Credentials.describe ⟨e, q⟩ := rfl

theorem Registration.describe_password (e p q : String) (n : Option String) :
    Registration.describe ⟨e, p, n⟩ = Registration.describe ⟨e, q, n⟩ := rfl

end SessionGuard
