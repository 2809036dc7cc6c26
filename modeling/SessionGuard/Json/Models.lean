import SessionGuard.Json.Record
import SessionGuard.User
import SessionGuard.Credentials

/-!
# The backend's messages

Each message is read from a record and, where the program sends or shows it, written as an object
in the order of its fields.
-/

namespace SessionGuard

open Json (Raw)

namespace UserProfile

def ofRaw? (raw : Raw) : Option UserProfile := do
  match ← raw.fields? ["id", "email", "full_name", "is_active", "is_superuser"] with
  | [id, email, fullName, isActive, isSuperuser] =>
    some
      { id := ← Raw.required Raw.text? id
        email := ← Raw.required Raw.text? email
        fullName := ← Raw.defaulted none Raw.nullableText? fullName
        isActive := ← Raw.defaulted true Raw.bool? isActive
        isSuperuser := ← Raw.defaulted false Raw.bool? isSuperuser }
  | _ => none

/-- A profile as an object; a missing name is left out. -/
def toJson (user : UserProfile) : Json :=
  let name :=
    match user.fullName with
    | some name => [("full_name", Json.string name)]
    | none => []
  .object <|
    [("id", .string user.id), ("email", .string user.email)] ++ name
      ++ [("is_active", .bool user.isActive), ("is_superuser", .bool user.isSuperuser)]

end UserProfile

namespace AccessToken

def ofRaw? (raw : Raw) : Option AccessToken := do
  match ← raw.fields? ["access_token", "token_type"] with
  | [token, kind] =>
    some
      { token := ⟨← Raw.required Raw.text? token⟩
        kind := ← Raw.defaulted "bearer" Raw.text? kind }
  | _ => none

def toJson (access : AccessToken) : Json :=
  .object [("access_token", .string access.token.text), ("token_type", .string access.kind)]

end AccessToken

namespace Message

def ofRaw? (raw : Raw) : Option Message := do
  match ← raw.fields? ["message"] with
  | [text] => some ⟨← Raw.required Raw.text? text⟩
  | _ => none

def toJson (message : Message) : Json := .object [("message", .string message.text)]

end Message

namespace Token

def ofRaw? (raw : Raw) : Option Token := raw.text?.map Token.mk

def toJson (token : Token) : Json := .string token.text

end Token

/-- The body that opens an account. -/
def Registration.toJson (r : Registration) : Json :=
  let name :=
    match r.fullName with
    | some name => [("full_name", Json.string name)]
    | none => []
  .object ([("email", .string r.email), ("password", .string r.password)] ++ name)

/-- The body that sets a new password. -/
def NewPassword.toJson (r : NewPassword) : Json :=
  .object [("token", .string r.token), ("new_password", .string r.newPassword)]

end SessionGuard
