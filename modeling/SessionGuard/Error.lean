/-!
# What can go wrong

Each kind of failure names its cause; `message` is the one wording of it.
-/

namespace SessionGuard

/-- Why a file cannot be read or written. -/
inductive FileError
  | missing
  | isDirectory
  | notDirectory
  | alreadyExists
  | notText
  | denied
  | notPermitted
  | noSpace
  | other (reason : String)
  deriving DecidableEq

def FileError.message : FileError → String
  | missing => "No such file or directory (os error 2)"
  | isDirectory => "Is a directory (os error 21)"
  | notDirectory => "Not a directory (os error 20)"
  | alreadyExists => "File exists (os error 17)"
  | notText => "stream did not contain valid UTF-8"
  | denied => "Permission denied (os error 13)"
  | notPermitted => "Operation not permitted (os error 1)"
  | noSpace => "No space left on device (os error 28)"
  | other reason => reason

/-- Why the backend turns a credential away. -/
inductive Rejection
  | unauthorized
  | forbidden
  deriving DecidableEq

def Rejection.message : Rejection → String
  | unauthorized =>
    "Session rejected by the server. Run `sessiongate login` to sign in again."
  | forbidden => "Access denied. You don't have permission to access this resource."

/-- How a call to the backend fails. -/
inductive ApiError
  | rejected (cause : Rejection)
  | notFound (detail : String)
  | badRequest (detail : String)
  | serverError (detail : String)
  | network (detail : String)
  | invalidResponse (detail : String)
  deriving DecidableEq

namespace ApiError

def message : ApiError → String
  | rejected cause => cause.message
  | notFound detail => "Resource not found: " ++ detail
  | badRequest detail => "Bad request: " ++ detail
  | serverError detail => "Server error: " ++ detail
  | network detail => "Network error: " ++ detail
  | invalidResponse detail => "Invalid API response: " ++ detail

def isRejection : ApiError → Bool
  | rejected _ => true
  | _ => false

end ApiError

/-- How the token cannot be stored. -/
inductive StoreError
  | file (path : String) (cause : FileError)
  | encoding (reason : String)
  deriving DecidableEq

def StoreError.message : StoreError → String
  | file path cause => "I/O error on " ++ path ++ ": " ++ cause.message
  | encoding reason => "Failed to encode session file: " ++ reason

/-- The least number of characters of a new password. -/
def minPasswordLength : Nat := 8

/-- What the user has to change in a form. -/
inductive FormError
  | emailMissing
  | emailWithoutAt (email : String)
  | passwordMissing
  | passwordTooShort
  | resetTokenMissing
  | refused (detail : String)
  deriving DecidableEq

def FormError.message : FormError → String
  | emailMissing => "Email is required"
  | emailWithoutAt email => "Invalid email address: " ++ email
  | passwordMissing => "Password is required"
  | passwordTooShort =>
    "Password must be at least " ++ toString minPasswordLength ++ " characters"
  | resetTokenMissing => "Reset token is required"
  | refused detail => detail

/-- How signing in, opening an account or changing a password fails. -/
inductive AuthError
  | unreachable (detail : String)
  | rejected (cause : Rejection)
  | form (cause : FormError)
  | storage (cause : StoreError)
  deriving DecidableEq

namespace AuthError

def message : AuthError → String
  | unreachable detail =>
    "Could not reach the server. Please check your connection. (" ++ detail ++ ")"
  | rejected cause => "Authentication rejected: " ++ cause.message
  | form cause => cause.message
  | storage cause => "Failed to store session token: " ++ cause.message

def isRejection : AuthError → Bool
  | rejected _ => true
  | _ => false

/-- What a failed call means to the user. -/
def ofApi : ApiError → AuthError
  | .rejected cause => rejected cause
  | .badRequest detail | .notFound detail => form (.refused detail)
  | .network detail | .serverError detail | .invalidResponse detail => unreachable detail

@[simp] theorem isRejection_ofApi (e : ApiError) : (ofApi e).isRejection = e.isRejection := by
  cases e <;> rfl

end AuthError

/-- How a configuration cannot be loaded or saved. -/
inductive ConfigError
  | malformed
  | zeroTimeout
  | hostWithoutScheme (host : String)
  | noHome
  | unwritable (reason : String)
  | file (cause : FileError)
  deriving DecidableEq

def ConfigError.message : ConfigError → String
  | malformed => "Failed to parse configuration"
  | zeroTimeout =>
    "Invalid configuration: session.validation_timeout_secs must be greater than zero"
  | hostWithoutScheme host =>
    "Invalid configuration: API host must start with http:// or https://, got '" ++ host ++ "'"
  | noHome => "Invalid configuration: Could not determine home directory"
  | unwritable reason => "Failed to save configuration: " ++ reason
  | file cause => cause.message

/-- How a command fails. -/
inductive Failure
  | api (cause : ApiError)
  | auth (cause : AuthError)
  | config (cause : ConfigError)
  | noTerminal
  deriving DecidableEq

def Failure.message : Failure → String
  | api cause => cause.message
  | auth cause => cause.message
  | config cause => cause.message
  | noTerminal => "Interactive prompt error: IO error: not a terminal"

end SessionGuard
