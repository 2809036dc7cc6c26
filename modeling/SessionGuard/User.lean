import SessionGuard.Text.Trim

/-!
# Members

The profile of a member as the backend tells it, and the name to address the member by.
-/

namespace SessionGuard

/-- The profile of a member. -/
structure UserProfile where
  id : String
  email : String
  fullName : Option String
  isActive : Bool
  isSuperuser : Bool
  deriving DecidableEq

/-- The full name, or the email address when the name is missing or blank. -/
def UserProfile.displayName (user : UserProfile) : String :=
  match user.fullName with
  | some name => if Text.trim name = "" then user.email else name
  | none => user.email

end SessionGuard
