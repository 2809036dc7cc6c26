import SessionGuard.User

/-!
# What is known of the user

The session is loading until the stored token has been judged, and then signed in or signed out.
-/

namespace SessionGuard

/-- Whether the user may see the screens for members. -/
inductive Status
  | loading
  | unauthenticated
  | authenticated
  deriving DecidableEq

/-- The word for a status in reports. -/
def Status.name : Status → String
  | .loading => "loading"
  | .unauthenticated => "unauthenticated"
  | .authenticated => "authenticated"

/-- A status and the member it is about. -/
structure SessionState where
  status : Status
  user : Option UserProfile
  deriving DecidableEq

namespace SessionState

def loading : SessionState := ⟨.loading, none⟩

def unauthenticated : SessionState := ⟨.unauthenticated, none⟩

def authenticated (user : UserProfile) : SessionState := ⟨.authenticated, some user⟩

def isLoading (s : SessionState) : Bool := s.status == .loading

def isAuthenticated (s : SessionState) : Bool := s.status == .authenticated

/-- Whether the member of the state is a superuser. -/
def isSuperuser (s : SessionState) : Bool := s.user.any (·.isSuperuser)

end SessionState

end SessionGuard
