import SessionGuard.Text.Trim

/-!
# Screens and their addresses

A `Route` is a screen of the dashboard, with a canonical path, a title and the access it needs.
`Route.ofPath` reads an address: a query, a fragment and slashes at the end are decoration, and
an address of no screen is that of the neutral screen `notFound`.
-/

namespace SessionGuard

/-- Whom a screen is for: members (signed in), guests (signed out) or everyone. -/
inductive Access
  | members
  | guests
  | everyone
  deriving DecidableEq

/-- The word for an access class in reports. -/
def Access.name : Access → String
  | .members => "protected"
  | .guests => "public"
  | .everyone => "neutral"

/-- The screens of the dashboard. -/
inductive Route
  | landing
  | dashboard
  | items
  | settings
  | admin
  | login
  | signup
  | recoverPassword
  | resetPassword
  | notFound
  deriving DecidableEq

namespace Route

/-- All screens, in menu order. -/
def all : List Route :=
  [landing, dashboard, items, settings, admin, login, signup, recoverPassword, resetPassword,
    notFound]

/-- Where members land after signing in, or when they ask for a screen for guests. -/
def home : Route := dashboard

/-- The word for a screen in reports. -/
def name : Route → String
  | landing => "landing"
  | dashboard => "dashboard"
  | items => "items"
  | settings => "settings"
  | admin => "admin"
  | login => "login"
  | signup => "signup"
  | recoverPassword => "recover_password"
  | resetPassword => "reset_password"
  | notFound => "not_found"

/-- The screen of a name. -/
def ofName? (word : String) : Option Route := all.find? fun r => r.name == word

/-- The canonical path of a screen. -/
def path : Route → String
  | landing => "/"
  | dashboard => "/dashboard"
  | items => "/items"
  | settings => "/settings"
  | admin => "/admin"
  | login => "/login"
  | signup => "/signup"
  | recoverPassword => "/recover-password"
  | resetPassword => "/reset-password"
  | notFound => "/404"

/-- The title shown on a screen. -/
def title : Route → String
  | landing => "Welcome"
  | dashboard => "Dashboard"
  | items => "Items"
  | settings => "User Settings"
  | admin => "Admin"
  | login => "Log In"
  | signup => "Sign Up"
  | recoverPassword => "Password Recovery"
  | resetPassword => "Reset Password"
  | notFound => "Not Found"

/-- The access a screen needs. -/
def access : Route → Access
  | dashboard | items | settings | admin => .members
  | login | signup | recoverPassword | resetPassword => .guests
  | landing | notFound => .everyone

/-- Whether a screen is for superusers only. -/
def requiresSuperuser : Route → Bool
  | admin => true
  | _ => false

/-! ## Reading an address -/

/-- The bare address of a screen that can be asked for; the landing screen's is empty. -/
def stem? : Route → Option String
  | landing => some ""
  | notFound => none
  | r => some r.path

/-- The part of an address before its query and its fragment. -/
def beforeDecoration (address : List Char) : List Char :=
  address.takeWhile fun c => c != '?' && c != '#'

/-- The bare address: no query, no fragment, no slash at the end. -/
def stemOf (address : String) : String :=
  String.ofList (Text.dropTrailing (· == '/') (beforeDecoration address.toList))

/-- The screen at an address. -/
def ofPath (address : String) : Route :=
  (all.find? fun r => r.stem? == some (stemOf address)).getD notFound

theorem stem?_inj {r s : Route} (h : r.stem? = s.stem?) : r = s := by
  cases r <;> cases s <;> first | rfl | (exact absurd h (by decide))

theorem ofPath_eq_of_stem? {address : String} {r : Route} (h : r.stem? = some (stemOf address)) :
    ofPath address = r := by
  have hp : (fun s : Route => s.stem? == some (stemOf address)) = fun s => decide (s = r) := by
    funext s
    rw [← h, Bool.eq_iff_iff, beq_iff_eq, decide_eq_true_iff]
    exact ⟨stem?_inj, fun e => e ▸ rfl⟩
  unfold ofPath
  rw [hp]
  cases r <;> rfl

/-- The canonical path of a screen leads to it. -/
theorem ofPath_path {r : Route} (h : r ≠ notFound) : ofPath r.path = r := by
  cases r <;> first | exact absurd rfl h | decide

end Route

end SessionGuard
