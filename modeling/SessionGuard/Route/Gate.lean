import SessionGuard.Route
import SessionGuard.Session.State

/-!
# The gate before a screen

`decide` says what to do for a screen in a state of the session: wait while the session loads,
show the screen, or send the user to the screen where a user in that state belongs.
-/

namespace SessionGuard

/-- The gate's answer for a screen. -/
inductive Decision
  | loading
  | render (route : Route)
  | redirect (target : Route)
  deriving DecidableEq

namespace Decision

/-- The word for a decision in reports. -/
def name : Decision → String
  | loading => "loading"
  | render _ => "render"
  | redirect _ => "redirect"

/-- The screen a decision leads to. -/
def route? : Decision → Option Route
  | loading => none
  | render r => some r
  | redirect r => some r

end Decision

namespace Gate

/-- What to do for a screen in a state of the session. -/
def decide (route : Route) (state : SessionState) : Decision :=
  match state.status, route.access with
  | .loading, _ => .loading
  | .unauthenticated, .members => .redirect .login
  | .unauthenticated, _ => .render route
  | .authenticated, .guests => .redirect .home
  | .authenticated, .members =>
    if route.requiresSuperuser && !state.isSuperuser then .redirect .home else .render route
  | .authenticated, .everyone => .render route

theorem decide_eq_loading_iff {route : Route} {state : SessionState} :
    decide route state = .loading ↔ state.isLoading = true := by
  obtain ⟨status, user⟩ := state
  cases status <;> cases route <;> simp [decide, SessionState.isLoading, Route.access] <;>
    split <;> simp_all

/-- A shown screen is the one asked for. -/
theorem eq_of_decide_eq_render {route shown : Route} {state : SessionState}
    (h : decide route state = .render shown) : shown = route := by
  grind [decide]

/-- The screen a user is sent to is shown in the same state. -/
theorem decide_target {route target : Route} {state : SessionState}
    (h : decide route state = .redirect target) : decide target state = .render target := by
  obtain ⟨status, user⟩ := state
  cases status <;> cases route <;>
    grind [decide, Route.access, Route.home, Route.requiresSuperuser]

end Gate

end SessionGuard
