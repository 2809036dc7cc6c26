import SessionGuard.Route

/-!
# Where the user is

A `Navigation` opens a screen or replaces the one shown.  `History` keeps the stack of screens,
never empty, and every navigation in order.
-/

namespace SessionGuard

/-- A navigation: to a new screen, or in place of the one shown. -/
inductive Navigation
  | navigate (route : Route)
  | replace (route : Route)
  deriving DecidableEq

namespace Navigation

/-- The screen a navigation leads to. -/
def route : Navigation → Route
  | navigate r => r
  | replace r => r

/-- The word for the kind of a navigation in reports. -/
def kind : Navigation → String
  | navigate _ => "navigate"
  | replace _ => "replace"

end Navigation

/-- The screens behind the one shown, latest first, and the navigations so far, oldest first. -/
structure History where
  current : Route
  earlier : List Route
  log : List Navigation

namespace History

/-- The history of a user who has just opened `start`. -/
def starting (start : Route) : History := ⟨start, [], []⟩

/-- The history after one more navigation. -/
def apply (h : History) : Navigation → History
  | .navigate r => ⟨r, h.current :: h.earlier, h.log ++ [.navigate r]⟩
  | .replace r => ⟨r, h.earlier, h.log ++ [.replace r]⟩

/-- The stack of screens, oldest first. -/
def stack (h : History) : List Route := (h.current :: h.earlier).reverse

@[simp] theorem log_starting (r : Route) : (starting r).log = [] := rfl

@[simp] theorem current_starting (r : Route) : (starting r).current = r := rfl

@[simp] theorem log_apply (h : History) (n : Navigation) : (h.apply n).log = h.log ++ [n] := by
  cases n <;> rfl

@[simp] theorem current_apply (h : History) (n : Navigation) : (h.apply n).current = n.route := by
  cases n <;> rfl

/-- Replacing a screen keeps the stack below it. -/
theorem stack_apply_replace (h : History) (r : Route) :
    (h.apply (.replace r)).stack = h.stack.dropLast ++ [r] := by
  simp [stack, apply]

end History

end SessionGuard
