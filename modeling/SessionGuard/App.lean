import SessionGuard.Expiry
import SessionGuard.Route.Gate
import SessionGuard.Route.History
import SessionGuard.Store

/-!
# The application

An `App` is a session over a token store, the user's history, and the calls to the backend so far.
Every transition of the session raises its generation; the outcome of a validation counts only
while the session is in the generation that the validation started.
-/

namespace SessionGuard

/-- A call to the backend. -/
inductive Call
  | login (credentials : Credentials)
  | currentUser (token : Token)
  | registerUser (registration : Registration)
  | recoverPassword (email : String)
  | resetPassword (request : NewPassword)
  deriving DecidableEq

/-- What is known of the user, how many transitions led to it, and whether a validation runs. -/
structure Session where
  state : SessionState
  generation : Nat
  validating : Bool
  deriving DecidableEq

def Session.starting : Session := ⟨.loading, 0, false⟩

structure App where
  session : Session
  store : Store
  history : History
  calls : List Call

namespace App

/-- An application that has just been started. -/
def starting (store : Store) (route : Route) : App := ⟨.starting, store, .starting route, []⟩

/-! ## The session -/

/-- Starts a validation: the session is loading, in a new generation. -/
def beginValidation (a : App) : App :=
  { a with session := ⟨.loading, a.session.generation + 1, true⟩ }

/-- The outcome of the validation that started `attempt`: nothing if the session has moved on. -/
def settle (attempt : Nat) (state : SessionState) (clear : Bool) (a : App) : App :=
  if a.session.generation = attempt then
    { a with
      session := { a.session with state := state }
      store := if clear then a.store.clear else a.store }
  else a

/-- No validation runs any more. -/
def endValidation (a : App) : App := { a with session := { a.session with validating := false } }

/-- Stores a token and signs its user in; if the token cannot be stored, nothing changes but what that
has left of the store. -/
def signIn (token : Token) (user : UserProfile) (a : App) : Except (Failed StoreError App) App :=
  match a.store.set token with
  | .ok store =>
    .ok { a with
      session := { a.session with
        state := .authenticated user, generation := a.session.generation + 1 }
      store := store }
  | .error f => .error ⟨f.cause, { a with store := f.left }⟩

/-- Clears the token and signs the user out. -/
def signOut (a : App) : App :=
  { a with
    session := { a.session with
      state := .unauthenticated, generation := a.session.generation + 1 }
    store := a.store.clear }

/-- The moment the stored token expires, if it says so. -/
def tokenExpiry? (a : App) : Option Int := a.store.get?.bind Token.expiry?

/-! ## Navigation -/

def navigate (n : Navigation) (a : App) : App := { a with history := a.history.apply n }

/-- The gate's decision for a screen; a redirect replaces the screen shown. -/
def evaluate (route : Route) (a : App) : Decision × App :=
  let decision := Gate.decide route a.session.state
  match decision with
  | .redirect target => (decision, a.navigate (.replace target))
  | _ => (decision, a)

/-! ## Calls -/

def record (call : Call) (a : App) : App := { a with calls := a.calls ++ [call] }

theorem settle_of_ne {a : App} {attempt : Nat} (h : a.session.generation ≠ attempt)
    (state : SessionState) (clear : Bool) : a.settle attempt state clear = a := by
  simp [settle, h]

/-- A token that cannot be stored leaves all but the store as it is. -/
theorem signIn_eq_error {token : Token} {user : UserProfile} {a : App} {f : Failed StoreError App}
    (h : a.signIn token user = .error f) :
    ∃ left, a.store.set token = .error ⟨f.cause, left⟩ ∧ f.left = { a with store := left } := by
  unfold signIn at h
  cases hs : a.store.set token with
  | ok store => rw [hs] at h; cases h
  | error e =>
    rw [hs] at h
    cases h
    exact ⟨e.left, rfl, rfl⟩

@[simp] theorem evaluate_fst (route : Route) (a : App) :
    (a.evaluate route).1 = Gate.decide route a.session.state := by
  unfold evaluate
  cases h : Gate.decide route a.session.state <;> simp

@[simp] theorem session_evaluate (route : Route) (a : App) :
    (a.evaluate route).2.session = a.session := by
  unfold evaluate
  cases h : Gate.decide route a.session.state <;> simp [navigate]

@[simp] theorem store_evaluate (route : Route) (a : App) :
    (a.evaluate route).2.store = a.store := by
  unfold evaluate
  cases h : Gate.decide route a.session.state <;> simp [navigate]

end App

end SessionGuard
