import SessionGuard.App
import SessionGuard.Auth.Form
import SessionGuard.Config

/-!
# Operations

An operation of the application runs until it has to wait: for an answer of the backend, or until
the session has been judged.  `start` runs it from its beginning to its end or to the first wait,
and `answer`, `timeout` and `wake` run it on from a wait.  Between two waits nothing else happens.
-/

namespace SessionGuard

/-- What the user's settings say about operations; the time limit is in milliseconds. -/
structure Settings where
  timeout : Nat
  checkExpiry : Bool
  signupPolicy : SignupPolicy

/-- What the application can be asked to do. -/
inductive Operation
  | peek
  | expiry
  /-- Judges the stored token anew. -/
  | restore
  | awaitResolved
  | signIn (token : Token) (user : UserProfile)
  | signOut
  | logout
  | login (credentials : Credentials)
  | signup (registration : Registration)
  | recover (email : String)
  | reset (request : NewPassword)
  | visit (route : Route)
  | evaluate (route : Route)
  | go (navigation : Navigation)

/-- The result of a signup: the new member has to sign in, or is signed in. -/
inductive SignupOutcome
  | signedIn (user : UserProfile)
  | awaitingLogin (user : UserProfile)
  deriving DecidableEq

def SignupOutcome.user : SignupOutcome → UserProfile
  | signedIn u => u
  | awaitingLogin u => u

/-- The word for a result of a signup. -/
def SignupOutcome.name : SignupOutcome → String
  | signedIn _ => "signed_in"
  | awaitingLogin _ => "awaiting_login"

/-- How an operation ends. -/
inductive Outcome
  | done
  | state (state : SessionState)
  | expiry (moment : Option Int)
  | decision (decision : Decision)
  | stored (result : Except StoreError Unit)
  | login (result : Except AuthError UserProfile)
  | signup (result : Except AuthError SignupOutcome)
  | message (result : Except AuthError Message)

/-- An answer of the backend. -/
inductive Reply
  | failed (cause : ApiError)
  | token (access : AccessToken)
  | user (user : UserProfile)
  | message (message : Message)

/-- What a login is part of. -/
inductive LoginPurpose
  | login
  | signup
  deriving DecidableEq

/-- An operation that waits, and for what. -/
inductive Waiting
  /-- The validation that started a generation waits for the user of a token. -/
  | validating (attempt : Nat) (token : Token)
  | loginToken (purpose : LoginPurpose) (credentials : Credentials)
  | loginUser (purpose : LoginPurpose) (token : Token)
  | registering (registration : Registration)
  | recovering (email : String)
  | resetting (request : NewPassword)
  | resolving
  | visiting (route : Route)
  deriving DecidableEq

/-- The call whose answer is waited for. -/
def Waiting.call? : Waiting → Option Call
  | validating _ token => some (.currentUser token)
  | loginToken _ credentials => some (.login credentials)
  | loginUser _ token => some (.currentUser token)
  | registering registration => some (.registerUser registration)
  | recovering email => some (.recoverPassword email)
  | resetting request => some (.resetPassword request)
  | resolving => none
  | visiting _ => none

/-- How far an operation has come. -/
inductive Progress
  | finished (outcome : Outcome)
  | waiting (on : Waiting)

namespace App

/-! ## Parts of operations -/

/-- Makes the call that is waited for. -/
def await (on : Waiting) (a : App) : App × Progress :=
  match on.call? with
  | some call => (a.record call, .waiting on)
  | none => (a, .waiting on)

/-- A rejection signs the user out; no other error does anything. -/
def settleError (e : AuthError) (a : App) : App := if e.isRejection then a.signOut else a

/-- The outcome of a login, for what it is part of. -/
def loginOutcome (result : Except AuthError UserProfile) : LoginPurpose → Outcome
  | .login => .login result
  | .signup => .signup (result.map .signedIn)

def failLogin (purpose : LoginPurpose) (e : AuthError) (a : App) : App × Progress :=
  (a.settleError e, .finished (loginOutcome (.error e) purpose))

/-- Ends a login: stores the token, signs the user in and goes home. -/
def finishLogin (purpose : LoginPurpose) (token : Token) (user : UserProfile) (a : App) :
    App × Progress :=
  match a.signIn token user with
  | .ok a => (a.navigate (.navigate .home), .finished (loginOutcome (.ok user) purpose))
  | .error f => f.left.failLogin purpose (.storage f.cause)

/-- A login, once its form has been checked. -/
def startLogin (purpose : LoginPurpose) (credentials : Credentials) (a : App) : App × Progress :=
  match Form.checkLogin credentials with
  | .error e => (a, .finished (loginOutcome (.error (.form e)) purpose))
  | .ok _ => a.await (.loginToken purpose credentials)

/-- Ends a validation. -/
def finishValidation (attempt : Nat) (state : SessionState) (clear : Bool) (a : App) :
    App × Progress :=
  ((a.settle attempt state clear).endValidation, .finished .done)

/-- Judges the stored token: there has to be one, it must not have expired, and the backend has to
know it. -/
def startValidation (settings : Settings) (now : Int) (a : App) : App × Progress :=
  if a.session.validating then (a, .finished .done)
  else
    let a := a.beginValidation
    let attempt := a.session.generation
    match a.store.get? with
    | none => a.finishValidation attempt .unauthenticated false
    | some token =>
      if settings.checkExpiry && token.isExpired now then
        a.finishValidation attempt .unauthenticated true
      else a.await (.validating attempt token)

/-- Runs a waiting visitor on: it has to wait as long as the session is loading. -/
def wake (on : Waiting) (a : App) : App × Progress :=
  if a.session.state.isLoading then (a, .waiting on)
  else
    match on with
    | .resolving => (a, .finished (.state a.session.state))
    | .visiting route =>
      let (decision, a) := a.evaluate route
      (a, .finished (.decision decision))
    | on => (a, .waiting on)

/-! ## Running operations -/

/-- Runs an operation from its beginning. -/
def start (settings : Settings) (now : Int) (op : Operation) (a : App) : App × Progress :=
  match op with
  | .peek => (a, .finished (.state a.session.state))
  | .expiry => (a, .finished (.expiry a.tokenExpiry?))
  | .restore => a.startValidation settings now
  | .awaitResolved => a.wake .resolving
  | .signIn token user =>
    match a.signIn token user with
    | .ok a => (a, .finished (.stored (.ok ())))
    | .error f => (f.left, .finished (.stored (.error f.cause)))
  | .signOut => (a.signOut, .finished .done)
  | .logout => (a.signOut.navigate (.navigate .login), .finished .done)
  | .login credentials => a.startLogin .login credentials
  | .signup registration =>
    match Form.checkRegistration registration with
    | .error e => (a, .finished (.signup (.error (.form e))))
    | .ok _ => a.await (.registering registration)
  | .recover email =>
    match Form.checkEmail email with
    | .error e => (a, .finished (.message (.error (.form e))))
    | .ok _ => a.await (.recovering (Text.trim email))
  | .reset request =>
    match Form.checkReset request with
    | .error e => (a, .finished (.message (.error (.form e))))
    | .ok _ => a.await (.resetting request)
  | .visit route => (a.navigate (.navigate route)).wake (.visiting route)
  | .evaluate route =>
    let (decision, a) := a.evaluate route
    (a, .finished (.decision decision))
  | .go navigation => (a.navigate navigation, .finished .done)

/-- Runs an operation on with an answer; an answer of another kind leaves it waiting. -/
def answer (settings : Settings) (on : Waiting) (reply : Reply) (a : App) : App × Progress :=
  match on, reply with
  | .validating attempt _, .user user => a.finishValidation attempt (.authenticated user) false
  | .validating attempt _, .failed _ => a.finishValidation attempt .unauthenticated true
  | .loginToken purpose _, .token access => a.await (.loginUser purpose access.token)
  | .loginToken purpose _, .failed e => a.failLogin purpose (.ofApi e)
  | .loginUser purpose token, .user user => a.finishLogin purpose token user
  | .loginUser purpose _, .failed e => a.failLogin purpose (.ofApi e)
  | .registering registration, .user user =>
    match settings.signupPolicy with
    | .redirectToLogin =>
      (a.navigate (.navigate .login), .finished (.signup (.ok (.awaitingLogin user))))
    | .autoLogin => a.startLogin .signup registration.credentials
  | .registering _, .failed e =>
    (a.settleError (.ofApi e), .finished (.signup (.error (.ofApi e))))
  | .recovering _, .message m => (a, .finished (.message (.ok m)))
  | .recovering _, .failed e =>
    (a.settleError (.ofApi e), .finished (.message (.error (.ofApi e))))
  | .resetting _, .message m =>
    (a.navigate (.navigate .login), .finished (.message (.ok m)))
  | .resetting _, .failed e =>
    (a.settleError (.ofApi e), .finished (.message (.error (.ofApi e))))
  | on, _ => (a, .waiting on)

/-- Ends a validation whose time is up; nothing else has a limit. -/
def timeout (on : Waiting) (a : App) : App × Progress :=
  match on with
  | .validating attempt _ => a.finishValidation attempt .unauthenticated true
  | on => (a, .waiting on)

/-- Gives an operation up.  A validation that is given up leaves the session as it is. -/
def abandon (on : Waiting) (a : App) : App :=
  match on with
  | .validating .. => a.endValidation
  | _ => a

@[simp] theorem await_snd (on : Waiting) (a : App) : (a.await on).2 = .waiting on := by
  unfold await
  cases on.call? <;> rfl

end App

end SessionGuard
