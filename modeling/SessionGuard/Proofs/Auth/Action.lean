import SessionGuard.Proofs.Machine.Calls
import SessionGuard.Proofs.Machine.Commands
import SessionGuard.Proofs.Machine.Waits
import SessionGuard.Proofs.Session.Change

/-!
# Auth actions are all or nothing

A login, a signup, a recovery and a reset pass through waits and change nothing meanwhile
(`underway_run`).  The last step alone tells what becomes of them: an error that is no rejection
leaves all as it is, but for the store where a token cannot be stored; a rejection signs out, and a
success signs in or sends the user on (`App.Concludes`).
-/

namespace SessionGuard

/-! ## The course of an action -/

/-- The check of the form of an auth action; other operations have no form. -/
def Operation.check? : Operation → Option (Except FormError Unit)
  | login c => some (Form.checkLogin c)
  | signup r => some (Form.checkRegistration r)
  | recover email => some (Form.checkEmail email)
  | reset request => some (Form.checkReset request)
  | _ => none

/-- The credentials that an operation may log in with. -/
def Operation.credentials? : Operation → Option Credentials
  | login c => some c
  | signup r => some r.credentials
  | _ => none

/-- The outcomes of each auth action. -/
inductive Operation.Gives : Operation → Outcome → Prop
  | login {c result} : Gives (.login c) (.login result)
  | signup {r result} : Gives (.signup r) (.signup result)
  | recover {email result} : Gives (.recover email) (.message result)
  | reset {request result} : Gives (.reset request) (.message result)

/-- The error that an auth action ends in. -/
def Outcome.error? : Outcome → Option AuthError
  | login (.error e) | signup (.error e) | message (.error e) => some e
  | _ => none

/-- The user that an auth action has signed in. -/
def Outcome.signedIn? : Outcome → Option UserProfile
  | login (.ok user) | signup (.ok (.signedIn user)) => some user
  | _ => none

/-- The waits that an auth action passes through. -/
inductive Operation.Passes (settings : Settings) : Operation → Waiting → Prop
  | loginToken {c} : Passes settings (.login c) (.loginToken .login c)
  | loginUser {c token} : Passes settings (.login c) (.loginUser .login token)
  | registering {r} (h : Form.checkRegistration r = .ok ()) :
      Passes settings (.signup r) (.registering r)
  | signupToken {r} (h : settings.signupPolicy = .autoLogin) :
      Passes settings (.signup r) (.loginToken .signup r.credentials)
  | signupUser {r token} (h : settings.signupPolicy = .autoLogin) :
      Passes settings (.signup r) (.loginUser .signup token)
  | recovering {email} : Passes settings (.recover email) (.recovering (Text.trim email))
  | resetting {request} : Passes settings (.reset request) (.resetting request)

section Passes

variable {settings : Settings} {op : Operation} {on on' : Waiting}

theorem Operation.Opens.passes {check : Except FormError Unit} (h : op.Opens on)
    (hop : op.check? = some check) : op.Passes settings on := by
  cases h with
  | login => exact .loginToken
  | signup hr => exact .registering hr
  | recover => exact .recovering
  | reset => exact .resetting
  | restore | awaitResolved | visit => cases hop

theorem Operation.Passes.next {reply : Reply} (h : op.Passes settings on)
    (hn : on.Next settings reply on') : op.Passes settings on' := by
  cases hn with
  | token =>
    cases h with
    | loginToken => exact .loginUser
    | signupToken hp => exact .signupUser hp
  | registered hp =>
    cases h with
    | registering => exact .signupToken hp

/-- An action asks for a token with its own credentials. -/
theorem Operation.Passes.credentials {purpose : LoginPurpose} {c : Credentials}
    (h : op.Passes settings (.loginToken purpose c)) : op.credentials? = some c := by
  cases h <;> rfl

end Passes

namespace App

/-! ## The steps of an action -/

/-- How an auth action ends when its wait gets an answer. -/
inductive Concludes (settings : Settings) (a : App) : Waiting → Reply → App → Outcome → Prop
  | fails {on reply o err} (he : o.error? = some err) (hr : err.isRejection = false)
      (hs : ∀ cause, err ≠ .storage cause) : Concludes settings a on reply a o
  | rejected {on reply o err} (he : o.error? = some err) (hr : err.isRejection = true) :
      Concludes settings a on reply a.signOut o
  | signsIn {purpose token user b} (h : a.signIn token user = .ok b) :
      Concludes settings a (.loginUser purpose token) (.user user) (b.navigate (.navigate .home))
        (loginOutcome (.ok user) purpose)
  | misses {purpose token user f} (h : a.signIn token user = .error f) :
      Concludes settings a (.loginUser purpose token) (.user user) f.left
        (loginOutcome (.error (.storage f.cause)) purpose)
  | registers {r user} (h : settings.signupPolicy = .redirectToLogin) :
      Concludes settings a (.registering r) (.user user) (a.navigate (.navigate .login))
        (.signup (.ok (.awaitingLogin user)))
  | recovers {email message} :
      Concludes settings a (.recovering email) (.message message) a (.message (.ok message))
  | resets {request message} :
      Concludes settings a (.resetting request) (.message message) (a.navigate (.navigate .login))
        (.message (.ok message))

variable {settings : Settings} {op : Operation} {on : Waiting}

/-- An auth action whose form fails its check is over at once; one whose form passes it waits. -/
theorem start_of_check (settings : Settings) {check : Except FormError Unit}
    (h : op.check? = some check) (now : Int) (a : App) :
    (∃ cause o, check = .error cause ∧ a.start settings now op = (a, .finished o) ∧
        o.error? = some (.form cause) ∧ op.Gives o) ∨
      ∃ on, check = .ok () ∧ op.Opens on ∧ a.start settings now op = a.await on := by
  cases op with
  | login c =>
    cases h
    simp only [start, startLogin]
    cases hc : Form.checkLogin c with
    | error cause => exact .inl ⟨_, _, rfl, rfl, rfl, .login⟩
    | ok => exact .inr ⟨_, rfl, .login hc, rfl⟩
  | signup r =>
    cases h
    simp only [start]
    cases hc : Form.checkRegistration r with
    | error cause => exact .inl ⟨_, _, rfl, rfl, rfl, .signup⟩
    | ok => exact .inr ⟨_, rfl, .signup hc, rfl⟩
  | recover email =>
    cases h
    simp only [start]
    cases hc : Form.checkEmail email with
    | error cause => exact .inl ⟨_, _, rfl, rfl, rfl, .recover⟩
    | ok => exact .inr ⟨_, rfl, .recover hc, rfl⟩
  | reset request =>
    cases h
    simp only [start]
    cases hc : Form.checkReset request with
    | error cause => exact .inl ⟨_, _, rfl, rfl, rfl, .reset⟩
    | ok => exact .inr ⟨_, rfl, .reset hc, rfl⟩
  | _ => cases h

theorem ofApi_ne_storage (e : ApiError) (cause : StoreError) : AuthError.ofApi e ≠ .storage cause := by
  cases e <;> exact nofun

theorem concludes_settleError {reply : Reply} {o : Outcome} {e : ApiError} (a : App)
    (he : o.error? = some (.ofApi e)) :
    Concludes settings a on reply (a.settleError (.ofApi e)) o := by
  unfold settleError
  split
  · next hr => exact .rejected he hr
  · next hr => exact .fails he (by simpa using hr) (ofApi_ne_storage e)

theorem error?_loginOutcome (e : AuthError) (purpose : LoginPurpose) :
    (loginOutcome (.error e) purpose).error? = some e := by
  cases purpose <;> rfl

theorem concludes_finishLogin (settings : Settings) (purpose : LoginPurpose) (token : Token)
    (user : UserProfile) (a : App) :
    ∃ b o, a.finishLogin purpose token user = (b, .finished o) ∧
      Concludes settings a (.loginUser purpose token) (.user user) b o ∧
        ∃ result, o = loginOutcome result purpose := by
  unfold finishLogin
  cases h : a.signIn token user with
  | ok b => exact ⟨_, _, rfl, .signsIn h, _, rfl⟩
  | error f => exact ⟨_, _, rfl, .misses h, _, rfl⟩

/-- With an answer an auth action waits as before, goes on to its next wait or ends. -/
theorem answer_of_passes (h : op.Passes settings on) (reply : Reply) (a : App) :
    a.answer settings on reply = (a, .waiting on) ∨
      (∃ on', on.Next settings reply on' ∧ a.answer settings on reply = a.await on') ∨
        ∃ b o, a.answer settings on reply = (b, .finished o) ∧
          Concludes settings a on reply b o ∧ op.Gives o := by
  cases h with
  | loginToken =>
    cases reply with
    | token access => exact .inr (.inl ⟨_, .token, rfl⟩)
    | failed e =>
      exact .inr (.inr ⟨_, _, rfl, concludes_settleError a rfl, .login⟩)
    | user | message => exact .inl rfl
  | signupToken hp =>
    cases reply with
    | token access => exact .inr (.inl ⟨_, .token, rfl⟩)
    | failed e =>
      exact .inr (.inr ⟨_, _, rfl, concludes_settleError a rfl, .signup⟩)
    | user | message => exact .inl rfl
  | loginUser =>
    cases reply with
    | user u =>
      obtain ⟨b, o, ha, hc, result, rfl⟩ := concludes_finishLogin settings .login _ u a
      exact .inr (.inr ⟨b, _, ha, hc, .login⟩)
    | failed e =>
      exact .inr (.inr ⟨_, _, rfl, concludes_settleError a rfl, .login⟩)
    | token | message => exact .inl rfl
  | signupUser hp =>
    cases reply with
    | user u =>
      obtain ⟨b, o, ha, hc, result, rfl⟩ := concludes_finishLogin settings .signup _ u a
      exact .inr (.inr ⟨b, _, ha, hc, .signup⟩)
    | failed e =>
      exact .inr (.inr ⟨_, _, rfl, concludes_settleError a rfl, .signup⟩)
    | token | message => exact .inl rfl
  | @registering r hr =>
    cases reply with
    | user u =>
      simp only [answer]
      cases hp : settings.signupPolicy with
      | redirectToLogin => exact .inr (.inr ⟨_, _, rfl, .registers hp, .signup⟩)
      | autoLogin =>
        refine .inr (.inl ⟨_, .registered hp, ?_⟩)
        -- the form of the login is fit, that of the registration being so
        simp only [startLogin, Form.checkLogin_credentials hr]
    | failed e =>
      exact .inr (.inr ⟨_, _, rfl, concludes_settleError a rfl, .signup⟩)
    | token | message => exact .inl rfl
  | recovering =>
    cases reply with
    | message m => exact .inr (.inr ⟨_, _, rfl, .recovers, .recover⟩)
    | failed e =>
      exact .inr (.inr ⟨_, _, rfl, concludes_settleError a rfl, .recover⟩)
    | token | user => exact .inl rfl
  | resetting =>
    cases reply with
    | message m => exact .inr (.inr ⟨_, _, rfl, .resets, .reset⟩)
    | failed e =>
      exact .inr (.inr ⟨_, _, rfl, concludes_settleError a rfl, .reset⟩)
    | token | user => exact .inl rfl

end App

end SessionGuard
