import SessionGuard.Proofs.Auth.Action
import SessionGuard.Proofs.Backend.Request
import SessionGuard.Proofs.Http.Alike

/-!
# Operations with another password

Three calls carry a password, each in the body of its request.  With another password in an
operation, and in all that it has come to, the application does the same at each step
(`App.start_withPassword`, `App.answer_withPassword`) as long as the check of the form says the same.
So the requests of the operation are the same but for these bodies (`Backend.Twins`), and so is how
it ends (`Backend.alike_run`).
-/

namespace SessionGuard

/-! ## Another password -/

def Credentials.withPassword (q : String) (c : Credentials) : Credentials := { c with password := q }

def Registration.withPassword (q : String) (r : Registration) : Registration :=
  { r with password := q }

def NewPassword.withPassword (q : String) (r : NewPassword) : NewPassword :=
  { r with newPassword := q }

/-- Whether a call carries a password. -/
def Call.hasPassword : Call → Bool
  | login _ | registerUser _ | resetPassword _ => true
  | _ => false

def Call.withPassword (q : String) : Call → Call
  | login c => login (c.withPassword q)
  | registerUser r => registerUser (r.withPassword q)
  | resetPassword r => resetPassword (r.withPassword q)
  | call => call

def Operation.withPassword (q : String) : Operation → Operation
  | login c => login (c.withPassword q)
  | signup r => signup (r.withPassword q)
  | reset r => reset (r.withPassword q)
  | op => op

def Waiting.withPassword (q : String) : Waiting → Waiting
  | loginToken purpose c => loginToken purpose (c.withPassword q)
  | registering r => registering (r.withPassword q)
  | resetting r => resetting (r.withPassword q)
  | on => on

def Progress.withPassword (q : String) : Progress → Progress
  | finished outcome => finished outcome
  | waiting on => waiting (on.withPassword q)

/-- An application that has made its calls with another password. -/
def App.withPassword (q : String) (a : App) : App :=
  { a with calls := a.calls.map (Call.withPassword q) }

/-- An operation that has come somewhere, with another password. -/
def App.alter (q : String) (p : App × Progress) : App × Progress :=
  (p.1.withPassword q, p.2.withPassword q)

variable {q : String}

theorem Call.withPassword_of_not_hasPassword {call : Call} (h : call.hasPassword = false) :
    call.withPassword q = call := by
  cases call with
  | currentUser | recoverPassword => rfl
  | login | registerUser | resetPassword => cases h

theorem Registration.credentials_withPassword (r : Registration) :
    (r.withPassword q).credentials = r.credentials.withPassword q := rfl

@[simp] theorem Waiting.call?_withPassword (on : Waiting) :
    (on.withPassword q).call? = on.call?.map (Call.withPassword q) := by
  cases on <;> rfl

/-! ## Checks -/

/-- An empty password is refused for a login, and any other one is accepted. -/
theorem Form.checkLogin_withPassword {c : Credentials} (h : c.password = "" ↔ q = "") :
    checkLogin (c.withPassword q) = checkLogin c := by
  unfold checkLogin Credentials.withPassword
  cases checkEmail c.email with
  | error e => rfl
  | ok _ => by_cases hq : q = "" <;> simp [bind, Except.bind, h, hq]

/-- A short password is refused for an account, and any other one is accepted. -/
theorem Form.checkNewPassword_eq {p : String}
    (h : minPasswordLength ≤ p.length ↔ minPasswordLength ≤ q.length) :
    checkNewPassword q = checkNewPassword p := by
  have hlt : q.length < minPasswordLength ↔ p.length < minPasswordLength := by omega
  simp only [checkNewPassword, hlt]

/-- What follows from the wait of a signup does not depend on which of two passwords there is. -/
def Waiting.Stays (q : String) : Waiting → Prop
  | registering r =>
    Form.checkLogin (r.credentials.withPassword q) = Form.checkLogin r.credentials
  | _ => True

theorem Operation.Opens.stays {op : Operation} {on : Waiting} (h : op.Opens on)
    (hop : (op.withPassword q).check? = op.check?) : on.Stays q := by
  cases h with
  | @signup r hr =>
    have hr' : Form.checkRegistration (r.withPassword q) = .ok () := by
      rw [← hr]
      exact Option.some.inj hop
    exact (Form.checkLogin_credentials hr').trans (Form.checkLogin_credentials hr).symm
  | restore | awaitResolved | visit | login | recover | reset => trivial

theorem Waiting.Next.stays {settings : Settings} {on on' : Waiting} {reply : Reply}
    (h : on.Next settings reply on') : on'.Stays q := by
  cases h <;> trivial

/-! ## Steps -/

namespace App

variable {settings : Settings} (a : App)

@[simp] theorem session_withPassword : (a.withPassword q).session = a.session := rfl

@[simp] theorem store_withPassword : (a.withPassword q).store = a.store := rfl

theorem await_withPassword (on : Waiting) :
    (a.withPassword q).await (on.withPassword q) = alter q (a.await on) := by
  unfold await
  rw [Waiting.call?_withPassword]
  cases on.call? with
  | none => rfl
  | some call => simp [alter, record, withPassword, Progress.withPassword]

theorem settleError_withPassword (e : AuthError) :
    (a.withPassword q).settleError e = (a.settleError e).withPassword q := by
  unfold settleError
  split <;> rfl

theorem failLogin_withPassword (purpose : LoginPurpose) (e : AuthError) :
    (a.withPassword q).failLogin purpose e = alter q (a.failLogin purpose e) := by
  rw [failLogin, settleError_withPassword]
  rfl

theorem signIn_withPassword (token : Token) (user : UserProfile) :
    (a.withPassword q).signIn token user =
      ((a.signIn token user).mapError fun f => ⟨f.cause, f.left.withPassword q⟩).map
        (App.withPassword q) := by
  unfold signIn
  rw [store_withPassword]
  cases a.store.set token <;> rfl

theorem finishLogin_withPassword (purpose : LoginPurpose) (token : Token) (user : UserProfile) :
    (a.withPassword q).finishLogin purpose token user =
      alter q (a.finishLogin purpose token user) := by
  unfold finishLogin
  rw [signIn_withPassword]
  cases a.signIn token user <;> rfl

theorem startLogin_withPassword (purpose : LoginPurpose) {c : Credentials}
    (hc : Form.checkLogin (c.withPassword q) = Form.checkLogin c) :
    (a.withPassword q).startLogin purpose (c.withPassword q) = alter q (a.startLogin purpose c) := by
  unfold startLogin
  rw [hc]
  cases Form.checkLogin c with
  | error e => rfl
  | ok _ => exact await_withPassword a (.loginToken purpose c)

theorem finishValidation_withPassword (attempt : Nat) (state : SessionState) (clear : Bool) :
    (a.withPassword q).finishValidation attempt state clear =
      alter q (a.finishValidation attempt state clear) := by
  have hsettle : (a.withPassword q).settle attempt state clear =
      (a.settle attempt state clear).withPassword q := by
    unfold settle
    rw [session_withPassword]
    split <;> rfl
  rw [finishValidation, hsettle]
  rfl

theorem startValidation_withPassword (now : Int) :
    (a.withPassword q).startValidation settings now = alter q (a.startValidation settings now) := by
  have hbegin : (a.withPassword q).beginValidation = a.beginValidation.withPassword q := rfl
  unfold startValidation
  rw [session_withPassword, hbegin]
  generalize a.beginValidation = b
  simp only [session_withPassword, store_withPassword]
  split
  · rfl
  · split
    · exact finishValidation_withPassword b _ _ _
    · next token _ =>
      split
      · exact finishValidation_withPassword b _ _ _
      · exact await_withPassword b (.validating b.session.generation token)

theorem evaluate_withPassword (route : Route) :
    (a.withPassword q).evaluate route =
      ((a.evaluate route).1, (a.evaluate route).2.withPassword q) := by
  unfold evaluate
  simp only [session_withPassword]
  cases Gate.decide route a.session.state <;> rfl

theorem wake_withPassword {on : Waiting} (hon : on.withPassword q = on) :
    (a.withPassword q).wake on = alter q (a.wake on) := by
  have hstill : (a.withPassword q, Progress.waiting on) = alter q (a, .waiting on) := by
    simp only [alter, Progress.withPassword, hon]
  unfold wake
  rw [session_withPassword]
  split
  · exact hstill
  · cases on with
    | resolving => rfl
    | visiting route =>
      simp only [evaluate_withPassword]
      rfl
    | validating | loginToken | loginUser | registering | recovering | resetting => exact hstill

/-- The form of an operation that is checked before its first wait. -/
theorem start_withPassword (now : Int) {op : Operation}
    (hop : (op.withPassword q).check? = op.check?) :
    (a.withPassword q).start settings now (op.withPassword q) =
      alter q (a.start settings now op) := by
  cases op with
  | peek | expiry | signOut | logout | go => rfl
  | restore => exact startValidation_withPassword a now
  | awaitResolved => exact wake_withPassword a rfl
  | visit route => exact wake_withPassword (a.navigate (.navigate route)) rfl
  | evaluate route =>
    simp only [start, Operation.withPassword, evaluate_withPassword]
    rfl
  | signIn token user =>
    simp only [start, Operation.withPassword, signIn_withPassword]
    cases a.signIn token user <;> rfl
  | login c => exact startLogin_withPassword a .login (Option.some.inj hop)
  | signup r =>
    have hr : Form.checkRegistration (r.withPassword q) = Form.checkRegistration r :=
      Option.some.inj hop
    simp only [start, Operation.withPassword, hr]
    cases Form.checkRegistration r with
    | error e => rfl
    | ok _ => exact await_withPassword a (.registering r)
  | recover email =>
    simp only [start, Operation.withPassword]
    cases Form.checkEmail email with
    | error e => rfl
    | ok _ => exact await_withPassword a (.recovering (Text.trim email))
  | reset r =>
    have hr : Form.checkReset (r.withPassword q) = Form.checkReset r := Option.some.inj hop
    simp only [start, Operation.withPassword, hr]
    cases Form.checkReset r with
    | error e => rfl
    | ok _ => exact await_withPassword a (.resetting r)

theorem answer_withPassword {on : Waiting} (hon : on.Stays q) (reply : Reply) :
    (a.withPassword q).answer settings (on.withPassword q) reply =
      alter q (a.answer settings on reply) := by
  cases on with
  | validating attempt token =>
    cases reply with
    | failed | user => exact finishValidation_withPassword a _ _ _
    | token | message => rfl
  | loginToken purpose c =>
    cases reply with
    | failed e => exact failLogin_withPassword a purpose _
    | token access => exact await_withPassword a (.loginUser purpose access.token)
    | user | message => rfl
  | loginUser purpose token =>
    cases reply with
    | failed e => exact failLogin_withPassword a purpose _
    | user user => exact finishLogin_withPassword a purpose token user
    | token | message => rfl
  | registering r =>
    cases reply with
    | failed e =>
      simp only [answer, Waiting.withPassword, settleError_withPassword]
      rfl
    | user user =>
      simp only [answer, Waiting.withPassword, Registration.credentials_withPassword]
      cases settings.signupPolicy with
      | redirectToLogin => rfl
      | autoLogin => exact startLogin_withPassword a .signup hon
    | token | message => rfl
  | recovering email =>
    cases reply with
    | failed e =>
      simp only [answer, Waiting.withPassword, settleError_withPassword]
      rfl
    | token | user | message => rfl
  | resetting r =>
    cases reply with
    | failed e =>
      simp only [answer, Waiting.withPassword, settleError_withPassword]
      rfl
    | token | user | message => rfl
  | resolving | visiting => cases reply <;> rfl

end App

/-! ## Requests -/

namespace Backend

open Http (Body Exchange Request)
open Http.Exchange (Alike)

/-- Requests that are the same but for a password in their bodies, if they carry one. -/
structure Twins (host q : String) (r r' : Request) : Prop where
  rest : r' = { r with body := r'.body }
  contentType : r'.body.map Body.contentType = r.body.map Body.contentType
  body : r'.body = r.body ∨ ∃ call : Call, call.hasPassword = true ∧
    request host call = .ok r ∧ request host (call.withPassword q) = .ok r'

variable {settings : Settings} {host : String}

theorem request_withPassword (host : String) (call : Call) :
    request host (call.withPassword q) =
      (request host call).map fun r => { r with body := body? (call.withPassword q) } := by
  have hurl : url host (call.withPassword q) = url host call := by
    cases call <;> simp only [Call.withPassword, url, path]
  have hproof (full : Url) : authorization full (call.withPassword q) = authorization full call := by
    cases call <;> simp only [Call.withPassword, authorization]
  have hmethod : method (call.withPassword q) = method call := by cases call <;> rfl
  unfold request
  rw [hurl]
  cases url host call with
  | error e => rfl
  | ok full =>
    simp only [bind, Except.bind, hproof, hmethod]
    split
    · rfl
    · split
      · rfl
      · split <;> rfl

theorem contentType_withPassword (call : Call) :
    (body? (call.withPassword q)).map Body.contentType = (body? call).map Body.contentType := by
  cases call <;> simp only [Call.withPassword, body?, Http.formBody, Http.jsonBody, Option.map_some]

theorem twins_of_request {call : Call} {r r' : Request} (h : request host call = .ok r)
    (h' : request host (call.withPassword q) = .ok r') : Twins host q r r' := by
  obtain ⟨full, -, hr⟩ := request_eq_ok h
  have hbody : r.body = body? call := by rw [hr]
  have hr' : { r with body := body? (call.withPassword q) } = r' := by
    have hmap := h'
    rw [request_withPassword, h] at hmap
    exact Except.ok.inj hmap
  have hbody' : r'.body = body? (call.withPassword q) := by rw [← hr']
  refine ⟨by rw [hbody', hr'], by rw [hbody, hbody', contentType_withPassword], ?_⟩
  cases hp : call.hasPassword with
  | true => exact .inr ⟨call, hp, h, h'⟩
  | false =>
    refine .inl ?_
    rw [hbody, hbody', Call.withPassword_of_not_hasPassword hp]

/-- The reply to a call does not depend on the password in it. -/
theorem reply_withPassword (call : Call) {r r' : Request} (hr : r'.url = r.url)
    (d : Http.Delivery) : reply (call.withPassword q) r' d = reply call r d := by
  cases d with
  | refused => rfl
  | dropped => simp only [reply, hr]
  | answered response => cases call <;> rfl

theorem alike_ask (host : String) (call : Call) :
    Alike (Twins host q) Eq (ask host call) (ask host (call.withPassword q)) := by
  have hrequest := request_withPassword (q := q) host call
  unfold ask
  cases h : request host call with
  | error e =>
    rw [h] at hrequest
    rw [hrequest]
    exact .done rfl
  | ok r =>
    rw [h] at hrequest
    have htwins := twins_of_request h hrequest
    simp only [hrequest]
    exact .send htwins fun d => .done (reply_withPassword call rfl d).symm

/-! ## Operations -/

theorem alike_serve (fuel : Nat) (p : App × Progress) (hp : ∀ on, p.2 = .waiting on → on.Stays q) :
    Alike (Twins host q) (fun x y => y = App.alter q x) (serve settings host fuel p)
      (serve settings host fuel (App.alter q p)) := by
  induction fuel generalizing p with
  | zero => exact .done rfl
  | succ fuel ih =>
    obtain ⟨a, progress⟩ := p
    cases progress with
    | finished outcome => exact .done rfl
    | waiting on =>
      have hon := hp on rfl
      simp only [serve, App.alter, Progress.withPassword, Waiting.call?_withPassword]
      cases hc : on.call? with
      | none => exact .done rfl
      | some call =>
        refine (alike_ask host call).bind fun reply reply' hreply => ?_
        subst hreply
        rw [App.answer_withPassword a hon]
        refine ih _ fun on' hon' => ?_
        rcases App.next_of_answer hon' with rfl | hnext
        · exact hon
        · exact hnext.stays

/-- With another password for which the check of its form says the same, an operation sends the same
requests but for the bodies that carry the password, and ends in the same way. -/
theorem alike_run (now : Int) {op : Operation} (hop : (op.withPassword q).check? = op.check?)
    (a : App) :
    Alike (Twins host q) (fun x y => y = App.alter q x) (run settings host now op a)
      (run settings host now (op.withPassword q) (a.withPassword q)) := by
  unfold run
  rw [App.start_withPassword a now hop]
  exact alike_serve maxCalls _ fun on hon => (App.opens_of_start hon).stays hop

end Backend

end SessionGuard
