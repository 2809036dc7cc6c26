import SessionGuard.Proofs.Auth.Action
import SessionGuard.Proofs.Backend.Attempt

/-!
# The calls of an operation

What an operation asks of the backend is its `Course`: the attempts of a login, of a signup and of the
other forms, where one call follows another only if that has brought what it needs (`Attempt.Brings`).
A form that fails its check has none (`course_of_served`).
-/

namespace SessionGuard.Backend

open Http (Delivery Exchange Request Response)

variable {settings : Settings} {host : String}

/-! ## What attempts bring -/

/-- The response to the request of an attempt is a success, and a value is read from it. -/
def Attempt.Brings {α : Type} (read : Json.Raw → Option α) (value : α) (t : Attempt host) : Prop :=
  ∃ r response, t.sent? = some (r, .answered response) ∧
    Http.isSuccess response.status = true ∧ response.decode read = .ok value

/-- What an attempt brings is what is read from its response. -/
theorem Attempt.Brings.unique {α : Type} {read : Json.Raw → Option α} {value value' : α}
    {t : Attempt host} {r : Request} {response : Response} (h : t.Brings read value)
    (hs : t.sent? = some (r, .answered response)) (hd : response.decode read = .ok value') :
    value = value' := by
  obtain ⟨_, _, hs', -, hd'⟩ := h
  rw [hs] at hs'
  cases hs'
  exact Except.ok.inj (hd'.symm.trans hd)

theorem isSuccess_of_decode {α : Type} {read : Json.Raw → Option α} {response : Response}
    {value : α} (h : response.decode read = .ok value) :
    Http.isSuccess response.status = true := by
  unfold Response.decode at h
  split at h
  · assumption
  · cases h

namespace Attempt

variable {t : Attempt host}

/-- A reply of a kind that a call may have is a value that the attempt brings. -/
theorem reply_eq_iff {α : Type} {read : Json.Raw → Option α} {of : α → Reply} {value : α}
    (hreply : ∀ response : Response, replyOf t.call response =
      match response.decode read with
      | .ok value => of value
      | .error e => .failed e)
    (hof : ∀ v w, of v = of w → v = w) (hfailed : ∀ v e, of v ≠ .failed e) :
    t.reply = of value ↔ t.Brings read value := by
  constructor
  · intro h
    obtain ⟨r, response, hs, hr⟩ := exists_response (t := t) (by simp [h, hfailed])
    rw [h, hreply] at hr
    cases hd : response.decode read with
    | ok v =>
      rw [hd] at hr
      obtain rfl := hof _ _ hr
      exact ⟨r, response, hs, isSuccess_of_decode hd, hd⟩
    | error e =>
      rw [hd] at hr
      exact absurd hr (hfailed _ _)
  · rintro ⟨r, response, hs, -, hd⟩
    cases t with
    | unmade => cases hs
    | made c r' hr' d =>
      cases hs
      have := hreply response
      rwa [hd] at this

theorem reply_eq_token_iff {c : Credentials} {access : AccessToken} (hc : t.call = .login c) :
    t.reply = .token access ↔ t.Brings AccessToken.ofRaw? access :=
  reply_eq_iff (fun response => by rw [hc]; rfl) (by rintro v w ⟨⟩; rfl) (by simp)

theorem reply_eq_user_iff {token : Token} {user : UserProfile} (hc : t.call = .currentUser token) :
    t.reply = .user user ↔ t.Brings UserProfile.ofRaw? user :=
  reply_eq_iff (fun response => by rw [hc]; rfl) (by rintro v w ⟨⟩; rfl) (by simp)

theorem reply_eq_registered_iff {r : Registration} {user : UserProfile}
    (hc : t.call = .registerUser r) :
    t.reply = .user user ↔ t.Brings UserProfile.ofRaw? user :=
  reply_eq_iff (fun response => by rw [hc]; rfl) (by rintro v w ⟨⟩; rfl) (by simp)

end Attempt

/-! ## Courses -/

/-- The attempts of a login: one for a token and, if that has brought one, one for its user. -/
inductive LoginCourse (c : Credentials) : List (Attempt host) → Prop
  | refused {t} (hc : t.call = .login c) (h : ∀ access, ¬ t.Brings AccessToken.ofRaw? access) :
      LoginCourse c [t]
  | granted {t t' access} (hc : t.call = .login c) (h : t.Brings AccessToken.ofRaw? access)
      (hc' : t'.call = .currentUser access.token) : LoginCourse c [t, t']

/-- The attempts of the operation of a form: a signup that is to sign in goes on with a login if it
has brought a user. -/
inductive Course (policy : SignupPolicy) : Operation → List (Attempt host) → Prop
  | login {c ts} (h : LoginCourse c ts) : Course policy (.login c) ts
  | refused {r t} (hc : t.call = .registerUser r) (h : ∀ u, ¬ t.Brings UserProfile.ofRaw? u) :
      Course policy (.signup r) [t]
  | registered {r t u} (hc : t.call = .registerUser r) (h : t.Brings UserProfile.ofRaw? u)
      (hp : policy = .redirectToLogin) : Course policy (.signup r) [t]
  | signup {r t u ts} (hc : t.call = .registerUser r) (h : t.Brings UserProfile.ofRaw? u)
      (hp : policy = .autoLogin) (hl : LoginCourse r.credentials ts) :
      Course policy (.signup r) (t :: ts)
  | recover {email t} (hc : t.call = .recoverPassword (Text.trim email)) :
      Course policy (.recover email) [t]
  | reset {request t} (hc : t.call = .resetPassword request) : Course policy (.reset request) [t]

/-- Each attempt makes a call that none before it has made, or asks for the user of the token that
the login just before it has brought. -/
inductive Unrepeated : List (Attempt host) → Prop
  | nil : Unrepeated []
  | new {ts t} (h : Unrepeated ts) (ht : ∀ u ∈ ts, u.call ≠ t.call) : Unrepeated (ts ++ [t])
  | issued {ts t t' c access} (h : Unrepeated (ts ++ [t])) (hc : t.call = .login c)
      (hb : t.Brings AccessToken.ofRaw? access) (hc' : t'.call = .currentUser access.token) :
      Unrepeated (ts ++ [t] ++ [t'])

theorem unrepeated_singleton (t : Attempt host) : Unrepeated [t] := .new .nil (by simp)

theorem LoginCourse.unrepeated {c : Credentials} {ts us : List (Attempt host)}
    (h : LoginCourse c us) (hts : Unrepeated ts) (hnew : ∀ t ∈ ts, t.call ≠ .login c) :
    Unrepeated (ts ++ us) := by
  cases h with
  | refused hc => exact hts.new (by simpa [hc] using hnew)
  | @granted t t' access hc hb hc' =>
    have hlogin : Unrepeated (ts ++ [t]) := hts.new (by simpa [hc] using hnew)
    simpa using hlogin.issued hc hb hc'

/-- After attempts that ask for users alone, no course repeats a call. -/
theorem Course.unrepeated {policy : SignupPolicy} {op : Operation} {ts us : List (Attempt host)}
    (h : Course policy op us) (hts : Unrepeated ts)
    (husers : ∀ t ∈ ts, ∃ token, t.call = .currentUser token) : Unrepeated (ts ++ us) := by
  have hne : ∀ call, (∀ token, call ≠ .currentUser token) → ∀ t ∈ ts, t.call ≠ call := by
    intro call hcall t ht heq
    obtain ⟨token, htoken⟩ := husers t ht
    exact hcall token (heq.symm.trans htoken)
  cases h with
  | login h => exact h.unrepeated hts (hne _ (by simp))
  | refused hc | registered hc | recover hc | reset hc =>
    exact hts.new (hc ▸ hne _ (by simp))
  | @signup r t u us hc hb hp hl =>
    have hregistered : Unrepeated (ts ++ [t]) := hts.new (hc ▸ hne _ (by simp))
    have hnew : ∀ t' ∈ ts ++ [t], t'.call ≠ .login r.credentials := by
      intro t' ht'
      rcases List.mem_append.1 ht' with ht' | ht'
      · exact hne _ (by simp) t' ht'
      · rw [List.mem_singleton.1 ht', hc]
        simp
    simpa using hl.unrepeated hregistered hnew

variable {a : App} {ts : List (Attempt host)} {p : App × Progress}

/-- A login is over once no token has come, or with the answer about its user. -/
theorem cases_of_served_login {purpose : LoginPurpose} {c : Credentials}
    (h : Served settings host (a.await (.loginToken purpose c)) ts p) :
    (∃ t e, ts = [t] ∧ t.call = .login c ∧ t.reply = .failed e ∧
      p = (a.record (.login c)).failLogin purpose (.ofApi e)) ∨
    ∃ t t' access, ts = [t, t'] ∧ t.call = .login c ∧ t.reply = .token access ∧
      t'.call = .currentUser access.token ∧
      p = ((a.record (.login c)).record (.currentUser access.token)).answer settings
        (.loginUser purpose access.token) t'.reply := by
  obtain ⟨t, rest, rfl, hc, h⟩ := h.of_await _ rfl
  have hfits := t.fits
  rw [hc] at hfits
  generalize hr : t.reply = reply at hfits h
  cases hfits with
  | @failed _ e =>
    obtain ⟨rfl, rfl⟩ := h.of_finished
    exact .inl ⟨t, e, rfl, hc, hr, rfl⟩
  | @token _ access =>
    obtain ⟨t', rest, rfl, hc', h⟩ :=
      Served.of_await (.loginUser purpose access.token) rfl h
    obtain ⟨rfl, rfl⟩ := h.of_last (.loginUser purpose access.token) rfl rfl hc'
    exact .inr ⟨t, t', access, rfl, hc, hr, hc', rfl⟩

theorem loginCourse_of_served {purpose : LoginPurpose} {c : Credentials}
    (h : Served settings host (a.await (.loginToken purpose c)) ts p) : LoginCourse c ts := by
  rcases cases_of_served_login h with ⟨t, e, rfl, hc, hr, -⟩ | ⟨t, t', access, rfl, hc, hr, hc', -⟩
  · refine .refused hc fun access hb => ?_
    rw [← Attempt.reply_eq_token_iff hc, hr] at hb
    cases hb
  · exact .granted hc ((Attempt.reply_eq_token_iff hc).1 hr) hc'

/-- A login that ends without an error has been granted a token and has signed in its user. -/
theorem signIn_of_served_login {now : Int} {c : Credentials} {b : App} {o : Outcome}
    (h : Served settings host (a.start settings now (.login c)) ts (b, .finished o))
    (ho : o.error? = none) :
    ∃ t t' access user, ∃ a' b' : App, ts = [t, t'] ∧ t.call = .login c ∧
      t.Brings AccessToken.ofRaw? access ∧ t'.call = .currentUser access.token ∧
      t'.Brings UserProfile.ofRaw? user ∧ a'.store = a.store ∧
      a'.signIn access.token user = .ok b' ∧ b = b'.navigate (.navigate .home) ∧
      o = .login (.ok user) := by
  simp only [App.start, App.startLogin] at h
  split at h
  · obtain ⟨-, hp⟩ := h.of_finished
    cases hp
    cases ho
  · rcases cases_of_served_login h with
      ⟨t, e, -, -, -, hp⟩ | ⟨t, t', access, rfl, hc, hr, hc', hp⟩
    · cases hp
      cases ho
    · have hfits := t'.fits
      rw [hc'] at hfits
      generalize hr' : t'.reply = reply at hfits hp
      cases hfits with
      | failed =>
        cases hp
        cases ho
      | @user _ u =>
        simp only [App.answer, App.finishLogin] at hp
        split at hp
        · next b' hs =>
          cases hp
          have hb := (Attempt.reply_eq_token_iff hc).1 hr
          have hb' := (Attempt.reply_eq_user_iff hc').1 hr'
          refine ⟨t, t', access, u, _, b', rfl, hc, hb, hc', hb', ?_, hs, rfl, rfl⟩
          rfl
        · cases hp
          cases ho

/-- An operation with a fit form takes its course. -/
theorem course_of_served {now : Int} {op : Operation} (hop : op.check? = some (.ok ()))
    (h : Served settings host (a.start settings now op) ts p) :
    Course settings.signupPolicy op ts := by
  rcases App.start_of_check settings hop now a with ⟨cause, o, hcause, -⟩ | ⟨on, -, hopens, hstart⟩
  · cases hcause
  · rw [hstart] at h
    cases hopens with
    | restore | awaitResolved | visit => cases hop
    | login => exact .login (loginCourse_of_served h)
    | @signup r hr =>
      obtain ⟨t, rest, rfl, hc, h⟩ := h.of_await _ rfl
      have hfits := t.fits
      rw [hc] at hfits
      generalize hreply : t.reply = reply at hfits h
      cases hfits with
      | failed =>
        obtain ⟨rfl, rfl⟩ := h.of_finished
        refine .refused hc fun u hb => ?_
        rw [← Attempt.reply_eq_registered_iff hc, hreply] at hb
        cases hb
      | @registered _ u =>
        have hb := (Attempt.reply_eq_registered_iff hc).1 hreply
        simp only [App.answer] at h
        split at h
        · next hp =>
          obtain ⟨rfl, rfl⟩ := h.of_finished
          exact .registered hc hb hp
        · next hp =>
          simp only [App.startLogin, Form.checkLogin_credentials hr] at h
          exact .signup hc hb hp (loginCourse_of_served h)
    | @recover email =>
      obtain ⟨t, rest, rfl, hc, h⟩ := h.of_await _ rfl
      obtain ⟨rfl, -⟩ := h.of_last (.recovering (Text.trim email)) rfl rfl hc
      exact .recover hc
    | @reset request =>
      obtain ⟨t, rest, rfl, hc, h⟩ := h.of_await _ rfl
      obtain ⟨rfl, -⟩ := h.of_last (.resetting request) rfl rfl hc
      exact .reset hc

/-- An operation with an unfit form asks nothing. -/
theorem eq_nil_of_served {now : Int} {op : Operation} {cause : FormError}
    (hop : op.check? = some (.error cause))
    (h : Served settings host (a.start settings now op) ts p) : ts = [] := by
  rcases App.start_of_check settings hop now a with ⟨cause, o, -, hstart, -⟩ | ⟨on, hok, -⟩
  · rw [hstart] at h
    exact h.of_finished.1
  · cases hok

end SessionGuard.Backend
