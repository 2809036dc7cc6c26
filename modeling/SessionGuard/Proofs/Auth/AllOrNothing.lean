import SessionGuard.Proofs.Auth.Action
import SessionGuard.Proofs.Store.Missed

/-!
# Auth actions are all or nothing

A login, a signup, a recovery and a reset leave the session, the store and the history alone as
long as they wait (`underway_run`).  Only their last step does anything, and their result tells
what: an error that is no rejection leaves all as it is, but for a store that could not take the token;
a rejection signs out, and a success signs in or sends the user on (`auth_action_all_or_nothing`).
-/

namespace SessionGuard

namespace App

/-! ## What the last step of an action does -/

/-- The second application is the first one signed out. -/
structure SignsOut (a b : App) : Prop where
  state : b.session.state = .unauthenticated
  generation : b.session.generation = a.session.generation + 1
  store : b.store = a.store.clear
  token : b.store.get? = none ∨ a.store.Clings
  history : b.history = a.history

/-- The second application is the first one signed in and gone home. -/
structure SignsIn (a b : App) (token : Token) (user : UserProfile) : Prop where
  state : b.session.state = .authenticated user
  generation : b.session.generation = a.session.generation + 1
  store : a.store.set token = .ok b.store
  token : b.store.get? = some token ∨ a.store.Loses token
  history : b.history = a.history.apply (.navigate .home)

/-- The second application is the first one with what is left of the store after a token could not be
stored. -/
structure NotStored (a b : App) (token : Token) (cause : StoreError) : Prop where
  session : b.session = a.session
  store : a.store.set token = .error ⟨cause, b.store⟩
  missed : a.store.Missed token b.store
  history : b.history = a.history
  calls : b.calls = a.calls

/-- The second application is the first one gone to the login. -/
structure GoesToLogin (a b : App) : Prop where
  agrees : b.Agrees a
  history : b.history = a.history.apply (.navigate .login)

variable {settings : Settings} {op : Operation} {on : Waiting} {reply : Reply} {a b : App}
  {o : Outcome}

theorem signsOut_signOut (a : App) : a.SignsOut a.signOut :=
  ⟨rfl, rfl, rfl, Store.get?_clear a.store, rfl⟩

theorem signsIn_of_signIn {token : Token} {user : UserProfile} (h : a.signIn token user = .ok b) :
    a.SignsIn (b.navigate (.navigate .home)) token user := by
  unfold App.signIn at h
  split at h
  · next store hs =>
    cases h
    exact ⟨rfl, rfl, hs, Store.get?_of_set hs, rfl⟩
  · cases h

theorem notStored_of_signIn {token : Token} {user : UserProfile} {f : Failed StoreError App}
    (h : a.signIn token user = .error f) : a.NotStored f.left token f.cause := by
  obtain ⟨left, hs, hleft⟩ := signIn_eq_error h
  rw [hleft]
  exact ⟨rfl, hs, Store.missed_of_set hs, rfl, rfl⟩

theorem error?_loginOutcome_ok (user : UserProfile) (purpose : LoginPurpose) :
    (loginOutcome (.ok user) purpose).error? = none := by
  cases purpose <;> rfl

theorem signedIn?_loginOutcome_ok (user : UserProfile) (purpose : LoginPurpose) :
    (loginOutcome (.ok user) purpose).signedIn? = some user := by
  cases purpose <;> rfl

theorem signedIn?_of_error? {err : AuthError} (h : o.error? = some err) : o.signedIn? = none := by
  cases o with
  | login result => cases result with
    | ok => cases h
    | error => rfl
  | signup result => cases result with
    | ok => cases h
    | error => rfl
  | _ => rfl

/-- An error that is no rejection changes nothing, unless it comes from the store. -/
theorem Concludes.eq_of_error? (h : Concludes settings a on reply b o) {err : AuthError}
    (he : o.error? = some err) (hr : err.isRejection = false) (hs : ∀ cause, err ≠ .storage cause) :
    b = a := by
  cases h with
  | fails => rfl
  | rejected he' hr' =>
    cases he'.symm.trans he
    rw [hr] at hr'
    cases hr'
  | signsIn =>
    rw [error?_loginOutcome_ok] at he
    cases he
  | misses =>
    rw [error?_loginOutcome] at he
    exact absurd (Option.some.inj he).symm (hs _)
  | registers | recovers | resets => cases he

theorem Concludes.notStored_of_error? (h : Concludes settings a on reply b o) {cause : StoreError}
    (he : o.error? = some (.storage cause)) :
    ∃ purpose token user, on = .loginUser purpose token ∧ reply = .user user ∧
      a.NotStored b token cause := by
  cases h with
  | fails he' _ hs =>
    cases he'.symm.trans he
    exact absurd rfl (hs cause)
  | rejected he' hr' =>
    cases he'.symm.trans he
    cases hr'
  | signsIn =>
    rw [error?_loginOutcome_ok] at he
    cases he
  | misses hs =>
    rw [error?_loginOutcome] at he
    cases he
    exact ⟨_, _, _, rfl, rfl, notStored_of_signIn hs⟩
  | registers | recovers | resets => cases he

theorem Concludes.signsOut_of_error? (h : Concludes settings a on reply b o) {err : AuthError}
    (he : o.error? = some err) (hr : err.isRejection = true) : a.SignsOut b := by
  cases h with
  | fails he' hr' =>
    cases he'.symm.trans he
    rw [hr] at hr'
    cases hr'
  | rejected => exact signsOut_signOut a
  | signsIn =>
    rw [error?_loginOutcome_ok] at he
    cases he
  | misses =>
    rw [error?_loginOutcome] at he
    cases he
    cases hr
  | registers | recovers | resets => cases he

theorem Concludes.signsIn_of_signedIn? (h : Concludes settings a on reply b o) {user : UserProfile}
    (hu : o.signedIn? = some user) :
    ∃ purpose token, on = .loginUser purpose token ∧ reply = .user user ∧
      a.SignsIn b token user := by
  cases h with
  | fails he | rejected he =>
    rw [signedIn?_of_error? he] at hu
    cases hu
  | signsIn hs =>
    rw [signedIn?_loginOutcome_ok] at hu
    cases hu
    exact ⟨_, _, rfl, rfl, signsIn_of_signIn hs⟩
  | misses =>
    rw [signedIn?_of_error? (error?_loginOutcome _ _)] at hu
    cases hu
  | registers | recovers | resets => cases hu

/-- An action on an account leads to the login where the user has to sign in next. -/
theorem Concludes.goesToLogin (h : Concludes settings a on reply b o)
    (hp : op.Passes settings on) :
    (∀ user, o = .signup (.ok (.awaitingLogin user)) →
      settings.signupPolicy = .redirectToLogin ∧ a.GoesToLogin b) ∧
    ∀ message, o = .message (.ok message) →
      (∀ request, op = .reset request → a.GoesToLogin b) ∧
        ∀ email, op = .recover email → b = a := by
  cases h with
  | fails he | rejected he => constructor <;> rintro x rfl <;> cases he
  | @signsIn purpose | @misses purpose => cases purpose <;> constructor <;> rintro x ⟨⟩
  | registers h =>
    refine ⟨fun user _ => ⟨h, ⟨rfl, rfl⟩, rfl⟩, ?_⟩
    rintro message ⟨⟩
  | recovers =>
    cases hp
    refine ⟨by rintro user ⟨⟩, fun message _ => ⟨by rintro request ⟨⟩, fun _ _ => rfl⟩⟩
  | resets =>
    cases hp
    refine ⟨by rintro user ⟨⟩, fun message _ => ⟨fun _ _ => ⟨⟨rfl, rfl⟩, rfl⟩, ?_⟩⟩
    rintro email ⟨⟩

/-- Only the answer of the backend runs an auth action on. -/
theorem runsOn_of_passes (hp : op.Passes settings on) (a : App) :
    a.timeout on = (a, .waiting on) ∧ a.wake on = (a, .waiting on) := by
  cases hp <;> exact ⟨rfl, by unfold wake; split <;> rfl⟩

end App

namespace Machine

variable {settings : Settings} {m : Machine} {op : Operation} {id : Nat}

/-! ## An action that waits -/

/-- With the event the session, the store and the history stay as they are. -/
structure Rests (settings : Settings) (m : Machine) (e : Event) : Prop where
  agrees : (m.step settings e).app.Agrees m.app
  history : (m.step settings e).app.history = m.app.history

/-- The events of a number leave the session, the store and the history as they are. -/
def Still (settings : Settings) (id : Nat) (m : Machine) (es : List Event) : Prop :=
  m.Always settings (fun m e => e.id = id → m.Rests settings e) es

/-- The backend, asked to log in under a number, answers with a token. -/
structure Grants (id : Nat) (c : Credentials) (token : Token) (m : Machine) (e : Event) : Prop where
  waits : ∃ purpose, m.find? id = some (.loginToken purpose c)
  called : .login c ∈ m.app.calls
  answers : ∃ kind, e = .answer id (.token ⟨token, kind⟩)

/-- After the events an action waits, and has done nothing yet; a login that waits for its user has
got its token. -/
structure Underway (settings : Settings) (m : Machine) (id : Nat) (op : Operation)
    (es : List Event) (on : Waiting) : Prop where
  waits : (m.run settings es).find? id = some on
  passes : op.Passes settings on
  still : m.Still settings id es
  granted : ∀ purpose token, on = .loginUser purpose token →
    ∃ c, op.credentials? = some c ∧ m.Sometime settings (Grants id c token) es

theorem rests_of_app {e : Event} (h : (m.step settings e).app = m.app) : m.Rests settings e :=
  ⟨by rw [h]; exact .refl _, by rw [h]⟩

theorem rests_of_await {e : Event} {on : Waiting}
    (h : (m.step settings e).app = (m.app.await on).1) : m.Rests settings e :=
  ⟨by rw [h]; exact App.agrees_await on m.app, by rw [h, App.history_await]⟩

/-- With an event of its own a waiting action waits on, comes to its next wait, ends or is given
up. -/
theorem step_of_passes {e : Event} {on : Waiting} (hf : m.find? e.id = some on)
    (hp : op.Passes settings on) :
    ((m.step settings e).app = m.app ∧ (m.step settings e).find? e.id = some on) ∨
      (∃ reply on', e = .answer e.id reply ∧ on.Next settings reply on' ∧
        (m.step settings e).app = (m.app.await on').1 ∧
        (m.step settings e).find? e.id = some on') ∨
      (∃ reply o, e = .answer e.id reply ∧ m.Ends settings e o ∧ op.Gives o ∧
        App.Concludes settings m.app on reply (m.step settings e).app o) ∨
      e = .abandon e.id := by
  cases e with
  | start id now op' =>
    simp only [Event.id] at hf
    simp [step, Event.id, hf]
  | answer id reply =>
    simp only [Event.id] at hf
    simp only [Ends, step, Event.id, hf, app_advance, find?_advance, if_true]
    rcases App.answer_of_passes hp reply m.app with h | ⟨on', hn, h⟩ | ⟨b, o, h, hc, hg⟩
    · rw [h]
      exact .inl ⟨rfl, rfl⟩
    · rw [h, App.await_snd]
      exact .inr (.inl ⟨reply, on', rfl, hn, rfl, rfl⟩)
    · rw [h]
      exact .inr (.inr (.inl ⟨reply, o, rfl, rfl, hg, hc⟩))
  | timeout id =>
    simp only [Event.id] at hf
    simp only [step, Event.id, hf, app_advance, find?_advance, if_true,
      (App.runsOn_of_passes hp m.app).1]
    exact .inl ⟨trivial, rfl⟩
  | wake id =>
    simp only [Event.id] at hf
    simp only [step, Event.id, hf, app_advance, find?_advance, if_true,
      (App.runsOn_of_passes hp m.app).2]
    exact .inl ⟨trivial, rfl⟩
  | abandon id => exact .inr (.inr (.inr rfl))

/-- An action that starts is over at once with its form refused, or waits. -/
theorem step_start_of_check (settings : Settings) {check : Except FormError Unit}
    (hf : m.find? id = none) (hop : op.check? = some check) (now : Int) :
    let e := Event.start id now op
    (∃ cause o, check = .error cause ∧ m.Ends settings e o ∧ (m.step settings e).app = m.app ∧
        o.error? = some (.form cause) ∧ op.Gives o) ∨
      ∃ on, check = .ok () ∧ op.Opens on ∧
        (m.step settings e).app = (m.app.await on).1 ∧
        (m.step settings e).find? id = some on := by
  intro e
  simp only [e, Ends, step, Event.id, hf, app_advance, find?_advance, if_true]
  rcases App.start_of_check settings hop now m.app with
    ⟨cause, o, hc, h, he, hg⟩ | ⟨on, hc, ho, h⟩
  · rw [h]
    exact .inl ⟨cause, o, hc, rfl, rfl, he, hg⟩
  · rw [h, App.await_snd]
    exact .inr ⟨on, hc, ho, rfl, rfl⟩

/-! ## An action in a run -/

theorem still_concat {es : List Event} {e : Event} :
    m.Still settings id (es ++ [e]) ↔
      m.Still settings id es ∧ (e.id = id → (m.run settings es).Rests settings e) :=
  always_concat

/-- An event of another number leaves an action where it is. -/
theorem Underway.step_of_ne {es : List Event} {on : Waiting} {e : Event}
    (h : m.Underway settings id op es on) (hid : e.id ≠ id) :
    m.Underway settings id op (es ++ [e]) on where
  waits := by
    rw [run_append]
    exact (find?_step_of_ne settings _ (Ne.symm hid)).trans h.waits
  passes := h.passes
  still := still_concat.2 ⟨h.still, fun he => absurd he hid⟩
  granted := by
    intro purpose token hon
    obtain ⟨c, hc, hg⟩ := h.granted purpose token hon
    exact ⟨c, hc, sometime_concat.2 (.inl hg)⟩

/-- An action that still waits after an event of its own has done nothing with it. -/
theorem Underway.step_self {es : List Event} {on : Waiting} {e : Event}
    (h : m.Underway settings e.id op es on) (hasked : (m.run settings es).Asked)
    (hw : (((m.run settings es).step settings e).find? e.id).isSome = true) :
    ∃ on', m.Underway settings e.id op (es ++ [e]) on' := by
  rcases step_of_passes h.waits h.passes with
    ⟨happ, hf⟩ | ⟨reply, on', he, hn, happ, hf⟩ | ⟨reply, o, he, hends, -, -⟩ | he
  · refine ⟨on, by rw [run_append]; exact hf, h.passes,
      still_concat.2 ⟨h.still, fun _ => rests_of_app happ⟩, fun purpose token hon => ?_⟩
    obtain ⟨c, hc, hg⟩ := h.granted purpose token hon
    exact ⟨c, hc, sometime_concat.2 (.inl hg)⟩
  · refine ⟨on', by rw [run_append]; exact hf, h.passes.next hn,
      still_concat.2 ⟨h.still, fun _ => rests_of_await happ⟩, ?_⟩
    rintro purpose token rfl
    -- the wait for the user follows the wait for the token, which this event has ended
    cases hn with
    | @token _ c access =>
      refine ⟨c, h.passes.credentials, sometime_concat.2 (.inr ?_)⟩
      exact ⟨⟨_, h.waits⟩, hasked _ _ _ h.waits rfl, access.kind, he⟩
  · rw [find?_of_ends hends] at hw
    cases hw
  · rw [he, Event.id, find?_step_abandon] at hw
    cases hw

/-- An action that waits has done nothing yet. -/
theorem underway_run {check : Except FormError Unit} (hf : m.find? id = none)
    (hop : op.check? = some check) (hasked : ∀ es, (m.run settings es).Asked) {now : Int}
    {es : List Event} (hw : m.Waits settings id (.start id now op :: es)) :
    ∃ on, m.Underway settings id op (.start id now op :: es) on := by
  induction es using List.reverseRecOn with
  | nil =>
    rcases step_start_of_check settings hf hop now with
      ⟨cause, o, -, hends, -⟩ | ⟨on, -, ho, happ, hs⟩
    · obtain ⟨hs, -⟩ := hw
      have hn := find?_of_ends hends
      rw [Event.id] at hn
      rw [hn] at hs
      cases hs
    · refine ⟨on, hs, ho.passes hop, ⟨fun _ => rests_of_await happ, trivial⟩, ?_⟩
      rintro purpose token rfl
      cases ho
  | append_singleton es e ih =>
    rw [← List.cons_append] at hw ⊢
    obtain ⟨hw, hs⟩ := waits_concat.1 hw
    obtain ⟨on, h⟩ := ih hw
    by_cases hid : e.id = id
    · subst hid
      exact h.step_self (hasked _) hs
    · exact ⟨on, h.step_of_ne hid⟩

/-! ## An action that ends -/

/-- With the event an action ends that has run through the events before; it has done all that its
outcome stands for, with this event alone. -/
structure AllOrNothing (settings : Settings) (m : Machine) (op : Operation) (es : List Event)
    (e : Event) (outcome : Outcome) : Prop where
  gives : op.Gives outcome
  still : m.Still settings e.id es
  failed : ∀ err, outcome.error? = some err → err.isRejection = false →
    (∀ cause, err ≠ .storage cause) →
    ((m.run settings es).step settings e).app = (m.run settings es).app
  notStored : ∀ cause, outcome.error? = some (.storage cause) →
    ∃ purpose token user, (m.run settings es).find? e.id = some (.loginUser purpose token) ∧
      e = .answer e.id (.user user) ∧
      (m.run settings es).app.NotStored ((m.run settings es).step settings e).app token cause
  rejected : ∀ err, outcome.error? = some err → err.isRejection = true →
    (m.run settings es).app.SignsOut ((m.run settings es).step settings e).app
  signedIn : ∀ user, outcome.signedIn? = some user →
    (∀ r, op = .signup r → settings.signupPolicy = .autoLogin) ∧
    ∃ c token purpose, op.credentials? = some c ∧ m.Sometime settings (Grants e.id c token) es ∧
      (m.run settings es).find? e.id = some (.loginUser purpose token) ∧
      .currentUser token ∈ (m.run settings es).app.calls ∧ e = .answer e.id (.user user) ∧
      (m.run settings es).app.SignsIn ((m.run settings es).step settings e).app token user
  registered : ∀ user, outcome = .signup (.ok (.awaitingLogin user)) →
    settings.signupPolicy = .redirectToLogin ∧
      (m.run settings es).app.GoesToLogin ((m.run settings es).step settings e).app
  reset : ∀ request message, op = .reset request → outcome = .message (.ok message) →
    (m.run settings es).app.GoesToLogin ((m.run settings es).step settings e).app
  recovered : ∀ email message, op = .recover email → outcome = .message (.ok message) →
    ((m.run settings es).step settings e).app = (m.run settings es).app

/-- An action that is over at once with its form refused has done nothing. -/
theorem allOrNothing_of_error? {e : Event} {o : Outcome} {cause : FormError}
    (h : (m.step settings e).app = m.app) (he : o.error? = some (.form cause)) (hg : op.Gives o) :
    m.AllOrNothing settings op [] e o where
  gives := hg
  still := trivial
  failed := fun _ _ _ _ => h
  notStored := by
    intro cause he'
    cases he.symm.trans he'
  rejected := by
    rintro err he' hr
    cases he.symm.trans he'
    cases hr
  signedIn := by
    rintro user hu
    rw [App.signedIn?_of_error? he] at hu
    cases hu
  registered := by
    rintro user rfl
    cases he
  reset := by
    rintro request message rfl rfl
    cases he
  recovered := fun _ _ _ _ => h

theorem Underway.allOrNothing {es : List Event} {on : Waiting} {e : Event} {o : Outcome}
    (h : m.Underway settings e.id op es on) (hasked : (m.run settings es).Asked)
    (hends : (m.run settings es).Ends settings e o) : m.AllOrNothing settings op es e o := by
  rcases step_of_passes h.waits h.passes with
    ⟨-, hf⟩ | ⟨reply, on', -, -, -, hf⟩ | ⟨reply, o', he, hends', hg, hc⟩ | he
  · rw [find?_of_ends hends] at hf
    cases hf
  · rw [find?_of_ends hends] at hf
    cases hf
  · obtain rfl := Ends.unique hends hends'
    obtain ⟨registered, told⟩ := hc.goesToLogin h.passes
    refine ⟨hg, h.still, fun _ => hc.eq_of_error?, fun cause hcause => ?_,
      fun _ => hc.signsOut_of_error?, fun user hu => ?_, registered,
      fun request message hop ho => (told message ho).1 request hop,
      fun email message hop ho => (told message ho).2 email hop⟩
    · obtain ⟨purpose, token, user, rfl, rfl, hs⟩ := hc.notStored_of_error? hcause
      exact ⟨purpose, token, user, h.waits, he, hs⟩
    obtain ⟨purpose, token, rfl, rfl, hs⟩ := hc.signsIn_of_signedIn? hu
    obtain ⟨c, hcr, hgr⟩ := h.granted purpose token rfl
    refine ⟨?_, c, token, purpose, hcr, hgr, h.waits, hasked _ _ _ h.waits rfl, he, hs⟩
    rintro r rfl
    cases h.passes with
    | signupUser hp => exact hp
  · rw [he] at hends
    exact absurd hends (not_ends_abandon settings _ _)

/-- Auth actions are all or nothing.  A login, a signup, a recovery or a reset whose form fails its
check is over at once, and nothing has changed or been asked.  Whatever happens meanwhile, an action
does nothing to the session, the store and the history before its last event, and nothing with that
one if it ends in an error that is no rejection, unless the token could not be stored: then the session
and the history are as before, and no file has changed or that of the store is left with a part of its
text.  With a rejection the action signs out, with a login it signs the user in whom the backend has
named for the token that it gave to this action, and goes home, and with a new account or a new password
it goes to the login. -/
theorem auth_action_all_or_nothing (settings : Settings) (store : Store) (route : Route)
    (past : List Event) (id : Nat) (now : Int) (op : Operation) (check : Except FormError Unit) :
    let m := (starting (.starting store route)).run settings past
    m.find? id = none → op.check? = some check →
    (∀ cause, check = .error cause →
      (m.step settings (.start id now op)).app = m.app ∧
        ∃ outcome, op.Gives outcome ∧ outcome.error? = some (.form cause) ∧
          m.Ends settings (.start id now op) outcome) ∧
    (∀ es e rest outcome, es ++ [e] = .start id now op :: rest → m.Waits settings id es →
      e.id = id → (m.run settings es).Ends settings e outcome →
      m.AllOrNothing settings op es e outcome) := by
  intro m hf hop
  have hasked : ∀ es, (m.run settings es).Asked := by
    intro es
    rw [← run_append]
    exact asked_run settings _ (past ++ es)
  have hstart := step_start_of_check settings hf hop now
  refine ⟨fun cause hcause => ?_, fun es e rest outcome hes hw hid hends => ?_⟩
  · rcases hstart with ⟨cause', o, hc, hends, happ, he, hg⟩ | ⟨on, hc, -, -, -⟩
    · cases hc.symm.trans hcause
      exact ⟨happ, o, hg, he, hends⟩
    · cases hc.symm.trans hcause
  · cases es with
    | nil =>
      obtain ⟨rfl, -⟩ := List.cons.inj hes
      rcases hstart with ⟨cause, o, -, hends', happ, he, hg⟩ | ⟨on, -, -, -, hs⟩
      · obtain rfl := Ends.unique hends hends'
        exact allOrNothing_of_error? happ he hg
      · cases hs.symm.trans (find?_of_ends hends)
    | cons first es =>
      obtain ⟨rfl, -⟩ := List.cons.inj hes
      subst hid
      obtain ⟨on, h⟩ := underway_run hf hop hasked hw
      exact h.allOrNothing (hasked _) hends

/-- A member signs up and is logged in at once, though somebody signs out meanwhile. -/
theorem all_or_nothing_for_new_member :
    let settings : Settings := ⟨10000, true, .autoLogin⟩
    let user : UserProfile := ⟨"u1", "a@b.com", none, true, false⟩
    let r : Registration := ⟨"a@b.com", "longenough", none⟩
    let m := starting (.starting (.memory none) .landing)
    let es := [.start 0 0 (.signup r), .answer 0 (.user user), .start 1 0 .logout,
      .answer 0 (.token ⟨⟨"t"⟩, "bearer"⟩)]
    let n := m.run settings es
    m.find? 0 = none ∧ Operation.check? (.signup r) = some (.ok ()) ∧ m.Waits settings 0 es ∧
      m.Still settings 0 es ∧ m.Sometime settings (Grants 0 r.credentials ⟨"t"⟩) es ∧
      n.app.SignsIn (n.step settings (.answer 0 (.user user))).app ⟨"t"⟩ user := by
  intro settings user r m es n
  have hf : m.find? 0 = none := rfl
  have hop : Operation.check? (.signup r) = some (.ok ()) := by decide +kernel
  have hw : m.Waits settings 0 es := by decide +kernel
  have hends : n.Ends settings (.answer 0 (.user user)) (.signup (.ok (.signedIn user))) := by
    decide +kernel
  have hv : n.find? 0 = some (.loginUser .signup ⟨"t"⟩) := by decide +kernel
  obtain ⟨-, ends⟩ := auth_action_all_or_nothing settings (.memory none) .landing [] 0 0
    (.signup r) (.ok ()) hf hop
  obtain ⟨-, still, -, -, -, signedIn, -⟩ := ends es (.answer 0 (.user user)) _ _ rfl hw rfl hends
  obtain ⟨-, c, token, purpose, hc, hg, hv', -, -, hs⟩ := signedIn user rfl
  obtain rfl : r.credentials = c := by simpa [Operation.credentials?] using hc
  cases hv.symm.trans hv'
  exact ⟨hf, hop, hw, still, hg, hs⟩

/-- A session file with another entry that cannot be written keeps its token when a rejection signs
the user out, a session file holds no token that is empty, and one with an old token loses it to a login
that is not done, where there is no room for the new one. -/
theorem session_file_fails_all_or_nothing :
    let settings : Settings := ⟨10000, true, .redirectToLogin⟩
    let user : UserProfile := ⟨"u1", "a@b.com", none, true, false⟩
    let text := "access_token: tok\nother:\n  ? \x7ba: 1\x7d\n  : 2\n"
    let disk : Disk :=
      { entries := [(["session.yaml"], .file text.toUTF8 0o644)], current := [] }
    let empty : Disk := { entries := [], current := [] }
    let m := (starting (.starting (.file "session.yaml" disk) .landing)).step settings
      (.start 0 0 (.login ⟨"a@b.com", "x"⟩))
    let n := m.step settings (.answer 0 (.failed (.rejected .unauthorized)))
    let m' := (starting (.starting (.file "session.yaml" empty) .landing)).run settings
      [.start 0 0 (.login ⟨"a@b.com", "x"⟩), .answer 0 (.token ⟨⟨""⟩, "bearer"⟩)]
    let n' := m'.step settings (.answer 0 (.user user))
    let full : Disk :=
      { entries := [(["session.yaml"], .file "access_token: old\n".toUTF8 0o600)], current := []
        system := { room := fun _ => some 5 } }
    let old := starting (.starting (.file "session.yaml" full) .landing)
    let lost := old.run settings [.start 0 0 (.login ⟨"a@b.com", "x"⟩),
      .answer 0 (.token ⟨⟨"new"⟩, "bearer"⟩), .answer 0 (.user user)]
    (m.Ends settings (.answer 0 (.failed (.rejected .unauthorized)))
        (.login (.error (.rejected .unauthorized))) ∧
      n.app.session.state = .unauthenticated ∧ n.app.store.get? = some ⟨"tok"⟩) ∧
    (m'.Ends settings (.answer 0 (.user user)) (.login (.ok user)) ∧
      n'.app.session.state = .authenticated user ∧ n'.app.store.get? = none) ∧
    (old.app.store.get? = some ⟨"old"⟩ ∧
      lost.finished = [(0, .login (.error (.storage (.file "session.yaml" .noSpace))))] ∧
      lost.app.store.get? = none) := by
  decide +kernel

end Machine

end SessionGuard
