import SessionGuard.Proofs.Machine.Waits
import SessionGuard.Proofs.Session.Coherence
import SessionGuard.Proofs.Session.Overtaking

/-!
# How long a sign-out lasts

A signed-out session stays so until a user signs in or the stored token is judged anew.  Validations
in flight have been overtaken and cannot end it (`signedOut_run`), but a login in flight can
(`exists_signsIn`): a sign-out lasts exactly if no login waits when it happens.
-/

namespace SessionGuard

/-- Whether an operation that waits may still sign a user in: it is a login, or a signup that is to
log in. -/
def Waiting.mayLogIn (policy : SignupPolicy) : Waiting → Bool
  | loginToken .. | loginUser .. => true
  | registering _ => policy == .autoLogin
  | _ => false

/-- Whether an operation, once started, may sign a user in or judge the token. -/
def Operation.renews : Operation → Bool
  | restore | signIn .. | login _ | signup _ => true
  | _ => false

/-- Whether an event starts an operation that may sign a user in. -/
def Event.renews : Event → Bool
  | start _ _ op => op.renews
  | _ => false

namespace App

/-- Without a validation that starts and without a sign-in, be it done or not, a signed-out session
stays so, and so does a bare store, and what is overtaken stays overtaken. -/
theorem Moves.signedOut {a b : App} {v w : Option (Nat × Token)} {c : Option Change}
    (h : Moves a v c b w) (hv : ∀ x ∈ v, x.1 < a.session.generation)
    (hs : a.session.state = .unauthenticated)
    (hb : c ≠ some .begins) (hi : ∀ token user, c ≠ some (.signsIn token user))
    (hm : ∀ token, c ≠ some (.misses token)) :
    b.session.state = .unauthenticated ∧ (a.store.Bare → b.store.Bare) ∧
      ∀ x ∈ w, x.1 < b.session.generation := by
  have hrest (hc : c.any Change.isTransition = false) :
      b.session.state = .unauthenticated ∧ (a.store.Bare → b.store.Bare) ∧
        ∀ x ∈ w, x.1 < b.session.generation := by
    obtain ⟨hs', ht', hw⟩ := h.of_overtaken hv hc
    refine ⟨hs'.trans hs, ?_, hw⟩
    rw [ht'.resolve_right fun ⟨token, hc⟩ => hm token hc]
    exact id
  cases h with
  | signOut h =>
    refine ⟨by rw [h.session]; rfl, ?_, by rintro x ⟨⟩⟩
    rw [h.store]
    exact Store.Bare.clear
  | ask | judge => exact absurd rfl hb
  | signIn => exact absurd rfl (hi _ _)
  | miss => exact absurd rfl (hm _)
  | rest | settle | drop => exact hrest rfl

end App

namespace Machine

variable (settings : Settings) {m : Machine}

/-! ## A signed-out session stays signed out -/

/-- No operation that waits may still sign a user in. -/
def NoLogin (settings : Settings) (m : Machine) : Prop :=
  ∀ id on, m.find? id = some on → on.mayLogIn settings.signupPolicy = false

/-- The session is signed out, and nothing that waits can change that. -/
structure SignedOut (settings : Settings) (m : Machine) : Prop where
  state : m.app.session.state = .unauthenticated
  overtaken : m.Overtaken
  noLogin : m.NoLogin settings

theorem noLogin_step {e : Event} (h : m.NoLogin settings) (he : e.renews = false) :
    (m.step settings e).NoLogin settings := by
  refine forall_waits_step h ?_ ?_
  · rintro id now op on rfl ho
    cases ho with
    | login | signup => cases he
    | restore | awaitResolved | visit | recover | reset => rfl
  · intro on reply on' hon hn
    cases hn with
    | token => cases hon
    | registered hp => simp [Waiting.mayLogIn, hp] at hon

/-- An event that starts nothing anew neither begins a validation nor signs in, nor fails to, if no
login waits. -/
theorem change?_of_noLogin {e : Event} (h : m.NoLogin settings) (he : e.renews = false) :
    m.change? e ≠ some .begins ∧ (∀ token user, m.change? e ≠ some (.signsIn token user)) ∧
      ∀ token, m.change? e ≠ some (.misses token) := by
  refine ⟨fun hc => ?_, fun token user hc => ?_, fun token hc => ?_⟩
  · cases brings_of_change? hc with
    | restore => cases he
  · cases brings_of_change? hc with
    | signIn => cases he
    | login hf => cases h _ _ hf
  · cases brings_of_change? hc with
    | missSignIn => cases he
    | missLogin hf => cases h _ _ hf

theorem signedOut_step {e : Event} (h : m.SignedOut settings) (he : e.renews = false) :
    (m.step settings e).SignedOut settings ∧
      (m.app.store.Bare → (m.step settings e).app.store.Bare) := by
  obtain ⟨hb, hi, hm⟩ := change?_of_noLogin settings h.noLogin he
  obtain ⟨hs, ht, hw⟩ :=
    (moves_step settings m e).signedOut (h.overtaken e.id) h.state hb hi hm
  refine ⟨⟨hs, fun id => ?_, noLogin_step settings h.noLogin he⟩, ht⟩
  by_cases hid : id = e.id
  · subst hid
    exact hw
  · rw [validation?_step_of_ne settings m hid]
    exact fun x hx => Nat.lt_of_lt_of_le (h.overtaken id x hx) (generation_le_step settings e)

theorem signedOut_run {es : List Event} (h : m.SignedOut settings)
    (hes : ∀ e ∈ es, e.renews = false) :
    (m.run settings es).SignedOut settings ∧
      (m.app.store.Bare → (m.run settings es).app.store.Bare) := by
  induction es generalizing m with
  | nil => exact ⟨h, id⟩
  | cons e es ih =>
    rw [List.forall_mem_cons] at hes
    obtain ⟨hout, hbare⟩ := signedOut_step settings h hes.1
    exact (ih hout hes.2).imp_right fun hrest hstore => hrest (hbare hstore)

/-- A sign-out clears the token and signs the user out. -/
theorem app_step_of_signsOut {e : Event} (he : m.change? e = some .signsOut) :
    (m.step settings e).app.Agrees m.app.signOut := by
  have hm := moves_step settings m e
  rw [he] at hm
  generalize m.validation? e.id = v at hm
  generalize (m.step settings e).validation? e.id = w at hm
  cases hm with
  | signOut h => exact h

/-- A sign-out leaves the session signed out, if no login waits. -/
theorem signedOut_of_signsOut {e : Event} (h : m.OneValidation) (hn : m.NoLogin settings)
    (he : e.renews = false) (hc : m.change? e = some .signsOut) :
    (m.step settings e).SignedOut settings := by
  have ha := app_step_of_signsOut settings hc
  exact
    { state := by rw [ha.session]; rfl
      overtaken := overtaken_step_of_signs settings h (.inr hc)
      noLogin := noLogin_step settings hn he }

/-! ## A login that waits can still end the sign-out -/

/-- The forms of the registrations that wait have been checked. -/
def FormsChecked (m : Machine) : Prop :=
  ∀ id on, m.find? id = some on → ∀ r, on = .registering r → Form.checkRegistration r = .ok ()

theorem formsChecked_step (e : Event) (h : m.FormsChecked) : (m.step settings e).FormsChecked := by
  refine forall_waits_step h ?_ ?_
  · rintro id now op on - ho r rfl
    cases ho with
    | signup hr => exact hr
  · rintro on reply on' - hn r rfl
    cases hn

theorem formsChecked_run (app : App) (es : List Event) :
    ((starting app).run settings es).FormsChecked :=
  run_induction (fun _ e h => formsChecked_step settings e h) (by rintro id on ⟨⟩) es

/-- The user of a login that waits for its user is signed in by the answer. -/
theorem signedIn_of_loginUser {id : Nat} {purpose : LoginPurpose} {token : Token}
    {held : Option Token} (ht : m.app.store = .memory held)
    (hf : m.find? id = some (.loginUser purpose token)) (user : UserProfile) :
    (m.step settings (.answer id (.user user))).app.session.state = .authenticated user := by
  simp [step, hf, App.answer, App.finishLogin, App.signIn, ht, App.navigate]

/-- A login that waits for its token goes on to wait for its user. -/
theorem step_loginToken {id : Nat} {purpose : LoginPurpose} {c : Credentials}
    (hf : m.find? id = some (.loginToken purpose c)) (access : AccessToken) :
    let n := m.step settings (.answer id (.token access))
    n.find? id = some (.loginUser purpose access.token) ∧ n.app.store = m.app.store := by
  simp only [step, hf, App.answer, app_advance, find?_advance, if_pos, App.await_snd]
  exact ⟨rfl, (App.agrees_await _ _).store⟩

/-- A registration that is to log in goes on to wait for the token. -/
theorem step_registering {id : Nat} {r : Registration}
    (hf : m.find? id = some (.registering r)) (hr : Form.checkRegistration r = .ok ())
    (hp : settings.signupPolicy = .autoLogin) (user : UserProfile) :
    let n := m.step settings (.answer id (.user user))
    n.find? id = some (.loginToken .signup r.credentials) ∧ n.app.store = m.app.store := by
  have hs : m.app.startLogin .signup r.credentials =
      m.app.await (.loginToken .signup r.credentials) := by
    rw [App.startLogin, Form.checkLogin_credentials hr]
  simp only [step, hf, App.answer, hp, hs, app_advance, find?_advance, if_pos, App.await_snd]
  exact ⟨rfl, (App.agrees_await _ _).store⟩

/-- A login that waits can sign any user in, without anything else being started. -/
theorem exists_signsIn {id : Nat} {on : Waiting} {held : Option Token} (hm : m.FormsChecked)
    (ht : m.app.store = .memory held) (hf : m.find? id = some on)
    (hon : on.mayLogIn settings.signupPolicy = true) (user : UserProfile) :
    ∃ es : List Event, (∀ e ∈ es, e.renews = false) ∧
      (m.run settings es).app.session.state = .authenticated user := by
  have key : ∀ {n : Machine} {purpose : LoginPurpose} {c : Credentials},
      n.app.store = .memory held → n.find? id = some (.loginToken purpose c) →
      (n.run settings [.answer id (.token ⟨⟨"t"⟩, "bearer"⟩), .answer id (.user user)]).app.session.state
        = .authenticated user := by
    intro n purpose c ht hf
    obtain ⟨hf', ht'⟩ := step_loginToken settings hf ⟨⟨"t"⟩, "bearer"⟩
    exact signedIn_of_loginUser settings (ht'.trans ht) hf' user
  cases on with
  | loginUser purpose token =>
    exact ⟨[.answer id (.user user)], by simp [Event.renews], signedIn_of_loginUser settings ht hf user⟩
  | loginToken purpose c => exact ⟨_, by simp [Event.renews], key ht hf⟩
  | registering r =>
    have hp : settings.signupPolicy = .autoLogin := by simpa [Waiting.mayLogIn] using hon
    obtain ⟨hf', ht'⟩ := step_registering settings hf (hm id _ hf r rfl) hp user
    refine ⟨[.answer id (.user user), .answer id (.token ⟨⟨"t"⟩, "bearer"⟩), .answer id (.user user)],
      by simp [Event.renews], key (ht'.trans ht) hf'⟩
  | validating | recovering | resetting | resolving | visiting => cases hon

/-! ## The whole -/

/-- A sign-out lasts until a user signs in or the token is judged anew if no login was waiting when
it happened, and over a store in memory only then; a session file may cling to its token, but the
session stays signed out.  A validation that was waiting never ends it: whatever becomes of that
validation, it changes neither the state of the session nor the store. -/
theorem sign_out_lasts_iff (settings : Settings) (store : Store) (route : Route)
    (past : List Event) (id : Nat) (now : Int) (op : Operation) :
    let m := (starting (.starting store route)).run settings past
    m.find? id = none → op = .signOut ∨ op = .logout →
    let n := m.step settings (.start id now op)
    m.Ends settings (.start id now op) .done ∧
    ((¬ ∃ j on, m.find? j = some on ∧ on.mayLogIn settings.signupPolicy = true) →
      ∀ es : List Event, (∀ e ∈ es, e.renews = false) →
        (n.run settings es).app.session.state = .unauthenticated ∧
          ((n.run settings es).app.store.get? = none ∨ m.app.store.Clings)) ∧
    (∀ held, store = .memory held →
      ((∀ es : List Event, (∀ e ∈ es, e.renews = false) →
          (n.run settings es).app.session.state = .unauthenticated ∧
            (n.run settings es).app.store.get? = none) ↔
        ¬ ∃ j on, m.find? j = some on ∧ on.mayLogIn settings.signupPolicy = true)) ∧
    (∀ (es : List Event) (e : Event) (attempt : Nat) (token : Token),
      m.find? e.id = some (.validating attempt token) →
      (n.run settings es).find? e.id = some (.validating attempt token) →
      let before := (n.run settings es).app
      let after := ((n.run settings es).step settings e).app
      after.session.state = before.session.state ∧ after.store = before.store) := by
  intro m hf hop n
  have hone : m.OneValidation := oneValidation_run settings store route past
  have hc : m.change? (.start id now op) = some .signsOut := by
    rcases hop with rfl | rfl <;> simp [change?, hf, Operation.change?]
  have he : Event.renews (.start id now op) = false := by
    rcases hop with rfl | rfl <;> rfl
  have hends : m.Ends settings (.start id now op) .done := by
    rcases hop with rfl | rfl <;> simp only [Ends, step, hf] <;> rfl
  have hn : ∀ j, n.find? j = m.find? j := by
    intro j
    by_cases hj : j = id
    · subst hj
      rw [hf]
      exact find?_of_ends hends
    · exact find?_step_of_ne settings m hj
  have hstore : n.app.store = m.app.store.clear := (app_step_of_signsOut settings hc).store
  have lasts (hno : ¬ ∃ j on, m.find? j = some on ∧ on.mayLogIn settings.signupPolicy = true)
      (es : List Event) (hes : ∀ e ∈ es, e.renews = false) :
      (n.run settings es).app.session.state = .unauthenticated ∧
        ((n.run settings es).app.store.get? = none ∨ m.app.store.Clings) := by
    have hno' : m.NoLogin settings := fun j on hj => by
      rw [← Bool.not_eq_true]
      exact fun hon => hno ⟨j, on, hj, hon⟩
    obtain ⟨hout, hbare⟩ :=
      signedOut_run settings (signedOut_of_signsOut settings hone hno' he hc) hes
    refine ⟨hout.state, m.app.store.bare_clear.imp_left fun hclear => (hbare ?_).get?⟩
    rwa [hstore]
  refine ⟨hends, lasts, fun held hheld => ⟨fun hout => ?_, fun hno es hes => ?_⟩,
    fun es e attempt token hv hv' => ?_⟩
  · rintro ⟨j, on, hj, hon⟩
    have hm : n.FormsChecked := formsChecked_step settings _ (formsChecked_run settings _ past)
    have hst : n.app.store = .memory none := by
      subst hheld
      obtain ⟨kept, ht⟩ := (coherent_run settings held route past).memory
      exact hstore.trans (App.clear_of_memory ht)
    obtain ⟨es, hes, hs⟩ := exists_signsIn settings hm hst ((hn j).trans hj) hon
      ⟨"u", "u@a.com", none, true, false⟩
    rw [(hout es hes).1] at hs
    cases hs
  · subst hheld
    obtain ⟨kept, ht⟩ := (coherent_run settings held route past).memory
    refine (lasts hno es hes).imp_right fun h => h.resolve_right ?_
    rintro ⟨path, disk, entries, hfile, -⟩
    cases ht.symm.trans hfile
  · have hne : (m.run settings (.start id now op :: es)).app.session.generation ≠ attempt :=
      generation_ne_of_signs settings hone hv (.inl (.inr hc))
    rcases app_step_of_stale settings hv' hne with h | h <;> simp [h]

/-- A user signs out while the stored token is judged and a link for a new password is asked for;
neither answer ends the sign-out. -/
theorem sign_out_lasts_over_validation :
    let settings : Settings := ⟨10000, true, .autoLogin⟩
    let user : UserProfile := ⟨"u1", "user@a.com", none, true, false⟩
    let m := (starting (.starting (.memory (some ⟨"t"⟩)) .landing)).run settings
      [.start 0 0 .restore, .start 1 0 (.recover "user@a.com")]
    let n := m.step settings (.start 2 0 .logout)
    let late := n.run settings
      [.answer 0 (.user user), .answer 1 (.failed (.rejected .forbidden)), .start 3 0 (.visit .items)]
    m.find? 2 = none ∧ m.find? 0 = some (.validating 1 ⟨"t"⟩) ∧
      n.find? 0 = some (.validating 1 ⟨"t"⟩) ∧
      (n.step settings (.answer 0 (.user user))).app.store = n.app.store ∧
      late.app.session.state = .unauthenticated ∧ late.app.store.get? = none := by
  intro settings user m n late
  have hf : m.find? 2 = none := by decide
  have hv : m.find? 0 = some (.validating 1 ⟨"t"⟩) := by decide
  have hv' : n.find? 0 = some (.validating 1 ⟨"t"⟩) := by decide
  have hw : m.waiting = [(0, .validating 1 ⟨"t"⟩), (1, .recovering "user@a.com")] := by decide
  have hno : ¬ ∃ j on, m.find? j = some on ∧ on.mayLogIn settings.signupPolicy = true := by
    rintro ⟨j, on, hj, hon⟩
    obtain ⟨w, hfind, rfl⟩ := Option.map_eq_some_iff.1 hj
    have hmem := List.mem_of_find?_eq_some hfind
    rw [hw] at hmem
    simp only [List.mem_cons, List.not_mem_nil, or_false] at hmem
    rcases hmem with rfl | rfl <;> cases hon
  obtain ⟨-, -, lasts, stale⟩ := sign_out_lasts_iff settings (.memory (some ⟨"t"⟩)) .landing
    [.start 0 0 .restore, .start 1 0 (.recover "user@a.com")] 2 0 .logout hf (.inr rfl)
  obtain ⟨hs, ht⟩ := (lasts _ rfl).2 hno
    [.answer 0 (.user user), .answer 1 (.failed (.rejected .forbidden)), .start 3 0 (.visit .items)]
    (by simp [Event.renews, Operation.renews])
  obtain ⟨-, hst⟩ := stale [] (.answer 0 (.user user)) 1 ⟨"t"⟩ hv hv'
  rw [run_nil] at hst
  refine ⟨hf, hv, hv', hst, ?_⟩
  simp only [late, n, m]
  exact ⟨hs, ht⟩

/-- A login that waits for its user when a sign-out happens signs the user in all the same. -/
theorem login_outlasts_sign_out :
    let settings : Settings := ⟨10000, true, .redirectToLogin⟩
    let user : UserProfile := ⟨"u1", "a@b.com", none, true, false⟩
    let m := (starting (.starting (.memory none) .landing)).run settings
      [.start 0 0 (.login ⟨"a@b.com", "x"⟩), .answer 0 (.token ⟨⟨"t"⟩, "bearer"⟩)]
    let n := m.step settings (.start 1 0 .logout)
    let late := n.step settings (.answer 0 (.user user))
    m.find? 0 = some (.loginUser .login ⟨"t"⟩) ∧
      n.app.session.state = .unauthenticated ∧ n.app.store.get? = none ∧
      late.app.session.state = .authenticated user ∧ late.app.store.get? = some ⟨"t"⟩ := by
  decide

end Machine

end SessionGuard
