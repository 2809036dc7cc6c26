import SessionGuard.Proofs.Machine.Run

/-!
# The commands of a run

How an operation starts and how it ends tell which commands it gives the router (`history_start`,
`history_answer`), and a run changes the history by the commands of its events alone (`history_run`).
`issued` are the commands of one operation among all those of a run.
-/

namespace SessionGuard

/-- The history after commands, in their order. -/
def History.applyAll (h : History) (ns : List Navigation) : History := ns.foldl apply h

@[simp] theorem History.applyAll_nil (h : History) : h.applyAll [] = h := rfl

@[simp] theorem History.applyAll_cons (h : History) (n : Navigation) (ns : List Navigation) :
    h.applyAll (n :: ns) = (h.apply n).applyAll ns := rfl

theorem History.applyAll_append (h : History) (ns ms : List Navigation) :
    h.applyAll (ns ++ ms) = (h.applyAll ns).applyAll ms :=
  List.foldl_append

theorem History.log_applyAll (h : History) (ns : List Navigation) :
    (h.applyAll ns).log = h.log ++ ns := by
  induction ns generalizing h with
  | nil => simp
  | cons n ns ih => rw [applyAll_cons, ih, log_apply, List.append_assoc, List.singleton_append]

/-! ## The commands of an operation -/

/-- The command that carries out a decision. -/
def Decision.commands : Decision → List Navigation
  | redirect target => [.replace target]
  | loading | render _ => []

/-- The commands with which an operation starts. -/
def Operation.opening : Operation → List Navigation
  | visit route => [.navigate route]
  | logout => [.navigate .login]
  | go navigation => [navigation]
  | _ => []

/-- The commands with which an operation ends. -/
def Outcome.commands : Outcome → List Navigation
  | decision d => d.commands
  | login (.ok _) | signup (.ok (.signedIn _)) => [.navigate .home]
  | signup (.ok (.awaitingLogin _)) => [.navigate .login]
  | _ => []

/-- The commands of an operation that has come to its progress. -/
def Progress.commands : Progress → List Navigation
  | finished outcome => outcome.commands
  | waiting _ => []

/-- The commands of an operation that has come from a wait to its progress: a new password leads to
the login. -/
def Waiting.closing : Waiting → Progress → List Navigation
  | resetting _, .finished (.message (.ok _)) => [.navigate .login]
  | _, progress => progress.commands

@[simp] theorem Waiting.closing_waiting (on on' : Waiting) : on.closing (.waiting on') = [] := by
  cases on <;> rfl

namespace App

@[simp] theorem history_await (on : Waiting) (a : App) : (a.await on).1.history = a.history := by
  unfold await
  cases on.call? <;> rfl

@[simp] theorem history_settleError (e : AuthError) (a : App) :
    (a.settleError e).history = a.history := by
  unfold settleError
  split <;> rfl

@[simp] theorem history_settle (attempt : Nat) (s : SessionState) (clear : Bool) (a : App) :
    (a.settle attempt s clear).history = a.history := by
  unfold settle
  split <;> rfl

@[simp] theorem history_finishValidation (attempt : Nat) (s : SessionState) (clear : Bool)
    (a : App) : (a.finishValidation attempt s clear).1.history = a.history :=
  history_settle attempt s clear a

theorem history_signIn {token : Token} {user : UserProfile} {a b : App}
    (h : a.signIn token user = .ok b) : b.history = a.history := by
  unfold App.signIn at h
  split at h <;> cases h
  rfl

theorem history_of_signIn_eq_error {token : Token} {user : UserProfile} {a : App}
    {f : Failed StoreError App} (h : a.signIn token user = .error f) :
    f.left.history = a.history := by
  obtain ⟨left, -, hleft⟩ := signIn_eq_error h
  rw [hleft]

/-- The gate carries its decision out. -/
theorem history_evaluate (route : Route) (a : App) :
    (a.evaluate route).2.history =
      a.history.applyAll (Gate.decide route a.session.state).commands := by
  unfold evaluate
  cases Gate.decide route a.session.state <;> rfl

theorem history_startValidation (settings : Settings) (now : Int) (a : App) :
    (a.startValidation settings now).1.history =
      a.history.applyAll (a.startValidation settings now).2.commands := by
  unfold startValidation
  split
  · rfl
  · simp only
    split
    · exact history_finishValidation _ _ _ a.beginValidation
    · split
      · exact history_finishValidation _ _ _ a.beginValidation
      · exact history_await _ a.beginValidation

theorem history_startLogin (purpose : LoginPurpose) (c : Credentials) (a : App) :
    (a.startLogin purpose c).1.history =
      a.history.applyAll (a.startLogin purpose c).2.commands := by
  unfold startLogin
  cases Form.checkLogin c with
  | error e => cases purpose <;> rfl
  | ok _ => exact history_await _ a

theorem history_failLogin (purpose : LoginPurpose) (e : AuthError) (a : App) :
    (a.failLogin purpose e).1.history = a.history.applyAll (a.failLogin purpose e).2.commands := by
  cases purpose <;> exact history_settleError e a

theorem history_finishLogin (purpose : LoginPurpose) (token : Token) (user : UserProfile)
    (a : App) :
    (a.finishLogin purpose token user).1.history =
      a.history.applyAll (a.finishLogin purpose token user).2.commands := by
  unfold finishLogin
  cases h : a.signIn token user with
  | error f =>
    rw [← history_of_signIn_eq_error h]
    exact history_failLogin purpose _ f.left
  | ok b =>
    have hb : (b.navigate (.navigate .home)).history = a.history.apply (.navigate .home) := by
      rw [← history_signIn h]
      rfl
    cases purpose <;> exact hb

theorem history_wake (on : Waiting) (a : App) :
    (a.wake on).1.history = a.history.applyAll (a.wake on).2.commands := by
  unfold wake
  split
  · rfl
  · cases on with
    | visiting route =>
      have h := history_evaluate route a
      rwa [← evaluate_fst] at h
    | _ => rfl

/-- An operation that starts gives the commands of its start and of its end. -/
theorem history_start (settings : Settings) (now : Int) (op : Operation) (a : App) :
    (a.start settings now op).1.history =
      a.history.applyAll (op.opening ++ (a.start settings now op).2.commands) := by
  cases op with
  | restore => exact history_startValidation settings now a
  | awaitResolved => exact history_wake .resolving a
  | visit route => exact history_wake (.visiting route) (a.navigate (.navigate route))
  | evaluate route =>
    have h := history_evaluate route a
    rwa [← evaluate_fst] at h
  | signIn token user =>
    simp only [start]
    cases h : a.signIn token user with
    | error f => exact history_of_signIn_eq_error h
    | ok b => exact history_signIn h
  | login c =>
    simp only [start, Operation.opening, List.nil_append]
    exact history_startLogin .login c a
  | signup r =>
    simp only [start]
    cases Form.checkRegistration r with
    | error e => rfl
    | ok _ => exact history_await _ a
  | recover email =>
    simp only [start]
    cases Form.checkEmail email with
    | error e => rfl
    | ok _ => exact history_await _ a
  | reset request =>
    simp only [start]
    cases Form.checkReset request with
    | error e => rfl
    | ok _ => exact history_await _ a
  | peek | expiry | signOut | logout | go => rfl

/-- An operation that gets an answer gives the commands of its end, if it ends. -/
theorem history_answer (settings : Settings) (on : Waiting) (reply : Reply) (a : App) :
    (a.answer settings on reply).1.history =
      a.history.applyAll (on.closing (a.answer settings on reply).2) := by
  cases on with
  | validating attempt token =>
    cases reply with
    | user | failed => exact history_finishValidation _ _ _ a
    | token | message => rfl
  | loginToken purpose c =>
    cases reply with
    | failed e => exact history_failLogin purpose _ a
    | token access => simp [answer]
    | user | message => rfl
  | loginUser purpose token =>
    cases reply with
    | user u => exact history_finishLogin purpose token u a
    | failed e => exact history_failLogin purpose _ a
    | token | message => rfl
  | registering r =>
    cases reply with
    | user u =>
      simp only [answer]
      cases settings.signupPolicy with
      | redirectToLogin => rfl
      | autoLogin => exact history_startLogin _ _ a
    | failed e => exact history_settleError _ a
    | token | message => rfl
  | recovering | resetting =>
    cases reply with
    | failed e => exact history_settleError _ a
    | message | token | user => rfl
  | resolving | visiting => rfl

theorem history_timeout (on : Waiting) (a : App) : (a.timeout on).1.history = a.history := by
  cases on with
  | validating attempt token => exact history_finishValidation _ _ _ a
  | _ => rfl

@[simp] theorem history_abandon (on : Waiting) (a : App) :
    (a.abandon on).history = a.history := by
  cases on <;> rfl

end App

namespace Machine

variable (settings : Settings)

/-! ## The commands of an event -/

/-- The commands that an event adds to the log. -/
def commands (m : Machine) (e : Event) : List Navigation :=
  (m.step settings e).app.history.log.drop m.app.history.log.length

variable {settings} {m : Machine}

theorem commands_of_history {e : Event} {ns : List Navigation}
    (h : (m.step settings e).app.history = m.app.history.applyAll ns) :
    m.commands settings e = ns := by
  rw [commands, h, History.log_applyAll, List.drop_left]

theorem commands_of_app {e : Event} (h : (m.step settings e).app = m.app) :
    m.commands settings e = [] :=
  commands_of_history (by rw [h]; rfl)

/-- The commands that an event gives, told by how its operation starts or goes on. -/
def gives (settings : Settings) (m : Machine) : Event → List Navigation
  | .start id now op =>
    match m.find? id with
    | some _ => []
    | none => op.opening ++ (m.app.start settings now op).2.commands
  | .answer id reply =>
    match m.find? id with
    | some on => on.closing (m.app.answer settings on reply).2
    | none => []
  | .wake id =>
    match m.find? id with
    | some on => (m.app.wake on).2.commands
    | none => []
  | .timeout _ | .abandon _ => []

/-- An event does nothing to the history but the commands it gives. -/
theorem history_gives (settings : Settings) (m : Machine) (e : Event) :
    (m.step settings e).app.history = m.app.history.applyAll (m.gives settings e) := by
  cases e with
  | start id now op =>
    cases hf : m.find? id with
    | some on => simp only [step, gives, hf, History.applyAll_nil]
    | none =>
      simp only [step, gives, hf, app_advance]
      exact App.history_start settings now op m.app
  | answer id reply =>
    cases hf : m.find? id with
    | none => simp only [step, gives, hf, History.applyAll_nil]
    | some on =>
      simp only [step, gives, hf, app_advance]
      exact App.history_answer settings on reply m.app
  | timeout id =>
    cases hf : m.find? id with
    | none => simp only [step, gives, hf, History.applyAll_nil]
    | some on =>
      simp only [step, gives, hf, app_advance]
      exact App.history_timeout on m.app
  | wake id =>
    cases hf : m.find? id with
    | none => simp only [step, gives, hf, History.applyAll_nil]
    | some on =>
      simp only [step, gives, hf, app_advance]
      exact App.history_wake on m.app
  | abandon id =>
    cases hf : m.find? id with
    | none => simp only [step, gives, hf, History.applyAll_nil]
    | some on =>
      simp only [step, gives, hf]
      exact App.history_abandon on m.app

/-- The commands that the events of a run give, in their order. -/
def given (settings : Settings) (m : Machine) : List Event → List Navigation
  | [] => []
  | e :: es => m.gives settings e ++ (m.step settings e).given settings es

/-- A run does nothing to the history but the commands of its events. -/
theorem history_run (settings : Settings) (m : Machine) (es : List Event) :
    (m.run settings es).app.history = m.app.history.applyAll (m.given settings es) := by
  induction es generalizing m with
  | nil => rfl
  | cons e es ih => rw [run_cons, ih, history_gives, given, History.applyAll_append]

/-! ## The commands of an operation in a run -/

/-- The commands that the events of one number add to the log. -/
def issued (settings : Settings) (id : Nat) (m : Machine) : List Event → List Navigation
  | [] => []
  | e :: es =>
    (if e.id = id then m.commands settings e else []) ++
      (m.step settings e).issued settings id es

/-- After each of the events an operation waits under the number. -/
def Waits (settings : Settings) (id : Nat) (m : Machine) : List Event → Prop
  | [] => True
  | e :: es =>
    ((m.step settings e).find? id).isSome = true ∧ (m.step settings e).Waits settings id es

instance decidableWaits (settings : Settings) (id : Nat) (m : Machine) :
    (es : List Event) → Decidable (m.Waits settings id es)
  | [] => inferInstanceAs (Decidable True)
  | e :: es =>
    have := decidableWaits settings id (m.step settings e) es
    inferInstanceAs (Decidable (_ ∧ _))

theorem waits_concat {id : Nat} {es : List Event} {e : Event} :
    m.Waits settings id (es ++ [e]) ↔
      m.Waits settings id es ∧ (((m.run settings es).step settings e).find? id).isSome = true := by
  induction es generalizing m with
  | nil => simp [Waits]
  | cons d es ih => simp [Waits, ih, and_assoc]

theorem issued_cons_self {id : Nat} (m : Machine) {e : Event} (es : List Event) (h : e.id = id) :
    m.issued settings id (e :: es) =
      m.commands settings e ++ (m.step settings e).issued settings id es := by
  rw [issued, if_pos h]

theorem issued_singleton {id : Nat} (m : Machine) (e : Event) (h : e.id = id) :
    m.issued settings id [e] = m.commands settings e := by
  rw [issued_cons_self m [] h, issued, List.append_nil]

theorem issued_append (settings : Settings) (id : Nat) (m : Machine) (es fs : List Event) :
    m.issued settings id (es ++ fs) =
      m.issued settings id es ++ (m.run settings es).issued settings id fs := by
  induction es generalizing m with
  | nil => rfl
  | cons e es ih =>
    show _ ++ (m.step settings e).issued settings id (es ++ fs) = _
    rw [ih, ← List.append_assoc]
    rfl

end Machine

end SessionGuard
