import SessionGuard.Proofs.Machine.Run

/-!
# The calls of a run

An operation makes exactly the call that it comes to wait for (`asks_start`, `asks_answer`).  So in
every run what waits for an answer has made its call (`asked_run`).
-/

namespace SessionGuard

/-- The call that an operation has come to wait for. -/
def Progress.call? (p : Progress) : Option Call := p.waiting?.bind Waiting.call?

@[simp] theorem Progress.call?_finished (o : Outcome) : (Progress.finished o).call? = none := rfl

@[simp] theorem Progress.call?_waiting (on : Waiting) :
    (Progress.waiting on).call? = on.call? := rfl

namespace App

/-! ## The calls of an operation -/

/-- An operation has made the call that it waits for, and no other. -/
def Asks (a : App) (result : App × Progress) : Prop :=
  result.1.calls = a.calls ++ result.2.call?.toList

/-- An operation that ends without a call makes none. -/
theorem asks_finished {a b : App} (h : b.calls = a.calls) (o : Outcome) :
    a.Asks (b, .finished o) := by
  simp [Asks, h]

theorem asks_await (on : Waiting) (a : App) : a.Asks (a.await on) := by
  unfold Asks await
  cases h : on.call? <;> simp [h, record]

@[simp] theorem calls_evaluate (route : Route) (a : App) :
    (a.evaluate route).2.calls = a.calls := by
  unfold evaluate
  cases Gate.decide route a.session.state <;> rfl

theorem calls_signIn {token : Token} {user : UserProfile} {a b : App}
    (h : a.signIn token user = .ok b) : b.calls = a.calls := by
  unfold App.signIn at h
  split at h <;> cases h
  rfl

@[simp] theorem calls_settleError (e : AuthError) (a : App) :
    (a.settleError e).calls = a.calls := by
  unfold settleError
  split <;> rfl

@[simp] theorem calls_settle (attempt : Nat) (s : SessionState) (clear : Bool) (a : App) :
    (a.settle attempt s clear).calls = a.calls := by
  unfold settle
  split <;> rfl

theorem asks_finishValidation (attempt : Nat) (s : SessionState) (clear : Bool) (a : App) :
    a.Asks (a.finishValidation attempt s clear) :=
  asks_finished (calls_settle attempt s clear a) .done

theorem asks_failLogin (purpose : LoginPurpose) (e : AuthError) (a : App) :
    a.Asks (a.failLogin purpose e) :=
  asks_finished (calls_settleError e a) _

theorem calls_of_signIn_eq_error {token : Token} {user : UserProfile} {a : App}
    {f : Failed StoreError App} (h : a.signIn token user = .error f) : f.left.calls = a.calls := by
  obtain ⟨left, -, hleft⟩ := signIn_eq_error h
  rw [hleft]

theorem asks_finishLogin (purpose : LoginPurpose) (token : Token) (user : UserProfile) (a : App) :
    a.Asks (a.finishLogin purpose token user) := by
  unfold finishLogin
  cases h : a.signIn token user with
  | error f =>
    exact asks_finished ((calls_settleError _ f.left).trans (calls_of_signIn_eq_error h)) _
  | ok b => exact asks_finished (calls_signIn h) _

theorem asks_startLogin (purpose : LoginPurpose) (c : Credentials) (a : App) :
    a.Asks (a.startLogin purpose c) := by
  unfold startLogin
  cases Form.checkLogin c with
  | error e => exact asks_finished rfl _
  | ok _ => exact asks_await _ a

theorem asks_startValidation (settings : Settings) (now : Int) (a : App) :
    a.Asks (a.startValidation settings now) := by
  unfold startValidation
  split
  · exact asks_finished rfl _
  · simp only
    split
    · exact asks_finishValidation _ _ _ a.beginValidation
    · split
      · exact asks_finishValidation _ _ _ a.beginValidation
      · exact asks_await _ a.beginValidation

theorem asks_wake {on : Waiting} (h : on.call? = none) (a : App) : a.Asks (a.wake on) := by
  unfold wake
  split
  · simp [Asks, h]
  · cases on with
    | visiting route => exact asks_finished (calls_evaluate route a) _
    | resolving => exact asks_finished rfl _
    | _ => cases h

/-- An operation that starts asks what it then waits for. -/
theorem asks_start (settings : Settings) (now : Int) (op : Operation) (a : App) :
    a.Asks (a.start settings now op) := by
  cases op with
  | restore => exact asks_startValidation settings now a
  | awaitResolved => exact asks_wake rfl a
  | signIn token user =>
    simp only [start]
    cases h : a.signIn token user with
    | error f => exact asks_finished (calls_of_signIn_eq_error h) _
    | ok b => exact asks_finished (calls_signIn h) _
  | login c => exact asks_startLogin _ c a
  | signup r =>
    simp only [start]
    cases Form.checkRegistration r with
    | error e => exact asks_finished rfl _
    | ok _ => exact asks_await _ a
  | recover email =>
    simp only [start]
    cases Form.checkEmail email with
    | error e => exact asks_finished rfl _
    | ok _ => exact asks_await _ a
  | reset request =>
    simp only [start]
    cases Form.checkReset request with
    | error e => exact asks_finished rfl _
    | ok _ => exact asks_await _ a
  | visit route => exact asks_wake rfl (a.navigate (.navigate route))
  | evaluate route => exact asks_finished (calls_evaluate route a) _
  | peek | expiry | signOut | logout | go => exact asks_finished rfl _

/-- An operation that gets an answer goes on waiting, or asks what it waits for next. -/
theorem asks_answer (settings : Settings) (on : Waiting) (reply : Reply) (a : App) :
    a.answer settings on reply = (a, .waiting on) ∨ a.Asks (a.answer settings on reply) := by
  cases on with
  | validating attempt token =>
    cases reply with
    | user | failed => exact .inr (asks_finishValidation _ _ _ a)
    | token | message => exact .inl rfl
  | loginToken purpose c =>
    cases reply with
    | failed e => exact .inr (asks_failLogin purpose _ a)
    | token access => exact .inr (asks_await _ a)
    | user | message => exact .inl rfl
  | loginUser purpose token =>
    cases reply with
    | user u => exact .inr (asks_finishLogin purpose token u a)
    | failed e => exact .inr (asks_failLogin purpose _ a)
    | token | message => exact .inl rfl
  | registering r =>
    cases reply with
    | user u =>
      simp only [answer]
      cases settings.signupPolicy with
      | redirectToLogin => exact .inr (asks_finished rfl _)
      | autoLogin => exact .inr (asks_startLogin _ _ a)
    | failed e => exact .inr (asks_finished (calls_settleError _ a) _)
    | token | message => exact .inl rfl
  | recovering | resetting =>
    cases reply with
    | message m => exact .inr (asks_finished rfl _)
    | failed e => exact .inr (asks_finished (calls_settleError _ a) _)
    | token | user => exact .inl rfl
  | resolving | visiting => exact .inl rfl

theorem asks_timeout (on : Waiting) (a : App) :
    a.timeout on = (a, .waiting on) ∨ a.Asks (a.timeout on) := by
  cases on with
  | validating attempt token => exact .inr (asks_finishValidation _ _ _ a)
  | _ => exact .inl rfl

theorem asks_wake_or (on : Waiting) (a : App) :
    a.wake on = (a, .waiting on) ∨ a.Asks (a.wake on) := by
  cases h : on.call? with
  | none => exact .inr (asks_wake h a)
  | some call =>
    unfold wake
    split
    · exact .inl rfl
    · cases on with
      | resolving | visiting => cases h
      | _ => exact .inl rfl

@[simp] theorem calls_abandon (on : Waiting) (a : App) : (a.abandon on).calls = a.calls := by
  cases on <;> rfl

end App

namespace Machine

/-! ## The calls of the operations that wait -/

/-- What waits for an answer has made its call. -/
def Asked (m : Machine) : Prop :=
  ∀ id on call, m.find? id = some on → on.call? = some call → call ∈ m.app.calls

theorem asked_starting (app : App) : (starting app).Asked := by
  rintro id on call ⟨⟩

variable {m : Machine}

theorem Asked.advance (h : m.Asked) {id : Nat} {result : App × Progress}
    (hr : m.app.Asks result) : (m.advance id result).Asked := by
  intro j on call hf hc
  rw [app_advance, hr, List.mem_append]
  rw [find?_advance] at hf
  split at hf
  · exact .inr (by simp [Progress.call?, hf, hc])
  · exact .inl (h j on call hf hc)

theorem Asked.advance_waiting (h : m.Asked) {id : Nat} {on : Waiting}
    (hf : m.find? id = some on) : (m.advance id (m.app, .waiting on)).Asked := by
  intro j on' call hf' hc
  rw [find?_advance] at hf'
  split at hf'
  · next hj =>
    cases hf'
    exact h id on call hf hc
  · exact h j on' call hf' hc

theorem Asked.advance_or (h : m.Asked) {id : Nat} {on : Waiting} {result : App × Progress}
    (hf : m.find? id = some on) (hr : result = (m.app, .waiting on) ∨ m.app.Asks result) :
    (m.advance id result).Asked := by
  rcases hr with rfl | hr
  · exact h.advance_waiting hf
  · exact h.advance hr

theorem asked_step (settings : Settings) (e : Event) (h : m.Asked) :
    (m.step settings e).Asked := by
  cases e with
  | start id now op =>
    simp only [step]
    split
    · exact h
    · exact h.advance (App.asks_start settings now op m.app)
  | answer id reply =>
    simp only [step]
    split
    · next on hf => exact h.advance_or hf (App.asks_answer settings on reply m.app)
    · exact h
  | timeout id =>
    simp only [step]
    split
    · next on hf => exact h.advance_or hf (App.asks_timeout on m.app)
    · exact h
  | wake id =>
    simp only [step]
    split
    · next on hf => exact h.advance_or hf (App.asks_wake_or on m.app)
    · exact h
  | abandon id =>
    simp only [step]
    split
    · intro j on' call hf hc
      rw [find?_abandoned] at hf
      split at hf
      · cases hf
      · rw [App.calls_abandon]
        exact h j on' call hf hc
    · exact h

theorem asked_run (settings : Settings) (app : App) (es : List Event) :
    ((starting app).run settings es).Asked :=
  run_induction (fun _ e h => asked_step settings e h) (asked_starting app) es

end Machine

end SessionGuard
