import SessionGuard.Proofs.Machine.Run

/-!
# What an event does to the session

Every event changes the session and the store in one of a few ways, or not at all: `change?` tells
which, and `moves_step` says what becomes of both and of the validation that the event is about.
All that is proved of the session in runs follows from it.
-/

namespace SessionGuard

/-- A way in which an event changes the session.  A verdict is the user that a validation has
found, if it has found one. -/
inductive Change
  | begins
  | settles (verdict : Option UserProfile)
  | drops
  | signsIn (token : Token) (user : UserProfile)
  /-- A token cannot be stored, and its user is not signed in. -/
  | misses (token : Token)
  | signsOut

/-- Whether a change opens a new generation. -/
def Change.isTransition : Change → Bool
  | begins | signsIn .. | signsOut => true
  | settles _ | drops | misses _ => false

/-- The session after a verdict. -/
def SessionState.ofVerdict : Option UserProfile → SessionState
  | some user => authenticated user
  | none => unauthenticated

@[simp] theorem SessionState.isLoading_ofVerdict (verdict : Option UserProfile) :
    (SessionState.ofVerdict verdict).isLoading = false := by
  cases verdict <;> rfl

/-- What storing a token and signing its user in does. -/
def App.signInChange (a : App) (token : Token) (user : UserProfile) : Change :=
  match a.store.set token with
  | .ok _ => .signsIn token user
  | .error _ => .misses token

/-- What an operation does to the session when it starts. -/
def Operation.change? (a : App) : Operation → Option Change
  | .restore => if a.session.validating then none else some .begins
  | .signIn token user => some (a.signInChange token user)
  | .signOut | .logout => some .signsOut
  | _ => none

/-- What an operation that waits does to the session when it gets an answer. -/
def Waiting.change? (a : App) : Waiting → Reply → Option Change
  | .validating .., .user user => some (.settles (some user))
  | .validating .., .failed _ => some (.settles none)
  | .loginUser _ token, .user user => some (a.signInChange token user)
  | .loginToken .., .failed e | .loginUser .., .failed e | .registering _, .failed e
  | .recovering _, .failed e | .resetting _, .failed e =>
    if e.isRejection then some .signsOut else none
  | _, _ => none

/-- The generation and the token of a validation that waits. -/
def Waiting.validation? : Waiting → Option (Nat × Token)
  | .validating attempt token => some (attempt, token)
  | _ => none

/-- The validation that an operation has come to. -/
def Progress.validation? (p : Progress) : Option (Nat × Token) :=
  p.waiting?.bind Waiting.validation?

@[simp] theorem Progress.validation?_finished (o : Outcome) :
    (Progress.finished o).validation? = none := rfl

@[simp] theorem Progress.validation?_waiting (on : Waiting) :
    (Progress.waiting on).validation? = on.validation? := rfl

namespace App

/-! ## The session and the store through the parts of operations -/

/-- Two applications have the same session over the same store. -/
structure Agrees (a b : App) : Prop where
  session : a.session = b.session
  store : a.store = b.store

theorem Agrees.refl (a : App) : a.Agrees a := ⟨rfl, rfl⟩

theorem Agrees.trans {a b c : App} (h : a.Agrees b) (h' : b.Agrees c) : a.Agrees c :=
  ⟨h.session.trans h'.session, h.store.trans h'.store⟩

theorem settle_of_eq {a : App} {attempt : Nat} (h : a.session.generation = attempt)
    (s : SessionState) (clear : Bool) :
    a.settle attempt s clear =
      { a with
        session := { a.session with state := s }
        store := if clear then a.store.clear else a.store } := by
  simp [settle, h]

theorem agrees_navigate (n : Navigation) (a : App) : (a.navigate n).Agrees a := ⟨rfl, rfl⟩

theorem agrees_evaluate (route : Route) (a : App) : (a.evaluate route).2.Agrees a :=
  ⟨session_evaluate route a, store_evaluate route a⟩

theorem agrees_await (on : Waiting) (a : App) : (a.await on).1.Agrees a := by
  unfold await
  cases on.call? <;> exact ⟨rfl, rfl⟩

theorem agrees_startLogin (purpose : LoginPurpose) (c : Credentials) (a : App) :
    (a.startLogin purpose c).1.Agrees a := by
  unfold startLogin
  cases Form.checkLogin c with
  | error e => exact .refl a
  | ok _ => exact agrees_await _ a

@[simp] theorem validation?_startLogin (purpose : LoginPurpose) (c : Credentials) (a : App) :
    (a.startLogin purpose c).2.validation? = none := by
  unfold startLogin
  cases Form.checkLogin c <;> simp [Waiting.validation?]

/-! ## How the session moves -/

/-- The session and the store of an application move by a change to those of another; the
operation that makes the change is a validation as given, before and after. -/
inductive Moves (a : App) : Option (Nat × Token) → Option Change → App → Option (Nat × Token) → Prop
  | rest {b v} (h : b.Agrees a) : Moves a v none b v
  | ask {b token} (hf : a.session.validating = false) (ht : a.store.get? = some token)
      (h : b.Agrees a.beginValidation) :
      Moves a none (some .begins) b (some (a.session.generation + 1, token))
  | judge {b} (clear : Bool) (hf : a.session.validating = false)
      (hc : clear = false → a.store.get? = none)
      (hs : b.session = ⟨.unauthenticated, a.session.generation + 1, false⟩)
      (ht : b.store = if clear then a.store.clear else a.store) :
      Moves a none (some .begins) b none
  | settle {b attempt token verdict}
      (h : b.Agrees
        (a.settle attempt (.ofVerdict verdict) verdict.isNone).endValidation) :
      Moves a (some (attempt, token)) (some (.settles verdict)) b none
  | drop {b v} (h : b.Agrees a.endValidation) : Moves a (some v) (some .drops) b none
  | signIn {b token user} (ht : a.store.set token = .ok b.store)
      (hs : b.session = { a.session with
        state := .authenticated user, generation := a.session.generation + 1 }) :
      Moves a none (some (.signsIn token user)) b none
  | miss {b token cause} (ht : a.store.set token = .error ⟨cause, b.store⟩)
      (hs : b.session = a.session) : Moves a none (some (.misses token)) b none
  | signOut {b} (h : b.Agrees a.signOut) : Moves a none (some .signsOut) b none

/-- Only the session and the store of the result count. -/
theorem Moves.congr {a b b' : App} {v w : Option (Nat × Token)} {c : Option Change}
    (h : Moves a v c b w) (hb : b'.Agrees b) : Moves a v c b' w := by
  cases h with
  | rest h => exact .rest (hb.trans h)
  | ask hf ht h => exact .ask hf ht (hb.trans h)
  | judge clear hf hc hs ht =>
    exact .judge clear hf hc (hb.session.trans hs) (hb.store.trans ht)
  | settle h => exact .settle (hb.trans h)
  | drop h => exact .drop (hb.trans h)
  | signIn ht hs => exact .signIn (hb.store ▸ ht) (hb.session.trans hs)
  | miss ht hs => exact .miss (hb.store ▸ ht) (hb.session.trans hs)
  | signOut h => exact .signOut (hb.trans h)

/-- A rejection signs out, and no other error does anything. -/
theorem moves_settleError (e : AuthError) (a : App) :
    Moves a none (if e.isRejection then some .signsOut else none) (a.settleError e) none := by
  unfold settleError
  split
  · exact .signOut (.refl _)
  · exact .rest (.refl _)

theorem moves_settleApi (e : ApiError) (a : App) :
    Moves a none (if e.isRejection then some .signsOut else none)
      (a.settleError (.ofApi e)) none := by
  have h := moves_settleError (.ofApi e) a
  rwa [AuthError.isRejection_ofApi] at h

theorem moves_failLogin (purpose : LoginPurpose) (e : ApiError) (a : App) :
    Moves a none (if e.isRejection then some .signsOut else none)
      (a.failLogin purpose (.ofApi e)).1 none :=
  moves_settleApi e a

theorem moves_signIn {token : Token} {user : UserProfile} {a b : App}
    (h : a.signIn token user = .ok b) :
    Moves a none (some (a.signInChange token user)) b none := by
  unfold App.signIn at h
  unfold signInChange
  cases hs : a.store.set token with
  | error f => rw [hs] at h; cases h
  | ok store =>
    rw [hs] at h
    cases h
    exact .signIn hs rfl

/-- A sign-in that fails changes the store at most. -/
theorem moves_of_signIn_eq_error {token : Token} {user : UserProfile} {a : App}
    {f : Failed StoreError App} (h : a.signIn token user = .error f) :
    Moves a none (some (a.signInChange token user)) f.left none := by
  obtain ⟨left, hs, hleft⟩ := signIn_eq_error h
  rw [signInChange, hs, hleft]
  exact .miss hs rfl

@[simp] theorem validation?_finishLogin (purpose : LoginPurpose) (token : Token)
    (user : UserProfile) (a : App) :
    (a.finishLogin purpose token user).2.validation? = none := by
  unfold finishLogin
  cases a.signIn token user <;> rfl

theorem signInChange_cases (a : App) (token : Token) (user : UserProfile) :
    a.signInChange token user = .signsIn token user ∨
      a.signInChange token user = .misses token := by
  unfold signInChange
  split
  · exact .inl rfl
  · exact .inr rfl

theorem moves_finishLogin (purpose : LoginPurpose) (token : Token) (user : UserProfile)
    (a : App) :
    Moves a none (some (a.signInChange token user)) (a.finishLogin purpose token user).1 none := by
  unfold finishLogin
  cases h : a.signIn token user with
  | error f => exact moves_of_signIn_eq_error h
  | ok b => exact (moves_signIn h).congr (agrees_navigate _ b)

/-! ## How operations move the session -/

/-- A validation that may start is over at once, or asks the backend about the stored token. -/
theorem startValidation_cases (settings : Settings) (now : Int) {a : App}
    (hf : a.session.validating = false) :
    (∃ clear, (clear = false → a.store.get? = none) ∧
      a.startValidation settings now =
        a.beginValidation.finishValidation (a.session.generation + 1) .unauthenticated clear) ∨
    ∃ token, a.store.get? = some token ∧
      a.startValidation settings now =
        (a.beginValidation.record (.currentUser token),
          .waiting (.validating (a.session.generation + 1) token)) := by
  unfold startValidation
  rw [hf]
  simp only [Bool.false_eq_true, if_false]
  cases ht : a.beginValidation.store.get? with
  | none => exact .inl ⟨false, fun _ => ht, rfl⟩
  | some token =>
    simp only
    split
    · exact .inl ⟨true, by simp, rfl⟩
    · exact .inr ⟨token, ht, rfl⟩

theorem moves_startValidation (settings : Settings) (now : Int) (a : App) :
    Moves a none (if a.session.validating then none else some .begins)
      (a.startValidation settings now).1 (a.startValidation settings now).2.validation? := by
  cases hf : a.session.validating with
  | true =>
    have h : a.startValidation settings now = (a, .finished .done) := by
      simp [startValidation, hf]
    rw [h]
    exact .rest (.refl a)
  | false =>
    rcases startValidation_cases settings now hf with ⟨clear, hc, h⟩ | ⟨token, ht, h⟩
    · rw [h]
      exact .judge clear hf hc (by simp [finishValidation, settle, beginValidation, endValidation])
        (by simp [finishValidation, settle, beginValidation, endValidation])
    · rw [h]
      exact .ask hf ht ⟨rfl, rfl⟩

theorem moves_start (settings : Settings) (now : Int) (op : Operation) (a : App) :
    Moves a none (op.change? a) (a.start settings now op).1
      (a.start settings now op).2.validation? := by
  cases op with
  | restore => exact moves_startValidation settings now a
  | signIn token user =>
    simp only [start, Operation.change?]
    cases h : a.signIn token user with
    | error f => exact moves_of_signIn_eq_error h
    | ok b => exact moves_signIn h
  | signOut => exact .signOut (.refl _)
  | logout => exact .signOut (agrees_navigate _ _)
  | login c =>
    simp only [start, Operation.change?]
    rw [validation?_startLogin]
    exact .rest (agrees_startLogin _ c a)
  | signup r =>
    simp only [start, Operation.change?]
    cases Form.checkRegistration r with
    | error e => exact .rest (.refl a)
    | ok _ => exact .rest (agrees_await _ a)
  | recover email =>
    simp only [start, Operation.change?]
    cases Form.checkEmail email with
    | error e => exact .rest (.refl a)
    | ok _ => exact .rest (agrees_await _ a)
  | reset request =>
    simp only [start, Operation.change?]
    cases Form.checkReset request with
    | error e => exact .rest (.refl a)
    | ok _ => exact .rest (agrees_await _ a)
  | visit route =>
    simp only [start, Operation.change?, wake]
    split
    · exact .rest (agrees_navigate _ a)
    · exact .rest ((agrees_evaluate route _).trans (agrees_navigate _ a))
  | evaluate route => exact .rest (agrees_evaluate route a)
  | awaitResolved =>
    simp only [start, Operation.change?, wake]
    split <;> exact .rest (.refl a)
  | peek | expiry | go => exact .rest ⟨rfl, rfl⟩

theorem moves_answer (settings : Settings) (on : Waiting) (reply : Reply) (a : App) :
    Moves a on.validation? (on.change? a reply) (a.answer settings on reply).1
      (a.answer settings on reply).2.validation? := by
  cases on with
  | validating attempt token =>
    cases reply with
    | user u => exact .settle (.refl _)
    | failed e => exact .settle (.refl _)
    | token | message => exact .rest (.refl a)
  | loginToken purpose c =>
    cases reply with
    | failed e => exact moves_failLogin purpose e a
    | token access =>
      simp only [answer, await_snd]
      exact .rest (agrees_await _ a)
    | user | message => exact .rest (.refl a)
  | loginUser purpose token =>
    cases reply with
    | user u =>
      simp only [answer, validation?_finishLogin]
      exact moves_finishLogin purpose token u a
    | failed e => exact moves_failLogin purpose e a
    | token | message => exact .rest (.refl a)
  | registering r =>
    cases reply with
    | user u =>
      simp only [answer]
      cases settings.signupPolicy with
      | redirectToLogin => exact .rest (agrees_navigate _ a)
      | autoLogin =>
        simp only [validation?_startLogin]
        exact .rest (agrees_startLogin _ _ a)
    | failed e => exact moves_settleApi e a
    | token | message => exact .rest (.refl a)
  | recovering email =>
    cases reply with
    | failed e => exact moves_settleApi e a
    | message | token | user => exact .rest (.refl a)
  | resetting request =>
    cases reply with
    | failed e => exact moves_settleApi e a
    | message m => exact .rest (agrees_navigate _ a)
    | token | user => exact .rest (.refl a)
  | resolving | visiting => exact .rest (.refl a)

theorem moves_timeout (on : Waiting) (a : App) :
    Moves a on.validation? (on.validation?.map fun _ => .settles none) (a.timeout on).1
      (a.timeout on).2.validation? := by
  cases on with
  | validating attempt token => exact .settle (.refl _)
  | _ => exact .rest (.refl a)

theorem moves_abandon (on : Waiting) (a : App) :
    Moves a on.validation? (on.validation?.map fun _ => .drops) (a.abandon on) none := by
  cases on with
  | validating attempt token => exact .drop (.refl _)
  | _ => exact .rest (.refl a)

theorem moves_wake (on : Waiting) (a : App) :
    Moves a on.validation? none (a.wake on).1 (a.wake on).2.validation? := by
  unfold wake
  split
  · exact .rest (.refl a)
  · cases on with
    | visiting route => exact .rest (agrees_evaluate route a)
    | _ => exact .rest (.refl a)

end App

namespace Machine

/-! ## How events move the session -/

/-- The generation and the token of the validation that waits under a number. -/
def validation? (m : Machine) (id : Nat) : Option (Nat × Token) :=
  (m.find? id).bind Waiting.validation?

theorem validation?_eq_some_iff {m : Machine} {id attempt : Nat} {token : Token} :
    m.validation? id = some (attempt, token) ↔
      m.find? id = some (.validating attempt token) := by
  unfold validation?
  cases m.find? id with
  | none => simp
  | some on => cases on <;> simp [Waiting.validation?]

theorem validation?_of_find? {m : Machine} {id : Nat} {on : Option Waiting}
    (h : m.find? id = on) : m.validation? id = on.bind Waiting.validation? := by
  rw [validation?, h]

/-- What an event does to the session. -/
def change? (m : Machine) : Event → Option Change
  | .start id _ op =>
    match m.find? id with
    | none => op.change? m.app
    | some _ => none
  | .answer id reply => (m.find? id).bind fun on => on.change? m.app reply
  | .timeout id => (m.validation? id).map fun _ => .settles none
  | .wake _ => none
  | .abandon id => (m.validation? id).map fun _ => .drops

/-- The events that bring about each change. -/
inductive Brings (m : Machine) : Event → Change → Prop
  | restore {id now} (hf : m.find? id = none) (hv : m.app.session.validating = false) :
      Brings m (.start id now .restore) .begins
  | accept {id attempt token user} (hf : m.find? id = some (.validating attempt token)) :
      Brings m (.answer id (.user user)) (.settles (some user))
  | refuse {e} : Brings m e (.settles none)
  | drop {id} : Brings m (.abandon id) .drops
  | signIn {id now token user} (hf : m.find? id = none) :
      Brings m (.start id now (.signIn token user)) (.signsIn token user)
  | login {id purpose token user} (hf : m.find? id = some (.loginUser purpose token)) :
      Brings m (.answer id (.user user)) (.signsIn token user)
  | missSignIn {id now token user} (hf : m.find? id = none) :
      Brings m (.start id now (.signIn token user)) (.misses token)
  | missLogin {id purpose token user} (hf : m.find? id = some (.loginUser purpose token)) :
      Brings m (.answer id (.user user)) (.misses token)
  | signOut {e} : Brings m e .signsOut

theorem brings_start {m : Machine} {id : Nat} {now : Int} {op : Operation} {c : Change}
    (hf : m.find? id = none) (h : op.change? m.app = some c) :
    m.Brings (.start id now op) c := by
  cases op with
  | restore =>
    simp only [Operation.change?] at h
    split at h
    · cases h
    · next hv =>
      cases h
      exact .restore hf (by simpa using hv)
  | signIn token user =>
    cases h
    rcases App.signInChange_cases m.app token user with hc | hc <;> rw [hc]
    · exact .signIn hf
    · exact .missSignIn hf
  | signOut | logout =>
    cases h
    exact .signOut
  | _ => cases h

theorem brings_answer {m : Machine} {id : Nat} {on : Waiting} {reply : Reply} {c : Change}
    (hf : m.find? id = some on) (h : on.change? m.app reply = some c) :
    m.Brings (.answer id reply) c := by
  cases on <;> cases reply <;> simp only [Waiting.change?, Option.some.injEq, reduceCtorEq] at h
  case validating.user attempt token user =>
    subst h
    exact .accept hf
  case validating.failed =>
    subst h
    exact .refuse
  case loginUser.user purpose token user =>
    subst h
    rcases App.signInChange_cases m.app token user with hc | hc <;> rw [hc]
    · exact .login hf
    · exact .missLogin hf
  all_goals
    split at h <;> cases h
    exact .signOut

theorem brings_of_change? {m : Machine} {e : Event} {c : Change}
    (h : m.change? e = some c) : m.Brings e c := by
  cases e with
  | start id now op =>
    simp only [change?] at h
    split at h
    · next hf => exact brings_start hf h
    · cases h
  | answer id reply =>
    obtain ⟨on, hf, h⟩ := Option.bind_eq_some_iff.1 h
    exact brings_answer hf h
  | timeout id =>
    obtain ⟨_, -, rfl⟩ := Option.map_eq_some_iff.1 h
    exact .refuse
  | abandon id =>
    obtain ⟨_, -, rfl⟩ := Option.map_eq_some_iff.1 h
    exact .drop
  | wake id => cases h

theorem validation?_advance (m : Machine) (id : Nat) (result : App × Progress) :
    (m.advance id result).validation? id = result.2.validation? := by
  unfold validation?
  rw [find?_advance, if_pos rfl, Progress.validation?]

variable (settings : Settings) (m : Machine)

/-- An event moves the session and the store by its change. -/
theorem moves_step (e : Event) :
    App.Moves m.app (m.validation? e.id) (m.change? e) (m.step settings e).app
      ((m.step settings e).validation? e.id) := by
  cases e with
  | start id now op =>
    simp only [step, change?, Event.id]
    cases h : m.find? id with
    | some on => exact .rest (.refl _)
    | none =>
      rw [app_advance, validation?_advance, validation?_of_find? h]
      exact App.moves_start settings now op m.app
  | answer id reply =>
    simp only [step, change?, Event.id]
    cases h : m.find? id with
    | none => exact .rest (.refl _)
    | some on =>
      rw [app_advance, validation?_advance, validation?_of_find? h]
      exact App.moves_answer settings on reply m.app
  | timeout id =>
    simp only [step, change?, Event.id]
    cases h : m.find? id with
    | none =>
      simp only [validation?_of_find? h]
      exact .rest (.refl _)
    | some on =>
      rw [app_advance, validation?_advance, validation?_of_find? h]
      exact App.moves_timeout on m.app
  | wake id =>
    simp only [step, change?, Event.id]
    cases h : m.find? id with
    | none => exact .rest (.refl _)
    | some on =>
      rw [app_advance, validation?_advance, validation?_of_find? h]
      exact App.moves_wake on m.app
  | abandon id =>
    simp only [step, change?, Event.id]
    cases h : m.find? id with
    | none =>
      simp only [validation?_of_find? h]
      exact .rest (.refl _)
    | some on =>
      rw [validation?_of_find? h, validation?, find?_abandoned, if_pos rfl]
      exact App.moves_abandon on m.app

/-- An event says nothing about the validations of other numbers. -/
theorem validation?_step_of_ne {e : Event} {j : Nat} (h : j ≠ e.id) :
    (m.step settings e).validation? j = m.validation? j := by
  unfold validation?
  rw [find?_step_of_ne settings m h]

end Machine

end SessionGuard
