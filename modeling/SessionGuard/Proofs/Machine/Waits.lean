import SessionGuard.Proofs.Machine.Run

/-!
# What operations come to wait for

An operation that starts opens one wait or none (`Operation.Opens`), and an answer leads from a wait
to the next one of a login (`Waiting.Next`) or to the end.  So what holds of every wait that opens,
and passes to the next one, holds of all that waits (`forall_waits_step`).
-/

namespace SessionGuard

/-- The first wait of an operation.  A form has been checked before. -/
inductive Operation.Opens : Operation → Waiting → Prop
  | restore {attempt token} : Opens .restore (.validating attempt token)
  | awaitResolved : Opens .awaitResolved .resolving
  | visit {route} : Opens (.visit route) (.visiting route)
  | login {c} (h : Form.checkLogin c = .ok ()) : Opens (.login c) (.loginToken .login c)
  | signup {r} (h : Form.checkRegistration r = .ok ()) : Opens (.signup r) (.registering r)
  | recover {email} (h : Form.checkEmail email = .ok ()) :
      Opens (.recover email) (.recovering (Text.trim email))
  | reset {request} (h : Form.checkReset request = .ok ()) :
      Opens (.reset request) (.resetting request)

/-- The wait that an answer leads to from another one. -/
inductive Waiting.Next (settings : Settings) : Waiting → Reply → Waiting → Prop
  | token {purpose c access} :
      Next settings (.loginToken purpose c) (.token access) (.loginUser purpose access.token)
  | registered {r user} (h : settings.signupPolicy = .autoLogin) :
      Next settings (.registering r) (.user user) (.loginToken .signup r.credentials)

namespace App

theorem wake_snd (on : Waiting) (a : App) :
    (a.wake on).2 = .waiting on ∨ ∃ outcome, (a.wake on).2 = .finished outcome := by
  unfold wake
  split
  · exact .inl rfl
  · cases on with
    | resolving | visiting => exact .inr ⟨_, rfl⟩
    | _ => exact .inl rfl

theorem timeout_snd (on : Waiting) (a : App) :
    (a.timeout on).2 = .waiting on ∨ ∃ outcome, (a.timeout on).2 = .finished outcome := by
  cases on with
  | validating => exact .inr ⟨_, rfl⟩
  | _ => exact .inl rfl

theorem opens_of_startValidation {settings : Settings} {now : Int} {a : App} {on : Waiting}
    (h : (a.startValidation settings now).2 = .waiting on) : Operation.restore.Opens on := by
  unfold startValidation at h
  split at h
  · cases h
  · simp only at h
    split at h
    · cases h
    · split at h
      · cases h
      · rw [await_snd] at h
        cases h
        exact .restore

theorem checkLogin_of_startLogin {purpose : LoginPurpose} {c : Credentials} {a : App}
    {on : Waiting} (h : (a.startLogin purpose c).2 = .waiting on) :
    Form.checkLogin c = .ok () ∧ on = .loginToken purpose c := by
  unfold startLogin at h
  split at h
  · cases h
  · next hc =>
    rw [await_snd] at h
    cases h
    exact ⟨hc, rfl⟩

/-- An operation that waits after its start has opened that wait. -/
theorem opens_of_start {settings : Settings} {now : Int} {op : Operation} {a : App} {on : Waiting}
    (h : (a.start settings now op).2 = .waiting on) : op.Opens on := by
  cases op with
  | restore => exact opens_of_startValidation h
  | awaitResolved =>
    rcases wake_snd .resolving a with hw | ⟨o, hw⟩ <;> rw [start, hw] at h <;> cases h
    exact .awaitResolved
  | visit route =>
    rcases wake_snd (.visiting route) (a.navigate (.navigate route)) with hw | ⟨o, hw⟩ <;>
      rw [start, hw] at h <;> cases h
    exact .visit
  | login c =>
    obtain ⟨hc, rfl⟩ := checkLogin_of_startLogin h
    exact .login hc
  | signup r =>
    simp only [start] at h
    split at h
    · cases h
    · next hc =>
      rw [await_snd] at h
      cases h
      exact .signup hc
  | recover email =>
    simp only [start] at h
    split at h
    · cases h
    · next hc =>
      rw [await_snd] at h
      cases h
      exact .recover hc
  | reset request =>
    simp only [start] at h
    split at h
    · cases h
    · next hc =>
      rw [await_snd] at h
      cases h
      exact .reset hc
  | signIn token user =>
    simp only [start] at h
    split at h <;> cases h
  | peek | expiry | signOut | logout | evaluate | go => cases h

theorem finishLogin_snd (purpose : LoginPurpose) (token : Token) (user : UserProfile) (a : App) :
    ∃ outcome, (a.finishLogin purpose token user).2 = .finished outcome := by
  unfold finishLogin
  split <;> exact ⟨_, rfl⟩

/-- An operation that waits after an answer waits as before, or has come to its next wait. -/
theorem next_of_answer {settings : Settings} {on on' : Waiting} {reply : Reply} {a : App}
    (h : (a.answer settings on reply).2 = .waiting on') : on' = on ∨ on.Next settings reply on' := by
  cases on with
  | loginToken purpose c =>
    cases reply with
    | token access =>
      simp only [answer, await_snd] at h
      cases h
      exact .inr .token
    | failed => cases h
    | user | message =>
      cases h
      exact .inl rfl
  | loginUser purpose token =>
    cases reply with
    | user u =>
      obtain ⟨o, ho⟩ := finishLogin_snd purpose token u a
      rw [answer, ho] at h
      cases h
    | failed => cases h
    | token | message =>
      cases h
      exact .inl rfl
  | registering r =>
    cases reply with
    | user u =>
      simp only [answer] at h
      split at h
      · cases h
      · next hp =>
        obtain ⟨-, rfl⟩ := checkLogin_of_startLogin h
        exact .inr (.registered hp)
    | failed => cases h
    | token | message =>
      cases h
      exact .inl rfl
  | validating | recovering | resetting | resolving | visiting =>
    cases reply <;> cases h <;> exact .inl rfl

end App

namespace Machine

variable {settings : Settings} {m : Machine}

/-- How an operation has come to the wait in which an event leaves it. -/
inductive ComesTo (settings : Settings) (m : Machine) : Event → Waiting → Prop
  | stays {e on} (hf : m.find? e.id = some on) : ComesTo settings m e on
  | opens {id now op on} (hf : m.find? id = none) (h : op.Opens on) :
      ComesTo settings m (.start id now op) on
  | next {id reply on on'} (hf : m.find? id = some on) (h : on.Next settings reply on') :
      ComesTo settings m (.answer id reply) on'

theorem comesTo_of_find? {e : Event} {on : Waiting}
    (h : (m.step settings e).find? e.id = some on) : m.ComesTo settings e on := by
  -- an operation that is run on with an event waits as before, or has ended
  have key : ∀ {id on'} {result : App × Progress}, m.find? id = some on' →
      result.2 = .waiting on' ∨ (∃ outcome, result.2 = .finished outcome) →
      (m.advance id result).find? id = some on → on' = on := by
    rintro id on' result hf hr h
    rw [find?_advance, if_pos rfl] at h
    rcases hr with hr | ⟨outcome, hr⟩ <;> rw [hr] at h <;> cases h
    rfl
  cases e with
  | start id now op =>
    simp only [step] at h
    split at h
    · exact .stays h
    · next hf =>
      rw [Event.id, find?_advance, if_pos rfl, Progress.waiting?_eq_some_iff] at h
      exact .opens hf (App.opens_of_start h)
  | answer id reply =>
    simp only [step] at h
    split at h
    · next on' hf =>
      rw [Event.id, find?_advance, if_pos rfl, Progress.waiting?_eq_some_iff] at h
      rcases App.next_of_answer h with rfl | hn
      · exact .stays hf
      · exact .next hf hn
    · exact .stays h
  | timeout id =>
    simp only [step] at h
    split at h
    · next on' hf =>
      obtain rfl := key hf (App.timeout_snd on' m.app) h
      exact .stays hf
    · exact .stays h
  | wake id =>
    simp only [step] at h
    split at h
    · next on' hf =>
      obtain rfl := key hf (App.wake_snd on' m.app) h
      exact .stays hf
    · exact .stays h
  | abandon id =>
    simp only [step] at h
    split at h
    · rw [Event.id, find?_abandoned, if_pos rfl] at h
      cases h
    · exact .stays h

/-- What holds of all that waits still does after an event, if it holds of the wait that the event
opens and passes to the next wait of an operation. -/
theorem forall_waits_step {P : Waiting → Prop} {e : Event}
    (h : ∀ id on, m.find? id = some on → P on)
    (hopens : ∀ id now op on, e = .start id now op → op.Opens on → P on)
    (hnext : ∀ on reply on', P on → on.Next settings reply on' → P on') :
    ∀ id on, (m.step settings e).find? id = some on → P on := by
  intro id on hf
  by_cases hid : id = e.id
  · subst hid
    cases comesTo_of_find? hf with
    | stays hw => exact h _ on hw
    | opens _ ho => exact hopens _ _ _ on rfl ho
    | next hw hn => exact hnext _ _ on (h _ _ hw) hn
  · rw [find?_step_of_ne settings m hid] at hf
    exact h id on hf

end Machine

end SessionGuard
