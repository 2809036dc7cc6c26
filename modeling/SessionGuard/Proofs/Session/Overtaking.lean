import SessionGuard.Proofs.Session.Validation
import SessionGuard.Proofs.Store.Written

/-!
# Overtaken validations

A validation that a sign-in or a sign-out has overtaken changes nothing any more
(`app_step_of_stale`), and while no transition happens a session that no current validation judges
stays as it is (`run_of_overtaken`), and so does its store while no token fails to be stored.  So the
newest transition prevails over all that still waits.
-/

namespace SessionGuard

namespace App

@[simp] theorem store_endValidation (a : App) : a.endValidation.store = a.store := rfl

@[simp] theorem history_endValidation (a : App) : a.endValidation.history = a.history := rfl

/-- Without a transition, only a validation of the present generation changes the state, and only
that or a token that cannot be stored changes the store. -/
theorem Moves.of_overtaken {a b : App} {v w : Option (Nat × Token)} {c : Option Change}
    (h : Moves a v c b w) (hv : ∀ x ∈ v, x.1 < a.session.generation)
    (hc : c.any Change.isTransition = false) :
    b.session.state = a.session.state ∧ (b.store = a.store ∨ ∃ token, c = some (.misses token)) ∧
      ∀ x ∈ w, x.1 < b.session.generation := by
  cases h with
  | rest h => exact ⟨by rw [h.session], .inl h.store, by rwa [h.session]⟩
  | @settle _ attempt _ verdict h =>
    have hne : a.session.generation ≠ attempt := Nat.ne_of_gt (hv _ rfl)
    rw [settle_of_ne hne] at h
    exact ⟨by rw [h.session]; rfl, .inl h.store, by rintro x ⟨⟩⟩
  | drop h => exact ⟨by rw [h.session]; rfl, .inl h.store, by rintro x ⟨⟩⟩
  | miss _ hs => exact ⟨by rw [hs], .inr ⟨_, rfl⟩, by rintro x ⟨⟩⟩
  | ask | judge | signIn | signOut => cases hc

end App

namespace Machine

variable (settings : Settings) {m : Machine}

/-! ## Overtaken validations -/

/-- Every validation in flight carries an earlier generation than the present one. -/
def Overtaken (m : Machine) : Prop :=
  ∀ id, ∀ x ∈ m.validation? id, x.1 < m.app.session.generation

/-- A sign-in or a sign-out overtakes every validation in flight. -/
theorem overtaken_step_of_signs {e : Event} (h : m.OneValidation) (he : m.Signs e) :
    (m.step settings e).Overtaken := by
  intro id
  have hlt : m.app.session.generation < (m.step settings e).app.session.generation :=
    generation_lt_step settings he.transits
  by_cases hid : id = e.id
  · subst hid
    have hm := moves_step settings m e
    rcases he with ⟨token, user, he⟩ | he
    all_goals
      rw [he] at hm
      generalize (m.step settings e).validation? e.id = w at hm
      generalize m.validation? e.id = v at hm
      cases hm
      rintro x ⟨⟩
  · rw [validation?_step_of_ne settings m hid]
    exact fun x hx => Nat.lt_of_le_of_lt (h.judging hx).attempt_le hlt

theorem overtaken_step_of_signsIn {e : Event} {token : Token} {user : UserProfile}
    (h : m.OneValidation) (he : m.change? e = some (.signsIn token user)) :
    (m.step settings e).Overtaken :=
  overtaken_step_of_signs settings h (.inl ⟨token, user, he⟩)

include settings in
/-- A token can be stored in memory. -/
theorem not_misses_of_memory {e : Event} {held : Option Token} (h : m.app.store = .memory held) :
    ¬ m.Misses e := by
  rintro ⟨token, he⟩
  have hm := moves_step settings m e
  rw [he] at hm
  generalize (m.step settings e).validation? e.id = w at hm
  generalize m.validation? e.id = v at hm
  cases hm with
  | miss ht => rw [h, Store.set_memory] at ht; cases ht

/-- While no transition happens, a session that no current validation judges stays as it is. -/
theorem step_of_overtaken {e : Event} (h : m.Overtaken) (he : ¬ m.Transits e) :
    (m.step settings e).app.session.state = m.app.session.state ∧
      ((m.step settings e).app.store = m.app.store ∨ m.Misses e) ∧
        (m.step settings e).Overtaken := by
  obtain ⟨hs, ht, hw⟩ :=
    (moves_step settings m e).of_overtaken (h e.id) (by simpa [Transits] using he)
  refine ⟨hs, ht, fun id => ?_⟩
  by_cases hid : id = e.id
  · subst hid
    exact hw
  · rw [validation?_step_of_ne settings m hid]
    exact fun x hx => Nat.lt_of_lt_of_le (h id x hx) (generation_le_step settings e)

theorem run_of_overtaken {es : List Event} (h : m.Overtaken)
    (hes : ¬ m.Sometime settings Transits es) :
    (m.run settings es).app.session.state = m.app.session.state ∧
      (¬ m.Sometime settings Misses es ∨ (∃ held, m.app.store = .memory held) →
        (m.run settings es).app.store = m.app.store) := by
  induction es generalizing m with
  | nil => exact ⟨rfl, fun _ => rfl⟩
  | cons e es ih =>
    obtain ⟨hs, ht, ho⟩ := step_of_overtaken settings h (fun he => hes (.inl he))
    obtain ⟨hs', ht'⟩ := ih ho (fun he => hes (.inr he))
    refine ⟨hs'.trans hs, fun hkeep => ?_⟩
    have hnot : ¬ m.Misses e := by
      rcases hkeep with hno | ⟨held, hm⟩
      · exact fun he => hno (.inl he)
      · exact not_misses_of_memory settings hm
    have ht := ht.resolve_right hnot
    refine (ht' (hkeep.imp (fun hno he => hno (.inr he)) ?_)).trans ht
    exact fun ⟨held, hm⟩ => ⟨held, ht.trans hm⟩

/-- What happens to a validation whose generation is over changes nothing but whether a validation
runs. -/
theorem app_step_of_stale {e : Event} {attempt : Nat} {token : Token}
    (h : m.find? e.id = some (.validating attempt token))
    (hne : m.app.session.generation ≠ attempt) :
    (m.step settings e).app = m.app ∨ (m.step settings e).app = m.app.endValidation := by
  cases e with
  | start id now op => simp only [Event.id] at h; simp [step, h]
  | answer id reply =>
    simp only [Event.id] at h
    simp only [step, h, app_advance]
    cases reply <;> simp [App.answer, App.finishValidation, App.settle_of_ne hne]
  | timeout id =>
    simp only [Event.id] at h
    simp [step, h, App.timeout, App.finishValidation, App.settle_of_ne hne]
  | wake id =>
    simp only [Event.id] at h
    simp only [step, h, app_advance, App.wake]
    split <;> simp
  | abandon id =>
    simp only [Event.id] at h
    simp [step, h, App.abandon]

/-! ## The newest transition prevails -/

/-- A sign-in or a sign-out makes a validation that waits through it a stale one. -/
theorem generation_ne_of_signs {id attempt : Nat} {token : Token} {es : List Event}
    (h : m.OneValidation) (hv : m.find? id = some (.validating attempt token))
    (hs : m.Sometime settings Signs es) :
    (m.run settings es).app.session.generation ≠ attempt := by
  have hle := (h.judging (validation?_eq_some_iff.2 hv)).attempt_le
  have hlt : m.app.session.generation < (m.run settings es).app.session.generation :=
    generation_lt_run settings (hs.mono fun _ _ => Signs.transits)
  exact Nat.ne_of_gt (Nat.lt_of_le_of_lt hle hlt)

/-- A sign-in stores its token and signs its user in. -/
theorem app_step_of_signsIn {e : Event} {token : Token} {user : UserProfile}
    (he : m.change? e = some (.signsIn token user)) :
    (m.step settings e).app.session.state = .authenticated user ∧
      m.app.store.set token = .ok (m.step settings e).app.store := by
  have hm := moves_step settings m e
  rw [he] at hm
  generalize (m.step settings e).validation? e.id = w at hm
  generalize m.validation? e.id = v at hm
  cases hm with
  | signIn ht hs => exact ⟨by rw [hs], ht⟩

/-- The newest transition prevails over every validation that it has overtaken.  Whatever becomes
of a validation that waits through a sign-in or a sign-out, it changes neither the state, nor the
store, nor the generation, nor the history; so a sign-in lasts until the next transition, and its token
is stored until then or until another sign-in fails to store one.  A store in memory gives it then; a
session file does unless it has lost it. -/
theorem newest_transition_prevails (settings : Settings) (store : Store) (route : Route)
    (past : List Event) :
    let m := (starting (.starting store route)).run settings past
    (∀ (es : List Event) (e : Event) (attempt : Nat) (token : Token),
      m.find? e.id = some (.validating attempt token) →
      m.Sometime settings Signs es →
      (m.run settings es).find? e.id = some (.validating attempt token) →
      let before := (m.run settings es).app
      let after := ((m.run settings es).step settings e).app
      after.session.state = before.session.state ∧ after.store = before.store ∧
        after.session.generation = before.session.generation ∧
        after.history = before.history) ∧
    (∀ (e : Event) (token : Token) (user : UserProfile) (es : List Event),
      m.change? e = some (.signsIn token user) →
      ¬ (m.step settings e).Sometime settings Transits es →
      let after := ((m.step settings e).run settings es).app
      after.session.state = .authenticated user ∧
        (¬ (m.step settings e).Sometime settings Misses es → m.app.store.set token = .ok after.store ∧
          (after.store.get? = some token ∨ m.app.store.Loses token)) ∧
        ∀ held, m.app.store = .memory held →
          m.app.store.set token = .ok after.store ∧ after.store.get? = some token) := by
  intro m
  have hone : m.OneValidation := oneValidation_run settings store route past
  constructor
  · intro es e attempt token hv hs hv'
    have hne := generation_ne_of_signs settings hone hv hs
    rcases app_step_of_stale settings hv' hne with h | h <;> simp [h]
  · intro e token user es he hes
    obtain ⟨hs, ht⟩ := app_step_of_signsIn settings he
    obtain ⟨hs', ht'⟩ := run_of_overtaken settings (overtaken_step_of_signsIn settings hone he) hes
    refine ⟨hs'.trans hs, fun hno => ?_, fun held hm => ?_⟩
    · rw [ht' (.inl hno)]
      exact ⟨ht, Store.get?_of_set ht⟩
    · rw [hm, Store.set_memory] at ht
      have hkept := Except.ok.inj ht
      rw [ht' (.inr ⟨_, hkept.symm⟩), hm, ← hkept]
      exact ⟨rfl, rfl⟩

/-- A user signs in while the token stored before is judged, and the judgement comes late. -/
theorem newest_transition_prevails_over_timeout :
    let settings : Settings := ⟨10000, true, .redirectToLogin⟩
    let user : UserProfile := ⟨"u2", "fresh@b.com", none, true, false⟩
    let m := (starting (.starting (.memory (some ⟨"old"⟩)) .login)).run settings
      [.start 0 0 .restore, .start 1 0 (.login ⟨"fresh@b.com", "secret"⟩),
        .answer 1 (.token ⟨⟨"new"⟩, "bearer"⟩)]
    m.find? 0 = some (.validating 1 ⟨"old"⟩) ∧
      m.change? (.answer 1 (.user user)) = some (.signsIn ⟨"new"⟩ user) ∧
      let n := m.step settings (.answer 1 (.user user))
      n.find? 0 = some (.validating 1 ⟨"old"⟩) ∧
        ¬ n.Sometime settings Transits [.timeout 0] ∧
        (n.step settings (.timeout 0)).app.history = n.app.history ∧
        (n.step settings (.timeout 0)).app.session.state = .authenticated user ∧
        (n.step settings (.timeout 0)).app.store.get? = some ⟨"new"⟩ := by
  intro settings user m
  have hv : m.find? 0 = some (.validating 1 ⟨"old"⟩) := by decide
  have he : m.change? (.answer 1 (.user user)) = some (.signsIn ⟨"new"⟩ user) := rfl
  refine ⟨hv, he, ?_⟩
  intro n
  have hv' : n.find? 0 = some (.validating 1 ⟨"old"⟩) := by decide
  have ht : ¬ n.Sometime settings Transits [.timeout 0] := by
    simp [Sometime, Transits, change?, validation?, hv', Waiting.validation?, Change.isTransition]
  obtain ⟨stale, lasting⟩ := newest_transition_prevails settings (.memory (some ⟨"old"⟩)) .login
    [.start 0 0 .restore, .start 1 0 (.login ⟨"fresh@b.com", "secret"⟩),
      .answer 1 (.token ⟨⟨"new"⟩, "bearer"⟩)]
  obtain ⟨-, -, -, hh⟩ := stale [.answer 1 (.user user)] (.timeout 0) 1 ⟨"old"⟩ hv
    (.inl (.inl ⟨⟨"new"⟩, user, he⟩)) hv'
  obtain ⟨hs, -, hg⟩ := lasting (.answer 1 (.user user)) ⟨"new"⟩ user [.timeout 0] he ht
  simp only [run_cons, run_nil] at hh hs hg
  refine ⟨hv', ht, ?_⟩
  simp only [n, m, run_cons, run_nil]
  exact ⟨hh, hs, (hg (some ⟨"old"⟩) rfl).2⟩

end Machine

end SessionGuard
