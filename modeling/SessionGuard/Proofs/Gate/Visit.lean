import SessionGuard.Proofs.Machine.Commands
import SessionGuard.Proofs.Session.Coherence

/-!
# Calls of the gate

A visitor waits as long as the session is loading, whatever else happens (`visiting_run`), and
then the gate judges the session of that very moment (`judges_of_visiting`).
-/

namespace SessionGuard

namespace Gate

theorem decide_ne_loading {s : SessionState} (h : s.isLoading = false) (route : Route) :
    decide route s ≠ .loading := by
  rw [Ne, decide_eq_loading_iff, h]
  exact Bool.false_ne_true

/-- A screen for members is shown to a user who is signed in, and one for superusers to a
superuser. -/
theorem user_of_decide_eq_render {route shown : Route} {s : SessionState} (hs : s.Proper)
    (h : decide route s = .render shown) (hm : shown.access = .members) :
    s.status = .authenticated ∧
      ∃ user, s.user = some user ∧ (shown.requiresSuperuser = true → user.isSuperuser = true) := by
  obtain rfl := eq_of_decide_eq_render h
  cases hs with
  | loading => cases h
  | unauthenticated => simp [decide, SessionState.unauthenticated, hm] at h
  | authenticated user =>
    refine ⟨rfl, user, rfl, fun hr => ?_⟩
    by_contra hu
    simp [decide, SessionState.authenticated, SessionState.isSuperuser, hm, hr, hu] at h

end Gate

namespace App

theorem evaluate_of_render {route shown : Route} {a : App}
    (h : Gate.decide route a.session.state = .render shown) :
    a.evaluate route = (.render shown, a) := by
  simp only [evaluate, h]

/-- Redirected, a user is at the target, and the gate shows it. -/
theorem evaluate_redirect {route target : Route} {a : App}
    (h : Gate.decide route a.session.state = .redirect target) :
    (a.evaluate route).2.history.current = target ∧
      (a.evaluate route).2.evaluate target = (.render target, (a.evaluate route).2) := by
  constructor
  · rw [history_evaluate, h]
    show (a.history.apply (.replace target)).current = target
    rw [History.current_apply, Navigation.route]
  · apply evaluate_of_render
    rw [session_evaluate]
    exact Gate.decide_target h

end App

namespace Machine

variable (settings : Settings) {m : Machine}

/-! ## A visitor waits -/

/-- A visit opens its screen; then the gate judges the session, unless that is loading. -/
theorem step_start_visit {id : Nat} (now : Int) (route : Route) (hf : m.find? id = none) :
    let next := m.step settings (.start id now (.visit route))
    let opened := m.app.navigate (.navigate route)
    (m.app.session.state.isLoading = true ∧ next.app = opened ∧
        next.find? id = some (.visiting route)) ∨
      (m.app.session.state.isLoading = false ∧ next.app = (opened.evaluate route).2 ∧
        m.Ends settings (.start id now (.visit route))
          (.decision (Gate.decide route m.app.session.state))) := by
  intro next opened
  have hnext : next = m.advance id (opened.wake (.visiting route)) := by
    simp only [next, step, hf]
    rfl
  cases hl : m.app.session.state.isLoading with
  | true =>
    have hw : opened.wake (.visiting route) = (opened, .waiting (.visiting route)) := by
      simp only [App.wake]
      exact if_pos hl
    rw [hnext, hw, app_advance, find?_advance, if_pos rfl]
    exact .inl ⟨rfl, rfl, rfl⟩
  | false =>
    have hw : opened.wake (.visiting route) =
        ((opened.evaluate route).2, .finished (.decision (opened.evaluate route).1)) := by
      simp only [App.wake]
      exact if_neg (by rw [show opened.session = m.app.session from rfl, hl]; simp)
    refine .inr ⟨rfl, ?_, ?_⟩
    · rw [hnext, hw, app_advance]
    · show next.finished = _
      rw [hnext, hw, App.evaluate_fst]
      rfl

/-- A visitor who waits is left waiting, or is judged once the session is loading no more, or is
given up. -/
theorem step_of_visiting {e : Event} {route : Route} (h : m.find? e.id = some (.visiting route)) :
    ((m.step settings e).app = m.app ∧
        ((m.step settings e).find? e.id = some (.visiting route) ∨ e = .abandon e.id)) ∨
      (m.app.session.state.isLoading = false ∧
        (m.step settings e).app = (m.app.evaluate route).2 ∧
        m.Ends settings e (.decision (Gate.decide route m.app.session.state))) := by
  cases e with
  | start id now op =>
    simp only [Event.id] at h
    simp [step, Event.id, h]
  | answer id reply =>
    simp only [Event.id] at h
    simp [step, Event.id, h, find?_advance, App.answer, Progress.waiting?]
  | timeout id =>
    simp only [Event.id] at h
    simp [step, Event.id, h, find?_advance, App.timeout, Progress.waiting?]
  | wake id =>
    simp only [Event.id] at h
    unfold Ends
    simp only [step, Event.id, h, app_advance, find?_advance, App.wake]
    cases hl : m.app.session.state.isLoading with
    | true => exact .inl ⟨rfl, .inl rfl⟩
    | false =>
      refine .inr ⟨rfl, rfl, ?_⟩
      rw [← App.evaluate_fst]
      rfl
  | abandon id =>
    simp only [Event.id] at h
    exact .inl ⟨by simp [step, h, App.abandon], .inr rfl⟩

/-- A visitor who waits gives no commands. -/
theorem visiting_run {id : Nat} {route : Route} {es : List Event}
    (hf : m.find? id = some (.visiting route)) (hw : m.Waits settings id es) :
    (m.run settings es).find? id = some (.visiting route) ∧ m.issued settings id es = [] := by
  induction es generalizing m with
  | nil => exact ⟨hf, rfl⟩
  | cons e es ih =>
    obtain ⟨hs, hw⟩ := hw
    have key : (m.step settings e).find? id = some (.visiting route) ∧
        (e.id = id → m.commands settings e = []) := by
      by_cases hid : e.id = id
      · subst hid
        rcases step_of_visiting settings hf with ⟨happ, h | h⟩ | ⟨-, -, h⟩
        · exact ⟨h, fun _ => commands_of_app happ⟩
        · rw [h, Event.id, find?_step_abandon] at hs
          cases hs
        · rw [find?_of_ends h] at hs
          cases hs
      · refine ⟨?_, fun h => absurd h hid⟩
        rwa [find?_step_of_ne settings m (fun h => hid h.symm)]
    obtain ⟨hr, hi⟩ := ih key.1 hw
    refine ⟨hr, ?_⟩
    rw [issued, hi, List.append_nil]
    split
    · next hid => exact key.2 hid
    · rfl

/-! ## The gate judges -/

/-- With the event a call of the gate for a screen ends as it should: with the decision for the
session of that moment, which shows screens for members to members alone and sends a user only
where the gate lets that user stay. -/
structure Judges (settings : Settings) (m : Machine) (e : Event) (route : Route)
    (outcome : Outcome) : Prop where
  session : (m.step settings e).app.session = m.app.session
  decision : outcome = .decision (Gate.decide route m.app.session.state)
  shows : ∀ shown, Gate.decide route m.app.session.state = .render shown →
    shown = route ∧ (shown.access = .members →
      m.app.session.state.status = .authenticated ∧
        ∃ user, m.app.session.state.user = some user ∧
          (shown.requiresSuperuser = true → user.isSuperuser = true))
  redirects : ∀ target, Gate.decide route m.app.session.state = .redirect target →
    let after := (m.step settings e).app
    after.history.current = target ∧ after.evaluate target = (.render target, after)

theorem judges_of_evaluate {e : Event} {route : Route} {a : App}
    (hp : m.app.session.state.Proper) (h : (m.step settings e).app = (a.evaluate route).2)
    (ha : a.session = m.app.session) :
    m.Judges settings e route (.decision (Gate.decide route m.app.session.state)) := by
  refine ⟨by rw [h, App.session_evaluate, ha], rfl, fun shown hd => ?_, fun target hd => ?_⟩
  · exact ⟨Gate.eq_of_decide_eq_render hd, Gate.user_of_decide_eq_render hp hd⟩
  · rw [h]
    rw [← ha] at hd
    exact App.evaluate_redirect hd

theorem step_start_evaluate {id : Nat} (now : Int) (route : Route) (hf : m.find? id = none) :
    (m.step settings (.start id now (.evaluate route))).app = (m.app.evaluate route).2 ∧
      m.Ends settings (.start id now (.evaluate route))
        (.decision (Gate.decide route m.app.session.state)) := by
  unfold Ends
  simp only [step, hf, app_advance, ← App.evaluate_fst]
  exact ⟨rfl, rfl⟩

/-- A visitor who waits is judged at the next look once the session is loading no more. -/
theorem ends_wake {id : Nat} {route : Route} (hf : m.find? id = some (.visiting route))
    (hl : m.app.session.state.isLoading = false) :
    m.Ends settings (.wake id) (.decision (Gate.decide route m.app.session.state)) := by
  unfold Ends
  simp only [step, hf, App.wake, hl, ← App.evaluate_fst]
  rfl

/-- A visit that ends as soon as it starts has found the session not loading. -/
theorem judges_of_start {id : Nat} {now : Int} {route : Route} {outcome : Outcome}
    (hp : m.app.session.state.Proper) (hf : m.find? id = none)
    (he : m.Ends settings (.start id now (.visit route)) outcome) :
    let d := Gate.decide route m.app.session.state
    m.Judges settings (.start id now (.visit route)) route outcome ∧ d ≠ .loading ∧
      m.commands settings (.start id now (.visit route)) = .navigate route :: d.commands := by
  intro d
  rcases step_start_visit settings now route hf with ⟨-, -, hv⟩ | ⟨hl, happ, hd⟩
  · have hn := find?_of_ends he
    rw [Event.id, hv] at hn
    cases hn
  · obtain rfl := Ends.unique he hd
    refine ⟨judges_of_evaluate settings hp happ rfl, Gate.decide_ne_loading hl route, ?_⟩
    refine commands_of_history ?_
    rw [happ, App.history_evaluate]
    rfl

/-- A visit that has waited ends when it finds the session not loading. -/
theorem judges_of_visiting {e : Event} {route : Route} {outcome : Outcome}
    (hp : m.app.session.state.Proper) (hf : m.find? e.id = some (.visiting route))
    (he : m.Ends settings e outcome) :
    let d := Gate.decide route m.app.session.state
    m.Judges settings e route outcome ∧ d ≠ .loading ∧ m.commands settings e = d.commands := by
  intro d
  rcases step_of_visiting settings hf with ⟨-, hv | ha⟩ | ⟨hl, happ, hd⟩
  · rw [find?_of_ends he] at hv
    cases hv
  · rw [ha] at he
    exact absurd he (not_ends_abandon settings _ _)
  · obtain rfl := Ends.unique he hd
    refine ⟨judges_of_evaluate settings hp happ rfl, Gate.decide_ne_loading hl route, ?_⟩
    exact commands_of_history (by rw [happ, App.history_evaluate])

/-- A visit that waits after its start has opened its screen, and gives no commands while it
waits. -/
theorem visit_run {id : Nat} {now : Int} {route : Route} {es : List Event}
    (hf : m.find? id = none) (hw : m.Waits settings id (.start id now (.visit route) :: es)) :
    (m.run settings (.start id now (.visit route) :: es)).find? id = some (.visiting route) ∧
      m.issued settings id (.start id now (.visit route) :: es) = [.navigate route] := by
  obtain ⟨hs, hw⟩ := hw
  rcases step_start_visit settings now route hf with ⟨-, happ, hv⟩ | ⟨-, -, hd⟩
  · obtain ⟨hv', hi⟩ := visiting_run settings hv hw
    refine ⟨hv', ?_⟩
    have hid : (Event.start id now (.visit route)).id = id := rfl
    rw [issued_cons_self m es hid, hi, List.append_nil]
    exact commands_of_history (by rw [happ]; rfl)
  · have hn := find?_of_ends hd
    rw [Event.id] at hn
    rw [hn] at hs
    cases hs

/-- The gate never leaks a screen.  Whenever an evaluation or a visit ends in a run, it ends with
the decision for the session of that moment, and a visit never with loading.  Their commands are
the opening of a visited screen and the redirection that is decided, if one is; a visit that waits
or is given up has opened its screen and done no more, and it ends as soon as it looks at a session
that is not loading. -/
theorem gate_never_leaks (settings : Settings) (store : Store) (first : Route)
    (past : List Event) (id : Nat) (now : Int) (route : Route) :
    let m := (starting (.starting store first)).run settings past
    m.find? id = none →
    (let evaluation := Event.start id now (.evaluate route)
      let d := Gate.decide route m.app.session.state
      m.Ends settings evaluation (.decision d) ∧
        m.Judges settings evaluation route (.decision d) ∧
        m.issued settings id [evaluation] = d.commands) ∧
    (∀ es e rest outcome, es ++ [e] = .start id now (.visit route) :: rest →
      m.Waits settings id es → e.id = id → (m.run settings es).Ends settings e outcome →
      let n := m.run settings es
      let d := Gate.decide route n.app.session.state
      n.Judges settings e route outcome ∧ d ≠ .loading ∧
        m.issued settings id (es ++ [e]) = .navigate route :: d.commands) ∧
    (∀ es, m.Waits settings id (.start id now (.visit route) :: es) →
      let n := m.run settings (.start id now (.visit route) :: es)
      m.issued settings id (.start id now (.visit route) :: es) = [.navigate route] ∧
        (n.step settings (.abandon id)).app = n.app ∧
        (n.app.session.state.isLoading = false →
          n.Ends settings (.wake id) (.decision (Gate.decide route n.app.session.state)))) := by
  intro m hf
  have hp : ∀ es, (m.run settings es).app.session.state.Proper := by
    intro es
    rw [← run_append]
    exact proper_run settings store first (past ++ es)
  refine ⟨?_, fun es e rest outcome hes hw hid he => ?_, fun es hw => ?_⟩
  · obtain ⟨happ, hd⟩ := step_start_evaluate settings now route hf
    refine ⟨hd, judges_of_evaluate settings (hp []) happ rfl, ?_⟩
    rw [issued_singleton m _ (show Event.id _ = id from rfl)]
    exact commands_of_history (by rw [happ, App.history_evaluate])
  · cases es with
    | nil =>
      obtain ⟨rfl, -⟩ := List.cons.inj hes
      rw [List.nil_append, issued_singleton m _ hid]
      exact judges_of_start settings (hp []) hf he
    | cons first es =>
      obtain ⟨rfl, -⟩ := List.cons.inj hes
      subst hid
      obtain ⟨hv, hi⟩ := visit_run settings hf hw
      obtain ⟨hj, hd, hc⟩ := judges_of_visiting settings (hp _) hv he
      refine ⟨hj, hd, ?_⟩
      rw [issued_append, hi, issued_singleton _ _ rfl, hc]
      rfl
  · obtain ⟨hv, hi⟩ := visit_run settings hf hw
    exact ⟨hi, by simp only [step, hv, App.abandon], ends_wake settings hv⟩

/-- A visitor waits until the token is judged, and on while it is judged anew, and is sent to the
login when that takes too long. -/
theorem gate_never_leaks_to_late_visitor :
    let settings : Settings := ⟨10000, true, .redirectToLogin⟩
    let user : UserProfile := ⟨"u1", "user@a.com", none, true, false⟩
    let m := (starting (.starting (.memory (some ⟨"t"⟩)) .landing)).run settings
      [.start 0 0 .restore]
    let es := [.start 1 0 (.visit .items), .answer 0 (.user user), .start 2 0 .restore, .wake 1,
      .timeout 2]
    m.find? 1 = none ∧ m.Waits settings 1 es ∧
      (m.run settings es).Judges settings (.wake 1) .items (.decision (.redirect .login)) ∧
      m.issued settings 1 (es ++ [.wake 1]) = [.navigate .items, .replace .login] := by
  intro settings user m es
  have hf : m.find? 1 = none := by decide
  have hw : m.Waits settings 1 es := by decide +kernel
  have hs : (m.run settings es).app.session.state = .unauthenticated := by decide +kernel
  have hl : (m.run settings es).app.session.state.isLoading = false := by rw [hs]; rfl
  refine ⟨hf, hw, ?_⟩
  obtain ⟨-, visits, waiting⟩ := gate_never_leaks settings (.memory (some ⟨"t"⟩)) .landing
    [.start 0 0 .restore] 1 0 .items hf
  simp only [m, es] at hw hs hl ⊢
  have he := (waiting _ hw).2.2 hl
  obtain ⟨hj, -, hi⟩ := visits _ _ _ _ rfl hw rfl he
  rw [hs] at hj hi
  exact ⟨hj, hi⟩

end Machine

end SessionGuard
