import SessionGuard.Cli.Run
import SessionGuard.Proofs.Backend.Course
import SessionGuard.Proofs.Machine.Commands
import SessionGuard.Proofs.Session.Verdict

/-!
# How a command starts

A command starts an application on the session file and judges the stored token, with one attempt at
most (`App.Resolves`).  A command that goes to a screen meanwhile is told by the gate what the
verdict says (`ends_enter`).
-/

namespace SessionGuard

open Backend (Attempt Served)

namespace App

/-- An application after its stored token has been judged: the attempts are those at its user, and
the verdict is what they bring. -/
structure Resolves (settings : Settings) (now : Int) {host : String} (a : App)
    (ts : List (Attempt host)) (verdict : Option UserProfile) (b : App) : Prop where
  judged : a.Judged verdict b
  history : b.history = a.history
  asked : (ts = [] ∧ verdict = none ∧ ∀ token, ¬ a.Holds settings now token) ∨
    ∃ token t, a.Holds settings now token ∧ ts = [t] ∧ t.call = .currentUser token ∧
      ∀ user, verdict = some user ↔ t.Brings UserProfile.ofRaw? user

variable {settings : Settings} {now : Int} {host : String} {a b : App}
  {ts : List (Attempt host)} {p : App × Progress} {verdict : Option UserProfile}

theorem resolves_of_served (hf : a.session.validating = false)
    (h : Served settings host (a.startValidation settings now) ts p) :
    ∃ verdict b, p = (b, .finished .done) ∧ a.Resolves settings now ts verdict b := by
  have hhistory := history_startValidation settings now a
  by_cases hheld : ∃ token, a.Holds settings now token
  · obtain ⟨token, hheld⟩ := hheld
    rw [startValidation_of_holds hf hheld] at h hhistory
    obtain ⟨t, rest, rfl, hc, h⟩ := h.of_waiting rfl
    obtain ⟨rfl, rfl⟩ := h.of_last (.validating _ token) rfl rfl hc
    have hfits := t.fits
    rw [hc] at hfits
    generalize hr : t.reply = reply at hfits
    cases hfits with
    | failed =>
      refine ⟨none, _, rfl, judged_finishValidation none rfl rfl (by simp) (by simp), ?_,
        .inr ⟨token, t, hheld, rfl, hc, fun user => ?_⟩⟩
      · exact (history_finishValidation ..).trans hhistory
      · rw [← Attempt.reply_eq_user_iff hc, hr]
        simp
    | @user _ u =>
      refine ⟨some u, _, rfl, judged_finishValidation (some u) rfl rfl (by simp) (by simp), ?_,
        .inr ⟨token, t, hheld, rfl, hc, fun user => ?_⟩⟩
      · exact (history_finishValidation ..).trans hhistory
      · rw [← Attempt.reply_eq_user_iff hc, hr]
        simp
  · have hnone : ∀ token, ¬ a.Holds settings now token := fun token ht => hheld ⟨token, ht⟩
    obtain ⟨clear, hclear, hstart⟩ := startValidation_of_not_holds hf hnone
    rw [hstart] at h hhistory
    obtain ⟨rfl, rfl⟩ := h.of_finished
    exact ⟨none, _, rfl, judged_finishValidation none rfl rfl (by simp) (fun _ => hclear),
      hhistory, .inl ⟨rfl, rfl, hnone⟩⟩

/-- A user is found for a token that is stored and stays stored. -/
theorem Resolves.of_some {user : UserProfile} (h : a.Resolves settings now ts (some user) b) :
    ∃ token t, a.Holds settings now token ∧ ts = [t] ∧ t.call = .currentUser token ∧
      t.Brings UserProfile.ofRaw? user ∧ b.store = a.store := by
  rcases h.asked with ⟨-, hv, -⟩ | ⟨token, t, hheld, hts, hc, hv⟩
  · cases hv
  · exact ⟨token, t, hheld, hts, hc, (hv user).1 rfl, h.judged.kept rfl⟩

/-- The session file stays where it is, and as it is if a user is found. -/
theorem Resolves.store_eq (h : a.Resolves settings now ts verdict b) {path : String} {disk : Disk}
    (ha : a.store = .file path disk) :
    ∃ after, b.store = .file path after ∧ (verdict.isSome = true → after = disk) := by
  obtain ⟨after, hb⟩ := h.judged.place path disk ha
  refine ⟨after, hb, fun hv => ?_⟩
  have := h.judged.kept hv
  rw [hb, ha] at this
  cases this
  rfl

/-! ## Visits -/

/-- A visitor waits no longer than the session is loading. -/
theorem wake_visiting (hl : a.session.state.isLoading = false) (route : Route) :
    a.wake (.visiting route) =
      ((a.evaluate route).2, .finished (.decision (Gate.decide route a.session.state))) := by
  rw [← evaluate_fst]
  simp only [wake, hl, Bool.false_eq_true, if_false]

/-- A visitor waits while the session is loading. -/
theorem start_visit_of_loading (hl : a.session.state.isLoading = true)
    (settings : Settings) (now : Int) (route : Route) :
    a.start settings now (.visit route) =
      (a.navigate (.navigate route), .waiting (.visiting route)) := by
  have hl' : (a.navigate (.navigate route)).session.state.isLoading = true := hl
  simp only [start, wake, hl', if_true]

end App

namespace Cli

open Http (Delivery Exchange Request)

variable {s : Surroundings} {o : Options} {disk : Disk}

/-! ## Loading -/

namespace Desk

/-- What an application is started with is in the configuration. -/
theorem load_eq_ok {d : Desk} (h : Desk.load s o disk = .ok d) :
    ∃ config, loadConfig s o disk = .ok (d.configPath, config) ∧
      d = { configPath := d.configPath
            host := config.host o.host
            tokenPath := config.tokenPath d.configPath
            settings := ⟨config.session.timeoutSeconds * 1000, config.session.checkExpiry,
              config.signupPolicy⟩
            now := s.now
            app := .starting (.file (config.tokenPath d.configPath) disk) .landing } := by
  unfold Desk.load at h
  cases hc : loadConfig s o disk with
  | error e => rw [hc] at h; cases h
  | ok found =>
    obtain ⟨path, config⟩ := found
    rw [hc] at h
    cases h
    exact ⟨config, rfl, rfl⟩

/-- What an application is started with, where there is a configuration. -/
theorem load_of_loadConfig {path : String} {config : Config}
    (hc : loadConfig s o disk = .ok (path, config)) :
    ∃ d, Desk.load s o disk = .ok d ∧ d.configPath = path ∧ d.host = config.host o.host ∧
      d.tokenPath = config.tokenPath path ∧ d.settings.checkExpiry = config.session.checkExpiry ∧
      d.now = s.now := by
  unfold Desk.load
  rw [hc]
  exact ⟨_, rfl, rfl, rfl, rfl, rfl, rfl⟩

/-- An application is started on the session file. -/
theorem app_of_load {d : Desk} (h : Desk.load s o disk = .ok d) :
    d.app = .starting (.file d.tokenPath disk) .landing := by
  obtain ⟨config, -, hd⟩ := load_eq_ok h
  rw [hd]

theorem session_of_load {d : Desk} (h : Desk.load s o disk = .ok d) :
    d.app.session = .starting := by
  rw [app_of_load h]
  rfl

theorem store_of_load {d : Desk} (h : Desk.load s o disk = .ok d) :
    d.app.store = .file d.tokenPath disk := by
  rw [app_of_load h]
  rfl

/-! ## Operations -/

variable {d d' : Desk} {sent : List (Request × Delivery)}

theorem ends_perform {op : Operation} {progress : Progress}
    (h : (d.perform op).Ends sent (d', progress)) :
    ∃ (ts : List (Attempt d.host)) (b : App), sent = Attempt.sent ts ∧
      Served d.settings d.host (d.app.start d.settings d.now op) ts (b, progress) ∧
      d' = { d with app := b } := by
  obtain ⟨first, rest, ⟨b, progress'⟩, hrun, hend, rfl⟩ := Exchange.ends_bind h
  obtain ⟨rfl, hd⟩ := Exchange.ends_done hend
  cases hd
  obtain ⟨ts, rfl, hts⟩ := Backend.served_of_ends_run hrun
  exact ⟨ts, b, List.append_nil _, hts, rfl⟩

theorem ends_restore (hf : d.app.session.validating = false) (h : d.restore.Ends sent d') :
    ∃ (ts : List (Attempt d.host)) (verdict : Option UserProfile) (b : App),
      sent = Attempt.sent ts ∧ d.app.Resolves d.settings d.now ts verdict b ∧
      d' = { d with app := b } := by
  obtain ⟨first, rest, ⟨d₁, progress⟩, hperform, hend, rfl⟩ := Exchange.ends_bind h
  obtain ⟨rfl, rfl⟩ := Exchange.ends_done hend
  obtain ⟨ts, b, rfl, hts, rfl⟩ := ends_perform hperform
  obtain ⟨verdict, b', hb, hr⟩ := App.resolves_of_served hf hts
  cases hb
  exact ⟨ts, verdict, b, List.append_nil _, hr, rfl⟩

theorem ends_enter {route : Route} {decision : Decision} (hs : d.app.session = .starting)
    (h : (d.enter route).Ends sent (d', decision)) :
    ∃ (ts : List (Attempt d.host)) (verdict : Option UserProfile) (b : App),
      sent = Attempt.sent ts ∧
      (d.app.navigate (.navigate route)).Resolves d.settings d.now ts verdict b ∧
      decision = Gate.decide route (.ofVerdict verdict) ∧
      d' = { d with app := (b.evaluate route).2 } := by
  obtain ⟨first, rest, ⟨d₁, progress⟩, hvisit, hrest, rfl⟩ := Exchange.ends_bind h
  obtain ⟨second, rest, d₂, hrestore, hend, rfl⟩ := Exchange.ends_bind hrest
  obtain ⟨us, b₁, rfl, hus, rfl⟩ := ends_perform hvisit
  rw [App.start_visit_of_loading (by rw [hs]; rfl)] at hus
  cases hus with
  | idle =>
    have hf : (d.app.navigate (.navigate route)).session.validating = false :=
      congrArg Session.validating hs
    obtain ⟨ts, verdict, b, rfl, hr, rfl⟩ :=
      ends_restore (d := { d with app := d.app.navigate (.navigate route) }) hf hrestore
    have hl : b.session.state.isLoading = false := by
      rw [hr.judged.state, SessionState.isLoading_ofVerdict]
    simp only [App.wake_visiting hl] at hend
    obtain ⟨rfl, hend⟩ := Exchange.ends_done hend
    cases hend
    exact ⟨ts, verdict, b, by simp, hr, by rw [hr.judged.state], rfl⟩
  | asked hc => cases hc

end Desk

/-! ## Visits -/

/-- Where a visit leads, and the navigations that lead there. -/
def Led (route : Route) (h : History) : Decision → Prop
  | .render shown => shown = route ∧ h.log = [.navigate route] ∧ h.current = route
  | .redirect target => h.log = [.navigate route, .replace target] ∧ h.current = target
  | .loading => False

theorem led_evaluate {route start : Route} {b : App}
    (hb : b.history = (History.starting start).apply (.navigate route))
    (hl : b.session.state.isLoading = false) :
    Led route (b.evaluate route).2.history (Gate.decide route b.session.state) := by
  unfold App.evaluate
  cases hd : Gate.decide route b.session.state with
  | loading =>
    rw [Gate.decide_eq_loading_iff.1 hd] at hl
    cases hl
  | render shown =>
    obtain rfl := Gate.eq_of_decide_eq_render hd
    simp [Led, hb, Navigation.route]
  | redirect target => simp [Led, hb, App.navigate, Navigation.route]

/-! ## Runs -/

variable {d : Desk}

theorem withDesk_of_load (hd : Desk.load s o disk = .ok d) (run : Desk → Exchange Ending) :
    withDesk s o disk run = run d := by
  simp only [withDesk, hd]

variable {sent : List (Request × Delivery)} {ending : Ending}

/-- Nothing is asked where no application can be started. -/
theorem ends_withDesk_of_error {e : Failure} (hd : Desk.load s o disk = .error e)
    {run : Desk → Exchange Ending} (h : (withDesk s o disk run).Ends sent ending) :
    sent = [] := by
  simp only [withDesk, hd] at h
  exact (Exchange.ends_done h).1

theorem ends_status (hd : Desk.load s o disk = .ok d)
    (h : (Command.status.run s o disk).Ends sent ending) :
    ∃ (ts : List (Attempt d.host)) (verdict : Option UserProfile) (b : App),
      sent = Attempt.sent ts ∧ d.app.Resolves d.settings d.now ts verdict b ∧
      ending = ({ d with app := b }.disk disk,
        .ok (Report.status (s.display o.format) d.configPath d.host d.tokenPath b.session.state
          b.tokenExpiry?)) := by
  have hidle : d.app.session.validating = false := by
    rw [Desk.session_of_load hd]
    rfl
  unfold Command.run at h
  simp only [withDesk_of_load hd] at h
  obtain ⟨first, rest, d', hrestore, hdone, rfl⟩ := Exchange.ends_bind h
  obtain ⟨rfl, rfl⟩ := Exchange.ends_done hdone
  obtain ⟨ts, verdict, b, rfl, hr, rfl⟩ := Desk.ends_restore hidle hrestore
  exact ⟨ts, verdict, b, List.append_nil _, hr, rfl⟩

theorem ends_visit (hd : Desk.load s o disk = .ok d) {path : String}
    (h : ((Command.visit path).run s o disk).Ends sent ending) :
    ∃ (ts : List (Attempt d.host)) (verdict : Option UserProfile) (b : App),
      sent = Attempt.sent ts ∧
      (d.app.navigate (.navigate (Route.ofPath path))).Resolves d.settings d.now ts verdict b ∧
      ending = ({ d with app := (b.evaluate (Route.ofPath path)).2 }.disk disk,
        .ok (Report.visit (s.display o.format) path
          (Gate.decide (Route.ofPath path) (.ofVerdict verdict))
          (b.evaluate (Route.ofPath path)).2)) := by
  unfold Command.run at h
  simp only [withDesk_of_load hd] at h
  obtain ⟨first, rest, ⟨d', decision⟩, henter, hdone, rfl⟩ := Exchange.ends_bind h
  obtain ⟨rfl, rfl⟩ := Exchange.ends_done hdone
  obtain ⟨ts, verdict, b, rfl, hr, rfl, rfl⟩ := Desk.ends_enter (Desk.session_of_load hd) henter
  exact ⟨ts, verdict, b, List.append_nil _, hr, rfl⟩

end Cli

end SessionGuard
