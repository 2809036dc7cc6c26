import SessionGuard.Proofs.Cli.Opening
import SessionGuard.Proofs.Cli.Shown

/-!
# Reports agree with the disk

A run of `status` or of `visit` reports what the backend says of the stored token, and leaves the
token where it was only for a user (`Coherent`).  A session file that does not keep its entries
without the token may be left with it.
-/

namespace SessionGuard.Cli

open Backend (Attempt)
open Http (Delivery Exchange Request Response)

/-- A session that a run reports, after requests for the user of the token on a disk, and the disk
that the run leaves. -/
structure Coherent (d : Desk) (disk : Disk) (sent : List (Request × Delivery))
    (state : SessionState) (after : Disk) : Prop where
  resolved : state.isLoading = false
  signedIn_iff : ¬ (Store.file d.tokenPath disk).Clings →
    (state.isAuthenticated = true ↔ ((Store.file d.tokenPath after).get?).isSome = true)
  signedIn : state.isAuthenticated = true → after = disk ∧
    ∃ token user r response, (Store.file d.tokenPath disk).get? = some token ∧
      state = .authenticated user ∧ sent = [(r, .answered response)] ∧
      Backend.request d.host (.currentUser token) = .ok r ∧ r.method = .get ∧
      Backend.Goes d.host (.currentUser token) r.url ∧
      r.authorization = some (Http.bearer token.text) ∧
      Http.isSuccess response.status = true ∧ response.decode UserProfile.ofRaw? = .ok user
  signedOut : state.isAuthenticated = false → state = .unauthenticated ∧
    ((Store.file d.tokenPath after).get? = none ∨ (Store.file d.tokenPath disk).Clings)

variable {s : Surroundings} {o : Options} {disk : Disk} {d : Desk}

theorem coherent_of_resolves {a b : App} {ts : List (Attempt d.host)}
    {verdict : Option UserProfile} (ha : a.store = .file d.tokenPath disk)
    (h : a.Resolves d.settings d.now ts verdict b) :
    ∃ after, b.store = .file d.tokenPath after ∧
      Coherent d disk (Attempt.sent ts) b.session.state after := by
  obtain ⟨after, hb, hkept⟩ := h.store_eq ha
  refine ⟨after, hb, ?_⟩
  rw [h.judged.state]
  cases verdict with
  | none =>
    have hcleared := h.judged.cleared rfl
    rw [ha, hb] at hcleared
    refine ⟨rfl, fun hc => ?_, nofun, fun _ => ⟨rfl, hcleared⟩⟩
    simp [hcleared.resolve_right hc, SessionState.ofVerdict, SessionState.isAuthenticated,
      SessionState.unauthenticated]
  | some user =>
    obtain rfl := hkept rfl
    obtain ⟨token, t, ⟨hget, -⟩, rfl, hc, ⟨r, response, hs, hsuccess, hdecode⟩, -⟩ := h.of_some
    rw [ha] at hget
    have hr := Attempt.request_of_sent? hs
    rw [hc] at hr
    have hstored : ((Store.file d.tokenPath after).get?).isSome = true := by
      rw [hget]
      rfl
    have hsent : Attempt.sent [t] = [(r, .answered response)] := by
      rw [Attempt.sent_cons, hs]
      rfl
    have hmethod : r.method = .get := (Backend.method_eq_get_iff hr).2 ⟨token, rfl⟩
    have hbearer : r.authorization = some (Http.bearer token.text) :=
      (Backend.authorization_eq_bearer_iff hr token.text).2 rfl
    exact ⟨rfl, fun _ => iff_of_true rfl hstored, fun _ => ⟨rfl, token, user, r, response, hget, rfl,
      hsent, hr, hmethod, Backend.goes_of_request hr, hbearer, hsuccess, hdecode⟩, nofun⟩

variable {sent : List (Request × Delivery)} {ending : Ending}

theorem coherent_of_status (hd : Desk.load s o disk = .ok d)
    (h : (Command.status.run s o disk).Ends sent ending) :
    ∃ after state, ending = (after, .ok (Report.status (s.display o.format) d.configPath d.host
        d.tokenPath state ((Store.file d.tokenPath after).get?.bind Token.expiry?))) ∧
      Coherent d disk sent state after := by
  obtain ⟨ts, verdict, b, rfl, hr, rfl⟩ := ends_status hd h
  obtain ⟨after, hb, hcoherent⟩ := coherent_of_resolves (Desk.store_of_load hd) hr
  refine ⟨after, b.session.state, ?_, hcoherent⟩
  simp only [Desk.disk, App.tokenExpiry?, hb]
  rfl

theorem coherent_of_visit (hd : Desk.load s o disk = .ok d) {path : String}
    (h : ((Command.visit path).run s o disk).Ends sent ending) :
    ∃ after decision app,
      ending = (after, .ok (Report.visit (s.display o.format) path decision app)) ∧
      Coherent d disk sent app.session.state after ∧
      decision = Gate.decide (Route.ofPath path) app.session.state ∧
      Led (Route.ofPath path) app.history decision := by
  obtain ⟨ts, verdict, b, rfl, hr, rfl⟩ := ends_visit hd h
  have hstore : (d.app.navigate (.navigate (Route.ofPath path))).store = .file d.tokenPath disk :=
    Desk.store_of_load hd
  obtain ⟨after, hb, hcoherent⟩ := coherent_of_resolves hstore hr
  have hhistory : b.history = (History.starting .landing).apply (.navigate (Route.ofPath path)) := by
    rw [hr.history, Desk.app_of_load hd]
    rfl
  rw [← hr.judged.state]
  refine ⟨after, _, (b.evaluate (Route.ofPath path)).2, ?_, ?_, ?_,
    led_evaluate hhistory hcoherent.resolved⟩
  · simp only [Desk.disk, App.store_evaluate, hb]
    rfl
  · rwa [App.session_evaluate]
  · rw [App.session_evaluate]

/-- Whatever the backend answers, `status` and `visit` report a session that agrees with the token on
the disk, unless the session file clings to it; and a visit leads where the gate decides.  The reports
show the status and the user of that session, and the moment that the token on the disk expires. -/
theorem reports_agree_with_disk (hd : Desk.load s o disk = .ok d) (replies : List Delivery) :
    (∃ after state text,
      (Command.status.run s o disk).result replies = (after, .ok text) ∧
      text = Report.status (s.display o.format) d.configPath d.host d.tokenPath state
        ((Store.file d.tokenPath after).get?.bind Token.expiry?) ∧
      (s.display o.format).Shows "status"
        [("status", .string state.status.name), ("user", userJson state.user),
          ("token_expires_at", Json.ofText?
            (((Store.file d.tokenPath after).get?.bind Token.expiry?).map Time.text))]
        (statusLine (s.display o.format) state) text ∧
      Coherent d disk ((Command.status.run s o disk).transcript replies) state after) ∧
    ∀ path, ∃ after decision app text,
      ((Command.visit path).run s o disk).result replies = (after, .ok text) ∧
      text = Report.visit (s.display o.format) path decision app ∧
      (s.display o.format).Shows "visit"
        [("session", .object [("status", .string app.session.state.status.name),
            ("user", userJson app.session.state.user)]),
          ("decision", decisionJson decision), ("location", routeJson app.history.current),
          ("history", .array (app.history.log.map navigationJson))]
        (visitLine (s.display o.format) (Route.ofPath path) decision) text ∧
      Coherent d disk (((Command.visit path).run s o disk).transcript replies) app.session.state
        after ∧
      decision = Gate.decide (Route.ofPath path) app.session.state ∧
      Led (Route.ofPath path) app.history decision := by
  refine ⟨?_, fun path => ?_⟩
  · obtain ⟨after, state, hresult, hcoherent⟩ :=
      coherent_of_status hd (Exchange.ends_transcript _ replies)
    exact ⟨after, state, _, hresult, rfl, shows_status .., hcoherent⟩
  · have hends := ((Command.visit path).run s o disk).ends_transcript replies
    obtain ⟨after, decision, app, hresult, hcoherent, hdecision, hled⟩ := coherent_of_visit hd hends
    exact ⟨after, decision, app, _, hresult, rfl, shows_visit .., hcoherent, hdecision, hled⟩

/-- A member looks at the settings, and the report agrees with the token on the disk. -/
theorem reports_agree_with_disk_for_member :
    let s : Surroundings := ⟨none, false, 0, ""⟩
    let o : Options := ⟨.json, some "config.yaml", none⟩
    let disk : Disk :=
      { entries := [(["session.yaml"], .file "access_token: tok\n".toUTF8 0o644)], current := [] }
    let reply : Response := ⟨200, some "\x7b\"id\": \"u1\", \"email\": \"a@b.com\"\x7d".toUTF8.toList⟩
    let visit := (Command.visit "/settings").run s o disk
    ∃ d, Desk.load s o disk = .ok d ∧ ∃ decision app,
      visit.result [.answered reply] =
        (disk, .ok (Report.visit (s.display .json) "/settings" decision app)) ∧
      (visit.transcript [.answered reply]).map (·.1.authorization) = [some "Bearer tok"] ∧
      app.session.state.isAuthenticated = true ∧ Led .settings app.history (.render .settings) := by
  intro s o disk reply visit
  have hload : (Desk.load s o disk).toOption.map (·.tokenPath) = some "session.yaml" := by
    decide +kernel
  cases hd : Desk.load s o disk with
  | error e => rw [hd] at hload; cases hload
  | ok d =>
    rw [hd] at hload
    have htoken : d.tokenPath = "session.yaml" := Option.some.inj hload
    obtain ⟨after, decision, app, _, hresult, rfl, -, hcoherent, hdecision, hled⟩ :=
      (reports_agree_with_disk hd [.answered reply]).2 "/settings"
    have hroute : Route.ofPath "/settings" = .settings := by decide +kernel
    rw [hroute] at hdecision hled
    have hafter : after = (visit.result [.answered reply]).1 := (congrArg Prod.fst hresult).symm
    have hget : ((Store.file "session.yaml" after).get?).isSome = true := by
      rw [hafter]
      decide +kernel
    have hclings : ¬ (Store.file "session.yaml" disk).Clings := by
      have he : Store.entries? disk "session.yaml" =
          some [(SessionFile.tokenKey, .string "tok")] := by decide +kernel
      refine Store.not_clings he ?_
      exact Store.keeps_nil (by decide +kernel)
    have hstate : app.session.state.isAuthenticated = true :=
      (hcoherent.signedIn_iff (by rwa [htoken])).2 (by rwa [htoken])
    obtain ⟨rfl, token, user, r, response, hfile, hstate', hsent, -, -, -, hauth, -⟩ :=
      hcoherent.signedIn hstate
    have htok : (Store.file "session.yaml" disk).get? = some ⟨"tok"⟩ := by decide +kernel
    rw [htoken, htok] at hfile
    cases hfile
    have hd' : decision = .render .settings := by
      rw [hdecision, hstate']
      rfl
    subst hd'
    exact ⟨d, rfl, _, app, hresult, by rw [hsent]; exact congrArg (fun x => [x]) hauth, hstate,
      hled⟩

/-- A user whose token has expired is signed out, but a session file that cannot be written without
the token keeps it, and the report says when it has expired. -/
theorem status_may_leave_token :
    let s : Surroundings := ⟨none, false, 0, ""⟩
    let o : Options := ⟨.json, some "config.yaml", none⟩
    let disk : Disk :=
      { entries := [(["session.yaml"], .file
          "access_token: e30.eyJleHAiOjF9.s\nother:\n  ? \x7ba: 1\x7d\n  : 2\n".toUTF8 0o644)]
        current := [] }
    let result := (Command.status.run s o disk).result []
    (Store.file "session.yaml" result.1).get? = some ⟨"e30.eyJleHAiOjF9.s"⟩ ∧
      result.2 = .ok (Report.status (s.display .json) "config.yaml" Config.defaultHost
        "session.yaml" .unauthenticated (some 1)) := by
  intro s o disk result
  have hget : (Store.file "session.yaml" result.1).get? = some ⟨"e30.eyJleHAiOjF9.s"⟩ := by
    decide +kernel
  have hload : (Desk.load s o disk).toOption.map (fun d => (d.configPath, d.host, d.tokenPath)) =
      some ("config.yaml", Config.defaultHost, "session.yaml") := by decide +kernel
  have hsent : ((Command.status.run s o disk).transcript []).isEmpty = true := by decide +kernel
  cases hd : Desk.load s o disk with
  | error e => rw [hd] at hload; cases hload
  | ok d =>
    obtain ⟨after, state, hresult, hcoherent⟩ :=
      coherent_of_status hd (Exchange.ends_transcript _ [])
    rw [List.isEmpty_iff.1 hsent] at hcoherent
    obtain ⟨rfl, -⟩ := hcoherent.signedOut (Bool.eq_false_iff.2 fun hs => by
      obtain ⟨-, token, user, r, response, -, -, hr, -⟩ := hcoherent.signedIn hs
      cases hr)
    rw [hd] at hload
    obtain ⟨hpath, hhost, htoken⟩ : d.configPath = "config.yaml" ∧ d.host = Config.defaultHost ∧
        d.tokenPath = "session.yaml" := by
      simpa using Option.some.inj hload
    have hafter : after = result.1 := (congrArg Prod.fst hresult).symm
    have hexpiry : Token.expiry? ⟨"e30.eyJleHAiOjF9.s"⟩ = some 1 := by decide +kernel
    refine ⟨hget, (congrArg Prod.snd hresult).trans ?_⟩
    rw [hpath, hhost, htoken, hafter, hget, Option.bind_some, hexpiry]

end SessionGuard.Cli
