import SessionGuard.Cli.Report

/-!
# What reports show

A report in a document has members with their values, and one in lines has a line (`Display.Shows`).
So it tells whether somebody is signed in, and who, in the same way for either kind of reader.
-/

namespace SessionGuard.Cli

variable {d : Display}

/-- A report of a command shows members in its data where it is a document, and else a line. -/
def Display.Shows (d : Display) (command : String) (members : List (String × Json)) (line : String)
    (report : String) : Prop :=
  match d.format with
  | .json => ∃ data, report = d.document command data ∧ ∀ m ∈ members, data.get? m.1 = some m.2
  | .pretty => ∃ before after, report = Display.lines (before ++ line :: after)

theorem Display.Shows.mono {command line report : String} {members members' : List (String × Json)}
    (h : d.Shows command members line report) (hm : members' ⊆ members) :
    d.Shows command members' line report := by
  unfold Shows at h ⊢
  cases hd : d.format with
  | json =>
    rw [hd] at h
    obtain ⟨data, htext, hmembers⟩ := h
    exact ⟨data, htext, fun m hmem => hmembers m (hm hmem)⟩
  | pretty =>
    rw [hd] at h
    exact h

theorem shows_report {command line : String} {data : Json} {list : List String}
    {members : List (String × Json)} (hm : ∀ m ∈ members, data.get? m.1 = some m.2)
    (hl : line ∈ list) : d.Shows command members line (d.report command data list) := by
  unfold Display.Shows Display.report
  cases d.format with
  | json => exact ⟨data, rfl, hm⟩
  | pretty =>
    obtain ⟨before, after, rfl⟩ := List.append_of_mem hl
    exact ⟨before, after, rfl⟩

/-- The line of `status` for a session: who is signed in, or that nobody is. -/
def statusLine (d : Display) (state : SessionState) : String :=
  match if state.isAuthenticated then state.user else none with
  | some user =>
    d.tick ++ " Signed in as " ++ d.paint .bold user.displayName ++ " (" ++ user.email ++ ")"
  | none => d.circle ++ " Not signed in"

theorem shows_status (d : Display) (configPath host tokenPath : String) (state : SessionState)
    (expiry : Option Int) :
    d.Shows "status"
      [("status", .string state.status.name), ("user", userJson state.user),
        ("token_expires_at", Json.ofText? (expiry.map Time.text))]
      (statusLine d state) (Report.status d configPath host tokenPath state expiry) := by
  refine shows_report (fun m hm => ?_) ?_
  · simp only [List.mem_cons, List.not_mem_nil, or_false] at hm
    rcases hm with rfl | rfl | rfl
    · rfl
    · rfl
    · cases expiry <;> rfl
  · unfold statusLine
    generalize (if state.isAuthenticated then state.user else none) = member
    cases member <;> simp

/-- The line of `visit` for a decision: the screen that is shown, or the one that takes its place. -/
def visitLine (d : Display) (route : Route) : Decision → String
  | .render shown => d.tick ++ " " ++ d.paint .bold shown.title ++ " (" ++ shown.path ++ ")"
  | .redirect target =>
    d.paint .yellow "→" ++ " " ++ route.path ++ " redirected to " ++ d.paint .bold target.path
  | .loading => d.circle ++ " Loading..."

theorem shows_visit (d : Display) (requested : String) (decision : Decision) (a : App) :
    d.Shows "visit"
      [("session", .object [("status", .string a.session.state.status.name),
          ("user", userJson a.session.state.user)]),
        ("decision", decisionJson decision), ("location", routeJson a.history.current),
        ("history", .array (a.history.log.map navigationJson))]
      (visitLine d (Route.ofPath requested) decision) (Report.visit d requested decision a) := by
  refine shows_report (fun m hm => ?_) ?_
  · simp only [List.mem_cons, List.not_mem_nil, or_false] at hm
    rcases hm with rfl | rfl | rfl | rfl <;> rfl
  · cases decision <;> simp [visitLine]

/-- The line for a member who asks for a form for guests. -/
def alreadyLine (d : Display) (user : UserProfile) : String :=
  d.circle ++ " Already signed in as " ++ d.paint .bold user.email ++ ". Run '"
    ++ d.paint .cyan "sessiongate logout" ++ "' first."

theorem shows_alreadySignedIn {a : App} {user : UserProfile}
    (h : a.session.state = .authenticated user) (d : Display) (command : String) :
    d.Shows command [("user", user.toJson), ("location", routeJson a.history.current)]
      (alreadyLine d user) (Report.alreadySignedIn d command a) := by
  have huser : a.session.state.user = some user := by rw [h]; rfl
  unfold Report.alreadySignedIn
  refine shows_report (fun m hm => ?_) ?_
  · simp only [List.mem_cons, List.not_mem_nil, or_false] at hm
    rcases hm with rfl | rfl
    · rw [huser]; rfl
    · rfl
  · simp [alreadyLine, huser]

end SessionGuard.Cli
