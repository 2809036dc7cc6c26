import SessionGuard.Backend
import SessionGuard.Cli.Command
import SessionGuard.Envelope
import SessionGuard.Text.Style
import SessionGuard.Text.Table

/-!
# Reports

What a command tells when it has done its work: lines for a reader, or one JSON document for a
program.
-/

namespace SessionGuard.Cli

/-- How a run shows its reports, and when it takes place. -/
structure Display where
  format : Format
  /-- Whether styles are shown. -/
  styled : Bool
  /-- The time of the run, in seconds, and as it is written in documents. -/
  now : Int
  stamp : String

namespace Display

/-- A document as the answer of a command. -/
def document (d : Display) (command : String) (data : Json) : String :=
  Envelope.text command d.stamp data ++ "\n"

/-- Lines, each with its end. -/
def lines (list : List String) : String := String.join (list.map (· ++ "\n"))

/-- A report in the form that is asked for. -/
def report (d : Display) (command : String) (data : Json) (list : List String) : String :=
  match d.format with
  | .json => d.document command data
  | .pretty => lines list

def paint (d : Display) (style : Text.Style) (text : String) : String := style.paint d.styled text

/-- The sign before what has been done. -/
def tick (d : Display) : String := d.paint .green "✓"

/-- The sign before what is left undone. -/
def circle (d : Display) : String := d.paint .dimmed "○"

/-- The advice to sign in. -/
def loginAdvice (d : Display) : String :=
  "  → Run '" ++ d.paint .cyan "sessiongate login" ++ "' to sign in"

end Display

/-! ## Parts of documents -/

def routeJson (r : Route) : Json := .string r.name

def decisionJson (d : Decision) : Json :=
  .object <| ("decision", .string d.name) ::
    match d.route? with
    | some r => [("route", routeJson r)]
    | none => []

def navigationJson (n : Navigation) : Json :=
  .object [("kind", .string n.kind), ("route", routeJson n.route)]

def userJson : Option UserProfile → Json
  | some user => user.toJson
  | none => .null

/-- The fields of a session. -/
def sessionFields (s : SessionState) : List (String × Json) :=
  [("status", .string s.status.name), ("user", userJson s.user)]

/-- The fields of a configuration; those without a value are left out. -/
def configFields (c : Config) : List (String × Json) :=
  let text := fun (name : String) (value : Option String) =>
    match value with
    | some s => [(name, Json.string s)]
    | none => []
  text "api_host" c.apiHost ++ text "token_file" c.tokenFile
    ++ [("signup_policy", .string c.signupPolicy.name),
      ("session", .object
        [("validation_timeout_secs", .int c.session.timeoutSeconds),
          ("check_token_expiry", .bool c.session.checkExpiry)])]

/-- The fields of who has signed in, and where that led. -/
def signedInJson (user : Option UserProfile) (location : Route) : Json :=
  .object [("user", userJson user), ("location", routeJson location)]

/-! ## Reports of commands -/

namespace Report

/-- What is left of the life of a token, in seconds. -/
def lifetime (remaining : Int) : String :=
  if remaining < 0 then "Token expired"
  else
    "Token expires in " ++ toString (remaining / 3600) ++ "h "
      ++ toString (remaining / 60 % 60) ++ "m"

/-- The answer to a member who asks for a form for guests. -/
def alreadySignedIn (d : Display) (command : String) (a : App) : String :=
  let user := a.session.state.user
  let name := (user.map (·.email)).getD "unknown"
  d.report command (signedInJson user a.history.current)
    [d.circle ++ " Already signed in as " ++ d.paint .bold name ++ ". Run '"
      ++ d.paint .cyan "sessiongate logout" ++ "' first."]

def login (d : Display) (user : UserProfile) (location : Route) : String :=
  d.report "login" (signedInJson (some user) location)
    [d.tick ++ " Signed in as " ++ d.paint .bold user.displayName,
      "  → " ++ d.paint .cyan location.path]

def signup (d : Display) (outcome : SignupOutcome) : String :=
  d.report "signup" (.object [("outcome", .string outcome.name), ("user", outcome.user.toJson)])
    (match outcome with
    | .signedIn user =>
      [d.tick ++ " Account created, signed in as " ++ d.paint .bold user.displayName]
    | .awaitingLogin user =>
      [d.tick ++ " Account created for " ++ d.paint .bold user.email, d.loginAdvice])

def logout (d : Display) (a : App) : String :=
  d.report "logout"
    (.object
      [("status", .string a.session.state.status.name), ("location", routeJson a.history.current)])
    [d.tick ++ " Signed out"]

def message (d : Display) (command : String) (m : Message) : String :=
  d.report command m.toJson [d.tick ++ " " ++ m.text]

/-- The session, with the places of its files and the moment its token expires. -/
def status (d : Display) (configPath host tokenPath : String) (state : SessionState)
    (expiry : Option Int) : String :=
  let member := if state.isAuthenticated then state.user else none
  let about :=
    match member with
    | some user =>
      [d.tick ++ " Signed in as " ++ d.paint .bold user.displayName ++ " (" ++ user.email ++ ")"]
        ++ (if user.isSuperuser then ["  " ++ d.paint .yellow "superuser"] else [])
        ++ (match expiry with
          | some moment => ["  " ++ lifetime (moment - d.now)]
          | none => [])
    | none => [d.circle ++ " Not signed in", d.loginAdvice]
  let moment :=
    match expiry with
    | some moment => Json.string (Time.text moment)
    | none => .null
  d.report "status"
    (.object
      ([("api_host", Json.string host), ("token_file", .string tokenPath)] ++ sessionFields state
        ++ [("token_expires_at", moment)]))
    ([d.paint .bold "Session Status", "", "Config file: " ++ d.paint .cyan configPath,
      "Backend: " ++ d.paint .cyan host, "Token file: " ++ d.paint .dimmed tokenPath, ""]
      ++ about ++ [""])

/-- Why a visitor of a screen is sent to another one. -/
def reason (route target : Route) : String :=
  if target = .login then "sign in required"
  else if route.requiresSuperuser then "superuser required"
  else "already signed in"

def visit (d : Display) (requested : String) (decision : Decision) (a : App) : String :=
  let route := Route.ofPath requested
  let state := a.session.state
  d.report "visit"
    (.object
      [("requested", .string requested), ("route", routeJson route),
        ("class", .string route.access.name), ("decision", decisionJson decision),
        ("location", routeJson a.history.current), ("session", .object (sessionFields state)),
        ("history", .array (a.history.log.map navigationJson))])
    (match decision with
    | .render route =>
      (d.tick ++ " " ++ d.paint .bold route.title ++ " (" ++ route.path ++ ")")
        :: match state.user with
          | some user => ["  Signed in as " ++ user.displayName]
          | none => []
    | .redirect target =>
      [d.paint .yellow "→" ++ " " ++ route.path ++ " redirected to "
          ++ d.paint .bold target.path,
        "  " ++ d.paint .dimmed (reason route target)]
    | .loading => [d.circle ++ " Loading..."])

/-- The word for a screen that only superusers may see. -/
def superuserMark (r : Route) : String := if r.requiresSuperuser then "yes" else ""

def routes (d : Display) : String :=
  d.report "routes"
    (.array (Route.all.map fun r =>
      .object
        [("path", .string r.path), ("screen", .string r.title), ("access", .string r.access.name),
          ("superuser", .string (superuserMark r))]))
    [Text.Table.render ["PATH", "SCREEN", "ACCESS", "SUPERUSER"]
      (Route.all.map fun r => [r.path, r.title, r.access.name, superuserMark r]) "No routes."]

/-- The configuration, with what follows from it. -/
def config (d : Display) (path : String) (isThere : Bool) (host tokenPath : String) (c : Config) :
    String :=
  d.report "config"
    (.object
      ([("path", Json.string path), ("effective_api_host", .string host),
        ("effective_token_file", .string tokenPath)] ++ configFields c))
    ["Config file: " ++ d.paint .cyan path
        ++ d.paint .dimmed (if isThere then "" else " (not created yet)"),
      "Backend: " ++ d.paint .cyan host, "Token file: " ++ tokenPath,
      "Signup policy: " ++ c.signupPolicy.name,
      "Validation timeout: " ++ toString c.session.timeoutSeconds ++ "s",
      "Local expiry check: " ++ if c.session.checkExpiry then "on" else "off"]

/-- The answer to a change, for a reader in any case. -/
def hostSet (d : Display) (host : String) : String :=
  Display.lines [d.tick ++ " Backend set to " ++ d.paint .cyan host]

def policySet (d : Display) (policy : SignupPolicy) : String :=
  Display.lines [d.tick ++ " Signup policy set to " ++ d.paint .bold policy.name]

end Report

end SessionGuard.Cli
