import SessionGuard.Cli.Arguments
import SessionGuard.Cli.Completion
import SessionGuard.Cli.Report

/-!
# Running commands

`Command.run` is what a command does to the disk, the requests it sends and the report it makes.
A command with a form for guests judges the stored token first, and asks for the form only if that
leaves the user signed out.  Nobody is there to fill in what the form lacks.
-/

namespace SessionGuard.Cli

open Http (Exchange)

/-- What a run finds about it besides the disk. -/
structure Surroundings where
  home : Option String
  styled : Bool
  now : Int
  stamp : String

def Surroundings.display (s : Surroundings) (format : Format) : Display :=
  ⟨format, s.styled, s.now, s.stamp⟩

/-- Where the configuration is. -/
def configPath (s : Surroundings) (o : Options) : Except Failure String :=
  match o.config, s.home with
  | some path, _ => .ok path
  | none, some home => .ok (Config.pathIn home)
  | none, none => .error (.config .noHome)

/-- The configuration, and where it is. -/
def loadConfig (s : Surroundings) (o : Options) (disk : Disk) : Except Failure (String × Config) := do
  let path ← configPath s o
  match Config.load disk path with
  | .ok config => .ok (path, config)
  | .error e => .error (.config e)

/-- An application at its start, and what it was started with. -/
structure Desk where
  configPath : String
  host : String
  tokenPath : String
  settings : Settings
  now : Int
  app : App

namespace Desk

def load (s : Surroundings) (o : Options) (disk : Disk) : Except Failure Desk := do
  let (path, config) ← loadConfig s o disk
  let tokenPath := config.tokenPath path
  .ok
    { configPath := path
      host := config.host o.host
      tokenPath := tokenPath
      settings :=
        ⟨config.session.timeoutSeconds * 1000, config.session.checkExpiry, config.signupPolicy⟩
      now := s.now
      app := .starting (.file tokenPath disk) .landing }

/-- The disk as the application has left it. -/
def disk (d : Desk) (before : Disk) : Disk := d.app.store.disk?.getD before

/-- Runs an operation to its end. -/
def perform (op : Operation) (d : Desk) : Exchange (Desk × Progress) := do
  let (app, progress) ← Backend.run d.settings d.host d.now op d.app
  pure ({ d with app := app }, progress)

/-- Judges the stored token. -/
def restore (d : Desk) : Exchange Desk := do
  let (d, _) ← d.perform .restore
  pure d

/-- Goes to a screen while the stored token is judged, and asks the gate then. -/
def enter (route : Route) (d : Desk) : Exchange (Desk × Decision) := do
  let (d, _) ← d.perform (.visit route)
  let d ← d.restore
  let (app, progress) := d.app.wake (.visiting route)
  let decision :=
    match progress with
    | .finished (.decision decision) => decision
    | _ => .loading
  pure ({ d with app := app }, decision)

end Desk

/-- The disk after a command, and its report or failure. -/
abbrev Ending := Disk × Except Failure String

namespace Ending

/-- What is printed: a report, and nothing of a failure. -/
def stdout (e : Ending) : String :=
  match e.2 with
  | .ok report => report
  | .error _ => ""

/-- The code that the process exits with. -/
def exitCode (e : Ending) : Nat :=
  match e.2 with
  | .ok _ => 0
  | .error _ => 1

end Ending

/-- Runs a command on an application, if it can be started. -/
def withDesk (s : Surroundings) (o : Options) (disk : Disk) (run : Desk → Exchange Ending) :
    Exchange Ending :=
  match Desk.load s o disk with
  | .error e => pure (disk, .error e)
  | .ok desk => run desk

/-- Runs a command with a form for guests: `fill` gives the operation of the filled form, and
`report` tells how it ended. -/
def withForm (s : Surroundings) (o : Options) (disk : Disk) (command : String) (screen : Route)
    (fill : Except Failure Operation) (report : Desk → Outcome → Except Failure String) :
    Exchange Ending :=
  withDesk s o disk fun desk => do
    let (desk, decision) ← desk.enter screen
    match decision with
    | .redirect _ =>
      pure (desk.disk disk, .ok (Report.alreadySignedIn (s.display o.format) command desk.app))
    | _ =>
      match fill with
      | .error e => pure (desk.disk disk, .error e)
      | .ok op => do
        let (desk, progress) ← desk.perform op
        let ending :=
          match progress with
          | .finished outcome => report desk outcome
          | .waiting _ => .error .noTerminal
        pure (desk.disk disk, ending)

/-- What a form has to be given. -/
def given (value : Option String) : Except Failure String :=
  match value with
  | some text => .ok text
  | none => .error .noTerminal

/-- A full name, unless it is blank. -/
def properName (name : Option String) : Option String :=
  name.filter fun text => Text.trim text ≠ ""

/-- The text of a message, or why there is none. -/
def messageReport (d : Display) (command : String) : Outcome → Except Failure String
  | .message (.ok m) => .ok (Report.message d command m)
  | .message (.error e) => .error (.auth e)
  | _ => .error .noTerminal

/-- A host that can be configured: an address on the web, without blanks around it and without
slashes at its end. -/
def validHost (text : String) : Except ConfigError String :=
  let host := Text.dropSlashes (Text.trim text)
  if "http://".toList.isPrefixOf host.toList || "https://".toList.isPrefixOf host.toList then
    .ok host
  else .error (.hostWithoutScheme host)

/-- Changes the configuration. -/
def changeConfig (s : Surroundings) (o : Options) (disk : Disk) (change : Config → Config)
    (report : String) : Ending :=
  match loadConfig s o disk with
  | .error e => (disk, .error e)
  | .ok (path, config) =>
    match (change config).save disk path with
    | .ok disk => (disk, .ok report)
    | .error f => (f.left, .error (.config f.cause))

/-- What a command does. -/
def Command.run (s : Surroundings) (o : Options) (disk : Disk) (command : Command) :
    Exchange Ending :=
  let d := s.display o.format
  match command with
  | .login email password =>
    let fill := do
      let email ← given email
      let password ← given password
      .ok (.login ⟨Text.trim email, password⟩)
    withForm s o disk command.name .login fill fun desk outcome =>
      match outcome with
      | .login (.ok user) => .ok (Report.login d user desk.app.history.current)
      | .login (.error e) => .error (.auth e)
      | _ => .error .noTerminal
  | .signup email fullName password =>
    let fill := do
      let password ← given password
      .ok (.signup ⟨Text.trim email, password, properName fullName⟩)
    withForm s o disk command.name .signup fill fun _ outcome =>
      match outcome with
      | .signup (.ok outcome) => .ok (Report.signup d outcome)
      | .signup (.error e) => .error (.auth e)
      | _ => .error .noTerminal
  | .recover email =>
    withForm s o disk command.name .recoverPassword (.ok (.recover email)) fun _ =>
      messageReport d command.name
  | .resetPassword token newPassword =>
    let fill := do
      let newPassword ← given newPassword
      .ok (.reset ⟨token, newPassword⟩)
    withForm s o disk command.name .resetPassword fill fun _ => messageReport d command.name
  | .logout =>
    withDesk s o disk fun desk => do
      let (desk, _) ← desk.perform .logout
      pure (desk.disk disk, .ok (Report.logout d desk.app))
  | .status =>
    withDesk s o disk fun desk => do
      let desk ← desk.restore
      let app := desk.app
      pure (desk.disk disk,
        .ok (Report.status d desk.configPath desk.host desk.tokenPath app.session.state
          app.tokenExpiry?))
  | .visit path =>
    withDesk s o disk fun desk => do
      let (desk, decision) ← desk.enter (Route.ofPath path)
      pure (desk.disk disk, .ok (Report.visit d path decision desk.app))
  | .routes => pure (disk, .ok (Report.routes d))
  | .showConfig =>
    match loadConfig s o disk with
    | .error e => pure (disk, .error e)
    | .ok (path, config) =>
      pure (disk,
        .ok (Report.config d path (disk.pathExists path) (config.host o.host)
          (config.tokenPath path) config))
  | .setHost url =>
    match validHost url with
    | .error e => pure (disk, .error (.config e))
    | .ok host =>
      pure (changeConfig s o disk (fun c => { c with apiHost := some host })
        (Report.hostSet d host))
  | .setSignupPolicy policy =>
    pure (changeConfig s o disk (fun c => { c with signupPolicy := policy })
      (Report.policySet d policy))
  | .completion shell => pure (disk, .ok shell.script)

/-- What a run of the program does: the arguments may make no command. -/
def run (s : Surroundings) (environment : List (String × String)) (arguments : List String)
    (disk : Disk) : Except Stop (Exchange Ending) := do
  let invocation ← Invocation.read environment arguments
  .ok (invocation.command.run s invocation.options disk)

end SessionGuard.Cli
