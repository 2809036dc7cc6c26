import SessionGuard.Disk.Writing
import SessionGuard.Text.Trim
import SessionGuard.Yaml.Printer

/-!
# Configuration

Where the backend is, where the token is kept, what happens after an account is opened, and how a
stored token is judged at the start.  What a file does not say has its default; a missing file
says nothing.
-/

namespace SessionGuard

open Yaml (Document Node Value)

/-- What happens after an account is opened: the user signs in, or is signed in at once. -/
inductive SignupPolicy
  | redirectToLogin
  | autoLogin
  deriving DecidableEq

/-- The word for a policy. -/
def SignupPolicy.name : SignupPolicy → String
  | redirectToLogin => "redirect_to_login"
  | autoLogin => "auto_login"

/-- The policy of a word. -/
def SignupPolicy.ofName? (word : String) : Option SignupPolicy :=
  [redirectToLogin, autoLogin].find? fun p => p.name == word

/-- How a stored token is judged: for how many seconds the backend is waited for, and whether an
expired token is dropped without asking. -/
structure SessionSettings where
  timeoutSeconds : Nat
  checkExpiry : Bool
  deriving DecidableEq

def SessionSettings.default : SessionSettings := ⟨10, true⟩

structure Config where
  apiHost : Option String
  tokenFile : Option String
  signupPolicy : SignupPolicy
  session : SessionSettings
  deriving DecidableEq

namespace Config

def default : Config := ⟨none, none, .redirectToLogin, .default⟩

/-! ## Effective values -/

/-- The backend where nothing names another one. -/
def defaultHost : String := "http://localhost:8000"

/-- The backend: the one asked for, or the configured one, without slashes at its end. -/
def host (config : Config) (override : Option String) : String :=
  Text.dropSlashes ((override.or config.apiHost).getD defaultHost)

/-- The name of the session file. -/
def sessionFileName : String := "session.yaml"

/-- The session file: the configured one, or the one beside the configuration. -/
def tokenPath (config : Config) (path : String) : String :=
  match config.tokenFile with
  | some file => file
  | none =>
    match Path.parent? path with
    | some directory => Path.join directory sessionFileName
    | none => sessionFileName

/-- The path of the configuration in a home directory. -/
def pathIn (home : String) : String := Path.join (Path.join home ".sessiongate") "config.yaml"

/-! ## Reading -/

/-- The values of named fields, in the order of the names.  Each may stand once; other fields are
passed over. -/
def fields (d : Document) (names : List String) (entries : List (Node Nat × Node Nat)) :
    Document.Reader (List (Option (Node Nat))) := do
  let named ← entries.mapM fun (k, v) => do
    let k ← d.text k
    pure (k, v)
  names.mapM fun name =>
    match named.filter fun e => e.1 == name with
    | [] => pure none
    | [(_, v)] => pure (some v)
    | _ => Document.fail

/-- Whether a scalar may be read as a value of one of YAML's own types: it is plain, or literal
and tagged so. -/
def isBare (name : String) (tag : Option (List Char)) (style : Yaml.Style) : Bool :=
  style == .plain || (style == .literal && tag == some (Document.coreTag name))

def boolean (d : Document) (node : Node Nat) : Document.Reader Bool := do
  match ← d.follow node with
  | .scalar props text style =>
    if isBare "bool" props.tag style then
      match Yaml.Plain.bool? (String.ofList text) with
      | some b => pure b
      | none => Document.fail
    else Document.fail
  | _ => Document.fail

/-- An integer from 0 on that fits in 64 bits. -/
def natural (d : Document) (node : Node Nat) : Document.Reader Nat := do
  match ← d.follow node with
  | .scalar props text style =>
    if isBare "int" props.tag style then
      match Yaml.Plain.natural? text with
      | some n => if n < UInt64.size then pure n else Document.fail
      | none => Document.fail
    else Document.fail
  | _ => Document.fail

/-- A text, or none for null. -/
def optionalText (d : Document) (node : Node Nat) : Document.Reader (Option String) := do
  match ← d.follow node with
  | .scalar props text style =>
    let s := String.ofList text
    if style != Yaml.Style.plain then pure (some s)
    else
      match props.tag with
      | some tag =>
        if tag = Document.coreTag "null" then
          if Yaml.Plain.isNull s then pure none else Document.fail
        else pure (some s)
      | none => if s.isEmpty || Yaml.Plain.isNull s then pure none else pure (some s)
  | _ => Document.fail

/-- A policy: its word, or a tag of its word on nothing. -/
def policy (d : Document) (node : Node Nat) : Document.Reader SignupPolicy := do
  match ← d.follow node with
  | .scalar props text style =>
    let s := String.ofList text
    let word? :=
      match Document.ownTag? props with
      | some tag =>
        if style == Yaml.Style.plain && (s.isEmpty || Yaml.Plain.isNull s) then some tag else none
      | none => some s
    match word?.bind SignupPolicy.ofName? with
    | some p => pure p
    | none => Document.fail
  | _ => Document.fail

/-- A field that may be missing. -/
def fieldOr {α : Type} (value : α) (read : Node Nat → Document.Reader α) :
    Option (Node Nat) → Document.Reader α
  | some node => read node
  | none => pure value

def settings (d : Document) (node : Node Nat) : Document.Reader SessionSettings := do
  match ← fields d ["validation_timeout_secs", "check_token_expiry"] (← d.entries node) with
  | [timeout, check] =>
    pure ⟨← fieldOr 10 (natural d) timeout, ← fieldOr true (boolean d) check⟩
  | _ => Document.fail

def ofDocument (d : Document) : Document.Reader Config := do
  match ← fields d ["api_host", "token_file", "signup_policy", "session"] (← d.rootEntries) with
  | [host, file, signup, session] =>
    pure
      { apiHost := ← fieldOr none (optionalText d) host
        tokenFile := ← fieldOr none (optionalText d) file
        signupPolicy := ← fieldOr .redirectToLogin (policy d) signup
        session := ← fieldOr .default (settings d) session }
  | _ => Document.fail

/-- The configuration a text holds. -/
def decode? (text : String) : Option Config := do
  let d ← Document.ofString? text
  Document.run (ofDocument d)

/-- The configuration of a file. -/
def load (disk : Disk) (path : String) : Except ConfigError Config :=
  if !disk.pathExists path then .ok default
  else
    match disk.readText path with
    | .error e => .error (.file e)
    | .ok text =>
      match decode? text with
      | none => .error .malformed
      | some config =>
        if config.session.timeoutSeconds = 0 then .error .zeroTimeout else .ok config

/-! ## Writing -/

/-- The fields of a configuration; those without a value are left out. -/
def entries (config : Config) : List (String × Value) :=
  let text := fun (name : String) (value : Option String) =>
    match value with
    | some s => [(name, Value.string s)]
    | none => []
  text "api_host" config.apiHost ++ text "token_file" config.tokenFile
    ++ [("signup_policy", .string config.signupPolicy.name),
      ("session", .mapping
        [(.string "validation_timeout_secs", .int config.session.timeoutSeconds),
          (.string "check_token_expiry", .bool config.session.checkExpiry)])]

/-- The text of a configuration. -/
def encode (config : Config) : String := Yaml.render config.entries

/-- The disk with a configuration in a file, for its owner only. -/
def save (config : Config) (disk : Disk) (path : String) : Except (Failed ConfigError Disk) Disk :=
  match disk.save .after path config.encode with
  | .ok disk => .ok disk
  | .error f => .error ⟨.file f.cause, f.left⟩

end Config

end SessionGuard
