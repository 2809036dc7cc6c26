import SessionGuard.Cli.Command

/-!
# The grammar of command lines

A `Verb` is a word, or two, that asks for a command; `Verb.root` is the program itself.  A verb
takes parameters by name or by place, and some of them from the environment.
-/

namespace SessionGuard.Cli

inductive Verb
  | root
  | login
  | signup
  | logout
  | status
  | visit
  | routes
  | recover
  | resetPassword
  | config
  | showConfig
  | setHost
  | setSignupPolicy
  | completion
  deriving DecidableEq

inductive Parameter
  | format
  | config
  | host
  | debug
  | email
  | password
  | fullName
  | path
  | token
  | newPassword
  | url
  | policy
  | shell
  deriving DecidableEq

namespace Parameter

/-- The name of a parameter after two hyphens. -/
def long : Parameter → String
  | format => "format"
  | config => "config"
  | host => "api-host"
  | debug => "debug"
  | email => "email"
  | password => "password"
  | fullName => "full-name"
  | path => "path"
  | token => "token"
  | newPassword => "new-password"
  | url => "url"
  | policy => "policy"
  | shell => "shell"

/-- The letter of a parameter after one hyphen. -/
def short? : Parameter → Option Char
  | email => some 'e'
  | password => some 'p'
  | _ => none

/-- Whether a parameter is given by its name alone. -/
def isFlag (p : Parameter) : Bool := p == debug

/-- The variable of the environment that a parameter may be taken from. -/
def environmentName? : Parameter → Option String
  | format => some "SESSIONGATE_FORMAT"
  | config => some "SESSIONGATE_CONFIG"
  | host => some "SESSIONGATE_API_HOST"
  | debug => some "SESSIONGATE_DEBUG"
  | password => some "SESSIONGATE_PASSWORD"
  | newPassword => some "SESSIONGATE_NEW_PASSWORD"
  | _ => none

/-- Whether a text is a value of a parameter. -/
def accepts (p : Parameter) (value : String) : Bool :=
  match p with
  | format => (Format.ofName? value).isSome
  | debug => value == "true" || value == "false"
  | policy => (policyOfName? value).isSome
  | shell => (Shell.ofName? value).isSome
  | _ => true

/-- The parameters that any verb takes. -/
def common : List Parameter := [format, config, host, debug]

end Parameter

namespace Verb

/-- The verbs that may follow a verb. -/
def verbs : Verb → List (String × Verb)
  | root =>
    [("login", login), ("signup", signup), ("logout", logout), ("status", status),
      ("visit", visit), ("routes", routes), ("recover", recover),
      ("reset-password", resetPassword), ("config", config), ("completion", completion)]
  | config =>
    [("show", showConfig), ("set-host", setHost), ("set-signup-policy", setSignupPolicy)]
  | _ => []

/-- The verb of a word after a verb. -/
def next? (v : Verb) (word : String) : Option Verb :=
  (v.verbs.find? fun n => n.1 == word).map (·.2)

/-- The parameters by name. -/
def named (v : Verb) : List Parameter :=
  Parameter.common ++
    match v with
    | login => [.email, .password]
    | signup => [.email, .fullName, .password]
    | resetPassword => [.token, .newPassword]
    | _ => []

/-- The parameters by place. -/
def placed : Verb → List Parameter
  | visit => [.path]
  | recover => [.email]
  | setHost => [.url]
  | setSignupPolicy => [.policy]
  | completion => [.shell]
  | _ => []

/-- The parameters that a verb cannot do without. -/
def required : Verb → List Parameter
  | signup => [.email]
  | resetPassword => [.token]
  | v => v.placed

end Verb

end SessionGuard.Cli
