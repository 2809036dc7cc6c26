import SessionGuard.Config

/-!
# Commands

What the program can be asked to do on the command line, and how it is to answer.
-/

namespace SessionGuard.Cli

inductive Format
  | pretty
  | json
  deriving DecidableEq

def Format.name : Format → String
  | pretty => "pretty"
  | json => "json"

def Format.ofName? (word : String) : Option Format :=
  [Format.pretty, .json].find? fun f => f.name == word

inductive Shell
  | bash
  | elvish
  | fish
  | powershell
  | zsh
  deriving DecidableEq

def Shell.name : Shell → String
  | bash => "bash"
  | elvish => "elvish"
  | fish => "fish"
  | powershell => "powershell"
  | zsh => "zsh"

def Shell.ofName? (word : String) : Option Shell :=
  [Shell.bash, .elvish, .fish, .powershell, .zsh].find? fun s => s.name == word

/-- The word for a policy on the command line. -/
def policyName : SignupPolicy → String
  | .redirectToLogin => "redirect-to-login"
  | .autoLogin => "auto-login"

def policyOfName? (word : String) : Option SignupPolicy :=
  [SignupPolicy.redirectToLogin, .autoLogin].find? fun p => policyName p == word

inductive Command
  | login (email password : Option String)
  | signup (email : String) (fullName password : Option String)
  | logout
  | status
  | visit (path : String)
  | routes
  | recover (email : String)
  | resetPassword (token : String) (newPassword : Option String)
  | showConfig
  | setHost (url : String)
  | setSignupPolicy (policy : SignupPolicy)
  | completion (shell : Shell)
  deriving DecidableEq

/-- The settings of one run: how to answer, where the configuration is, and which backend to
ask. -/
structure Options where
  format : Format
  config : Option String
  host : Option String
  deriving DecidableEq

/-- A command with its settings. -/
structure Invocation where
  options : Options
  command : Command
  deriving DecidableEq

/-- The name of a command in its answers. -/
def Command.name : Command → String
  | login .. => "login"
  | signup .. => "signup"
  | logout => "logout"
  | status => "status"
  | visit _ => "visit"
  | routes => "routes"
  | recover _ => "recover"
  | resetPassword .. => "reset-password"
  | showConfig | setHost _ | setSignupPolicy _ => "config"
  | completion _ => "completion"

end SessionGuard.Cli
