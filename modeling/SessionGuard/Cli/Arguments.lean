import SessionGuard.Cli.Grammar

/-!
# Reading command lines

`Invocation.read` reads the arguments of the program, one after the other.  A parameter is given
once at most beside one verb; beside the verb before it may stand too, and the last word counts.
Any of them comes before the environment.
-/

namespace SessionGuard.Cli

/-- Why there is nothing to run: the arguments make no command, or ask about the program. -/
inductive Stop
  | usage
  | help
  | version
  deriving DecidableEq

/-- A verb with what was given beside it.  A parameter is open from when it is named until the
next one is read. -/
structure Reading where
  verb : Verb
  given : List (Parameter × String)
  opened : Option (Parameter × Option String)
  /-- The parameters by place that are left. -/
  places : List Parameter
  /-- Whether all that follows is given by place. -/
  plain : Bool

namespace Reading

def starting (v : Verb) : Reading := ⟨v, [], none, v.placed, false⟩

/-- Closes the parameter that is open: it has to have a value, and must not have had one. -/
def close (r : Reading) : Except Stop Reading :=
  match r.opened with
  | none => .ok r
  | some (_, none) => .error .usage
  | some (p, some value) =>
    if r.given.any (·.1 == p) || !p.accepts value then .error .usage
    else .ok { r with given := r.given ++ [(p, value)], opened := none }

/-- Whether the next argument is the value of the parameter that is open. -/
def wantsValue (r : Reading) : Bool := r.opened.any fun o => o.2.isNone

/-- Takes a parameter with its value. -/
def take (p : Parameter) (value : String) (r : Reading) : Except Stop Reading := do
  let r ← r.close
  { r with opened := some (p, some value) }.close

/-- Takes a parameter by name; a flag has no value, and any other may have the next argument. -/
def name (p : Parameter) (value : Option String) (r : Reading) : Except Stop Reading :=
  match p.isFlag, value with
  | true, some _ => .error .usage
  | true, none => r.take p "true"
  | false, some value => r.take p value
  | false, none => do
    let r ← r.close
    .ok { r with opened := some (p, none) }

/-- Answers a question about the program. -/
def ask (answer : Stop) (r : Reading) : Except Stop Reading := do
  let _ ← r.close
  .error answer

/-- Takes an argument after two hyphens. -/
def long (text : List Char) (r : Reading) : Except Stop Reading :=
  let word := String.ofList (text.takeWhile (· ≠ '='))
  let value :=
    match text.dropWhile (· ≠ '=') with
    | [] => none
    | _ :: rest => some (String.ofList rest)
  match r.verb.named.find? fun p => p.long == word with
  | some p => r.name p value
  | none =>
    if value.isSome then .error .usage
    else if word = "help" then r.ask .help
    else if word = "version" ∧ r.verb = .root then r.ask .version
    else .error .usage

/-- Takes an argument after one hyphen: a letter, and maybe a value. -/
def short (letter : Char) (text : List Char) (r : Reading) : Except Stop Reading :=
  match r.verb.named.find? fun p => p.short? == some letter with
  | some p =>
    match text with
    | [] => r.name p none
    | '=' :: value => r.name p (some (String.ofList value))
    | value => r.name p (some (String.ofList value))
  | none =>
    if letter = 'h' then r.ask .help
    else if letter = 'V' ∧ r.verb = .root then r.ask .version
    else .error .usage

/-- Takes an argument by place. -/
def place (text : String) (r : Reading) : Except Stop Reading := do
  match r.places with
  | [] => .error .usage
  | p :: rest =>
    let r ← r.close
    .ok { r with opened := some (p, some text), places := rest }

/-- Takes an argument that is no verb. -/
def argument (text : String) (r : Reading) : Except Stop Reading :=
  if r.plain then r.place text
  else
    match text.toList with
    | ['-', '-'] => .ok { r with plain := true }
    | '-' :: '-' :: rest => r.long rest
    | '-' :: letter :: rest => r.short letter rest
    | _ =>
      match r.opened with
      | some (p, none) => .ok { r with opened := some (p, some text) }
      | _ => r.place text

end Reading

/-- The verbs read so far, the last one first. -/
abbrev Line := List Reading

namespace Line

/-- What a question about a verb is answered with. -/
def topic : Verb → List String → Stop
  | _, [] => .help
  | v, word :: rest =>
    match v.next? word with
    | some v => topic v rest
    | none => if word = "help" ∧ !v.verbs.isEmpty ∧ rest.isEmpty then .help else .usage

/-- Reads arguments. -/
def read : List String → Line → Except Stop Line
  | [], line => .ok line
  | _, [] => .error .usage
  | text :: rest, r :: outer =>
    let verb? := if r.plain || r.wantsValue then none else r.verb.next? text
    match verb? with
    | some v => read rest (Reading.starting v :: r :: outer)
    | none =>
      if text = "help" && !r.verb.verbs.isEmpty && !r.plain && !r.wantsValue then
        .error (topic r.verb rest)
      else
        match r.argument text with
        | .ok r => read rest (r :: outer)
        | .error stop => .error stop

/-- Closes all that is open. -/
def close (line : Line) : Except Stop Line := line.mapM Reading.close

/-- The value of a parameter in the environment. -/
def inherited? (environment : List (String × String)) (p : Parameter) : Option String := do
  let name ← p.environmentName?
  let found ← environment.find? fun v => v.1 == name
  some found.2

/-- Whether each verb has what it needs, and the environment nothing that it does not take. -/
def isComplete (environment : List (String × String)) (line : Line) : Bool :=
  line.all fun r =>
    (r.verb.required.all fun p => r.given.any (·.1 == p)) &&
      r.verb.named.all fun p =>
        r.given.any (·.1 == p) || (inherited? environment p).all p.accepts

/-- The value of a parameter: the last one given, or the one in the environment. -/
def value? (environment : List (String × String)) (line : Line) (p : Parameter) : Option String :=
  (line.findSome? fun r => (r.given.find? fun g => g.1 == p).map (·.2)).or
    (inherited? environment p)

/-- The command that a verb asks for. -/
def command? (v : Verb) (value? : Parameter → Option String) : Option Command :=
  match v with
  | .root | .config => none
  | .login => some (.login (value? .email) (value? .password))
  | .signup => do some (.signup (← value? .email) (value? .fullName) (value? .password))
  | .logout => some .logout
  | .status => some .status
  | .visit => (value? .path).map .visit
  | .routes => some .routes
  | .recover => (value? .email).map .recover
  | .resetPassword => do some (.resetPassword (← value? .token) (value? .newPassword))
  | .showConfig => some .showConfig
  | .setHost => (value? .url).map .setHost
  | .setSignupPolicy => (value? .policy >>= policyOfName?).map .setSignupPolicy
  | .completion => (value? .shell >>= Shell.ofName?).map .completion

end Line

/-- The command of arguments, in an environment. -/
def Invocation.read (environment : List (String × String)) (arguments : List String) :
    Except Stop Invocation := do
  let line ← Line.read arguments [Reading.starting .root]
  let line ← Line.close line
  let value? := Line.value? environment line
  match line.head?.bind fun r => Line.command? r.verb value? with
  | none => .error .usage
  | some command =>
    if Line.isComplete environment line then
      .ok
        { options :=
            { format := (value? .format >>= Format.ofName?).getD .pretty
              config := value? .config
              host := value? .host }
          command := command }
    else .error .usage

end SessionGuard.Cli
