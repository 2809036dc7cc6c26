import SessionGuard.Number.Shortest

/-!
# JSON values

Members of an object keep their order.  `Json.text` writes a value on one line, `Json.pretty`
over several, each level indented by two blanks.
-/

namespace SessionGuard

/-- A JSON number: an integer, or a double. -/
inductive JsonNumber
  | int (value : Int)
  | float (value : Binary64)
  deriving DecidableEq

inductive Json
  | null
  | bool (value : Bool)
  | number (value : JsonNumber)
  | string (value : String)
  | array (items : List Json)
  | object (members : List (String × Json))

namespace Json

def int (n : Int) : Json := number (.int n)

/-- A text, or null when there is none. -/
def ofText? : Option String → Json
  | some s => string s
  | none => null

/-- The value of a member; the last of several with one name. -/
def get? (name : String) : Json → Option Json
  | object members => (members.reverse.find? (·.1 == name)).map (·.2)
  | _ => none

/-! ## Writing -/

/-- The digit of a number below sixteen. -/
def hexDigit (n : Nat) : Char :=
  if n < 10 then Char.ofNat (48 + n) else Char.ofNat (87 + n)

/-- A character inside quotes.  A quote, a backslash and the control characters below U+0020
are escaped. -/
def escape (c : Char) : List Char :=
  if c = '"' then ['\\', '"']
  else if c = '\\' then ['\\', '\\']
  else if c = '\n' then ['\\', 'n']
  else if c = '\r' then ['\\', 'r']
  else if c = '\t' then ['\\', 't']
  else if c = '\x08' then ['\\', 'b']
  else if c = '\x0c' then ['\\', 'f']
  else if c.toNat < 32 then
    ['\\', 'u', '0', '0', hexDigit (c.toNat / 16), hexDigit (c.toNat % 16)]
  else [c]

/-- A text in quotes. -/
def quote (s : String) : List Char :=
  '"' :: s.toList.flatMap escape ++ ['"']

/-- The text of a number. -/
def numberText : JsonNumber → List Char
  | .int n => (toString n).toList
  | .float x => x.text

mutual

/-- A value on one line. -/
def compact : Json → List Char
  | null => ['n', 'u', 'l', 'l']
  | bool true => ['t', 'r', 'u', 'e']
  | bool false => ['f', 'a', 'l', 's', 'e']
  | number n => numberText n
  | string s => quote s
  | array items => '[' :: compactItems items
  | object members => '{' :: compactMembers members

/-- The rest of an array, up to its bracket. -/
def compactItems : List Json → List Char
  | [] => [']']
  | [v] => compact v ++ [']']
  | v :: rest => compact v ++ ',' :: compactItems rest

/-- The rest of an object, up to its brace. -/
def compactMembers : List (String × Json) → List Char
  | [] => ['}']
  | [(k, v)] => quote k ++ ':' :: compact v ++ ['}']
  | (k, v) :: rest => quote k ++ ':' :: compact v ++ ',' :: compactMembers rest

end

/-- A line break and the indentation of a level. -/
def newline (level : Nat) : List Char := '\n' :: List.replicate (2 * level) ' '

mutual

/-- A value over several lines, inside a level. -/
def spread (level : Nat) : Json → List Char
  | array [] => ['[', ']']
  | array (v :: rest) =>
    '[' :: newline (level + 1) ++ spread (level + 1) v ++ spreadItems (level + 1) rest
      ++ newline level ++ [']']
  | object [] => ['{', '}']
  | object ((k, v) :: rest) =>
    '{' :: newline (level + 1) ++ quote k ++ ':' :: ' ' :: spread (level + 1) v
      ++ spreadMembers (level + 1) rest ++ newline level ++ ['}']
  | null => ['n', 'u', 'l', 'l']
  | bool true => ['t', 'r', 'u', 'e']
  | bool false => ['f', 'a', 'l', 's', 'e']
  | number n => numberText n
  | string s => quote s

/-- The items of an array after the first. -/
def spreadItems (level : Nat) : List Json → List Char
  | [] => []
  | v :: rest => ',' :: newline level ++ spread level v ++ spreadItems level rest

/-- The members of an object after the first. -/
def spreadMembers (level : Nat) : List (String × Json) → List Char
  | [] => []
  | (k, v) :: rest =>
    ',' :: newline level ++ quote k ++ ':' :: ' ' :: spread level v ++ spreadMembers level rest

end

/-- The text of a value on one line. -/
def text (v : Json) : String := String.ofList v.compact

/-- The text of a value over several lines. -/
def pretty (v : Json) : String := String.ofList (v.spread 0)

end Json

end SessionGuard
