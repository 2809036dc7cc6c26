import SessionGuard.Url.Host

/-!
# Addresses

A `Url` is a scheme, an authority where it has one, a path, a query and a fragment.  Each part is
kept as it is written: what may not stand in it has percent signs.
-/

namespace SessionGuard

/-- A path: its segments, each after a slash, or a text that is no list of segments. -/
inductive Url.Path
  | segments (list : List String)
  | plain (text : String)
  deriving DecidableEq

structure Url where
  scheme : String
  user : String
  password : Option String
  host : Option Host
  /-- The port, if it is not the usual one of the scheme. -/
  port : Option Nat
  path : Url.Path
  query : Option String
  fragment : Option String
  deriving DecidableEq

namespace Url

/-! ## Classes of characters -/

def inFragment (c : Char) : Bool := " \"<>\x60".toList.contains c

def inPath (c : Char) : Bool := inFragment c || "#?\x7b\x7d".toList.contains c

def inUser (c : Char) : Bool := inPath c || "/:;=@[\\]^|".toList.contains c

def inQuery (special : Bool) (c : Char) : Bool :=
  " \"#<>".toList.contains c || (special && c = '\'')

/-- The class for a segment that is put into a path as it is, slashes and percent signs with it. -/
def inSegment (special : Bool) (c : Char) : Bool :=
  inPath c || c = '/' || c = '%' || (special && c = '\\')

/-! ## Schemes -/

/-- The usual port of a scheme that is used on the web. -/
def usualPort? (scheme : String) : Option Nat :=
  match scheme with
  | "http" | "ws" => some 80
  | "https" | "wss" => some 443
  | "ftp" => some 21
  | _ => none

/-- Whether addresses of a scheme have a host and a path of segments, however they are written. -/
def isSpecial (scheme : String) : Bool := (usualPort? scheme).isSome || scheme = "file"

/-! ## Paths -/

/-- The segments that stand for the directory itself. -/
def isSingleDot (segment : List Char) : Bool :=
  [".", "%2e"].contains (String.ofList (segment.map Char.toLower))

/-- The segments that stand for the directory above. -/
def isDoubleDot (segment : List Char) : Bool :=
  ["..", ".%2e", "%2e.", "%2e%2e"].contains (String.ofList (segment.map Char.toLower))

/-- The segments of a path with one more, which is the last or is followed by others. -/
def append (encode : List Char → List Char) (isLast : Bool) (path : List String)
    (segment : List Char) : List String :=
  let written := encode segment
  if isDoubleDot written then path.dropLast ++ if isLast then [""] else []
  else if isSingleDot written then path ++ if isLast then [""] else []
  else path ++ [String.ofList written]

/-- The segments of a path with more of them. -/
def appendAll (path : List String) : List (List Char) → List String
  | [] => path
  | [last] => append (Text.Percent.encode inPath) true path last
  | segment :: rest => appendAll (append (Text.Percent.encode inPath) false path segment) rest

/-- The path with one more segment, in which nothing has a meaning of its own; line breaks and tabs
are left out.  A segment that stands for a directory is not added. -/
def Path.push? (special : Bool) (segment : String) : Path → Option Path
  | .plain _ => none
  | .segments path =>
    if segment = "." ∨ segment = ".." then some (.segments path)
    else
      let written := segment.toList.filter fun c => c ≠ '\t' && c ≠ '\n' && c ≠ '\r'
      let path := if path = [""] then [] else path
      some (.segments (append (Text.Percent.encode (inSegment special)) true path written))

/-- The address with one more segment, if its path has segments. -/
def push? (segment : String) (u : Url) : Option Url :=
  (u.path.push? (isSpecial u.scheme) segment).map fun path => { u with path := path }

/-! ## Addresses as text -/

def Path.text : Path → String
  | .segments path => String.join (path.map ("/" ++ ·))
  | .plain text => text

/-- The user and the password as they stand before the host. -/
def credentials (u : Url) : String :=
  match u.password with
  | some password => u.user ++ ":" ++ password ++ "@"
  | none => if u.user = "" then "" else u.user ++ "@"

/-- What stands between the scheme and the path; a path that could be taken for a host has a
segment in front that means nothing. -/
def authority (u : Url) : String :=
  match u.host with
  | some host =>
    let port :=
      match u.port with
      | some n => ":" ++ toString n
      | none => ""
    "//" ++ u.credentials ++ String.ofList host.text ++ port
  | none =>
    match u.path with
    | .segments ("" :: _ :: _) => "/."
    | _ => ""

def text (u : Url) : String :=
  u.scheme ++ ":" ++ u.authority ++ u.path.text
    ++ (match u.query with
      | some query => "?" ++ query
      | none => "")
    ++ match u.fragment with
      | some fragment => "#" ++ fragment
      | none => ""

/-- Whether an address names a host. -/
def hasHost (u : Url) : Bool := u.host.any fun h => !h.isEmpty

/-- The address without user and password. -/
def anonymous (u : Url) : Url := { u with user := "", password := none }

end Url

end SessionGuard
