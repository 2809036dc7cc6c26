import SessionGuard.Url

/-!
# Reading addresses

`Url.ofText?` reads an address as browsers do: it lets pass what can be mended, and refuses only a
text without a scheme, a host that cannot be one and a port that is too large.
-/

namespace SessionGuard.Url

/-! ## Parts -/

/-- The text that is read: without blanks and controls at its ends, line breaks and tabs. -/
def cleaned (text : String) : List Char :=
  let cs := text.toList.dropWhile (· ≤ ' ')
  (Text.dropTrailing (· ≤ ' ') cs).filter fun c => c ≠ '\t' && c ≠ '\n' && c ≠ '\r'

/-- The scheme before the first colon, and the text after it. -/
def scheme? (cs : List Char) : Option (String × List Char) :=
  let isInScheme := fun (c : Char) => c.isAlphanum || c = '+' || c = '-' || c = '.'
  match cs.takeWhile isInScheme, cs.dropWhile isInScheme with
  | c :: rest, ':' :: after =>
    if c.isAlpha then some (String.ofList ((c :: rest).map Char.toLower), after) else none
  | _, _ => none

/-- Whether a character ends the authority of an address. -/
def endsAuthority (special : Bool) (c : Char) : Bool :=
  c = '/' || c = '?' || c = '#' || (special && c = '\\')

/-- A text around the last at sign, if there is one. -/
def splitUser? (cs : List Char) : Option (List Char × List Char) :=
  let host := (cs.reverse.takeWhile (· ≠ '@')).reverse
  if host.length = cs.length then none
  else some (cs.take (cs.length - host.length - 1), host)

/-- User and password. -/
def userOf (cs : List Char) : String × Option String :=
  let user := cs.takeWhile (· ≠ ':')
  let password := (cs.dropWhile (· ≠ ':')).drop 1
  let encode := fun (cs : List Char) => String.ofList (Text.Percent.encode inUser cs)
  (encode user, if password.isEmpty then none else some (encode password))

/-- The host at the beginning of an authority, up to a colon that is not between brackets, and
what follows it. -/
def splitHost (bracket : Bool) : List Char → List Char × List Char
  | [] => ([], [])
  | c :: cs =>
    if c = ':' && !bracket then ([], c :: cs)
    else
      let bracket := if c = '[' then true else if c = ']' then false else bracket
      let (host, rest) := splitHost bracket cs
      (c :: host, rest)

/-- The port at the beginning of a text, and what follows it. -/
def port? (usual : Option Nat) (cs : List Char) : Except UrlError (Option Nat × List Char) :=
  let digits := cs.takeWhile Char.isDigit
  let rest := cs.dropWhile Char.isDigit
  let n := digits.foldl (fun n c => 10 * n + (c.toNat - 48)) 0
  let ends := rest.head?.all fun c => c = '/' || c = '\\' || c = '?' || c = '#'
  if 65535 < n || !ends then .error .invalidPort
  else .ok (if digits.isEmpty || usual = some n then none else some n, rest)

/-- The path of segments that a text is. -/
def segmentsOf (special : Bool) (cs : List Char) : List String :=
  let cs := if special then cs.map fun c => if c = '\\' then '/' else c else cs
  match cs with
  | '/' :: rest => appendAll [] (Text.splitAt '/' rest)
  | [] => if special then [""] else []
  | rest => appendAll [] (Text.splitAt '/' rest)

/-- Query and fragment. -/
def queryOf (special : Bool) (cs : List Char) : Option String × Option String :=
  let fragmentOf := fun (cs : List Char) =>
    match cs with
    | '#' :: rest => some (String.ofList (Text.Percent.encode inFragment rest))
    | _ => none
  match cs with
  | '?' :: rest =>
    let query := rest.takeWhile (· ≠ '#')
    (some (String.ofList (Text.Percent.encode (inQuery special) query)),
      fragmentOf (rest.dropWhile (· ≠ '#')))
  | _ => (none, fragmentOf cs)

/-! ## Addresses -/

/-- Whether a character ends a path. -/
def endsPath (c : Char) : Bool := c = '?' || c = '#'

/-- An address whose authority and path a text gives. -/
def withAuthority (scheme : String) (cs : List Char) : Except UrlError Url := do
  let special := isSpecial scheme
  let authority := cs.takeWhile fun c => !endsAuthority special c
  let after := cs.dropWhile fun c => !endsAuthority special c
  let split? := splitUser? authority
  let (user, password) := (split?.map fun s => userOf s.1).getD ("", none)
  let rest := (split?.map Prod.snd).getD authority
  if split?.isSome && rest.isEmpty then .error .emptyHost
  let (hostText, rest) := splitHost false rest
  let host ←
    if hostText.isEmpty then
      if special || !rest.isEmpty || user ≠ "" || password.isSome then .error .emptyHost
      else .ok (Host.name "")
    else if special then Host.ofText? hostText
    else Host.ofPlainText? hostText
  let (port, rest) ←
    match rest with
    | ':' :: rest => port? (usualPort? scheme) rest
    | rest => .ok (none, rest)
  let cs := rest ++ after
  let (query, fragment) := queryOf special (cs.dropWhile fun c => !endsPath c)
  let path := segmentsOf special (cs.takeWhile fun c => !endsPath c)
  .ok ⟨scheme, user, password, some host, port, .segments path, query, fragment⟩

/-- An address without authority. -/
def withoutAuthority (scheme : String) (cs : List Char) : Url :=
  let text := cs.takeWhile fun c => !endsPath c
  let (query, fragment) := queryOf false (cs.dropWhile fun c => !endsPath c)
  let path :=
    match text with
    | '/' :: rest => .segments (appendAll [] (Text.splitAt '/' rest))
    | text => .plain (String.ofList (Text.Percent.encode (fun _ => false) text))
  ⟨scheme, "", none, none, none, path, query, fragment⟩

/-- The address of a file; it may name a host, and the one it is read on goes without saying. -/
def ofFile (cs : List Char) : Except UrlError Url := do
  let isSlash := fun (c : Char) => c = '/' || c = '\\'
  let (hostText, cs) :=
    match cs with
    | a :: b :: rest =>
      if isSlash a && isSlash b then
        (rest.takeWhile fun c => !endsAuthority true c, rest.dropWhile fun c => !endsAuthority true c)
      else ([], a :: b :: rest)
    | cs => ([], cs)
  let host ← if hostText.isEmpty then .ok (Host.name "") else Host.ofText? hostText
  let host := if host = .name "localhost" then .name "" else host
  let (query, fragment) := queryOf true (cs.dropWhile fun c => !endsPath c)
  let path := segmentsOf true (cs.takeWhile fun c => !endsPath c)
  .ok ⟨"file", "", none, some host, none, .segments path, query, fragment⟩

/-- The address that a text is. -/
def ofText? (text : String) : Except UrlError Url :=
  match scheme? (cleaned text) with
  | none => .error .relative
  | some (scheme, rest) =>
    if scheme = "file" then ofFile rest
    else if isSpecial scheme then
      withAuthority scheme (rest.dropWhile fun c => c = '/' || c = '\\')
    else
      match rest with
      | '/' :: '/' :: rest => withAuthority scheme rest
      | rest => .ok (withoutAuthority scheme rest)

end SessionGuard.Url
