import SessionGuard.Http.Exchange
import SessionGuard.Text.Trim

/-!
# Requests and responses as bytes

`Request.bytes` writes a request, after whose response the connection is closed.  `Response.ofBytes?`
reads all that came back: a body that is shorter than announced is none.
-/

namespace SessionGuard.Http

/-- The port a request goes to. -/
def Request.port (r : Request) : Nat :=
  r.url.port.getD ((Url.usualPort? r.url.scheme).getD 80)

/-- The bytes of a request. -/
def Request.bytes (r : Request) : ByteArray :=
  let query :=
    match r.url.query with
    | some query => "?" ++ query
    | none => ""
  let port :=
    match r.url.port with
    | some n => ":" ++ toString n
    | none => ""
  let host := String.ofList ((r.url.host.map Host.text).getD []) ++ port
  let body := (r.body.map (·.text)).getD ""
  let headers :=
    [("host", host), ("user-agent", userAgent), ("accept", accept), ("connection", "close"),
      ("content-length", toString body.utf8ByteSize)]
    ++ (r.body.map fun b => ("content-type", b.contentType)).toList
    ++ (r.authorization.map fun a => ("authorization", a)).toList
  let lines := (r.method.name ++ " " ++ r.url.path.text ++ query ++ " HTTP/1.1")
    :: headers.map fun h => h.1 ++ ": " ++ h.2
  (String.join (lines.map (· ++ "\r\n")) ++ "\r\n" ++ body).toUTF8

/-- The bytes up to the end of a line, and those after it. -/
def line? : List UInt8 → Option (List UInt8 × List UInt8)
  | [] => none
  | 13 :: 10 :: rest => some ([], rest)
  | b :: rest => (line? rest).map fun (l, rest) => (b :: l, rest)

/-- The bytes of a text in ASCII as characters. -/
def characters (bytes : List UInt8) : List Char := bytes.map fun b => Char.ofNat b.toNat

/-- The lines up to an empty one, `fuel` of them at most, and the bytes after it. -/
def head? : Nat → List UInt8 → Option (List (List Char) × List UInt8)
  | 0, _ => none
  | fuel + 1, bytes => do
    let (line, rest) ← line? bytes
    if line.isEmpty then some ([], rest)
    else
      let (lines, rest) ← head? fuel rest
      some (characters line :: lines, rest)

/-- The value of a header among lines. -/
def header? (name : String) (lines : List (List Char)) : Option (List Char) :=
  lines.findSome? fun line =>
    if String.ofList ((line.takeWhile (· ≠ ':')).map Char.toLower) = name then
      some ((Text.trim (String.ofList ((line.dropWhile (· ≠ ':')).drop 1))).toList)
    else none

/-- The bytes of pieces, each after a line with its length, `fuel` of them at most. -/
def pieces? : Nat → List UInt8 → Option (List UInt8)
  | 0, _ => none
  | fuel + 1, bytes => do
    let (line, rest) ← line? bytes
    let length ← Host.value? 16 ((characters line).takeWhile (· ≠ ';'))
    if length = 0 then some []
    else if rest.length < length then none
    else
      let (_, after) ← line? (rest.drop length)
      let others ← pieces? fuel after
      some (rest.take length ++ others)

/-- The body that the headers announce. -/
def body? (lines : List (List Char)) (bytes : List UInt8) : Option (List UInt8) :=
  match header? "transfer-encoding" lines, header? "content-length" lines with
  | some _, _ => pieces? (bytes.length + 1) bytes
  | none, some length => do
    let length ← Host.value? 10 length
    if bytes.length < length then none else some (bytes.take length)
  | none, none => some bytes

/-- The status in the first line of a response. -/
def status? (line : List Char) : Option Nat :=
  match Text.splitAt ' ' line with
  | _ :: status :: _ => if status.length = 3 then Host.value? 10 status else none
  | _ => none

/-- The response in bytes, after those that only announce another one. -/
def Response.ofBytes? : Nat → List UInt8 → Option Response
  | 0, _ => none
  | fuel + 1, bytes => do
    let (lines, rest) ← head? (bytes.length + 1) bytes
    let status ← lines.head? >>= status?
    if status < 200 then ofBytes? fuel rest
    else if status = 204 ∨ status = 304 then some ⟨status, some []⟩
    else some ⟨status, body? lines rest⟩

/-- What became of a request, from all that came back. -/
def Delivery.ofBytes (bytes : List UInt8) : Delivery :=
  match Response.ofBytes? (bytes.length + 1) bytes with
  | some response => .answered response
  | none => .dropped

end SessionGuard.Http
