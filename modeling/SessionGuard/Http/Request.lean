import SessionGuard.Envelope
import SessionGuard.Http.Form
import SessionGuard.Text.Base64
import SessionGuard.Url

/-!
# Requests

A `Request` is what goes over the wire but for the headers that all requests share.
-/

namespace SessionGuard

namespace Http

inductive Method
  | get
  | post
  deriving DecidableEq

def Method.name : Method → String
  | .get => "GET"
  | .post => "POST"

/-- A body and the kind of its content. -/
structure Body where
  text : String
  contentType : String
  deriving DecidableEq

structure Request where
  method : Method
  url : Url
  body : Option Body
  authorization : Option String
  deriving DecidableEq

/-- What any request accepts. -/
def accept : String := "*/*"

/-- How the program calls itself. -/
def userAgent : String := "sessiongate/" ++ Envelope.version

/-- Whether a text can be the value of a header. -/
def isHeaderValue (text : String) : Bool :=
  text.toList.all fun c => c = '\t' || (' ' ≤ c && c ≠ '\x7f')

/-- The header that proves who asks. -/
def bearer (token : String) : String := "Bearer " ++ token

/-- The header for a user and a password in the address. -/
def basic (user : String) (password : Option String) : String :=
  let bytes := fun (text : String) => Text.Percent.decode text.toList
  let digits := Text.Base64.encode (bytes user ++ 58 :: (password.map bytes).getD [])
  let ordinary := fun (c : Char) => if c = '-' then '+' else if c = '_' then '/' else c
  "Basic " ++ String.ofList
    (digits.map ordinary ++ List.replicate ((4 - digits.length % 4) % 4) '=')

/-! ## Bodies -/

/-- The body of a form. -/
def formBody (fields : List (String × String)) : Body where
  text := String.ofList (Form.encode fields)
  contentType := "application/x-www-form-urlencoded"

/-- A value as a body. -/
def jsonBody (value : Json) : Body where
  text := value.text
  contentType := "application/json"

end Http

end SessionGuard
