import SessionGuard.App.Operation
import SessionGuard.Http.Exchange
import SessionGuard.Json.Models
import SessionGuard.Text.Trim
import SessionGuard.Url.Parser

/-!
# The backend

Each call is one request to the backend at a host, and the response is the reply to it.
`Backend.run` takes an operation of the application through all its calls.
-/

namespace SessionGuard.Backend

open Http (Body Delivery Exchange Method Request)

/-- Where the calls begin, at a host. -/
def base (host : String) : String := Text.dropSlashes host ++ "/api/v1"

/-- The path of a call after the base. -/
def path : Call → String
  | .login _ => "/login/access-token"
  | .currentUser _ => "/users/me"
  | .registerUser _ => "/users/signup"
  | .recoverPassword _ => "/password-recovery"
  | .resetPassword _ => "/reset-password/"

def method : Call → Method
  | .currentUser _ => .get
  | _ => .post

def body? : Call → Option Body
  | .login c => some (Http.formBody [("username", c.email), ("password", c.password)])
  | .currentUser _ => none
  | .registerUser r => some (Http.jsonBody r.toJson)
  | .recoverPassword _ => none
  | .resetPassword r => some (Http.jsonBody r.toJson)

/-! ## Requests -/

/-- A request that cannot be made. -/
def unbuildable : ApiError := .network "builder error"

/-- A request that cannot be made for the address it goes to. -/
def unbuildableFor (url : Url) : ApiError :=
  .network ("builder error for url (" ++ url.text ++ ")")

/-- The address of a call.  The email address to recover is a segment of its own. -/
def url (host : String) (call : Call) : Except ApiError Url :=
  let text := base host ++ path call
  match call with
  | .recoverPassword email =>
    match Url.ofText? text with
    | .error e => .error (.network ("Invalid API host: " ++ e.message))
    | .ok url =>
      match url.push? email with
      | some url => .ok url
      | none => .error (.network "Invalid API host")
  | _ =>
    match Url.ofText? text with
    | .error _ => .error unbuildable
    | .ok url => .ok url

/-- The proof of who calls: the token of the call, or else the user in the address. -/
def authorization (url : Url) : Call → Option String
  | .currentUser token => some (Http.bearer token.text)
  | _ =>
    if url.user = "" ∧ url.password = none then none
    else some (Http.basic url.user url.password)

/-- Whether an address can stand in a request: it is not too long, and its host has none of a few
characters that addresses otherwise admit. -/
def isSendable (url : Url) : Bool :=
  url.text.utf8ByteSize ≤ 65534 &&
    (url.host.map Host.text).all fun cs => cs.all fun c => !"\"\x60\x7b\x7d".toList.contains c

/-- The request of a call. -/
def request (host : String) (call : Call) : Except ApiError Request := do
  let full ← url host call
  let url := full.anonymous
  let header := authorization full call
  if !full.hasHost then .error (unbuildableFor full)
  else if !header.all Http.isHeaderValue then .error unbuildable
  else if (url.scheme ≠ "http" && url.scheme ≠ "https") || !isSendable url then
    .error (unbuildableFor url)
  else .ok ⟨method call, url, body? call, header⟩

/-! ## Replies -/

/-- The reply that a response is. -/
def replyOf (call : Call) (response : Http.Response) : Reply :=
  let reply {α : Type} (read : Json.Raw → Option α) (of : α → Reply) : Reply :=
    match response.decode read with
    | .ok value => of value
    | .error e => .failed e
  match call with
  | .login _ => reply AccessToken.ofRaw? .token
  | .currentUser _ | .registerUser _ => reply UserProfile.ofRaw? .user
  | .recoverPassword _ | .resetPassword _ => reply Message.ofRaw? .message

/-- The reply to a call, from what became of its request. -/
def reply (call : Call) (request : Request) : Delivery → Reply
  | .refused => .failed (.network "Failed to connect to API")
  | .dropped =>
    .failed (.network ("error sending request for url (" ++ request.url.text ++ ")"))
  | .answered response => replyOf call response

/-- Makes a call. -/
def ask (host : String) (call : Call) : Exchange Reply :=
  match request host call with
  | .error e => pure (.failed e)
  | .ok r => do
    let delivery ← Exchange.request r
    pure (reply call r delivery)

/-! ## Operations -/

/-- The most calls that an operation makes: a signup that signs in. -/
def maxCalls : Nat := 3

/-- Takes an operation through its next calls, `fuel` of them at most. -/
def serve (settings : Settings) (host : String) : Nat → App × Progress → Exchange (App × Progress)
  | 0, p => pure p
  | fuel + 1, (a, progress) =>
    match progress with
    | .finished outcome => pure (a, .finished outcome)
    | .waiting on =>
      match on.call? with
      | none => pure (a, .waiting on)
      | some call => do
        let reply ← ask host call
        serve settings host fuel (a.answer settings on reply)

/-- Runs an operation until it ends, or waits for the session. -/
def run (settings : Settings) (host : String) (now : Int) (op : Operation) (a : App) :
    Exchange (App × Progress) :=
  serve settings host maxCalls (a.start settings now op)

end SessionGuard.Backend
