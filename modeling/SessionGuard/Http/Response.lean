import SessionGuard.Error
import SessionGuard.Json.Record

/-!
# Responses

A `Response` is a status and a body; a body that stopped short is none.  What a failure is, its
status alone says; the body may say it in words.
-/

namespace SessionGuard.Http

structure Response where
  status : Nat
  body : Option (List UInt8)

/-- What a status is called. -/
def reasons : List (Nat × String) :=
  [(100, "Continue"), (101, "Switching Protocols"), (102, "Processing"), (103, "Early Hints"),
    (200, "OK"), (201, "Created"), (202, "Accepted"), (203, "Non Authoritative Information"),
    (204, "No Content"), (205, "Reset Content"), (206, "Partial Content"), (207, "Multi-Status"),
    (208, "Already Reported"), (226, "IM Used"), (300, "Multiple Choices"),
    (301, "Moved Permanently"), (302, "Found"), (303, "See Other"), (304, "Not Modified"),
    (305, "Use Proxy"), (307, "Temporary Redirect"), (308, "Permanent Redirect"),
    (400, "Bad Request"), (401, "Unauthorized"), (402, "Payment Required"), (403, "Forbidden"),
    (404, "Not Found"), (405, "Method Not Allowed"), (406, "Not Acceptable"),
    (407, "Proxy Authentication Required"), (408, "Request Timeout"), (409, "Conflict"),
    (410, "Gone"), (411, "Length Required"), (412, "Precondition Failed"),
    (413, "Payload Too Large"), (414, "URI Too Long"), (415, "Unsupported Media Type"),
    (416, "Range Not Satisfiable"), (417, "Expectation Failed"), (418, "I'm a teapot"),
    (421, "Misdirected Request"), (422, "Unprocessable Entity"), (423, "Locked"),
    (424, "Failed Dependency"), (425, "Too Early"), (426, "Upgrade Required"),
    (428, "Precondition Required"), (429, "Too Many Requests"),
    (431, "Request Header Fields Too Large"), (451, "Unavailable For Legal Reasons"),
    (500, "Internal Server Error"), (501, "Not Implemented"), (502, "Bad Gateway"),
    (503, "Service Unavailable"), (504, "Gateway Timeout"), (505, "HTTP Version Not Supported"),
    (506, "Variant Also Negotiates"), (507, "Insufficient Storage"), (508, "Loop Detected"),
    (510, "Not Extended"), (511, "Network Authentication Required")]

/-- A status in words. -/
def statusText (status : Nat) : String :=
  toString status ++ " " ++
    ((reasons.find? fun r => r.1 == status).map (·.2)).getD "<unknown status code>"

def isSuccess (status : Nat) : Bool := 200 ≤ status && status < 300

/-- What is wrong when the status is no success, in the words of the backend if it has any. -/
def refusal (status : Nat) (detail : Option String) : ApiError :=
  match status with
  | 401 => .rejected .unauthorized
  | 403 => .rejected .forbidden
  | 404 => .notFound (detail.getD "Resource not found")
  | 400 | 409 | 422 => .badRequest (detail.getD "Bad request")
  | _ =>
    if 500 ≤ status && status < 600 then
      .serverError (detail.getD ("Server error: " ++ statusText status))
    else .invalidResponse ("Unexpected status code: " ++ statusText status)

/-- The words in a value: its `detail`, or the messages in a list of them. -/
def detailOf? (value : Json) : Option String :=
  match value.get? "detail" with
  | some (.string text) => some text
  | some (.array items) =>
    let messages := items.filterMap fun item =>
      match item.get? "msg" with
      | some (.string text) => some text
      | _ => none
    if messages.isEmpty then none else some ("; ".intercalate messages)
  | _ => none

namespace Response

/-- The words in a body. -/
def detail? (r : Response) : Option String :=
  let text := (Text.Octets.read (r.body.getD [])).lossy
  (Json.ofString? text).bind detailOf?

/-- What a response brings, read as `read` does. -/
def decode {α : Type} (read : Json.Raw → Option α) (r : Response) : Except ApiError α :=
  if isSuccess r.status then
    match r.body.bind fun bytes => (Json.Raw.read? (Text.Octets.read bytes)).bind read with
    | some value => .ok value
    | none =>
      .error (.invalidResponse "Failed to parse response: error decoding response body")
  else .error (refusal r.status r.detail?)

end Response

/-- Only the status decides whether a credential is turned away. -/
theorem isRejection_refusal (status : Nat) (detail : Option String) :
    (refusal status detail).isRejection = (status == 401 || status == 403) := by
  unfold refusal
  split <;> try rfl
  split <;> simp_all [ApiError.isRejection]

end SessionGuard.Http
