import SessionGuard.Credentials
import SessionGuard.Json.Record
import SessionGuard.Text.Base64
import SessionGuard.Text.Trim
import SessionGuard.Time

/-!
# When a token expires

A token of three parts may carry its claims in the middle one: a record, in Base64, whose field
`exp` is the moment the token expires.  Nothing is said of any other token; the backend judges it.
-/

namespace SessionGuard.Token

open Json (Raw)

/-- The middle one of the three parts of a token. -/
def claimsPart? (token : Token) : Option (List Char) :=
  match Text.splitAt '.' token.text.toList with
  | [_, claims, _] => some claims
  | _ => none

/-- The claims a token carries, padding at their end ignored. -/
def claims? (token : Token) : Option Raw := do
  let part ← token.claimsPart?
  let bytes ← Text.Base64.decode? (Text.dropTrailing (· == '=') part)
  Raw.read? (Text.Octets.read bytes)

/-- The moment of expiry that claims name, if it has a date. -/
def expiryOf? (claims : Raw) : Option Int := do
  match ← claims.fields? ["exp"] with
  | [exp] =>
    let moment ← Raw.required Raw.int64? exp
    if Time.first ≤ moment && moment ≤ Time.last then some moment else none
  | _ => none

/-- The moment a token expires, if it says so. -/
def expiry? (token : Token) : Option Int := token.claims?.bind expiryOf?

/-- How far clocks may differ, in seconds. -/
def leeway : Int := 30

/-- Whether a token has expired at a moment, or will before clocks can tell. -/
def isExpired (token : Token) (now : Int) : Bool :=
  match token.expiry? with
  | some moment => moment ≤ now + leeway
  | none => false

theorem isExpired_iff {token : Token} {now : Int} :
    token.isExpired now = true ↔ ∃ moment, token.expiry? = some moment ∧ moment ≤ now + leeway := by
  unfold isExpired
  cases token.expiry? <;> simp

end SessionGuard.Token
