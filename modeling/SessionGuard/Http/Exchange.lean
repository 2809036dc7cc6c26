import SessionGuard.Http.Request
import SessionGuard.Http.Response

/-!
# Exchanges

An `Exchange` is a computation that sends requests, one after the other, and goes on with what
becomes of each.  Whoever runs it decides what that is.  A client that follows redirects does so
within one send: what becomes of a request is what it ends with.
-/

namespace SessionGuard.Http

/-- What becomes of a request. -/
inductive Delivery
  | refused
  /-- The connection was closed before a response came. -/
  | dropped
  | answered (response : Response)

inductive Exchange (α : Type) : Type
  | done (result : α)
  | send (request : Request) (next : Delivery → Exchange α)

namespace Exchange

variable {α β : Type}

/-- An exchange followed by another one. -/
def bind : Exchange α → (α → Exchange β) → Exchange β
  | done a, f => f a
  | send request next, f => send request fun d => (next d).bind f

instance : Monad Exchange where
  pure := done
  bind := bind

/-- Sends a request. -/
def request (r : Request) : Exchange Delivery := send r done

/-- Runs an exchange in which the state of `deliver` says what becomes of each request. -/
def run {σ : Type} (deliver : Request → σ → Delivery × σ) : Exchange α → σ → α × σ
  | done a, s => (a, s)
  | send request next, s =>
    let (d, s) := deliver request s
    (next d).run deliver s

/-- The result of an exchange with a backend that nobody can reach. -/
def offline : Exchange α → α
  | done a => a
  | send _ next => (next .refused).offline

/-- The requests of an exchange, given what becomes of each; what is not given is refused. -/
def requests : Exchange α → List Delivery → List Request
  | done _, _ => []
  | send request next, [] => request :: (next .refused).requests []
  | send request next, d :: ds => request :: (next d).requests ds

/-- The requests of an exchange, each with what becomes of it. -/
def transcript : Exchange α → List Delivery → List (Request × Delivery)
  | done _, _ => []
  | send request next, [] => (request, .refused) :: (next .refused).transcript []
  | send request next, d :: ds => (request, d) :: (next d).transcript ds

/-- The result of an exchange, given what becomes of its requests. -/
def result : Exchange α → List Delivery → α
  | done a, _ => a
  | send _ next, [] => (next .refused).result []
  | send _ next, d :: ds => (next d).result ds

@[simp] theorem pure_eq (a : α) : (pure a : Exchange α) = done a := rfl

@[simp] theorem done_bind (a : α) (f : α → Exchange β) : (done a >>= f) = f a := rfl

@[simp] theorem send_bind (r : Request) (next : Delivery → Exchange α) (f : α → Exchange β) :
    (send r next >>= f) = send r fun d => next d >>= f := rfl

theorem requests_eq_map_transcript (e : Exchange α) (ds : List Delivery) :
    e.requests ds = (e.transcript ds).map (·.1) := by
  induction e generalizing ds with
  | done a => rfl
  | send r next ih => cases ds <;> simp [requests, transcript, ih]

end Exchange

end SessionGuard.Http
