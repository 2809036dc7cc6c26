import SessionGuard.App.Operation

/-!
# Scripts

A `Script` says in advance what the backend answers: for each endpoint the replies to its calls,
in their order.  A call that the script says nothing about fails.
-/

namespace SessionGuard

/-- Where a call goes. -/
inductive Endpoint
  | login
  | currentUser
  | registerUser
  | recoverPassword
  | resetPassword
  deriving DecidableEq

def Call.endpoint : Call → Endpoint
  | login _ => .login
  | currentUser _ => .currentUser
  | registerUser _ => .registerUser
  | recoverPassword _ => .recoverPassword
  | resetPassword _ => .resetPassword

/-- A reply, and what has to happen before it is given. -/
structure ScriptedReply where
  /-- The name of the release that is waited for. -/
  hold : Option String
  /-- The milliseconds that pass after it. -/
  delay : Nat
  /-- What is answered then, if anything ever is. -/
  reply : Option Reply

/-- The reply to a call that the script says nothing about. -/
def ScriptedReply.unscripted : ScriptedReply :=
  ⟨none, 0, some (.failed (.network "no reply scripted"))⟩

/-- The replies that are left, by the endpoint they are for. -/
abbrev Script := List (Endpoint × ScriptedReply)

namespace Script

/-- The first reply for an endpoint, and the script without it. -/
def take? (e : Endpoint) : Script → Option (ScriptedReply × Script)
  | [] => none
  | (f, r) :: rest =>
    if f = e then some (r, rest)
    else (take? e rest).map fun (found, left) => (found, (f, r) :: left)

/-- The reply to the next call of an endpoint, and the script after it. -/
def next (s : Script) (e : Endpoint) : ScriptedReply × Script :=
  (s.take? e).getD (.unscripted, s)

end Script

end SessionGuard
