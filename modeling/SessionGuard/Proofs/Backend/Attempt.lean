import SessionGuard.Proofs.Backend.Bodies
import SessionGuard.Proofs.Http.Transcript
import SessionGuard.Proofs.Machine.Waits

/-!
# Attempts at calls

An operation makes its calls in attempts: a request for the call, if one can be made, and the reply
(`Backend.Attempt`).  Whatever becomes of the requests, `Backend.serve` takes an operation from each
wait to the next one with one attempt, until it ends (`Backend.Served`).
-/

namespace SessionGuard

/-- The replies that there are to a call. -/
inductive Reply.Fits : Call → Reply → Prop
  | failed {call e} : Fits call (.failed e)
  | token {c access} : Fits (.login c) (.token access)
  | user {token u} : Fits (.currentUser token) (.user u)
  | registered {r u} : Fits (.registerUser r) (.user u)
  | recovered {email m} : Fits (.recoverPassword email) (.message m)
  | reset {request m} : Fits (.resetPassword request) (.message m)

/-- How many calls an operation makes at most, from a wait on. -/
def Waiting.callsLeft : Waiting → Nat
  | .registering _ => 3
  | .loginToken .. => 2
  | .validating .. | .loginUser .. | .recovering _ | .resetting _ => 1
  | .resolving | .visiting _ => 0

theorem Waiting.callsLeft_le (on : Waiting) : on.callsLeft ≤ Backend.maxCalls := by
  cases on <;> simp [callsLeft, Backend.maxCalls]

theorem Waiting.Next.callsLeft_lt {settings : Settings} {on on' : Waiting} {reply : Reply}
    (h : on.Next settings reply on') : on'.callsLeft < on.callsLeft := by
  cases h <;> simp [callsLeft]

theorem Waiting.Next.callsLeft_pos {settings : Settings} {on on' : Waiting} {reply : Reply}
    (h : on.Next settings reply on') : 0 < on'.callsLeft := by
  cases h <;> simp [callsLeft]

/-- A reply that fits the call of a wait does not leave an operation waiting as before. -/
theorem App.next_of_fits {settings : Settings} {on on' : Waiting} {reply : Reply} {call : Call}
    {a : App} (hc : on.call? = some call) (hf : reply.Fits call)
    (h : (a.answer settings on reply).2 = .waiting on') : on.Next settings reply on' := by
  rcases App.next_of_answer h with rfl | hn
  · exfalso
    cases on' with
    | loginToken purpose c =>
      cases hc
      cases hf with
      | failed => cases h
      | token =>
        simp only [answer, await_snd] at h
        cases h
    | loginUser purpose token =>
      cases hc
      cases hf with
      | failed => cases h
      | @user _ u =>
        obtain ⟨o, ho⟩ := finishLogin_snd purpose token u a
        rw [answer, ho] at h
        cases h
    | registering r =>
      cases hc
      cases hf with
      | failed => cases h
      | registered =>
        simp only [answer] at h
        split at h
        · cases h
        · obtain ⟨-, hon⟩ := checkLogin_of_startLogin h
          cases hon
    | validating | recovering | resetting =>
      cases hc
      cases hf <;> cases h
    | resolving | visiting => cases hc
  · exact hn

namespace Backend

open Http (Delivery Exchange Request Response)

/-- An attempt at a call to the backend at a host: there is no request for it, or something becomes
of its request. -/
inductive Attempt (host : String)
  | unmade (call : Call) (e : ApiError) (h : request host call = .error e)
  | made (call : Call) (r : Request) (h : request host call = .ok r) (d : Delivery)

namespace Attempt

variable {host : String}

def call : Attempt host → Call
  | unmade call _ _ => call
  | made call _ _ _ => call

/-- The request of an attempt and what becomes of it. -/
def sent? : Attempt host → Option (Request × Delivery)
  | unmade .. => none
  | made _ r _ d => some (r, d)

def reply : Attempt host → Reply
  | unmade _ e _ => .failed e
  | made call r _ d => Backend.reply call r d

/-- The requests of attempts, each with what becomes of it. -/
def sent (ts : List (Attempt host)) : List (Request × Delivery) := ts.filterMap sent?

@[simp] theorem sent_nil : sent ([] : List (Attempt host)) = [] := rfl

theorem sent_cons (t : Attempt host) (ts : List (Attempt host)) :
    sent (t :: ts) = t.sent?.toList ++ sent ts := by
  cases h : t.sent? <;> simp [sent, h]

theorem sent_append (ts us : List (Attempt host)) : sent (ts ++ us) = sent ts ++ sent us :=
  List.filterMap_append

/-- The request of an attempt is that of its call. -/
theorem request_of_sent? {t : Attempt host} {r : Request} {d : Delivery}
    (h : t.sent? = some (r, d)) : request host t.call = .ok r := by
  cases t with
  | unmade => cases h
  | made _ _ hr =>
    cases h
    exact hr

/-- The reply to an attempt that has no failure is in the response to its request. -/
theorem exists_response {t : Attempt host} (h : ∀ e, t.reply ≠ .failed e) :
    ∃ r response, t.sent? = some (r, .answered response) ∧
      t.reply = replyOf t.call response := by
  cases t with
  | unmade call e => exact absurd rfl (h e)
  | made call r hr d =>
    cases d with
    | refused | dropped => exact absurd rfl (h _)
    | answered response => exact ⟨r, response, rfl, rfl⟩

/-- An attempt sends a request whenever there can be one, and the request says what the call is: it goes
to the path of the call and carries its form, if it has one; only the one for the user of a token reads,
and only it shows the token. -/
structure Faithful (t : Attempt host) : Prop where
  sends : Addresses host t.call →
    (∀ token, t.call = .currentUser token → Http.isHeaderValue (Http.bearer token.text) = true) →
    ∃ r d, t.sent? = some (r, d)
  goes : ∀ r d, t.sent? = some (r, d) → Goes host t.call r.url
  goesAt : ∀ r d, t.sent? = some (r, d) → ∀ (o : Url.Origin) (name : Host) (slashes : Nat),
    o.Names name → host = o.setting slashes →
    (∀ email, t.call = .recoverPassword email → '@' ∈ email.toList) →
    r.url = addressAt o name ("api" :: "v1" :: t.call.segments)
  carries : ∀ r d, t.sent? = some (r, d) → ∀ body, r.body = some body → Carries t.call body
  fills : ∀ r d, t.sent? = some (r, d) → (r.body = none ↔
    (∃ token, t.call = .currentUser token) ∨ ∃ email, t.call = .recoverPassword email)
  reads : ∀ r d, t.sent? = some (r, d) → (r.method = .get ↔ ∃ token, t.call = .currentUser token)
  shows : ∀ r d, t.sent? = some (r, d) →
    ∀ text, r.authorization = some (Http.bearer text) ↔ t.call = .currentUser ⟨text⟩

theorem faithful (t : Attempt host) : t.Faithful := by
  refine ⟨fun ha ht => ?_, fun r d hs => goes_of_request (request_of_sent? hs),
    fun r d hs o name slashes hnames hhost hat => ?_,
    fun r d hs body hbody => carries_of_body? ((body_of_request (request_of_sent? hs)).symm.trans hbody),
    fun r d hs => ?_, fun r d hs => method_eq_get_iff (request_of_sent? hs),
    fun r d hs => authorization_eq_bearer_iff (request_of_sent? hs)⟩
  · obtain ⟨r, hr⟩ := exists_request ha ht
    cases t with
    | unmade call e he => exact nomatch he.symm.trans hr
    | made call r' hr' d => exact ⟨r', d, rfl⟩
  · subst hhost
    exact (goes_of_request (request_of_sent? hs)).eq_addressAt hnames hat
  · rw [body_of_request (request_of_sent? hs)]
    cases t.call <;> simp [body?]

end Attempt

/-! ## Replies -/

theorem fits_replyOf (call : Call) (response : Response) :
    (replyOf call response).Fits call := by
  cases call <;> unfold replyOf <;> simp only <;> split <;> constructor

theorem Attempt.fits {host : String} (t : Attempt host) : t.reply.Fits t.call := by
  by_cases h : ∀ e, t.reply ≠ .failed e
  · obtain ⟨r, response, -, hr⟩ := exists_response h
    rw [hr]
    exact fits_replyOf t.call response
  · obtain ⟨e, he⟩ := not_forall_not.1 h
    rw [he]
    exact .failed

/-! ## Operations -/

/-- An operation is taken from a wait to the next one with an attempt at the call that it waits for,
until it ends or waits for something else. -/
inductive Served (settings : Settings) (host : String) :
    App × Progress → List (Attempt host) → App × Progress → Prop
  | ended {a o} : Served settings host (a, .finished o) [] (a, .finished o)
  | idle {a on} (h : on.call? = none) : Served settings host (a, .waiting on) [] (a, .waiting on)
  | asked {a on t ts p} (hc : on.call? = some t.call)
      (h : Served settings host (a.answer settings on t.reply) ts p) :
      Served settings host (a, .waiting on) (t :: ts) p

variable {settings : Settings} {host : String}

theorem ends_ask {call : Call} {sent : List (Request × Delivery)} {reply : Reply}
    (h : (ask host call).Ends sent reply) :
    ∃ t : Attempt host, t.call = call ∧ t.reply = reply ∧ sent = t.sent?.toList := by
  unfold ask at h
  split at h
  · next e he =>
    obtain ⟨rfl, rfl⟩ := Exchange.ends_done h
    exact ⟨.unmade call e he, rfl, rfl, rfl⟩
  · next r hr =>
    cases h with
    | @send _ _ d _ _ h =>
      obtain ⟨rfl, rfl⟩ := Exchange.ends_done h
      exact ⟨.made call r hr d, rfl, rfl, rfl⟩

/-- With calls enough an operation is served to its end. -/
theorem served_of_ends {fuel : Nat} {p p' : App × Progress} {sent : List (Request × Delivery)}
    (hfuel : ∀ on, p.2 = .waiting on → on.callsLeft ≤ fuel)
    (h : (serve settings host fuel p).Ends sent p') :
    ∃ ts : List (Attempt host), sent = Attempt.sent ts ∧ Served settings host p ts p' := by
  induction fuel generalizing p sent with
  | zero =>
    obtain ⟨rfl, rfl⟩ := Exchange.ends_done h
    obtain ⟨a, progress⟩ := p'
    cases progress with
    | finished o => exact ⟨[], rfl, .ended⟩
    | waiting on =>
      have hnone : on.call? = none := by
        have := hfuel on rfl
        cases on <;> simp_all [Waiting.callsLeft, Waiting.call?]
      exact ⟨[], rfl, .idle hnone⟩
  | succ fuel ih =>
    obtain ⟨a, progress⟩ := p
    cases progress with
    | finished o =>
      obtain ⟨rfl, rfl⟩ := Exchange.ends_done h
      exact ⟨[], rfl, .ended⟩
    | waiting on =>
      simp only [serve] at h
      cases hc : on.call? with
      | none =>
        rw [hc] at h
        obtain ⟨rfl, rfl⟩ := Exchange.ends_done h
        exact ⟨[], rfl, .idle hc⟩
      | some call =>
        rw [hc] at h
        obtain ⟨first, rest, reply, hask, hrest, rfl⟩ := Exchange.ends_bind h
        obtain ⟨t, rfl, rfl, rfl⟩ := ends_ask hask
        obtain ⟨ts, rfl, hts⟩ := ih (fun on' hon' => by
          have := (App.next_of_fits hc t.fits hon').callsLeft_lt
          have := hfuel on rfl
          omega) hrest
        exact ⟨t :: ts, (Attempt.sent_cons t ts).symm, .asked hc hts⟩

theorem served_of_ends_run {now : Int} {op : Operation} {a : App} {p : App × Progress}
    {sent : List (Request × Delivery)} (h : (run settings host now op a).Ends sent p) :
    ∃ ts : List (Attempt host), sent = Attempt.sent ts ∧
      Served settings host (a.start settings now op) ts p :=
  served_of_ends (fun on _ => on.callsLeft_le) h

namespace Served

variable {a : App} {ts : List (Attempt host)} {p : App × Progress}

theorem of_finished {o : Outcome} (h : Served settings host (a, .finished o) ts p) :
    ts = [] ∧ p = (a, .finished o) := by
  cases h
  exact ⟨rfl, rfl⟩

theorem of_waiting {on : Waiting} {call : Call} (hc : on.call? = some call)
    (h : Served settings host (a, .waiting on) ts p) :
    ∃ t rest, ts = t :: rest ∧ t.call = call ∧
      Served settings host (a.answer settings on t.reply) rest p := by
  cases h with
  | idle hn => rw [hn] at hc; cases hc
  | @asked _ _ t rest _ ht h =>
    rw [hc] at ht
    cases ht
    exact ⟨t, rest, rfl, rfl, h⟩

theorem of_await (on : Waiting) {call : Call} (hc : on.call? = some call)
    (h : Served settings host (a.await on) ts p) :
    ∃ t rest, ts = t :: rest ∧ t.call = call ∧
      Served settings host ((a.record call).answer settings on t.reply) rest p := by
  simp only [App.await, hc] at h
  exact h.of_waiting hc

/-- The answer to the last call of an operation ends it. -/
theorem of_last (on : Waiting) {call : Call} {t : Attempt host} (hon : on.callsLeft = 1)
    (hcall : on.call? = some call) (hc : t.call = call)
    (h : Served settings host (a.answer settings on t.reply) ts p) :
    ts = [] ∧ p = a.answer settings on t.reply := by
  subst hc
  generalize ha : a.answer settings on t.reply = q at h
  obtain ⟨b, progress⟩ := q
  cases progress with
  | finished o => exact h.of_finished
  | waiting on' =>
    have hnext : on.Next settings t.reply on' := App.next_of_fits hcall t.fits (by rw [ha])
    have := hnext.callsLeft_lt
    have := hnext.callsLeft_pos
    omega

end Served

end Backend

end SessionGuard
