import SessionGuard.Proofs.Auth.AllOrNothing
import SessionGuard.Proofs.Backend.Course
import SessionGuard.Proofs.Http.Refusal

/-!
# Who signs the user out

An auth action that is taken through its calls ends with the first one that fails, in the error of
that one, or in a success (`Completes`).  So a response of 401 or 403 signs the user out and nothing
else does, whatever the body says (`signs_out_iff_refused`).
-/

namespace SessionGuard

open Http (Delivery Exchange Request Response)

/-- A value is what a call asks for. -/
def Call.Admits : Call → Json.Raw → Prop
  | .login _, raw => (AccessToken.ofRaw? raw).isSome
  | .currentUser _, raw | .registerUser _, raw => (UserProfile.ofRaw? raw).isSome
  | .recoverPassword _, raw | .resetPassword _, raw => (Message.ofRaw? raw).isSome

/-- The body of a response, cut short or not, is not what a call asks for. -/
def Call.Garbled (call : Call) (response : Response) : Prop :=
  ∀ bytes raw, response.body = some bytes →
    Json.Raw.read? (Text.Octets.read bytes) = some raw → ¬ call.Admits raw

namespace App

variable {settings : Settings} {op : Operation} {on : Waiting} {reply : Reply} {a b : App}
  {o : Outcome}

theorem Agrees.signsOut_iff {a' : App} (h : a'.Agrees a) (hh : a'.history = a.history) :
    a'.SignsOut b ↔ a.SignsOut b := by
  obtain ⟨session, store, history, calls⟩ := a
  obtain ⟨session', store', history', calls'⟩ := a'
  obtain ⟨rfl, rfl⟩ := h
  obtain rfl := hh
  exact ⟨fun ⟨hs, hg, hc, ht, hh⟩ => ⟨hs, hg, hc, ht, hh⟩,
    fun ⟨hs, hg, hc, ht, hh⟩ => ⟨hs, hg, hc, ht, hh⟩⟩

/-- Only a rejection signs the user out. -/
theorem Concludes.isRejection_of_signsOut (h : Concludes settings a on reply b o)
    (hs : a.SignsOut b) : ∃ err, o.error? = some err ∧ err.isRejection = true := by
  have hgeneration : ∀ c : App, c.session.generation = a.session.generation → ¬ a.SignsOut c :=
    fun c hc hs => by
      have := hs.generation
      omega
  cases h with
  | rejected he hr => exact ⟨_, he, hr⟩
  | fails | recovers => exact absurd hs (hgeneration _ rfl)
  | registers | resets => exact absurd hs (hgeneration _ rfl)
  | misses h => exact absurd hs (hgeneration _ (congrArg _ (notStored_of_signIn h).session))
  | signsIn h =>
    have hstate := (signsIn_of_signIn h).state.symm.trans hs.state
    cases hstate

/-- A failed call ends an auth action with its error. -/
theorem answer_failed (h : op.Passes settings on) (e : ApiError) (a : App) :
    ∃ o, a.answer settings on (.failed e) = (a.settleError (.ofApi e), .finished o) ∧
      o.error? = some (.ofApi e) ∧ op.Gives o := by
  cases h with
  | loginToken | loginUser => exact ⟨_, rfl, rfl, .login⟩
  | registering | signupToken | signupUser => exact ⟨_, rfl, rfl, .signup⟩
  | recovering => exact ⟨_, rfl, rfl, .recover⟩
  | resetting => exact ⟨_, rfl, rfl, .reset⟩

theorem isRejection_of_finishLogin {purpose : LoginPurpose} {token : Token} {user : UserProfile}
    (h : a.finishLogin purpose token user = (b, .finished o)) {err : AuthError}
    (he : o.error? = some err) : err.isRejection = false := by
  unfold finishLogin at h
  split at h
  · cases h
    rw [error?_loginOutcome_ok] at he
    cases he
  · cases h
    rw [error?_loginOutcome] at he
    cases he
    rfl

/-- No error but that of a failed call is a rejection. -/
theorem isRejection_of_answer (h : op.Passes settings on) (hr : ∀ e, reply ≠ .failed e)
    (ha : a.answer settings on reply = (b, .finished o)) {err : AuthError}
    (he : o.error? = some err) : err.isRejection = false := by
  cases reply with
  | failed e => exact absurd rfl (hr e)
  | token =>
    cases h with
    | loginToken | signupToken =>
      have := congrArg Prod.snd ha
      simp only [answer, await_snd] at this
      cases this
    | _ => cases ha
  | user user =>
    cases h with
    | loginUser | signupUser => exact isRejection_of_finishLogin ha he
    | registering hr =>
      simp only [answer] at ha
      split at ha
      · cases ha
        cases he
      · simp only [startLogin, Form.checkLogin_credentials hr] at ha
        have := congrArg Prod.snd ha
        rw [await_snd] at this
        cases this
    | _ => cases ha
  | message =>
    cases h with
    | recovering | resetting =>
      cases ha
      cases he
    | _ => cases ha

end App

namespace Backend

variable {settings : Settings} {host : String} {op : Operation} {on : Waiting} {a b : App}
  {o : Outcome}

/-! ## Failed calls -/

/-- What is said of a response that is no success but not read. -/
def unread : ApiError :=
  .invalidResponse "Failed to parse response: error decoding response body"

theorem decode_eq_error_iff {α : Type} (read : Json.Raw → Option α) {response : Response}
    {e : ApiError} : response.decode read = .error e ↔
      (Http.isSuccess response.status = false ∧
        e = Http.refusal response.status response.detail?) ∨
      (Http.isSuccess response.status = true ∧ e = unread ∧
        ∀ bytes raw, response.body = some bytes →
          Json.Raw.read? (Text.Octets.read bytes) = some raw → ¬ (read raw).isSome) := by
  unfold Response.decode
  split
  · next hs =>
    split
    · next value hv =>
      simp only [Option.bind_eq_some_iff] at hv
      obtain ⟨bytes, hb, raw, hraw, hread⟩ := hv
      simp only [hs, reduceCtorEq, false_and, true_and, false_or, false_iff, not_and, not_forall]
      exact fun _ => ⟨bytes, raw, hb, hraw, by simp [hread]⟩
    · next hv =>
      simp only [Except.error.injEq, hs, reduceCtorEq, false_and, true_and, false_or]
      refine ⟨fun h => ⟨h.symm, fun bytes raw hb hraw => ?_⟩, fun h => h.1.symm⟩
      simpa [hb, hraw] using hv
  · next hs =>
    have hs := Bool.eq_false_iff.2 hs
    simp only [Except.error.injEq, hs, true_and, reduceCtorEq, false_and, or_false]
    exact eq_comm

/-- A call fails with a response that is no success, or does not hold what it asks for. -/
theorem replyOf_eq_failed_iff {call : Call} {response : Response} {e : ApiError} :
    replyOf call response = .failed e ↔
      (Http.isSuccess response.status = false ∧
        e = Http.refusal response.status response.detail?) ∨
      (Http.isSuccess response.status = true ∧ e = unread ∧ call.Garbled response) := by
  unfold replyOf
  cases call with
  | login =>
    refine Iff.trans ?_ (decode_eq_error_iff AccessToken.ofRaw?)
    simp only
    split <;> simp [*]
  | currentUser | registerUser =>
    refine Iff.trans ?_ (decode_eq_error_iff UserProfile.ofRaw?)
    simp only
    split <;> simp [*]
  | recoverPassword | resetPassword =>
    refine Iff.trans ?_ (decode_eq_error_iff Message.ofRaw?)
    simp only
    split <;> simp [*]

/-- A call for which there is no request has not been turned away. -/
theorem isRejection_of_request {call : Call} {e : ApiError} (h : request host call = .error e) :
    e.isRejection = false := by
  unfold request at h
  cases hu : url host call with
  | error e' =>
    rw [hu] at h
    cases h
    unfold url at hu
    cases call with
    | recoverPassword =>
      simp only at hu
      split at hu
      · cases hu
        rfl
      · split at hu <;> cases hu
        rfl
    | _ =>
      simp only at hu
      split at hu <;> cases hu
      rfl
  | ok full =>
    rw [hu] at h
    simp only [bind, Except.bind] at h
    split at h
    · cases h
      rfl
    · split at h
      · cases h
        rfl
      · split at h <;> cases h
        rfl

namespace Attempt

/-- The credentials of a call are turned away: it is answered with 401 or 403. -/
def Refused (t : Attempt host) : Prop :=
  ∃ r response, t.sent? = some (r, .answered response) ∧
    (response.status = 401 ∨ response.status = 403)

theorem refused_iff {t : Attempt host} :
    t.Refused ↔ ∃ e, t.reply = .failed e ∧ e.isRejection = true := by
  have hrefusal : ∀ response : Response,
      (Http.refusal response.status response.detail?).isRejection = true ↔
        response.status = 401 ∨ response.status = 403 := fun response => by
    simp [Http.isRejection_refusal]
  constructor
  · rintro ⟨r, response, hs, hstatus⟩
    refine ⟨Http.refusal response.status response.detail?, ?_, (hrefusal response).2 hstatus⟩
    have hfail : Http.isSuccess response.status = false := by
      rcases hstatus with h | h <;> rw [h] <;> rfl
    cases t with
    | unmade => cases hs
    | made call _ _ d =>
      cases hs
      exact replyOf_eq_failed_iff.2 (.inl ⟨hfail, rfl⟩)
  · rintro ⟨e, he, hr⟩
    cases t with
    | unmade call e' h =>
      cases he
      rw [isRejection_of_request h] at hr
      cases hr
    | made call r h d =>
      cases d with
      | refused | dropped =>
        cases he
        cases hr
      | answered response =>
        rcases replyOf_eq_failed_iff.1 he with ⟨-, rfl⟩ | ⟨-, rfl, -⟩
        · exact ⟨r, response, rfl, (hrefusal response).1 hr⟩
        · cases hr

end Attempt

/-! ## Whole actions -/

/-- Attempts take an auth action to its end. -/
structure Completes (op : Operation) (a : App) (ts : List (Attempt host)) (b : App)
    (o : Outcome) : Prop where
  gives : op.Gives o
  failed : ∀ t ∈ ts, ∀ e, t.reply = .failed e → o.error? = some (.ofApi e)
  signsOut : a.SignsOut b ↔ ∃ t ∈ ts, t.Refused
  unchanged : ∀ err, o.error? = some err → err.isRejection = false →
    (∀ cause, err ≠ .storage cause) → b.Agrees a ∧ b.history = a.history

/-- What a wait does to the application has no part in how the action ends. -/
theorem Completes.of_agrees {a' : App} {ts : List (Attempt host)} (h : Completes op a' ts b o)
    (ha : a'.Agrees a) (hh : a'.history = a.history) : Completes op a ts b o where
  gives := h.gives
  failed := h.failed
  signsOut := (ha.signsOut_iff hh).symm.trans h.signsOut
  unchanged := by
    intro err he hr hs
    obtain ⟨hb, hb'⟩ := h.unchanged err he hr hs
    exact ⟨hb.trans ha, hb'.trans hh⟩

theorem Completes.cons {t : Attempt host} {ts : List (Attempt host)} (h : Completes op a ts b o)
    (ht : ∀ e, t.reply ≠ .failed e) : Completes op a (t :: ts) b o where
  gives := h.gives
  failed := by
    rintro t' (_ | ⟨_, hmem⟩) e he
    · exact absurd he (ht e)
    · exact h.failed t' hmem e he
  signsOut := by
    have hrefused : ¬ t.Refused := by
      rw [Attempt.refused_iff]
      rintro ⟨e, he, -⟩
      exact ht e he
    simp [h.signsOut, hrefused]
  unchanged := h.unchanged

/-- The answer that ends an auth action is a failure or no rejection. -/
theorem completes_of_answer {t : Attempt host} (hp : op.Passes settings on)
    (ha : a.answer settings on t.reply = (b, .finished o))
    (hc : App.Concludes settings a on t.reply b o) (hg : op.Gives o) :
    Completes op a [t] b o := by
  have hfailed : ∀ e, t.reply = .failed e → o.error? = some (.ofApi e) := by
    intro e he
    obtain ⟨o', ho, herr, -⟩ := App.answer_failed hp e a
    rw [he, ho] at ha
    cases ha
    exact herr
  refine ⟨hg, by simpa using hfailed, ?_, fun err he hr hs => ?_⟩
  · simp only [List.mem_singleton, exists_eq_left, Attempt.refused_iff]
    constructor
    · intro hs
      obtain ⟨err, herr, hr⟩ := hc.isRejection_of_signsOut hs
      by_cases hno : ∀ e, t.reply ≠ .failed e
      · rw [App.isRejection_of_answer hp hno ha herr] at hr
        cases hr
      · obtain ⟨e, he⟩ := not_forall_not.1 hno
        cases (hfailed e he).symm.trans herr
        exact ⟨e, he, by simpa using hr⟩
    · rintro ⟨e, he, hr⟩
      exact hc.signsOut_of_error? (hfailed e he) (by simpa using hr)
  · rw [hc.eq_of_error? he hr hs]
    exact ⟨.refl a, rfl⟩

/-- Whatever becomes of its requests, an auth action that waits is taken to its end. -/
theorem completes_of_served {ts : List (Attempt host)} {p : App × Progress}
    (hp : op.Passes settings on) (h : Served settings host (a, .waiting on) ts p) :
    ∃ b o, p = (b, .finished o) ∧ Completes op a ts b o := by
  generalize hq : (a, Progress.waiting on) = q at h
  induction h generalizing a on with
  | ended => cases hq
  | idle hnone =>
    cases hq
    cases hp <;> cases hnone
  | @asked a on t ts p hcall hrest ih =>
    obtain ⟨rfl, h⟩ := Prod.mk.inj hq
    cases h
    rcases App.answer_of_passes hp t.reply a with ha | ⟨on', hn, ha⟩ | ⟨b, o, ha, hc, hg⟩
    · -- a reply to the call of the wait is one that the wait is over with
      have hn := App.next_of_fits hcall t.fits (by rw [ha])
      exact absurd hn.callsLeft_lt (Nat.lt_irrefl _)
    · have hwait : a.answer settings on t.reply = ((a.await on').1, .waiting on') := by
        rw [ha, ← App.await_snd on' a]
      obtain ⟨b, o, rfl, hcompletes⟩ := ih (hp.next hn) hwait.symm
      refine ⟨b, o, rfl, (hcompletes.of_agrees (App.agrees_await on' a)
        (App.history_await on' a)).cons fun e he => ?_⟩
      obtain ⟨o', ho', -⟩ := App.answer_failed hp e a
      rw [he, ho'] at hwait
      cases congrArg Prod.snd hwait
    · rw [ha] at hrest
      obtain ⟨rfl, rfl⟩ := hrest.of_finished
      exact ⟨b, o, rfl, completes_of_answer hp ha hc hg⟩

/-- A response fails a call with an error that is not in the body but for its words. -/
structure Fails (call : Call) (response : Response) (e : ApiError) : Prop where
  reply : replyOf call response = .failed e
  kind : ∀ call' response' e', response'.status = response.status →
    replyOf call' response' = .failed e' →
      e'.kind = e.kind ∧ (AuthError.ofApi e').kind = (AuthError.ofApi e).kind
  said : ∀ standard words, Http.standardWords? response.status = some standard →
    response.Says words → e.words = words
  unsaid : ∀ standard, Http.standardWords? response.status = some standard →
    (∀ words, ¬ response.Says words) → e.words = standard
  fixed : Http.standardWords? response.status = none →
    ∀ call' response' e', response'.status = response.status →
      replyOf call' response' = .failed e' → e' = e

theorem fails_of_not_success (call : Call) {response : Response}
    (hs : Http.isSuccess response.status = false) :
    Fails call response (Http.refusal response.status response.detail?) := by
  obtain ⟨hwords, hfixed⟩ := Http.refusal_eq response.status response.detail?
  have hrefusal : ∀ call' (response' : Response) e', response'.status = response.status →
      replyOf call' response' = .failed e' →
        e' = Http.refusal response.status response'.detail? := by
    intro call' response' e' hstatus he
    rcases replyOf_eq_failed_iff.1 he with ⟨-, rfl⟩ | ⟨hs', -⟩
    · rw [hstatus]
    · rw [hstatus, hs] at hs'
      cases hs'
  refine ⟨replyOf_eq_failed_iff.2 (.inl ⟨hs, rfl⟩), fun call' response' e' hstatus he => ?_,
    fun standard words hst htold => ?_, fun standard hst hno => ?_,
    fun hst call' response' e' hstatus he => ?_⟩
  · obtain rfl := hrefusal call' response' e' hstatus he
    have hkind := Http.kind_refusal response.status response'.detail? response.detail?
    exact ⟨hkind, AuthError.kind_ofApi hkind⟩
  · rw [hwords standard hst, Http.Response.detail?_eq_some_iff.2 htold, Option.getD_some]
  · have hnone : response.detail? = none := by
      cases hd : response.detail? with
      | none => rfl
      | some words => exact absurd (Http.Response.detail?_eq_some_iff.1 hd) (hno words)
    rw [hwords standard hst, hnone, Option.getD_none]
  · obtain rfl := hrefusal call' response' e' hstatus he
    exact hfixed hst _

/-- Only a 401 or a 403 signs the user out, and always does.  Whatever becomes of the requests of a
login, a signup, a recovery or a reset, the action ends; it has signed the user out just if one of
its requests was answered with 401 or 403, and it ends in the error of a call that failed.  A
success that does not hold what was asked for is an unreachable backend and changes nothing.  What a
response that is no success means is in its status; for a status that has standard words the body
says what the error says, if it says anything, and for the others it has no part in the error. -/
theorem signs_out_iff_refused (settings : Settings) (host : String) (now : Int) (op : Operation)
    (check : Except FormError Unit) (a : App) (ds : List Delivery)
    (hop : op.check? = some check) :
    let action := run settings host now op a
    (∃ (ts : List (Attempt host)) (b : App) (o : Outcome),
      action.transcript ds = Attempt.sent ts ∧ action.result ds = (b, .finished o) ∧
      (check = .ok () → Course settings.signupPolicy op ts) ∧ op.Gives o ∧
      (a.SignsOut b ↔ ∃ r response, (r, .answered response) ∈ action.transcript ds ∧
        (response.status = 401 ∨ response.status = 403)) ∧
      (∀ t ∈ ts, ∀ e, t.reply = .failed e → o.error? = some (.ofApi e)) ∧
      (∀ t ∈ ts, ∀ r response, t.sent? = some (r, .answered response) →
        Http.isSuccess response.status = true → t.call.Garbled response →
          (∃ words, o.error? = some (.unreachable words)) ∧ b.Agrees a ∧
            b.history = a.history)) ∧
    ∀ call (response : Response), Http.isSuccess response.status = false →
      ∃ e, Fails call response e := by
  intro action
  refine ⟨?_, fun call response hs => ⟨_, fails_of_not_success call hs⟩⟩
  obtain ⟨ts, hsent, hserved⟩ := served_of_ends_run (Exchange.ends_transcript action ds)
  have hcompletes : ∃ b o, action.result ds = (b, .finished o) ∧ Completes op a ts b o := by
    rcases App.start_of_check settings hop now a with
      ⟨cause, o, -, hstart, he, hg⟩ | ⟨on, -, hopens, hstart⟩
    · rw [hstart] at hserved
      obtain ⟨rfl, hp⟩ := hserved.of_finished
      refine ⟨a, o, hp, hg, by simp, ⟨fun hs => ?_, by simp⟩, fun _ _ _ _ => ⟨.refl a, rfl⟩⟩
      have := hs.generation
      omega
    · have hwait : a.await on = ((a.await on).1, .waiting on) := Prod.ext rfl (App.await_snd on a)
      rw [hstart, hwait] at hserved
      obtain ⟨b, o, hp, h⟩ := completes_of_served (hopens.passes hop) hserved
      exact ⟨b, o, hp, h.of_agrees (App.agrees_await on a) (App.history_await on a)⟩
  obtain ⟨b, o, hp, h⟩ := hcompletes
  refine ⟨ts, b, o, hsent, hp, ?_, h.gives, ?_, h.failed, ?_⟩
  · rintro rfl
    exact course_of_served hop hserved
  · rw [h.signsOut, hsent, Attempt.sent]
    simp only [List.mem_filterMap, Attempt.Refused]
    constructor
    · rintro ⟨t, ht, r, response, hs, hstatus⟩
      exact ⟨r, response, ⟨t, ht, hs⟩, hstatus⟩
    · rintro ⟨r, response, ⟨t, ht, hs⟩, hstatus⟩
      exact ⟨t, ht, r, response, hs, hstatus⟩
  · intro t ht r response hs hsuccess hgarbled
    have hreply : t.reply = .failed unread := by
      cases t with
      | unmade => cases hs
      | made call _ _ d =>
        cases hs
        exact replyOf_eq_failed_iff.2 (.inr ⟨hsuccess, rfl, hgarbled⟩)
    have herr := h.failed t ht unread hreply
    exact ⟨⟨_, herr⟩, h.unchanged _ herr rfl (App.ofApi_ne_storage unread)⟩

/-- A member who signs up is signed out with the third call: the backend gives a token and does not
know it.  The body of its answer is not even a text. -/
theorem signs_out_new_member :
    let settings : Settings := ⟨10000, true, .autoLogin⟩
    let a := App.starting (.memory (some ⟨"old"⟩)) .landing
    let r : Registration := ⟨"a@b.com", "longenough", none⟩
    let reply := fun (status : Nat) (body : String) =>
      Delivery.answered ⟨status, some body.toUTF8.toList⟩
    let ds := [reply 200 "\x7b\"id\": \"u1\", \"email\": \"a@b.com\"\x7d",
      reply 200 "\x7b\"access_token\": \"t\"\x7d", .answered ⟨401, some [0xff, 0x7b]⟩]
    let action := run settings "http://localhost:8000" 0 (.signup r) a
    Operation.check? (.signup r) = some (.ok ()) ∧ a.SignsOut (action.result ds).1 := by
  intro settings a r reply ds action
  have hop : Operation.check? (.signup r) = some (.ok ()) := by decide +kernel
  obtain ⟨⟨ts, b, o, -, hp, -, -, hiff, -⟩, -⟩ :=
    signs_out_iff_refused settings "http://localhost:8000" 0 (.signup r) (.ok ()) a ds hop
  have hlast : ((action.transcript ds).filterMap fun
      | (_, .answered response) => some response.status
      | _ => none) = [200, 200, 401] := by decide +kernel
  have hmem : 401 ∈ [200, 200, 401] := by simp
  rw [← hlast, List.mem_filterMap] at hmem
  obtain ⟨⟨r, d⟩, hmem, hstatus⟩ := hmem
  refine ⟨hop, ?_⟩
  rw [hp]
  cases d with
  | refused | dropped => cases hstatus
  | answered response => exact hiff.2 ⟨r, response, hmem, .inl (Option.some.inj hstatus)⟩

/-- The words of a body are not those of the error where the status has words of its own. -/
theorem refused_in_words_of_its_own :
    let reply := fun (status : Nat) =>
      (⟨status, some "\x7b\"detail\": \"nope\"\x7d".toUTF8.toList⟩ : Response)
    (reply 401).Says "nope" ∧
      replyOf (.currentUser ⟨"t"⟩) (reply 401) = .failed (.rejected .unauthorized) ∧
      (ApiError.rejected .unauthorized).words ≠ "nope" ∧
    (reply 418).Says "nope" ∧
      replyOf (.currentUser ⟨"t"⟩) (reply 418) =
        .failed (.invalidResponse "Unexpected status code: 418 I'm a teapot") := by
  intro reply
  have htold : ∀ status, (reply status).Says "nope" := fun status =>
    Http.Response.detail?_eq_some_iff.1 (by
      have h : (reply 0).detail? = some "nope" := by decide +kernel
      exact h)
  exact ⟨htold 401, replyOf_eq_failed_iff.2 (.inl ⟨rfl, by decide +kernel⟩), by decide +kernel,
    htold 418, replyOf_eq_failed_iff.2 (.inl ⟨rfl, by decide +kernel⟩)⟩

end Backend

end SessionGuard
