import SessionGuard.Proofs.Backend.Course

/-!
# Where a recovery goes

A recovery asks for one segment behind the path of the call, in which the email address is written with
percent signs; the segment has neither tabs nor line breaks (`url_recoverPassword`).  So the address is
read again from the segment exactly if it has none of them inside (`recovery_addresses_email_iff`).
-/

namespace SessionGuard.Backend

open Http (Delivery)
open Url (Origin segment unbroken)

variable {o : Origin} {host : Host} {email : String}

/-! ## Requests -/

/-- The request of a call at an origin, if its address can stand in one; nobody is named in it but by
a token. -/
theorem request_of_url {api : String} {call : Call} {path : List String} (h : o.Names host)
    (hurl : url api call = .ok (addressAt o host path))
    (hcall : ∀ token, call ≠ .currentUser token) :
    request api call =
      if isSendable (addressAt o host path) then
        .ok ⟨method call, addressAt o host path, body? call, none⟩
      else .error (unbuildableFor (addressAt o host path)) := by
  generalize hu : addressAt o host path = u at hurl
  have hhost : u.hasHost = true := by
    simp [← hu, Url.hasHost, addressAt, Url.isEmpty_of_ofText? h.host]
  have hscheme : (u.scheme ≠ "http" && u.scheme ≠ "https") = false := by
    rcases h.scheme with hs | hs <;> simp [← hu, addressAt, hs]
  have hanonymous : u.anonymous = u := by simp [← hu, Url.anonymous, addressAt]
  have hauthorization : authorization u call = none := by
    unfold authorization
    split
    · next token => exact absurd rfl (hcall token)
    · simp [← hu, addressAt]
  unfold request
  simp only [hurl, bind, Except.bind, hhost, hanonymous, hauthorization, hscheme, Option.all_none,
    Bool.not_true, Bool.false_eq_true, if_false, Bool.false_or]
  cases isSendable u <;> rfl

/-- One attempt sends the request of its call, if there is one. -/
theorem Attempt.map_sent_singleton {api : String} (t : Attempt api) :
    (Attempt.sent [t]).map (·.1) = (request api t.call).toOption.toList := by
  cases t with
  | unmade call e h => simp [Attempt.sent, Attempt.sent?, Attempt.call, h, Except.toOption]
  | made call r h d => simp [Attempt.sent, Attempt.sent?, Attempt.call, h, Except.toOption]

/-- A recovery asks once, if there is a request for it. -/
theorem requests_recover {api : String} (hemail : Form.checkEmail email = .ok ())
    (settings : Settings) (now : Int) (a : App) (ds : List Delivery) :
    (run settings api now (.recover email) a).requests ds =
      (request api (.recoverPassword (Text.trim email))).toOption.toList := by
  obtain ⟨ts, hsent, hserved⟩ :=
    served_of_ends_run ((run settings api now (.recover email) a).ends_transcript ds)
  have hcheck : (Operation.recover email).check? = some (.ok ()) := congrArg some hemail
  have hcourse := course_of_served hcheck hserved
  cases hcourse with
  | @recover _ t hc =>
    rw [Http.Exchange.requests_eq_map_transcript, hsent, Attempt.map_sent_singleton, hc]

/-! ## The whole -/

/-- Where the backend is at an origin, a recovery with a fit email address sends one request to the
base and one segment behind the path of the call, unless the address cannot stand in a request.  The
segment is read as the email address without its tabs and line breaks, so as the email address itself
exactly if there are none inside; and two email addresses are asked for at the same address exactly if
they differ in no more than that. -/
theorem recovery_addresses_email_iff (h : o.Names host) (slashes : Nat) :
    Url.ofText? (base (o.setting slashes)) = .ok (addressAt o host ["api", "v1"]) ∧
    (∀ email, Form.checkEmail email = .ok () → ∃ segment : List Char,
      let u := addressAt o host ["api", "v1", "password-recovery", String.ofList segment]
      url (o.setting slashes) (.recoverPassword (Text.trim email)) = .ok u ∧
      u.text = (addressAt o host ["api", "v1"]).text ++ "/password-recovery/" ++
        String.ofList segment ∧
      (∀ c ∈ segment, c ∉ ['/', '\\', '?', '#']) ∧
      (∀ settings now a ds, (run settings (o.setting slashes) now (.recover email) a).requests ds =
        if isSendable u then [⟨.post, u, none, none⟩] else []) ∧
      Text.Percent.decode segment = Text.Octets.ofString (unbroken (Text.trim email)) ∧
      (Text.Percent.decode segment = Text.Octets.ofString (Text.trim email) ↔
        ∀ c ∈ (Text.trim email).toList, c ≠ '\t' ∧ c ≠ '\n' ∧ c ≠ '\r')) ∧
    ∀ email email', Form.checkEmail email = .ok () → Form.checkEmail email' = .ok () →
      (url (o.setting slashes) (.recoverPassword (Text.trim email)) =
          url (o.setting slashes) (.recoverPassword (Text.trim email')) ↔
        unbroken (Text.trim email) = unbroken (Text.trim email')) := by
  refine ⟨ofText?_base h slashes, fun email hemail => ?_, fun email email' hemail hemail' => ?_⟩
  · have hurl := url_recoverPassword h slashes (Form.checkEmail_eq_ok_iff.1 hemail)
    have hdecode := Url.decode_segment (Text.trim email)
    have htext := text_addressAt o host ["password-recovery", String.ofList (segment (Text.trim email))]
    refine ⟨segment (Text.trim email), hurl, ?_, fun c hc hmem => ?_,
      fun settings now a ds => ?_, hdecode, ?_⟩
    · rw [htext, ← String.toList_inj]
      simp
    · have hends : ∀ c ∈ ['/', '\\', '?', '#'], Url.inSegment true c = true ∧
          c ≠ '%' ∧ ∀ n < 16, c ≠ Text.Percent.hexDigit n := Text.forall_mem_of_all (by decide)
      obtain ⟨hin, hne⟩ := hends c hmem
      exact Url.not_mem_segment hin hne hc
    · rw [requests_recover hemail, request_of_url h hurl (by simp)]
      split <;> rfl
    · rw [hdecode, Text.Octets.ofString_inj, Url.unbroken_eq_self_iff]
  · rw [url_recoverPassword h slashes (Form.checkEmail_eq_ok_iff.1 hemail),
      url_recoverPassword h slashes (Form.checkEmail_eq_ok_iff.1 hemail'), ← Url.segment_inj]
    simp [addressAt, ← String.toList_inj]

/-- Neither dots and slashes nor a query lead a recovery away from its segment. -/
theorem recovery_addresses_awkward_email :
    let o : Origin := ⟨"https", "api.example.com".toList, some "8443".toList⟩
    let email := " ../%2E?a=1#\\é@c.d "
    o.Names (.name "api.example.com") ∧ Form.checkEmail email = .ok () ∧
      ∃ segment : List Char, url (o.setting 2) (.recoverPassword (Text.trim email)) =
          .ok (addressAt o (.name "api.example.com")
            ["api", "v1", "password-recovery", String.ofList segment]) ∧
        Text.Percent.decode segment = Text.Octets.ofString "../%2E?a=1#\\é@c.d" := by
  intro o email
  have hnames : o.Names (.name "api.example.com") :=
    ⟨.inr rfl, .bare (Text.forall_mem_of_all (by decide)), by decide +kernel,
      by rintro _ ⟨⟩; exact ⟨by decide, Text.forall_mem_of_all (by decide)⟩,
      by rintro _ ⟨⟩; decide⟩
  have hemail : Form.checkEmail email = .ok () := by decide +kernel
  obtain ⟨-, hall, -⟩ := recovery_addresses_email_iff hnames 2
  obtain ⟨segment, hurl, -, -, -, -, hdecode⟩ := hall email hemail
  have htrim : Text.trim email = "../%2E?a=1#\\é@c.d" := by decide +kernel
  rw [htrim] at hurl hdecode
  rw [htrim]
  exact ⟨hnames, hemail, segment, hurl, hdecode.2 (Text.forall_mem_of_all (by decide))⟩

/-- A tab inside an email address is lost: two people that differ in it are asked for alike. -/
theorem recovery_loses_tab :
    Form.checkEmail "a\tb@c.d" = .ok () ∧ Form.checkEmail "ab@c.d" = .ok () ∧
      Text.trim "a\tb@c.d" ≠ Text.trim "ab@c.d" ∧
      url "http://h" (.recoverPassword (Text.trim "a\tb@c.d")) =
        url "http://h" (.recoverPassword (Text.trim "ab@c.d")) ∧
      ∃ u, url "http://h" (.recoverPassword (Text.trim "a\tb@c.d")) = .ok u ∧
        u.text = "http://h/api/v1/password-recovery/ab@c.d" := by
  refine ⟨by decide +kernel, by decide +kernel, by decide +kernel, by decide +kernel,
    addressAt ⟨"http", ['h'], none⟩ (.name "h") ["api", "v1", "password-recovery", "ab@c.d"],
    by decide +kernel, by decide +kernel⟩

end SessionGuard.Backend
