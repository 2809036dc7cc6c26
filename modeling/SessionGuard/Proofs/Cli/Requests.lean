import SessionGuard.Proofs.Cli.Forms

/-!
# The requests of a run

A run asks the backend about the stored token first, and only if there is one that is not known to
have expired (`Cli.Judges`).  What else it asks is the course of the form that the command has
(`Cli.Conversation`); a command without a form asks nothing else, and most ask nothing at all.
-/

namespace SessionGuard

theorem Store.ne_empty_of_get? {path : String} {disk : Disk} {token : Token}
    (h : (Store.file path disk).get? = some token) : token.text ≠ "" := by
  simp only [get?, Option.bind_eq_some_iff, tokenOf?] at h
  obtain ⟨entries, -, h⟩ := h
  split at h
  · split at h
    · cases h
    · next hne =>
      cases h
      simpa using hne
  · cases h

namespace Cli

open Backend (Attempt Course Served)
open Http (Delivery Exchange Request)

variable {s : Surroundings} {o : Options} {disk : Disk} {d : Desk}

/-! ## Judging the stored token -/

/-- The attempt at the user of the stored token, if there is to be one, and the user it brings. -/
inductive Judges (d : Desk) : List (Attempt d.host) → Option UserProfile → Prop
  | unasked (h : ∀ token, ¬ d.app.Holds d.settings d.now token) : Judges d [] none
  | asked {token t verdict} (hheld : d.app.Holds d.settings d.now token) (hne : token.text ≠ "")
      (hc : t.call = .currentUser token)
      (hv : ∀ user, verdict = some user ↔ t.Brings UserProfile.ofRaw? user) : Judges d [t] verdict

theorem judges_of_resolves (hd : Desk.load s o disk = .ok d) {a b : App}
    {ts : List (Attempt d.host)} {verdict : Option UserProfile}
    (h : a.Resolves d.settings d.now ts verdict b) (ha : a.store = d.app.store) :
    Judges d ts verdict := by
  have hholds : ∀ token, a.Holds d.settings d.now token ↔ d.app.Holds d.settings d.now token :=
    fun token => by rw [App.Holds, App.Holds, ha]
  rcases h.asked with ⟨rfl, rfl, hno⟩ | ⟨token, t, hheld, rfl, hc, hv⟩
  · exact .unasked fun token ht => hno token ((hholds token).2 ht)
  · have hheld' := (hholds token).1 hheld
    refine .asked hheld' ?_ hc hv
    have hget := hheld'.1
    rw [Desk.store_of_load hd] at hget
    exact Store.ne_empty_of_get? hget

theorem Judges.unrepeated {ts : List (Attempt d.host)} {verdict : Option UserProfile}
    (h : Judges d ts verdict) :
    Backend.Unrepeated ts ∧ ∀ t ∈ ts, ∃ token, t.call = .currentUser token := by
  cases h with
  | unasked => exact ⟨.nil, by simp⟩
  | @asked token t _ hheld hne hc => exact ⟨Backend.unrepeated_singleton t, by simp [hc]⟩

/-! ## Conversations -/

/-- Whether a command judges the stored token: it has a form, or tells what the session is. -/
def Command.judges : Command → Bool
  | .status | .visit _ => true
  | command => command.form?.isSome

theorem cases_of_judges {command : Command} (h : command.judges = true) :
    command = .status ∨ (∃ path, command = .visit path) ∨ ∃ fill, command.form? = some fill := by
  cases command with
  | status => exact .inl rfl
  | visit path => exact .inr (.inl ⟨path, rfl⟩)
  | login | signup | recover | resetPassword => exact .inr (.inr ⟨_, rfl⟩)
  | _ => cases h

/-- What a command that judges the stored token asks, and how it ends for a member who asks for a
form for guests. -/
inductive Conversation (d : Desk) (disk : Disk) (command : Command) :
    List (Attempt d.host) → Ending → Prop
  | formless {ts verdict ending} (hc : command.form? = none) (h : Judges d ts verdict) :
      Conversation d disk command ts ending
  | member {fill ts user report} (hc : command.form? = some fill) (h : Judges d ts (some user)) :
      Conversation d disk command ts (disk, .ok report)
  | unfit {fill ts ending} (hc : command.form? = some fill) (h : Judges d ts none)
      (hf : ∀ op, fill = .ok op → op.check? ≠ some (.ok ())) : Conversation d disk command ts ending
  | fit {op ts us ending} (hc : command.form? = some (.ok op)) (h : Judges d ts none)
      (hop : op.check? = some (.ok ())) (hcourse : Course d.settings.signupPolicy op us) :
      Conversation d disk command (ts ++ us) ending

theorem Conversation.unrepeated {command : Command} {ts : List (Attempt d.host)} {ending : Ending}
    (h : Conversation d disk command ts ending) : Backend.Unrepeated ts := by
  cases h with
  | formless _ h | member _ h | unfit _ h => exact h.unrepeated.1
  | fit _ h _ hcourse => exact hcourse.unrepeated h.unrepeated.1 h.unrepeated.2

variable {command : Command} {sent : List (Request × Delivery)} {ending : Ending}

/-- The form of a command is that of an operation with a check. -/
theorem exists_check?_of_form {op : Operation} (hf : command.form? = some (.ok op)) :
    ∃ check, op.check? = some check := by
  cases command with
  | login email password =>
    cases email <;> cases password <;> cases hf
    exact ⟨_, rfl⟩
  | signup email fullName password =>
    cases password <;> cases hf
    exact ⟨_, rfl⟩
  | recover email =>
    cases hf
    exact ⟨_, rfl⟩
  | resetPassword token newPassword =>
    cases newPassword <;> cases hf
    exact ⟨_, rfl⟩
  | _ => cases hf

theorem conversation_of_form (hd : Desk.load s o disk = .ok d) {fill : Except Failure Operation}
    (hf : command.form? = some fill) (h : (command.run s o disk).Ends sent ending) :
    ∃ ts : List (Attempt d.host), sent = Attempt.sent ts ∧ Conversation d disk command ts ending := by
  obtain ⟨screen, report, hscreen, hrun, -⟩ := exists_run_eq_withForm hf s o disk
  rw [hrun] at h
  obtain ⟨ts, us, verdict, b, rfl, hr, hrest⟩ := ends_withForm hd hscreen h
  have hj : Judges d ts verdict := judges_of_resolves hd hr rfl
  rcases hrest with ⟨user, rfl, rfl, app, -, -, rfl⟩ | ⟨rfl, hfilled⟩
  · exact ⟨ts, by simp, .member hf hj⟩
  · cases hfilled with
    | lacking hlacks =>
      subst hlacks
      exact ⟨ts, by simp, .unfit hf hj nofun⟩
    | @performed op _ c progress hfill hserved =>
      subst hfill
      obtain ⟨check, hcheck⟩ := exists_check?_of_form hf
      cases check with
      | error cause =>
        obtain rfl := Backend.eq_nil_of_served hcheck hserved
        refine ⟨ts, by simp, .unfit hf hj ?_⟩
        rintro _ ⟨⟩
        simp [hcheck]
      | ok _ => exact ⟨ts ++ us, rfl, .fit hf hj hcheck (Backend.course_of_served hcheck hserved)⟩

theorem conversation_of_ends (hd : Desk.load s o disk = .ok d) (hc : command.judges = true)
    (h : (command.run s o disk).Ends sent ending) :
    ∃ ts : List (Attempt d.host), sent = Attempt.sent ts ∧ Conversation d disk command ts ending := by
  rcases cases_of_judges hc with rfl | ⟨path, rfl⟩ | ⟨fill, hf⟩
  · obtain ⟨ts, verdict, b, rfl, hr, -⟩ := ends_status hd h
    exact ⟨ts, rfl, .formless rfl (judges_of_resolves hd hr rfl)⟩
  · obtain ⟨ts, verdict, b, rfl, hr, -⟩ := ends_visit hd h
    exact ⟨ts, rfl, .formless rfl (judges_of_resolves hd hr rfl)⟩
  · exact conversation_of_form hd hf h

/-! ## Runs -/

/-- A command that judges no token asks nothing. -/
theorem sent_eq_nil_of_judges (hc : command.judges = false)
    (h : (command.run s o disk).Ends sent ending) : sent = [] := by
  cases command with
  | login | signup | status | visit | recover | resetPassword => cases hc
  | logout =>
    cases hd : Desk.load s o disk with
    | error e => exact ends_withDesk_of_error hd h
    | ok d =>
      unfold Command.run at h
      simp only [withDesk_of_load hd] at h
      obtain ⟨one, two, ⟨d', progress⟩, hperform, hend, rfl⟩ := Exchange.ends_bind h
      obtain ⟨rfl, -⟩ := Exchange.ends_done hend
      obtain ⟨ts, b, rfl, hts, -⟩ := Desk.ends_perform hperform
      obtain ⟨rfl, -⟩ := hts.of_finished
      rfl
  | routes | setSignupPolicy | completion => exact (Exchange.ends_done h).1
  | showConfig =>
    unfold Command.run at h
    simp only at h
    split at h <;> exact (Exchange.ends_done h).1
  | setHost url =>
    unfold Command.run at h
    simp only at h
    split at h <;> exact (Exchange.ends_done h).1

/-- A command asks nothing if it has no application to start. -/
theorem sent_eq_nil_of_load {e : Failure} (hd : Desk.load s o disk = .error e)
    (h : (command.run s o disk).Ends sent ending) : sent = [] := by
  cases hf : command.form? with
  | some fill =>
    obtain ⟨screen, report, -, hrun, -⟩ := exists_run_eq_withForm hf s o disk
    rw [hrun] at h
    exact ends_withDesk_of_error hd h
  | none =>
    cases command with
    | status | visit => exact ends_withDesk_of_error hd h
    | login | signup | recover | resetPassword => cases hf
    | _ => exact sent_eq_nil_of_judges rfl h

/-- Whatever the backend answers, a run asks nothing unless its command judges the stored token; then
it asks about that token first, and its form makes no further call for a member, or if it is unfit.
No call is repeated; each goes to its own path, and a token is shown only when its user is asked for. -/
theorem request_discipline {environment : List (String × String)} {arguments : List String}
    {exchange : Exchange Ending} (h : run s environment arguments disk = .ok exchange)
    (replies : List Delivery) :
    ∃ invocation, Invocation.read environment arguments = .ok invocation ∧
      (invocation.command.judges = false → exchange.transcript replies = []) ∧
      (∀ e, Desk.load s invocation.options disk = .error e → exchange.transcript replies = []) ∧
      (invocation.command.judges = true → ∀ d, Desk.load s invocation.options disk = .ok d →
        ∃ ts : List (Attempt d.host), exchange.transcript replies = Attempt.sent ts ∧
          Conversation d disk invocation.command ts (exchange.result replies) ∧
          Backend.Unrepeated ts ∧ ∀ t ∈ ts, t.Faithful) := by
  unfold run at h
  cases hi : Invocation.read environment arguments with
  | error stop => rw [hi] at h; cases h
  | ok invocation =>
    rw [hi] at h
    cases h
    have hends := (invocation.command.run s invocation.options disk).ends_transcript replies
    refine ⟨invocation, rfl, fun hc => sent_eq_nil_of_judges hc hends,
      fun e hd => sent_eq_nil_of_load hd hends, fun hc d hd => ?_⟩
    obtain ⟨ts, hsent, hts⟩ := conversation_of_ends hd hc hends
    exact ⟨ts, hsent, hts, hts.unrepeated, fun t _ => t.faithful⟩

/-- A guest logs in: one request for a token, and one that shows it to ask for its user. -/
theorem request_discipline_for_login :
    let s : Surroundings := ⟨none, false, 0, ""⟩
    let arguments := ["login", "-e", "a@b.com", "-p", "pw", "--config", "config.yaml"]
    let replies : List Delivery :=
      [.answered ⟨200, some "\x7b\"access_token\": \"tok\"\x7d".toUTF8.toList⟩]
    let disk : Disk := { entries := [], current := [] }
    ∃ exchange, run s [] arguments disk = .ok exchange ∧
      (exchange.transcript replies).map (fun x => (x.1.method, x.1.url.text, x.1.authorization)) =
        [(.post, "http://localhost:8000/api/v1/login/access-token", none),
          (.get, "http://localhost:8000/api/v1/users/me", some "Bearer tok")] ∧
      ∃ d, ∃ ts : List (Attempt d.host), exchange.transcript replies = Attempt.sent ts ∧
        Conversation d disk (.login (some "a@b.com") (some "pw")) ts (exchange.result replies) ∧
        ∀ t ∈ ts, t.Faithful := by
  intro s arguments replies disk
  have hread : Invocation.read [] arguments = .ok
      ⟨⟨.pretty, some "config.yaml", none⟩, .login (some "a@b.com") (some "pw")⟩ := by
    decide +kernel
  have hrun : run s [] arguments disk = .ok ((Command.login (some "a@b.com") (some "pw")).run s
      ⟨.pretty, some "config.yaml", none⟩ disk) := by
    unfold run
    rw [hread]
    rfl
  have hload : (Desk.load s ⟨.pretty, some "config.yaml", none⟩ disk).isOk = true := by
    decide +kernel
  obtain ⟨invocation, hi, -, -, hasks⟩ := request_discipline hrun replies
  rw [hread] at hi
  cases hi
  cases hd : Desk.load s ⟨.pretty, some "config.yaml", none⟩ disk with
  | error e => rw [hd] at hload; cases hload
  | ok d =>
    obtain ⟨ts, hsent, hconversation, -, hfaithful⟩ := hasks rfl d hd
    exact ⟨_, hrun, by decide +kernel, d, ts, hsent, hconversation, hfaithful⟩

end Cli

end SessionGuard
