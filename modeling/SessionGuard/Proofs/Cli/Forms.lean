import SessionGuard.Proofs.Cli.Opening

/-!
# Commands with a form

A command with a form for guests judges the stored token first.  A user who is signed in is told so,
and nothing else happens; otherwise the operation of the form is performed, if nothing is missing
(`Cli.Filled`).
-/

namespace SessionGuard.Cli

open Backend (Attempt Served)
open Http (Delivery Exchange Request)

/-- The operation of the form that a command has, filled in with what the command has been given. -/
def Command.form? : Command → Option (Except Failure Operation)
  | .login email password => some do
    let email ← given email
    let password ← given password
    .ok (.login ⟨Text.trim email, password⟩)
  | .signup email fullName password => some do
    let password ← given password
    .ok (.signup ⟨Text.trim email, password, properName fullName⟩)
  | .recover email => some (.ok (.recover email))
  | .resetPassword token newPassword => some do
    let newPassword ← given newPassword
    .ok (.reset ⟨token, newPassword⟩)
  | _ => none

theorem error?_of_messageReport {display : Display} {command text : String} {outcome : Outcome}
    (h : messageReport display command outcome = .ok text) : outcome.error? = none := by
  unfold messageReport at h
  split at h
  · rfl
  · cases h
  · cases h

/-- A command with a form runs it on a screen for guests, and reports no error as a success. -/
theorem exists_run_eq_withForm {command : Command} {fill : Except Failure Operation}
    (hf : command.form? = some fill) (s : Surroundings) (o : Options) (disk : Disk) :
    ∃ screen report, screen.access = .guests ∧
      command.run s o disk = withForm s o disk command.name screen fill report ∧
      ∀ desk outcome text, report desk outcome = .ok text → outcome.error? = none := by
  cases command <;> cases hf <;> unfold Command.run
  · refine ⟨.login, _, rfl, rfl, fun desk outcome text h => ?_⟩
    split at h
    · rfl
    · cases h
    · cases h
  · refine ⟨.signup, _, rfl, rfl, fun desk outcome text h => ?_⟩
    split at h
    · rfl
    · cases h
    · cases h
  · exact ⟨.recoverPassword, _, rfl, rfl, fun _ _ _ => error?_of_messageReport⟩
  · exact ⟨.resetPassword, _, rfl, rfl, fun _ _ _ => error?_of_messageReport⟩

/-- What is told of an operation that has been performed, as far as it has come. -/
def Desk.told (d : Desk) (report : Desk → Outcome → Except Failure String) :
    Progress → Except Failure String
  | .finished outcome => report d outcome
  | .waiting _ => .error .noTerminal

/-- What becomes of a form when nobody is signed in: it lacks something, or its operation is
performed. -/
inductive Filled (d : Desk) (disk : Disk) (a : App) (fill : Except Failure Operation)
    (report : Desk → Outcome → Except Failure String) : List (Attempt d.host) → Ending → Prop
  | lacking {e} (hf : fill = .error e) :
      Filled d disk a fill report [] ({ d with app := a }.disk disk, .error e)
  | performed {op ts b progress} (hf : fill = .ok op)
      (h : Served d.settings d.host (a.start d.settings d.now op) ts (b, progress)) :
      Filled d disk a fill report ts
        ({ d with app := b }.disk disk, { d with app := b }.told report progress)

variable {s : Surroundings} {o : Options} {disk : Disk} {d : Desk} {screen : Route}

theorem decide_guests (hscreen : screen.access = .guests) (verdict : Option UserProfile) :
    Gate.decide screen (.ofVerdict verdict) =
      if verdict.isSome then .redirect .home else .render screen := by
  cases verdict <;> simp [Gate.decide, SessionState.ofVerdict, hscreen, SessionState.authenticated,
    SessionState.unauthenticated]

theorem ends_withForm (hd : Desk.load s o disk = .ok d) (hscreen : screen.access = .guests)
    {name : String} {fill : Except Failure Operation}
    {report : Desk → Outcome → Except Failure String} {sent : List (Request × Delivery)}
    {ending : Ending} (h : (withForm s o disk name screen fill report).Ends sent ending) :
    ∃ (first rest : List (Attempt d.host)) (verdict : Option UserProfile) (b : App),
      sent = Attempt.sent (first ++ rest) ∧
      (d.app.navigate (.navigate screen)).Resolves d.settings d.now first verdict b ∧
      ((∃ user, verdict = some user ∧ rest = [] ∧
          ∃ app : App, app.session.state = .authenticated user ∧
            Led screen app.history (.redirect .home) ∧
            ending = (disk, .ok (Report.alreadySignedIn (s.display o.format) name app))) ∨
        verdict = none ∧ Filled d disk b fill report rest ending) := by
  simp only [withForm, withDesk_of_load hd] at h
  obtain ⟨one, two, ⟨d', decision⟩, henter, h, rfl⟩ := Exchange.ends_bind h
  obtain ⟨first, verdict, b, rfl, hr, rfl, rfl⟩ := Desk.ends_enter (Desk.session_of_load hd) henter
  simp only [decide_guests hscreen] at h
  cases verdict with
  | some user =>
    obtain ⟨rfl, rfl⟩ := Exchange.ends_done h
    obtain ⟨after, hb, hkept⟩ := hr.store_eq (Desk.store_of_load hd)
    obtain rfl := hkept rfl
    have hstate : b.session.state = .authenticated user := hr.judged.state
    have hhistory : b.history = (History.starting .landing).apply (.navigate screen) := by
      rw [hr.history, Desk.app_of_load hd]
      rfl
    refine ⟨first, [], _, b, by simp, hr, .inl ⟨user, rfl, rfl, (b.evaluate screen).2, ?_, ?_, ?_⟩⟩
    · rw [App.session_evaluate, hstate]
    · have hled := led_evaluate hhistory (by rw [hstate]; rfl)
      rwa [hstate, ← SessionState.ofVerdict, decide_guests hscreen] at hled
    · simp only [Desk.disk, App.store_evaluate, hb]
      rfl
  | none =>
    have heval : (b.evaluate screen).2 = b := by
      simp [App.evaluate, hr.judged.state, decide_guests hscreen]
    simp only [heval] at h
    cases fill with
    | error e =>
      obtain ⟨rfl, rfl⟩ := Exchange.ends_done h
      exact ⟨first, [], _, b, by simp, hr, .inr ⟨rfl, .lacking rfl⟩⟩
    | ok op =>
      obtain ⟨three, four, ⟨d', progress⟩, hperform, hend, rfl⟩ := Exchange.ends_bind h
      obtain ⟨rfl, rfl⟩ := Exchange.ends_done hend
      obtain ⟨rest, c, rfl, hserved, rfl⟩ := Desk.ends_perform hperform
      have hfilled : Filled d disk b (.ok op) report rest
          ({ d with app := c }.disk disk, { d with app := c }.told report progress) :=
        .performed rfl hserved
      refine ⟨first, rest, _, b, by simp [Attempt.sent_append], hr, .inr ⟨rfl, ?_⟩⟩
      cases progress <;> exact hfilled

end SessionGuard.Cli
