import SessionGuard.Proofs.Backend.Passwords
import SessionGuard.Proofs.Cli.Forms

/-!
# Passwords in runs

Two runs of a command that differ in the password alone end in the same way, with the same disk, and
send the same requests but for the bodies that carry the password (`Command.alike_run`), unless the
form accepts one of the passwords and refuses the other.
-/

namespace SessionGuard.Cli

open Backend (Twins)
open Http (Delivery Exchange Request)
open Http.Exchange (Alike)

/-- The password that a command has been given. -/
def Command.password? : Command → Option String
  | login _ password | signup _ _ password | resetPassword _ password => password
  | _ => none

/-- A command with a password for a form, given another one. -/
def Command.withPassword (q : String) : Command → Command
  | login email _ => login email (some q)
  | signup email fullName _ => signup email fullName (some q)
  | resetPassword token _ => resetPassword token (some q)
  | command => command

/-- Whether the form of a command accepts a password: to log in there has to be one, and a new one
must not be short. -/
def Command.Accepts : Command → String → Prop
  | login .., p => p ≠ ""
  | signup .., p | resetPassword .., p => minPasswordLength ≤ p.length
  | _, _ => True

variable {q : String} {s : Surroundings} {o : Options} {disk : Disk} {d : Desk}

namespace Desk

def withPassword (q : String) (d : Desk) : Desk := { d with app := d.app.withPassword q }

/-- Nothing has been asked yet when an application is started. -/
theorem withPassword_of_load (hd : Desk.load s o disk = .ok d) : d.withPassword q = d := by
  have hcalls : d.app.withPassword q = d.app := by
    rw [app_of_load hd]
    rfl
  rw [withPassword, hcalls]

/-- An operation does the same with another password, and stays with the backend. -/
theorem alike_perform (d : Desk) (op : Operation) (hop : (op.withPassword q).check? = op.check?) :
    Alike (Twins d.host q)
      (fun x y => x.1.host = d.host ∧ y = (x.1.withPassword q, x.2.withPassword q))
      (d.perform op) ((d.withPassword q).perform (op.withPassword q)) := by
  refine (Backend.alike_run d.now hop d.app).bind fun x y hxy => ?_
  subst hxy
  exact .done ⟨rfl, rfl⟩

theorem alike_restore (d : Desk) :
    Alike (Twins d.host q) (fun x y => x.host = d.host ∧ y = x.withPassword q) d.restore
      (d.withPassword q).restore := by
  have hperform := alike_perform (q := q) d .restore rfl
  refine hperform.bind fun x y hxy => ?_
  obtain ⟨hhost, rfl⟩ := hxy
  exact .done ⟨hhost, rfl⟩

theorem alike_enter (d : Desk) (route : Route) :
    Alike (Twins d.host q) (fun x y => x.1.host = d.host ∧ y = (x.1.withPassword q, x.2))
      (d.enter route) ((d.withPassword q).enter route) := by
  refine (alike_perform d (.visit route) rfl).bind fun x y hxy => ?_
  obtain ⟨d₁, progress⟩ := x
  obtain ⟨hhost, rfl⟩ := hxy
  have hrestore := alike_restore (q := q) d₁
  rw [show d₁.host = d.host from hhost] at hrestore
  refine hrestore.bind fun d₂ y hy => ?_
  obtain ⟨hhost, rfl⟩ := hy
  have hwake : (d₂.withPassword q).app.wake (.visiting route) =
      App.alter q (d₂.app.wake (.visiting route)) := App.wake_withPassword d₂.app rfl
  simp only [hwake]
  generalize d₂.app.wake (.visiting route) = p
  obtain ⟨b, progress⟩ := p
  refine .done ⟨hhost, ?_⟩
  cases progress <;> rfl

end Desk

/-- A form does the same with another password for which its check says the same. -/
theorem alike_withForm (hd : Desk.load s o disk = .ok d) (name : String) (screen : Route)
    {fill : Except Failure Operation} {report : Desk → Outcome → Except Failure String}
    (hfill : ∀ op, fill = .ok op → (op.withPassword q).check? = op.check?)
    (hreport : ∀ d outcome, report (d.withPassword q) outcome = report d outcome) :
    Alike (Twins d.host q) Eq (withForm s o disk name screen fill report)
      (withForm s o disk name screen (fill.map (Operation.withPassword q)) report) := by
  simp only [withForm, withDesk_of_load hd]
  have henter := Desk.alike_enter (q := q) d screen
  rw [Desk.withPassword_of_load hd] at henter
  refine henter.bind fun x y hxy => ?_
  obtain ⟨d₁, decision⟩ := x
  obtain ⟨hhost, rfl⟩ := hxy
  cases decision with
  | redirect target => exact .done rfl
  | render | loading =>
    cases fill with
    | error e => exact .done rfl
    | ok op =>
      have hperform := Desk.alike_perform d₁ op (hfill op rfl)
      rw [show d₁.host = d.host from hhost] at hperform
      refine hperform.bind fun x y hxy => ?_
      obtain ⟨d₂, progress⟩ := x
      obtain ⟨-, rfl⟩ := hxy
      refine .done ?_
      cases progress with
      | waiting on => rfl
      | finished outcome =>
        exact congrArg (d₂.disk disk, ·) (hreport d₂ outcome).symm

/-! ## Commands -/

theorem Command.withPassword_self {command : Command} {p : String}
    (hp : command.password? = some p) : command.withPassword p = command := by
  cases command with
  | login | signup | resetPassword =>
    cases hp
    rfl
  | _ => cases hp

/-- Another password fills in the same form, and the check of the form says the same. -/
theorem exists_form_withPassword {command : Command} {p : String} (hp : command.password? = some p)
    (h : command.Accepts p ↔ command.Accepts q) :
    ∃ fill, command.form? = some fill ∧
      (command.withPassword q).form? = some (fill.map (Operation.withPassword q)) ∧
      ∀ op, fill = .ok op → (op.withPassword q).check? = op.check? := by
  cases command with
  | login email password =>
    cases hp
    refine ⟨_, rfl, ?_, ?_⟩
    · cases email <;> rfl
    · cases email with
      | none => nofun
      | some email =>
        rintro op ⟨⟩
        exact congrArg some (Form.checkLogin_withPassword (not_iff_not.1 h))
  | signup email fullName password =>
    cases hp
    refine ⟨_, rfl, rfl, ?_⟩
    rintro op ⟨⟩
    simp only [Operation.withPassword, Operation.check?, Form.checkRegistration,
      Registration.withPassword, Form.checkNewPassword_eq h]
  | resetPassword token newPassword =>
    cases hp
    refine ⟨_, rfl, rfl, ?_⟩
    rintro op ⟨⟩
    simp only [Operation.withPassword, Operation.check?, Form.checkReset, NewPassword.withPassword,
      Form.checkNewPassword_eq h]
  | _ => cases hp

/-- A command with a password runs its form on a screen, and its report depends on no password. -/
theorem exists_run_withPassword {command : Command} {p : String} (hp : command.password? = some p)
    (s : Surroundings) (o : Options) (disk : Disk) :
    ∃ screen report,
      (∀ q, ∃ fill, (command.withPassword q).form? = some fill ∧
        (command.withPassword q).run s o disk =
          withForm s o disk command.name screen fill report) ∧
      ∀ q d outcome, report (d.withPassword q) outcome = report d outcome := by
  cases command with
  | login =>
    unfold Command.run
    simp only [Command.withPassword, Command.name]
    exact ⟨.login, _, fun q => ⟨_, rfl, rfl⟩, fun q d outcome => rfl⟩
  | signup =>
    unfold Command.run
    simp only [Command.withPassword, Command.name]
    exact ⟨.signup, _, fun q => ⟨_, rfl, rfl⟩, fun q d outcome => rfl⟩
  | resetPassword =>
    unfold Command.run
    simp only [Command.withPassword, Command.name]
    exact ⟨.resetPassword, _, fun q => ⟨_, rfl, rfl⟩, fun q d outcome => rfl⟩
  | _ => cases hp

/-- A password reaches the bodies of the requests that carry it, and nothing else.  Two runs of a
command with passwords that its form accepts or refuses alike come to the same disk and to the same
report or failure, whatever the backend answers.  Their requests are the same one for one, but for
the password in the bodies of a login, of a registration and of a reset. -/
theorem password_reaches_bodies_only {command : Command} {p q : String}
    (hp : command.password? = some p) (h : command.Accepts p ↔ command.Accepts q)
    (s : Surroundings) (o : Options) (disk : Disk) (replies : List Delivery) :
    ((command.withPassword q).run s o disk).result replies =
        (command.run s o disk).result replies ∧
      ∃ host, (∀ d, Desk.load s o disk = .ok d → d.host = host) ∧
        List.Forall₂ (fun x y => Twins host q x.1 y.1 ∧ x.2 = y.2)
          ((command.run s o disk).transcript replies)
          (((command.withPassword q).run s o disk).transcript replies) := by
  obtain ⟨fill, hform, hform', hfill⟩ := exists_form_withPassword hp h
  obtain ⟨screen, report, hrun, hreport⟩ := exists_run_withPassword hp s o disk
  obtain ⟨_, hp', hrun₁⟩ := hrun p
  obtain ⟨_, hq', hrun₂⟩ := hrun q
  rw [Command.withPassword_self hp] at hp' hrun₁
  obtain rfl : fill = _ := Option.some.inj (hform.symm.trans hp')
  obtain rfl : fill.map (Operation.withPassword q) = _ := Option.some.inj (hform'.symm.trans hq')
  rw [hrun₁, hrun₂]
  cases hd : Desk.load s o disk with
  | error e =>
    have hnone (fill : Except Failure Operation) :
        withForm s o disk command.name screen fill report = pure (disk, .error e) := by
      simp only [withForm, withDesk, hd]
    rw [hnone, hnone]
    refine ⟨rfl, "", ?_, .nil⟩
    rintro d ⟨⟩
  | ok d =>
    have halike := alike_withForm hd command.name screen hfill (hreport q)
    refine ⟨(halike.result replies).symm, d.host, ?_, halike.transcript replies⟩
    rintro d' hd'
    cases hd'
    rfl

/-- An account is opened and its member signed in, with either of two passwords.  The password is in
two of the three bodies, and in nothing else. -/
theorem password_reaches_bodies_only_for_signup :
    let s : Surroundings := ⟨none, false, 0, ""⟩
    let o : Options := ⟨.json, some "config.yaml", none⟩
    let disk : Disk :=
      { entries := [(["config.yaml"], .file "signup_policy: auto_login\n".toUTF8 0o644)], current := [] }
    let command := fun p => Command.signup "a@b.com" none (some p)
    let reply := fun (body : String) => Delivery.answered ⟨200, some body.toUTF8.toList⟩
    let user := reply "\x7b\"id\": \"u1\", \"email\": \"a@b.com\"\x7d"
    let replies := [user, reply "\x7b\"access_token\": \"tok\"\x7d", user]
    (command "longenough").password? = some "longenough" ∧
      ((command "longenough").Accepts "longenough" ↔ (command "longenough").Accepts "horse & cart") ∧
      ((command "horse & cart").run s o disk).result replies =
        ((command "longenough").run s o disk).result replies ∧
      (((command "longenough").run s o disk).requests replies).map
          (fun r => r.body.map Http.Body.text) =
        [some "\x7b\"email\":\"a@b.com\",\"password\":\"longenough\"\x7d",
          some "username=a%40b.com&password=longenough", none] ∧
      (((command "horse & cart").run s o disk).requests replies).map
          (fun r => r.body.map Http.Body.text) =
        [some "\x7b\"email\":\"a@b.com\",\"password\":\"horse & cart\"\x7d",
          some "username=a%40b.com&password=horse+%26+cart", none] := by
  intro s o disk command reply user replies
  have hp : (command "longenough").password? = some "longenough" := rfl
  have h : (command "longenough").Accepts "longenough" ↔
      (command "longenough").Accepts "horse & cart" := by
    simp only [command, Command.Accepts]
    decide
  exact ⟨hp, h, (password_reaches_bodies_only hp h s o disk replies).1, by decide +kernel,
    by decide +kernel⟩

end SessionGuard.Cli
