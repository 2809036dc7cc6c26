import SessionGuard.Credentials
import SessionGuard.Error
import SessionGuard.Text.Trim

/-!
# Checking forms

A form is checked before the backend is asked.  A check names the first thing to change.
-/

namespace SessionGuard.Form

/-- An email address has to hold an at sign, blanks around it aside. -/
def checkEmail (email : String) : Except FormError Unit :=
  let email := Text.trim email
  if email = "" then .error .emailMissing
  else if '@' ∈ email.toList then .ok ()
  else .error (.emailWithoutAt email)

/-- A new password has to have eight characters at least. -/
def checkNewPassword (password : String) : Except FormError Unit :=
  if password.length < minPasswordLength then .error .passwordTooShort else .ok ()

def checkLogin (c : Credentials) : Except FormError Unit := do
  checkEmail c.email
  if c.password = "" then .error .passwordMissing else .ok ()

def checkRegistration (r : Registration) : Except FormError Unit := do
  checkEmail r.email
  checkNewPassword r.password

def checkReset (r : NewPassword) : Except FormError Unit :=
  if Text.trim r.token = "" then .error .resetTokenMissing else checkNewPassword r.newPassword

theorem checkEmail_eq_ok_iff {email : String} :
    checkEmail email = .ok () ↔ '@' ∈ (Text.trim email).toList := by
  unfold checkEmail
  by_cases h : Text.trim email = ""
  · simp [h]
  · by_cases ha : '@' ∈ (Text.trim email).toList <;> simp [h, ha]

theorem checkNewPassword_eq_ok_iff {password : String} :
    checkNewPassword password = .ok () ↔ minPasswordLength ≤ password.length := by
  unfold checkNewPassword
  by_cases h : password.length < minPasswordLength
  · simp [h]
  · simp [h, Nat.le_of_not_lt h]

/-- A registration with a fit form makes a fit login. -/
theorem checkLogin_credentials {r : Registration} (h : checkRegistration r = .ok ()) :
    checkLogin r.credentials = .ok () := by
  unfold checkRegistration at h
  unfold checkLogin Registration.credentials
  cases he : checkEmail r.email with
  | error e => rw [he] at h; cases h
  | ok _ =>
    rw [he] at h
    have hp := checkNewPassword_eq_ok_iff.1 h
    have hne : r.password ≠ "" := by
      intro hp'
      rw [hp'] at hp
      exact absurd hp (by decide)
    simp [bind, Except.bind, hne]

end SessionGuard.Form
