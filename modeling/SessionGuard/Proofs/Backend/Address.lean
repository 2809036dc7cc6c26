import SessionGuard.Backend
import SessionGuard.Proofs.Url.Origin
import SessionGuard.Proofs.Url.Segment

/-!
# Where calls go

Each call has a path of its own behind the host, and its request goes there (`Backend.Goes`).  At an
origin the path is all that an address has (`Goes.eq_addressAt`).
-/

namespace SessionGuard

/-- The segments of a path that are those of a call.  An email address is one of them. -/
def Call.segments : Call → List String
  | .login _ => ["login", "access-token"]
  | .currentUser _ => ["users", "me"]
  | .registerUser _ => ["users", "signup"]
  | .recoverPassword email => ["password-recovery", String.ofList (Url.segment email)]
  | .resetPassword _ => ["reset-password", ""]

namespace Backend

open Http (Request)
open Url (Origin)

variable {api : String} {call : Call} {u : Url}

/-- Where a call goes at a host: a path behind the host, whose slashes are dropped, is read as an
address.  Neither the user nor the password that the host may name is in it. -/
inductive Goes (api : String) : Call → Url → Prop
  | login {c : Credentials} {full : Url}
      (h : Url.ofText? (Text.dropSlashes api ++ "/api/v1/login/access-token") = .ok full) :
      Goes api (.login c) full.anonymous
  | currentUser {token : Token} {full : Url}
      (h : Url.ofText? (Text.dropSlashes api ++ "/api/v1/users/me") = .ok full) :
      Goes api (.currentUser token) full.anonymous
  | registerUser {r : Registration} {full : Url}
      (h : Url.ofText? (Text.dropSlashes api ++ "/api/v1/users/signup") = .ok full) :
      Goes api (.registerUser r) full.anonymous
  | recoverPassword {email : String} {above full : Url}
      (h : Url.ofText? (Text.dropSlashes api ++ "/api/v1/password-recovery") = .ok above)
      (hs : above.push? email = some full) : Goes api (.recoverPassword email) full.anonymous
  | resetPassword {r : NewPassword} {full : Url}
      (h : Url.ofText? (Text.dropSlashes api ++ "/api/v1/reset-password/") = .ok full) :
      Goes api (.resetPassword r) full.anonymous

theorem base_append (api path : String) :
    base api ++ path = Text.dropSlashes api ++ ("/api/v1" ++ path) := String.append_assoc ..

theorem goes_of_url {full : Url} (h : url api call = .ok full) : Goes api call full.anonymous := by
  unfold url at h
  simp only [base_append] at h
  cases call with
  | recoverPassword email =>
    simp only at h
    split at h
    · cases h
    · next above habove =>
      split at h
      · next pushed hs =>
        cases h
        exact .recoverPassword habove hs
      · cases h
  | login | currentUser | registerUser | resetPassword =>
    simp only at h
    split at h
    · cases h
    · next found hfound =>
      cases h
      constructor
      exact hfound

/-! ## Addresses at an origin -/

/-- An address at an origin. -/
def addressAt (o : Origin) (host : Host) (path : List String) : Url :=
  ⟨o.scheme, "", none, some host, o.port?, .segments path, none, none⟩

variable {o : Origin} {host : Host}

/-- A path behind an origin is the path of the address. -/
theorem ofText?_setting (h : o.Names host) (slashes : Nat) {path : String}
    (hpath : Url.IsPath path.toList) :
    Url.ofText? (Text.dropSlashes (o.setting slashes) ++ path) =
      .ok (addressAt o host (Url.segmentsOf true path.toList)) := by
  have htext : Text.dropSlashes (o.setting slashes) ++ path =
      String.ofList (o.text ++ path.toList) := by
    rw [Url.Origin.dropSlashes_setting h, String.ofList_append, String.ofList_toList]
  rw [htext, Url.ofText?_origin h hpath]
  rfl

theorem ofText?_base (h : o.Names host) (slashes : Nat) :
    Url.ofText? (base (o.setting slashes)) = .ok (addressAt o host ["api", "v1"]) := by
  rw [base, ofText?_setting h slashes ⟨rfl, Text.forall_mem_of_all (by decide)⟩]
  rfl

theorem isSpecial_of_names (h : o.Names host) : Url.isSpecial o.scheme = true := by
  rcases h.scheme with hs | hs <;> rw [hs] <;> decide

/-- Above the email address of a recovery is the path of its call. -/
theorem ofText?_recovery (h : o.Names host) (slashes : Nat) :
    Url.ofText? (Text.dropSlashes (o.setting slashes) ++ "/api/v1/password-recovery") =
      .ok (addressAt o host ["api", "v1", "password-recovery"]) := by
  have hsegments : Url.segmentsOf true "/api/v1/password-recovery".toList =
      ["api", "v1", "password-recovery"] := by decide
  rw [ofText?_setting h slashes ⟨rfl, Text.forall_mem_of_all (by decide)⟩, hsegments]

theorem push?_recovery (h : o.Names host) {email : String} (hat : '@' ∈ email.toList) :
    (addressAt o host ["api", "v1", "password-recovery"]).push? email =
      some (addressAt o host
        ["api", "v1", "password-recovery", String.ofList (Url.segment email)]) := by
  rw [Url.push?_segment hat rfl (by decide) (isSpecial_of_names h)]
  rfl

/-- At an origin a call goes to the segments of its own; for a recovery these are two only if the email
address has its sign. -/
theorem Goes.eq_addressAt {slashes : Nat} (hgoes : Goes (o.setting slashes) call u)
    (h : o.Names host) (hat : ∀ email, call = .recoverPassword email → '@' ∈ email.toList) :
    u = addressAt o host ("api" :: "v1" :: call.segments) := by
  cases hgoes with
  | login hfull | currentUser hfull | registerUser hfull | resetPassword hfull =>
    rw [ofText?_setting h slashes ⟨rfl, Text.forall_mem_of_all (by decide)⟩] at hfull
    cases hfull
    rfl
  | recoverPassword habove hs =>
    cases (ofText?_recovery h slashes).symm.trans habove
    cases (push?_recovery h (hat _ rfl)).symm.trans hs
    rfl

/-- A recovery goes to a segment of its own behind the path of the call. -/
theorem url_recoverPassword (h : o.Names host) (slashes : Nat) {email : String}
    (hat : '@' ∈ email.toList) :
    url (o.setting slashes) (.recoverPassword email) =
      .ok (addressAt o host
        ["api", "v1", "password-recovery", String.ofList (Url.segment email)]) := by
  have htext : Url.ofText? (Text.dropSlashes (o.setting slashes) ++
      ("/api/v1" ++ "/password-recovery")) =
        .ok (addressAt o host ["api", "v1", "password-recovery"]) := ofText?_recovery h slashes
  unfold url
  simp only [path, base_append, htext, push?_recovery h hat]

/-- The text of an address at an origin ends with its path. -/
theorem text_addressAt (o : Origin) (host : Host) (path : List String) :
    (addressAt o host ("api" :: "v1" :: path)).text =
      (addressAt o host ["api", "v1"]).text ++ String.join (path.map ("/" ++ ·)) := by
  rw [← String.toList_inj]
  simp [addressAt, Url.text, Url.authority, Url.credentials, Url.Path.text, String.toList_join]

end Backend

end SessionGuard
