import SessionGuard.Proofs.Backend.Request
import SessionGuard.Proofs.Http.Form
import SessionGuard.Proofs.Json.Writing

/-!
# Bodies carry exactly their fields

Of the calls to the backend three carry a filled form in the body of their request, one as a form and
two as an object.  Whatever the texts are, they are read again from the body, each under its name and
nothing beside them (`bodies_carry_fields`).
-/

namespace SessionGuard.Backend

open Http (Body Request)
open Json (Raw)
open Text (Received)

/-! ## Kinds of bodies -/

/-- A body is a form with these fields, in this order. -/
def IsForm (body : Body) (fields : List (String × String)) : Prop :=
  body.contentType = "application/x-www-form-urlencoded" ∧
    Http.Form.read? body.text.toList = some fields

/-- A body is an object with these members, each a text, in this order. -/
def IsObject (body : Body) (members : List (String × String)) : Prop :=
  body.contentType = "application/json" ∧
    (Raw.read? (Received.ofString body.text)).bind Raw.texts? = some members

variable {body : Body} {fields fields' : List (String × String)}

theorem IsForm.unique (h : IsForm body fields) (h' : IsForm body fields') : fields = fields' :=
  Option.some.inj (h.2.symm.trans h'.2)

theorem IsObject.unique (h : IsObject body fields) (h' : IsObject body fields') :
    fields = fields' :=
  Option.some.inj (h.2.symm.trans h'.2)

theorem IsForm.not_isObject (h : IsForm body fields) : ¬ IsObject body fields' := by
  rintro ⟨hkind, -⟩
  rw [h.1] at hkind
  exact absurd hkind (by decide)

theorem isForm_formBody (fields : List (String × String)) :
    IsForm (Http.formBody fields) fields :=
  ⟨rfl, by rw [Http.formBody, String.toList_ofList, Http.Form.read?_encode]⟩

theorem isObject_jsonBody (fields : List (String × String)) :
    IsObject (Http.jsonBody (.ofTexts fields)) fields :=
  ⟨rfl, Json.texts?_text fields⟩

/-! ## The bodies of calls -/

/-- The fields of credentials in a body. -/
def fieldsOf (c : Credentials) : List (String × String) :=
  [("username", c.email), ("password", c.password)]

/-- The members of a registration in a body; a name that is missing is left out. -/
def membersOf (r : Registration) : List (String × String) :=
  [("email", r.email), ("password", r.password)] ++
    (r.fullName.map fun name => ("full_name", name)).toList

/-- The members of a new password in a body. -/
def newMembersOf (r : NewPassword) : List (String × String) :=
  [("token", r.token), ("new_password", r.newPassword)]

theorem toJson_registration (r : Registration) : r.toJson = .ofTexts (membersOf r) := by
  obtain ⟨email, password, fullName⟩ := r
  cases fullName <;> rfl

/-- What the body of a call carries. -/
inductive Carries : Call → Body → Prop
  | login {c : Credentials} {body : Body} (h : IsForm body (fieldsOf c)) : Carries (.login c) body
  | registerUser {r : Registration} {body : Body} (h : IsObject body (membersOf r)) :
      Carries (.registerUser r) body
  | resetPassword {r : NewPassword} {body : Body} (h : IsObject body (newMembersOf r)) :
      Carries (.resetPassword r) body

theorem carries_of_body? {call : Call} (h : body? call = some body) : Carries call body := by
  cases call with
  | login c =>
    rw [← Option.some.inj h]
    exact .login (isForm_formBody (fieldsOf c))
  | registerUser r =>
    rw [← Option.some.inj h]
    exact .registerUser (toJson_registration r ▸ isObject_jsonBody (membersOf r))
  | resetPassword r =>
    rw [← Option.some.inj h]
    exact .resetPassword (isObject_jsonBody (newMembersOf r))
  | currentUser | recoverPassword => cases h

theorem membersOf_inj {r r' : Registration} (h : membersOf r = membersOf r') : r = r' := by
  obtain ⟨email, password, fullName⟩ := r
  obtain ⟨email', password', fullName'⟩ := r'
  cases fullName <;> cases fullName' <;> simp_all [membersOf]

/-- A body carries one call alone. -/
theorem Carries.unique {call call' : Call} (h : Carries call body) (h' : Carries call' body) :
    call = call' := by
  cases h with
  | @login c _ h =>
    cases h' with
    | @login c' _ h' =>
      obtain ⟨email, password⟩ := c
      obtain ⟨email', password'⟩ := c'
      simpa [fieldsOf] using h.unique h'
    | registerUser h' | resetPassword h' => exact absurd h' h.not_isObject
  | @registerUser r _ h =>
    cases h' with
    | login h' => exact absurd h h'.not_isObject
    | registerUser h' => rw [membersOf_inj (h.unique h')]
    | resetPassword h' =>
      have hmembers := h.unique h'
      simp [membersOf, newMembersOf] at hmembers
  | @resetPassword r _ h =>
    cases h' with
    | login h' => exact absurd h h'.not_isObject
    | registerUser h' =>
      have hmembers := h.unique h'
      simp [membersOf, newMembersOf] at hmembers
    | @resetPassword r' _ h' =>
      obtain ⟨token, password⟩ := r
      obtain ⟨token', password'⟩ := r'
      simpa [newMembersOf] using h.unique h'

/-! ## The whole -/

/-- The body of a login is a form with the email address under the name of the user and the password,
in this order; that of a registration an object with the email address, the password and, exactly if
there is one, the full name; that of a new password an object with the token and the password.  These
are the bodies that are sent, and none of them is the body of two calls: no text in a field changes, adds
or hides another. -/
theorem bodies_carry_fields :
    (∀ c : Credentials, ∃ body, body? (.login c) = some body ∧
      IsForm body [("username", c.email), ("password", c.password)]) ∧
    (∀ r : Registration, ∃ body, body? (.registerUser r) = some body ∧
      IsObject body ([("email", r.email), ("password", r.password)] ++
        (r.fullName.map fun name => ("full_name", name)).toList)) ∧
    (∀ r : NewPassword, ∃ body, body? (.resetPassword r) = some body ∧
      IsObject body [("token", r.token), ("new_password", r.newPassword)]) ∧
    (∀ (host : String) (call : Call) (r : Request), request host call = .ok r →
      r.body = body? call) ∧
    ∀ (call call' : Call) (body : Body), body? call = some body → body? call' = some body →
      call = call' := by
  refine ⟨fun c => ⟨_, rfl, isForm_formBody _⟩, fun r => ⟨_, rfl, ?_⟩,
    fun r => ⟨_, rfl, isObject_jsonBody (newMembersOf r)⟩, fun host call r => body_of_request,
    fun call call' body h h' => (carries_of_body? h).unique (carries_of_body? h')⟩
  rw [toJson_registration]
  exact isObject_jsonBody (membersOf r)

/-- A name that is empty is sent, and a password is, that would end its field or its quotes. -/
theorem bodies_carry_awkward_fields :
    let r : Registration := ⟨"a&b=+@c.d", "p\"\\\n, %41\x7d", some ""⟩
    ∃ sent, request "http://h" (.registerUser r) = .ok sent ∧ ∃ body, sent.body = some body ∧
      IsObject body [("email", "a&b=+@c.d"), ("password", "p\"\\\n, %41\x7d"), ("full_name", "")] := by
  intro r
  have hmade : (request "http://h" (.registerUser r)).toOption.isSome = true := by decide +kernel
  cases hsent : request "http://h" (.registerUser r) with
  | error e =>
    rw [hsent] at hmade
    cases hmade
  | ok sent =>
    obtain ⟨body, hbody, hobject⟩ := bodies_carry_fields.2.1 r
    have hcarried := bodies_carry_fields.2.2.2.1 _ _ _ hsent
    exact ⟨sent, rfl, body, hcarried.trans hbody, hobject⟩

end SessionGuard.Backend
