import SessionGuard.Http.Response

/-!
# What a refusal says

The kind of a failed call is in the status of the response, and the body has no part in it
(`kind_refusal`).  With most statuses that the program knows, the words are those of the body, if it
has any (`Response.Says`), or the standard words for the status (`standardWords?`); with the others
the body has no part in the words either.
-/

namespace SessionGuard

/-- In which way a call fails, with nothing said about it. -/
inductive ApiError.Kind
  | rejected (cause : Rejection)
  | notFound
  | badRequest
  | serverError
  | network
  | invalidResponse
  deriving DecidableEq

def ApiError.kind : ApiError → Kind
  | rejected cause => .rejected cause
  | notFound _ => .notFound
  | badRequest _ => .badRequest
  | serverError _ => .serverError
  | network _ => .network
  | invalidResponse _ => .invalidResponse

/-- What is said about a failed call. -/
def ApiError.words : ApiError → String
  | rejected cause => cause.message
  | notFound words | badRequest words | serverError words | network words
  | invalidResponse words => words

/-- In which way an auth action fails, with nothing said about it. -/
inductive AuthError.Kind
  | unreachable
  | rejected
  | form
  | storage
  deriving DecidableEq

def AuthError.kind : AuthError → Kind
  | unreachable _ => .unreachable
  | rejected _ => .rejected
  | form _ => .form
  | storage _ => .storage

/-- The kind of a failed call decides on that of the action. -/
theorem AuthError.kind_ofApi {e e' : ApiError} (h : e.kind = e'.kind) :
    (ofApi e).kind = (ofApi e').kind := by
  cases e <;> cases e' <;> first | rfl | cases h

/-- The message in an item of a list of them. -/
def Json.message? (item : Json) : Option String :=
  match item.get? "msg" with
  | some (.string text) => some text
  | _ => none

/-- The words in a value: its `detail`, or the messages in a list of them, one after the other. -/
inductive Json.Says (value : Json) : String → Prop
  | text {words} (h : value.get? "detail" = some (.string words)) : Says value words
  | list {items messages} (h : value.get? "detail" = some (.array items))
      (hm : items.filterMap message? = messages) (hne : messages ≠ []) :
      Says value ("; ".intercalate messages)

namespace Http

/-- A response has a body that says something. -/
def Response.Says (r : Response) (words : String) : Prop :=
  ∃ value, Json.ofString? (Text.Octets.read (r.body.getD [])).lossy = some value ∧
    value.Says words

/-- The words for a status whose body may say more. -/
def standardWords? : Nat → Option String
  | 404 => some "Resource not found"
  | 400 | 409 | 422 => some "Bad request"
  | status =>
    if 500 ≤ status && status < 600 then some ("Server error: " ++ statusText status) else none

/-! ## The words of a body -/

theorem detailOf?_eq_some_iff {value : Json} {words : String} :
    detailOf? value = some words ↔ value.Says words := by
  have hlist : ∀ items, value.get? "detail" = some (.array items) → detailOf? value =
      if (items.filterMap Json.message?).isEmpty then none
      else some ("; ".intercalate (items.filterMap Json.message?)) := by
    intro items h
    rw [detailOf?, h]
    rfl
  constructor
  · intro h
    match hd : value.get? "detail" with
    | some (.string text) =>
      rw [detailOf?, hd] at h
      cases h
      exact .text hd
    | some (.array items) =>
      rw [hlist items hd] at h
      split at h
      · cases h
      · next hne =>
        cases h
        exact .list hd rfl (by simpa using hne)
    | none | some .null | some (.bool _) | some (.number _) | some (.object _) =>
      rw [detailOf?, hd] at h
      cases h
  · rintro (⟨h⟩ | ⟨h, rfl, hne⟩)
    · rw [detailOf?, h]
    · rw [hlist _ h, if_neg (by simpa using hne)]

namespace Response

variable {r : Response}

theorem detail?_eq_some_iff {words : String} : r.detail? = some words ↔ r.Says words := by
  simp only [detail?, Option.bind_eq_some_iff, detailOf?_eq_some_iff, Says]

end Response

/-! ## Failures -/

/-- The status alone decides on the kind of a failure. -/
theorem kind_refusal (status : Nat) (detail detail' : Option String) :
    (refusal status detail).kind = (refusal status detail').kind := by
  unfold refusal
  split <;> try rfl
  split <;> rfl

/-- A failure whose status has standard words has the words of the body before them; the body has no
part in any other failure. -/
theorem refusal_eq (status : Nat) (detail : Option String) :
    (∀ words, standardWords? status = some words →
      (refusal status detail).words = detail.getD words) ∧
    (standardWords? status = none → ∀ detail', refusal status detail' = refusal status detail) := by
  unfold refusal
  split
  · simp [standardWords?]
  · simp [standardWords?]
  · simp [standardWords?, ApiError.words]
  · simp [standardWords?, ApiError.words]
  · simp [standardWords?, ApiError.words]
  · simp [standardWords?, ApiError.words]
  · simp only [standardWords?]
    split <;> simp_all [ApiError.words]

end Http

end SessionGuard
