import SessionGuard.Proofs.Backend.Address
import SessionGuard.Proofs.Text.Base64

/-!
# What requests say

A request says which call it makes: it goes where the call goes (`goes_of_request`), and only that
for the user of a token shows the token (`authorization_eq_bearer_iff`).  Whether there is one depends
on the address of the call, and on whether the token can stand in a header (`exists_request`).
-/

namespace SessionGuard

namespace Http

/-- A user and a password can stand in a header, whatever they are. -/
theorem isHeaderValue_basic (user : String) (password : Option String) :
    isHeaderValue (basic user password) = true := by
  have hdigit : ∀ n < 64, ∀ c, c = Text.Base64.digit n →
      ' ' ≤ (if c = '-' then '+' else if c = '_' then '/' else c) ∧
        (if c = '-' then '+' else if c = '_' then '/' else c) ≠ '\x7f' := by
    intro n hn c hc
    subst hc
    revert n
    decide +kernel
  simp only [isHeaderValue, basic, String.toList_append, String.toList_ofList, List.all_append,
    Bool.and_eq_true]
  refine ⟨by decide, List.all_eq_true.2 fun c hc => ?_, List.all_eq_true.2 fun c hc => ?_⟩
  · obtain ⟨digit, hd, rfl⟩ := List.mem_map.1 hc
    obtain ⟨n, hn, rfl⟩ := Text.Base64.exists_digit hd
    obtain ⟨hle, hne⟩ := hdigit n hn _ rfl
    simp [hle, hne]
  · rw [(List.mem_replicate.1 hc).2]
    decide

theorem basic_ne_bearer (user : String) (password : Option String) (text : String) :
    basic user password ≠ bearer text := by
  intro h
  have h := congrArg (fun s => (s.toList.drop 1).head?) h
  simp [basic, bearer] at h

end Http

namespace Backend

open Http (Request)

variable {host : String} {call : Call} {r : Request}

/-- What the request of a call says besides where it goes. -/
theorem request_eq_ok (h : request host call = .ok r) :
    ∃ full, url host call = .ok full ∧
      r = ⟨method call, full.anonymous, body? call, authorization full call⟩ := by
  unfold request at h
  cases hu : url host call with
  | error e => rw [hu] at h; cases h
  | ok full =>
    rw [hu] at h
    simp only [bind, Except.bind] at h
    split at h
    · cases h
    · split at h
      · cases h
      · split at h
        · cases h
        · cases h
          exact ⟨full, rfl, rfl⟩

/-- The request of a call goes where the call goes. -/
theorem goes_of_request (h : request host call = .ok r) : Goes host call r.url := by
  obtain ⟨full, hu, rfl⟩ := request_eq_ok h
  exact goes_of_url hu

theorem body_of_request (h : request host call = .ok r) : r.body = body? call := by
  obtain ⟨full, -, rfl⟩ := request_eq_ok h
  rfl

theorem method_eq_get_iff (h : request host call = .ok r) :
    r.method = .get ↔ ∃ token, call = .currentUser token := by
  obtain ⟨full, -, rfl⟩ := request_eq_ok h
  cases call <;> simp [method]

theorem authorization_eq_bearer_iff (h : request host call = .ok r) (text : String) :
    r.authorization = some (Http.bearer text) ↔ call = .currentUser ⟨text⟩ := by
  obtain ⟨full, -, rfl⟩ := request_eq_ok h
  have hbearer (token : String) : Http.bearer token = Http.bearer text ↔ token = text := by
    simp [Http.bearer]
  unfold authorization
  split
  · next token =>
    rw [Option.some.injEq, hbearer, Call.currentUser.injEq]
    exact ⟨fun ht => congrArg Token.mk ht, fun ht => congrArg Token.text ht⟩
  · next hcall =>
    have hne : call ≠ .currentUser ⟨text⟩ := hcall _
    split <;> simp [hne, Http.basic_ne_bearer]

/-- The address of a call can stand in a request. -/
def Addresses (host : String) (call : Call) : Prop :=
  ∃ full, url host call = .ok full ∧ full.hasHost = true ∧
    (full.scheme = "http" ∨ full.scheme = "https") ∧ isSendable full.anonymous = true

/-- A call whose address is fit has a request, unless its token cannot stand in a header. -/
theorem exists_request (ha : Addresses host call)
    (ht : ∀ token, call = .currentUser token → Http.isHeaderValue (Http.bearer token.text) = true) :
    ∃ r, request host call = .ok r := by
  obtain ⟨full, hu, hhost, hscheme, hsend⟩ := ha
  have hheader : (authorization full call).all Http.isHeaderValue = true := by
    unfold authorization
    split
    · rw [Option.all_some, ht _ rfl]
    · split
      · rfl
      · rw [Option.all_some, Http.isHeaderValue_basic]
  refine ⟨⟨method call, full.anonymous, body? call, authorization full call⟩, ?_⟩
  have hscheme' : (full.anonymous.scheme ≠ "http" && full.anonymous.scheme ≠ "https") = false := by
    rcases hscheme with hs | hs <;> simp [show full.anonymous.scheme = full.scheme from rfl, hs]
  unfold request
  rw [hu]
  simp only [bind, Except.bind, hhost, hheader, hscheme', hsend, Bool.not_true, Bool.or_self,
    Bool.false_eq_true, if_false]

end Backend

end SessionGuard
