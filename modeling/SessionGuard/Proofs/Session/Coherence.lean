import SessionGuard.Proofs.Machine.Calls
import SessionGuard.Proofs.Session.Validation

/-!
# The session and its token agree

A session knows its user exactly when it is signed in (`proper_run`).  Over a store in memory it is
signed in with the stored token, for which somebody has vouched in the run: the backend, asked for
the user of the token, or the caller of a sign-in (`coherent_run`).
-/

namespace SessionGuard

namespace SessionState

/-- The states that a session comes to. -/
inductive Proper : SessionState → Prop
  | loading : Proper loading
  | unauthenticated : Proper unauthenticated
  | authenticated (user : UserProfile) : Proper (authenticated user)

theorem proper_ofVerdict (verdict : Option UserProfile) : Proper (ofVerdict verdict) := by
  cases verdict with
  | none => exact .unauthenticated
  | some user => exact .authenticated user

theorem Proper.isSome_user_iff {s : SessionState} (h : s.Proper) :
    s.user.isSome = true ↔ s.status = .authenticated := by
  cases h <;> simp [SessionState.loading, SessionState.unauthenticated,
    SessionState.authenticated]

theorem Proper.eq_unauthenticated {s : SessionState} (h : s.Proper)
    (hs : s.status = .unauthenticated) : s = .unauthenticated := by
  cases h with
  | unauthenticated => rfl
  | loading | authenticated => cases hs

end SessionState

namespace App

/-! ## The states of the session -/

theorem Moves.proper {a b : App} {v w : Option (Nat × Token)} {c : Option Change}
    (h : Moves a v c b w) (ha : a.session.state.Proper) : b.session.state.Proper := by
  cases h with
  | rest h => rwa [h.session]
  | ask _ _ h =>
    rw [h.session]
    exact .loading
  | judge _ _ _ hs =>
    rw [hs]
    exact .unauthenticated
  | @settle _ attempt token verdict h =>
    rw [h.session, session_endValidation]
    by_cases hg : a.session.generation = attempt
    · rw [settle_of_eq hg]
      exact SessionState.proper_ofVerdict verdict
    · rwa [settle_of_ne hg]
  | drop h => rwa [h.session]
  | signIn _ hs =>
    rw [hs]
    exact .authenticated _
  | miss _ hs => rwa [hs]
  | signOut h =>
    rw [h.session]
    exact .unauthenticated

/-! ## The session and the store -/

/-- The store is in memory, a signed-in session has a token there that vouches for its user, and a
signed-out one has none. -/
structure Coherent (vouched : Token → UserProfile → Prop) (a : App) : Prop where
  memory : ∃ held, a.store = .memory held
  signedIn : ∀ user, a.session.state = .authenticated user →
    ∃ token, a.store.get? = some token ∧ vouched token user
  signedOut : a.session.state = .unauthenticated → a.store.get? = none

variable {vouched : Token → UserProfile → Prop} {a b : App}

theorem Coherent.mono {vouched' : Token → UserProfile → Prop} (h : a.Coherent vouched)
    (hv : ∀ token user, vouched token user → vouched' token user) : a.Coherent vouched' := by
  refine ⟨h.memory, fun user hs => ?_, h.signedOut⟩
  obtain ⟨token, ht, hu⟩ := h.signedIn user hs
  exact ⟨token, ht, hv token user hu⟩

/-- Only the state and the store count. -/
theorem Coherent.congr (h : a.Coherent vouched) (hs : b.session.state = a.session.state)
    (ht : b.store = a.store) : b.Coherent vouched := by
  obtain ⟨hm, hi, ho⟩ := h
  refine ⟨?_, ?_, ?_⟩ <;> rw [ht]
  · exact hm
  · rwa [hs]
  · rwa [hs]

theorem coherent_of_loading (hm : ∃ held, a.store = .memory held)
    (hs : a.session.state = .loading) : a.Coherent vouched := by
  refine ⟨hm, fun user h => ?_, fun h => ?_⟩ <;> rw [hs] at h <;> cases h

theorem coherent_of_unauthenticated (hs : a.session.state = .unauthenticated)
    (ht : a.store = .memory none) : a.Coherent vouched := by
  refine ⟨⟨none, ht⟩, fun user h => ?_, fun _ => by rw [ht]; rfl⟩
  rw [hs] at h
  cases h

theorem coherent_of_authenticated {token : Token} {user : UserProfile}
    (hs : a.session.state = .authenticated user) (ht : a.store = .memory (some token))
    (hv : vouched token user) : a.Coherent vouched := by
  refine ⟨⟨_, ht⟩, fun user' h => ?_, fun h => ?_⟩
  · rw [hs] at h
    cases h
    exact ⟨token, by rw [ht]; rfl, hv⟩
  · rw [hs] at h
    cases h

theorem clear_of_memory {held : Option Token} (h : a.store = .memory held) :
    a.store.clear = .memory none := by
  rw [h, Store.clear_memory]

/-- A change signs a user in with a token: a sign-in with both, or the verdict on the token. -/
def Grounds (v : Option (Nat × Token)) (c : Option Change) (token : Token) (user : UserProfile) :
    Prop :=
  c = some (.signsIn token user) ∨
    c = some (.settles (some user)) ∧ ∃ attempt, v = some (attempt, token)

/-- A verdict in the generation of its validation is about the token that is still stored. -/
theorem Coherent.settle {attempt : Nat} {token : Token} {verdict : Option UserProfile}
    (h : a.Coherent vouched) (hj : a.Judging attempt token)
    (hv : ∀ user, verdict = some user → vouched token user) :
    (a.settle attempt (.ofVerdict verdict) verdict.isNone).Coherent vouched := by
  obtain ⟨held, hm⟩ := h.memory
  rcases hj with ⟨hg, -, ht⟩ | ⟨hlt, -⟩
  · rw [settle_of_eq hg.symm]
    cases verdict with
    | none => exact coherent_of_unauthenticated rfl (clear_of_memory hm)
    | some user =>
      exact coherent_of_authenticated rfl (hm.trans (by rw [ht held hm])) (hv user rfl)
  · rwa [settle_of_ne (Nat.ne_of_gt hlt)]

theorem Moves.coherent {v w : Option (Nat × Token)} {c : Option Change} (h : Moves a v c b w)
    (ha : a.Coherent vouched) (hj : ∀ x ∈ v, a.Judging x.1 x.2)
    (hg : ∀ token user, Grounds v c token user → vouched token user) : b.Coherent vouched := by
  obtain ⟨held, hm⟩ := ha.memory
  cases h with
  | rest h => exact ha.congr (by rw [h.session]) h.store
  | ask _ _ h => exact coherent_of_loading ⟨held, h.store.trans hm⟩ (by rw [h.session]; rfl)
  | judge clear _ hc hs ht =>
    refine coherent_of_unauthenticated (by rw [hs]) ?_
    cases clear with
    | true => exact ht.trans (clear_of_memory hm)
    | false =>
      have hnone : held = none := by
        rw [← Store.get?_memory held, ← hm]
        exact hc rfl
      rw [ht, if_neg (by simp), hm, hnone]
  | @settle _ attempt token verdict h =>
    refine (ha.settle (hj _ rfl) fun user hu => ?_).congr (by rw [h.session]; rfl) h.store
    exact hg token user (.inr ⟨by rw [hu], attempt, rfl⟩)
  | drop h => exact ha.congr (by rw [h.session]; rfl) h.store
  | @signIn _ token user ht hs =>
    rw [hm, Store.set_memory] at ht
    exact coherent_of_authenticated (by rw [hs]) (Except.ok.inj ht).symm
      (hg token user (.inl rfl))
  | miss ht =>
    rw [hm, Store.set_memory] at ht
    cases ht
  | signOut h =>
    exact coherent_of_unauthenticated (by rw [h.session]; rfl) (h.store.trans (clear_of_memory hm))

end App

namespace Machine

/-- An event pairs a user with a token: a sign-in is given both, or the backend answers a
validation or a login that has asked for the user of the token. -/
inductive Vouches (token : Token) (user : UserProfile) (m : Machine) : Event → Prop
  | given {id now} (hf : m.find? id = none) :
      Vouches token user m (.start id now (.signIn token user))
  | validated {id attempt} (hf : m.find? id = some (.validating attempt token))
      (hc : .currentUser token ∈ m.app.calls) : Vouches token user m (.answer id (.user user))
  | loggedIn {id purpose} (hf : m.find? id = some (.loginUser purpose token))
      (hc : .currentUser token ∈ m.app.calls) : Vouches token user m (.answer id (.user user))

theorem vouches_of_grounds {m : Machine} {e : Event} {token : Token} {user : UserProfile}
    (ha : m.Asked) (h : App.Grounds (m.validation? e.id) (m.change? e) token user) :
    Vouches token user m e := by
  rcases h with hc | ⟨hc, attempt, hv⟩
  · cases brings_of_change? hc with
    | signIn hf => exact .given hf
    | login hf => exact .loggedIn hf (ha _ _ _ hf rfl)
  · cases brings_of_change? hc with
    | accept =>
      have hf := validation?_eq_some_iff.1 hv
      exact .validated hf (ha _ _ _ hf rfl)

variable (settings : Settings)

theorem proper_run (store : Store) (route : Route) (es : List Event) :
    ((starting (.starting store route)).run settings es).app.session.state.Proper :=
  run_induction (I := fun m => m.app.session.state.Proper)
    (fun m e h => (moves_step settings m e).proper h) .loading es

theorem coherent_run (held : Option Token) (route : Route) (es : List Event) :
    let start := starting (.starting (.memory held) route)
    (start.run settings es).app.Coherent
      fun token user => start.Sometime settings (Vouches token user) es := by
  intro start
  induction es using List.reverseRecOn with
  | nil => exact App.coherent_of_loading ⟨held, rfl⟩ rfl
  | append_singleton es e ih =>
    have hone := oneValidation_run settings (.memory held) route es
    have hasked : (start.run settings es).Asked := asked_run settings _ es
    rw [run_append]
    refine (moves_step settings (start.run settings es) e).coherent (ih.mono ?_)
      (fun x hx => hone.judging hx) ?_
    · intro token user h
      exact sometime_concat.2 (.inl h)
    · intro token user h
      exact sometime_concat.2 (.inr (vouches_of_grounds hasked h))

/-- The session and the token never disagree.  In every run over a store in memory a user is known
exactly when the session is signed in, a signed-in session has a token stored that was paired with
its user in the run, and a signed-out one has none. -/
theorem session_agrees_with_token (settings : Settings) (held : Option Token) (route : Route)
    (events : List Event) :
    let start := starting (.starting (.memory held) route)
    let app := (start.run settings events).app
    (app.session.state.user.isSome = true ↔ app.session.state.status = .authenticated) ∧
    (∀ user, app.session.state = .authenticated user →
      ∃ token, app.store.get? = some token ∧
        start.Sometime settings (Vouches token user) events) ∧
    (app.session.state.status = .unauthenticated → app.store.get? = none) := by
  intro start app
  have hp : app.session.state.Proper := proper_run settings (.memory held) route events
  have hc := coherent_run settings held route events
  exact ⟨hp.isSome_user_iff, hc.signedIn, fun h => hc.signedOut (hp.eq_unauthenticated h)⟩

/-- A user signs in while the token stored before is judged, and the judgement comes late. -/
theorem session_agrees_with_newer_token :
    let settings : Settings := ⟨10000, true, .redirectToLogin⟩
    let user : UserProfile := ⟨"u2", "fresh@b.com", none, true, false⟩
    let stale : UserProfile := ⟨"u1", "old@b.com", none, true, false⟩
    let start := starting (.starting (.memory (some ⟨"old"⟩)) .login)
    let events := [.start 0 0 .restore, .start 1 0 (.signIn ⟨"new"⟩ user), .answer 0 (.user stale)]
    let app := (start.run settings events).app
    app.session.state = .authenticated user ∧ app.session.state.user.isSome = true ∧
      ∃ token, app.store.get? = some token ∧
        start.Sometime settings (Vouches token user) events := by
  intro settings user stale start events app
  have hs : app.session.state = .authenticated user := by decide
  obtain ⟨known, paired, -⟩ :=
    session_agrees_with_token settings (some ⟨"old"⟩) .login events
  exact ⟨hs, known.2 (by rw [hs]; rfl), paired user hs⟩

end Machine

end SessionGuard
