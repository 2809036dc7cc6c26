import SessionGuard.Proofs.Session.Generation

/-!
# One validation at a time

The flag of the session is set exactly while a validation waits, and only one ever does
(`oneValidation_run`).  As long as the generation of the validation lasts, the session is loading
and its token is the one stored; afterwards the session is loading no more.  So a validation never
ends with the session loading, and only a validation that is given up leaves it so.
-/

namespace SessionGuard

namespace App

/-! ## The validation that runs -/

/-- What a validation in flight finds in its generation, and once that is over.  A store in memory
keeps the token meanwhile; a session file may be spoilt by a sign-in that fails. -/
def Judging (a : App) (attempt : Nat) (token : Token) : Prop :=
  (attempt = a.session.generation ∧ a.session.state = .loading ∧
      ∀ held, a.store = .memory held → held = some token) ∨
    (attempt < a.session.generation ∧ a.session.state.isLoading = false)

theorem Judging.attempt_le {a : App} {attempt : Nat} {token : Token}
    (h : a.Judging attempt token) : attempt ≤ a.session.generation := by
  rcases h with ⟨he, -⟩ | ⟨hlt, -⟩
  · exact Nat.le_of_eq he
  · exact Nat.le_of_lt hlt

/-- The validation in flight, if there is one, is as given. -/
structure Runs (a : App) (v : Option (Nat × Token)) : Prop where
  validating : a.session.validating = v.isSome
  judging : ∀ x ∈ v, a.Judging x.1 x.2

theorem runs_none {a : App} (h : a.session.validating = false) : a.Runs none :=
  ⟨h, by rintro x ⟨⟩⟩

theorem Runs.congr {a b : App} {v : Option (Nat × Token)} (h : a.Runs v) (hb : b.Agrees a) :
    b.Runs v := by
  obtain ⟨hf, hj⟩ := h
  refine ⟨by rw [hb.session, hf], fun x hx => ?_⟩
  unfold Judging
  rw [hb.session, hb.store]
  exact hj x hx

/-- A validation in flight does not notice a token that cannot be stored. -/
theorem Runs.missed {a b : App} {v : Option (Nat × Token)} {token : Token}
    {f : Failed StoreError Store} (h : a.Runs v) (ht : a.store.set token = .error f)
    (hb : b.store = f.left) (hs : b.session = a.session) : b.Runs v := by
  refine ⟨by rw [hs, h.validating], fun x hx => ?_⟩
  obtain ⟨path, disk, left, -, -, hleft⟩ := Store.set_eq_error ht
  unfold Judging
  rw [hs, hb, hleft]
  refine (h.judging x hx).imp_left fun hj => ⟨hj.1, hj.2.1, ?_⟩
  rintro held ⟨⟩

/-- A validation in flight outlasts a transition that another operation makes. -/
theorem Runs.overtaken {a b : App} {x : Nat × Token} (h : a.Runs (some x))
    (hf : b.session.validating = a.session.validating)
    (hg : b.session.generation = a.session.generation + 1)
    (hs : b.session.state.isLoading = false) : b.Runs (some x) := by
  refine ⟨by rw [hf, h.validating], ?_⟩
  rintro _ ⟨⟩
  have hle : x.1 ≤ a.session.generation := (h.judging x rfl).attempt_le
  exact .inr ⟨by omega, hs⟩

/-- The operation whose validation runs, or any one if none does, leaves one that runs or none. -/
theorem Moves.runs {a b : App} {v w : Option (Nat × Token)} {c : Option Change}
    (h : Moves a v c b w) (hv : a.Runs v) : b.Runs w := by
  cases h with
  | rest h => exact hv.congr h
  | ask hf ht h =>
    refine ⟨by rw [h.session]; rfl, ?_⟩
    rintro x ⟨⟩
    refine .inl ⟨by rw [h.session]; rfl, by rw [h.session]; rfl, fun held hm => ?_⟩
    have ht' : a.beginValidation.store.get? = some _ := ht
    rwa [← h.store, hm] at ht'
  | judge clear hf hc hs ht => exact runs_none (by rw [hs])
  | settle h => exact runs_none (by rw [h.session]; rfl)
  | drop h => exact runs_none (by rw [h.session]; rfl)
  | signIn ht hs => exact runs_none (by rw [hs]; exact hv.validating)
  | miss ht hs => exact runs_none (by rw [hs]; exact hv.validating)
  | signOut h => exact runs_none (by rw [h.session]; exact hv.validating)

/-- While a validation runs, other operations start none and keep its flag. -/
theorem Moves.runs_other {a b : App} {w : Option (Nat × Token)} {c : Option Change}
    {x : Nat × Token} (h : Moves a none c b w) (hx : a.Runs (some x)) :
    w = none ∧ b.Runs (some x) := by
  cases h with
  | rest h => exact ⟨rfl, hx.congr h⟩
  | ask hf | judge _ hf =>
    rw [hx.validating] at hf
    cases hf
  | signIn ht hs => exact ⟨rfl, hx.overtaken (by rw [hs]) (by rw [hs]) (by rw [hs]; rfl)⟩
  | miss ht hs => exact ⟨rfl, hx.missed ht rfl hs⟩
  | signOut h =>
    exact ⟨rfl, hx.overtaken (by rw [h.session]; rfl) (by rw [h.session]; rfl)
      (by rw [h.session]; rfl)⟩

end App

namespace Machine

/-- All operations but one are no validations, and that one is the validation that runs, if any
does. -/
def OneValidation (m : Machine) : Prop :=
  ∃ owner, (∀ j, j ≠ owner → m.validation? j = none) ∧ m.app.Runs (m.validation? owner)

theorem oneValidation_starting {app : App} (h : app.session.validating = false) :
    (starting app).OneValidation :=
  ⟨0, fun _ _ => rfl, App.runs_none h⟩

variable (settings : Settings) {m : Machine}

theorem oneValidation_step (e : Event) (h : m.OneValidation) :
    (m.step settings e).OneValidation := by
  obtain ⟨owner, hother, hrun⟩ := h
  have hm := moves_step settings m e
  by_cases ho : owner = e.id
  · subst ho
    refine ⟨e.id, fun j hj => ?_, hm.runs hrun⟩
    rw [validation?_step_of_ne settings m hj, hother j hj]
  · have he : m.validation? e.id = none := hother e.id (Ne.symm ho)
    rw [he] at hm
    have hsame := validation?_step_of_ne settings m ho
    cases hv : m.validation? owner with
    | none =>
      -- no validation runs: the operation of the event may start one
      rw [hv] at hrun
      refine ⟨e.id, fun j hj => ?_, hm.runs hrun⟩
      rw [validation?_step_of_ne settings m hj]
      by_cases hjo : j = owner
      · rw [hjo, hv]
      · exact hother j hjo
    | some x =>
      rw [hv] at hrun
      obtain ⟨hw, hb⟩ := hm.runs_other hrun
      refine ⟨owner, fun j hj => ?_, by rwa [hsame, hv]⟩
      by_cases hje : j = e.id
      · rw [hje, hw]
      · rw [validation?_step_of_ne settings m hje, hother j hj]

theorem oneValidation_run (store : Store) (route : Route) (es : List Event) :
    ((starting (.starting store route)).run settings es).OneValidation :=
  run_induction (fun _ e h => oneValidation_step settings e h) (oneValidation_starting rfl) es

theorem OneValidation.exists_owner (h : m.OneValidation) :
    ∃ owner, (∀ id v, m.validation? id = some v → id = owner) ∧
      m.app.Runs (m.validation? owner) := by
  obtain ⟨owner, hother, hrun⟩ := h
  refine ⟨owner, fun id v hv => ?_, hrun⟩
  by_contra ho
  rw [hother id ho] at hv
  cases hv

theorem OneValidation.judging (h : m.OneValidation) {id attempt : Nat} {token : Token}
    (hv : m.validation? id = some (attempt, token)) : m.app.Judging attempt token := by
  obtain ⟨owner, howner, hrun⟩ := h.exists_owner
  obtain rfl := howner id _ hv
  exact hrun.judging _ hv

/-! ## From the beginning of a validation to its end -/

/-- A validation waits under a number. -/
def Validates (m : Machine) (id : Nat) : Prop :=
  ∃ attempt token, m.find? id = some (.validating attempt token)

/-- An event gives up the validation that started a generation. -/
def Drops (attempt : Nat) (m : Machine) (e : Event) : Prop :=
  ∃ id token, e = .abandon id ∧ m.find? id = some (.validating attempt token)

theorem validates_iff {id : Nat} : m.Validates id ↔ ∃ v, m.validation? id = some v := by
  constructor
  · rintro ⟨attempt, token, h⟩
    exact ⟨_, validation?_eq_some_iff.2 h⟩
  · rintro ⟨⟨attempt, token⟩, h⟩
    exact ⟨attempt, token, validation?_eq_some_iff.1 h⟩

/-- Started under a number, a validation opens a generation; then it is over, or it waits with a
call for the stored token. -/
def StartsAfresh (settings : Settings) (m : Machine) (id : Nat) (now : Int) : Prop :=
  let next := m.step settings (.start id now .restore)
  m.Begins (.start id now .restore) ∧
    next.app.session.generation = m.app.session.generation + 1 ∧
    ((m.Ends settings (.start id now .restore) .done ∧
        next.app.session.state = .unauthenticated) ∨
      ∃ token, m.app.store.get? = some token ∧
        next.find? id = some (.validating (m.app.session.generation + 1) token) ∧
        next.app.calls = m.app.calls ++ [.currentUser token] ∧
        next.app.session.state = .loading)

theorem startsAfresh {id : Nat} (now : Int) (hf : m.find? id = none)
    (hv : m.app.session.validating = false) : m.StartsAfresh settings id now := by
  have hb : m.Begins (.start id now .restore) := by
    simp [Begins, change?, hf, Operation.change?, hv]
  have hg := (moves_step settings m (.start id now .restore)).generation
  rw [show m.change? _ = _ from hb] at hg
  refine ⟨hb, hg, ?_⟩
  have hnext : m.step settings (.start id now .restore) =
      m.advance id (m.app.startValidation settings now) := by
    simp only [step, hf]
    rfl
  rcases App.startValidation_cases settings now hv with ⟨clear, -, h⟩ | ⟨token, ht, h⟩
  · rw [Ends, hnext, h]
    refine .inl ⟨rfl, ?_⟩
    rw [app_advance]
    simp [App.finishValidation, App.settle, App.beginValidation]
  · rw [hnext, h]
    refine .inr ⟨token, ht, ?_⟩
    rw [app_advance, find?_advance, if_pos rfl]
    exact ⟨rfl, rfl, rfl⟩

/-- A validation that waits goes on waiting, ends or is given up. -/
theorem step_of_validating {e : Event} {attempt : Nat} {token : Token}
    (h : m.find? e.id = some (.validating attempt token)) :
    (m.step settings e).find? e.id = some (.validating attempt token) ∨
      m.Ends settings e .done ∨ e = .abandon e.id := by
  unfold Ends
  cases e with
  | start id now op =>
    simp only [Event.id] at h
    simp [step, Event.id, h]
  | answer id reply =>
    simp only [Event.id] at h
    simp only [step, Event.id, h, find?_advance]
    cases reply <;>
      simp [App.answer, App.finishValidation, Progress.waiting?, advance]
  | timeout id =>
    simp only [Event.id] at h
    simp [step, Event.id, h, App.timeout, App.finishValidation, advance]
  | wake id =>
    simp only [Event.id] at h
    simp only [step, Event.id, h, find?_advance, App.wake]
    split <;> simp [Progress.waiting?]
  | abandon id => exact .inr (.inr rfl)

/-- A validation waits after an event if it waited or starts, and neither ends nor is given up. -/
theorem validates_step_iff (e : Event) (id : Nat) :
    (m.step settings e).Validates id ↔
      (m.Validates id ∨ m.Begins e ∧ e.id = id) ∧
        ¬ (e.id = id ∧ (m.Ends settings e .done ∨ e = .abandon id)) := by
  by_cases hid : id = e.id
  · subst hid
    constructor
    · rintro h
      refine ⟨?_, ?_⟩
      · obtain ⟨w, hw⟩ := validates_iff.1 h
        have hm := moves_step settings m e
        rw [hw] at hm
        rw [validates_iff, Begins]
        generalize m.change? e = c at hm
        generalize m.validation? e.id = v at hm
        cases hm with
        | rest => exact .inl ⟨w, rfl⟩
        | ask => exact .inr ⟨rfl, rfl⟩
      · obtain ⟨attempt, token, h⟩ := h
        rintro ⟨-, he | he⟩
        · rw [find?_of_ends he] at h
          cases h
        · rw [he, Event.id, find?_step_abandon] at h
          cases h
    · rintro ⟨h | ⟨h, -⟩, hn⟩
      · obtain ⟨attempt, token, hf⟩ := h
        rcases step_of_validating settings hf with hw | he
        · exact ⟨attempt, token, hw⟩
        · exact absurd ⟨rfl, he⟩ hn
      · cases brings_of_change? h with
        | restore hf hv =>
          obtain ⟨-, -, ⟨he, -⟩ | ⟨token, -, hw, -⟩⟩ := startsAfresh settings _ hf hv
          · exact absurd ⟨rfl, .inl he⟩ hn
          · exact ⟨_, token, hw⟩
  · have hid' : ¬ e.id = id := fun h => hid h.symm
    simp [Validates, find?_step_of_ne settings m hid, hid']

/-- A validation that is asked for while another one runs is over at once, and changes nothing. -/
theorem step_of_coalesced {id : Nat} (now : Int) (hf : m.find? id = none)
    (hv : m.app.session.validating = true) :
    m.step settings (.start id now .restore) =
      { m with finished := m.finished ++ [(id, .done)] } := by
  have hothers : m.waiting.filter (fun w => w.1 != id) = m.waiting := by
    rw [List.filter_eq_self]
    have hnone := List.find?_eq_none.1 (Option.map_eq_none_iff.1 hf)
    intro w hw
    simpa using hnone w hw
  simp [step, hf, App.start, App.startValidation, hv, advance, hothers]

/-- The flag is set exactly while a validation waits. -/
theorem OneValidation.validating_iff (h : m.OneValidation) :
    m.app.session.validating = true ↔ ∃ id, m.Validates id := by
  obtain ⟨owner, howner, hrun⟩ := h.exists_owner
  rw [hrun.validating, Option.isSome_iff_exists, ← validates_iff]
  constructor
  · intro h
    exact ⟨owner, h⟩
  · rintro ⟨id, h⟩
    obtain ⟨v, hv⟩ := validates_iff.1 h
    rwa [← howner id v hv]

theorem OneValidation.unique (h : m.OneValidation) {id j : Nat} (hi : m.Validates id)
    (hj : m.Validates j) : id = j := by
  obtain ⟨owner, howner, -⟩ := h.exists_owner
  obtain ⟨v, hv⟩ := validates_iff.1 hi
  obtain ⟨w, hw⟩ := validates_iff.1 hj
  rw [howner id v hv, howner j w hw]

end Machine

/-! ## When the session is loading -/

/-- A session is loading after a change only if it was before and no validation started, or if one
has just started, or if the one that has made it load is given up. -/
theorem App.Moves.loading {a b : App} {v w : Option (Nat × Token)} {c : Option Change}
    (h : Moves a v c b w) (hj : ∀ x ∈ v, a.Judging x.1 x.2)
    (hb : b.session.state.isLoading = true) :
    (c ≠ some .begins ∧ b.session = a.session ∧ w = v) ∨
      (∃ token, w = some (b.session.generation, token)) ∨
      (c = some .drops ∧ ∃ token, v = some (b.session.generation, token)) := by
  cases h with
  | rest h => exact .inl ⟨by simp, h.session, rfl⟩
  | ask _ _ h => exact .inr (.inl ⟨_, by rw [h.session]; rfl⟩)
  | judge _ _ _ hs =>
    rw [hs] at hb
    cases hb
  | @settle _ attempt token verdict h =>
    rw [h.session] at hb
    rcases hj _ rfl with ⟨hg, -⟩ | ⟨hlt, hs⟩
    · -- the verdict counts, and no verdict leaves the session loading
      rw [settle_of_eq hg.symm, session_endValidation, SessionState.isLoading_ofVerdict] at hb
      cases hb
    · rw [settle_of_ne (Nat.ne_of_gt hlt), session_endValidation, hs] at hb
      cases hb
  | @drop _ x h =>
    rw [h.session] at hb
    rcases hj _ rfl with ⟨hg, -⟩ | ⟨-, hs⟩
    · exact .inr (.inr ⟨rfl, x.2, by rw [h.session, session_endValidation, ← hg]⟩)
    · rw [session_endValidation, hs] at hb
      cases hb
  | signIn _ hs =>
    rw [hs] at hb
    cases hb
  | miss _ hs => exact .inl ⟨by simp, hs, rfl⟩
  | signOut h =>
    rw [h.session] at hb
    cases hb

namespace Machine

variable (settings : Settings) {m : Machine}

/-- A validation never ends with the session loading. -/
theorem isLoading_of_ends {e : Event} (h : m.OneValidation)
    (he : m.Validates e.id ∨ m.Begins e) (hends : m.Ends settings e .done) :
    (m.step settings e).app.session.state.isLoading = false := by
  rw [← Bool.not_eq_true]
  intro hl
  have hw : (m.step settings e).validation? e.id = none :=
    validation?_of_find? (find?_of_ends hends)
  rcases (moves_step settings m e).loading (fun x hx => h.judging hx) hl with
    ⟨hc, -, hv⟩ | ⟨token, hv⟩ | ⟨hc, -⟩
  · rcases he with he | he
    · obtain ⟨v, he⟩ := validates_iff.1 he
      rw [← hv, hw] at he
      cases he
    · exact absurd he hc
  · rw [hw] at hv
    cases hv
  · cases brings_of_change? hc with
    | drop => exact not_ends_abandon settings _ _ hends

/-- A session that is loading has not begun to judge its token, or judges it, or the judgement was
given up. -/
theorem loading_run (store : Store) (route : Route) (es : List Event) :
    let start := starting (.starting store route)
    let m := start.run settings es
    m.app.session.state.isLoading = true →
      ¬ start.Sometime settings Begins es ∨
        (∃ id token, m.find? id = some (.validating m.app.session.generation token)) ∨
        start.Sometime settings (Drops m.app.session.generation) es := by
  intro start
  induction es using List.reverseRecOn with
  | nil => exact fun _ => .inl id
  | append_singleton es e ih =>
    intro m hl
    have hm : m = (start.run settings es).step settings e := run_append ..
    simp only [sometime_concat]
    rw [hm] at hl ⊢
    have hone := oneValidation_run settings store route es
    rcases (moves_step settings (start.run settings es) e).loading
      (fun x hx => hone.judging hx) hl with ⟨hc, hs, hv⟩ | ⟨token, hv⟩ | ⟨hc, token, hv⟩
    · rw [hs]
      rcases ih (hs ▸ hl) with h | ⟨id, token, h⟩ | h
      · exact .inl (by simp [h, Begins, hc])
      · refine .inr (.inl ⟨id, token, ?_⟩)
        rw [← validation?_eq_some_iff] at h ⊢
        by_cases hid : id = e.id
        · rw [hid, hv, ← hid, h]
        · rw [validation?_step_of_ne settings _ hid, h]
      · exact .inr (.inr (.inl h))
    · exact .inr (.inl ⟨e.id, token, validation?_eq_some_iff.1 hv⟩)
    · cases brings_of_change? hc with
      | @drop id => exact .inr (.inr (.inr ⟨id, token, rfl, validation?_eq_some_iff.1 hv⟩))

/-! ## After a validation is given up -/

/-- Only a validation that starts sets the flag. -/
theorem validating_run {es : List Event} (h : m.app.session.validating = false)
    (hes : ¬ m.Sometime settings Begins es) :
    (m.run settings es).app.session.validating = false := by
  induction es generalizing m with
  | nil => exact h
  | cons e es ih =>
    refine ih ?_ (fun he => hes (.inr he))
    have hc : m.change? e ≠ some .begins := fun he => hes (.inl he)
    have hm := moves_step settings m e
    generalize m.change? e = c at hm hc
    generalize m.validation? e.id = v at hm
    generalize (m.step settings e).validation? e.id = w at hm
    cases hm with
    | rest hb => rw [hb.session, h]
    | ask | judge => exact absurd rfl hc
    | settle hb | drop hb => rw [hb.session]; rfl
    | signIn _ hs => rw [hs]; exact h
    | miss _ hs => rw [hs]; exact h
    | signOut hb => rw [hb.session]; exact h

theorem validating_step_abandon {id : Nat} (h : m.Validates id) :
    (m.step settings (.abandon id)).app.session.validating = false := by
  obtain ⟨attempt, token, h⟩ := h
  simp [step, h, App.abandon]

/-! ## The whole -/

/-- One validation runs at a time, and the session does not stay loading.  The flag is set exactly
while a validation waits, which is from its start to its end or until it is given up; meanwhile
another one asked for is over at once and changes nothing.  The session is loading only before the
first validation, while the validation of its generation waits, or once that has been given up: no
validation ends with the session loading, and after one is given up the next one asked for starts
afresh. -/
theorem one_validation_at_a_time (settings : Settings) (store : Store) (route : Route)
    (events : List Event) :
    let start := starting (.starting store route)
    let m := start.run settings events
    (m.app.session.validating = true ↔ ∃ id, m.Validates id) ∧
    (∀ id j, m.Validates id → m.Validates j → id = j) ∧
    (∀ e id, (m.step settings e).Validates id ↔
      (m.Validates id ∨ m.Begins e ∧ e.id = id) ∧
        ¬ (e.id = id ∧ (m.Ends settings e .done ∨ e = .abandon id))) ∧
    (∀ id now, m.app.session.validating = true → m.find? id = none →
      m.step settings (.start id now .restore) =
        { m with finished := m.finished ++ [(id, .done)] }) ∧
    (m.app.session.state.isLoading = true →
      ¬ start.Sometime settings Begins events ∨
        (∃ id token, m.find? id = some (.validating m.app.session.generation token)) ∨
        start.Sometime settings (Drops m.app.session.generation) events) ∧
    (∀ e, m.Validates e.id ∨ m.Begins e → m.Ends settings e .done →
      (m.step settings e).app.session.state.isLoading = false) ∧
    (∀ id es, m.Validates id →
      ¬ (m.step settings (.abandon id)).Sometime settings Begins es →
      let later := (m.step settings (.abandon id)).run settings es
      ∀ j now, later.find? j = none → later.StartsAfresh settings j now) := by
  intro start m
  have hone : m.OneValidation := oneValidation_run settings store route events
  refine ⟨hone.validating_iff, fun id j => hone.unique, validates_step_iff settings,
    fun id now hv hf => step_of_coalesced settings now hf hv,
    loading_run settings store route events, fun e => isLoading_of_ends settings hone, ?_⟩
  intro id es hv hes later j now hj
  exact startsAfresh settings now hj
    (validating_run settings (validating_step_abandon settings hv) hes)

/-- While a validation waits another one asked for is over at once, and once it is given up the
next one starts afresh. -/
theorem one_validation_after_abandon :
    let settings : Settings := ⟨10000, true, .redirectToLogin⟩
    let m := (starting (.starting (.memory (some ⟨"t"⟩)) .login)).run settings
      [.start 0 0 .restore]
    m.Validates 0 ∧
      m.step settings (.start 1 0 .restore) =
        { m with finished := m.finished ++ [(1, .done)] } ∧
      (m.step settings (.abandon 0)).StartsAfresh settings 1 5 := by
  intro settings m
  have hv : m.Validates 0 := ⟨1, ⟨"t"⟩, by decide⟩
  obtain ⟨flag, -, -, coalesced, -, -, afresh⟩ :=
    one_validation_at_a_time settings (.memory (some ⟨"t"⟩)) .login [.start 0 0 .restore]
  refine ⟨hv, coalesced 1 0 (flag.2 ⟨0, hv⟩) rfl, ?_⟩
  exact afresh 0 [] hv id 1 5 (by decide)

end Machine

end SessionGuard
