import SessionGuard.Proofs.Session.Verdict
import SessionGuard.Proofs.World.Move

/-!
# What a validation computes

In a world with a clock a validation that asks the backend is on its way (`Flies`) up to the moment
that the delay of the reply and the time limit set (`deadline`): it has a timer for that moment
(`Pending`), which no move passes.  Then it ends with what it has found, whatever other operations
have done meanwhile (`restore_computes_verdict`).
-/

namespace SessionGuard

/-- What the backend says of the user of a token. -/
def Reply.ofProfile : Except ApiError UserProfile → Reply
  | .ok u => .user u
  | .error e => .failed e

namespace Machine

variable (settings : Settings) {m : Machine} {id attempt : Nat} {token : Token}

/-! ## The end of a validation -/

theorem step_answer_validating (hf : m.find? id = some (.validating attempt token))
    (answer : Except ApiError UserProfile) :
    m.step settings (.answer id (.ofProfile answer)) =
      m.advance id (m.app.finishValidation attempt (.ofVerdict answer.toOption)
        answer.toOption.isNone) := by
  cases answer <;> simp only [step, hf] <;> rfl

theorem step_timeout_validating (hf : m.find? id = some (.validating attempt token)) :
    m.step settings (.timeout id) =
      m.advance id (m.app.finishValidation attempt (.ofVerdict none) true) := by
  simp only [step, hf]
  rfl

/-! ## While a validation waits -/

/-- While a validation waits, other operations do not touch the session and a store in memory, or they
make a transition. -/
theorem agrees_step_or_lt {e : Event} (h : m.OneValidation) {v : Nat × Token} {held : Option Token}
    (hmem : m.app.store = .memory held) (hv : m.validation? id = some v) (he : e.id ≠ id) :
    (m.step settings e).app.Agrees m.app ∨
      m.app.session.generation < (m.step settings e).app.session.generation := by
  have hm := moves_step settings m e
  have hlt : (m.change? e).any Change.isTransition = true →
      m.app.session.generation < (m.step settings e).app.session.generation :=
    fun ht => generation_lt_step settings ht
  have hown : m.validation? e.id = none := by
    obtain ⟨owner, howner, -⟩ := h.exists_owner
    by_contra hne
    obtain ⟨v', hv'⟩ := Option.ne_none_iff_exists'.1 hne
    exact he ((howner _ _ hv').trans (howner _ _ hv).symm)
  rw [hown] at hm
  generalize m.change? e = c at hm hlt
  generalize (m.step settings e).validation? e.id = w at hm
  cases hm with
  | rest h => exact .inl h
  | ask | judge | signIn | signOut => exact .inr (hlt rfl)
  | miss ht =>
    rw [hmem, Store.set_memory] at ht
    cases ht

/-- So without a transition they have not touched them in a whole run. -/
theorem agrees_run_of_ne {es : List Event} (h : m.OneValidation) {v : Nat × Token}
    {held : Option Token} (hmem : m.app.store = .memory held) (hv : m.validation? id = some v)
    (hes : ∀ e ∈ es, e.id ≠ id)
    (hg : (m.run settings es).app.session.generation = m.app.session.generation) :
    (m.run settings es).app.Agrees m.app := by
  induction es generalizing m with
  | nil => exact .refl _
  | cons e es ih =>
    obtain ⟨he, hes⟩ := List.forall_mem_cons.1 hes
    have hle := generation_le_run settings (m := m.step settings e) es
    rcases agrees_step_or_lt settings h hmem hv he with ha | hlt
    · refine (ih (oneValidation_step settings e h) (ha.store.trans hmem) ?_ hes ?_).trans ha
      · rw [validation?_step_of_ne settings m (Ne.symm he), hv]
      · rw [ha.session]
        exact hg
    · rw [run_cons] at hg
      omega

end Machine

namespace World

variable {w v v' : World} {id : Nat}

/-! ## Runs of an operation that ends -/

theorem happen_of_find?_eq_none (id : Nat) {e : Event}
    (h : (w.machine.step w.settings e).find? id = none) :
    (w.happen id e).machine = w.machine.step w.settings e ∧ (w.happen id e).clock = w.clock ∧
      (w.happen id e).fresh = w.fresh ∧ ∀ x ∈ (w.happen id e).flights, x.1 ≠ id := by
  obtain ⟨woken, -, heq⟩ := happen_eq id e w
  have hstop : (w.stepped id e woken).goOn id = w.stepped id e woken := by
    unfold goOn
    rw [show (w.stepped id e woken).machine.find? id = none from h]
    rfl
  rw [heq, hstop]
  exact ⟨rfl, rfl, rfl, fun x hx => by simpa using (List.mem_filter.1 hx).2⟩

/-- An operation that does not wait, has no call on its way and is not to begin does nothing. -/
theorem runWithin_of_absent (fuel : Nat) (hf : w.machine.find? id = none)
    (hfresh : ∀ x ∈ w.fresh, x.1 ≠ id) (hflights : ∀ x ∈ w.flights, x.1 ≠ id) :
    (w.runWithin fuel id).machine = w.machine ∧ (w.runWithin fuel id).clock = w.clock := by
  cases fuel with
  | zero => exact ⟨rfl, rfl⟩
  | succ fuel =>
    have hwake : w.machine.step w.settings (.wake id) = w.machine := by
      simp only [Machine.step, hf]
    have hrun : w.runWithin (fuel + 1) id = w.happen id (.wake id) := by
      unfold runWithin
      rw [List.find?_eq_none.2 (by simpa using hfresh), List.find?_eq_none.2 (by simpa using hflights)]
    obtain ⟨hm, hc, -, -⟩ := happen_of_find?_eq_none (w := w) id (e := .wake id) (by rw [hwake, hf])
    rw [hrun]
    exact ⟨hm.trans hwake, hc⟩

/-- An operation that ends in its run has ended after it. -/
theorem runWithin_of_ended {e : Event} (fuel : Nat) (hfresh : ∀ x ∈ w.fresh, x.1 ≠ id)
    (h : (w.machine.step w.settings e).find? id = none) :
    ((w.happen id e).runWithin fuel id).machine = w.machine.step w.settings e ∧
      ((w.happen id e).runWithin fuel id).clock = w.clock := by
  obtain ⟨hm, hc, hf, hflights⟩ := happen_of_find?_eq_none id h
  obtain ⟨hm', hc'⟩ := runWithin_of_absent (w := w.happen id e) fuel (by rw [hm, h])
    (by rwa [hf]) hflights
  exact ⟨hm'.trans hm, hc'.trans hc⟩

/-! ## A validation on its way -/

/-- The call of a validation that starts in a world whose backend answers after a delay, or
never. -/
def asked (w : World) (delay : Nat) (answer : Option (Except ApiError UserProfile)) : Flight :=
  ⟨none, delay, w.clock + delay, answer.map .ofProfile, some (w.clock + w.settings.timeout)⟩

/-- The moment at which that validation ends. -/
def deadline (w : World) (delay : Nat) (answer : Option (Except ApiError UserProfile)) : Nat :=
  w.clock + if answer.isSome then min delay w.settings.timeout else w.settings.timeout

/-- What that validation finds: the user whom the backend names in time. -/
def verdict? (w : World) (delay : Nat) (answer : Option (Except ApiError UserProfile)) :
    Option UserProfile :=
  if delay ≤ w.settings.timeout then answer.bind Except.toOption else none

variable {delay : Nat} {answer : Option (Except ApiError UserProfile)} {token : Token}

/-- A validation that has started in one world waits in another one. -/
structure Flies (w : World) (id delay : Nat) (answer : Option (Except ApiError UserProfile))
    (token : Token) (v : World) : Prop where
  settings : v.settings = w.settings
  ordered : v.Ordered
  waits : v.machine.find? id =
    some (.validating (w.machine.app.session.generation + 1) token)
  fresh : ∀ x ∈ v.fresh, x.1 ≠ id
  flight : (id, w.asked delay answer) ∈ v.flights
  unique : ∀ x ∈ v.flights, x.1 = id → x.2 = w.asked delay answer
  unfinished : v.outcome? id = none
  one : v.machine.OneValidation
  memory : ∀ held, w.machine.app.store = .memory held →
    v.machine.app.session.generation = w.machine.app.session.generation + 1 →
    v.machine.app.store = .memory held

/-- It has a timer for the moment of its end, or that moment has come and it runs on. -/
def Pending (w : World) (id delay : Nat) (answer : Option (Except ApiError UserProfile))
    (v : World) : Prop :=
  v.clock < w.deadline delay answer ∧ (w.deadline delay answer, id) ∈ v.timers ∨
    v.clock = w.deadline delay answer ∧ id ∈ v.woken

theorem Flies.find?_flights (h : w.Flies id delay answer token v) :
    v.flights.find? (fun f => f.1 == id) = some (id, w.asked delay answer) := by
  cases hf : v.flights.find? (fun f => f.1 == id) with
  | none => simpa using List.find?_eq_none.1 hf _ h.flight
  | some x =>
    have hid : x.1 = id := by simpa using List.find?_some hf
    have hx := h.unique x (List.mem_of_find?_eq_some hf) hid
    rw [← hid, ← hx]

theorem Flies.find?_fresh (h : w.Flies id delay answer token v) :
    v.fresh.find? (fun f => f.1 == id) = none :=
  List.find?_eq_none.2 (by simpa using h.fresh)

/-- What leaves the operation alone leaves its validation on its way. -/
theorem Flies.spares (h : w.Flies id delay answer token v) (hs : Spares (· = id) v v') :
    w.Flies id delay answer token v' := by
  obtain ⟨es, hes, hm⟩ := hs.machine
  refine ⟨hs.settings.trans h.settings, hs.ordered, ?_, fun x hx hid => ?_,
    (hs.flights _ rfl).2 h.flight, fun x hx hid => h.unique x ((hs.flights x hid).1 hx) hid,
    ?_, ?_, fun held hmem hg => ?_⟩
  · rw [hm, Machine.find?_run_of_ne _ _ hes, h.waits]
  · exact h.fresh x (hs.fresh x hx hid) hid
  · have hu := h.unfinished
    unfold outcome? at hu ⊢
    rw [hm, Machine.find?_finished_run_of_ne _ _ hes, hu]
  · rw [hm]
    exact Machine.run_induction (fun _ e => Machine.oneValidation_step v.settings e) h.one es
  · have hv := Machine.validation?_eq_some_iff.2 h.waits
    have hle := (h.one.judging hv).attempt_le
    have hle' := Machine.generation_le_run v.settings (m := v.machine) es
    rw [hm] at hg ⊢
    have hg' : v.machine.app.session.generation = w.machine.app.session.generation + 1 := by
      omega
    have hkept := h.memory held hmem hg'
    exact (Machine.agrees_run_of_ne v.settings h.one hkept hv hes (hg.trans hg'.symm)).store.trans
      hkept

theorem Pending.spares (h : w.Pending id delay answer v) (hs : Spares (· = id) v v') :
    w.Pending id delay answer v' := by
  unfold Pending
  rw [hs.clock]
  exact h.imp (fun h => ⟨h.1, hs.timers _ h.2 rfl⟩) (fun h => ⟨h.1, hs.woken _ h.2 rfl⟩)

/-- Time passes no further than to the end of the validation, which then runs on. -/
theorem Pending.pass (h : w.Pending id delay answer v) (ho : v.Ordered) {moment : Nat}
    (hw : v.woken = []) (ht : ∀ t ∈ v.timers, moment ≤ t.1) :
    w.Pending id delay answer (v.moveTo moment) := by
  rcases h with ⟨hlt, htimer⟩ | ⟨-, hid⟩
  · obtain ⟨woken, timers, -, hfired, hleft, -, heq⟩ := moveTo_eq ho moment
    have hle : max v.clock moment ≤ w.deadline delay answer :=
      max_le (Nat.le_of_lt hlt) (ht _ htimer)
    rw [heq]
    rcases Nat.lt_or_eq_of_le hle with hlt | he
    · exact .inl ⟨hlt, hleft _ htimer hlt⟩
    · exact .inr ⟨he, hfired _ htimer (Nat.le_of_eq he.symm)⟩
  · rw [hw] at hid
    cases hid

theorem Flies.moveTo (h : w.Flies id delay answer token v) (moment : Nat) :
    w.Flies id delay answer token (v.moveTo moment) := by
  obtain ⟨woken, timers, -, -, -, ho, heq⟩ := moveTo_eq h.ordered moment
  rw [heq]
  exact { h with ordered := ho }

/-! ## A validation that runs on -/

/-- Before its end a validation goes on waiting. -/
theorem Flies.runWithin_of_lt (h : w.Flies id delay answer token v)
    (hc : v.clock < w.deadline delay answer) (fuel : Nat) : v.runWithin (fuel + 1) id = v := by
  have hreply : (w.asked delay answer).reply? v.clock = none := by
    cases ha : answer with
    | none => simp [Flight.reply?, asked]
    | some result =>
      have hlt : v.clock < w.clock + delay := by
        rw [ha] at hc
        exact Nat.lt_of_lt_of_le hc (Nat.add_le_add_left (Nat.min_le_left _ _) _)
      simp [Flight.reply?, asked, Nat.not_le.2 hlt]
  have hover : (w.asked delay answer).isOver v.clock = false := by
    have hle : w.deadline delay answer ≤ w.clock + w.settings.timeout := by
      unfold deadline
      split <;> omega
    have hlt : v.clock < w.clock + w.settings.timeout := Nat.lt_of_lt_of_le hc hle
    simp [Flight.isOver, asked, Nat.not_le.2 hlt]
  unfold runWithin
  simp only [h.find?_fresh, h.find?_flights, hreply, hover]
  rfl

/-- A validation whose reply is not there at its limit ends without a user. -/
theorem Flies.runWithin_of_over (h : w.Flies id delay answer token v)
    (hc : v.clock = w.clock + w.settings.timeout)
    (hreply : (w.asked delay answer).reply? v.clock = none)
    (hv : w.verdict? delay answer = none) (fuel : Nat) :
    (v.runWithin (fuel + 1) id).machine =
        v.machine.advance id (v.machine.app.finishValidation
          (w.machine.app.session.generation + 1) (.ofVerdict (w.verdict? delay answer))
          (w.verdict? delay answer).isNone) ∧
      (v.runWithin (fuel + 1) id).clock = v.clock := by
  have hover : (w.asked delay answer).isOver v.clock = true := by
    simp [Flight.isOver, asked, hc]
  have hstep := Machine.step_timeout_validating v.settings h.waits
  have hrun : v.runWithin (fuel + 1) id = v.happen id (.timeout id) := by
    unfold runWithin
    simp only [h.find?_fresh, h.find?_flights, hreply, hover]
    rfl
  obtain ⟨hm, hcl, -, -⟩ := happen_of_find?_eq_none (w := v) id (e := .timeout id)
    (by rw [hstep, Machine.find?_advance, if_pos rfl]; rfl)
  rw [hrun, hv]
  exact ⟨hm.trans hstep, hcl⟩

/-- At its end a validation ends with what it has found. -/
theorem Flies.runWithin_of_eq (h : w.Flies id delay answer token v)
    (hc : v.clock = w.deadline delay answer) (fuel : Nat) :
    (v.runWithin (fuel + 1) id).machine =
        v.machine.advance id (v.machine.app.finishValidation
          (w.machine.app.session.generation + 1) (.ofVerdict (w.verdict? delay answer))
          (w.verdict? delay answer).isNone) ∧
      (v.runWithin (fuel + 1) id).clock = v.clock := by
  -- the reply is looked at first, so it counts at the very limit
  rcases Nat.lt_or_ge w.settings.timeout delay with hlate | hintime
  · have hv : w.verdict? delay answer = none := if_neg (Nat.not_le.2 hlate)
    have hclock : v.clock = w.clock + w.settings.timeout := by
      rw [hc, deadline, Nat.min_eq_right (Nat.le_of_lt hlate), ite_self]
    have hreply : (w.asked delay answer).reply? v.clock = none := by
      simp [Flight.reply?, asked, hclock, Nat.not_le.2 hlate]
    exact h.runWithin_of_over hclock hreply hv fuel
  · cases ha : answer with
    | none =>
      subst ha
      exact h.runWithin_of_over hc (by simp [Flight.reply?, asked]) (by simp [verdict?]) fuel
    | some result =>
      subst ha
      have hclock : v.clock = w.clock + delay := by
        simp [hc, deadline, Nat.min_eq_left hintime]
      have hreply : (w.asked delay (some result)).reply? v.clock = some (.ofProfile result) := by
        simp [Flight.reply?, asked, hclock]
      have hstep := Machine.step_answer_validating v.settings h.waits result
      have hv : w.verdict? delay (some result) = result.toOption := if_pos hintime
      rw [hv, ← hstep]
      unfold runWithin
      simp only [h.find?_fresh, h.find?_flights, hreply]
      exact runWithin_of_ended fuel h.fresh (by rw [hstep, Machine.find?_advance, if_pos rfl]; rfl)

/-! ## A validation that starts -/

/-- A world whose operation of a number is about to begin. -/
def beginning (w : World) (id : Nat) : World :=
  { w with
    woken := w.woken.filter (· != id)
    fresh := w.fresh.filter fun f => f.1 != id }

theorem fresh_beginning (w : World) (id : Nat) : ∀ x ∈ (w.beginning id).fresh, x.1 ≠ id :=
  fun x hx => by simpa using (List.mem_filter.1 hx).2

theorem run_of_fresh {op : Operation} (h : w.fresh.find? (fun f => f.1 == id) = some (id, op)) :
    w.run id = ((w.beginning id).happen id (.start id w.date op)).runWithin 4 id := by
  show runWithin 5 id _ = _
  rw [runWithin]
  simp only [h]
  rfl

/-- A validation that asks the backend is on its way. -/
theorem flies_start (ho : w.Ordered) (hone : w.machine.OneValidation)
    (hf : w.machine.find? id = none) (hnew : w.outcome? id = none)
    (hv : w.machine.app.session.validating = false)
    (ht : w.machine.app.Holds w.settings w.date token)
    (hscript : (w.script.next .currentUser).1 = ⟨none, delay, answer.map .ofProfile⟩) :
    let v := (w.beginning id).happen id (.start id w.date .restore)
    w.Flies id delay answer token v ∧ v.machine.app.store = w.machine.app.store ∧
      v.clock = w.clock ∧ v.machine.app.calls = w.machine.app.calls ++ [.currentUser token] ∧
      (w.deadline delay answer, id) ∈ v.timers := by
  intro v
  have hstep : w.machine.step w.settings (.start id w.date .restore) =
      w.machine.advance id
        (w.machine.app.beginValidation.record (.currentUser token),
          .waiting (.validating (w.machine.app.session.generation + 1) token)) := by
    rw [← App.startValidation_of_holds hv ht]
    simp only [Machine.step, hf]
    rfl
  have hwaits : (w.machine.step w.settings (.start id w.date .restore)).find? id =
      some (.validating (w.machine.app.session.generation + 1) token) := by
    rw [hstep, Machine.find?_advance, if_pos rfl]
    rfl
  obtain ⟨woken, -, heq⟩ := happen_eq id (.start id w.date .restore) (w.beginning id)
  let next := (w.beginning id).stepped id (.start id w.date .restore) woken
  have hnext : v = next.depart id (.validating (w.machine.app.session.generation + 1) token) := by
    refine heq.trans ?_
    unfold goOn
    rw [show next.machine.find? id = _ from hwaits]
    rfl
  have hflight : next.flight (.validating (w.machine.app.session.generation + 1) token)
      (.currentUser token) = w.asked delay answer := by
    simp only [flight, Call.endpoint, show next.script = w.script from rfl, hscript, asked]
    rfl
  obtain ⟨script, permits, timers, hv', ho', -, -, hdue, hlimit⟩ :=
    depart_eq (w := next) id
      (show (Waiting.validating (w.machine.app.session.generation + 1) token).call? =
        some (.currentUser token) from rfl)
      (ho.sublist List.filter_sublist)
  rw [hflight] at hv' hdue hlimit
  rw [hnext, hv']
  have hstore : (w.machine.step w.settings (.start id w.date .restore)).app.store =
      w.machine.app.store := by
    rw [hstep, Machine.app_advance]
    rfl
  refine ⟨⟨rfl, ho', hwaits, fresh_beginning w id, by simp, fun x hx hid => ?_, ?_, ?_,
    fun held hmem _ => hstore.trans hmem⟩, hstore, rfl, ?_, ?_⟩
  · rcases List.mem_append.1 hx with hx | hx
    · exact absurd hid (by simpa using (List.mem_filter.1 hx).2)
    · rw [List.mem_singleton.1 hx]
  · show ((w.machine.step w.settings _).finished.find? _).map _ = none
    rw [hstep]
    exact hnew
  · exact Machine.oneValidation_step w.settings _ hone
  · show (w.machine.step w.settings _).app.calls = _
    rw [hstep, Machine.app_advance]
    rfl
  · show (w.clock + _, id) ∈ timers
    split
    · next ha =>
      rcases Nat.le_total delay w.settings.timeout with hle | hle
      · rw [Nat.min_eq_left hle]
        exact hdue rfl (by simpa [asked] using ha)
      · rw [Nat.min_eq_right hle]
        exact hlimit _ rfl
    · exact hlimit _ rfl

/-! ## The course of a validation -/

/-- From the first run of an operation moves lead to a world, and the operation has waited before
each of them. -/
inductive Underway (w : World) (id : Nat) : World → Prop
  | start : Underway w id (w.run id)
  | move {v v' : World} (h : Underway w id v) (hw : (v.machine.find? id).isSome = true)
      (hm : Move v v') : Underway w id v'

/-- And nobody else has written to the store: it was the same before each of the moves. -/
inductive Undisturbed (w : World) (id : Nat) : World → Prop
  | start : Undisturbed w id (w.run id)
  | move {v v' : World} (h : Undisturbed w id v) (hw : (v.machine.find? id).isSome = true)
      (hs : v.machine.app.store = w.machine.app.store) (hm : Move v v') : Undisturbed w id v'

/-- What becomes of a validation that has asked the backend, where something is known of the worlds in
which it waits. -/
inductive Course (w : World) (id delay : Nat) (answer : Option (Except ApiError UserProfile))
    (token : Token) (Q : World → Prop) (v : World) : Prop
  | waits (h : w.Flies id delay answer token v) (hp : w.Pending id delay answer v)
  | ended {u : World} (h : w.Flies id delay answer token u) (hq : Q u)
      (hm : v.machine = u.machine.advance id (u.machine.app.finishValidation
        (w.machine.app.session.generation + 1) (.ofVerdict (w.verdict? delay answer))
        (w.verdict? delay answer).isNone))
      (hc : v.clock = w.deadline delay answer)
  | dropped (hw : v.machine.find? id = none) (hu : v.outcome? id = none)
      (hc : v.clock ≤ w.deadline delay answer)

variable {Q : World → Prop}

theorem deadline_le (w : World) (delay : Nat) (answer : Option (Except ApiError UserProfile)) :
    w.deadline delay answer ≤ w.clock + w.settings.timeout := by
  unfold deadline
  split <;> omega

theorem le_deadline (w : World) (delay : Nat) (answer : Option (Except ApiError UserProfile)) :
    w.clock ≤ w.deadline delay answer :=
  Nat.le_add_right _ _

theorem Pending.clock_le (h : w.Pending id delay answer v) :
    v.clock ≤ w.deadline delay answer := by
  rcases h with ⟨hlt, -⟩ | ⟨he, -⟩ <;> omega

/-- A validation that runs on goes on waiting before its end, and ends at it. -/
theorem Flies.course_run (h : w.Flies id delay answer token v)
    (hp : w.Pending id delay answer v) :
    v.clock < w.deadline delay answer ∧ (v.run id).machine = v.machine ∧
        w.Course id delay answer token Q (v.run id) ∨
      v.clock = w.deadline delay answer ∧ id ∈ v.woken ∧
        (v.run id).machine = v.machine.advance id (v.machine.app.finishValidation
          (w.machine.app.session.generation + 1) (.ofVerdict (w.verdict? delay answer))
          (w.verdict? delay answer).isNone) ∧
        (v.run id).clock = v.clock := by
  let u : World := { v with woken := v.woken.filter (· != id) }
  have hu : w.Flies id delay answer token u := { h with }
  rw [show v.run id = u.runWithin 5 id from rfl]
  rcases hp with ⟨hlt, htimer⟩ | ⟨he, hid⟩
  · rw [hu.runWithin_of_lt hlt 4]
    exact .inl ⟨hlt, rfl, .waits hu (.inl ⟨hlt, htimer⟩)⟩
  · exact .inr ⟨he, hid, hu.runWithin_of_eq he 4⟩

theorem Flies.course_abandon (h : w.Flies id delay answer token v)
    (hp : w.Pending id delay answer v) : w.Course id delay answer token Q (v.abandon id) := by
  let u : World := { v with
    fresh := v.fresh.filter fun f => f.1 != id
    woken := v.woken.filter (· != id) }
  obtain ⟨hm, hc, -, -⟩ := happen_of_find?_eq_none (w := u) id (e := .abandon id)
    (Machine.find?_step_abandon _ id)
  have hfinished : (v.machine.step v.settings (.abandon id)).finished = v.machine.finished := by
    simp only [Machine.step, h.waits]
  refine .dropped ?_ ?_ ?_
  · show (u.happen id (.abandon id)).machine.find? id = none
    rw [hm]
    exact Machine.find?_step_abandon _ id
  · show ((u.happen id (.abandon id)).machine.finished.find? _).map _ = none
    rw [hm, show (u.machine.step u.settings (.abandon id)).finished = _ from hfinished]
    exact h.unfinished
  · show (u.happen id (.abandon id)).clock ≤ _
    rw [hc]
    exact hp.clock_le

theorem Flies.course_move (h : w.Flies id delay answer token v)
    (hp : w.Pending id delay answer v) (hq : Q v) (hm : Move v v') :
    w.Course id delay answer token Q v' := by
  have hheld : ∀ x ∈ v.flights, x.1 = id → x.2.hold = none := by
    intro x hx hid
    rw [h.unique x hx hid]
    rfl
  rcases hm.cases_of_waiting h.ordered (by rw [h.waits]; rfl) hheld with
    hs | ⟨-, rfl⟩ | rfl | ⟨moment, hw, ht, rfl⟩
  · exact .waits (h.spares hs) (hp.spares hs)
  · rcases h.course_run hp with ⟨-, -, hcourse⟩ | ⟨he, -, hmachine, hc⟩
    · exact hcourse
    · exact .ended h hq hmachine (hc.trans he)
  · exact h.course_abandon hp
  · exact .waits (h.moveTo moment) (hp.pass h.ordered hw ht)

/-- A validation that still waits goes on with its course. -/
theorem Course.move (h : w.Course id delay answer token Q v)
    (hw : (v.machine.find? id).isSome = true) (hq : Q v) (hm : Move v v') :
    w.Course id delay answer token Q v' := by
  cases h with
  | waits h hp => exact h.course_move hp hq hm
  | ended _ _ hmachine =>
    rw [hmachine, Machine.find?_advance, if_pos rfl] at hw
    cases hw
  | dropped hnone =>
    rw [hnone] at hw
    cases hw

theorem course_of_underway (hstart : w.Course id delay answer token (fun _ => True) (w.run id))
    (h : w.Underway id v) : w.Course id delay answer token (fun _ => True) v := by
  induction h with
  | start => exact hstart
  | move _ hw hm ih => exact ih.move hw trivial hm

/-- The worlds over the store of another one. -/
def SameStore (w v : World) : Prop := v.machine.app.store = w.machine.app.store

theorem course_of_undisturbed (hstart : w.Course id delay answer token w.SameStore (w.run id))
    (h : w.Undisturbed id v) : w.Course id delay answer token w.SameStore v := by
  induction h with
  | start => exact hstart
  | move _ hw hs hm ih => exact ih.move hw hs hm

/-- A validation that asks the backend takes its course, from its first run on. -/
theorem course_start (ho : w.Ordered) (hone : w.machine.OneValidation)
    (hfresh : w.fresh.find? (fun f => f.1 == id) = some (id, .restore))
    (hf : w.machine.find? id = none) (hnew : w.outcome? id = none)
    (hv : w.machine.app.session.validating = false)
    (ht : w.machine.app.Holds w.settings w.date token)
    (hscript : (w.script.next .currentUser).1 = ⟨none, delay, answer.map .ofProfile⟩)
    (hq : ∀ u, w.SameStore u → Q u) :
    w.Course id delay answer token Q (w.run id) ∧
      (w.run id).machine.app.calls = w.machine.app.calls ++ [.currentUser token] := by
  obtain ⟨h, hstore, hc, hcalls, htimer⟩ := flies_start ho hone hf hnew hv ht hscript
  rw [run_of_fresh hfresh]
  rcases Nat.lt_or_eq_of_le (w.le_deadline delay answer) with hlt | he
  · rw [← hc] at hlt
    rw [h.runWithin_of_lt hlt 3]
    exact ⟨.waits h (.inl ⟨hlt, htimer⟩), hcalls⟩
  · rw [← hc] at he
    obtain ⟨hmachine, hclock⟩ := h.runWithin_of_eq he 3
    refine ⟨.ended h (hq _ hstore) hmachine (hclock.trans he), ?_⟩
    rw [hmachine, Machine.app_advance, App.calls_finishValidation, hcalls]

/-! ## What a validation computes -/

theorem verdict?_eq_some_iff {user : UserProfile} :
    w.verdict? delay answer = some user ↔
      answer = some (.ok user) ∧ delay ≤ w.settings.timeout := by
  unfold verdict?
  split
  · next hle =>
    rcases answer with _ | _ | _ <;> simp [Except.toOption, hle]
  · next hle => simp [hle]

theorem outcome?_of_advance {m : Machine} {a : App} {o : Outcome}
    (hm : v.machine = m.advance id (a, .finished o))
    (hu : m.finished.find? (fun f => f.1 == id) = none) : v.outcome? id = some o := by
  unfold outcome?
  rw [hm]
  simp [Machine.advance, List.find?_append, hu]

theorem find?_finished_of_outcome? (h : v.outcome? id = none) :
    v.machine.finished.find? (fun f => f.1 == id) = none :=
  Option.map_eq_none_iff.1 h

/-- An operation that is over at once has ended after its first run. -/
theorem run_of_start_ends {op : Operation} {b : App} {o : Outcome}
    (hfresh : w.fresh.find? (fun f => f.1 == id) = some (id, op)) (hnew : w.outcome? id = none)
    (hstep : w.machine.step w.settings (.start id w.date op) =
      w.machine.advance id (b, .finished o)) :
    (w.run id).outcome? id = some o ∧ (w.run id).machine.find? id = none ∧
      (w.run id).machine.app = b ∧ (w.run id).clock = w.clock := by
  have hnone : (w.machine.step w.settings (.start id w.date op)).find? id = none := by
    rw [hstep, Machine.find?_advance, if_pos rfl]
    rfl
  obtain ⟨hm, hc⟩ := runWithin_of_ended (w := w.beginning id) (e := .start id w.date op) 4
    (fresh_beginning w id) hnone
  rw [run_of_fresh hfresh]
  refine ⟨outcome?_of_advance (hm.trans hstep) (find?_finished_of_outcome? hnew),
    by rw [hm]; exact hnone, ?_, hc⟩
  rw [hm.trans hstep, Machine.app_advance]

/-- A validation that starts while another one runs is over at once, and changes nothing. -/
theorem run_of_validating
    (hfresh : w.fresh.find? (fun f => f.1 == id) = some (id, .restore))
    (hf : w.machine.find? id = none) (hnew : w.outcome? id = none)
    (hv : w.machine.app.session.validating = true) :
    (w.run id).outcome? id = some .done ∧ (w.run id).machine.app = w.machine.app := by
  obtain ⟨hout, -, happ, -⟩ := run_of_start_ends (b := w.machine.app) (o := .done) hfresh hnew
    (by simp [Machine.step, hf, App.start, App.startValidation, hv])
  exact ⟨hout, happ⟩

theorem Course.clock_le (h : w.Course id delay answer token Q v) :
    v.clock ≤ w.deadline delay answer := by
  cases h with
  | waits _ hp => exact hp.clock_le
  | ended _ _ _ hc => exact Nat.le_of_eq hc
  | dropped _ _ hc => exact hc

/-- A validation that has asked the backend ends. -/
theorem Course.done (h : w.Course id delay answer token Q v) {outcome : Outcome}
    (ho : v.outcome? id = some outcome) : outcome = .done := by
  cases h with
  | waits h =>
    rw [h.unfinished] at ho
    cases ho
  | dropped _ hu =>
    rw [hu] at ho
    cases ho
  | ended h _ hm _ =>
    have hdone := outcome?_of_advance hm (find?_finished_of_outcome? h.unfinished)
    exact Option.some.inj (ho.symm.trans hdone)

/-- It ends with its verdict, if no transition has happened and nobody else has written to the
store. -/
theorem Course.judged (h : w.Course id delay answer token Q v) {outcome : Outcome}
    (ho : v.outcome? id = some outcome)
    (hg : v.machine.app.session.generation = w.machine.app.session.generation + 1)
    (hq : ∀ u, w.Flies id delay answer token u → Q u →
      u.machine.app.session.generation = w.machine.app.session.generation + 1 → w.SameStore u) :
    w.machine.app.Judged (w.verdict? delay answer) v.machine.app := by
  cases h with
  | waits h =>
    rw [h.unfinished] at ho
    cases ho
  | dropped _ hu =>
    rw [hu] at ho
    cases ho
  | @ended u h hu hm _ =>
    rw [hm, Machine.app_advance] at hg ⊢
    have hg' : u.machine.app.session.generation = w.machine.app.session.generation + 1 := by
      rw [← hg]
      simp [App.finishValidation]
    refine App.judged_finishValidation _ hg' (hq u h hu hg') (fun hv => ?_) (fun hv hc => ?_)
    · rw [Option.isNone_eq_false_iff, hv]
    · rw [hv] at hc
      cases hc

/-- A validation that does not ask the backend is over at once, without a user. -/
theorem judged_of_not_holds
    (hfresh : w.fresh.find? (fun f => f.1 == id) = some (id, .restore))
    (hf : w.machine.find? id = none) (hnew : w.outcome? id = none)
    (hv : w.machine.app.session.validating = false)
    (ht : ∀ token, ¬ w.machine.app.Holds w.settings w.date token) :
    (w.run id).outcome? id = some .done ∧ (w.run id).machine.find? id = none ∧
      (w.run id).machine.app.calls = w.machine.app.calls ∧ (w.run id).clock = w.clock ∧
      w.machine.app.Judged none (w.run id).machine.app := by
  obtain ⟨clear, hclear, hstart⟩ := App.startValidation_of_not_holds hv ht
  let b := (w.machine.app.beginValidation.finishValidation
    (w.machine.app.session.generation + 1) .unauthenticated clear).1
  obtain ⟨hout, hnone, happ, hc⟩ := run_of_start_ends (b := b) (o := .done) hfresh hnew <| by
    simp only [Machine.step, hf, App.start, hstart]
    rfl
  refine ⟨hout, hnone, ?_, hc, ?_⟩
  · rw [happ, App.calls_finishValidation]
    rfl
  · rw [happ]
    exact App.judged_finishValidation none rfl rfl (by simp) (fun _ => hclear)

/-- A validation that waits calls nobody when it runs on, and ends if its time is up. -/
theorem Course.run_of_waits (h : w.Course id delay answer token Q v)
    (hw : (v.machine.find? id).isSome = true) :
    (v.run id).machine.app.calls = v.machine.app.calls ∧
      (w.deadline delay answer ≤ v.clock →
        id ∈ v.woken ∧ (v.run id).outcome? id = some .done) := by
  cases h with
  | waits h hp =>
    rcases h.course_run (Q := Q) hp with ⟨hlt, hm, -⟩ | ⟨-, hid, hm, -⟩
    · rw [hm]
      exact ⟨rfl, fun hle => absurd hlt (Nat.not_lt.2 hle)⟩
    · refine ⟨?_, fun _ =>
        ⟨hid, outcome?_of_advance hm (find?_finished_of_outcome? h.unfinished)⟩⟩
      rw [hm, Machine.app_advance, App.calls_finishValidation]
  | ended _ _ hm =>
    rw [hm, Machine.find?_advance, if_pos rfl] at hw
    cases hw
  | dropped hnone =>
    rw [hnone] at hw
    cases hw

/-- Nothing follows a first run in which an operation ends. -/
theorem Underway.eq_run (h : w.Underway id v) (hn : (w.run id).machine.find? id = none) :
    v = w.run id := by
  induction h with
  | start => rfl
  | move _ hw _ ih =>
    rw [ih, hn] at hw
    cases hw

/-- A validation asks the backend about a token that is stored and not known to have expired, and
about no other, and only when it starts.  It is over at once unless it asks, and at its time limit
at the latest.  If no transition happens meanwhile and nobody else writes to a session file (a sign-in
that fails may), it ends with the user signed in whom the backend has named within the limit, and the
store as it was; otherwise the user is signed out, and no token is left unless the session file clings
to it.  While another validation runs it does nothing. -/
theorem restore_computes_verdict (settings : Settings) (date : Int) (store : Store) (route : Route)
    (script : Script) (w : World) (id delay : Nat)
    (answer : Option (Except ApiError UserProfile))
    (hw : (starting settings date (.starting store route) script).Reaches w)
    (hfresh : w.fresh.find? (fun f => f.1 == id) = some (id, .restore))
    (hf : w.machine.find? id = none) (hnew : w.outcome? id = none)
    (hscript : (w.script.next .currentUser).1 = ⟨none, delay, answer.map .ofProfile⟩) :
    let a := w.machine.app
    let asks := a.Holds settings w.date
    (a.session.validating = true →
      (w.run id).outcome? id = some .done ∧ (w.run id).machine.app = a) ∧
    (a.session.validating = false →
      (∀ token, asks token →
        (w.run id).machine.app.calls = a.calls ++ [.currentUser token]) ∧
      ((∀ token, ¬ asks token) →
        (w.run id).outcome? id = some .done ∧ (w.run id).machine.app.calls = a.calls) ∧
      ∀ v, w.Underway id v →
        v.clock ≤ w.clock + settings.timeout ∧
        ((v.machine.find? id).isSome = true →
          (v.run id).machine.app.calls = v.machine.app.calls ∧
          (v.clock = w.clock + settings.timeout →
            id ∈ v.woken ∧ (v.run id).outcome? id = some .done)) ∧
        (∀ outcome, v.outcome? id = some outcome →
          outcome = .done ∧
          (v.machine.app.session.generation = a.session.generation + 1 →
            (∃ held, a.store = .memory held) ∨ w.Undisturbed id v →
            (∀ user, v.machine.app.session.state = .authenticated user ∧
                v.machine.app.store = a.store ↔
              ∃ token, asks token ∧ answer = some (.ok user) ∧ delay ≤ settings.timeout) ∧
            ((¬ ∃ user token, asks token ∧ answer = some (.ok user) ∧ delay ≤ settings.timeout) →
              v.machine.app.session.state = .unauthenticated ∧
                (v.machine.app.store.get? = none ∨ a.store.Clings))))) := by
  intro a asks
  obtain ⟨hset, ho, es, hes⟩ := hw.run_machine (ordered_starting _ _ _ _)
  have hset : w.settings = settings := hset
  have hone : w.machine.OneValidation := by
    rw [hes]
    exact Machine.oneValidation_run _ store route es
  subst hset
  refine ⟨fun hv => ?_, fun hv => ⟨fun token ht => ?_, fun ht => ?_, fun v hu => ?_⟩⟩
  · exact run_of_validating hfresh hf hnew hv
  · exact (course_start (Q := fun _ => True) ho hone hfresh hf hnew hv ht hscript
      fun _ _ => trivial).2
  · obtain ⟨hout, -, hcalls, -, -⟩ := judged_of_not_holds hfresh hf hnew hv ht
    exact ⟨hout, hcalls⟩
  · by_cases hasks : ∃ token, asks token
    · obtain ⟨token, ht⟩ := hasks
      have hcourse := course_of_underway
        (course_start ho hone hfresh hf hnew hv ht hscript fun _ _ => trivial).1 hu
      have hlimit := w.deadline_le delay answer
      refine ⟨hcourse.clock_le.trans hlimit, fun hwaits => ?_,
        fun outcome hout => ⟨hcourse.done hout, fun hg hkept => ?_⟩⟩
      · obtain ⟨hcalls, hends⟩ := hcourse.run_of_waits hwaits
        exact ⟨hcalls, fun hc => hends (hlimit.trans (Nat.le_of_eq hc.symm))⟩
      · have hjudged : a.Judged (w.verdict? delay answer) v.machine.app := by
          rcases hkept with ⟨held, hmem⟩ | hquiet
          · exact hcourse.judged hout hg fun u hu _ hg' =>
              (hu.memory held hmem hg').trans hmem.symm
          · exact (course_of_undisturbed
              (course_start ho hone hfresh hf hnew hv ht hscript fun _ hs => hs).1 hquiet).judged
              hout hg fun _ _ hs _ => hs
        refine ⟨fun user => ?_, fun hno => ?_⟩
        · rw [hjudged.signedIn_iff, verdict?_eq_some_iff]
          exact ⟨fun h => ⟨token, ht, h⟩, fun ⟨_, _, h⟩ => h⟩
        · have hnone : w.verdict? delay answer = none := by
            by_contra hv
            obtain ⟨user, hv⟩ := Option.ne_none_iff_exists'.1 hv
            exact hno ⟨user, token, ht, verdict?_eq_some_iff.1 hv⟩
          exact ⟨by rw [hjudged.state, hnone]; rfl, hjudged.cleared hnone⟩
    · have hno : ∀ token, ¬ asks token := fun token ht => hasks ⟨token, ht⟩
      obtain ⟨hout, hnone, -, hc, hjudged⟩ := judged_of_not_holds hfresh hf hnew hv hno
      obtain rfl := hu.eq_run hnone
      refine ⟨hc.le.trans (Nat.le_add_right _ _), fun hwaits => ?_, fun outcome hout' => ?_⟩
      · rw [hnone] at hwaits
        cases hwaits
      · refine ⟨Option.some.inj (hout'.symm.trans hout), fun _ _ => ⟨fun user => ?_, fun _ => ?_⟩⟩
        · rw [hjudged.signedIn_iff]
          simp [hno]
        · exact ⟨hjudged.state, hjudged.cleared rfl⟩

/-- The backend names the user at the very limit, while a visitor waits. -/
theorem restore_computes_verdict_at_limit :
    let settings : Settings := ⟨20, true, .redirectToLogin⟩
    let user : UserProfile := ⟨"u1", "user@a.com", none, true, false⟩
    let app := App.starting (.memory (some ⟨"t"⟩)) .landing
    let w := (starting settings 0 app [(.currentUser, ⟨none, 20, some (.user user)⟩)]).spawn 0
      .restore
    let v := ((((w.run 0).spawn 1 (.visit .items)).run 1).moveTo 20).run 0
    w.Underway 0 v ∧ v.outcome? 0 = some .done ∧ v.clock ≤ 20 ∧
      v.machine.app.session.state = .authenticated user ∧ v.machine.app.store = app.store := by
  intro settings user app w v
  have hw : (starting settings 0 app [(.currentUser, ⟨none, 20, some (.user user)⟩)]).Reaches w :=
    .move .refl (.spawn .restore (by simp [starting]) rfl)
  have hout : v.outcome? 0 = some .done := by decide +kernel
  have hg : v.machine.app.session.generation = w.machine.app.session.generation + 1 := by
    decide +kernel
  have hu : w.Underway 0 v := by
    refine .move (.move (.move (.move .start ?_ (.spawn _ ?_ ?_)) ?_ (.run ?_)) ?_
      (.pass ?_ ?_)) ?_ (.run ?_)
    all_goals decide +kernel
  obtain ⟨-, computes⟩ := restore_computes_verdict settings 0 (.memory (some ⟨"t"⟩)) .landing
    [(.currentUser, ⟨none, 20, some (.user user)⟩)] w 0 20 (some (.ok user)) hw rfl rfl rfl rfl
  obtain ⟨-, -, course⟩ := computes rfl
  obtain ⟨hc, -, ends⟩ := course v hu
  obtain ⟨signedIn, -⟩ := (ends _ hout).2 hg (.inl ⟨_, rfl⟩)
  obtain ⟨hs, ht⟩ := (signedIn user).2 ⟨⟨"t"⟩, ⟨rfl, .inr (by decide +kernel)⟩, rfl, Nat.le_refl _⟩
  exact ⟨hu, hout, hc, hs, ht⟩

/-- A validation asked for while another one runs ends with the session loading, and a session file
with an entry that cannot be written keeps a token that the backend has refused. -/
theorem restore_may_leave_loading_or_token :
    let settings : Settings := ⟨10000, true, .redirectToLogin⟩
    let w := ((starting settings 0 (.starting (.memory (some ⟨"t"⟩)) .landing)
      [(.currentUser, ⟨none, 5, none⟩)]).spawn 0 .restore).run 0
    let v := (w.spawn 1 .restore).run 1
    let text := "access_token: tok\nother:\n  ? \x7ba: 1\x7d\n  : 2\n"
    let disk : Disk :=
      { entries := [(["session.yaml"], .file text.toUTF8 0o644)], current := [] }
    let u := ((starting settings 0 (.starting (.file "session.yaml" disk) .landing)
      [(.currentUser, ⟨none, 0, some (.failed (.rejected .unauthorized))⟩)]).spawn 0 .restore).run 0
    (v.outcome? 1 = some .done ∧ v.machine.app.session.state = .loading) ∧
      (u.outcome? 0 = some .done ∧ u.machine.app.session.state = .unauthenticated ∧
        u.machine.app.store.get? = some ⟨"tok"⟩) := by
  decide +kernel

end World

end SessionGuard
