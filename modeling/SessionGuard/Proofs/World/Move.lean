import Mathlib.Data.List.TakeWhile
import SessionGuard.Proofs.Machine.Run
import SessionGuard.Scenario.World

/-!
# How a world moves

In a `Move` of a world an operation is put into it, runs on or is given up, a call is released, or
the clock moves on, but not past a timer nor while an operation can run.  What concerns another
operation leaves the calls, the timers and the wait of one alone (`Spares`), and timers stay in the
order in which they fire (`Ordered`).
-/

namespace SessionGuard

namespace World

/-- One step of a world. -/
inductive Move : World → World → Prop
  | spawn {w id} (op : Operation) (hf : ∀ x ∈ w.fresh, x.1 ≠ id)
      (hw : w.machine.find? id = none) : Move w (w.spawn id op)
  | run {w id} (h : id ∈ w.woken) : Move w (w.run id)
  | release {w} (name : String) : Move w (w.release name)
  | abandon {w} (id : Nat) : Move w (w.abandon id)
  | pass {w moment} (h : w.woken = []) (ht : ∀ t ∈ w.timers, moment ≤ t.1) :
      Move w (w.moveTo moment)

variable {w w' w'' : World} {id j : Nat}

/-! ## Waking -/

/-- Waking operations does nothing but put them among those to run next. -/
theorem foldl_wake {α : Type} (f : α → Nat) (l : List α) (w : World) :
    ∃ woken, (∀ i ∈ w.woken, i ∈ woken) ∧ (∀ x ∈ l, f x ∈ woken) ∧
      l.foldl (fun w x => w.wake (f x)) w = { w with woken := woken } := by
  induction l generalizing w with
  | nil => exact ⟨w.woken, fun _ => id, by simp, rfl⟩
  | cons x l ih =>
    obtain ⟨woken, hkept, hl, h⟩ := ih (w.wake (f x))
    have hx : (∀ i ∈ w.woken, i ∈ (w.wake (f x)).woken) ∧ f x ∈ (w.wake (f x)).woken ∧
        { w.wake (f x) with woken := woken } = { w with woken := woken } := by
      unfold wake
      split
      · next hm => exact ⟨fun _ => id, hm, rfl⟩
      · exact ⟨fun _ hi => List.mem_append_left _ hi, by simp, rfl⟩
    refine ⟨woken, fun i hi => hkept i (hx.1 i hi), ?_, h.trans hx.2.2⟩
    rintro y (_ | ⟨_, hy⟩)
    · exact hkept _ hx.2.1
    · exact hl y hy

theorem wake_eq (id : Nat) (w : World) :
    ∃ woken, (∀ i ∈ w.woken, i ∈ woken) ∧ id ∈ woken ∧ w.wake id = { w with woken := woken } := by
  obtain ⟨woken, hkept, hl, h⟩ := foldl_wake (fun i : Nat => i) [id] w
  exact ⟨woken, hkept, hl id (by simp), h⟩

theorem wakeVisitors_eq (w : World) :
    ∃ woken, (∀ i ∈ w.woken, i ∈ woken) ∧ w.wakeVisitors = { w with woken := woken } := by
  obtain ⟨woken, hkept, -, h⟩ := foldl_wake (·.1) (w.machine.waiting.filter (·.2.call?.isNone)) w
  exact ⟨woken, hkept, h⟩

/-! ## Timers -/

/-- The timers stand in the order in which they fire. -/
def Ordered (w : World) : Prop := w.timers.Pairwise fun s t => s.1 ≤ t.1

theorem lt_of_mem_dropWhile {timers : List (Nat × Nat)} (moment : Nat)
    (h : timers.Pairwise fun s t => s.1 ≤ t.1) :
    ∀ t ∈ timers.dropWhile (·.1 ≤ moment), moment < t.1 := by
  induction timers with
  | nil => simp
  | cons s timers ih =>
    obtain ⟨hs, h⟩ := List.pairwise_cons.1 h
    rw [List.dropWhile_cons]
    split
    · exact ih h
    · next hlt =>
      simp only [decide_eq_true_eq, Nat.not_le] at hlt
      rintro t (_ | ⟨_, ht⟩)
      · exact hlt
      · exact Nat.lt_of_lt_of_le hlt (hs t ht)

theorem mem_timers_setTimer {moment : Nat} {t : Nat × Nat} :
    t ∈ (w.setTimer moment id).timers ↔ t = (moment, id) ∨ t ∈ w.timers := by
  calc t ∈ (w.setTimer moment id).timers
      ↔ t = (moment, id) ∨
          t ∈ w.timers.takeWhile (·.1 ≤ moment) ++ w.timers.dropWhile (·.1 ≤ moment) := by
        simp only [setTimer, List.mem_append, List.mem_cons, or_left_comm]
    _ ↔ t = (moment, id) ∨ t ∈ w.timers := by rw [List.takeWhile_append_dropWhile]

theorem ordered_setTimer (h : w.Ordered) (moment id : Nat) : (w.setTimer moment id).Ordered := by
  have hlt := lt_of_mem_dropWhile moment h
  refine List.pairwise_append.2 ⟨h.sublist (List.takeWhile_sublist _),
    List.pairwise_cons.2 ⟨fun t ht => Nat.le_of_lt (hlt t ht),
      h.sublist (List.dropWhile_sublist _)⟩, ?_⟩
  intro s hs t ht
  have hle : s.1 ≤ moment := by simpa using List.mem_takeWhile_imp hs
  rcases ht with _ | ⟨_, ht⟩
  · exact hle
  · exact Nat.le_trans hle (Nat.le_of_lt (hlt t ht))

/-- Moving the clock takes off the timers up to the moment and wakes their operations. -/
theorem moveTo_eq (h : w.Ordered) (moment : Nat) :
    ∃ woken timers, (∀ i ∈ w.woken, i ∈ woken) ∧
      (∀ t ∈ w.timers, t.1 ≤ max w.clock moment → t.2 ∈ woken) ∧
      (∀ t ∈ w.timers, max w.clock moment < t.1 → t ∈ timers) ∧
      timers.Pairwise (fun s t => s.1 ≤ t.1) ∧
      w.moveTo moment =
        { w with clock := max w.clock moment, timers := timers, woken := woken } := by
  let clock := max w.clock moment
  have hlt := lt_of_mem_dropWhile clock h
  have hall : ∀ t ∈ w.timers, t ∈ w.timers.takeWhile (·.1 ≤ clock) ∨
      t ∈ w.timers.dropWhile (·.1 ≤ clock) := by
    intro t ht
    rw [← List.mem_append, List.takeWhile_append_dropWhile]
    exact ht
  obtain ⟨woken, hkept, hfired, heq⟩ := foldl_wake (·.2) (w.timers.takeWhile (·.1 ≤ clock))
    { w with clock := clock, timers := w.timers.dropWhile (·.1 ≤ clock) }
  refine ⟨woken, w.timers.dropWhile (·.1 ≤ clock), hkept, fun t ht hle => ?_, fun t ht hgt => ?_,
    h.sublist (List.dropWhile_sublist _), heq⟩
  · rcases hall t ht with ht | ht
    · exact hfired t ht
    · exact absurd (hlt t ht) (Nat.not_lt.2 hle)
  · rcases hall t ht with ht | ht
    · have hle : t.1 ≤ clock := by simpa using List.mem_takeWhile_imp ht
      exact absurd hgt (Nat.not_lt.2 hle)
    · exact ht

/-- A world with one more timer of an operation, or with none more. -/
theorem setTimer_if (id : Nat) (b : Bool) (moment : Nat) (h : w.Ordered) :
    ∃ timers,
      (if b then w.setTimer moment id else w) = { w with timers := timers } ∧
      timers.Pairwise (fun s t => s.1 ≤ t.1) ∧
      (∀ t ∈ w.timers, t ∈ timers) ∧ (∀ t ∈ timers, t.2 ≠ id → t ∈ w.timers) ∧
      (b = true → (moment, id) ∈ timers) := by
  cases b with
  | false => exact ⟨w.timers, rfl, h, fun _ ht => ht, fun _ ht _ => ht, by simp⟩
  | true =>
    refine ⟨(w.setTimer moment id).timers, rfl, ordered_setTimer h moment id,
      fun t ht => mem_timers_setTimer.2 (.inr ht), fun t ht hid => ?_,
      fun _ => mem_timers_setTimer.2 (.inl rfl)⟩
    rcases mem_timers_setTimer.1 ht with rfl | ht
    · exact absurd rfl hid
    · exact ht

/-! ## Calls -/

/-- The call that a wait sends on its way in a world. -/
def flight (w : World) (on : Waiting) (call : Call) : Flight :=
  let scripted := (w.script.next call.endpoint).1
  let limit :=
    match on with
    | .validating .. => some (w.clock + w.settings.timeout)
    | _ => none
  ⟨if scripted.hold.all (· ∈ w.permits) then none else scripted.hold, scripted.delay,
    w.clock + scripted.delay, scripted.reply, limit⟩

/-- A call on its way gets timers for its reply, unless that is held or never comes, and for its
limit. -/
theorem depart_eq (id : Nat) {on : Waiting} {call : Call} (hc : on.call? = some call)
    (h : w.Ordered) :
    ∃ script permits timers,
      w.depart id on =
        { w with
          script := script, permits := permits,
          flights := w.flights ++ [(id, w.flight on call)], timers := timers } ∧
      timers.Pairwise (fun s t => s.1 ≤ t.1) ∧
      (∀ t ∈ w.timers, t ∈ timers) ∧ (∀ t ∈ timers, t.2 ≠ id → t ∈ w.timers) ∧
      ((w.flight on call).hold = none → (w.flight on call).reply.isSome = true →
        ((w.flight on call).due, id) ∈ timers) ∧
      (∀ moment, (w.flight on call).limit = some moment → (moment, id) ∈ timers) := by
  let scripted := w.script.next call.endpoint
  let free := scripted.1.hold.all (· ∈ w.permits)
  let f := w.flight on call
  let w₁ : World := { w with
    script := scripted.2
    permits := w.permits.filter fun p => scripted.1.hold != some p
    flights := w.flights ++ [(id, f)] }
  obtain ⟨timers, h₂, ho, hkept, hother, hdue⟩ :=
    setTimer_if (w := w₁) id (free && scripted.1.reply.isSome) f.due h
  have hw : w.depart id on = f.limit.elim { w₁ with timers := timers }
      fun moment => { w₁ with timers := timers }.setTimer moment id := by
    rw [← h₂]
    simp only [depart, hc]
    cases on <;> rfl
  have hfree : f.hold = none → free = true := by
    intro hf
    by_contra hn
    have hhold : f.hold = scripted.1.hold := if_neg hn
    rw [hf] at hhold
    exact hn (by simp [free, ← hhold])
  have hdue' : f.hold = none → f.reply.isSome = true → (f.due, id) ∈ timers :=
    fun hf hr => hdue (by rw [hfree hf, Bool.true_and]; exact hr)
  cases hl : f.limit with
  | none =>
    rw [hl] at hw
    exact ⟨_, _, timers, hw, ho, hkept, hother, hdue', by rintro moment ⟨⟩⟩
  | some moment =>
    rw [hl] at hw
    obtain ⟨timers', h₃, ho', hkept', hother', hlimit⟩ :=
      setTimer_if (w := { w₁ with timers := timers }) id true moment ho
    refine ⟨_, _, timers', hw.trans h₃, ho', fun t ht => hkept' t (hkept t ht),
      fun t ht hid => hother t (hother' t ht hid) hid, fun hf hr => hkept' _ (hdue' hf hr), ?_⟩
    rintro _ ⟨⟩
    exact hlimit rfl

/-! ## Events -/

/-- An operation goes on: the call that it waits for departs. -/
def goOn (id : Nat) (w : World) : World := (w.machine.find? id).elim w (w.depart id)

theorem goOn_eq (id : Nat) (w : World) :
    w.goOn id =
      match w.machine.find? id with
      | some on => w.depart id on
      | none => w := by
  unfold goOn
  cases w.machine.find? id <;> rfl

/-- A world after an event of an operation, whose call is forgotten. -/
def stepped (id : Nat) (e : Event) (woken : List Nat) (w : World) : World :=
  { w with
    machine := w.machine.step w.settings e
    flights := w.flights.filter (·.1 != id)
    timers := w.timers.filter (·.2 != id)
    woken := woken }

/-- An event happens: the call of its operation is forgotten, others may be woken, and the call that
it waits for next departs. -/
theorem happen_eq (id : Nat) (e : Event) (w : World) :
    ∃ woken, (∀ i ∈ w.woken, i ∈ woken) ∧ w.happen id e = (w.stepped id e woken).goOn id := by
  let landed := { w with machine := w.machine.step w.settings e }.land id
  obtain ⟨woken, hkept, hw⟩ := wakeVisitors_eq landed
  by_cases hs : landed.machine.app.session.state = w.machine.app.session.state ∧
      landed.machine.app.session.generation = w.machine.app.session.generation
  · refine ⟨w.woken, fun _ hi => hi, ?_⟩
    simp only [happen]
    rw [if_pos hs]
    exact (goOn_eq id (w.stepped id e w.woken)).symm
  · refine ⟨woken, hkept, ?_⟩
    simp only [happen]
    rw [if_neg hs, show World.wakeVisitors _ = _ from hw]
    exact (goOn_eq id (w.stepped id e woken)).symm

/-! ## What one operation leaves alone -/

/-- The moves from one world to another leave some operations alone, and take no time. -/
structure Spares (P : Nat → Prop) (w w' : World) : Prop where
  settings : w'.settings = w.settings
  clock : w'.clock = w.clock
  ordered : w'.Ordered
  fresh : ∀ x ∈ w'.fresh, P x.1 → x ∈ w.fresh
  flights : ∀ x, P x.1 → (x ∈ w'.flights ↔ x ∈ w.flights)
  timers : ∀ t ∈ w.timers, P t.2 → t ∈ w'.timers
  woken : ∀ i ∈ w.woken, P i → i ∈ w'.woken
  machine : ∃ es, (∀ e ∈ es, ¬ P e.id) ∧ w'.machine = w.machine.run w.settings es

variable {P : Nat → Prop}

theorem Spares.refl (ho : w.Ordered) : Spares P w w :=
  ⟨rfl, rfl, ho, fun _ hx _ => hx, fun _ _ => .rfl, fun _ ht _ => ht, fun _ hi _ => hi,
    [], by simp, rfl⟩

theorem Spares.trans (h : Spares P w w') (h' : Spares P w' w'') : Spares P w w'' := by
  obtain ⟨es, hes, hm⟩ := h.machine
  obtain ⟨fs, hfs, hm'⟩ := h'.machine
  refine ⟨h'.settings.trans h.settings, h'.clock.trans h.clock, h'.ordered,
    fun x hx hp => h.fresh x (h'.fresh x hx hp) hp,
    fun x hp => (h'.flights x hp).trans (h.flights x hp),
    fun t ht hp => h'.timers t (h.timers t ht hp) hp,
    fun i hi hp => h'.woken i (h.woken i hi hp) hp, es ++ fs, ?_, ?_⟩
  · intro e he
    rcases List.mem_append.1 he with he | he
    · exact hes e he
    · exact hfs e he
  · rw [hm', hm, h.settings, Machine.run_append]

theorem spares_setTimer (ho : w.Ordered) (moment i : Nat) : Spares P w (w.setTimer moment i) :=
  { Spares.refl ho with
    ordered := ordered_setTimer ho moment i
    timers := fun _ ht _ => mem_timers_setTimer.2 (.inr ht) }

theorem spares_depart (ho : w.Ordered) (hj : ¬ P j) (on : Waiting) :
    Spares P w (w.depart j on) := by
  cases hc : on.call? with
  | none =>
    have h : w.depart j on = w := by simp only [depart, hc]
    rw [h]
    exact .refl ho
  | some call =>
    obtain ⟨script, permits, timers, h, ho', hkept, -, -, -⟩ := depart_eq j hc ho
    rw [h]
    refine { Spares.refl ho with ordered := ho', flights := ?_, timers := fun t ht _ => hkept t ht }
    intro x hp
    simp only [List.mem_append, List.mem_singleton, or_iff_left_iff_imp]
    rintro rfl
    exact absurd hp hj

theorem spares_happen (ho : w.Ordered) {e : Event} (he : e.id = j) (hj : ¬ P j) :
    Spares P w (w.happen j e) := by
  obtain ⟨woken, hkept, h⟩ := happen_eq j e w
  rw [h]
  have hne : ∀ {i}, P i → i ≠ j := by rintro i hi rfl; exact hj hi
  have hnext : Spares P w (w.stepped j e woken) :=
    { Spares.refl ho with
      ordered := ho.sublist List.filter_sublist
      flights := fun x hp => by simp [stepped, hne hp]
      timers := fun t ht hp => List.mem_filter.2 ⟨ht, by simpa using hne hp⟩
      woken := fun i hi _ => hkept i hi
      machine := ⟨[e], by simpa [he] using hj, rfl⟩ }
  unfold goOn
  cases (w.stepped j e woken).machine.find? j with
  | none => exact hnext
  | some on => exact hnext.trans (spares_depart hnext.ordered hj on)

theorem spares_runWithin (hj : ¬ P j) (fuel : Nat) (ho : w.Ordered) :
    Spares P w (w.runWithin fuel j) := by
  induction fuel generalizing w with
  | zero => exact .refl ho
  | succ fuel ih =>
    unfold runWithin
    split
    · next op hf =>
      have hnext : Spares P w { w with fresh := w.fresh.filter fun f => f.1 != j } :=
        { Spares.refl ho with fresh := fun x hx _ => (List.mem_filter.1 hx).1 }
      have hhappen := spares_happen hnext.ordered (e := .start j w.date op) rfl hj
      exact (hnext.trans hhappen).trans (ih hhappen.ordered)
    · split
      · next flight hf =>
        split
        · next reply hr =>
          have hhappen := spares_happen ho (e := .answer j reply) rfl hj
          exact hhappen.trans (ih hhappen.ordered)
        · split
          · exact spares_happen ho rfl hj
          · exact .refl ho
      · exact spares_happen ho rfl hj

theorem mem_woken_filter (hj : ¬ P j) : ∀ i ∈ w.woken, P i → i ∈ w.woken.filter (· != j) := by
  intro i hi hp
  have hne : i ≠ j := by rintro rfl; exact hj hp
  exact List.mem_filter.2 ⟨hi, by simpa using hne⟩

theorem spares_run (hj : ¬ P j) (ho : w.Ordered) : Spares P w (w.run j) := by
  have hnext : Spares P w { w with woken := w.woken.filter (· != j) } :=
    { Spares.refl ho with woken := mem_woken_filter hj }
  exact hnext.trans (spares_runWithin hj longest hnext.ordered)

theorem spares_abandon (hj : ¬ P j) (ho : w.Ordered) : Spares P w (w.abandon j) := by
  have hnext : Spares P w { w with
      fresh := w.fresh.filter fun f => f.1 != j
      woken := w.woken.filter (· != j) } :=
    { Spares.refl ho with
      fresh := fun x hx _ => (List.mem_filter.1 hx).1
      woken := mem_woken_filter hj }
  exact hnext.trans (spares_happen hnext.ordered rfl hj)

theorem spares_wake (ho : w.Ordered) (i : Nat) : Spares P w (w.wake i) := by
  obtain ⟨woken, hkept, -, h⟩ := wake_eq i w
  rw [h]
  exact { Spares.refl ho with woken := fun i hi _ => hkept i hi }

theorem spares_spawn (hj : ¬ P j) (ho : w.Ordered) (op : Operation) :
    Spares P w (w.spawn j op) := by
  have hnext : Spares P w { w with fresh := w.fresh ++ [(j, op)] } := by
    refine { Spares.refl ho with fresh := fun x hx hp => ?_ }
    rcases List.mem_append.1 hx with hx | hx
    · exact hx
    · cases List.mem_singleton.1 hx
      exact absurd hp hj
  exact hnext.trans (spares_wake hnext.ordered j)

/-- A release concerns a call that is held. -/
theorem spares_release (ho : w.Ordered) (hheld : ∀ x ∈ w.flights, P x.1 → x.2.hold = none)
    (name : String) : Spares P w (w.release name) := by
  unfold release
  split
  · next j flight hf =>
    have hname := List.find?_some hf
    have hj : ¬ P j := by
      intro hp
      rw [hheld _ (List.mem_of_find?_eq_some hf) hp] at hname
      cases hname
    have hne : ∀ {i}, P i → i ≠ j := by rintro i hi rfl; exact hj hi
    have hnext : Spares P w { w with
        flights := w.flights.map fun f : Nat × Flight =>
          if f.1 == j then (j, { flight with hold := none, due := w.clock + flight.delay })
          else f } := by
      refine { Spares.refl ho with flights := fun x hp => ?_ }
      simp only [List.mem_map]
      constructor
      · rintro ⟨y, hy, rfl⟩
        split at hp
        · exact absurd hp hj
        · next hyj => rwa [if_neg hyj]
      · intro hx
        exact ⟨x, hx, if_neg (by simpa using hne hp)⟩
    refine hnext.trans ?_
    simp only
    split
    · have htimer := spares_setTimer (P := P) hnext.ordered (w.clock + flight.delay) j
      exact htimer.trans (spares_wake htimer.ordered j)
    · exact spares_wake hnext.ordered j
  · split
    · exact .refl ho
    · exact { Spares.refl ho with }

/-! ## Moves -/

/-- A move is a run of the machine, and keeps the order of the timers. -/
theorem Move.run_machine (hm : Move w w') (ho : w.Ordered) :
    w'.settings = w.settings ∧ w'.Ordered ∧ ∃ es, w'.machine = w.machine.run w.settings es := by
  have spared : ∀ {v}, Spares (fun _ => False) w v →
      v.settings = w.settings ∧ v.Ordered ∧ ∃ es, v.machine = w.machine.run w.settings es := by
    intro v h
    obtain ⟨es, -, hm⟩ := h.machine
    exact ⟨h.settings, h.ordered, es, hm⟩
  cases hm with
  | spawn op => exact spared (spares_spawn not_false ho op)
  | run => exact spared (spares_run not_false ho)
  | release name => exact spared (spares_release ho (fun _ _ h => h.elim) name)
  | abandon j => exact spared (spares_abandon not_false ho)
  | @pass moment =>
    obtain ⟨woken, timers, -, -, -, ho', h⟩ := moveTo_eq ho moment
    rw [h]
    exact ⟨rfl, ho', [], rfl⟩

/-- A move concerns other operations than one that waits, or runs that one on, or gives it up, or
takes time. -/
theorem Move.cases_of_waiting (hm : Move w w') (ho : w.Ordered)
    (hw : (w.machine.find? id).isSome = true)
    (hheld : ∀ x ∈ w.flights, x.1 = id → x.2.hold = none) :
    Spares (· = id) w w' ∨ (id ∈ w.woken ∧ w' = w.run id) ∨ w' = w.abandon id ∨
      ∃ moment, w.woken = [] ∧ (∀ t ∈ w.timers, moment ≤ t.1) ∧ w' = w.moveTo moment := by
  cases hm with
  | @spawn j op _ hj =>
    refine .inl (spares_spawn ?_ ho op)
    rintro rfl
    rw [hj] at hw
    cases hw
  | @run j h =>
    by_cases hj : j = id
    · subst hj
      exact .inr (.inl ⟨h, rfl⟩)
    · exact .inl (spares_run hj ho)
  | release name => exact .inl (spares_release ho hheld name)
  | abandon j =>
    by_cases hj : j = id
    · subst hj
      exact .inr (.inr (.inl rfl))
    · exact .inl (spares_abandon hj ho)
  | pass h ht => exact .inr (.inr (.inr ⟨_, h, ht, rfl⟩))

/-- The worlds that moves lead to. -/
inductive Reaches (w : World) : World → Prop
  | refl : Reaches w w
  | move {v v' : World} (h : Reaches w v) (hm : Move v v') : Reaches w v'

/-- Whatever moves a world makes, its machine runs. -/
theorem Reaches.run_machine (h : Reaches w w') (ho : w.Ordered) :
    w'.settings = w.settings ∧ w'.Ordered ∧ ∃ es, w'.machine = w.machine.run w.settings es := by
  induction h with
  | refl => exact ⟨rfl, ho, [], rfl⟩
  | move _ hm ih =>
    obtain ⟨hs, ho', es, hes⟩ := ih
    obtain ⟨hs', ho'', fs, hfs⟩ := hm.run_machine ho'
    exact ⟨hs'.trans hs, ho'', es ++ fs, by rw [hfs, hes, hs, Machine.run_append]⟩

theorem ordered_starting (settings : Settings) (date : Int) (app : App) (script : Script) :
    (starting settings date app script).Ordered :=
  List.Pairwise.nil

end World

end SessionGuard
