import SessionGuard.Proofs.Machine.Commands

/-!
# The history is the replay of its log

A command that opens a screen begins a stretch of the log, which goes on up to the next such command
(`IsStretch`).  Each entry of the stack belongs to one stretch and is the screen of its last command;
the first entry belongs to the commands before any is opened, and is the start if there are none
(`IsReplay`).  So it is with every history, whoever gave the commands (`history_replays_log`).
-/

namespace SessionGuard

/-- Whether a command opens a screen; the others replace the one shown. -/
def Navigation.opens : Navigation → Bool
  | navigate _ => true
  | replace _ => false

namespace History

variable {start shown r : Route} {ns before span after : List Navigation} {i : Nat}

/-! ## Stretches of a log -/

/-- How many of the commands open a screen. -/
def openings (ns : List Navigation) : Nat := ns.countP Navigation.opens

/-- The screen of the last command, or the one shown before if there is none. -/
def lastRoute (shown : Route) (ns : List Navigation) : Route :=
  (ns.getLast?.map Navigation.route).getD shown

/-- None of the commands opens a screen. -/
def Stays (ns : List Navigation) : Prop := ∀ n ∈ ns, n.opens = false

/-- The commands are over, or go on with one that opens a screen. -/
def EndsOrOpens (ns : List Navigation) : Prop := ∀ n, ns.head? = some n → n.opens = true

/-- The `i`-th stretch of commands: from the `i`-th one that opens a screen up to the next, or, where
`i` is zero, from the beginning up to the first. -/
inductive IsStretch (ns : List Navigation) : Nat → List Navigation → Prop
  | first {span after : List Navigation} (h : ns = span ++ after) (hspan : Stays span)
      (hafter : EndsOrOpens after) : IsStretch ns 0 span
  | opened {before span after : List Navigation} {r : Route}
      (h : ns = before ++ .navigate r :: (span ++ after)) (hspan : Stays span)
      (hafter : EndsOrOpens after) : IsStretch ns (openings before + 1) (.navigate r :: span)

@[simp] theorem openings_navigate (r : Route) (ns : List Navigation) :
    openings (.navigate r :: ns) = openings ns + 1 :=
  List.countP_cons_of_pos rfl

@[simp] theorem openings_replace (r : Route) (ns : List Navigation) :
    openings (.replace r :: ns) = openings ns :=
  List.countP_cons_of_neg (by simp [Navigation.opens])

theorem lastRoute_cons (shown : Route) (n : Navigation) (ns : List Navigation) :
    lastRoute shown (n :: ns) = lastRoute n.route ns := by
  unfold lastRoute
  rw [List.getLast?_cons]
  cases ns.getLast? <;> rfl

theorem Stays.replace (h : Stays ns) (r : Route) : Stays (.replace r :: ns) := by
  intro n hn
  rcases List.mem_cons.1 hn with rfl | hn
  · rfl
  · exact h n hn

theorem endsOrOpens_navigate (r : Route) (ns : List Navigation) : EndsOrOpens (.navigate r :: ns) := by
  rintro n ⟨⟩
  rfl

/-- A command put in front of a log puts off its stretches but for the first. -/
theorem IsStretch.cons (h : IsStretch ns (i + 1) span) (n : Navigation) :
    IsStretch (n :: ns) (openings [n] + (i + 1)) span := by
  generalize hi : i + 1 = j at h
  cases h with
  | first => cases hi
  | @opened before span after r heq hspan hafter =>
    have hcount : openings [n] + (openings before + 1) = openings (n :: before) + 1 := by
      have happend : openings ([n] ++ before) = openings [n] + openings before := List.countP_append
      rw [List.singleton_append] at happend
      omega
    rw [hcount]
    exact .opened (by rw [heq, List.cons_append]) hspan hafter

/-- There is a stretch for the beginning and for each command that opens a screen. -/
theorem exists_isStretch (ns : List Navigation) (i : Nat) (hi : i ≤ openings ns) :
    ∃ span, IsStretch ns i span := by
  induction ns generalizing i with
  | nil =>
    obtain rfl : i = 0 := Nat.le_zero.1 hi
    exact ⟨[], .first rfl (by simp [Stays]) (by simp [EndsOrOpens])⟩
  | cons n ns ih =>
    cases n with
    | navigate r =>
      rw [openings_navigate] at hi
      match i with
      | 0 => exact ⟨[], .first rfl (by simp [Stays]) (endsOrOpens_navigate r ns)⟩
      | 1 =>
        obtain ⟨span, hspan⟩ := ih 0 (Nat.zero_le _)
        cases hspan with
        | @first _ after h hstays hafter =>
          have hopened : IsStretch (.navigate r :: ns) (openings [] + 1) (.navigate r :: span) :=
            .opened (by rw [h, List.nil_append]) hstays hafter
          exact ⟨_, hopened⟩
      | i + 2 =>
        obtain ⟨span, hspan⟩ := ih (i + 1) (by omega)
        refine ⟨span, ?_⟩
        have hcons := hspan.cons (.navigate r)
        rwa [openings_navigate, show openings [] + 1 + (i + 1) = i + 2 by simp [openings]; omega]
          at hcons
    | replace r =>
      rw [openings_replace] at hi
      obtain ⟨span, hspan⟩ := ih i hi
      cases i with
      | zero =>
        cases hspan with
        | first h hstays hafter =>
          exact ⟨.replace r :: span, .first (by rw [h, List.cons_append]) (hstays.replace r) hafter⟩
      | succ i =>
        refine ⟨span, ?_⟩
        have hcons := hspan.cons (.replace r)
        rwa [openings_replace, show openings [] + (i + 1) = i + 1 by simp [openings]] at hcons

/-! ## The entries that commands make -/

/-- The entries of the stack from the one shown on, after commands. -/
def entriesFrom (shown : Route) : List Navigation → List Route
  | [] => [shown]
  | .navigate r :: ns => shown :: entriesFrom r ns
  | .replace r :: ns => entriesFrom r ns

theorem length_entriesFrom (shown : Route) (ns : List Navigation) :
    (entriesFrom shown ns).length = openings ns + 1 := by
  induction ns generalizing shown with
  | nil => rfl
  | cons n ns ih =>
    cases n with
    | navigate r => rw [entriesFrom, List.length_cons, ih, openings_navigate]
    | replace r => rw [entriesFrom, ih, openings_replace]

theorem entriesFrom_append_navigate (shown r : Route) (before after : List Navigation) :
    entriesFrom shown (before ++ .navigate r :: after) =
      entriesFrom shown before ++ entriesFrom r after := by
  induction before generalizing shown with
  | nil => rfl
  | cons n before ih =>
    cases n with
    | navigate s => rw [List.cons_append, entriesFrom, ih, entriesFrom, List.cons_append]
    | replace s => rw [List.cons_append, entriesFrom, ih, entriesFrom]

/-- Commands that open no screen only change which one is shown. -/
theorem entriesFrom_append_of_stays (h : Stays span) (shown : Route) (after : List Navigation) :
    entriesFrom shown (span ++ after) = entriesFrom (lastRoute shown span) after := by
  induction span generalizing shown with
  | nil => rfl
  | cons n span ih =>
    have hspan : Stays span := fun n hn => h n (List.mem_cons_of_mem _ hn)
    cases n with
    | navigate s => exact absurd (h _ List.mem_cons_self) (by simp [Navigation.opens])
    | replace s => rw [List.cons_append, entriesFrom, ih hspan, lastRoute_cons, Navigation.route]

/-- What is shown stays in its entry where the next command opens a screen. -/
theorem getElem?_zero_entriesFrom (h : EndsOrOpens after) (shown : Route) :
    (entriesFrom shown after)[0]? = some shown := by
  cases after with
  | nil => rfl
  | cons n after =>
    cases n with
    | navigate r => rfl
    | replace r => exact absurd (h _ rfl) (by simp [Navigation.opens])

/-- The entry of a stretch is the screen of its last command. -/
theorem getElem?_entriesFrom (h : IsStretch ns i span) (shown : Route) :
    (entriesFrom shown ns)[i]? = some (lastRoute shown span) := by
  cases h with
  | first h hspan hafter =>
    rw [h, entriesFrom_append_of_stays hspan]
    exact getElem?_zero_entriesFrom hafter _
  | @opened before span after r h hspan hafter =>
    have hlength := length_entriesFrom shown before
    rw [h, entriesFrom_append_navigate, entriesFrom_append_of_stays hspan,
      List.getElem?_append_right (by omega), hlength, Nat.sub_self, lastRoute_cons]
    exact getElem?_zero_entriesFrom hafter _

/-! ## Histories -/

theorem stack_applyAll (h : History) (ns : List Navigation) :
    (h.applyAll ns).stack = h.earlier.reverse ++ entriesFrom h.current ns := by
  induction ns generalizing h with
  | nil => simp [stack, entriesFrom]
  | cons n ns ih =>
    cases n with
    | navigate r => simp [ih, apply, entriesFrom]
    | replace r => simp [ih, apply, entriesFrom]

theorem current_applyAll (h : History) (ns : List Navigation) :
    (h.applyAll ns).current = lastRoute h.current ns := by
  induction ns generalizing h with
  | nil => rfl
  | cons n ns ih => rw [applyAll_cons, ih, current_apply, lastRoute_cons]

/-- A history is what its commands make of the start.  The stack has an entry for the beginning and one
for each command that opens a screen: the screen of the last command of its stretch. -/
structure IsReplay (start : Route) (h : History) : Prop where
  nonempty : h.stack ≠ []
  length : h.stack.length = openings h.log + 1
  covered : ∀ i < h.stack.length, ∃ span, IsStretch h.log i span
  entry : ∀ i span, IsStretch h.log i span → h.stack[i]? = some (lastRoute start span)
  current : h.current = lastRoute start h.log
  top : h.stack.getLast? = some h.current

theorem isReplay_applyAll (start : Route) (ns : List Navigation) :
    IsReplay start ((starting start).applyAll ns) := by
  have hlog : ((starting start).applyAll ns).log = ns := by
    rw [log_applyAll, log_starting, List.nil_append]
  have hstack : ((starting start).applyAll ns).stack = entriesFrom start ns :=
    stack_applyAll (starting start) ns
  have hlength := length_entriesFrom start ns
  refine ⟨by simp [stack], ?_, fun i hi => ?_, fun i span hspan => ?_, ?_, by simp [stack]⟩
  · rw [hstack, hlog, hlength]
  · rw [hstack, hlength] at hi
    rw [hlog]
    exact exists_isStretch ns i (Nat.le_of_lt_succ hi)
  · rw [hlog] at hspan
    rw [hstack]
    exact getElem?_entriesFrom hspan start
  · rw [hlog, current_applyAll, current_starting]

/-- A screen that is replaced leaves all entries but its own. -/
theorem getElem?_stack_replace (h : History) (r : Route) (hi : i + 1 < h.stack.length) :
    (h.apply (.replace r)).stack[i]? = h.stack[i]? := by
  have hdrop : i < h.stack.dropLast.length := by
    rw [List.length_dropLast]
    omega
  rw [stack_apply_replace, List.getElem?_append_left hdrop, List.getElem?_dropLast, if_pos (by omega)]

/-- Whatever commands are given to a history, directly or by the operations of a run, in any
interleaving: its log is these commands in their order, and the history is the replay of its log.  A
redirection of the gate is one more command, which neither adds an entry nor changes one below the
top. -/
theorem history_replays_log :
    (∀ (start : Route) (ns : List Navigation),
      ((starting start).applyAll ns).log = ns ∧ IsReplay start ((starting start).applyAll ns)) ∧
    (∀ (settings : Settings) (store : Store) (start : Route) (es : List Event),
      let m := Machine.starting (.starting store start)
      let h := (m.run settings es).app.history
      h.log = m.given settings es ∧ IsReplay start h) ∧
    ∀ (a : App) (route target : Route), Gate.decide route a.session.state = .redirect target →
      let h := (a.evaluate route).2.history
      h.log = a.history.log ++ [.replace target] ∧ h.stack.length = a.history.stack.length ∧
        ∀ i, i + 1 < a.history.stack.length → h.stack[i]? = a.history.stack[i]? := by
  refine ⟨fun start ns => ⟨?_, isReplay_applyAll start ns⟩, fun settings store start es => ?_,
    fun a route target hd => ?_⟩
  · rw [log_applyAll, log_starting, List.nil_append]
  · intro m h
    have hrun : h = (starting start).applyAll (m.given settings es) := m.history_run settings es
    rw [hrun]
    refine ⟨?_, isReplay_applyAll start _⟩
    rw [log_applyAll, log_starting, List.nil_append]
  · intro h
    have hh : h = a.history.apply (.replace target) := by
      show (a.evaluate route).2.history = _
      rw [App.history_evaluate, hd]
      rfl
    rw [hh]
    refine ⟨log_apply _ _, ?_, fun i hi => getElem?_stack_replace a.history target hi⟩
    simp [stack, apply]

/-- A guest who goes to the items and is sent to the login finds the landing screen behind it. -/
theorem history_replays_log_for_guest :
    let settings : Settings := ⟨10000, true, .redirectToLogin⟩
    let es : List Event := [.start 0 0 .restore, .start 1 0 (.go (.navigate .items))]
    let a := ((Machine.starting (.starting (.memory none) .landing)).run settings es).app
    Gate.decide .items a.session.state = .redirect .login ∧
      (a.evaluate .items).2.history.log = [.navigate .items, .replace .login] ∧
      (a.evaluate .items).2.history.stack.length = 2 ∧
      (a.evaluate .items).2.history.stack[0]? = some .landing := by
  intro settings es a
  have hd : Gate.decide .items a.session.state = .redirect .login := by decide
  obtain ⟨-, runs, gate⟩ := history_replays_log
  obtain ⟨hlog, hreplay⟩ := runs settings (.memory none) .landing es
  obtain ⟨hlog', hlength', hkept⟩ := gate a .items .login hd
  have hgiven : a.history.log = [.navigate .items] := by rw [hlog]; decide
  have hlength : a.history.stack.length = 2 := by rw [hreplay.length, hgiven]; rfl
  have hfirst : a.history.stack[0]? = some .landing :=
    hreplay.entry 0 [] (.first rfl (by simp [Stays]) (endsOrOpens_navigate _ _))
  refine ⟨hd, by rw [hlog', hgiven]; rfl, hlength'.trans hlength, ?_⟩
  exact (hkept 0 (by omega)).trans hfirst

end History

end SessionGuard
