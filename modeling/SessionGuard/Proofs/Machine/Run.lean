import Mathlib.Data.List.Induction
import SessionGuard.App.Machine

/-!
# Runs of a machine

`find?_advance` and `find?_step_of_ne` say which operation waits under a number after an event,
and `Sometime` says that something happens at some event of a run.
-/

namespace SessionGuard

/-- The number of the operation that an event is about. -/
def Event.id : Event → Nat
  | .start id _ _ | .answer id _ | .timeout id | .wake id | .abandon id => id

deriving instance DecidableEq for Outcome

/-- The wait that an operation has come to. -/
def Progress.waiting? : Progress → Option Waiting
  | .finished _ => none
  | .waiting on => some on

theorem Progress.waiting?_eq_some_iff {p : Progress} {on : Waiting} :
    p.waiting? = some on ↔ p = .waiting on := by
  cases p <;> simp [waiting?]

namespace Machine

/-! ## Waiting operations -/

/-- Without the operation of one number, the others wait as before. -/
theorem find?_others (waiting : List (Nat × Waiting)) (id j : Nat) :
    (waiting.filter fun w => w.1 != id).find? (fun w => w.1 == j) =
      if j = id then none else waiting.find? fun w => w.1 == j := by
  rw [List.find?_filter]
  by_cases h : j = id
  · subst h
    rw [if_pos rfl, List.find?_eq_none]
    intro w _
    by_cases hw : w.1 = j <;> simp [hw]
  · rw [if_neg h]
    congr 1
    funext w
    by_cases hw : w.1 = j
    · simp [hw, h]
    · simp [hw]

/-- After an operation has run, it waits as its progress says, and the others as before. -/
theorem find?_advance (m : Machine) (id j : Nat) (result : App × Progress) :
    (m.advance id result).find? j = if j = id then result.2.waiting? else m.find? j := by
  obtain ⟨app, progress⟩ := result
  cases progress with
  | finished outcome =>
    simp only [advance, find?, find?_others, Progress.waiting?]
    split <;> rfl
  | waiting on =>
    simp only [advance, find?, List.find?_append, find?_others, Progress.waiting?]
    by_cases h : j = id
    · simp [h]
    · have hne : ¬ id = j := fun e => h e.symm
      simp [h, hne]

theorem find?_abandoned (m : Machine) (app : App) (id j : Nat) :
    ({ m with app := app, waiting := m.waiting.filter fun w => w.1 != id } : Machine).find? j =
      if j = id then none else m.find? j := by
  simp only [find?, find?_others]
  split <;> rfl

@[simp] theorem app_advance (m : Machine) (id : Nat) (result : App × Progress) :
    (m.advance id result).app = result.1 := by
  obtain ⟨app, progress⟩ := result
  cases progress <;> rfl

/-- An event says nothing about the operations of other numbers. -/
theorem find?_step_of_ne (settings : Settings) (m : Machine) {e : Event} {j : Nat}
    (h : j ≠ e.id) : (m.step settings e).find? j = m.find? j := by
  cases e <;> simp only [Event.id] at h <;> simp only [step] <;> split <;>
    simp [find?_advance, find?_abandoned, h]

/-- Nor does a run of such events. -/
theorem find?_run_of_ne (settings : Settings) (m : Machine) {es : List Event} {j : Nat}
    (h : ∀ e ∈ es, e.id ≠ j) : (m.run settings es).find? j = m.find? j := by
  induction es generalizing m with
  | nil => rfl
  | cons e es ih =>
    obtain ⟨he, hes⟩ := List.forall_mem_cons.1 h
    exact (ih (m.step settings e) hes).trans (find?_step_of_ne settings m (Ne.symm he))

theorem find?_step_abandon (settings : Settings) {m : Machine} (id : Nat) :
    (m.step settings (.abandon id)).find? id = none := by
  simp only [step]
  split
  · rw [find?_abandoned, if_pos rfl]
  · assumption

/-! ## Operations that end -/

/-- With an event its operation ends. -/
def Ends (settings : Settings) (m : Machine) (e : Event) (outcome : Outcome) : Prop :=
  (m.step settings e).finished = m.finished ++ [(e.id, outcome)]

instance decidableEnds (settings : Settings) (m : Machine) (e : Event) (outcome : Outcome) :
    Decidable (m.Ends settings e outcome) :=
  inferInstanceAs (Decidable (_ = _))

theorem Ends.unique {settings : Settings} {m : Machine} {e : Event} {o o' : Outcome}
    (h : m.Ends settings e o) (h' : m.Ends settings e o') : o = o' := by
  have heq := List.append_cancel_left ((show _ = _ from h).symm.trans h')
  simpa using heq

theorem finished_advance (m : Machine) (id : Nat) (result : App × Progress) :
    (m.advance id result).finished = m.finished ∨
      ∃ outcome, result.2 = .finished outcome ∧
        (m.advance id result).finished = m.finished ++ [(id, outcome)] := by
  obtain ⟨app, progress⟩ := result
  cases progress with
  | finished outcome => exact .inr ⟨outcome, rfl, rfl⟩
  | waiting on => exact .inl rfl

/-- An event ends no operation but its own, which does not wait any more then. -/
theorem finished_step (settings : Settings) (m : Machine) (e : Event) :
    (m.step settings e).finished = m.finished ∨
      ∃ outcome, m.Ends settings e outcome ∧ (m.step settings e).find? e.id = none := by
  have key : ∀ id result, (m.advance id result).finished = m.finished ∨
      ∃ outcome, (m.advance id result).finished = m.finished ++ [(id, outcome)] ∧
        (m.advance id result).find? id = none := by
    intro id result
    rcases finished_advance m id result with h | ⟨outcome, hr, h⟩
    · exact .inl h
    · exact .inr ⟨outcome, h, by rw [find?_advance, if_pos rfl, hr]; rfl⟩
  unfold Ends
  cases e <;> simp only [step, Event.id] <;> split <;>
    first
    | exact .inl rfl
    | exact key _ _

theorem find?_of_ends {settings : Settings} {m : Machine} {e : Event} {outcome : Outcome}
    (h : m.Ends settings e outcome) : (m.step settings e).find? e.id = none := by
  rcases finished_step settings m e with hf | ⟨_, -, hn⟩
  · rw [Ends, hf] at h
    simp at h
  · exact hn

/-- How an operation has ended is not changed by the events of others. -/
theorem find?_finished_run_of_ne (settings : Settings) (m : Machine) {es : List Event} {j : Nat}
    (h : ∀ e ∈ es, e.id ≠ j) :
    (m.run settings es).finished.find? (fun f => f.1 == j) =
      m.finished.find? (fun f => f.1 == j) := by
  induction es generalizing m with
  | nil => rfl
  | cons e es ih =>
    obtain ⟨he, hes⟩ := List.forall_mem_cons.1 h
    refine (ih (m.step settings e) hes).trans ?_
    rcases finished_step settings m e with hf | ⟨outcome, hf, -⟩
    · rw [hf]
    · rw [show _ = _ from hf, List.find?_append]
      simp [he]

theorem not_ends_abandon (settings : Settings) {m : Machine} (id : Nat) (outcome : Outcome) :
    ¬ m.Ends settings (.abandon id) outcome := by
  unfold Ends
  simp only [step]
  split <;> simp

/-! ## What happens in a run -/

/-- At some event of a run `P` holds of the machine before the event and the event. -/
def Sometime (settings : Settings) (P : Machine → Event → Prop) (m : Machine) :
    List Event → Prop
  | [] => False
  | e :: es => P m e ∨ (m.step settings e).Sometime settings P es

/-- At every event of a run `P` holds of the machine before the event and the event. -/
def Always (settings : Settings) (P : Machine → Event → Prop) (m : Machine) :
    List Event → Prop
  | [] => True
  | e :: es => P m e ∧ (m.step settings e).Always settings P es

variable {settings : Settings} {P Q : Machine → Event → Prop}

theorem sometime_append {m : Machine} {es fs : List Event} :
    m.Sometime settings P (es ++ fs) ↔
      m.Sometime settings P es ∨ (m.run settings es).Sometime settings P fs := by
  induction es generalizing m with
  | nil => simp [Sometime]
  | cons e es ih => simp [Sometime, ih, or_assoc]

theorem sometime_concat {m : Machine} {es : List Event} {e : Event} :
    m.Sometime settings P (es ++ [e]) ↔
      m.Sometime settings P es ∨ P (m.run settings es) e := by
  rw [sometime_append]
  simp [Sometime]

theorem Sometime.mono {m : Machine} {es : List Event} (h : m.Sometime settings P es)
    (hPQ : ∀ m e, P m e → Q m e) : m.Sometime settings Q es := by
  induction es generalizing m with
  | nil => exact h
  | cons e es ih => exact h.imp (hPQ m e) ih

theorem always_concat {m : Machine} {es : List Event} {e : Event} :
    m.Always settings P (es ++ [e]) ↔ m.Always settings P es ∧ P (m.run settings es) e := by
  induction es generalizing m with
  | nil => simp [Always]
  | cons d es ih => simp [Always, ih, and_assoc]

/-- What every event keeps, every run keeps. -/
theorem run_induction {I : Machine → Prop} (hstep : ∀ m e, I m → I (m.step settings e))
    {m : Machine} (h : I m) (es : List Event) : I (m.run settings es) := by
  induction es generalizing m with
  | nil => exact h
  | cons e es ih => exact ih (hstep m e h)

end Machine

end SessionGuard
