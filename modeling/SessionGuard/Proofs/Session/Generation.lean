import SessionGuard.Proofs.Session.Change

/-!
# Generations

The generation of a session counts its transitions: the validations that have started, the
sign-ins and the sign-outs.  It only grows, and it grows in every run in which a transition happens
(`generation_lt_run`).
-/

namespace SessionGuard

namespace App

@[simp] theorem generation_settle (a : App) (attempt : Nat) (s : SessionState) (clear : Bool) :
    (a.settle attempt s clear).session.generation = a.session.generation := by
  unfold settle
  split <;> rfl

@[simp] theorem session_endValidation (a : App) :
    a.endValidation.session = { a.session with validating := false } := rfl

/-- A transition opens one new generation, and no other change opens any. -/
theorem Moves.generation {a b : App} {v w : Option (Nat × Token)} {c : Option Change}
    (h : Moves a v c b w) :
    b.session.generation =
      a.session.generation + if c.any Change.isTransition then 1 else 0 := by
  cases h with
  | rest h => simp [h.session]
  | ask _ _ h => rw [h.session]; rfl
  | judge _ _ _ hs => rw [hs]; rfl
  | settle h => simp [h.session, Change.isTransition]
  | drop h => simp [h.session, Change.isTransition]
  | signIn _ hs => rw [hs]; rfl
  | miss _ hs => rw [hs]; rfl
  | signOut h => rw [h.session]; rfl

end App

namespace Machine

/-- An event signs a user in, or the user out. -/
def Signs (m : Machine) (e : Event) : Prop :=
  (∃ token user, m.change? e = some (.signsIn token user)) ∨ m.change? e = some .signsOut

/-- An event stores no token that it should, and signs nobody in. -/
def Misses (m : Machine) (e : Event) : Prop := ∃ token, m.change? e = some (.misses token)

/-- An event starts a validation. -/
def Begins (m : Machine) (e : Event) : Prop := m.change? e = some .begins

/-- An event signs in or out, or starts a validation. -/
def Transits (m : Machine) (e : Event) : Prop := (m.change? e).any Change.isTransition = true

theorem Signs.transits {m : Machine} {e : Event} (h : m.Signs e) : m.Transits e := by
  rcases h with ⟨token, user, h⟩ | h <;> simp [Transits, h, Change.isTransition]

variable (settings : Settings) {m : Machine}

/-! ## Generations only grow -/

theorem generation_le_step (e : Event) :
    m.app.session.generation ≤ (m.step settings e).app.session.generation := by
  rw [(moves_step settings m e).generation]
  exact Nat.le_add_right _ _

theorem generation_lt_step {e : Event} (h : m.Transits e) :
    m.app.session.generation < (m.step settings e).app.session.generation := by
  rw [(moves_step settings m e).generation, if_pos (show _ = true from h)]
  exact Nat.lt_succ_self _

theorem generation_le_run (es : List Event) :
    m.app.session.generation ≤ (m.run settings es).app.session.generation :=
  run_induction (I := fun n => m.app.session.generation ≤ n.app.session.generation)
    (fun _ e h => Nat.le_trans h (generation_le_step settings e)) (Nat.le_refl _) es

theorem generation_lt_run {es : List Event} (h : m.Sometime settings Transits es) :
    m.app.session.generation < (m.run settings es).app.session.generation := by
  induction es generalizing m with
  | nil => exact absurd h id
  | cons e es ih =>
    rcases h with h | h
    · exact Nat.lt_of_lt_of_le (generation_lt_step settings h) (generation_le_run settings es)
    · exact Nat.lt_of_le_of_lt (generation_le_step settings e) (ih h)

end Machine

end SessionGuard
