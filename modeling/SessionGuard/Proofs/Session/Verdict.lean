import SessionGuard.Proofs.Machine.Calls
import SessionGuard.Proofs.Session.Validation
import SessionGuard.Proofs.Store.Written

/-!
# Verdicts on the stored token

The backend is asked about a token that is not known to have expired (`App.Holds`); its verdict makes
the session, and the store keeps the token only of a user (`App.Judged`).
-/

namespace SessionGuard

namespace App

/-- A token is stored that is not known to have expired. -/
def Holds (a : App) (settings : Settings) (now : Int) (token : Token) : Prop :=
  a.store.get? = some token ∧ (settings.checkExpiry = false ∨ token.isExpired now = false)

variable {settings : Settings} {now : Int} {a : App} {token : Token}

/-- The backend is asked about a token that is not known to have expired. -/
theorem startValidation_of_holds (hf : a.session.validating = false)
    (ht : a.Holds settings now token) :
    a.startValidation settings now =
      (a.beginValidation.record (.currentUser token),
        .waiting (.validating (a.session.generation + 1) token)) := by
  obtain ⟨ht, he⟩ := ht
  have he' : (settings.checkExpiry && token.isExpired now) = false := by
    rcases he with he | he <;> simp [he]
  unfold startValidation
  rw [hf]
  simp only [Bool.false_eq_true, if_false, show a.beginValidation.store.get? = some token from ht,
    he']
  rfl

/-- Without such a token a validation is over at once; an expired one is cleared. -/
theorem startValidation_of_not_holds (hf : a.session.validating = false)
    (ht : ∀ token, ¬ a.Holds settings now token) :
    ∃ clear, (clear = false → a.store.get? = none) ∧
      a.startValidation settings now =
        a.beginValidation.finishValidation (a.session.generation + 1) .unauthenticated clear := by
  rcases startValidation_cases settings now hf with h | ⟨token, hs, h⟩
  · exact h
  · have he : (settings.checkExpiry && token.isExpired now) = true := by
      by_contra hn
      refine ht token ⟨hs, ?_⟩
      rcases Bool.eq_false_or_eq_true settings.checkExpiry with hc | hc
      · exact .inr (by simpa [hc] using hn)
      · exact .inl hc
    refine ⟨true, by simp, ?_⟩
    unfold startValidation
    rw [hf]
    simp only [Bool.false_eq_true, if_false,
      show a.beginValidation.store.get? = some token from hs, he, if_true]
    rfl

theorem calls_finishValidation (attempt : Nat) (s : SessionState) (clear : Bool) (a : App) :
    (a.finishValidation attempt s clear).1.calls = a.calls :=
  calls_settle attempt s clear a

/-! ## Verdicts -/

/-- The second application is the first one after a validation with a verdict. -/
structure Judged (a : App) (verdict : Option UserProfile) (b : App) : Prop where
  state : b.session.state = .ofVerdict verdict
  kept : verdict.isSome = true → b.store = a.store
  cleared : verdict = none → b.store.get? = none ∨ a.store.Clings
  place : ∀ path disk, a.store = .file path disk → ∃ disk', b.store = .file path disk'

theorem judged_finishValidation {a b : App} {attempt : Nat} (verdict : Option UserProfile)
    {clear : Bool} (hg : b.session.generation = attempt) (hs : b.store = a.store)
    (hkept : verdict.isSome = true → clear = false)
    (hclear : verdict = none → clear = false → a.store.get? = none) :
    Judged a verdict (b.finishValidation attempt (.ofVerdict verdict) clear).1 := by
  have hstore : (b.finishValidation attempt (.ofVerdict verdict) clear).1.store =
      if clear then a.store.clear else a.store := by
    rw [← hs]
    simp [finishValidation, settle_of_eq hg, endValidation]
  refine ⟨by simp [finishValidation, settle_of_eq hg], fun hv => ?_, fun hv => ?_,
    fun path disk ha => ?_⟩
  · rw [hstore, hkept hv]
    rfl
  · rw [hstore]
    cases clear with
    | true => exact Store.get?_clear a.store
    | false => exact .inl (hclear hv rfl)
  · rw [hstore, ha]
    cases clear with
    | true => exact ⟨_, rfl⟩
    | false => exact ⟨_, rfl⟩

theorem Judged.signedIn_iff {a b : App} {verdict : Option UserProfile} (h : a.Judged verdict b)
    (user : UserProfile) :
    b.session.state = .authenticated user ∧ b.store = a.store ↔ verdict = some user := by
  rw [h.state]
  constructor
  · rintro ⟨hs, -⟩
    cases verdict with
    | none => cases hs
    | some u =>
      cases hs
      rfl
  · rintro rfl
    exact ⟨rfl, h.kept rfl⟩

end App

end SessionGuard
