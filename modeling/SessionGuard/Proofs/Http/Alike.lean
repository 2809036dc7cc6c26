import Mathlib.Data.List.Forall2
import SessionGuard.Http.Exchange

/-!
# Exchanges that go alike

Two exchanges go alike if they send related requests, one for one, as long as the same becomes of
them, and end in related results (`Alike`).  Exchanges that go alike, one after the other, go alike
(`Alike.bind`).
-/

namespace SessionGuard.Http.Exchange

variable {α β γ δ : Type}

/-- Two exchanges with related requests and related results, whatever becomes of the requests. -/
inductive Alike (R : Request → Request → Prop) (S : α → β → Prop) : Exchange α → Exchange β → Prop
  | done {a b} (h : S a b) : Alike R S (done a) (done b)
  | send {r r' next next'} (h : R r r') (hnext : ∀ d, Alike R S (next d) (next' d)) :
      Alike R S (send r next) (send r' next')

variable {R : Request → Request → Prop} {S : α → β → Prop} {T : γ → δ → Prop}
  {e : Exchange α} {e' : Exchange β} {f : α → Exchange γ} {f' : β → Exchange δ}

theorem Alike.bind (h : Alike R S e e') (hf : ∀ a b, S a b → Alike R T (f a) (f' b)) :
    Alike R T (e >>= f) (e' >>= f') := by
  induction h with
  | done h => exact hf _ _ h
  | send h _ ih => exact .send h ih

theorem Alike.result (h : Alike R S e e') (ds : List Delivery) : S (e.result ds) (e'.result ds) := by
  induction h generalizing ds with
  | done h => exact h
  | send _ _ ih =>
    cases ds with
    | nil => exact ih .refused []
    | cons d ds => exact ih d ds

/-- The requests are related one for one, and the same becomes of each. -/
theorem Alike.transcript (h : Alike R S e e') (ds : List Delivery) :
    List.Forall₂ (fun x y => R x.1 y.1 ∧ x.2 = y.2) (e.transcript ds) (e'.transcript ds) := by
  induction h generalizing ds with
  | done => exact .nil
  | send h _ ih =>
    cases ds with
    | nil => exact .cons ⟨h, rfl⟩ (ih .refused [])
    | cons d ds => exact .cons ⟨h, rfl⟩ (ih d ds)

end SessionGuard.Http.Exchange
