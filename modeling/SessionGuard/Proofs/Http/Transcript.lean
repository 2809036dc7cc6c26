import SessionGuard.Http.Exchange

/-!
# Ways through an exchange

Whatever becomes of the requests, an exchange comes to a result in a way (`Ends`), and a way through
two exchanges, one after the other, is a way through each (`ends_bind`).
-/

namespace SessionGuard.Http.Exchange

variable {α β : Type}

/-- A way through an exchange: its requests, each with what becomes of it, and the result. -/
inductive Ends : Exchange α → List (Request × Delivery) → α → Prop
  | done (a : α) : Ends (done a) [] a
  | send {r : Request} {next : Delivery → Exchange α} {d : Delivery}
      {sent : List (Request × Delivery)} {a : α} (h : Ends (next d) sent a) :
      Ends (send r next) ((r, d) :: sent) a

variable {e : Exchange α} {f : α → Exchange β} {sent : List (Request × Delivery)} {a : α} {b : β}

theorem ends_transcript (e : Exchange α) (ds : List Delivery) :
    e.Ends (e.transcript ds) (e.result ds) := by
  induction e generalizing ds with
  | done a => exact .done a
  | send r next ih =>
    cases ds with
    | nil => exact .send (ih .refused [])
    | cons d ds => exact .send (ih d ds)

theorem ends_done {a' : α} (h : (done a).Ends sent a') : sent = [] ∧ a' = a := by
  cases h
  exact ⟨rfl, rfl⟩

theorem ends_bind (h : (e >>= f).Ends sent b) :
    ∃ first rest a, e.Ends first a ∧ (f a).Ends rest b ∧ sent = first ++ rest := by
  induction e generalizing sent with
  | done a => exact ⟨[], sent, a, .done a, h, rfl⟩
  | send r next ih =>
    cases h with
    | send h =>
      obtain ⟨first, rest, a, hfirst, hrest, rfl⟩ := ih _ h
      exact ⟨_, rest, a, .send hfirst, hrest, rfl⟩

/-- Every way through an exchange comes to a result with a property. -/
def Always (e : Exchange α) (P : α → Prop) : Prop := ∀ sent a, e.Ends sent a → P a

variable {P : α → Prop} {Q : β → Prop}

theorem always_done (h : P a) : (done a).Always P := by
  intro sent a' hends
  rw [(ends_done hends).2]
  exact h

theorem always_true (e : Exchange α) : e.Always fun _ => True := fun _ _ _ => trivial

theorem Always.bind (h : e.Always P) (hf : ∀ a, P a → (f a).Always Q) : (e >>= f).Always Q := by
  intro sent b hends
  obtain ⟨first, rest, a, hfirst, hrest, -⟩ := ends_bind hends
  exact hf a (h first a hfirst) rest b hrest

theorem Always.result (h : e.Always P) (ds : List Delivery) : P (e.result ds) :=
  h _ _ (e.ends_transcript ds)

/-- What becomes of the first request is given first. -/
theorem delivery_eq_of_transcript {r : Request} {d : Delivery} {ds : List Delivery}
    (h : e.transcript ds = (r, d) :: sent) : d = ds.headD .refused := by
  cases e with
  | done => cases h
  | send r' next =>
    cases ds <;>
    · cases h
      rfl

end SessionGuard.Http.Exchange
