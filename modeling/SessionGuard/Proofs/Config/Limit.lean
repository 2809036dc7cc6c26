import SessionGuard.Config

/-!
# The time limit of a configuration

A time limit that is read from a file fits in 64 bits (`gives_ofDocument`), and one that is loaded is
not zero either (`timeout_of_load`).
-/

namespace SessionGuard.Config

open Yaml (Document Node)

/-- Whatever a reader reads has a property. -/
def Gives {α : Type} (read : Document.Reader α) (P : α → Prop) : Prop :=
  ∀ followed a followed', read followed = some (a, followed') → P a

section Gives

variable {α β : Type} {read : Document.Reader α} {next : α → Document.Reader β} {P : α → Prop}
  {Q : β → Prop}

theorem gives_pure {a : α} (h : P a) : Gives (pure a) P := by
  rintro followed b followed' ⟨⟩
  exact h

theorem gives_fail : Gives (Document.fail : Document.Reader α) P := nofun

theorem gives_true : Gives read fun _ => True := fun _ _ _ _ => trivial

theorem Gives.bind (h : Gives read P) (hnext : ∀ a, P a → Gives (next a) Q) :
    Gives (read >>= next) Q := by
  intro followed b followed' hread
  obtain ⟨⟨a, followed₁⟩, ha, hb⟩ := Option.bind_eq_some_iff.1 hread
  exact hnext a (h _ _ _ ha) _ _ _ hb

theorem gives_fieldOr {value : α} {of : Node Nat → Document.Reader α} (hvalue : P value)
    (hof : ∀ node, Gives (of node) P) (node? : Option (Node Nat)) :
    Gives (fieldOr value of node?) P := by
  cases node? with
  | none => exact gives_pure hvalue
  | some node => exact hof node

end Gives

variable {d : Document}

theorem gives_natural (node : Node Nat) : Gives (natural d node) (· < UInt64.size) := by
  unfold natural
  refine gives_true.bind fun found _ => ?_
  split
  · split
    · split
      · split
        · next hn => exact gives_pure hn
        · exact gives_fail
      · exact gives_fail
    · exact gives_fail
  · exact gives_fail

theorem gives_settings (node : Node Nat) :
    Gives (settings d node) (·.timeoutSeconds < UInt64.size) := by
  unfold settings
  refine gives_true.bind fun entries _ => gives_true.bind fun found _ => ?_
  split
  · refine (gives_fieldOr (by decide) gives_natural _).bind fun n hn => ?_
    exact gives_true.bind fun check _ => gives_pure hn
  · exact gives_fail

/-- A time limit that is read fits in 64 bits. -/
theorem gives_ofDocument : Gives (ofDocument d) (·.session.timeoutSeconds < UInt64.size) := by
  unfold ofDocument
  refine gives_true.bind fun entries _ => gives_true.bind fun found _ => ?_
  split
  · refine gives_true.bind fun host _ => gives_true.bind fun file _ => gives_true.bind fun policy _ => ?_
    exact (gives_fieldOr (by decide) gives_settings _).bind fun session hs => gives_pure hs
  · exact gives_fail

/-- A time limit that is loaded is not zero and fits in 64 bits. -/
theorem timeout_of_load {disk : Disk} {path : String} {c : Config} (h : load disk path = .ok c) :
    0 < c.session.timeoutSeconds ∧ c.session.timeoutSeconds < UInt64.size := by
  unfold load at h
  split at h
  · cases h
    exact ⟨by decide, by decide⟩
  · split at h
    · cases h
    · split at h
      · cases h
      · next config hdecode =>
        split at h
        · cases h
        · next hzero =>
          cases h
          obtain ⟨doc, -, hrun⟩ := Option.bind_eq_some_iff.1 hdecode
          obtain ⟨⟨read, followed⟩, hread, rfl⟩ := Option.map_eq_some_iff.1 hrun
          exact ⟨Nat.pos_of_ne_zero hzero, gives_ofDocument _ _ _ hread⟩

end SessionGuard.Config
