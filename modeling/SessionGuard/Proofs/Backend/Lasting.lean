import SessionGuard.Proofs.Backend.Attempt
import SessionGuard.Proofs.Session.Change
import SessionGuard.Proofs.Store.Written

/-!
# What lasts through operations

Operations set and clear the token of the store and do nothing else to it.  So what a store stays
through that (`Store.Lasting`), be it done or not, it stays through every operation
(`Backend.always_run`).  A store in a file is such a one: all that happens to the disk is that the file
is saved, or cannot be (`lasting_on`).
-/

namespace SessionGuard

/-- A property of stores that is kept when a token is set or cleared, or cannot be set. -/
structure Store.Lasting (P : Store → Prop) : Prop where
  set : ∀ s s' token, P s → s.set token = .ok s' → P s'
  miss : ∀ s f token, P s → s.set token = .error f → P f.left
  clear : ∀ s, P s → P s.clear

/-- A store in a file, on a disk with a property. -/
def Store.On (path : String) (Q : Disk → Prop) (s : Store) : Prop :=
  ∃ disk, s = .file path disk ∧ Q disk

namespace Store

variable {path : String} {Q : Disk → Prop}

theorem touches_clearFile (disk : Disk) (path : String) :
    clearFile disk path = disk ∨ disk.Touches path (clearFile disk path) := by
  unfold clearFile
  simp only
  split
  · exact .inl rfl
  · split
    · next after hs => exact .inr (touches_save hs)
    · next f hs => exact .inr (save_eq_error hs).touches

theorem lasting_on (hQ : ∀ disk after, Q disk → disk.Touches path after → Q after) :
    Lasting (On path Q) where
  set := by
    rintro _ s' token ⟨disk, rfl, hdisk⟩ hset
    simp only [Store.set] at hset
    cases hs : setFile disk path token with
    | error e => rw [hs] at hset; cases hset
    | ok after =>
      rw [hs] at hset
      cases hset
      exact ⟨after, rfl, hQ disk after hdisk (touches_save hs)⟩
  miss := by
    rintro _ f token ⟨disk, rfl, hdisk⟩ hset
    obtain ⟨_, _, left, hs, hfails, hleft⟩ := set_eq_error hset
    cases hs
    exact ⟨left, hleft, hQ disk left hdisk (save_eq_error hfails).touches⟩
  clear := by
    rintro _ ⟨disk, rfl, hdisk⟩
    refine ⟨clearFile disk path, rfl, ?_⟩
    rcases touches_clearFile disk path with h | h
    · rwa [h]
    · exact hQ disk _ hdisk h

end Store

variable {P : Store → Prop}

theorem App.Moves.lasting {a b : App} {v w : Option (Nat × Token)} {c : Option Change}
    (h : a.Moves v c b w) (hP : Store.Lasting P) (ha : P a.store) : P b.store := by
  have hcleared (clear : Bool) : P (if clear then a.store.clear else a.store) := by
    split
    · exact hP.clear _ ha
    · exact ha
  cases h with
  | rest h | ask _ _ h | drop h => rwa [h.store]
  | judge clear _ _ _ ht =>
    rw [ht]
    exact hcleared clear
  | settle h =>
    rw [h.store]
    unfold App.settle
    split
    · exact hcleared _
    · exact ha
  | signIn ht => exact hP.set _ _ _ ha ht
  | miss ht => exact hP.miss _ _ _ ha ht
  | signOut h =>
    rw [h.store]
    exact hP.clear _ ha

namespace Backend

open Http (Exchange)

variable {settings : Settings} {host : String}

theorem Served.lasting {p p' : App × Progress} {ts : List (Attempt host)}
    (h : Served settings host p ts p') (hP : Store.Lasting P) (hp : P p.1.store) : P p'.1.store := by
  induction h with
  | ended | idle => exact hp
  | asked _ _ ih => exact ih ((App.moves_answer ..).lasting hP hp)

/-- What lasts through the uses of a store lasts through every operation. -/
theorem always_run (hP : Store.Lasting P) {a : App} (ha : P a.store) (now : Int) (op : Operation) :
    (run settings host now op a).Always fun p => P p.1.store := by
  intro sent p h
  obtain ⟨ts, -, hts⟩ := served_of_ends_run h
  exact hts.lasting hP ((App.moves_start ..).lasting hP ha)

end Backend

end SessionGuard
