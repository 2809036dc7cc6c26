import Mathlib.Data.List.Forall2
import SessionGuard.Proofs.Json.Accepted
import SessionGuard.Proofs.Json.Writing

/-!
# Members by name

The names of an object's members stand for texts (`Named`, `IsObject`).  A record asks for some of
these names (`field?`): members that only change places give the same answers (`field?_perm`), a member
answers for its own name alone (`field?_cons_of_ne`), and for a name that occurs again there is no
answer (`field?_eq_none_iff`).
-/

namespace SessionGuard.Json

open SessionGuard.Text (Received)

variable {ms : List (Received × Raw)} {named named' : List (String × Raw)} {name name' : String}
  {v : Raw}

/-- Members with the texts that their names stand for. -/
def Named (ms : List (Received × Raw)) (named : List (String × Raw)) : Prop :=
  List.Forall₂ (fun m n => Denotes m.1 n.1 ∧ m.2 = n.2) ms named

/-- A text is an object with these members. -/
def IsObject (text : String) (named : List (String × Raw)) : Prop :=
  ∃ gap ms cs gap', IsGap gap ∧ Spells (.value (.object ms)) cs ∧ IsGap gap' ∧
    text.toList = gap ++ (cs ++ gap') ∧ Named ms named

namespace Raw

theorem named?_of_named (h : Named ms named) : named? ms = some named := by
  induction h with
  | nil => rfl
  | @cons m n ms named hmn _ ih =>
    obtain ⟨hname, hvalue⟩ := hmn
    unfold named? at ih ⊢
    simp [List.mapM_cons, decode?_of_denotes hname, ih, hvalue]

theorem named?_cons {m : Received × Raw} (h : named? (m :: ms) = some named) :
    ∃ name rest, decode? m.1 = some name ∧ named? ms = some rest ∧ named = (name, m.2) :: rest := by
  unfold named? at h ⊢
  simp only [List.mapM_cons, Option.bind_eq_bind, Option.pure_def, Option.bind_eq_some_iff,
    Option.map_eq_some_iff, Option.some.injEq] at h
  obtain ⟨_, ⟨name, hname, rfl⟩, rest, hrest, rfl⟩ := h
  exact ⟨name, rest, hname, hrest, rfl⟩

/-- Names that are read are those that the members have. -/
theorem named_of_named? (hms : ∀ m ∈ ms, ∃ key, Inside key ∧ m.1 = key.map some)
    (h : named? ms = some named) : Named ms named := by
  induction ms generalizing named with
  | nil =>
    cases h
    exact .nil
  | cons m ms ih =>
    obtain ⟨name, rest, hname, hrest, rfl⟩ := named?_cons h
    obtain ⟨key, hkey, heq⟩ := hms m (by simp)
    have hdenotes : Denotes m.1 name := by
      rw [heq] at hname ⊢
      exact denotes_of_decode? hkey hname
    exact .cons ⟨hdenotes, rfl⟩ (ih (fun m' hm' => hms m' (by simp [hm'])) hrest)

theorem named_of_spells {cs : List Char} (h : Spells (.value (.object ms)) cs)
    (hnamed : named? ms = some named) : Named ms named := by
  cases h with
  | object h => exact named_of_named? (fun m hm => (spells_of_mem_members h m hm).1) hnamed

end Raw

/-- The texts that are objects are those that are read as one, with names that are read. -/
theorem isObject_iff {text : String} : IsObject text named ↔
    ∃ ms, Raw.read? (Received.ofString text) = some (.object ms) ∧ Raw.named? ms = some named := by
  unfold Received.ofString
  constructor
  · rintro ⟨gap, ms, cs, gap', hgap, hspells, hgap', htext, hnamed⟩
    refine ⟨ms, ?_, Raw.named?_of_named hnamed⟩
    rw [htext]
    exact Raw.read?_of_spells hgap hspells hgap'
  · rintro ⟨ms, hread, hnamed⟩
    obtain ⟨gap, cs, gap', hgap, hspells, hgap', htext⟩ := Raw.exists_spells_of_read? hread
    exact ⟨gap, ms, cs, gap', hgap, hspells, hgap', htext, Raw.named_of_spells hspells hnamed⟩

/-- Members that are written are named by the texts of their names. -/
theorem named_of_ofMembers? {members : List (String × Json)} (h : Raw.ofMembers? members = some ms) :
    Named ms ((members.map Prod.fst).zip (ms.map Prod.snd)) := by
  induction members generalizing ms with
  | nil =>
    cases h
    exact .nil
  | cons m rest ih =>
    simp only [Raw.ofMembers?, Option.bind_eq_bind, Option.bind_eq_some_iff] at h
    obtain ⟨v, hv, ms, hms, ⟨⟩⟩ := h
    exact .cons ⟨⟨_, rfl, writes_escaped m.1⟩, rfl⟩ (ih hms)

/-- The text of an object is an object with the members that are written. -/
theorem isObject_text (members : List (String × Json)) (h : Raw.ofMembers? members = some ms) :
    IsObject (Json.object members).text ((members.map Prod.fst).zip (ms.map Prod.snd)) := by
  refine isObject_iff.2 ⟨ms, read?_text ?_, Raw.named?_of_named (named_of_ofMembers? h)⟩
  rw [Raw.ofJson?, h, Option.map_some]

/-! ## Fields -/

namespace Raw

theorem field?_perm (h : named.Perm named') (name : String) :
    field? named name = field? named' name := by
  have hfound := h.filter fun m => m.1 == name
  unfold field?
  generalize named.filter (fun m => m.1 == name) = found at hfound ⊢
  generalize named'.filter (fun m => m.1 == name) = found' at hfound ⊢
  rcases found with _ | ⟨m, _ | ⟨m', rest⟩⟩
  · rw [hfound.nil_eq]
  · rw [List.singleton_perm.1 hfound]
  · -- Two members or more stay so many, whichever come first.
    have hlength := hfound.length_eq
    rcases found' with _ | ⟨n, _ | ⟨n', rest'⟩⟩
    · cases hlength
    · cases hlength
    · rfl

theorem field?_cons_of_ne (h : name' ≠ name) :
    field? ((name', v) :: named) name = field? named name := by
  simp [field?, h]

/-- A member answers for its name if no other has it. -/
theorem field?_cons_self : field? ((name, v) :: named) name =
    (field? named name).bind fun found => if found.isNone then some (some v) else none := by
  unfold field?
  rw [List.filter_cons_of_pos (by simp)]
  generalize named.filter (fun m => m.1 == name) = found
  rcases found with _ | ⟨m, _ | ⟨m', rest⟩⟩ <;> rfl

/-- There is no answer for a name that occurs again. -/
theorem field?_eq_none_iff : field? named name = none ↔ 1 < (named.map Prod.fst).count name := by
  have hcount : (named.map Prod.fst).count name =
      (named.filter fun m => m.1 == name).length := by
    rw [List.count, List.countP_map, List.countP_eq_length_filter]
    rfl
  rw [hcount, field?]
  generalize named.filter (fun m => m.1 == name) = found
  rcases found with _ | ⟨m, _ | ⟨m', rest⟩⟩ <;> simp

/-- The answer for a name is the value of a member that has it. -/
theorem eq_of_mem_of_field? {found : Option Raw} (hm : (name, v) ∈ named)
    (h : field? named name = some found) : found = some v := by
  have hfound : (name, v) ∈ named.filter fun m => m.1 == name := by simpa using hm
  unfold field? at h
  split at h
  · next hnone =>
    rw [hnone] at hfound
    cases hfound
  · next hone =>
    cases h
    rw [hone, List.mem_singleton] at hfound
    cases hfound
    rfl
  · cases h

end Raw

end SessionGuard.Json
