import SessionGuard.Disk.Writing
import SessionGuard.Proofs.Text.Pieces

/-!
# The parts of a path

The path above another one has the steps of it but for its last one, dots aside
(`parent?_eq_some`); a path without one above has no steps but dots (`parent?_eq_none`).  A name in
a directory is one step more (`steps_join`).
-/

namespace SessionGuard

namespace Path

open Disk (steps)

variable {path up : String} {ps : List (List Char)} {i last : Nat} {rest : List Nat}

/-- The steps of parts. -/
def shown (ps : List (List Char)) : List String := (ps.filter fun p => !p.isEmpty).map String.ofList

theorem steps_eq (path : String) : steps path = shown (parts path) := rfl

@[simp] theorem shown_append (ps qs : List (List Char)) : shown (ps ++ qs) = shown ps ++ shown qs := by
  simp [shown]

theorem shown_cons {p : List Char} (hp : p ≠ []) : shown (p :: ps) = String.ofList p :: shown ps := by
  simp [shown, hp]

theorem eq_dot_of_mem_shown (h : ∀ p ∈ ps, p = [] ∨ p = ['.']) : ∀ t ∈ shown ps, t = "." := by
  intro t ht
  simp only [shown, List.mem_map, List.mem_filter] at ht
  obtain ⟨p, ⟨hp, hne⟩, rfl⟩ := ht
  rcases h p hp with rfl | rfl
  · simp at hne
  · rfl

/-! ## The parts that count -/

theorem mem_countedIndices : i ∈ countedIndices ps ↔ ∃ h : i < ps.length, counts i ps[i] = true := by
  simp only [countedIndices, List.mem_filter, List.mem_range, List.getD_eq_getElem?_getD]
  constructor
  · rintro ⟨hi, hc⟩
    exact ⟨hi, by simpa [hi] using hc⟩
  · rintro ⟨hi, hc⟩
    exact ⟨hi, by simpa [hi] using hc⟩

/-- A part that does not count is empty or a dot. -/
theorem eq_of_not_mem_countedIndices (hi : i < ps.length) (h : i ∉ countedIndices ps) :
    ps[i] = [] ∨ ps[i] = ['.'] := by
  have hcounts : counts i ps[i] ≠ true := fun hc => h (mem_countedIndices.2 ⟨hi, hc⟩)
  by_cases he : ps[i] = []
  · exact .inl he
  · by_cases hd : ps[i] = ['.']
    · exact .inr hd
    · simp [counts, he, hd] at hcounts

theorem pairwise_of_reverse (h : (countedIndices ps).reverse = last :: rest) :
    (last :: rest).Pairwise (· > ·) := by
  rw [← h, List.pairwise_reverse]
  exact List.Pairwise.filter _ List.pairwise_lt_range

/-- The parts up to the last one that counts, where all that count stand in front of an index or are
the last one. -/
theorem parts_eq_of_last {k : Nat} (hk : k ≤ last) (hlast : last ∈ countedIndices ps)
    (h : ∀ i ∈ countedIndices ps, i = last ∨ i < k) :
    ∃ mid name tail, ps = ps.take k ++ mid ++ name :: tail ∧
      (∀ p ∈ mid ++ tail, p = [] ∨ p = ['.']) ∧ name ≠ [] ∧ (name = ['.'] → k = 0 ∧ mid = []) := by
  obtain ⟨hlt, hcounts⟩ := mem_countedIndices.1 hlast
  simp only [counts, Bool.and_eq_true, Bool.or_eq_true, Bool.not_eq_true', bne_iff_ne,
    beq_iff_eq] at hcounts
  have hother (i : Nat) (hi : i < ps.length) (hne : i ≠ last) (hki : k ≤ i) :
      ps[i] = [] ∨ ps[i] = ['.'] :=
    eq_of_not_mem_countedIndices hi fun hmem => (h i hmem).elim hne (Nat.not_lt.2 hki)
  have hsplit : ps = ps.take last ++ ps[last] :: ps.drop (last + 1) := by
    rw [← List.drop_eq_getElem_cons hlt, List.take_append_drop]
  have htake : ps.take last = ps.take k ++ (ps.take last).drop k := by
    have htakes : (ps.take last).take k = ps.take k := by rw [List.take_take, Nat.min_eq_left hk]
    rw [← htakes, List.take_append_drop]
  refine ⟨(ps.take last).drop k, ps[last], ps.drop (last + 1), ?_, ?_, ?_, ?_⟩
  · rw [← htake, ← hsplit]
  · intro p hp
    rcases List.mem_append.1 hp with hp | hp
    · obtain ⟨i, hi, rfl⟩ := List.mem_iff_getElem.1 hp
      simp only [List.length_drop, List.length_take] at hi
      simp only [List.getElem_drop, List.getElem_take]
      exact hother (k + i) (by omega) (by omega) (by omega)
    · obtain ⟨i, hi, rfl⟩ := List.mem_iff_getElem.1 hp
      simp only [List.length_drop] at hi
      simp only [List.getElem_drop]
      exact hother (last + 1 + i) (by omega) (by omega) (by omega)
  · simpa using hcounts.1
  · intro hdot
    have hzero : last = 0 := hcounts.2.resolve_left fun hne => hne hdot
    subst hzero
    obtain rfl : k = 0 := by omega
    simp

/-! ## Absolute paths -/

theorem isAbsolute_iff : isAbsolute path = true ↔ ∃ p ps, parts path = [] :: p :: ps := by
  unfold isAbsolute parts
  cases path.toList with
  | nil => simp [Text.splitAt]
  | cons c cs =>
    obtain ⟨p, ps, h⟩ := List.exists_cons_of_ne_nil (Text.splitAt_ne_nil '/' cs)
    by_cases hc : c = '/' <;> simp [Text.splitAt, hc, h]

theorem isAbsolute_of_take {k : Nat} (hk : k ∈ countedIndices (parts path))
    (hup : parts up = (parts path).take (k + 1)) : isAbsolute up = isAbsolute path := by
  rw [Bool.eq_iff_iff, isAbsolute_iff, isAbsolute_iff, hup]
  constructor
  · rintro ⟨p, ps, h⟩
    exact ⟨p, ps ++ (parts path).drop (k + 1), by
      rw [← List.cons_append, ← List.cons_append, ← h, List.take_append_drop]⟩
  · rintro ⟨p, ps, h⟩
    -- the empty part in front does not count
    have hne : k ≠ 0 := by
      rintro rfl
      simp [mem_countedIndices, h, counts] at hk
    obtain ⟨k, rfl⟩ := Nat.exists_eq_succ_of_ne_zero hne
    exact ⟨p, ps.take k, by simp [h]⟩

/-! ## The path above -/

theorem parts_ofParts (hne : ps ≠ []) (h : ∀ p ∈ ps, '/' ∉ p) : parts (ofParts ps) = ps := by
  rw [parts, ofParts, String.toList_ofList, Text.splitAt_intercalate hne h]

/-- Steps go on with one more, dots aside.  It is a dot only if there are no steps in front. -/
def GoesOn (front whole : List String) : Prop :=
  ∃ dots name dots', whole = front ++ dots ++ name :: dots' ∧ (∀ t ∈ dots ++ dots', t = ".") ∧
    (name = "." → front = [] ∧ dots = [])

/-- The steps of the parts in front of the last one that counts go on with it. -/
theorem goesOn_take {k : Nat} (hk : k ≤ last) (hlast : last ∈ countedIndices ps)
    (h : ∀ i ∈ countedIndices ps, i = last ∨ i < k) : GoesOn (shown (ps.take k)) (shown ps) := by
  obtain ⟨mid, name, tail, hparts, hdots, hne, hname⟩ := parts_eq_of_last hk hlast h
  refine ⟨shown mid, String.ofList name, shown tail, ?_, ?_, ?_⟩
  · have hshown := congrArg shown hparts
    simpa [shown_cons hne] using hshown
  · rw [← shown_append]
    exact eq_dot_of_mem_shown hdots
  · intro hdot
    have hdot : name = ['.'] := by
      have := congrArg String.toList hdot
      simpa using this
    obtain ⟨rfl, rfl⟩ := hname hdot
    exact ⟨rfl, rfl⟩

theorem parts_take {k : Nat} (hk : k ∈ countedIndices (parts path)) :
    parts (ofParts ((parts path).take (k + 1))) = (parts path).take (k + 1) := by
  refine parts_ofParts ?_ fun p hp => Text.not_mem_of_mem_splitAt (List.mem_of_mem_take hp)
  obtain ⟨hlt, -⟩ := mem_countedIndices.1 hk
  exact List.ne_nil_of_length_pos (by rw [List.length_take]; omega)

/-- The path above leads to where the steps go on with the last one. -/
theorem parent?_eq_some (h : parent? path = some up) :
    GoesOn (steps up) (steps path) ∧ isAbsolute up = isAbsolute path := by
  unfold parent? at h
  simp only at h
  split at h
  · cases h
  · next last hrev =>
    have hmem (i : Nat) : i ∈ countedIndices (parts path) ↔ i = last := by
      rw [← List.mem_reverse, hrev, List.mem_singleton]
    have hgoes : GoesOn [] (steps path) :=
      goesOn_take (Nat.zero_le last) ((hmem last).2 rfl) fun i hi => .inl ((hmem i).1 hi)
    cases h
    cases habsolute : isAbsolute path with
    | true => exact ⟨hgoes, rfl⟩
    | false => exact ⟨hgoes, rfl⟩
  · next last before more hrev =>
    have hmem (i : Nat) : i ∈ countedIndices (parts path) ↔ i = last ∨ i = before ∨ i ∈ more := by
      rw [← List.mem_reverse, hrev, List.mem_cons, List.mem_cons]
    have hpairwise := pairwise_of_reverse hrev
    simp only [List.pairwise_cons, List.mem_cons, forall_eq_or_imp] at hpairwise
    obtain ⟨⟨hbefore, -⟩, hmore, -⟩ := hpairwise
    have hcounted := (hmem before).2 (.inr (.inl rfl))
    have hparts := parts_take hcounted
    cases h
    refine ⟨?_, isAbsolute_of_take hcounted hparts⟩
    rw [steps_eq, hparts]
    refine goesOn_take hbefore ((hmem last).2 (.inl rfl)) fun i hi => ?_
    rcases (hmem i).1 hi with rfl | rfl | hi
    · exact .inl rfl
    · exact .inr (Nat.lt_succ_self i)
    · exact .inr (Nat.lt_succ_of_lt (hmore i hi))

/-- A path without one above is empty, or it is that of the root. -/
theorem parent?_eq_none (h : parent? path = none) :
    path = "" ∨ isAbsolute path = true ∧ ∀ t ∈ steps path, t = "." := by
  unfold parent? at h
  simp only at h
  split at h
  · next hrev =>
    have hnone : countedIndices (parts path) = [] := List.reverse_eq_nil_iff.1 hrev
    have hall (i : Nat) (hi : i < (parts path).length) :
        (parts path)[i] = [] ∨ (parts path)[i] = ['.'] :=
      eq_of_not_mem_countedIndices hi (by simp [hnone])
    have hdots : ∀ t ∈ steps path, t = "." := by
      refine eq_dot_of_mem_shown fun p hp => ?_
      obtain ⟨i, hi, rfl⟩ := List.mem_iff_getElem.1 hp
      exact hall i hi
    by_cases habsolute : isAbsolute path = true
    · exact .inr ⟨habsolute, hdots⟩
    · left
      -- the first part is empty, and nothing comes behind it
      obtain ⟨p, ps, hparts⟩ := List.exists_cons_of_ne_nil (Text.splitAt_ne_nil '/' path.toList)
      have hzero : 0 ∉ countedIndices (parts path) := by simp [hnone]
      have hp : p = [] := by
        refine Decidable.byContradiction fun hp => ?_
        refine hzero (mem_countedIndices.2 ⟨by simp [parts, hparts], ?_⟩)
        simp [parts, hparts, counts, hp]
      subst hp
      cases hcs : path.toList with
      | nil => simpa using hcs
      | cons c cs =>
        have hc : c ≠ '/' := by
          rintro rfl
          simp [isAbsolute, hcs] at habsolute
        obtain ⟨q, qs, hq⟩ := List.exists_cons_of_ne_nil (Text.splitAt_ne_nil '/' cs)
        simp [hcs, Text.splitAt, hc, hq] at hparts
  · cases h
  · cases h

/-! ## A name in a directory -/

/-- A name in a directory is reached with one step more. -/
theorem steps_join (directory name : String) :
    steps (join directory name) = steps directory ++ steps name := by
  have happend (cs ds : List Char) : shown (Text.splitAt '/' (cs ++ '/' :: ds)) =
      shown (Text.splitAt '/' cs) ++ shown (Text.splitAt '/' ds) := by
    rw [Text.splitAt_append_sep, shown_append]
  simp only [steps_eq, parts, join]
  split
  · next h =>
    rw [String.isEmpty_iff] at h
    subst h
    rfl
  · split
    · next h =>
      obtain ⟨cs, hcs⟩ := List.getLast?_eq_some_iff.1 (by simpa using h)
      have hslash := happend cs []
      rw [String.toList_append, hcs, List.append_assoc, List.singleton_append, happend, hslash]
      simp [Text.splitAt, shown]
    · simp only [String.toList_append]
      rw [List.append_assoc]
      exact happend _ _

theorem isAbsolute_join {name : String} (directory : String) (hname : isAbsolute name = false) :
    isAbsolute (join directory name) = isAbsolute directory := by
  unfold join
  split
  · next h =>
    rw [String.isEmpty_iff] at h
    subst h
    exact hname
  · next h =>
    have hne : directory.toList ≠ [] := by simpa [String.isEmpty_iff] using h
    obtain ⟨c, cs, hcs⟩ := List.exists_cons_of_ne_nil hne
    split <;> simp [isAbsolute, hcs]

end Path

end SessionGuard
