import SessionGuard.Disk

/-!
# What is on a disk

An entry stands in a directory (`find?_dropLast`).  What is put into a directory is there
(`find?_put_self`), and where it takes the place of no directory nothing else changes
(`find?_put_of_ne`).
-/

namespace SessionGuard.Disk

variable {d : Disk} {l m : Location} {e : Entry}

theorem find?_eq_some_iff :
    d.find? l = some e ↔
      d.recorded? l = some e ∧ ∀ n < l.length, d.recorded? (l.take n) = some .directory := by
  unfold find?
  split
  · next h => simpa using fun _ => by simpa using h
  · next h =>
    simp only [List.all_eq_true, List.mem_range, beq_iff_eq] at h
    simp only [reduceCtorEq, false_iff, not_and]
    exact fun _ h' => h h'

/-- What is found on a disk is one of its entries, or a directory. -/
theorem mem_of_find? (h : d.find? l = some e) : e = .directory ∨ (l, e) ∈ d.entries := by
  obtain ⟨hrecorded, -⟩ := find?_eq_some_iff.1 h
  unfold recorded? at hrecorded
  split at hrecorded
  · exact .inl (Option.some.inj hrecorded).symm
  · obtain ⟨x, hx, rfl⟩ := Option.map_eq_some_iff.1 hrecorded
    have hl : x.1 = l := by simpa using List.find?_some hx
    exact .inr (hl ▸ List.mem_of_find?_eq_some hx)

@[simp] theorem find?_nil (d : Disk) : d.find? [] = some .directory := rfl

/-- An entry stands in a directory. -/
theorem find?_dropLast (h : d.find? l = some e) : d.find? l.dropLast = some .directory := by
  rw [find?_eq_some_iff] at h ⊢
  rcases List.eq_nil_or_concat l with rfl | ⟨init, last, rfl⟩
  · exact ⟨rfl, by simp⟩
  · simp only [List.concat_eq_append, List.dropLast_concat, List.length_append,
      List.length_singleton] at h ⊢
    refine ⟨by simpa using h.2 init.length (by omega), fun n hn => ?_⟩
    have := h.2 n (by omega)
    rwa [List.take_append_of_le_length (by omega)] at this

/-- What is above an entry is a directory. -/
theorem find?_of_append {m : Location} (h : d.find? (l ++ m) = some .directory) :
    d.find? l = some .directory := by
  induction m generalizing l with
  | nil => simpa using h
  | cons part m ih => simpa using find?_dropLast (ih (l := l ++ [part]) (by simpa using h))

theorem recorded?_put_self (hl : l ≠ []) : (d.put l e).recorded? l = some e := by
  simp only [recorded?, put, remove, List.isEmpty_iff, hl, if_false]
  rw [List.find?_append, List.find?_eq_none.2 fun x hx => ?_]
  · simp
  · obtain ⟨-, hx⟩ := List.mem_filter.1 hx
    rintro he
    rw [eq_of_beq he, List.isPrefixOf_iff_prefix.2 List.prefix_rfl] at hx
    cases hx

/-- What is not at or below the location of an entry stays as it was recorded. -/
theorem recorded?_put_elsewhere (h : ¬ l <+: m) :
    (d.put l e).recorded? m = d.recorded? m := by
  have hne : (l == m) = false := by
    rw [beq_eq_false_iff_ne]
    rintro rfl
    exact h List.prefix_rfl
  have hm : l.isPrefixOf m = false := by
    rwa [Bool.eq_false_iff, Ne, List.isPrefixOf_iff_prefix]
  have hfilter : (fun x : Location × Entry => decide ((!l.isPrefixOf x.1) = true ∧ (x.1 == m) = true))
      = fun x => x.1 == m := by
    funext x
    by_cases hx : x.1 = m <;> simp [hx, hm]
  simp only [recorded?, put, remove, List.find?_append, List.find?_filter, hfilter, hne,
    List.find?_cons, List.find?_nil, Option.or_none]

/-- An entry that is put into a directory is there. -/
theorem find?_put_self (hl : l ≠ []) (hup : d.find? l.dropLast = some .directory) :
    (d.put l e).find? l = some e := by
  refine find?_eq_some_iff.2 ⟨recorded?_put_self hl, fun n hn => ?_⟩
  have hshort : ¬ l <+: l.take n := fun h => by
    have := h.length_le
    rw [List.length_take] at this
    omega
  rw [recorded?_put_elsewhere hshort]
  rw [find?_eq_some_iff, List.length_dropLast] at hup
  by_cases hlast : n = l.length - 1
  · rw [hlast, ← List.dropLast_eq_take]
    exact hup.1
  · have := hup.2 n (by omega)
    rwa [List.dropLast_eq_take, List.take_take, Nat.min_eq_left (by omega)] at this

/-- What is put in place of no directory changes nothing elsewhere. -/
theorem find?_put_of_ne (hl : d.find? l ≠ some .directory) (h : m ≠ l) :
    (d.put l e).find? m = d.find? m := by
  by_cases hprefix : l <+: m
  · -- nothing was below the location, and nothing is
    obtain ⟨more, rfl⟩ := hprefix
    have hmore : more ≠ [] := by
      rintro rfl
      exact h (by simp)
    have hbefore : d.find? (l ++ more) = none := by
      cases hfound : d.find? (l ++ more) with
      | none => rfl
      | some found =>
        have hup := find?_dropLast hfound
        rw [List.dropLast_append_of_ne_nil hmore] at hup
        exact absurd (find?_of_append hup) hl
    have hafter : (d.put l e).recorded? (l ++ more) = none := by
      have hne : l ≠ l ++ more := by simpa using hmore
      simp only [recorded?, put, remove, List.isEmpty_iff, List.append_eq_nil_iff, hmore, and_false,
        if_false, List.find?_append, Option.map_eq_none_iff, Option.or_eq_none_iff]
      refine ⟨List.find?_eq_none.2 fun x hx he => ?_, by simp [hne]⟩
      obtain ⟨-, hx⟩ := List.mem_filter.1 hx
      rw [eq_of_beq he, List.isPrefixOf_iff_prefix.2 (List.prefix_append l more)] at hx
      cases hx
    rw [hbefore, find?]
    split
    · exact hafter
    · rfl
  · have htake (n : Nat) : (d.put l e).recorded? (m.take n) = d.recorded? (m.take n) :=
      recorded?_put_elsewhere fun hp => hprefix (hp.trans (List.take_prefix n m))
    simp only [find?, htake, recorded?_put_elsewhere hprefix]

theorem put_put (d : Disk) (l : Location) (e e' : Entry) : (d.put l e).put l e' = d.put l e' := by
  simp [put, remove, List.filter_append]

end SessionGuard.Disk
