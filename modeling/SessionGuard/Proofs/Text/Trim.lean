import SessionGuard.Text.Trim

/-!
# What is left of a trimmed text

Trimming is told by what it leaves: a text that ends in no character of the class, with a run of the
class behind it in the whole (`dropTrailing_eq_iff`).  A text without blanks at its ends is left whole
(`trim_eq_self`).
-/

namespace SessionGuard.Text

variable {p : Char → Bool} {cs ds run : List Char}

/-- What holds of every character of a text is found by looking at one after the other. -/
theorem forall_mem_of_all {P : Char → Prop} [DecidablePred P]
    (h : (cs.all fun c => decide (P c)) = true) : ∀ c ∈ cs, P c :=
  fun c hc => of_decide_eq_true (List.all_eq_true.1 h c hc)

/-- A text that ends in no character of the class is left as it is. -/
theorem dropTrailing_eq_self (h : ∀ c, cs.getLast? = some c → p c = false) :
    dropTrailing p cs = cs := by
  obtain ⟨run, hrun, hall⟩ := dropTrailing_append p cs
  rcases List.eq_nil_or_concat run with rfl | ⟨init, c, rfl⟩
  · simpa using hrun.symm
  · have hlast : cs.getLast? = some c := by rw [hrun]; simp
    have hc : p c = true := hall c (by simp)
    rw [h c hlast] at hc
    cases hc

/-- A run of the class at the end is removed with all of the class in front of it. -/
theorem dropTrailing_append_run (h : ∀ c ∈ run, p c = true) :
    dropTrailing p (cs ++ run) = dropTrailing p cs := by
  induction cs with
  | nil => exact dropTrailing_eq_nil.2 h
  | cons c cs ih => rw [List.cons_append, dropTrailing, dropTrailing, ih]

theorem dropTrailing_eq_iff : dropTrailing p cs = ds ↔
    (∀ c, ds.getLast? = some c → p c = false) ∧ ∃ run, cs = ds ++ run ∧ ∀ c ∈ run, p c = true := by
  constructor
  · rintro rfl
    exact ⟨fun c => dropTrailing_getLast, dropTrailing_append p cs⟩
  · rintro ⟨hlast, run, rfl, hrun⟩
    rw [dropTrailing_append_run hrun, dropTrailing_eq_self hlast]

/-- What stands in front of a text that is not all removed stays. -/
theorem dropTrailing_append_of_ne_nil (h : dropTrailing p cs ≠ []) (front : List Char) :
    dropTrailing p (front ++ cs) = front ++ dropTrailing p cs := by
  obtain ⟨run, hrun, hall⟩ := dropTrailing_append p cs
  refine dropTrailing_eq_iff.2 ⟨fun c hc => ?_, run, ?_, hall⟩
  · obtain ⟨d, hd⟩ := Option.ne_none_iff_exists'.1 fun hnone => h (List.getLast?_eq_none_iff.1 hnone)
    rw [List.getLast?_append, hd, Option.some_or] at hc
    exact dropTrailing_getLast (hd.trans hc)
  · rw [List.append_assoc, ← hrun]

theorem head?_dropTrailing {c : Char} (h : (dropTrailing p cs).head? = some c) :
    cs.head? = some c := by
  obtain ⟨run, hrun, -⟩ := dropTrailing_append p cs
  rw [hrun, List.head?_append, h, Option.some_or]

/-! ## Blanks at both ends -/

theorem toList_trim (s : String) :
    (trim s).toList = dropTrailing isBlank (s.toList.dropWhile isBlank) :=
  String.toList_ofList

theorem toList_dropSlashes (s : String) :
    (dropSlashes s).toList = dropTrailing (· == '/') s.toList :=
  String.toList_ofList

/-- A trimmed text begins with no blank. -/
theorem isBlank_of_head?_trim {s : String} {c : Char} (h : (trim s).toList.head? = some c) :
    isBlank c = false := by
  rw [toList_trim] at h
  have hhead := head?_dropTrailing h
  have hstop := List.head?_dropWhile_not isBlank s.toList
  rw [hhead] at hstop
  simpa using hstop

/-- A text without blanks at its ends is left as it is. -/
theorem trim_eq_self {s : String} (hfirst : ∀ c, s.toList.head? = some c → isBlank c = false)
    (hlast : ∀ c, s.toList.getLast? = some c → isBlank c = false) : trim s = s := by
  have hdrop : s.toList.dropWhile isBlank = s.toList := by
    cases hs : s.toList with
    | nil => rfl
    | cons c cs => rw [List.dropWhile_cons_of_neg (by simp [hfirst c (by rw [hs]; rfl)])]
  rw [← String.toList_inj, toList_trim, hdrop, dropTrailing_eq_self hlast]

end SessionGuard.Text
