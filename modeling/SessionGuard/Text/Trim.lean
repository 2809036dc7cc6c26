/-!
# Trimming and splitting

Blanks are the characters of the Unicode property `White_Space`.  `dropTrailing` removes the
longest run at the end of a text, `trim` the blanks at both ends.
-/

namespace SessionGuard.Text

/-- The characters with the Unicode property `White_Space`. -/
def isBlank (c : Char) : Bool :=
  let n := c.toNat
  (9 ≤ n && n ≤ 13) || n == 32 || n == 0x85 || n == 0xA0 || n == 0x1680
    || (0x2000 ≤ n && n ≤ 0x200A) || n == 0x2028 || n == 0x2029 || n == 0x202F || n == 0x205F
    || n == 0x3000

/-- A list without the longest run of `p` at its end. -/
def dropTrailing (p : Char → Bool) : List Char → List Char
  | [] => []
  | c :: cs =>
    match dropTrailing p cs with
    | [] => if p c then [] else [c]
    | d :: ds => c :: d :: ds

/-- A text without the blanks at both ends. -/
def trim (s : String) : String :=
  String.ofList (dropTrailing isBlank (s.toList.dropWhile isBlank))

/-- A text without the slashes at its end. -/
def dropSlashes (s : String) : String :=
  String.ofList (dropTrailing (· == '/') s.toList)

/-- The pieces between the separators; one more than there are separators. -/
def splitAt (sep : Char) : List Char → List (List Char)
  | [] => [[]]
  | c :: cs =>
    if c = sep then [] :: splitAt sep cs
    else
      match splitAt sep cs with
      | [] => [[c]]
      | piece :: pieces => (c :: piece) :: pieces

theorem splitAt_ne_nil (sep : Char) (cs : List Char) : splitAt sep cs ≠ [] := by
  induction cs with
  | nil => simp [splitAt]
  | cons c cs ih =>
    unfold splitAt
    split
    · simp
    · split <;> simp_all

theorem dropTrailing_eq_nil {p : Char → Bool} {cs : List Char} :
    dropTrailing p cs = [] ↔ ∀ c ∈ cs, p c = true := by
  induction cs with
  | nil => simp [dropTrailing]
  | cons c cs ih =>
    unfold dropTrailing
    split
    next h => by_cases hp : p c <;> simp_all
    next d ds h =>
      have hne : dropTrailing p cs ≠ [] := by simp [h]
      simp only [reduceCtorEq, false_iff]
      intro hall
      exact hne (ih.2 fun x hx => hall x (List.mem_cons_of_mem _ hx))

/-- The removed run is a suffix on which `p` holds. -/
theorem dropTrailing_append (p : Char → Bool) (cs : List Char) :
    ∃ run, cs = dropTrailing p cs ++ run ∧ ∀ c ∈ run, p c = true := by
  induction cs with
  | nil => exact ⟨[], by simp [dropTrailing]⟩
  | cons c cs ih =>
    obtain ⟨run, hrun, hall⟩ := ih
    unfold dropTrailing
    split
    next h =>
      rw [h, List.nil_append] at hrun
      by_cases hp : p c
      · exact ⟨c :: run, by simp [hp, hrun], by simp [hp]; exact hall⟩
      · exact ⟨run, by simp [hp, hrun], hall⟩
    next d ds h => exact ⟨run, by rw [h] at hrun; simp [hrun], hall⟩

/-- What is left ends in no character of the class. -/
theorem dropTrailing_getLast {p : Char → Bool} {cs : List Char} {c : Char}
    (h : (dropTrailing p cs).getLast? = some c) : p c = false := by
  induction cs with
  | nil => simp [dropTrailing] at h
  | cons d cs ih =>
    unfold dropTrailing at h
    split at h
    next _ =>
      by_cases hp : p d
      · simp [hp] at h
      · simp [hp] at h; exact h ▸ by simpa using hp
    next e es he => exact ih (by rw [he]; simpa using h)

end SessionGuard.Text
