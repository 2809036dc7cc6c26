import SessionGuard.Yaml.Printer

/-!
# Words and gaps

A text that is written falls into words and the gaps between them.  The reader takes a gap of blanks
as it is, and a gap of line breaks with the indentation behind it (`takeGap?_blanks`,
`takeGap?_breaks`).
-/

namespace SessionGuard.Yaml

/-! ## Classes of characters -/

/-- A text starts with no blank and no line break. -/
def NoGapFirst (cs : List Char) : Prop := ∀ d ∈ cs.head?, isGap d = false

theorem isGap_iff {d : Char} : isGap d = true ↔ isSpace d = true ∨ isBreak d = true := by
  simp [isGap]

/-- The only blank that is shown is the space. -/
theorem eq_space_of_isShown {d : Char} (hs : isShown d = true) (h : isSpace d = true) : d = ' ' := by
  simp only [isSpace, Bool.or_eq_true, decide_eq_true_eq] at h
  rcases h with rfl | rfl
  · rfl
  · exact absurd hs (by decide)

/-- The line breaks that are shown count for themselves. -/
theorem eq_of_isShown_of_isBreak {d : Char} (hs : isShown d = true) (h : isBreak d = true) :
    d = '\n' ∨ d = '\u2028' ∨ d = '\u2029' := by
  simp only [isBreak, Bool.or_eq_true, decide_eq_true_eq] at h
  rcases h with (((rfl | rfl) | rfl) | rfl) | rfl
  · simp
  · exact absurd hs (by decide)
  · exact absurd hs (by decide)
  · simp
  · simp

theorem isAllowed_of_isShown {d : Char} (h : isShown d = true) : isAllowed d = true := by
  simp only [isShown, isAllowed, Bool.or_eq_true, Bool.and_eq_true, beq_iff_eq, bne_iff_ne,
    decide_eq_true_eq] at h ⊢
  omega

/-! ## Words -/

/-- A text is a word without a class of characters, a gap of nothing else, and the rest, which
starts with a word again. -/
theorem exists_word (p : Char → Bool) (cs : List Char) :
    ∃ word gap rest, cs = word ++ (gap ++ rest) ∧ (∀ d ∈ word, p d = false) ∧
      (∀ d ∈ gap, p d = true) ∧ (∀ d ∈ rest.head?, p d = false) ∧ (gap = [] → rest = []) := by
  refine ⟨cs.takeWhile fun d => !p d, (cs.dropWhile fun d => !p d).takeWhile p,
    (cs.dropWhile fun d => !p d).dropWhile p, ?_, ?_, ?_, ?_, ?_⟩
  · rw [List.takeWhile_append_dropWhile, List.takeWhile_append_dropWhile]
  · intro d hd
    simpa using List.all_eq_true.1 List.all_takeWhile d hd
  · intro d hd
    exact List.all_eq_true.1 List.all_takeWhile d hd
  · intro d hd
    have := List.head?_dropWhile_not p (cs.dropWhile fun d => !p d)
    rwa [Option.mem_def.1 hd] at this
  · intro hg
    have := List.head?_dropWhile_not (fun d => !p d) cs
    cases hc : cs.dropWhile fun d => !p d with
    | nil => rfl
    | cons d ds =>
      rw [hc] at this hg
      simp only [List.head?_cons, Bool.not_eq_eq_eq_not, Bool.not_false] at this
      simp [this] at hg

theorem hasPair_append {p q : Char → Bool} {cs ds : List Char}
    (h : hasPair p q (cs ++ ds) = false) : hasPair p q cs = false ∧ hasPair p q ds = false := by
  induction cs with
  | nil => exact ⟨rfl, h⟩
  | cons c cs ih =>
    cases cs with
    | nil =>
      cases ds with
      | nil => exact ⟨rfl, rfl⟩
      | cons d ds =>
        simp only [List.cons_append, List.nil_append, hasPair, Bool.or_eq_false_iff] at h
        exact ⟨rfl, h.2⟩
    | cons c' cs =>
      simp only [List.cons_append, hasPair, Bool.or_eq_false_iff] at h ih ⊢
      obtain ⟨hcs, hds⟩ := ih h.2
      exact ⟨⟨h.1, hcs⟩, hds⟩

/-! ## Inside of a line -/

namespace Cursor

/-- What is left of a text, on a line of which `n` characters at least have been read. -/
structure Inside (n : Nat) (c : Cursor) (rest : List Char) : Prop where
  rest_eq : c.rest = rest
  le_column : n ≤ c.column

variable {n : Nat} {c : Cursor} {d : Char} {rest : List Char}

theorem Inside.skip (h : c.Inside n (d :: rest)) : c.skip.Inside n rest :=
  ⟨by simp [Cursor.skip, h.rest_eq], Nat.le_succ_of_le h.le_column⟩

theorem Inside.skipN {ds : List Char} (h : c.Inside n (ds ++ rest)) :
    (c.skipN ds.length).Inside n rest := by
  induction ds generalizing c with
  | nil => exact h
  | cons d ds ih => exact ih h.skip

/-- No document marker stands inside of a line. -/
theorem Inside.atAnyMarker (h : c.Inside n rest) (hn : 0 < n) : c.atAnyMarker = false := by
  have hc : (c.column == 0) = false := by
    have := h.le_column
    simp only [beq_eq_false_iff_ne]
    omega
  simp [Cursor.atAnyMarker, atMarker, hc]

/-! ## Gaps -/

/-- No gap is where a word starts. -/
theorem takeGap?_word {margin fuel : Nat} {broken : Bool} (hrest : NoGapFirst c.rest) :
    takeGap? margin fuel broken c = some (⟨[], []⟩, c) := by
  cases fuel with
  | zero => rfl
  | succ fuel =>
    unfold takeGap?
    cases hc : c.rest with
    | nil => rfl
    | cons d rest =>
      have hd : isGap d = false := hrest d (by simp [hc])
      simp only [isGap, Bool.or_eq_false_iff] at hd
      simp [hd]

/-- A gap of blanks is taken as it is. -/
theorem takeGap?_blanks (margin : Nat) {fuel : Nat} {blanks : List Char}
    (hblanks : ∀ d ∈ blanks, d = ' ') (hrest : NoGapFirst rest) (hc : c.Inside n (blanks ++ rest))
    (hfuel : blanks.length ≤ fuel) :
    ∃ c', takeGap? margin fuel false c = some (⟨blanks, []⟩, c') ∧ c'.Inside n rest := by
  induction blanks generalizing c fuel with
  | nil => exact ⟨c, takeGap?_word (hc.rest_eq ▸ hrest), hc⟩
  | cons d blanks ih =>
    obtain rfl := hblanks d (by simp)
    cases fuel with
    | zero => simp at hfuel
    | succ fuel =>
      obtain ⟨c', hgap, hc'⟩ :=
        ih (fun d hd => hblanks d (by simp [hd])) hc.skip (by simpa using hfuel)
      refine ⟨c', ?_, hc'⟩
      unfold takeGap?
      rw [hc.rest_eq]
      simp [isSpace, hgap]

/-- Behind a line break, blanks are indentation. -/
theorem takeGap?_indentation (margin : Nat) {fuel k : Nat} (hrest : NoGapFirst rest)
    (hc : c.rest = List.replicate k ' ' ++ rest) (hfuel : k ≤ fuel) :
    ∃ c', takeGap? margin fuel true c = some (⟨[], []⟩, c') ∧ c'.rest = rest ∧
      c'.column = c.column + k := by
  induction k generalizing c fuel with
  | zero => exact ⟨c, takeGap?_word (hc ▸ hrest), hc, rfl⟩
  | succ k ih =>
    cases fuel with
    | zero => simp at hfuel
    | succ fuel =>
      rw [List.replicate_succ, List.cons_append] at hc
      obtain ⟨c', hgap, hc', hcol⟩ := ih (c := c.skip) (by simp [Cursor.skip, hc])
        (Nat.le_of_succ_le_succ hfuel)
      refine ⟨c', ?_, hc', by simp only [hcol, Cursor.skip]; omega⟩
      unfold takeGap?
      rw [hc]
      simp [isSpace, hgap]

theorem takeBreak_of_isShown (hs : isShown d = true) (hd : isBreak d = true)
    (hc : c.rest = d :: rest) :
    ∃ line index, c.takeBreak = ([d], ⟨rest, line, 0, index⟩) := by
  unfold takeBreak
  rw [hc]
  rcases eq_of_isShown_of_isBreak hs hd with rfl | rfl | rfl <;>
    exact ⟨_, _, rfl⟩

/-- A gap of line breaks is taken with the indentation behind it. -/
theorem takeGap?_breaks (margin : Nat) {fuel k : Nat} (broken : Bool) {breaks : List Char}
    (hbreaks : ∀ d ∈ breaks, isShown d = true ∧ isBreak d = true) (hne : breaks ≠ [])
    (hrest : NoGapFirst rest) (hc : c.rest = breaks ++ (List.replicate k ' ' ++ rest))
    (hfuel : breaks.length + k ≤ fuel) :
    ∃ c', takeGap? margin fuel broken c = some (⟨[], breaks⟩, c') ∧ c'.rest = rest ∧
      c'.column = k := by
  induction breaks generalizing c fuel broken with
  | nil => exact absurd rfl hne
  | cons d breaks ih =>
    obtain ⟨hs, hd⟩ := hbreaks d (by simp)
    have hspace : isSpace d = false := by
      rcases eq_of_isShown_of_isBreak hs hd with rfl | rfl | rfl <;> rfl
    cases fuel with
    | zero => simp at hfuel
    | succ fuel =>
      obtain ⟨line, index, hbreak⟩ := takeBreak_of_isShown hs hd hc
      have hmore : ∃ c', takeGap? margin fuel true
          ⟨breaks ++ (List.replicate k ' ' ++ rest), line, 0, index⟩ =
            some (⟨[], breaks⟩, c') ∧ c'.rest = rest ∧ c'.column = k := by
        simp only [List.length_cons] at hfuel
        cases breaks with
        | nil =>
          have hk : k ≤ fuel := by
            rw [List.length_nil] at hfuel
            omega
          obtain ⟨c', h, hr, hcol⟩ := takeGap?_indentation (c := ⟨List.replicate k ' ' ++ rest,
            line, 0, index⟩) margin hrest rfl hk
          exact ⟨c', h, hr, by simpa using hcol⟩
        | cons => exact ih true (fun d hd => hbreaks d (by simp [hd])) (by simp) rfl (by omega)
      obtain ⟨c', hgap, hc', hcol⟩ := hmore
      refine ⟨c', ?_, hc', hcol⟩
      unfold takeGap?
      rw [hc]
      simp [hspace, hd, hbreak, hgap]

end Cursor

end SessionGuard.Yaml
