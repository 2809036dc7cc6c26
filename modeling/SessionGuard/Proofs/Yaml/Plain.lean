import SessionGuard.Proofs.Yaml.Gaps

/-!
# Plain texts are read again

A plain text has no quotes that would show its end: it ends before a colon and a blank, before a
blank and a number sign, or where a line is not indented.  A text without these is read as a whole
(`takePlain?_plain`).
-/

namespace SessionGuard.Yaml

/-- A text that its plain form keeps: it is shown on one line without blanks at its ends, and nothing
in it ends a plain scalar. -/
structure IsPlain (cs : List Char) : Prop where
  isShown : ∀ d ∈ cs, isShown d = true
  isBreak : ∀ d ∈ cs, isBreak d = false
  head : cs.head? ≠ some ' '
  last : cs.getLast? ≠ some ' '
  hasIndicator : hasIndicator true cs = false

theorem gapFirst_append {cs ds : List Char} (h : gapFirst cs = false) :
    gapFirst (cs ++ ds) = false := by
  cases cs with
  | nil => cases h
  | cons d cs => exact h

theorem noGapFirst_append {cs ds : List Char} (h : NoGapFirst cs) (hne : cs ≠ []) :
    NoGapFirst (cs ++ ds) := by
  cases cs with
  | nil => exact absurd rfl hne
  | cons d cs => exact h

theorem hasIndicator_append {afterGap : Bool} {cs ds : List Char} {d : Char}
    (h : hasIndicator afterGap (cs ++ ds) = false) (hlast : cs.getLast? = some d) :
    hasIndicator (isGap d) ds = false := by
  induction cs generalizing afterGap with
  | nil => cases hlast
  | cons e cs ih =>
    simp only [List.cons_append, hasIndicator, Bool.or_eq_false_iff] at h
    cases cs with
    | nil =>
      obtain rfl : e = d := by simpa using hlast
      exact h.2
    | cons e' cs => exact ih h.2 (by simpa using hlast)

theorem IsPlain.ne_number {cs : List Char} (h : IsPlain cs) : cs.head? ≠ some '#' := by
  cases cs with
  | nil => simp
  | cons d cs =>
    have := h.hasIndicator
    rintro hd
    simp only [List.head?_cons, Option.some.injEq] at hd
    simp [Yaml.hasIndicator, hd] at this

theorem IsPlain.noGapFirst {cs : List Char} (h : IsPlain cs) : NoGapFirst cs := by
  intro d hd
  have hmem : d ∈ cs := List.mem_of_mem_head? hd
  have hspace : isSpace d = false := by
    rw [Bool.eq_false_iff]
    intro hs
    rw [eq_space_of_isShown (h.isShown d hmem) hs] at hd
    exact h.head hd
  simp [isGap, hspace, h.isBreak d hmem]

/-- What follows a gap of a plain text is one again, and it is not empty. -/
theorem IsPlain.behind {word blanks more : List Char} (h : IsPlain (word ++ (blanks ++ more)))
    (hblanks : ∀ d ∈ blanks, d = ' ') (hne : blanks ≠ []) (hmore : more.head? ≠ some ' ') :
    IsPlain more ∧ more ≠ [] := by
  have hlast : (word ++ blanks).getLast? = some ' ' := by
    rw [List.getLast?_append, List.getLast?_eq_some_getLast hne, hblanks _ (List.getLast_mem hne)]
    rfl
  have hmore_ne : more ≠ [] := by
    rintro rfl
    have := h.last
    simp only [List.append_nil] at this
    exact this hlast
  refine ⟨⟨fun d hd => h.isShown d (by simp [hd]), fun d hd => h.isBreak d (by simp [hd]), hmore, ?_,
    ?_⟩, hmore_ne⟩
  · have := h.last
    rwa [← List.append_assoc, List.getLast?_append, List.getLast?_eq_some_getLast hmore_ne,
      Option.some_or, ← List.getLast?_eq_some_getLast hmore_ne] at this
  · have := h.hasIndicator
    rw [← List.append_assoc] at this
    exact hasIndicator_append this hlast

namespace Cursor

variable {n : Nat} {c : Cursor} {rest : List Char}

theorem blankAt_one {d : Char} (hc : c.rest = d :: rest) : c.blankAt 1 = gapFirst rest := by
  unfold blankAt
  rw [hc]
  cases rest <;> rfl

/-- A word of a plain text is read up to the gap behind it. -/
theorem takePlainWord?_word {fuel : Nat} {afterGap : Bool} {word : List Char} (gap : List Char)
    (hword : ∀ d ∈ word, isGap d = false) (hind : hasIndicator afterGap (word ++ gap) = false)
    (hgap : gapFirst (gap ++ rest) = true) (hc : c.Inside n (word ++ (gap ++ rest)))
    (hfuel : word.length ≤ fuel) :
    ∃ c', takePlainWord? false fuel c = some (word, c') ∧ c'.Inside n (gap ++ rest) := by
  induction word generalizing c fuel afterGap with
  | nil =>
    refine ⟨c, ?_, hc⟩
    cases fuel with
    | zero => rfl
    | succ fuel =>
      unfold takePlainWord?
      have hr : c.rest = gap ++ rest := hc.rest_eq
      cases hg : gap ++ rest with
      | nil => simp [hr, hg]
      | cons d ds =>
        rw [hg] at hgap
        rw [hr, hg]
        rcases isGap_iff.1 hgap with h | h <;> simp [h]
  | cons d word ih =>
    cases fuel with
    | zero => simp at hfuel
    | succ fuel =>
      simp only [List.cons_append, hasIndicator, Bool.or_eq_false_iff] at hind
      obtain ⟨c', hmore, hc'⟩ := ih (fun e he => hword e (by simp [he])) hind.2 hc.skip
        (by simpa using hfuel)
      have hd : isSpace d = false ∧ isBreak d = false := by
        simpa [isGap] using hword d (by simp)
      have hcolon : (decide (d = ':') && c.blankAt 1) = false := by
        have hblank : c.blankAt 1 = gapFirst (word ++ (gap ++ rest)) := blankAt_one hc.rest_eq
        rw [hblank, ← List.append_assoc]
        rcases Bool.and_eq_false_iff.1 hind.1.1 with h | h
        · rw [h, Bool.false_and]
        · rw [gapFirst_append h, Bool.and_false]
      refine ⟨c', ?_, hc'⟩
      unfold takePlainWord?
      rw [hc.rest_eq]
      simp [hd, hcolon, hmore]

/-- A plain text is read up to the next line, which is not indented. -/
theorem takePlain?_plain {fuel k : Nat} {cs : List Char} (hn : 0 < n) (hcs : IsPlain cs)
    (hrest : NoGapFirst rest) (hk : k < n)
    (hc : c.Inside n (cs ++ '\n' :: (List.replicate k ' ' ++ rest))) (hfuel : cs.length < fuel) :
    ∃ c', takePlain? false n fuel c = some (cs, c', true) ∧ c'.rest = rest ∧ c'.column = k := by
  induction fuel generalizing c cs with
  | zero => simp at hfuel
  | succ fuel ih =>
    have hnumber : c.rest.head? ≠ some '#' := by
      rw [hc.rest_eq]
      cases cs with
      | nil => simp
      | cons d cs => exact hcs.ne_number
    obtain ⟨word, blanks, more, rfl, hword, hblanks, hmore, hlast⟩ := exists_word isGap cs
    have hblanks' : ∀ d ∈ blanks, d = ' ' := by
      intro d hd
      have hmem : d ∈ word ++ (blanks ++ more) := by simp [hd]
      exact eq_space_of_isShown (hcs.isShown d hmem)
        ((isGap_iff.1 (hblanks d hd)).resolve_right (by simp [hcs.isBreak d hmem]))
    have hwordfuel : word.length ≤ c.rest.length + 1 := by
      rw [hc.rest_eq]
      simp only [List.length_append]
      omega
    simp only [List.append_assoc] at hc
    unfold takePlain?
    rw [hc.atAnyMarker hn]
    cases blanks with
    | nil =>
      obtain rfl := hlast rfl
      have hind : Yaml.hasIndicator true (word ++ []) = false := hcs.hasIndicator
      obtain ⟨c₁, hread, hc₁⟩ := takePlainWord?_word [] hword hind rfl hc hwordfuel
      have hgapfuel : ['\n'].length + k ≤ c₁.rest.length + 1 := by
        rw [hc₁.rest_eq]
        simp only [List.nil_append, List.length_cons, List.length_append, List.length_replicate,
          List.length_nil]
        omega
      obtain ⟨c₂, htake, hr, hcolumn⟩ := takeGap?_breaks n false
        (List.forall_mem_singleton.2 ⟨rfl, rfl⟩) (List.cons_ne_nil _ _) hrest hc₁.rest_eq hgapfuel
      refine ⟨c₂, ?_, hr, hcolumn⟩
      have hbreak : (c₁.rest.head?.map fun d => isSpace d || isBreak d).getD false = true := by
        rw [hc₁.rest_eq]
        rfl
      simp [hnumber, hread, hbreak, htake, hcolumn, hk]
    | cons d blanks =>
      have hhead : more.head? ≠ some ' ' := fun h => absurd (hmore ' ' h) (by decide)
      obtain ⟨hplain, hne⟩ := hcs.behind hblanks' (by simp) hhead
      rw [← List.append_assoc (d :: blanks)] at hc
      obtain ⟨c₁, hread, hc₁⟩ := takePlainWord?_word (d :: blanks ++ more) hword hcs.hasIndicator
        (hblanks d (by simp)) hc hwordfuel
      rw [List.append_assoc] at hc₁
      have hgapfuel : (d :: blanks).length ≤ c₁.rest.length + 1 := by
        rw [hc₁.rest_eq, List.length_append]
        omega
      obtain ⟨c₂, htake, hc₂⟩ :=
        takeGap?_blanks n hblanks' (noGapFirst_append hmore hne) hc₁ hgapfuel
      simp only [List.length_append, List.length_cons] at hfuel
      obtain ⟨c', htext, hr, hcolumn⟩ := ih hplain hc₂ (by omega)
      refine ⟨c', ?_, hr, hcolumn⟩
      have hbreak : (c₁.rest.head?.map fun d => isSpace d || isBreak d).getD false = true := by
        rw [hc₁.rest_eq]
        exact hblanks d (by simp)
      have hmargin : ¬ c₂.column < n := Nat.not_lt.2 hc₂.le_column
      simp [hnumber, hread, hbreak, htake, hmargin, htext, hne, Gap.text]

end Cursor

end SessionGuard.Yaml
