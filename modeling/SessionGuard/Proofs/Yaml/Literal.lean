import SessionGuard.Proofs.Yaml.Lines
import SessionGuard.Text.Trim

/-!
# Blocks are read again

A text that is written as a block keeps its lines, each indented alike.  Its signs tell where the
indentation cannot be seen from its first line, and what happens to the line breaks at its end
(`takeBlock?_literal`).
-/

namespace SessionGuard.Yaml

namespace Cursor

variable {c : Cursor} {n k : Nat} {rest : List Char}

/-! ## Lines -/

/-- No empty line is in front, and no tab that would be taken for indentation. -/
def NoLineFirst (rest : List Char) : Prop := ∀ d ∈ rest.head?, isBreak d = false ∧ d ≠ '\t'

theorem noLineFirst_of_noGapFirst (h : NoGapFirst rest) : NoLineFirst rest := by
  intro d hd
  have hg := h d hd
  refine ⟨(Bool.or_eq_false_iff.1 hg).2, ?_⟩
  rintro rfl
  exact absurd hg (by decide)

theorem head?_ne_space (h : NoGapFirst rest) : rest.head? ≠ some ' ' :=
  fun hs => absurd (h ' ' hs) (by decide)

theorem takeIndent_blanks (column : Option Nat) {fuel : Nat}
    (hcolumn : ∀ m ∈ column, c.column + k ≤ m)
    (hstop : rest.head? ≠ some ' ' ∨ column = some (c.column + k))
    (hc : c.rest = List.replicate k ' ' ++ rest) (hfuel : k ≤ fuel) :
    (takeIndent column fuel c).rest = rest ∧ (takeIndent column fuel c).column = c.column + k := by
  induction k generalizing c fuel with
  | zero =>
    have hr : c.rest = rest := hc
    cases fuel with
    | zero => exact ⟨hr, rfl⟩
    | succ fuel =>
      unfold takeIndent
      rw [if_neg]
      · exact ⟨hr, rfl⟩
      · rw [hr]
        rcases hstop with h | h <;> simp [h]
  | succ k ih =>
    cases fuel with
    | zero => simp at hfuel
    | succ fuel =>
      have hskip : c.skip.column = c.column + 1 := rfl
      have hr : c.skip.rest = List.replicate k ' ' ++ rest := by
        simp [Cursor.skip, hc, List.replicate_succ]
      have hgo : (c.rest.head? == some ' ' &&
          (column.map fun n => decide (c.column < n)).getD true) = true := by
        rw [hc]
        cases column with
        | none => rfl
        | some m =>
          have hm : c.column < m := by
            have := hcolumn m rfl
            omega
          simpa [List.replicate_succ] using hm
      have hsum : c.skip.column + k = c.column + (k + 1) := by omega
      obtain ⟨ihr, ihc⟩ := ih (hsum ▸ hcolumn) (hsum ▸ hstop) hr (Nat.le_of_succ_le_succ hfuel)
      unfold takeIndent
      rw [if_pos hgo]
      exact ⟨ihr, ihc.trans hsum⟩

/-- Empty lines are taken with the indentation behind them. -/
theorem takeEmptyLines?_breaks {fuel : Nat} (widest : Nat) {breaks : List Char}
    (hbreaks : ∀ d ∈ breaks, isShown d = true ∧ isBreak d = true) (hk : k ≤ n)
    (hrest : NoLineFirst rest) (hstop : rest.head? ≠ some ' ' ∨ k = n) (hcolumn : c.column = 0)
    (hc : c.rest = breaks ++ (List.replicate k ' ' ++ rest)) (hfuel : breaks.length < fuel) :
    ∃ w c', takeEmptyLines? (some n) fuel widest c = some (breaks, w, c') ∧ c'.rest = rest ∧
      c'.column = k := by
  induction breaks generalizing c fuel widest with
  | nil =>
    obtain ⟨fuel, rfl⟩ := Nat.exists_eq_add_one_of_ne_zero (Nat.ne_of_gt hfuel)
    have hroom : k ≤ c.rest.length + 1 := by
      simp only [hc, List.length_append, List.length_replicate]
      omega
    obtain ⟨hr, hcol⟩ := takeIndent_blanks (some n) (by simpa [hcolumn] using hk)
      (by simpa [hcolumn, eq_comm] using hstop) hc hroom
    rw [hcolumn, Nat.zero_add] at hcol
    refine ⟨max widest (takeIndent (some n) (c.rest.length + 1) c).column, _, ?_, hr, hcol⟩
    unfold takeEmptyLines?
    simp only [hr]
    cases rest with
    | nil => rfl
    | cons d rest =>
      obtain ⟨hd, ht⟩ := hrest d (by simp)
      simp [hd, ht]
  | cons d breaks ih =>
    obtain ⟨fuel, rfl⟩ := Nat.exists_eq_add_one_of_ne_zero (Nat.ne_of_gt (Nat.zero_lt_of_lt hfuel))
    obtain ⟨hs, hd⟩ := hbreaks d (by simp)
    have hspace : d ≠ ' ' ∧ d ≠ '\t' := by
      rcases eq_of_isShown_of_isBreak hs hd with rfl | rfl | rfl <;> decide
    obtain ⟨hr, hcol⟩ := takeIndent_blanks (k := 0) (some n) (by simp [hcolumn])
      (by simp [hspace.1]) hc (Nat.zero_le (c.rest.length + 1))
    obtain ⟨line, index, hbreak⟩ := takeBreak_of_isShown hs hd hr
    obtain ⟨w, c', hmore, hr', hcol'⟩ := ih
      (max widest (takeIndent (some n) (c.rest.length + 1) c).column)
      (c := ⟨breaks ++ (List.replicate k ' ' ++ rest), line, 0, index⟩)
      (fun d hd => hbreaks d (by simp [hd])) rfl rfl (Nat.lt_of_succ_lt_succ hfuel)
    refine ⟨w, c', ?_, hr', hcol'⟩
    unfold takeEmptyLines?
    simp only [hr]
    simp [hspace.2, hd, hbreak, hmore]

theorem takeRun_line {word : List Char} {d : Char} (hword : ∀ d ∈ word, isBreak d = false)
    (hd : isBreak d = true) (hc : c.rest = word ++ d :: rest) :
    (c.takeRun fun _ => true).1 = word ∧ (c.takeRun fun _ => true).2.rest = d :: rest := by
  have hp : ∀ e ∈ word, (true && !isBreak e) = true := fun e he => by simp [hword e he]
  unfold takeRun
  rw [hc, List.takeWhile_append_of_pos hp, List.takeWhile_cons_of_neg (by simp [hd]),
    List.append_nil, List.dropWhile_append_of_pos hp, List.dropWhile_cons_of_neg (by simp [hd])]
  exact ⟨rfl, rfl⟩

/-- A block has come to its end where a line is not indented as its lines are. -/
theorem takeBlockLines?_end {fuel : Nat} {pending empty : List Char} {blank : Bool}
    (hcolumn : c.column ≠ n) (hfuel : 0 < fuel) :
    takeBlockLines? true n fuel pending empty blank c = some ([], pending, empty, c) := by
  obtain ⟨fuel, rfl⟩ := Nat.exists_eq_add_one_of_ne_zero (Nat.ne_of_gt hfuel)
  unfold takeBlockLines?
  cases c.rest <;> simp [hcolumn]

/-- A line of a block is taken with the empty lines behind it, and the next line with its
indentation. -/
theorem takeBlockLines?_line (fuel : Nat) (pending empty : List Char) (blank : Bool)
    {line empties : List Char} {d : Char} (hk : k ≤ n) (hline : ∀ d ∈ line, isBreak d = false)
    (hne : line ≠ [])
    (hbreaks : ∀ e ∈ d :: empties, isShown e = true ∧ isBreak e = true) (hrest : NoLineFirst rest)
    (hstop : rest.head? ≠ some ' ' ∨ k = n) (hcolumn : c.column = n)
    (hc : c.rest = line ++ d :: (empties ++ (List.replicate k ' ' ++ rest))) :
    ∃ c' blank', c'.rest = rest ∧ c'.column = k ∧
      takeBlockLines? true n (fuel + 1) pending empty blank c =
        (takeBlockLines? true n fuel [d] empties blank' c').map fun (more, pending', empty', c) =>
          (pending ++ empty ++ line ++ more, pending', empty', c) := by
  obtain ⟨hs, hd⟩ := hbreaks d (by simp)
  obtain ⟨hrun, hr⟩ := takeRun_line hline hd hc
  obtain ⟨lineAt, index, hbreak⟩ := takeBreak_of_isShown hs hd hr
  have hroom : empties.length < (empties ++ (List.replicate k ' ' ++ rest)).length + 1 := by
    rw [List.length_append]
    omega
  obtain ⟨w, c', hempty, hr', hcol'⟩ := takeEmptyLines?_breaks 0
    (c := ⟨empties ++ (List.replicate k ' ' ++ rest), lineAt, 0, index⟩)
    (fun e he => hbreaks e (by simp [he])) hk hrest hstop rfl rfl hroom
  obtain ⟨e, line', rfl⟩ := List.exists_cons_of_ne_nil hne
  refine ⟨c', isSpace e, hr', hcol', ?_⟩
  conv => lhs; unfold takeBlockLines?
  rw [hc]
  simp only [List.cons_append, hcolumn, ne_eq, not_true_eq_false, if_false, Bool.not_true,
    Bool.false_and, Bool.false_eq_true, hrun, hbreak, hempty, Option.bind_eq_bind, Option.bind_some]
  cases takeBlockLines? true n fuel [d] empties (isSpace e) c' <;> rfl

/-- The lines of a text, from the first one that is not empty to the last one. -/
structure IsBody (cs : List Char) : Prop where
  ne_nil : cs ≠ []
  isShown : ∀ d ∈ cs, isShown d = true
  head : ∀ d ∈ cs.head?, isBreak d = false
  last : ∀ d ∈ cs.getLast?, isBreak d = false

/-- What follows the empty lines behind a line of a text is again its lines. -/
theorem IsBody.behind {line breaks more : List Char} (h : IsBody (line ++ (breaks ++ more)))
    (hbreaks : ∀ d ∈ breaks, isBreak d = true) (hne : breaks ≠ [])
    (hmore : ∀ d ∈ more.head?, isBreak d = false) : IsBody more := by
  have hlast := h.last
  rw [← List.append_assoc, List.getLast?_append] at hlast
  cases more with
  | nil =>
    have := hbreaks _ (List.getLast_mem hne)
    rw [List.getLast?_append, List.getLast?_eq_some_getLast hne] at hlast
    simp [this] at hlast
  | cons d more =>
    refine ⟨by simp, fun e he => h.isShown e (by simp_all), hmore, ?_⟩
    rw [List.getLast?_eq_some_getLast (List.cons_ne_nil d more)] at hlast ⊢
    exact hlast

theorem laid_append_breaks {cs breaks : List Char} {put : Char → List Char} {broken : Bool}
    (hbreaks : ∀ d ∈ breaks, isBreak d = true) :
    laid n put [] broken (cs ++ breaks) = laid n put [] broken cs ++ breaks := by
  induction cs generalizing broken with
  | nil =>
    induction breaks generalizing broken with
    | nil => simp [laid]
    | cons d breaks ih =>
      have := @ih (fun d hd => hbreaks d (by simp [hd])) true
      simp_all [laid]
  | cons d cs ih =>
    by_cases hd : isBreak d = true <;> simp [laid, hd, ih]

/-- The lines of a block are read again, and the empty lines behind them. -/
theorem takeBlockLines?_laid {fuel : Nat} (pending empty : List Char) (blank : Bool)
    {body breaks : List Char} {b : Char} (hk : k < n) (hbody : IsBody body)
    (hbreaks : ∀ d ∈ b :: breaks, isShown d = true ∧ isBreak d = true) (hrest : NoGapFirst rest)
    (hcolumn : c.column = n)
    (hc : c.rest = laid n (fun d => [d]) [] false body ++
      (b :: breaks ++ (List.replicate k ' ' ++ rest)))
    (hfuel : body.length + 1 < fuel) :
    ∃ c', takeBlockLines? true n fuel pending empty blank c =
        some (pending ++ empty ++ body, [b], breaks, c') ∧ c'.rest = rest ∧ c'.column = k := by
  induction fuel generalizing pending empty blank c body with
  | zero => simp at hfuel
  | succ fuel ih =>
    obtain ⟨line, breaks', more, rfl, hline, hbreaks', hmore, hlast⟩ := exists_word isBreak body
    rw [laid_word hline] at hc
    simp only [List.flatMap_singleton', List.append_assoc] at hc
    have hne : line ≠ [] := by
      rintro rfl
      cases breaks' with
      | nil => exact hbody.ne_nil (by simp [hlast rfl])
      | cons b' breaks' =>
        have := hbody.head b' (by simp)
        simp [hbreaks' b' (by simp)] at this
    cases breaks' with
    | nil =>
      obtain rfl := hlast rfl
      obtain ⟨c', blank', hr, hcol, hread⟩ := takeBlockLines?_line fuel pending empty blank
        (Nat.le_of_lt hk) hline hne hbreaks (noLineFirst_of_noGapFirst hrest)
        (.inl (head?_ne_space hrest)) hcolumn (by simpa [laid] using hc)
      refine ⟨c', ?_, hr, hcol⟩
      rw [hread, takeBlockLines?_end (by omega) (by omega)]
      simp
    | cons b' breaks' =>
      have hbehind := hbody.behind hbreaks' (by simp) hmore
      obtain ⟨d, more, rfl⟩ := List.exists_cons_of_ne_nil hbehind.ne_nil
      have hd : isBreak d = false := hmore d (by simp)
      have htab : d ≠ '\t' := by
        rintro rfl
        exact absurd (hbehind.isShown '\t' (by simp)) (by decide)
      have hshown : ∀ e ∈ b' :: breaks', isShown e = true ∧ isBreak e = true := fun e he =>
        ⟨hbody.isShown e (List.mem_append_right _ (List.mem_append_left _ he)), hbreaks' e he⟩
      have hnext : NoLineFirst (laid n (fun d => [d]) [] false (d :: more) ++
          (b :: breaks ++ (List.replicate k ' ' ++ rest))) := by
        simp [NoLineFirst, laid, hd, htab]
      have hroom : (d :: more).length + 1 < fuel := by
        simp only [List.length_append, List.length_cons] at hfuel ⊢
        omega
      rw [laid_breaks hbreaks' (.inl (by simp)), laid_indented hd] at hc
      obtain ⟨c₁, blank', hr, hcol, hread⟩ := takeBlockLines?_line fuel pending empty blank
        (Nat.le_refl n) hline hne hshown hnext (.inr rfl) hcolumn (by simpa using hc)
      obtain ⟨c', hmore', hr', hcol'⟩ := ih [b'] breaks' blank' hbehind hcol hr hroom
      refine ⟨c', ?_, hr', hcol'⟩
      rw [hread, hmore']
      simp

/-! ## Signs -/

/-- The sign of what happens to the line breaks at the end. -/
def Chomping.sign : Chomping → List Char
  | .strip => ['-']
  | .clip => []
  | .keep => ['+']

/-- What is to happen to the line breaks at the end of a text: they are added where there are none,
and a block with nothing else would lose them. -/
def chompingOf (front breaks : List Char) : Chomping :=
  match front, breaks with
  | _, [] => .strip
  | _ :: _, [_] => .clip
  | _, _ => .keep

/-- The sign of the indentation, where the first line does not show it. -/
def indentationOf (cs : List Char) : Option Nat :=
  match cs with
  | d :: _ => if d = ' ' || isBreak d then some 2 else none
  | [] => none

theorem literalSigns_eq {front breaks : List Char} (hne : front ++ breaks ≠ [])
    (hbreaks : ∀ d ∈ breaks, isBreak d = true) (hfront : ∀ d ∈ front.getLast?, isBreak d = false) :
    Page.literalSigns (front ++ breaks) =
      ((indentationOf (front ++ breaks)).map fun _ => '2').toList ++
        (chompingOf front breaks).sign := by
  dsimp only [Page.literalSigns]
  congr 1
  · unfold indentationOf
    cases front ++ breaks with
    | nil => rfl
    | cons d ds => cases h : (decide (d = ' ') || isBreak d) <;> simp [h]
  · rw [List.reverse_append]
    rcases breaks with - | ⟨b, - | ⟨b', breaks⟩⟩
    · -- the last character is no line break
      have hfne : front ≠ [] := by simpa using hne
      rw [List.getLast?_eq_head?_reverse] at hfront
      obtain ⟨d, ds, hds⟩ := List.exists_cons_of_ne_nil (List.reverse_ne_nil_iff.2 hfne)
      have hd : isBreak d = false := hfront d (by simp [hds])
      rw [hds]
      cases ds <;> simp [chompingOf, Chomping.sign, hd]
    · have hb := hbreaks b (by simp)
      rw [List.getLast?_eq_head?_reverse] at hfront
      cases hds : front.reverse with
      | nil => simp [chompingOf, Chomping.sign, hb, List.reverse_eq_nil_iff.1 hds]
      | cons d ds =>
        have hd : isBreak d = false := hfront d (by simp [hds])
        obtain ⟨e, es, rfl⟩ := List.exists_cons_of_ne_nil (l := front) (by rintro rfl; cases hds)
        simp [chompingOf, Chomping.sign, hb, hd]
    · have hall : ∀ d ∈ (b :: b' :: breaks).reverse, isBreak d = true :=
        fun d hd => hbreaks d (List.mem_reverse.1 hd)
      have hlength : (b :: b' :: breaks).reverse.length = breaks.length + 2 := by simp
      obtain ⟨x, y, zs, hr⟩ : ∃ x y zs, (b :: b' :: breaks).reverse = x :: y :: zs := by
        match h : (b :: b' :: breaks).reverse with
        | [] | [_] => simp [h] at hlength
        | x :: y :: zs => exact ⟨x, y, zs, rfl⟩
      rw [hr] at hall ⊢
      have hx := hall x (by simp)
      have hy := hall y (by simp)
      cases front <;> simp [chompingOf, Chomping.sign, hx, hy]

theorem takeBlockSigns?_signs {chomping : Chomping} {indentation : Option Nat}
    (h : indentation = none ∨ indentation = some 2)
    (hc : c.rest = (indentation.map fun _ => '2').toList ++ (chomping.sign ++ '\n' :: rest)) :
    ∃ c', takeBlockSigns? c = some (chomping, indentation, c') ∧ c'.rest = '\n' :: rest := by
  rcases h with rfl | rfl <;> cases chomping <;>
    simp [Chomping.sign] at hc <;>
    simp [takeBlockSigns?, takeChomping?, takeIndentation?, hc, Cursor.skip]

/-! ## Blocks -/

/-- What is left of the line breaks at the end. -/
def Chomping.kept (pending empty : List Char) : Chomping → List Char
  | .strip => []
  | .clip => pending
  | .keep => pending ++ empty

/-- Behind its signs, a block starts on the next line. -/
theorem takeBlock?_signs {indent : Nat} {chomping : Chomping} {indentation : Option Nat}
    (h : indentation = none ∨ indentation = some 2)
    (hc : c.rest = (indentation.map fun _ => '2').toList ++ (chomping.sign ++ '\n' :: rest)) :
    ∃ c', c'.rest = rest ∧ c'.column = 0 ∧
      let given := indentation.map fun n => indent + n
      takeBlock? true indent c =
        (takeEmptyLines? given (rest.length + 1) 0 c').bind fun (empty, widest, c) =>
          (takeBlockLines? true (given.getD (max (max widest (indent + 1)) 1)) (c.rest.length + 1) []
              empty false c).map fun (text, pending, empty, c) =>
            (text ++ chomping.kept pending empty, c) := by
  obtain ⟨c₁, hsigns, hr⟩ := takeBlockSigns?_signs h hc
  have hrun : c₁.takeRun isSpace = ([], c₁) := by
    obtain ⟨rest₁, line, column, index⟩ := c₁
    obtain rfl : rest₁ = '\n' :: rest := hr
    rfl
  have hcomment : skipComment? c₁ = some c₁ := by
    unfold skipComment? skipSpaces
    rw [hrun]
    simp [hr, isBreak]
  obtain ⟨line, index, hbreak⟩ := takeBreak_of_isShown (d := '\n') rfl rfl hr
  refine ⟨⟨rest, line, 0, index⟩, rfl, rfl, ?_⟩
  unfold takeBlock?
  have hindent : ((indent : Int) + 1).toNat = indent + 1 := by omega
  simp only [hsigns, hcomment, hbreak, Option.bind_eq_bind, Option.bind_some, Int.toNat_natCast,
    Int.natCast_nonneg, if_true, hindent]
  refine Option.bind_congr fun x _ => ?_
  generalize takeBlockLines? true _ _ [] _ false _ = lines
  cases lines <;> cases chomping <;> rfl

theorem indentationOf_eq (cs : List Char) :
    indentationOf cs = none ∨ indentationOf cs = some 2 := by
  unfold indentationOf
  cases cs with
  | nil => exact .inl rfl
  | cons d ds => cases h : (decide (d = ' ') || isBreak d) <;> simp [h]

/-- The empty lines before a text are taken with the indentation of its first line, which shows it
where no sign tells it. -/
theorem takeEmptyLines?_leading {indent : Nat} {leading : List Char} (more : List Char) {d : Char}
    (hleading : ∀ e ∈ leading, isShown e = true ∧ isBreak e = true) (hs : isShown d = true)
    (hd : isBreak d = false) (hcolumn : c.column = 0)
    (hc : c.rest = leading ++ (List.replicate (indent + 2) ' ' ++ d :: rest)) :
    let given := (indentationOf (leading ++ d :: more)).map fun n => indent + n
    ∃ widest c', takeEmptyLines? given (c.rest.length + 1) 0 c = some (leading, widest, c') ∧
      c'.rest = d :: rest ∧ c'.column = indent + 2 ∧
      given.getD (max (max widest (indent + 1)) 1) = indent + 2 := by
  intro given
  have htab : d ≠ '\t' := by
    rintro rfl
    exact absurd hs (by decide)
  have hroom : leading.length + (indent + 2) < c.rest.length + 1 := by
    simp only [hc, List.length_append, List.length_replicate, List.length_cons]
    omega
  rcases indentationOf_eq (leading ++ d :: more) with hg | hg
  · -- then the text starts with a word, which is indented alike
    obtain ⟨rfl, hspace⟩ : leading = [] ∧ d ≠ ' ' := by
      cases leading with
      | nil => simpa [indentationOf, hd] using hg
      | cons e leading =>
        have he := (hleading e (by simp)).2
        simp [indentationOf, he] at hg
    have hgiven : given = none := by simp only [given, hg, Option.map_none]
    rw [hgiven]
    obtain ⟨hr, hcol⟩ := takeIndent_blanks none (by simp) (by simpa using hspace) hc
      (Nat.le_of_lt (Nat.zero_add (indent + 2) ▸ hroom))
    rw [hcolumn, Nat.zero_add] at hcol
    refine ⟨indent + 2, takeIndent none (c.rest.length + 1) c, ?_, hr, hcol, by simp⟩
    unfold takeEmptyLines?
    simp [hr, hcol, hd, htab]
  · have hgiven : given = some (indent + 2) := by simp only [given, hg, Option.map_some]
    rw [hgiven]
    obtain ⟨widest, c', htake, hr, hcol⟩ := takeEmptyLines?_breaks 0 hleading
      (Nat.le_refl (indent + 2)) (by simp [NoLineFirst, hd, htab]) (.inr rfl) hcolumn hc
      (Nat.lt_of_le_of_lt (Nat.le_add_right ..) hroom)
    exact ⟨widest, c', htake, hr, hcol, rfl⟩

/-- The break that ends the last line of a text, where the text does not end with one. -/
def lastBreak (cs : List Char) : List Char :=
  if (cs.getLast?.map isBreak).getD false then [] else ['\n']

theorem lastBreak_of_breaks {front breaks : List Char} (hbreaks : ∀ d ∈ breaks, isBreak d = true)
    (hne : breaks ≠ []) : lastBreak (front ++ breaks) = [] := by
  have := hbreaks _ (List.getLast_mem hne)
  simp [lastBreak, List.getLast?_append, List.getLast?_eq_some_getLast hne, this]

/-- A text that does not end with a line break has a first line that is not empty. -/
theorem exists_body {front : List Char} (hne : front ≠ []) (hs : ∀ d ∈ front, isShown d = true)
    (hlast : ∀ d ∈ front.getLast?, isBreak d = false) :
    ∃ leading body, front = leading ++ body ∧ (∀ d ∈ leading, isBreak d = true) ∧ IsBody body := by
  obtain ⟨leading, line, more, rfl, hleading, hline, -, hmore⟩ :=
    exists_word (fun d => !isBreak d) front
  simp only [Bool.not_eq_eq_eq_not, Bool.not_false, Bool.not_true] at hleading hline
  have hbody : line ≠ [] := by
    rintro rfl
    obtain rfl := hmore rfl
    simp only [List.append_nil] at hne hlast
    have := hleading _ (List.getLast_mem hne)
    simp [List.getLast?_eq_some_getLast hne, this] at hlast
  refine ⟨leading, line ++ more, rfl, hleading, by simp [hbody], fun d hd => hs d (by simp_all), ?_,
    ?_⟩
  · obtain ⟨e, line, rfl⟩ := List.exists_cons_of_ne_nil hbody
    simpa using hline e (by simp)
  · have hne' : line ++ more ≠ [] := by simp [hbody]
    rwa [List.getLast?_append, List.getLast?_eq_some_getLast hne', Option.some_or,
      ← List.getLast?_eq_some_getLast hne'] at hlast

/-- The line breaks behind the last line are kept as the sign says. -/
theorem exists_lastBreaks {d : Char} {front breaks : List Char}
    (hs : ∀ e ∈ breaks, isShown e = true) (hbreaks : ∀ e ∈ breaks, isBreak e = true)
    (hlast : ∀ e ∈ (d :: front).getLast?, isBreak e = false) :
    ∃ b more, breaks ++ lastBreak (d :: front ++ breaks) = b :: more ∧
      (∀ e ∈ b :: more, isShown e = true ∧ isBreak e = true) ∧
      (chompingOf (d :: front) breaks).kept [b] more = breaks := by
  cases breaks with
  | nil =>
    refine ⟨'\n', [], ?_, List.forall_mem_singleton.2 ⟨rfl, rfl⟩, rfl⟩
    rw [List.getLast?_eq_some_getLast (by simp)] at hlast
    have := hlast _ rfl
    simp [lastBreak, List.getLast?_eq_some_getLast, this]
  | cons b more =>
    refine ⟨b, more, by rw [lastBreak_of_breaks hbreaks (by simp)]; simp,
      fun e he => ⟨hs e he, hbreaks e he⟩, ?_⟩
    cases more <;> rfl

/-- A text that is written as a block is read again, with the indentation of what follows. -/
theorem takeBlock?_literal {indent : Nat} {cs : List Char} (hne : cs ≠ [])
    (hs : ∀ d ∈ cs, isShown d = true) (hrest : NoGapFirst rest) (hk : k ≤ indent)
    (hc : c.rest = Page.literalSigns cs ++ '\n' :: (laid (indent + 2) (fun d => [d]) [] true cs ++
      (lastBreak cs ++ (List.replicate k ' ' ++ rest)))) :
    ∃ c', takeBlock? true indent c = some (cs, c') ∧ c'.rest = rest ∧ c'.column = k := by
  obtain ⟨breaks, hcs, hbreaks⟩ := Text.dropTrailing_append isBreak cs
  have hlast (d : Char) (hd : d ∈ (Text.dropTrailing isBreak cs).getLast?) : isBreak d = false :=
    Text.dropTrailing_getLast hd
  generalize Text.dropTrailing isBreak cs = front at hcs hlast
  subst hcs
  rw [literalSigns_eq hne hbreaks hlast, laid_append_breaks hbreaks] at hc
  simp only [List.append_assoc] at hc
  obtain ⟨c₁, hr₁, hcol₁, hread⟩ := takeBlock?_signs (indentationOf_eq _) hc
  rw [hread, ← hr₁]
  have hsbreaks : ∀ d ∈ breaks, isShown d = true := fun d hd => hs d (by simp [hd])
  cases front with
  | nil =>
    -- there are only empty lines, and they are kept
    obtain ⟨b, breaks, rfl⟩ := List.exists_cons_of_ne_nil hne
    have hind : indentationOf (b :: breaks) = some 2 := by simp [indentationOf, hbreaks b (by simp)]
    rw [lastBreak_of_breaks hbreaks (by simp)] at hr₁
    simp only [List.nil_append, hind] at hr₁ ⊢
    have hroom : (b :: breaks).length < c₁.rest.length + 1 := by
      simp only [hr₁, List.length_append]
      omega
    obtain ⟨widest, c', htake, hr, hcol⟩ := takeEmptyLines?_breaks 0
      (fun d hd => ⟨hs d hd, hbreaks d hd⟩) (by omega : k ≤ indent + 2)
      (noLineFirst_of_noGapFirst hrest) (.inl (head?_ne_space hrest)) hcol₁ hr₁ hroom
    refine ⟨c', ?_, hr, hcol⟩
    have hlines : takeBlockLines? true (indent + 2) (c'.rest.length + 1) [] (b :: breaks) false c' =
        some ([], [], b :: breaks, c') :=
      takeBlockLines?_end (by omega) (Nat.succ_pos _)
    cases breaks <;> simp [htake, hlines, chompingOf, Chomping.kept]
  | cons d front =>
    obtain ⟨leading, body, hfront, hleading, hbody⟩ := exists_body (by simp)
      (fun e he => hs e (List.mem_append_left _ he)) hlast
    obtain ⟨b, more, hmore, hbm, hkept⟩ := exists_lastBreaks hsbreaks hbreaks hlast
    obtain ⟨e, body', hbody'⟩ := List.exists_cons_of_ne_nil hbody.ne_nil
    have he : isBreak e = false := hbody.head e (by simp [hbody'])
    have hline : laid (indent + 2) (fun d => [d]) [] false body =
        e :: laid (indent + 2) (fun d => [d]) [] false body' := by simp [hbody', laid, he]
    rw [← List.append_assoc breaks, hmore, hfront, laid_breaks hleading (.inr rfl), hbody',
      laid_indented he, ← hbody', hline] at hr₁
    simp only [List.append_assoc] at hr₁
    obtain ⟨widest, c₂, htake, hr₂, hcol₂, hgiven⟩ := takeEmptyLines?_leading (body' ++ breaks)
      (fun x hx => ⟨hs x (by simp [hfront, hx]), hleading x hx⟩) (hbody.isShown e (by simp [hbody']))
      he hcol₁ hr₁
    have hr₂' : c₂.rest = laid (indent + 2) (fun d => [d]) [] false body ++
        (b :: more ++ (List.replicate k ' ' ++ rest)) := by
      rw [hline]
      exact hr₂
    have hfuel : body.length + 1 < c₂.rest.length + 1 := by
      have : body.length ≤ (laid (indent + 2) (fun d => [d]) [] false body).length :=
        length_le_laid (by simp) false body
      rw [hr₂']
      simp only [List.length_append, List.length_cons]
      omega
    obtain ⟨c', hlines, hr, hcol⟩ :=
      takeBlockLines?_laid [] leading false (by omega) hbody hbm hrest hcol₂ hr₂' hfuel
    refine ⟨c', ?_, hr, hcol⟩
    have hcs : d :: front ++ breaks = leading ++ e :: (body' ++ breaks) := by simp [hfront, hbody']
    simp only [hcs, htake, Option.bind_some, hgiven, hlines, Option.map_some, hkept]
    simp [hbody']

end Cursor

end SessionGuard.Yaml
