import SessionGuard.Proofs.Yaml.Gaps

/-!
# Texts laid out in lines

In single quotes and as a block, a text keeps its line breaks, and each line after one is indented.
`laid` is what is written then, and the pages say so (`chars_singleInside`, `chars_literalInside`).
-/

namespace SessionGuard.Yaml

/-- A text with `n` blanks in front of each line after a line break, each character written as `put`
says.  If a line break is last, what closes the text stands on a line of its own. -/
def laid (n : Nat) (put : Char → List Char) (close : List Char) : Bool → List Char → List Char
  | broken, [] => if broken then close else []
  | broken, c :: rest =>
    if isBreak c then c :: laid n put close true rest
    else (if broken then List.replicate n ' ' else []) ++ (put c ++ laid n put close false rest)

section Laid

variable {n : Nat} {put : Char → List Char} {close word breaks rest : List Char}

theorem laid_word (hword : ∀ d ∈ word, isBreak d = false) :
    laid n put close false (word ++ rest) = word.flatMap put ++ laid n put close false rest := by
  induction word with
  | nil => rfl
  | cons d word ih =>
    rw [List.cons_append, laid, if_neg (by simp [hword d (by simp)]),
      ih fun d hd => hword d (by simp [hd])]
    simp

theorem laid_breaks {broken : Bool} (hbreaks : ∀ d ∈ breaks, isBreak d = true)
    (hne : breaks ≠ [] ∨ broken = true) :
    laid n put close broken (breaks ++ rest) = breaks ++ laid n put close true rest := by
  induction breaks generalizing broken with
  | nil =>
    obtain rfl := hne.resolve_left (by simp)
    rfl
  | cons d breaks ih =>
    rw [List.cons_append, laid, if_pos (hbreaks d (by simp)),
      ih (fun d hd => hbreaks d (by simp [hd])) (.inr rfl)]
    rfl

theorem laid_indented {d : Char} (hd : isBreak d = false) :
    laid n put close true (d :: rest) =
      List.replicate n ' ' ++ laid n put close false (d :: rest) := by
  simp [laid, hd]

theorem length_le_laid (hput : ∀ d, put d ≠ []) (broken : Bool) (cs : List Char) :
    cs.length ≤ (laid n put close broken cs).length := by
  induction cs generalizing broken with
  | nil => exact Nat.zero_le _
  | cons d cs ih =>
    unfold laid
    split
    · simpa using ih true
    · have := ih false
      have := List.length_pos_iff.2 (hput d)
      simp only [List.length_append, List.length_cons]
      omega

theorem isShown_of_mem_laid {cs : List Char} {broken : Bool} (hs : ∀ d ∈ cs, isShown d = true)
    (hput : ∀ d ∈ cs, ∀ e ∈ put d, isShown e = true) (hclose : ∀ e ∈ close, isShown e = true) :
    ∀ e ∈ laid n put close broken cs, isShown e = true := by
  have hblanks : ∀ e ∈ List.replicate n ' ', isShown e = true := by
    intro e he
    rw [List.eq_of_mem_replicate he]
    rfl
  induction cs generalizing broken with
  | nil =>
    unfold laid
    split
    · exact hclose
    · simp
  | cons d cs ih =>
    have ih (b : Bool) := @ih b (fun e he => hs e (by simp [he]))
      (fun e he => hput e (by simp [he]))
    unfold laid
    split
    · simp only [List.forall_mem_cons]
      exact ⟨hs d (by simp), ih true⟩
    · simp only [List.forall_mem_append]
      refine ⟨?_, hput d (by simp), ih false⟩
      split
      · exact hblanks
      · simp

end Laid

namespace Page

/-- The characters on a page. -/
def chars (p : Page) : List Char := p.written.reverse

theorem chars_put (c : Char) (p : Page) : (p.put c).chars = p.chars ++ [c] := by
  simp [chars, put]

theorem chars_putBreak (c : Char) (p : Page) : (p.putBreak c).chars = p.chars ++ [c] := by
  simp [chars, putBreak]

theorem puts_eq (cs : List Char) (p : Page) :
    p.puts cs = { p with written := cs.reverse ++ p.written, column := p.column + cs.length } := by
  induction cs generalizing p with
  | nil => rfl
  | cons c cs ih =>
    rw [puts, List.foldl_cons, ← puts, ih]
    simp [put, Nat.add_assoc, Nat.add_comm 1]

/-- At the start of a line, blanks lead to an indentation. -/
theorem chars_indent {n : Nat} {p : Page} (hcolumn : p.column = 0) (hfresh : p.fresh = true)
    (hn : 0 < n) : (p.indent n).chars = p.chars ++ List.replicate n ' ' := by
  have hn' : (0 == n) = false := by simp; omega
  simp [indent, hcolumn, hfresh, hn', puts_eq, chars]

theorem chars_indent_of {n : Nat} {broken : Bool} {p : Page} (hn : 0 < n)
    (hbroken : broken = true → p.column = 0 ∧ p.fresh = true) :
    (if broken = true then p.indent n else p).chars =
      p.chars ++ if broken = true then List.replicate n ' ' else [] := by
  cases broken with
  | false => simp
  | true => exact chars_indent (hbroken rfl).1 (hbroken rfl).2 hn

/-- A character between single quotes. -/
def quote (c : Char) : List Char := if c = '\'' then ['\'', '\''] else [c]

theorem quote_ne_nil (c : Char) : quote c ≠ [] := by
  unfold quote
  split <;> simp

/-- What is written of a text between single quotes. -/
theorem chars_singleInside {n : Nat} {broken : Bool} {cs : List Char} {p : Page} (hn : 0 < n)
    (hline : '\n' ∉ cs) (hblank : hasPair isBreak (fun c => c == ' ') cs = false)
    (hbroken : broken = true → p.column = 0 ∧ p.fresh = true ∧ cs.head? ≠ some ' ') :
    (singleInside n broken cs p).chars =
      p.chars ++ laid n quote (List.replicate n ' ') broken cs := by
  induction cs generalizing broken p with
  | nil =>
    cases broken with
    | false => simp [singleInside, laid]
    | true =>
      obtain ⟨hcolumn, hfresh, -⟩ := hbroken rfl
      simp [singleInside, laid, chars_indent hcolumn hfresh hn]
  | cons c cs ih =>
    have hline' : '\n' ∉ cs := fun h => hline (by simp [h])
    have hblank' : hasPair isBreak (fun c => c == ' ') cs = false :=
      (hasPair_append (show hasPair _ _ ([c] ++ cs) = false from hblank)).2
    by_cases hc : isBreak c = true
    · have hcn : c ≠ '\n' := fun h => hline (by simp [h])
      have hhead : cs.head? ≠ some ' ' := by
        cases cs with
        | nil => simp
        | cons d cs =>
          rintro h
          simp [hasPair, hc] at hblank h
          simp [h] at hblank
      rw [singleInside, if_pos hc, ih hline' hblank' fun _ => ⟨rfl, rfl, hhead⟩, laid, if_pos hc]
      simp [hcn, chars, putBreak]
    · rw [laid, if_neg hc]
      by_cases hs : c = ' '
      · subst hs
        cases broken with
        | true => exact absurd rfl (hbroken rfl).2.2
        | false =>
          rw [singleInside, if_neg hc, if_pos rfl, ih hline' hblank' (by simp), chars_put]
          simp [quote]
      · have hindent := chars_indent_of hn fun h => ⟨(hbroken h).1, (hbroken h).2.1⟩
        have hquote (p : Page) :
            ({ (if c = '\'' then p.put '\'' else p).put c with fresh := false }).chars =
              p.chars ++ quote c := by
          by_cases hq : c = '\'' <;> simp [chars, put, quote, hq]
        rw [singleInside, if_neg hc, if_neg hs, ih hline' hblank' (by simp), hquote, hindent]
        simp

/-- What is written of a text as a block. -/
theorem chars_literalInside {n : Nat} {broken : Bool} {cs : List Char} {p : Page} (hn : 0 < n)
    (hbroken : broken = true → p.column = 0 ∧ p.fresh = true) :
    (literalInside n broken cs p).chars = p.chars ++ laid n (fun c => [c]) [] broken cs := by
  induction cs generalizing broken p with
  | nil => simp [literalInside, laid]
  | cons c cs ih =>
    by_cases hc : isBreak c = true
    · rw [literalInside, if_pos hc, ih fun _ => ⟨rfl, rfl⟩, laid, if_pos hc]
      simp [chars, putBreak]
    · have hput (p : Page) : ({ p.put c with fresh := false }).chars = p.chars ++ [c] :=
        chars_put c p
      rw [literalInside, if_neg hc, ih (by simp), laid, if_neg hc, hput, chars_indent_of hn hbroken]
      simp

end Page

end SessionGuard.Yaml
