import SessionGuard.Proofs.Yaml.Literal
import SessionGuard.Proofs.Yaml.Plain
import SessionGuard.Proofs.Yaml.Quoted

/-!
# What is written for a text

`line` is what stands on the page for a text behind a colon, up to the next line: in the style that
`styleOf` chooses (`chars_scalar`), and where the style keeps the text.
-/

namespace SessionGuard.Yaml

open Cursor (lastBreak)

/-! ## Styles -/

theorem traits_plain {cs : List Char} (h : (traits cs).plain = true) :
    IsPlain cs ∧ opensOtherwise cs = false := by
  simp only [traits, Bool.not_eq_true', Bool.or_eq_false_iff, Bool.not_eq_false', List.all_eq_true,
    List.any_eq_false] at h
  obtain ⟨⟨⟨⟨⟨⟨hhead, hlast⟩, -⟩, -, hshown⟩, hbreak⟩, hopens⟩, hind⟩ := h
  refine ⟨⟨hshown, fun d hd => by simpa using hbreak d hd, ?_, ?_, ?_⟩, hopens⟩
  · intro h
    simp [h] at hhead
  · intro h
    simp [h] at hlast
  · cases cs with
    | nil => rfl
    | cons d cs =>
      simp only [opensOtherwise, Bool.or_eq_false_iff] at hopens
      have hd : d ≠ '#' := by
        rintro rfl
        exact absurd hopens.2.1 (by decide)
      simp_all [hasIndicator]

theorem traits_single {cs : List Char} (h : (traits cs).single = true) : Quotable cs := by
  simp only [traits, Bool.not_eq_true', Bool.or_eq_false_iff, Bool.not_eq_false', List.all_eq_true]
    at h
  exact ⟨h.2.2, h.2.1, h.1⟩

theorem traits_literal {cs : List Char} (h : (traits cs).literal = true) :
    cs ≠ [] ∧ ∀ d ∈ cs, isShown d = true := by
  simp only [traits, Bool.not_eq_true', Bool.or_eq_false_iff, Bool.not_eq_false', List.all_eq_true]
    at h
  exact ⟨by simpa using h.1.1, h.2.2⟩

/-- A style shows a text: the same characters are read again. -/
def Style.Shows (cs : List Char) : Style → Prop
  | .plain => cs ≠ [] ∧ IsPlain cs ∧ opensOtherwise cs = false
  | .singleQuoted => Quotable cs ∧ '\n' ∉ cs
  | .doubleQuoted => True
  | .literal => cs ≠ [] ∧ ∀ d ∈ cs, isShown d = true
  | .folded => False

/-- A style keeps a text: it shows it as a text and nothing else. -/
structure Style.Keeps (cs : List Char) (style : Style) : Prop where
  shows : style.Shows cs
  isText : style = .plain → Plain.ofText (String.ofList cs) = .string

theorem ofText_of_readsAsText {s : String} (h : readsAsText s = true) :
    Plain.ofText s = .string ∧ s.toList ≠ [] := by
  unfold readsAsText at h
  split at h
  · next he =>
    refine ⟨he, fun hs => ?_⟩
    obtain rfl : s = "" := String.toList_eq_nil_iff.1 hs
    cases he
  · cases h

/-- The style that is chosen for a text keeps it. -/
theorem keeps_styleOf (s : String) : (styleOf s false).Keeps s.toList := by
  unfold styleOf
  by_cases hline : '\n' ∈ s.toList
  · simp only [if_pos hline]
    split
    · next h => exact ⟨traits_literal (by simpa using h), by simp⟩
    · exact ⟨trivial, by simp⟩
  · simp only [if_neg hline, Bool.false_and, Bool.false_eq_true, if_false]
    split
    · next h =>
      simp only [Bool.and_eq_true] at h
      obtain ⟨hstring, hne⟩ := ofText_of_readsAsText h.1.1
      obtain ⟨hplain, hopens⟩ := traits_plain h.1.2
      exact ⟨⟨hne, hplain, hopens⟩, fun _ => by rwa [String.ofList_toList]⟩
    · split
      · next h => exact ⟨⟨traits_single h, hline⟩, by simp⟩
      · exact ⟨trivial, by simp⟩

/-! ## Pages -/

/-- What stands on the page behind a colon, up to the next line, for a text in a style. -/
def line (n : Nat) (cs : List Char) : Style → List Char
  | .plain => ' ' :: (cs ++ ['\n'])
  | .singleQuoted =>
    ' ' :: '\'' :: (laid n Page.quote (List.replicate n ' ') false cs ++ ['\'', '\n'])
  | .doubleQuoted => ' ' :: '"' :: (cs.flatMap Page.escape ++ ['"', '\n'])
  | .literal | .folded =>
    ' ' :: '|' :: (Page.literalSigns cs ++ '\n' :: (laid n (fun d => [d]) [] true cs ++ lastBreak cs))

theorem line_eq_cons (n : Nat) (cs : List Char) (style : Style) :
    ∃ more, line n cs style = ' ' :: more := by
  cases style <;> exact ⟨_, rfl⟩

theorem isShown_of_mem_line {n : Nat} {cs : List Char} {style : Style} (hshows : style.Shows cs) :
    ∀ d ∈ line n cs style, isShown d = true := by
  cases style with
  | plain =>
    simp only [line, List.forall_mem_cons, List.forall_mem_append]
    exact ⟨rfl, hshows.2.1.isShown, rfl, List.forall_mem_nil _⟩
  | singleQuoted =>
    have hquote : ∀ d ∈ cs, ∀ e ∈ Page.quote d, isShown e = true := by
      intro d hd
      have := hshows.1.isShown d hd
      unfold Page.quote
      split <;> simp_all
    simp only [line, List.forall_mem_cons, List.forall_mem_append]
    refine ⟨rfl, rfl, isShown_of_mem_laid hshows.1.isShown hquote (fun e he => ?_), rfl, rfl,
      List.forall_mem_nil _⟩
    rw [List.eq_of_mem_replicate he]
    rfl
  | doubleQuoted =>
    simp only [line, List.forall_mem_cons, List.forall_mem_append, List.mem_flatMap]
    exact ⟨rfl, rfl, fun e ⟨d, _, he⟩ => isShown_of_mem_escape e he, rfl, rfl,
      List.forall_mem_nil _⟩
  | literal =>
    obtain ⟨-, hs⟩ := hshows
    simp only [line, List.forall_mem_cons, List.forall_mem_append]
    refine ⟨rfl, rfl, ?_, rfl, isShown_of_mem_laid hs (by simpa using hs) (by simp), ?_⟩
    · dsimp only [Page.literalSigns]
      simp only [List.forall_mem_append]
      constructor
      · repeat' split
        all_goals exact List.all_eq_true.1 rfl
      · repeat' split
        all_goals exact List.all_eq_true.1 rfl
    · unfold lastBreak
      split <;> exact List.all_eq_true.1 rfl
  | folded => exact hshows.elim

namespace Page

variable {n k : Nat} {cs : List Char} {p : Page}

theorem chars_sign (apart spaced fresh : Bool) :
    (p.sign cs apart spaced fresh).chars =
      p.chars ++ ((if apart && !p.spaced then [' '] else []) ++ cs) := by
  unfold sign
  by_cases h : (apart && !p.spaced) = true <;> simp [h, chars, puts_eq, put]

/-- The next line starts behind a break, with its indentation. -/
theorem chars_indent_of_not_fresh (h : p.fresh = false) :
    (p.indent k).chars = p.chars ++ '\n' :: List.replicate k ' ' := by
  simp [indent, h, puts_eq, chars, putBreak]

theorem chars_indent_of_spaced (hcolumn : p.column = 0) (hspaced : p.spaced = true)
    (hfresh : p.fresh = true) : (p.indent k).chars = p.chars ++ List.replicate k ' ' := by
  simp [indent, hcolumn, hspaced, hfresh, puts_eq, chars]

/-- A block leaves the page at the start of a line, if the text ends with a break. -/
theorem literalInside_end {broken : Bool} (hne : cs ≠ []) (hspaced : p.spaced = true) :
    ((literalInside n broken cs p).indent k).chars =
      (literalInside n broken cs p).chars ++ (lastBreak cs ++ List.replicate k ' ') := by
  induction cs generalizing broken p with
  | nil => exact absurd rfl hne
  | cons c cs ih =>
    by_cases hc : isBreak c = true
    · rw [literalInside, if_pos hc]
      cases cs with
      | nil =>
        simp only [literalInside]
        rw [chars_indent_of_spaced (p := { p.putBreak c with fresh := true }) rfl hspaced rfl]
        simp [lastBreak, hc]
      | cons d cs =>
        rw [ih (p := { p.putBreak c with fresh := true }) (List.cons_ne_nil d cs) hspaced]
        simp [lastBreak]
    · rw [literalInside, if_neg hc]
      have hspaced' : (if broken = true then p.indent n else p).spaced = true := by
        split
        · rfl
        · exact hspaced
      generalize (if broken = true then p.indent n else p) = q at hspaced' ⊢
      cases cs with
      | nil =>
        simp only [literalInside]
        rw [chars_indent_of_not_fresh rfl]
        simp [lastBreak, hc]
      | cons d cs =>
        dsimp only
        rw [ih (p := { q.put c with fresh := false }) (List.cons_ne_nil d cs) hspaced']
        simp [lastBreak]

/-- What stands on the page for a text behind a colon, and the indentation of the next line. -/
theorem chars_scalar {s : String} {style : Style} (hn : 0 < n) (hspaced : p.spaced = false)
    (hshows : style.Shows s.toList) :
    ((p.scalar n s style).indent k).chars =
      p.chars ++ (line n s.toList style ++ List.replicate k ' ') := by
  cases style with
  | plain =>
    rw [scalar, chars_indent_of_not_fresh rfl]
    simp [plain, hspaced, hshows.1, chars, puts_eq, put, line]
  | singleQuoted =>
    obtain ⟨hq, hline⟩ := hshows
    rw [scalar, chars_indent_of_not_fresh (by simp [singleQuoted, sign]), singleQuoted, chars_sign,
      chars_singleInside hn hline hq.breakBlank (by simp), chars_sign]
    simp [hspaced, line]
  | doubleQuoted =>
    have hputs (cs : List Char) (p : Page) : (p.puts cs).chars = p.chars ++ cs := by
      simp [puts_eq, chars]
    rw [scalar, chars_indent_of_not_fresh (by simp [doubleQuoted, sign]), doubleQuoted, chars_sign,
      hputs, chars_sign]
    simp [hspaced, line]
  | literal =>
    have hsigns (p : Page) : ({ p.putBreak '\n' with spaced := true, fresh := true }).chars =
        p.chars ++ ['\n'] := chars_putBreak '\n' p
    rw [scalar, literal, literalInside_end hshows.1 rfl, chars_literalInside hn fun _ => ⟨rfl, rfl⟩,
      hsigns, chars_sign, chars_sign]
    simp [hspaced, line]
  | folded => exact hshows.elim

end Page

end SessionGuard.Yaml
