import SessionGuard.Proofs.Yaml.Written

/-!
# The token of a text

What is written for a text behind a colon gives one token with the text (`run?_line`), and the lexer
goes on at the start of the next line.
-/

namespace SessionGuard.Yaml.Lexer

variable {l : Lexer} {rest : List Char} {k : Nat}

/-! ## Gaps -/

/-- A text starts with nothing that the lexer passes over. -/
def Starts (cs : List Char) : Prop := ∀ d ∈ cs.head?, isGap d = false ∧ d ≠ '#' ∧ d ≠ '\uFEFF'

theorem Starts.noGapFirst (h : Starts rest) : NoGapFirst rest := fun d hd => (h d hd).1

theorem skipGap_starts (fuel : Nat) (h : Starts l.cursor.rest) : skipGap fuel l = l := by
  cases fuel with
  | zero => rfl
  | succ fuel =>
    unfold skipGap
    dsimp only
    split
    · rfl
    · next d ds hr =>
      obtain ⟨hgap, hnumber, hmark⟩ := h d (by simp [hr])
      simp only [isGap, isSpace, Bool.or_eq_false_iff, decide_eq_false_iff_not] at hgap
      simp [hnumber, hmark, hgap]

/-- Blanks are passed over. -/
theorem skipGap_blanks {fuel : Nat} (hrest : Starts rest) (hfuel : k ≤ fuel)
    (hc : l.cursor.rest = List.replicate k ' ' ++ rest) :
    ∃ c', skipGap fuel l = { l with cursor := c' } ∧ c'.rest = rest ∧
      c'.column = l.cursor.column + k := by
  induction k generalizing l fuel with
  | zero =>
    exact ⟨l.cursor, skipGap_starts fuel (by rw [hc]; exact hrest), hc, rfl⟩
  | succ k ih =>
    cases fuel with
    | zero => simp at hfuel
    | succ fuel =>
      obtain ⟨c', hskip, hr, hcol⟩ := ih (l := { l with cursor := l.cursor.skip })
        (Nat.le_of_succ_le_succ hfuel) (by simp [Cursor.skip, hc, List.replicate_succ])
      refine ⟨c', ?_, hr, by simp only [hcol, Cursor.skip]; omega⟩
      unfold skipGap
      dsimp only
      rw [hc]
      simpa [List.replicate_succ] using hskip

/-- The end of a line is passed over, with the indentation of the next one. -/
theorem skipGap_line {fuel : Nat} (hflow : l.flow = 0) (hrest : Starts rest) (hfuel : k + 1 ≤ fuel)
    (hc : l.cursor.rest = '\n' :: (List.replicate k ' ' ++ rest)) :
    ∃ c', skipGap fuel l = { l with cursor := c', keyAllowed := true } ∧ c'.rest = rest ∧
      c'.column = k := by
  obtain ⟨fuel, rfl⟩ := Nat.exists_eq_add_one_of_ne_zero (by omega : fuel ≠ 0)
  obtain ⟨line, index, hbreak⟩ := Cursor.takeBreak_of_isShown (d := '\n') rfl rfl hc
  obtain ⟨c', hskip, hr, hcol⟩ := skipGap_blanks
    (l := { l with
      cursor := ⟨List.replicate k ' ' ++ rest, line, 0, index⟩
      keyAllowed := true }) hrest (Nat.le_of_succ_le_succ hfuel) rfl
  refine ⟨c', ?_, hr, by simpa using hcol⟩
  unfold skipGap
  dsimp only
  rw [hc]
  simpa [isBreak, hbreak, hflow] using hskip

/-- The lexer goes on alike from where it passes over a gap to the same place. -/
theorem run?_congr {l' : Lexer} (fuel : Nat)
    (h : skipGap (l.cursor.rest.length + 1) l = skipGap (l'.cursor.rest.length + 1) l') :
    run? fuel l = run? fuel l' := by
  cases fuel with
  | zero => rfl
  | succ fuel => simp only [run?, h]

/-! ## Texts -/

/-- The lexer stands behind a colon of a block mapping. -/
structure AtValue (l : Lexer) (indent : Nat) (rest : List Char) : Prop where
  inside : l.cursor.Inside (indent + 1) rest
  indent : l.indent = indent
  flow : l.flow = 0
  starts : l.starts = [none]
  keyAllowed : l.keyAllowed = false

/-- The lexer after a token, where a cursor stands. -/
def after (l : Lexer) (t : Token) (c : Cursor) (allowed : Bool) : Lexer :=
  { l with cursor := c, tokens := t :: l.tokens, count := l.count + 1, keyAllowed := allowed }

theorem closeBlocks_of_le {column : Int} (h : l.indent ≤ column) : l.closeBlocks column = l := by
  unfold closeBlocks
  split
  · unfold closeTo
    split
    · rfl
    · rw [if_neg (by omega)]
  · rfl

/-- Where no gap is in front, the lexer goes on with the next token. -/
theorem run?_of_starts {d : Char} (fuel : Nat) (hc : l.cursor.rest = d :: rest)
    (hd : Starts (d :: rest)) (hexpire : l.expireStarts? = some l)
    (hle : l.indent ≤ l.cursor.column) :
    run? (fuel + 1) l = l.token?.bind (run? fuel) := by
  rw [run?, skipGap_starts _ (by rw [hc]; exact hd)]
  simp only [hexpire, Option.bind_eq_bind, Option.bind_some, closeBlocks_of_le hle]
  rw [hc]

theorem expireStarts?_of_starts (h : l.starts = [none]) : l.expireStarts? = some l := by
  obtain ⟨cursor, tokens, count, indent, outer, flow, starts, keyAllowed⟩ := l
  obtain rfl : starts = [none] := h
  rfl

/-- A blank behind the colon is passed over before the next token. -/
theorem run?_token {indent : Nat} {d : Char} {cs : List Char}
    (h : l.AtValue indent (' ' :: d :: cs)) (hd : Starts (d :: cs)) :
    ({ l with cursor := l.cursor.skip }).AtValue indent (d :: cs) ∧
      ∀ fuel, run? (fuel + 1) l = (token? { l with cursor := l.cursor.skip }).bind (run? fuel) := by
  have hat : ({ l with cursor := l.cursor.skip }).AtValue indent (d :: cs) :=
    ⟨h.inside.skip, h.indent, h.flow, h.starts, h.keyAllowed⟩
  refine ⟨hat, fun fuel => ?_⟩
  have hstarts : Starts l.cursor.skip.rest := by
    rw [h.inside.skip.rest_eq]
    exact hd
  have hskip : skipGap (l.cursor.rest.length + 1) l = { l with cursor := l.cursor.skip } := by
    unfold skipGap
    dsimp only
    rw [h.inside.rest_eq]
    simpa using skipGap_starts _ hstarts
  rw [run?_congr (fuel + 1) (hskip.trans (skipGap_starts _ hstarts).symm)]
  refine run?_of_starts fuel hat.inside.rest_eq hd (expireStarts?_of_starts hat.starts) ?_
  have := hat.inside.le_column
  have := hat.indent
  omega

/-! ## Styles -/

variable {indent : Nat} {d : Char} {cs : List Char}

/-- No document marker stands behind a colon. -/
theorem AtValue.atMarker (h : l.AtValue indent rest) :
    l.cursor.atMarker '-' = false ∧ l.cursor.atMarker '.' = false := by
  have := h.inside.atAnyMarker (Nat.succ_pos indent)
  simpa only [Cursor.atAnyMarker, Bool.or_eq_false_iff] using this

/-- A token that may be a key is no key behind a colon. -/
theorem content?_of_keyAllowed {read : Cursor → Option (Token × Cursor)} {t : Token} {c : Cursor}
    (h : l.keyAllowed = false) (hread : read l.cursor = some (t, c)) :
    l.content? read = some (l.after t c false) := by
  simp [content?, saveStart?, h, hread, after, allowKey, push]

theorem token?_doubleQuoted (h : l.AtValue indent ('"' :: (cs.flatMap Page.escape ++ '"' :: rest))) :
    ∃ c', l.token? = some (l.after (.scalar cs .doubleQuoted) c' false) ∧ c'.rest = rest := by
  have hfuel : cs.length < l.cursor.rest.length + 1 := by
    have := Cursor.length_le_flatMap_escape cs
    rw [h.inside.rest_eq]
    simp only [List.length_cons, List.length_append]
    omega
  obtain ⟨c', hread, hc'⟩ :=
    Cursor.takeDoubleQuoted?_escape (Nat.succ_pos indent) h.inside.skip hfuel
  refine ⟨c', ?_, hc'.rest_eq⟩
  have hmark := h.atMarker
  have htoken : l.token? = l.content? fun c =>
      (c.skip.takeDoubleQuoted? (c.rest.length + 1)).map fun r =>
        (.scalar r.1 .doubleQuoted, r.2) := by
    simp [token?, h.inside.rest_eq, hmark, h.flow]
  rw [htoken]
  exact content?_of_keyAllowed h.keyAllowed (by simp [hread])

theorem token?_singleQuoted {n : Nat} (hn : 0 < n) (hcs : Quotable cs) (hline : '\n' ∉ cs)
    (hrest : rest.head? ≠ some '\'')
    (h : l.AtValue indent
      ('\'' :: (laid n Page.quote (List.replicate n ' ') false cs ++ '\'' :: rest))) :
    ∃ c', l.token? = some (l.after (.scalar cs .singleQuoted) c' false) ∧ c'.rest = rest := by
  have hfuel : cs.length < l.cursor.rest.length + 1 := by
    have : cs.length ≤ (laid n Page.quote (List.replicate n ' ') false cs).length :=
      length_le_laid Page.quote_ne_nil false cs
    rw [h.inside.rest_eq]
    simp only [List.length_cons, List.length_append]
    omega
  have hin := h.inside.skip
  obtain ⟨c', hread, hc'⟩ := Cursor.takeSingleQuoted?_laid hn hcs hline hrest
    ⟨hin.rest_eq, Nat.le_trans (Nat.succ_le_succ (Nat.zero_le _)) hin.le_column⟩ hfuel
  refine ⟨c', ?_, hc'.rest_eq⟩
  have hmark := h.atMarker
  have htoken : l.token? = l.content? fun c =>
      (c.skip.takeSingleQuoted? (c.rest.length + 1)).map fun r =>
        (.scalar r.1 .singleQuoted, r.2) := by
    simp [token?, h.inside.rest_eq, hmark, h.flow]
  rw [htoken]
  exact content?_of_keyAllowed h.keyAllowed (by simp [hread])

theorem token?_literal (hne : cs ≠ []) (hs : ∀ d ∈ cs, isShown d = true) (hrest : NoGapFirst rest)
    (hk : k ≤ indent)
    (h : l.AtValue indent ('|' :: (Page.literalSigns cs ++
      '\n' :: (laid (indent + 2) (fun d => [d]) [] true cs ++
        (Cursor.lastBreak cs ++ (List.replicate k ' ' ++ rest)))))) :
    ∃ c', l.token? = some (l.after (.scalar cs .literal) c' true) ∧ c'.rest = rest ∧
      c'.column = k := by
  obtain ⟨c', hread, hr, hcol⟩ := Cursor.takeBlock?_literal hne hs hrest hk h.inside.skip.rest_eq
  refine ⟨c', ?_, hr, hcol⟩
  have hmark := h.atMarker
  have hdrop : l.dropStart? = some l := by simp [dropStart?, h.starts]
  have hblock : l.block? true = some (l.after (.scalar cs .literal) c' true) := by
    simp [block?, hdrop, h.indent, hread, after, allowKey, push]
  simpa [token?, h.inside.rest_eq, hmark, h.flow] using hblock

theorem of_opensOtherwise (h : opensOtherwise (d :: cs) = false) :
    isOpening d = false ∧ (d = '?' ∨ d = ':' ∨ d = '-' → gapFirst cs = false) := by
  simp only [opensOtherwise, Bool.or_eq_false_iff, Bool.and_eq_false_iff] at h
  refine ⟨h.2.1, fun hd => h.2.2.resolve_left ?_⟩
  rcases hd with rfl | rfl | rfl <;> simp

theorem blankAt_one_of_opensOtherwise (h : opensOtherwise (d :: cs) = false)
    (hd : d = '?' ∨ d = ':' ∨ d = '-') (hc : l.cursor.rest = d :: (cs ++ rest)) :
    l.cursor.blankAt 1 = false := by
  rw [Cursor.blankAt_one hc]
  exact gapFirst_append ((of_opensOtherwise h).2 hd)

theorem startsPlain_of_opensOtherwise (h : opensOtherwise (d :: cs) = false)
    (hgap : isGap d = false) (hc : l.cursor.rest = d :: (cs ++ rest)) :
    startsPlain false l.cursor = true := by
  have hblank := fun hd => blankAt_one_of_opensOtherwise h hd hc
  unfold startsPlain
  rw [hc]
  dsimp only
  split
  · next hd =>
    have hfirst := (of_opensOtherwise h).2 (by simp [hd])
    cases cs with
    | nil => cases hfirst
    | cons e cs => simpa using (Bool.or_eq_false_iff.1 hfirst).1
  · split
    · next hd =>
      simp only [Bool.or_eq_true, decide_eq_true_eq] at hd
      simp [hblank (hd.imp_right .inl)]
    · have hopening := (of_opensOtherwise h).1
      simp only [isOpening, isGap, Bool.or_eq_false_iff] at hopening hgap
      simp_all

theorem token?_plain (hne : cs ≠ []) (hcs : IsPlain cs) (hopens : opensOtherwise cs = false)
    (hrest : NoGapFirst rest) (hk : k ≤ indent)
    (h : l.AtValue indent (cs ++ '\n' :: (List.replicate k ' ' ++ rest))) :
    ∃ c', l.token? = some (l.after (.scalar cs .plain) c' true) ∧ c'.rest = rest ∧
      c'.column = k := by
  have hfuel : cs.length < l.cursor.rest.length + 1 := by
    rw [h.inside.rest_eq]
    simp only [List.length_append]
    omega
  obtain ⟨c', hread, hr, hcol⟩ := Cursor.takePlain?_plain (Nat.succ_pos indent) hcs hrest
    (Nat.lt_succ_of_le hk) h.inside hfuel
  refine ⟨c', ?_, hr, hcol⟩
  have hplain : l.plain? = some (l.after (.scalar cs .plain) c' true) := by
    have hindent : (l.indent + 1).toNat = indent + 1 := by
      rw [h.indent]
      omega
    simp [plain?, saveStart?, h.keyAllowed, h.flow, hindent, hread, after, allowKey, push]
  have hmark := h.atMarker
  obtain ⟨d, cs, rfl⟩ := List.exists_cons_of_ne_nil hne
  have hgap : isGap d = false := hcs.noGapFirst d rfl
  have hc := h.inside.rest_eq
  have hstarts := startsPlain_of_opensOtherwise hopens hgap hc
  have hsign (e : Char) (he : e = '?' ∨ e = ':' ∨ e = '-') :
      ¬ (d = e ∧ l.cursor.blankAt 1 = true) := by
    rintro ⟨rfl, hb⟩
    rw [blankAt_one_of_opensOtherwise hopens he hc] at hb
    cases hb
  have hopening := (of_opensOtherwise hopens).1
  simp only [isOpening, List.mem_cons, decide_eq_false_iff_not, not_or] at hopening
  unfold token?
  dsimp only
  rw [hc]
  simp [hmark, h.flow, hopening, hstarts, hplain, hsign '-', hsign '?', hsign ':']

/-- What is written for a text behind a colon is one token with the text, and the lexer goes on with
the next line. -/
theorem run?_line {style : Style} (hshows : style.Shows cs) (hrest : Starts rest)
    (hk : k ≤ indent)
    (h : l.AtValue indent (line (indent + 2) cs style ++ (List.replicate k ' ' ++ rest))) :
    ∃ c', c'.rest = rest ∧ c'.column = k ∧
      ∀ fuel, run? (fuel + 1) l = run? fuel (l.after (.scalar cs style) c' true) := by
  -- behind a closing quote, the end of the line is still to be passed over
  have hquoted {c : Cursor} {t : Token} (hc : c.rest = '\n' :: (List.replicate k ' ' ++ rest)) :
      ∃ c', c'.rest = rest ∧ c'.column = k ∧
        ∀ fuel, run? fuel (l.after t c false) = run? fuel (l.after t c' true) := by
    have hroom : k + 1 ≤ c.rest.length + 1 := by
      simp only [hc, List.length_cons, List.length_append, List.length_replicate]
      omega
    obtain ⟨c', hskip, hr, hcol⟩ := skipGap_line (l := l.after t c false) h.flow hrest hroom hc
    refine ⟨c', hr, hcol, fun fuel => run?_congr fuel ?_⟩
    rw [skipGap_starts (l := l.after t c' true) _ (by simpa [after, hr] using hrest)]
    exact hskip
  cases style with
  | plain =>
    obtain ⟨hne, hplain, hopens⟩ := hshows
    obtain ⟨d, cs, rfl⟩ := List.exists_cons_of_ne_nil hne
    have hmark : d ≠ '\uFEFF' := by
      rintro rfl
      exact absurd (hplain.isShown '\uFEFF' (by simp)) (by decide)
    have hnumber : d ≠ '#' := by simpa using hplain.ne_number
    obtain ⟨hat, hrun⟩ := run?_token h
      (by simpa [Starts, hnumber, hmark] using hplain.noGapFirst d rfl)
    obtain ⟨c', htoken, hr, hcol⟩ := token?_plain hne hplain hopens hrest.noGapFirst hk
      (by simpa using hat)
    exact ⟨c', hr, hcol, fun fuel => by rw [hrun, htoken]; rfl⟩
  | singleQuoted =>
    obtain ⟨hq, hline⟩ := hshows
    obtain ⟨hat, hrun⟩ := run?_token h (by simp [Starts]; rfl)
    obtain ⟨c, htoken, hr⟩ := token?_singleQuoted (n := indent + 2) (by omega) hq hline
      (by simp : ('\n' :: (List.replicate k ' ' ++ rest)).head? ≠ some '\'') (by simpa using hat)
    obtain ⟨c', hr', hcol, hnext⟩ := hquoted (t := .scalar cs .singleQuoted) hr
    exact ⟨c', hr', hcol, fun fuel => by rw [hrun, htoken]; exact hnext fuel⟩
  | doubleQuoted =>
    obtain ⟨hat, hrun⟩ := run?_token h (by simp [Starts]; rfl)
    have hat' : ({ l with cursor := l.cursor.skip }).AtValue indent
        ('"' :: (cs.flatMap Page.escape ++ '"' :: '\n' :: (List.replicate k ' ' ++ rest))) := by
      simpa using hat
    obtain ⟨c, htoken, hr⟩ := token?_doubleQuoted hat'
    obtain ⟨c', hr', hcol, hnext⟩ := hquoted (t := .scalar cs .doubleQuoted) hr
    exact ⟨c', hr', hcol, fun fuel => by rw [hrun, htoken]; exact hnext fuel⟩
  | literal =>
    obtain ⟨hne, hs⟩ := hshows
    obtain ⟨hat, hrun⟩ := run?_token h (by simp [Starts]; rfl)
    obtain ⟨c', htoken, hr, hcol⟩ := token?_literal (k := k) hne hs hrest.noGapFirst hk
      (by simpa using hat)
    exact ⟨c', hr, hcol, fun fuel => by rw [hrun, htoken]; rfl⟩
  | folded => exact hshows.elim

end SessionGuard.Yaml.Lexer
