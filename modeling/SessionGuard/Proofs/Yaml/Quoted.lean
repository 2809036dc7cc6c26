import SessionGuard.Proofs.Yaml.Lines

/-!
# Quoted texts are read again

Between double quotes each character is read again from its escape, and between single quotes each
quote from the two that stand for it.  Line breaks only stand between single quotes, with
indentation behind them.
-/

namespace SessionGuard.Yaml

/-! ## Numbers to base sixteen -/

theorem hexValue?_toUpper_digitChar : ∀ n < 16,
    Cursor.hexValue? (Nat.digitChar n).toUpper = some n := by decide

/-- The digits of a number are read as the number, whatever has been read before it. -/
theorem foldlM_hexValue?_toDigits (n : Nat) :
    ((Nat.toDigits 16 n).map Char.toUpper).foldlM
      (fun n c => (Cursor.hexValue? c).map (16 * n + ·)) 0 = some n := by
  induction n using Nat.strongRecOn with
  | ind n ih =>
    by_cases hn : n < 16
    · simp [Nat.toDigits_of_lt_base hn, hexValue?_toUpper_digitChar n hn]
    · rw [Nat.toDigits_of_base_le (by decide) (by omega), List.map_append, List.foldlM_append,
        ih (n / 16) (by omega)]
      simp only [List.map_cons, List.map_nil, List.foldlM_cons, List.foldlM_nil, Option.bind_eq_bind,
        Option.bind_some, hexValue?_toUpper_digitChar _ (Nat.mod_lt n (by decide : 0 < 16)),
        Option.map_some, Option.pure_def, Option.some.injEq]
      omega

theorem foldlM_hexValue?_zeros (m : Nat) (cs : List Char) :
    (List.replicate m '0' ++ cs).foldlM (fun n c => (Cursor.hexValue? c).map (16 * n + ·)) 0 =
      cs.foldlM (fun n c => (Cursor.hexValue? c).map (16 * n + ·)) 0 := by
  induction m with
  | zero => rfl
  | succ m ih =>
    rw [List.replicate_succ, List.cons_append, List.foldlM_cons, ← ih]
    rfl

theorem length_capitalHex {width n : Nat} (hw : 0 < width) (hn : n < Nat.pow 16 width) :
    (Page.capitalHex width n).length = width := by
  have := (Nat.length_toDigits_le_iff (by decide : 1 < 16) hw).2 hn
  simp [Page.capitalHex]
  omega

/-- A number that has been written to base sixteen is read again. -/
theorem hexNumber?_capitalHex {width n : Nat} (rest : List Char) (hw : 0 < width)
    (hn : n < Nat.pow 16 width) :
    Cursor.hexNumber? width (Page.capitalHex width n ++ rest) = some n := by
  have hlen := length_capitalHex hw hn
  unfold Cursor.hexNumber?
  rw [if_neg (by simp; omega), List.take_append_of_le_length (by omega),
    List.take_of_length_le (by omega)]
  simp only [Page.capitalHex, foldlM_hexValue?_zeros, foldlM_hexValue?_toDigits]

theorem isShown_of_mem_toDigits {n : Nat} :
    ∀ d ∈ Nat.toDigits 16 n, isShown d.toUpper = true := by
  have hdigit : ∀ k < 16, isShown (Nat.digitChar k).toUpper = true := by decide
  induction n using Nat.strongRecOn with
  | ind n ih =>
    by_cases hn : n < 16
    · simpa [Nat.toDigits_of_lt_base hn] using hdigit n hn
    · rw [Nat.toDigits_of_base_le (by decide) (by omega)]
      simp only [List.forall_mem_append, List.forall_mem_singleton]
      exact ⟨ih (n / 16) (by omega), hdigit _ (Nat.mod_lt n (by decide))⟩

theorem isShown_of_mem_capitalHex {width n : Nat} {d : Char} (hd : d ∈ Page.capitalHex width n) :
    isShown d = true := by
  simp only [Page.capitalHex, List.mem_append, List.mem_map] at hd
  rcases hd with hd | ⟨e, he, rfl⟩
  · obtain rfl := List.eq_of_mem_replicate hd
    decide
  · exact isShown_of_mem_toDigits e he

/-! ## Escapes -/

/-- A character stands for itself between double quotes. -/
structure Verbatim (d : Char) : Prop where
  isShown : isShown d = true
  ne_quote : d ≠ '"'
  ne_backslash : d ≠ '\\'
  isBreak : isBreak d = false

open Cursor (takeEscape?)

/-- What is written after a backslash is read as a character, wherever it stands. -/
structure Escapes (d : Char) (cs : List Char) : Prop where
  take (n : Nat) (c : Cursor) (rest : List Char) (hc : c.Inside n (cs ++ rest)) :
    ∃ c', takeEscape? c = some (d, c') ∧ c'.Inside n rest
  isShown : ∀ e ∈ cs, isShown e = true
  head (rest : List Char) : ((cs ++ rest).head?.map isBreak).getD false = false

theorem escapes_letter {d letter : Char} (h : Cursor.shortEscape? letter = some d)
    (hs : isShown letter = true) (hb : isBreak letter = false) : Escapes d [letter] where
  take n c rest hc := by
    refine ⟨c.skip, ?_, hc.skip⟩
    simp [takeEscape?, hc.rest_eq, h]
  isShown := by simpa using hs
  head rest := by simpa using hb

theorem escapes_number {d letter : Char} {width : Nat} (h : Cursor.shortEscape? letter = none)
    (hd : Cursor.escapeDigits? letter = some width) (hw : 0 < width) (hn : d.toNat < Nat.pow 16 width)
    (hs : isShown letter = true) (hb : isBreak letter = false) :
    Escapes d (letter :: Page.capitalHex width d.toNat) where
  take n c rest hc := by
    refine ⟨c.skipN (width + 1), ?_, ?_⟩
    · have hvalid : ¬ ((0xD800 ≤ d.toNat ∧ d.toNat ≤ 0xDFFF) ∨ d.toNat > 0x10FFFF) := by
        have := d.valid
        simp only [UInt32.isValidChar, Nat.isValidChar] at this
        simp only [Char.toNat]
        omega
      unfold takeEscape?
      rw [hc.rest_eq]
      simp [h, hd, hexNumber?_capitalHex rest hw hn, hvalid, Char.ofNat_toNat]
    · have hlen := length_capitalHex hw hn
      have : (c.skipN (letter :: Page.capitalHex width d.toNat).length).Inside n rest := hc.skipN
      rwa [List.length_cons, hlen] at this
  isShown := by
    simp only [List.forall_mem_cons]
    exact ⟨hs, fun e he => isShown_of_mem_capitalHex he⟩
  head rest := by simpa using hb

/-- A character is written as itself or as an escape that stands for it. -/
theorem escape_cases (d : Char) :
    (Page.escape d = [d] ∧ Verbatim d) ∨ ∃ cs, Page.escape d = '\\' :: cs ∧ Escapes d cs := by
  by_cases hd : (isShown d && d != '"' && d != '\\' && !isBreak d) = true
  · left
    refine ⟨by unfold Page.escape; rw [if_pos hd], ?_⟩
    simp only [Bool.and_eq_true, bne_iff_ne, Bool.not_eq_true'] at hd
    exact ⟨hd.1.1.1, hd.1.1.2, hd.1.2, hd.2⟩
  · right
    unfold Page.escape
    rw [if_neg hd]
    split
    all_goals try exact ⟨_, rfl, escapes_letter rfl rfl rfl⟩
    split
    · next hle =>
      exact ⟨_, rfl, escapes_number rfl rfl (by decide) (Nat.lt_of_le_of_lt hle (by decide)) rfl rfl⟩
    · split
      · next hle =>
        exact ⟨_, rfl,
          escapes_number rfl rfl (by decide) (Nat.lt_of_le_of_lt hle (by decide)) rfl rfl⟩
      · have : d.toNat < 0x110000 := by
          have := d.valid
          simp only [UInt32.isValidChar, Nat.isValidChar] at this
          simp only [Char.toNat]
          omega
        exact ⟨_, rfl, escapes_number rfl rfl (by decide) (Nat.lt_trans this (by decide)) rfl rfl⟩

theorem isShown_of_mem_escape {d : Char} : ∀ e ∈ Page.escape d, isShown e = true := by
  rcases escape_cases d with ⟨hd, hv⟩ | ⟨cs, hd, he⟩
  · simpa [hd] using hv.isShown
  · simp only [hd, List.forall_mem_cons]
    exact ⟨rfl, he.isShown⟩

/-! ## Between double quotes -/

namespace Cursor

open Page (escape)

variable {n : Nat} {c : Cursor} {rest : List Char}

/-- A word stops before a blank and before the closing quote. -/
def EndsWord (rest : List Char) : Prop := ∃ d ds, rest = d :: ds ∧ (isSpace d = true ∨ d = '"')

/-- A word between double quotes is read again. -/
theorem takeDoubleWord?_escape {fuel : Nat} {word : List Char} (hword : ∀ d ∈ word, d ≠ ' ')
    (hrest : EndsWord rest) (hc : c.Inside n (word.flatMap escape ++ rest))
    (hfuel : word.length < fuel) :
    ∃ c', takeDoubleWord? fuel c = some (word, false, c') ∧ c'.Inside n rest := by
  induction word generalizing c fuel with
  | nil =>
    obtain ⟨d, ds, rfl, hd⟩ := hrest
    obtain ⟨fuel, rfl⟩ := Nat.exists_eq_add_one_of_ne_zero (Nat.ne_of_gt hfuel)
    refine ⟨c, ?_, hc⟩
    unfold takeDoubleWord?
    rw [hc.rest_eq]
    rcases hd with hd | hd <;> simp [hd]
  | cons d word ih =>
    obtain ⟨fuel, rfl⟩ := Nat.exists_eq_add_one_of_ne_zero (Nat.ne_of_gt (Nat.zero_lt_of_lt hfuel))
    have hword' : ∀ d ∈ word, d ≠ ' ' := fun e he => hword e (by simp [he])
    have hfuel' : word.length < fuel := by simpa using hfuel
    rw [List.flatMap_cons, List.append_assoc] at hc
    rcases escape_cases d with ⟨hd, hv⟩ | ⟨cs, hd, he⟩
    · rw [hd] at hc
      obtain ⟨c', hmore, hc'⟩ := ih hword' hc.skip hfuel'
      have hspace : isSpace d = false := by
        rw [Bool.eq_false_iff]
        intro hs
        exact hword d (by simp) (eq_space_of_isShown hv.isShown hs)
      refine ⟨c', ?_, hc'⟩
      unfold takeDoubleWord?
      rw [hc.rest_eq]
      simp [hspace, hv.isBreak, hv.ne_quote, hv.ne_backslash, hmore]
    · rw [hd, List.cons_append] at hc
      obtain ⟨c₁, htake, hc₁⟩ := he.take n c.skip _ hc.skip
      obtain ⟨c', hmore, hc'⟩ := ih hword' hc₁ hfuel'
      refine ⟨c', ?_, hc'⟩
      unfold takeDoubleWord?
      rw [hc.rest_eq]
      simp only [he.head, Bool.false_eq_true, if_false, htake]
      simp [isSpace, isBreak, hmore]

theorem length_le_flatMap_escape (cs : List Char) : cs.length ≤ (cs.flatMap escape).length := by
  induction cs with
  | nil => exact Nat.le_refl 0
  | cons d cs ih =>
    have hd : 0 < (escape d).length := by
      rcases escape_cases d with ⟨hd, -⟩ | ⟨ds, hd, -⟩ <;> simp [hd]
    rw [List.flatMap_cons, List.length_append, List.length_cons]
    omega

theorem flatMap_escape_blanks {blanks : List Char} (h : ∀ d ∈ blanks, d = ' ') :
    blanks.flatMap escape = blanks := by
  induction blanks with
  | nil => rfl
  | cons d blanks ih =>
    obtain rfl := h d (by simp)
    rw [List.flatMap_cons, ih fun d hd => h d (by simp [hd])]
    rfl

theorem noGapFirst_escape {cs : List Char} (hcs : ∀ d ∈ cs.head?, d ≠ ' ') :
    NoGapFirst (cs.flatMap escape ++ '"' :: rest) := by
  cases cs with
  | nil => simp [NoGapFirst, isGap, isSpace, isBreak]
  | cons d cs =>
    rcases escape_cases d with ⟨hd, hv⟩ | ⟨ds, hd, -⟩
    · have hspace : isSpace d = false := by
        rw [Bool.eq_false_iff]
        intro hs
        exact hcs d (by simp) (eq_space_of_isShown hv.isShown hs)
      simp [NoGapFirst, hd, isGap, hspace, hv.isBreak]
    · simp [NoGapFirst, hd, isGap, isSpace, isBreak]

/-- A text between double quotes is read again. -/
theorem takeDoubleQuoted?_escape {fuel : Nat} {cs : List Char} (hn : 0 < n)
    (hc : c.Inside n (cs.flatMap escape ++ '"' :: rest)) (hfuel : cs.length < fuel) :
    ∃ c', takeDoubleQuoted? fuel c = some (cs, c') ∧ c'.Inside n rest := by
  induction fuel generalizing c cs with
  | zero => simp at hfuel
  | succ fuel ih =>
    obtain ⟨word, blanks, more, rfl, hword, hblanks, hmore, hlast⟩ := exists_word (· == ' ') cs
    simp only [beq_iff_eq, beq_eq_false_iff_ne] at hword hblanks hmore
    simp only [List.flatMap_append, List.append_assoc, flatMap_escape_blanks hblanks] at hc
    have hroom : word.length < c.rest.length + 1 := by
      have := length_le_flatMap_escape word
      rw [hc.rest_eq, List.length_append]
      omega
    unfold takeDoubleQuoted?
    cases blanks with
    | nil =>
      obtain rfl := hlast rfl
      obtain ⟨c₁, hread, hc₁⟩ :=
        takeDoubleWord?_escape hword ⟨'"', rest, rfl, .inr rfl⟩ hc hroom
      refine ⟨c₁.skip, ?_, hc₁.skip⟩
      simp [hc.atAnyMarker hn, hread, hc₁.rest_eq]
    | cons d blanks =>
      obtain rfl := hblanks d (by simp)
      obtain ⟨c₁, hread, hc₁⟩ :=
        takeDoubleWord?_escape hword ⟨' ', _, rfl, .inl rfl⟩ hc hroom
      have hwide : (' ' :: blanks).length ≤ c₁.rest.length + 1 := by
        simp only [hc₁.rest_eq, List.append_eq, List.length_cons, List.length_append]
        omega
      obtain ⟨c₂, hgap, hc₂⟩ := takeGap?_blanks 0 hblanks (noGapFirst_escape hmore) hc₁ hwide
      obtain ⟨c', htext, hc'⟩ := ih hc₂ (by simp at hfuel; omega)
      refine ⟨c', ?_, hc'⟩
      simp only [hc.atAnyMarker hn, hread, Bool.false_eq_true, if_false, Option.bind_eq_bind,
        Option.bind_some, Bool.not_false, Bool.true_and]
      rw [if_neg (by simp [hc₁.rest_eq]), if_neg (by simp [hc₁.rest_eq]), hgap]
      simp [htext, Gap.text]

end Cursor

/-! ## Between single quotes -/

/-- A text that single quotes keep: its characters are shown, and no blank stands next to a line
break. -/
structure Quotable (cs : List Char) : Prop where
  isShown : ∀ d ∈ cs, isShown d = true
  blankBreak : hasPair (fun c => c == ' ') isBreak cs = false
  breakBlank : hasPair isBreak (fun c => c == ' ') cs = false

theorem Quotable.append {cs ds : List Char} (h : Quotable (cs ++ ds)) :
    Quotable cs ∧ Quotable ds :=
  ⟨⟨fun d hd => h.isShown d (by simp [hd]), (hasPair_append h.blankBreak).1,
      (hasPair_append h.breakBlank).1⟩,
    ⟨fun d hd => h.isShown d (by simp [hd]), (hasPair_append h.blankBreak).2,
      (hasPair_append h.breakBlank).2⟩⟩

/-- A gap is made of blanks or of line breaks. -/
theorem Quotable.gap {gap : List Char} (h : Quotable gap) (hgap : ∀ d ∈ gap, isGap d = true) :
    (∀ d ∈ gap, d = ' ') ∨ ∀ d ∈ gap, isBreak d = true := by
  induction gap with
  | nil => simp
  | cons d gap ih =>
    have hd : d = ' ' ∨ isBreak d = true :=
      (isGap_iff.1 (hgap d (by simp))).imp_left (eq_space_of_isShown (h.isShown d (by simp)))
    cases gap with
    | nil => simpa using hd
    | cons e gap =>
      obtain ⟨-, hmore⟩ := (show Quotable ([d] ++ e :: gap) from h).append
      have hblankBreak := h.blankBreak
      have hbreakBlank := h.breakBlank
      simp only [hasPair, Bool.or_eq_false_iff, Bool.and_eq_false_iff, beq_eq_false_iff_ne]
        at hblankBreak hbreakBlank
      rcases ih hmore (fun d hd => hgap d (by simp [hd])) with hall | hall
      · refine .inl fun x hx => ?_
        rcases List.mem_cons.1 hx with rfl | hx
        · refine hd.resolve_right fun hb => ?_
          have := hall e (by simp)
          simp_all
        · exact hall x hx
      · refine .inr fun x hx => ?_
        rcases List.mem_cons.1 hx with rfl | hx
        · refine hd.resolve_left fun hb => ?_
          have := hall e (by simp)
          simp_all
        · exact hall x hx

namespace Cursor

open Page (quote)

variable {n : Nat} {c : Cursor} {rest : List Char}

/-- Before a text, a word between single quotes has come to its end. -/
def StopsSingle (rest : List Char) : Prop :=
  ∀ fuel c, c.rest = rest → takeSingleWord fuel c = ([], c)

theorem stopsSingle_gap {d : Char} (hd : isGap d = true) : StopsSingle (d :: rest) := by
  intro fuel c hc
  cases fuel with
  | zero => rfl
  | succ fuel =>
    have hq : d ≠ '\'' := by rintro rfl; exact absurd hd (by decide)
    unfold takeSingleWord
    rw [hc]
    rcases isGap_iff.1 hd with h | h <;> simp [h, hq]

theorem stopsSingle_quote (hrest : rest.head? ≠ some '\'') : StopsSingle ('\'' :: rest) := by
  intro fuel c hc
  cases fuel with
  | zero => rfl
  | succ fuel =>
    unfold takeSingleWord
    rw [hc]
    cases rest with
    | nil => simp
    | cons d rest =>
      have hd : d ≠ '\'' := by simpa using hrest
      simp [hd]

/-- A word between single quotes is read again. -/
theorem takeSingleWord_quote {fuel : Nat} {word : List Char} (hword : ∀ d ∈ word, isGap d = false)
    (hrest : StopsSingle rest) (hc : c.Inside n (word.flatMap quote ++ rest))
    (hfuel : word.length ≤ fuel) :
    ∃ c', takeSingleWord fuel c = (word, c') ∧ c'.Inside n rest := by
  induction word generalizing c fuel with
  | nil => exact ⟨c, hrest fuel c hc.rest_eq, hc⟩
  | cons d word ih =>
    cases fuel with
    | zero => simp at hfuel
    | succ fuel =>
      have hword' : ∀ d ∈ word, isGap d = false := fun e he => hword e (by simp [he])
      have hfuel' : word.length ≤ fuel := by simpa using hfuel
      have hd : isSpace d = false ∧ isBreak d = false := by
        simpa [isGap] using hword d (by simp)
      rw [List.flatMap_cons, List.append_assoc] at hc
      by_cases hq : d = '\''
      · subst hq
        obtain ⟨c', hmore, hc'⟩ := ih hword' (hc.skip (d := '\'')).skip hfuel'
        refine ⟨c', ?_, hc'⟩
        unfold takeSingleWord
        rw [hc.rest_eq]
        simp [quote, hmore]
      · simp only [quote, if_neg hq] at hc
        obtain ⟨c', hmore, hc'⟩ := ih hword' hc.skip hfuel'
        refine ⟨c', ?_, hc'⟩
        unfold takeSingleWord
        rw [hc.rest_eq]
        simp [hq, hd, hmore]

theorem flatMap_quote_blanks {blanks : List Char} (h : ∀ d ∈ blanks, d = ' ') :
    blanks.flatMap quote = blanks := by
  induction blanks with
  | nil => rfl
  | cons d blanks ih =>
    obtain rfl := h d (by simp)
    rw [List.flatMap_cons, ih fun d hd => h d (by simp [hd])]
    rfl

theorem length_le_flatMap_quote (cs : List Char) : cs.length ≤ (cs.flatMap quote).length := by
  induction cs with
  | nil => exact Nat.le_refl 0
  | cons d cs ih =>
    have hd : 0 < (quote d).length := List.length_pos_iff.2 (Page.quote_ne_nil d)
    rw [List.flatMap_cons, List.length_append, List.length_cons]
    omega

theorem noGapFirst_laid {k : Nat} {cs : List Char} (hcs : ∀ d ∈ cs.head?, isGap d = false) :
    NoGapFirst (laid k quote (List.replicate k ' ') false cs ++ '\'' :: rest) := by
  cases cs with
  | nil => simp [NoGapFirst, laid, isGap, isSpace, isBreak]
  | cons d cs =>
    have hd : isGap d = false := hcs d (by simp)
    have hb : isBreak d = false := by
      simp only [isGap, Bool.or_eq_false_iff] at hd
      exact hd.2
    by_cases hq : d = '\''
    · simp [NoGapFirst, laid, quote, hq, isGap, isSpace, isBreak]
    · simp [NoGapFirst, laid, quote, hq, hb, hd]

/-- Behind line breaks, a text goes on after the indentation. -/
theorem laid_after_breaks {k : Nat} {cs : List Char} (hcs : ∀ d ∈ cs.head?, isGap d = false) :
    laid k quote (List.replicate k ' ') true cs =
      List.replicate k ' ' ++ laid k quote (List.replicate k ' ') false cs := by
  cases cs with
  | nil => simp [laid]
  | cons d cs =>
    have hd : isGap d = false := hcs d (by simp)
    simp only [isGap, Bool.or_eq_false_iff] at hd
    exact laid_indented hd.2

/-- A gap between single quotes counts for itself. -/
theorem takeGap?_laid {fuel k : Nat} {gap more : List Char} (hk : 0 < k) (hq : Quotable gap)
    (hline : '\n' ∉ gap) (hgap : ∀ d ∈ gap, isGap d = true) (hne : gap ≠ [])
    (hmore : ∀ d ∈ more.head?, isGap d = false)
    (hc : c.Inside 1 (laid k quote (List.replicate k ' ') false (gap ++ more) ++ '\'' :: rest))
    (hfuel : c.rest.length ≤ fuel) :
    ∃ g c', takeGap? 0 fuel false c = some (g, c') ∧ g.text = gap ∧
      c'.Inside 1 (laid k quote (List.replicate k ' ') false more ++ '\'' :: rest) := by
  rcases hq.gap hgap with hblanks | hbreaks
  · have hword : ∀ d ∈ gap, isBreak d = false := fun d hd => by rw [hblanks d hd]; rfl
    rw [laid_word hword, flatMap_quote_blanks hblanks, List.append_assoc] at hc
    have hroom : gap.length ≤ fuel := by
      rw [hc.rest_eq, List.length_append] at hfuel
      omega
    obtain ⟨c', htake, hc'⟩ := takeGap?_blanks 0 hblanks (noGapFirst_laid hmore) hc hroom
    exact ⟨_, c', htake, rfl, hc'⟩
  · rw [laid_breaks hbreaks (.inl hne), laid_after_breaks hmore] at hc
    simp only [List.append_assoc] at hc
    have hroom : gap.length + k ≤ fuel := by
      rw [hc.rest_eq] at hfuel
      simp only [List.length_append, List.length_replicate] at hfuel
      omega
    obtain ⟨c', htake, hr, hcolumn⟩ := takeGap?_breaks 0 false
      (fun d hd => ⟨hq.isShown d hd, hbreaks d hd⟩) hne (noGapFirst_laid hmore) hc.rest_eq hroom
    refine ⟨_, c', htake, ?_, hr, by omega⟩
    cases gap with
    | nil => exact absurd rfl hne
    | cons d gap =>
      have hd : d ≠ '\n' := fun h => hline (by simp [h])
      unfold Gap.text
      split <;> simp_all

/-- A text between single quotes is read again. -/
theorem takeSingleQuoted?_laid {fuel k : Nat} {cs : List Char} (hk : 0 < k) (hcs : Quotable cs)
    (hline : '\n' ∉ cs) (hrest : rest.head? ≠ some '\'')
    (hc : c.Inside 1 (laid k quote (List.replicate k ' ') false cs ++ '\'' :: rest))
    (hfuel : cs.length < fuel) :
    ∃ c', takeSingleQuoted? fuel c = some (cs, c') ∧ c'.Inside 1 rest := by
  induction fuel generalizing c cs with
  | zero => simp at hfuel
  | succ fuel ih =>
    obtain ⟨word, gap, more, rfl, hword, hgap, hmore, hlast⟩ := exists_word isGap cs
    obtain ⟨hqgap, hqmore⟩ := hcs.append.2.append
    simp only [List.mem_append, not_or] at hline
    rw [laid_word fun d hd => (Bool.or_eq_false_iff.1 (hword d hd)).2, List.append_assoc] at hc
    have hroom : word.length ≤ c.rest.length + 1 := by
      have := length_le_flatMap_quote word
      rw [hc.rest_eq, List.length_append]
      omega
    unfold takeSingleQuoted?
    rw [hc.atAnyMarker (by omega)]
    cases gap with
    | nil =>
      obtain rfl := hlast rfl
      obtain ⟨c₁, hread, hc₁⟩ :=
        takeSingleWord_quote hword (stopsSingle_quote hrest) hc hroom
      refine ⟨c₁.skip, ?_, hc₁.skip⟩
      simp [hread, hc₁.rest_eq]
    | cons d gap =>
      have hd : isGap d = true := hgap d (by simp)
      have hdq : d ≠ '\'' := by rintro rfl; exact absurd hd (by decide)
      obtain ⟨tail, htail⟩ : ∃ tail, laid k quote (List.replicate k ' ') false
          (d :: gap ++ more) ++ '\'' :: rest = d :: tail := by
        by_cases hb : isBreak d = true <;> simp [laid, hb, quote, hdq]
      obtain ⟨c₁, hread, hc₁⟩ :=
        takeSingleWord_quote hword (htail ▸ stopsSingle_gap hd) hc hroom
      obtain ⟨g, c₂, htake, hg, hc₂⟩ :=
        takeGap?_laid hk hqgap hline.2.1 hgap (by simp) hmore hc₁ (Nat.le_succ c₁.rest.length)
      obtain ⟨c', htext, hc'⟩ := ih hqmore hline.2.2 hc₂ (by simp at hfuel; omega)
      refine ⟨c', ?_, hc'⟩
      have hr := hc₁.rest_eq.trans htail
      rw [hr, List.length_cons] at htake
      simp [hread, hr, hdq, htake, htext, hg]

end Cursor

end SessionGuard.Yaml
