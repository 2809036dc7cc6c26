import SessionGuard.Proofs.Json.Reading

/-!
# Nothing but the grammar is read

Each token that the reader takes off a text is one of the grammar, and the rest of the text is left
(`Fronts`).  So, step by step, is each value (`sound`), and a text that is read is one of the grammar
(`exists_spells_of_read?`).
-/

namespace SessionGuard.Json.Raw

open SessionGuard.Text (Received)

variable {cs : List Char} {rest : Received} {fuel : Nat}

/-- A front with a property is taken off a text, and the rest is left. -/
def Fronts (P : List Char → Prop) (cs : List Char) (rest : Received) : Prop :=
  ∃ front behind, P front ∧ cs = front ++ behind ∧ rest = behind.map some

theorem exists_of_map_eq_append (front : List Char) (h : cs.map some = front.map some ++ rest) :
    ∃ behind, cs = front ++ behind ∧ rest = behind.map some := by
  obtain ⟨front', behind, rfl, hfront, hrest⟩ := List.map_eq_append_iff.1 h
  obtain rfl := (List.map_inj_right fun _ _ => Option.some.inj).1 hfront
  exact ⟨behind, rfl, hrest.symm⟩

theorem exists_of_map_eq_cons {c : Char} (h : cs.map some = some c :: rest) :
    ∃ behind, cs = c :: behind ∧ rest = behind.map some :=
  exists_of_map_eq_append [c] h

/-! ## Blanks and numbers -/

theorem fronts_skipBlanks (cs : List Char) : Fronts IsGap cs (skipBlanks (cs.map some)) := by
  induction cs with
  | nil => exact ⟨[], [], isGap_nil, rfl, rfl⟩
  | cons c cs ih =>
    rw [List.map_cons, skipBlanks]
    split
    · next hc =>
      obtain ⟨gap, behind, hgap, rfl, hrest⟩ := ih
      refine ⟨c :: gap, behind, fun d hd => ?_, rfl, hrest⟩
      rcases List.mem_cons.1 hd with rfl | hd
      · simpa [or_assoc] using hc
      · exact hgap d hd
    · exact ⟨[], c :: cs, isGap_nil, rfl, rfl⟩

theorem fronts_takeDigits (cs : List Char) :
    Fronts (fun front => front = (takeDigits (cs.map some)).1 ∧ ∀ d ∈ front, d.isDigit = true) cs
      (takeDigits (cs.map some)).2 := by
  induction cs with
  | nil => exact ⟨[], [], ⟨rfl, by simp⟩, rfl, rfl⟩
  | cons c cs ih =>
    rw [List.map_cons, takeDigits]
    split
    · next hc =>
      obtain ⟨front, behind, ⟨hfront, hall⟩, hcs, hrest⟩ := ih
      refine ⟨c :: front, behind, ⟨by rw [hfront], fun d hd => ?_⟩, by rw [hcs]; rfl, hrest⟩
      rcases List.mem_cons.1 hd with rfl | hd
      · exact hc
      · exact hall d hd
    · exact ⟨[], c :: cs, ⟨rfl, by simp⟩, rfl, rfl⟩

/-- Digits are taken as one digit or more. -/
theorem fronts_of_takeDigits {ds : List Char} (h : takeDigits (cs.map some) = (ds, rest))
    (hne : ds ≠ []) : Fronts (fun front => front = ds ∧ IsDigits ds) cs rest := by
  obtain ⟨front, behind, ⟨hfront, hall⟩, hcs, hrest⟩ := fronts_takeDigits cs
  rw [h] at hfront hrest
  simp only at hfront
  subst hfront
  exact ⟨front, behind, ⟨rfl, hne, hall⟩, hcs, hrest⟩

theorem fronts_of_takeWhole? {ds : List Char} (h : takeWhole? (cs.map some) = some (ds, rest)) :
    Fronts (fun front => front = ds ∧ IsDigits ds ∧ (ds.head? = some '0' → ds = ['0'])) cs rest := by
  unfold takeWhole? at h
  split at h
  · cases h
  · cases h
  · next ds' rest' hempty hzero htake =>
    cases h
    obtain ⟨front, behind, ⟨hfront, hdigits⟩, hcs, hrest⟩ := fronts_of_takeDigits htake hempty
    refine ⟨front, behind, ⟨hfront, hdigits, fun hhead => ?_⟩, hcs, hrest⟩
    rcases ds with _ | ⟨d, _ | ⟨d', ds⟩⟩
    · cases hhead
    · simpa using hhead
    · obtain rfl : d = '0' := by simpa using hhead
      exact (hzero d' ds rfl).elim

theorem fronts_of_takeFraction? {fraction : Option (List Char)}
    (h : takeFraction? (cs.map some) = some (fraction, rest)) :
    Fronts (Fraction fraction) cs rest := by
  unfold takeFraction? at h
  split at h
  · next after hdot =>
    obtain ⟨cs, rfl, rfl⟩ := exists_of_map_eq_cons hdot
    split at h
    · cases h
    · next ds rest' hempty htake =>
      cases h
      obtain ⟨front, behind, ⟨rfl, hdigits⟩, rfl, hrest⟩ := fronts_of_takeDigits htake hempty
      exact ⟨'.' :: front, behind, .some hdigits, rfl, hrest⟩
  · cases h
    exact ⟨[], cs, .none, rfl, rfl⟩

theorem fronts_of_takeExponent? {exponent : Option (Bool × List Char)}
    (h : takeExponent? (cs.map some) = some (exponent, rest)) :
    Fronts (Exponent exponent) cs rest := by
  cases cs with
  | nil =>
    cases h
    exact ⟨[], [], .none, rfl, rfl⟩
  | cons e cs =>
    unfold takeExponent? at h
    simp only [List.map_cons] at h
    split at h
    · next he =>
      have he : e = 'e' ∨ e = 'E' := by simpa using he
      split at h
      · cases h
      · next ds rest' hempty htake =>
        cases h
        split at htake
        · next after hsign =>
          obtain ⟨cs, rfl, rfl⟩ := exists_of_map_eq_cons hsign
          obtain ⟨front, behind, ⟨rfl, hdigits⟩, rfl, hrest⟩ := fronts_of_takeDigits htake hempty
          exact ⟨e :: '-' :: front, behind, .minus he hdigits, rfl, hrest⟩
        · next after hsign =>
          obtain ⟨cs, rfl, rfl⟩ := exists_of_map_eq_cons hsign
          obtain ⟨front, behind, ⟨rfl, hdigits⟩, rfl, hrest⟩ := fronts_of_takeDigits htake hempty
          exact ⟨e :: '+' :: front, behind, .plus he hdigits, rfl, hrest⟩
        · obtain ⟨front, behind, ⟨rfl, hdigits⟩, rfl, hrest⟩ := fronts_of_takeDigits htake hempty
          exact ⟨e :: front, behind, .bare he hdigits, rfl, hrest⟩
    · cases h
      exact ⟨[], e :: cs, .none, rfl, rfl⟩

/-- What is taken behind a sign is the rest of a number. -/
theorem fronts_of_takeNumber? {negative : Bool} {n : Numeral}
    (h : takeNumber? negative (cs.map some) = some (n, rest)) :
    Fronts (fun front => n.Spells ((if negative then ['-'] else []) ++ front)) cs rest := by
  simp only [takeNumber?, Option.bind_eq_bind, Option.bind_eq_some_iff, Prod.exists,
    Option.some.injEq, Prod.mk.injEq] at h
  obtain ⟨whole, _, hwhole, fraction, _, hfraction, exponent, _, hexponent, rfl, rfl⟩ := h
  obtain ⟨ws, cs₁, ⟨hws, hdigits, hzero⟩, rfl, rfl⟩ := fronts_of_takeWhole? hwhole
  obtain ⟨fs, cs₂, hfs, rfl, rfl⟩ := fronts_of_takeFraction? hfraction
  obtain ⟨es, cs₃, hes, rfl, hrest⟩ := fronts_of_takeExponent? hexponent
  subst hws
  exact ⟨ws ++ (fs ++ es), cs₃, ⟨hdigits, hzero, fs, es, hfs, hes, rfl⟩,
    by simp only [List.append_assoc], hrest⟩

/-! ## Strings -/

theorem hexDigit_of_isHex {c : Char} (h : isHex c = true) : HexDigit c (hexValue c) := by
  have hsmall : c.toNat < 128 := by
    simp only [isHex, Char.isDigit, Char.le_def, UInt32.le_iff_toNat_le, Bool.or_eq_true,
      Bool.and_eq_true, decide_eq_true_eq] at h
    have hnat : c.val.toNat = c.toNat := rfl
    have hbounds : '9'.val.toNat < 128 ∧ 'f'.val.toNat < 128 ∧ 'F'.val.toNat < 128 := by decide
    omega
  have hall : ∀ k < 128, isHex (Char.ofNat k) = true →
      "0123456789abcdef".toList[hexValue (Char.ofNat k)]? = some (Char.ofNat k) ∨
        "0123456789ABCDEF".toList[hexValue (Char.ofNat k)]? = some (Char.ofNat k) := by decide
  have hdigit := hall c.toNat hsmall
  rw [Char.ofNat_toNat] at hdigit
  exact hdigit h

theorem hex4_of_isHex {a b c d : Char} (h : (isHex a && isHex b && isHex c && isHex d) = true) :
    Hex4 a b c d (hexNumber a b c d) := by
  simp only [Bool.and_eq_true] at h
  obtain ⟨⟨⟨ha, hb⟩, hc⟩, hd⟩ := h
  exact ⟨_, _, _, _, hexDigit_of_isHex ha, hexDigit_of_isHex hb, hexDigit_of_isHex hc,
    hexDigit_of_isHex hd, rfl⟩

theorem mem_shortEscapes {c : Char} (h : c ∈ ['"', '\\', '/', 'b', 'f', 'n', 'r', 't']) :
    (c, unescaped c) ∈ shortEscapes := by
  simp only [List.mem_cons, List.not_mem_nil, or_false] at h
  rcases h with rfl | rfl | rfl | rfl | rfl | rfl | rfl | rfl <;> decide

/-- What is taken up to a quote is the inside of a string. -/
theorem fronts_of_takeString? {written : Received}
    (h : takeString? (cs.map some) = some (written, rest)) :
    Fronts (fun front => ∃ inside, front = inside ++ ['"'] ∧ Inside inside ∧
      written = inside.map some) cs rest := by
  generalize hr : cs.map some = r at h
  fun_induction takeString? r generalizing cs written rest with
  | case1 =>
    cases h
    obtain ⟨behind, rfl, hrest⟩ := exists_of_map_eq_cons hr
    exact ⟨['"'], behind, ⟨[], rfl, .nil, rfl⟩, rfl, hrest⟩
  | case2 a b c d after hhex ih =>
    obtain ⟨⟨written, _⟩, htake, ⟨⟩⟩ := Option.map_eq_some_iff.1 h
    obtain ⟨cs, rfl, hafter⟩ := exists_of_map_eq_append ['\\', 'u', a, b, c, d] hr
    obtain ⟨_, behind, ⟨inside, rfl, hinside, rfl⟩, rfl, hrest⟩ := ih hafter.symm htake
    exact ⟨'\\' :: 'u' :: a :: b :: c :: d :: (inside ++ ['"']), behind,
      ⟨_, rfl, .number (hex4_of_isHex hhex) hinside, rfl⟩, rfl, hrest⟩
  | case4 c after _ hc ih =>
    obtain ⟨⟨written, _⟩, htake, ⟨⟩⟩ := Option.map_eq_some_iff.1 h
    obtain ⟨cs, rfl, hafter⟩ := exists_of_map_eq_append ['\\', c] hr
    obtain ⟨_, behind, ⟨inside, rfl, hinside, rfl⟩, rfl, hrest⟩ := ih hafter.symm htake
    exact ⟨'\\' :: c :: (inside ++ ['"']), behind,
      ⟨_, rfl, .short (mem_shortEscapes hc) hinside, rfl⟩, rfl, hrest⟩
  | case7 c after hquote _ _ hc ih =>
    obtain ⟨⟨written, _⟩, htake, ⟨⟩⟩ := Option.map_eq_some_iff.1 h
    obtain ⟨cs, rfl, hafter⟩ := exists_of_map_eq_cons hr
    obtain ⟨_, behind, ⟨inside, rfl, hinside, rfl⟩, rfl, hrest⟩ := ih hafter.symm htake
    simp only [Bool.or_eq_true, decide_eq_true_eq, not_or, Nat.not_lt] at hc
    exact ⟨c :: (inside ++ ['"']), behind, ⟨_, rfl, .plain ⟨hc.1, hquote, hc.2⟩ hinside, rfl⟩, rfl,
      hrest⟩
  | case8 =>
    obtain ⟨_, _, _, hc, _⟩ := List.map_eq_cons_iff.1 hr
    cases hc
  | case3 | case5 | case6 | case9 => cases h

theorem inside_number {a b c d : Char} (h : Inside ('\\' :: 'u' :: a :: b :: c :: d :: cs)) :
    Hex4 a b c d (hexNumber a b c d) ∧ Inside cs := by
  cases h with
  | plain hc => exact absurd rfl hc.noBackslash
  | short he => exact absurd rfl (unescaped_of_mem he).2.1
  | number hn h => exact ⟨(hexNumber_of_hex4 hn).2.1 ▸ hn, h⟩

theorem toNat_ofNat_of_valid {n : Nat} (h : n < 0xD800 ∨ 0xE000 ≤ n ∧ n < 0x110000) :
    (Char.ofNat n).toNat = n := by
  have hvalid : n.isValidChar := h.imp_right fun h => ⟨by omega, h.2⟩
  rw [Char.ofNat, dif_pos hvalid]
  rfl

/-- A text that is read out of a string is one that the string stands for. -/
theorem writes_of_decodeChars? {text : List Char} (hcs : Inside cs)
    (h : decodeChars? (cs.map some) = some text) : Writes text cs := by
  generalize hr : cs.map some = r at h
  fun_induction decodeChars? r generalizing cs text with
  | case1 a b c d after n hn =>
    rename_i ih
    obtain ⟨text, htext, rfl⟩ := Option.map_eq_some_iff.1 h
    obtain ⟨cs, rfl, hafter⟩ := exists_of_map_eq_append ['\\', 'u', a, b, c, d] hr
    obtain ⟨hhex, hinside⟩ := inside_number hcs
    have hbound := (hexNumber_of_hex4 hhex).2.2
    have hchar : (Char.ofNat n).toNat = n := by
      refine toNat_ofNat_of_valid ?_
      simp only [Bool.or_eq_true, decide_eq_true_eq] at hn
      exact hn.imp_right fun hn => ⟨hn, by omega⟩
    exact .number (hchar.symm ▸ hhex) (ih hinside hafter.symm htext)
  | case3 a b c d n hn hhigh a' b' c' d' after m =>
    rename_i hm ih
    obtain ⟨text, htext, rfl⟩ := Option.map_eq_some_iff.1 h
    obtain ⟨cs, rfl, hafter⟩ := exists_of_map_eq_append
      ['\\', 'u', a, b, c, d, '\\', 'u', a', b', c', d'] hr
    obtain ⟨hhex, hinside⟩ := inside_number hcs
    obtain ⟨hhex', hinside⟩ := inside_number hinside
    simp only [Bool.or_eq_true, Bool.and_eq_true, decide_eq_true_eq, not_or] at hn hm
    have hchar : (Char.ofNat (0x10000 + (n - 0xD800) * 0x400 + (m - 0xDC00))).toNat =
        0x10000 + ((n - 0xD800) * 0x400 + (m - 0xDC00)) := by
      rw [toNat_ofNat_of_valid (by omega), Nat.add_assoc]
    refine .halves hchar ?_ ?_ (ih hinside hafter.symm htext)
    · have hback : 0xD800 + ((n - 0xD800) * 0x400 + (m - 0xDC00)) / 0x400 = n := by omega
      exact hback.symm ▸ hhex
    · have hback : 0xDC00 + ((n - 0xD800) * 0x400 + (m - 0xDC00)) % 0x400 = m := by omega
      exact hback.symm ▸ hhex'
  | case6 c after hnumber ih =>
    obtain ⟨text, htext, rfl⟩ := Option.map_eq_some_iff.1 h
    obtain ⟨cs, rfl, hafter⟩ := exists_of_map_eq_append ['\\', c] hr
    cases hcs with
    | plain hc => exact absurd rfl hc.noBackslash
    | short he hinside =>
      rw [(unescaped_of_mem he).2.2]
      exact .short he (ih hinside hafter.symm htext)
    | number => exact (hnumber _ _ _ _ _ hafter rfl).elim
  | case7 c after _ hescape ih =>
    obtain ⟨text, htext, rfl⟩ := Option.map_eq_some_iff.1 h
    obtain ⟨cs, rfl, hafter⟩ := exists_of_map_eq_cons hr
    cases hcs with
    | plain hc hinside => exact .plain hc (ih hinside hafter.symm htext)
    | short | number => exact (hescape _ _ hafter rfl).elim
  | case9 =>
    cases h
    obtain rfl := List.map_eq_nil_iff.1 hr
    exact .nil
  | case2 | case4 | case5 | case8 => cases h

/-- What is read out of the inside of a string is denoted by it. -/
theorem denotes_of_decode? {text : String} (hcs : Inside cs)
    (h : decode? (cs.map some) = some text) : Denotes (cs.map some) text := by
  obtain ⟨chars, hchars, rfl⟩ := Option.map_eq_some_iff.1 h
  exact ⟨cs, rfl, by simpa using writes_of_decodeChars? hcs hchars⟩

/-! ## Values -/

theorem fronts_of_takeWord? {word : List Char} (h : takeWord? word (cs.map some) = some rest) :
    Fronts (· = word) cs rest := by
  induction word generalizing cs with
  | nil =>
    cases h
    exact ⟨[], cs, rfl, rfl, rfl⟩
  | cons c word ih =>
    cases cs with
    | nil => cases h
    | cons d cs =>
      rw [List.map_cons, takeWord?] at h
      split at h
      · next hcd =>
        obtain ⟨front, behind, hfront, rfl, hrest⟩ := ih h
        exact ⟨d :: front, behind, by rw [hcd, hfront], rfl, hrest⟩
      · cases h

/-- A value behind blanks is taken off a text. -/
def IsValue (v : Raw) (front : List Char) : Prop :=
  ∃ gap cs, IsGap gap ∧ Spells (.value v) cs ∧ front = gap ++ cs

theorem isGap_append {gap gap' : List Char} (h : IsGap gap) (h' : IsGap gap') :
    IsGap (gap ++ gap') := by
  intro c hc
  rcases List.mem_append.1 hc with hc | hc
  · exact h c hc
  · exact h' c hc

theorem spells_members_gap {ms : List (Received × Raw)} {gap : List Char} (hgap : IsGap gap)
    (h : Spells (.members ms) cs) : Spells (.members ms) (gap ++ cs) := by
  cases h with
  | noMember hgap' =>
    rw [← List.append_assoc]
    exact .noMember (isGap_append hgap hgap')
  | member hgap' hkey hgap₁ hgap₂ hv hms =>
    rw [← List.append_assoc]
    exact .member (isGap_append hgap hgap') hkey hgap₁ hgap₂ hv hms

/-- What the reader takes off a text with so much fuel is of the grammar. -/
structure Sound (fuel : Nat) : Prop where
  value : ∀ {cs v rest}, takeValue? fuel (cs.map some) = some (v, rest) →
    Fronts (IsValue v) cs rest
  items : ∀ {first cs vs rest}, takeItems? fuel first (cs.map some) = some (vs, rest) →
    Fronts (Spells (if first then .items vs else .moreItems vs)) cs rest
  members : ∀ {first cs ms rest}, takeMembers? fuel first (cs.map some) = some (ms, rest) →
    Fronts (Spells (if first then .members ms else .moreMembers ms)) cs rest
  member : ∀ {cs ms rest}, takeMember? fuel (cs.map some) = some (ms, rest) →
    Fronts (fun front => ms ≠ [] ∧ Spells (.members ms) front) cs rest

theorem Sound.takeValue? (ih : Sound fuel) {v : Raw}
    (h : Raw.takeValue? (fuel + 1) (cs.map some) = some (v, rest)) :
    Fronts (IsValue v) cs rest := by
  obtain ⟨gap, behind, hgap, rfl, hskip⟩ := fronts_skipBlanks cs
  -- Behind the blanks it is enough that the front of the text is a value.
  suffices hvalue : Fronts (Spells (.value v)) behind rest by
    obtain ⟨front, behind, hspells, rfl, hrest⟩ := hvalue
    exact ⟨gap ++ front, behind, ⟨gap, front, hgap, hspells, rfl⟩, by rw [List.append_assoc], hrest⟩
  rw [Raw.takeValue?, hskip] at h
  split at h
  · next hhead =>
    obtain ⟨cs, rfl, rfl⟩ := exists_of_map_eq_cons hhead
    obtain ⟨⟨written, _⟩, htake, ⟨⟩⟩ := Option.map_eq_some_iff.1 h
    obtain ⟨_, behind, ⟨inside, rfl, hinside, rfl⟩, rfl, hrest⟩ := fronts_of_takeString? htake
    exact ⟨'"' :: (inside ++ ['"']), behind, .string hinside, rfl, hrest⟩
  · next hhead =>
    obtain ⟨cs, rfl, rfl⟩ := exists_of_map_eq_cons hhead
    obtain ⟨⟨vs, _⟩, htake, ⟨⟩⟩ := Option.map_eq_some_iff.1 h
    obtain ⟨front, behind, hitems, rfl, hrest⟩ := ih.items htake
    exact ⟨'[' :: front, behind, .array hitems, rfl, hrest⟩
  · next hhead =>
    obtain ⟨cs, rfl, rfl⟩ := exists_of_map_eq_cons hhead
    obtain ⟨⟨ms, _⟩, htake, ⟨⟩⟩ := Option.map_eq_some_iff.1 h
    obtain ⟨front, behind, hmembers, rfl, hrest⟩ := ih.members htake
    exact ⟨'{' :: front, behind, .object hmembers, rfl, hrest⟩
  · next hhead =>
    obtain ⟨cs, rfl, rfl⟩ := exists_of_map_eq_cons hhead
    obtain ⟨_, htake, ⟨⟩⟩ := Option.map_eq_some_iff.1 h
    obtain ⟨_, behind, rfl, rfl, hrest⟩ := fronts_of_takeWord? htake
    exact ⟨_, behind, .null, rfl, hrest⟩
  · next hhead =>
    obtain ⟨cs, rfl, rfl⟩ := exists_of_map_eq_cons hhead
    obtain ⟨_, htake, ⟨⟩⟩ := Option.map_eq_some_iff.1 h
    obtain ⟨_, behind, rfl, rfl, hrest⟩ := fronts_of_takeWord? htake
    exact ⟨_, behind, .true, rfl, hrest⟩
  · next hhead =>
    obtain ⟨cs, rfl, rfl⟩ := exists_of_map_eq_cons hhead
    obtain ⟨_, htake, ⟨⟩⟩ := Option.map_eq_some_iff.1 h
    obtain ⟨_, behind, rfl, rfl, hrest⟩ := fronts_of_takeWord? htake
    exact ⟨_, behind, .false, rfl, hrest⟩
  · next hhead =>
    obtain ⟨cs, rfl, rfl⟩ := exists_of_map_eq_cons hhead
    obtain ⟨⟨n, _⟩, htake, ⟨⟩⟩ := Option.map_eq_some_iff.1 h
    obtain ⟨front, behind, hn, rfl, hrest⟩ := fronts_of_takeNumber? htake
    exact ⟨'-' :: front, behind, .number hn, rfl, hrest⟩
  · obtain ⟨⟨n, _⟩, htake, ⟨⟩⟩ := Option.map_eq_some_iff.1 h
    obtain ⟨front, behind, hn, rfl, hrest⟩ := fronts_of_takeNumber? htake
    exact ⟨front, behind, .number hn, rfl, hrest⟩

theorem Sound.takeItems? (ih : Sound fuel) {first : Bool} {vs : List Raw}
    (h : Raw.takeItems? (fuel + 1) first (cs.map some) = some (vs, rest)) :
    Fronts (Spells (if first then .items vs else .moreItems vs)) cs rest := by
  obtain ⟨gap, behind, hgap, rfl, hskip⟩ := fronts_skipBlanks cs
  have hend : Spells (if first then .items [] else .moreItems []) (gap ++ [']']) := by
    cases first
    · exact .endItems hgap
    · exact .noItem hgap
  unfold Raw.takeItems? at h
  rw [hskip] at h
  split at h
  · next hhead =>
    cases h
    obtain ⟨cs, rfl, rfl⟩ := exists_of_map_eq_cons hhead
    exact ⟨gap ++ [']'], cs, hend, by simp, rfl⟩
  · simp only [Option.bind_eq_bind, Option.bind_eq_some_iff, Prod.exists, Option.some.injEq,
      Prod.mk.injEq] at h
    obtain ⟨v, _, hv, vs, _, hvs, rfl, rfl⟩ := h
    obtain ⟨_, behind, ⟨gap', ds, hgap', hds, rfl⟩, rfl, rfl⟩ := ih.value hv
    obtain ⟨es, behind, hes, rfl, hrest⟩ := ih.items hvs
    exact ⟨(gap ++ gap') ++ (ds ++ es), behind, .item (isGap_append hgap hgap') hds hes,
      by simp only [List.append_assoc], hrest⟩
  · next hhead =>
    obtain ⟨cs, rfl, rfl⟩ := exists_of_map_eq_cons hhead
    simp only [Option.bind_eq_bind, Option.bind_eq_some_iff, Prod.exists, Option.some.injEq,
      Prod.mk.injEq] at h
    obtain ⟨v, _, hv, vs, _, hvs, rfl, rfl⟩ := h
    obtain ⟨_, behind, ⟨gap', ds, hgap', hds, rfl⟩, rfl, rfl⟩ := ih.value hv
    obtain ⟨es, behind, hes, rfl, hrest⟩ := ih.items hvs
    exact ⟨gap ++ ',' :: (gap' ++ (ds ++ es)), behind,
      .nextItem hgap (by simp) (.item hgap' hds hes), by simp, hrest⟩
  · cases h

theorem Sound.takeMembers? (ih : Sound fuel) {first : Bool} {ms : List (Received × Raw)}
    (h : Raw.takeMembers? (fuel + 1) first (cs.map some) = some (ms, rest)) :
    Fronts (Spells (if first then .members ms else .moreMembers ms)) cs rest := by
  obtain ⟨gap, behind, hgap, rfl, hskip⟩ := fronts_skipBlanks cs
  have hend : Spells (if first then .members [] else .moreMembers []) (gap ++ ['}']) := by
    cases first
    · exact .endMembers hgap
    · exact .noMember hgap
  unfold Raw.takeMembers? at h
  rw [hskip] at h
  split at h
  · next hhead =>
    cases h
    obtain ⟨cs, rfl, rfl⟩ := exists_of_map_eq_cons hhead
    exact ⟨gap ++ ['}'], cs, hend, by simp, rfl⟩
  · obtain ⟨front, behind, ⟨-, hms⟩, rfl, hrest⟩ := ih.member h
    exact ⟨gap ++ front, behind, spells_members_gap hgap hms, by rw [List.append_assoc], hrest⟩
  · next hhead =>
    obtain ⟨cs, rfl, rfl⟩ := exists_of_map_eq_cons hhead
    obtain ⟨gap', behind, hgap', rfl, hskip'⟩ := fronts_skipBlanks cs
    rw [hskip'] at h
    obtain ⟨front, behind, ⟨hne, hms⟩, rfl, hrest⟩ := ih.member h
    exact ⟨gap ++ ',' :: (gap' ++ front), behind,
      .nextMember hgap hne (spells_members_gap hgap' hms), by simp, hrest⟩
  · cases h

theorem Sound.takeMember? (ih : Sound fuel) {ms : List (Received × Raw)}
    (h : Raw.takeMember? (fuel + 1) (cs.map some) = some (ms, rest)) :
    Fronts (fun front => ms ≠ [] ∧ Spells (.members ms) front) cs rest := by
  unfold Raw.takeMember? at h
  split at h
  · next hhead =>
    obtain ⟨cs, rfl, rfl⟩ := exists_of_map_eq_cons hhead
    simp only [Option.bind_eq_bind, Option.bind_eq_some_iff, Prod.exists] at h
    obtain ⟨key, _, hkey, h⟩ := h
    obtain ⟨_, behind, ⟨inside, rfl, hinside, rfl⟩, rfl, rfl⟩ := fronts_of_takeString? hkey
    obtain ⟨gap, behind, hgap, rfl, hskip⟩ := fronts_skipBlanks behind
    rw [hskip] at h
    split at h
    · next hcolon =>
      obtain ⟨cs, rfl, rfl⟩ := exists_of_map_eq_cons hcolon
      simp only [Option.bind_eq_some_iff, Prod.exists, Option.some.injEq, Prod.mk.injEq] at h
      obtain ⟨v, _, hv, ms, _, hms, rfl, rfl⟩ := h
      obtain ⟨_, behind, ⟨gap', ds, hgap', hds, rfl⟩, rfl, rfl⟩ := ih.value hv
      obtain ⟨es, behind, hes, rfl, hrest⟩ := ih.members hms
      exact ⟨[] ++ '"' :: (inside ++ '"' :: (gap ++ ':' :: (gap' ++ (ds ++ es)))), behind,
        ⟨by simp, .member isGap_nil hinside hgap hgap' hds hes⟩, by simp, hrest⟩
    · cases h
  · cases h

theorem sound (fuel : Nat) : Sound fuel := by
  induction fuel with
  | zero =>
    refine ⟨?_, ?_, ?_, ?_⟩ <;> intros <;> rename_i h <;>
      simp [Raw.takeValue?, Raw.takeItems?, Raw.takeMembers?, Raw.takeMember?] at h
  | succ fuel ih => exact ⟨ih.takeValue?, ih.takeItems?, ih.takeMembers?, ih.takeMember?⟩

/-- A text that is read is a value between blanks. -/
theorem exists_spells_of_read? {v : Raw} (h : read? (cs.map some) = some v) :
    ∃ gap ds gap', IsGap gap ∧ Spells (.value v) ds ∧ IsGap gap' ∧ cs = gap ++ (ds ++ gap') := by
  unfold read? at h
  split at h
  · next v' rest htake =>
    obtain ⟨_, behind, ⟨gap, ds, hgap, hds, rfl⟩, rfl, rfl⟩ := (sound _).value htake
    obtain ⟨gap', end', hgap', rfl, hskip⟩ := fronts_skipBlanks behind
    split at h
    · next hempty =>
      cases h
      rw [hskip] at hempty
      obtain rfl : end' = [] := by simpa using hempty
      exact ⟨gap, ds, gap', hgap, hds, hgap', by simp⟩
    · cases h
  · cases h

/-! ## Parts of values -/

/-- The items that a piece of a text holds. -/
def itemsOf : Piece → List Raw
  | .items vs | .moreItems vs => vs
  | _ => []

/-- The members that a piece of a text holds. -/
def membersOf : Piece → List (Received × Raw)
  | .members ms | .moreMembers ms => ms
  | _ => []

/-- The items of an array are values of the grammar. -/
theorem spells_of_mem_items {piece : Piece} (h : Spells piece cs) :
    ∀ v ∈ itemsOf piece, ∃ ds, Spells (.value v) ds := by
  induction h with
  | item _ hv _ _ ih =>
    intro w hw
    rcases List.mem_cons.1 hw with rfl | hw
    · exact ⟨_, hv⟩
    · exact ih w hw
  | nextItem _ _ _ ih => exact ih
  | _ => simp [itemsOf]

/-- The members of an object have the inside of a string and a value of the grammar. -/
theorem spells_of_mem_members {piece : Piece} (h : Spells piece cs) :
    ∀ m ∈ membersOf piece, (∃ key, Inside key ∧ m.1 = key.map some) ∧
      ∃ ds, Spells (.value m.2) ds := by
  induction h with
  | member _ hkey _ _ hv _ _ ih =>
    intro m hm
    rcases List.mem_cons.1 hm with rfl | hm
    · exact ⟨⟨_, hkey, rfl⟩, _, hv⟩
    · exact ih m hm
  | nextMember _ _ _ ih => exact ih
  | _ => simp [membersOf]

end SessionGuard.Json.Raw
