import SessionGuard.Proofs.Json.Grammar

/-!
# Every text of the grammar is read

The reader takes each token of a text up to where the grammar ends it, whatever follows; a number
also needs that what follows does not lengthen it (`Ends`).  By the rules of the grammar it then takes
every value whole (`taken_of_spells`), with fuel for one step a character, and of a text it takes the
value the text holds (`read?_of_spells`).
-/

namespace SessionGuard.Json.Raw

open SessionGuard.Text (Received)

variable {cs gap ds : List Char} {rest : Received} {fuel : Nat}

/-! ## Blanks and strings -/

theorem skipBlanks_gap (h : IsGap gap) (r : Received) :
    skipBlanks (gap.map some ++ r) = skipBlanks r := by
  induction gap with
  | nil => rfl
  | cons c gap ih =>
    have hc := h c (by simp)
    have hgap := ih fun d hd => h d (by simp [hd])
    rcases hc with rfl | rfl | rfl | rfl <;> simpa [skipBlanks] using hgap

theorem skipBlanks_skipBlanks (r : Received) : skipBlanks (skipBlanks r) = skipBlanks r := by
  fun_induction skipBlanks r with
  | case1 c rest h ih => exact ih
  | case2 c rest h => simp [skipBlanks, h]
  | case3 rest => rfl
  | case4 => rfl

theorem isHex_of_hexDigit {c : Char} {n : Nat} (h : HexDigit c n) :
    isHex c = true ∧ hexValue c = n ∧ n < 16 := by
  have digit {digits : List Char} (hlength : digits.length = 16)
      (hall : ∀ n < 16, (digits[n]?).all (fun c => isHex c && hexValue c == n) = true)
      (h : digits[n]? = some c) : isHex c = true ∧ hexValue c = n ∧ n < 16 := by
    have hn : n < 16 := hlength ▸ (List.getElem?_eq_some_iff.1 h).1
    have hc := hall n hn
    rw [h] at hc
    simp only [Option.all_some, Bool.and_eq_true, beq_iff_eq] at hc
    exact ⟨hc.1, hc.2, hn⟩
  rcases h with h | h
  · exact digit rfl (by decide) h
  · exact digit rfl (by decide) h

theorem unescaped_of_mem {e c : Char} (h : (e, c) ∈ shortEscapes) :
    e ∈ ['"', '\\', '/', 'b', 'f', 'n', 'r', 't'] ∧ e ≠ 'u' ∧ unescaped e = c := by
  have hall : ∀ p ∈ shortEscapes, p.1 ∈ ['"', '\\', '/', 'b', 'f', 'n', 'r', 't'] ∧
      p.1 ≠ 'u' ∧ unescaped p.1 = p.2 := by decide
  exact hall _ h

theorem hexNumber_of_hex4 {a b c d : Char} {n : Nat} (h : Hex4 a b c d n) :
    (isHex a && isHex b && isHex c && isHex d) = true ∧ hexNumber a b c d = n ∧ n < 65536 := by
  obtain ⟨w, x, y, z, ha, hb, hc, hd, rfl⟩ := h
  obtain ⟨ha, ha', hw⟩ := isHex_of_hexDigit ha
  obtain ⟨hb, hb', hx⟩ := isHex_of_hexDigit hb
  obtain ⟨hc, hc', hy⟩ := isHex_of_hexDigit hc
  obtain ⟨hd, hd', hz⟩ := isHex_of_hexDigit hd
  exact ⟨by simp [ha, hb, hc, hd], by rw [hexNumber, ha', hb', hc', hd'], by omega⟩

/-- A string ends at the first quote that is not escaped. -/
theorem takeString?_of_inside (h : Inside cs) (rest : Received) :
    takeString? (cs.map some ++ some '"' :: rest) = some (cs.map some, rest) := by
  induction h with
  | nil => simp [takeString?]
  | @plain c cs hc h ih =>
    have hsmall : ¬ c.toNat < 32 := Nat.not_lt.2 hc.printable
    simp [takeString?, hc.noQuote, hc.noBackslash, hsmall, ih]
  | @short e c cs he h ih =>
    obtain ⟨hmem, hne, -⟩ := unescaped_of_mem he
    simp [takeString?, hmem, hne, ih]
  | number hn h ih =>
    simp [takeString?, (hexNumber_of_hex4 hn).1, ih]

/-- The escapes of a string stand for its text. -/
theorem decodeChars?_of_writes {text : List Char} (h : Writes text cs) :
    decodeChars? (cs.map some) = some text := by
  induction h with
  | nil => rfl
  | @plain c text cs hc h ih => simp [decodeChars?, hc.noBackslash, ih]
  | @short e c text cs he h ih =>
    obtain ⟨-, hne, hc⟩ := unescaped_of_mem he
    simp [decodeChars?, hne, hc, ih]
  | @number a b c d char text cs hn h ih =>
    have hchar : char.toNat < 0xD800 ∨ 0xE000 ≤ char.toNat := by
      have hvalid := char.valid
      simp only [UInt32.isValidChar, Nat.isValidChar] at hvalid
      show char.val.toNat < 0xD800 ∨ 0xE000 ≤ char.val.toNat
      omega
    rw [decodeChars?.eq_def]
    simp [(hexNumber_of_hex4 hn).2.1, hchar, ih]
  | @halves a b c d a' b' c' d' char k text cs hchar hhigh hlow h ih =>
    have hk : k < 0x100000 := by
      have hvalid := char.valid
      have hval : char.val.toNat = 0x10000 + k := hchar
      simp only [UInt32.isValidChar, Nat.isValidChar] at hvalid
      omega
    have hn : ¬ (0xD800 + k / 0x400 < 0xD800 ∨ 0xE000 ≤ 0xD800 + k / 0x400) := by omega
    have hn' : ¬ 0xDC00 ≤ 0xD800 + k / 0x400 := by omega
    have hm : 0xDC00 ≤ 0xDC00 + k % 0x400 ∧ 0xDC00 + k % 0x400 < 0xE000 := by omega
    have hback : 0x10000 + (0xD800 + k / 0x400 - 0xD800) * 0x400 + (0xDC00 + k % 0x400 - 0xDC00) =
        char.toNat := by omega
    rw [decodeChars?.eq_def]
    simp only [List.map_cons, (hexNumber_of_hex4 hhigh).2.1, (hexNumber_of_hex4 hlow).2.1,
      Bool.or_eq_true, Bool.and_eq_true, decide_eq_true_eq, if_neg hn, if_neg hn', if_pos hm, hback,
      ih, Char.ofNat_toNat, Option.map_some]

theorem decode?_of_denotes {written : Received} {text : String} (h : Denotes written text) :
    decode? written = some text := by
  obtain ⟨cs, rfl, hcs⟩ := h
  rw [decode?, decodeChars?_of_writes hcs, Option.map_some, String.ofList_toList]

/-! ## Numbers -/

/-- What follows a number does not lengthen it. -/
def Ends (rest : Received) : Prop :=
  ∀ c, rest.head? = some (some c) → c.isDigit = false ∧ c ≠ '.' ∧ c ≠ 'e' ∧ c ≠ 'E'

theorem ends_nil : Ends [] := by simp [Ends]

theorem ends_cons {c : Char} (h : c.isDigit = false ∧ c ≠ '.' ∧ c ≠ 'e' ∧ c ≠ 'E') :
    Ends (some c :: rest) := by
  intro d hd
  simp only [List.head?_cons, Option.some.injEq] at hd
  exact hd ▸ h

/-- Digits end where something else follows. -/
theorem takeDigits_append (h : ∀ d ∈ ds, d.isDigit = true)
    (hrest : ∀ c, rest.head? = some (some c) → c.isDigit = false) :
    takeDigits (ds.map some ++ rest) = (ds, rest) := by
  induction ds with
  | nil =>
    match rest, hrest with
    | [], _ => rfl
    | none :: _, _ => rfl
    | some c :: _, hrest => simp [takeDigits, hrest c rfl]
  | cons d ds ih =>
    have hds := ih fun c hc => h c (by simp [hc])
    simp [takeDigits, h d (by simp), hds]

theorem takeWhole?_append {n : Numeral} (hwhole : IsDigits n.whole)
    (hzero : n.whole.head? = some '0' → n.whole = ['0'])
    (hrest : ∀ c, rest.head? = some (some c) → c.isDigit = false) :
    takeWhole? (n.whole.map some ++ rest) = some (n.whole, rest) := by
  rw [takeWhole?, takeDigits_append hwhole.2 hrest]
  split
  · next heq => exact absurd (congrArg Prod.fst heq) hwhole.1
  · next heq =>
    have hw := congrArg Prod.fst heq
    simp only at hw
    simp [hw] at hzero
  · next heq => rw [heq]

theorem takeFraction?_append {fraction : Option (List Char)} (h : Fraction fraction cs)
    (hrest : ∀ c, rest.head? = some (some c) → c.isDigit = false ∧ c ≠ '.') :
    takeFraction? (cs.map some ++ rest) = some (fraction, rest) := by
  cases h with
  | none =>
    match rest, hrest with
    | [], _ => rfl
    | Option.none :: _, _ => rfl
    | some c :: _, hrest => simp [takeFraction?, (hrest c rfl).2]
  | @some ds h =>
    obtain ⟨d, ds, rfl⟩ := List.exists_cons_of_ne_nil h.1
    have hds := takeDigits_append h.2 fun c hc => (hrest c hc).1
    simp only [List.map_cons, List.cons_append] at hds ⊢
    simp [takeFraction?, hds]

theorem takeExponent?_append {exponent : Option (Bool × List Char)} (h : Exponent exponent cs)
    (hrest : Ends rest) : takeExponent? (cs.map some ++ rest) = some (exponent, rest) := by
  have hdigits {ds : List Char} (h : IsDigits ds) :
      ∃ d ds', ds = d :: ds' ∧ d ≠ '-' ∧ d ≠ '+' ∧
        takeDigits (some d :: (ds'.map some ++ rest)) = (d :: ds', rest) := by
    obtain ⟨d, ds', rfl⟩ := List.exists_cons_of_ne_nil h.1
    have hd := h.2 d (by simp)
    have hds := takeDigits_append h.2 fun c hc => (hrest c hc).1
    refine ⟨d, ds', rfl, ?_, ?_, by simpa using hds⟩ <;> rintro rfl <;> simp at hd
  cases h with
  | none =>
    match rest, hrest with
    | [], _ => rfl
    | Option.none :: _, _ => rfl
    | some c :: _, hrest =>
      obtain ⟨-, -, he, hE⟩ := hrest c rfl
      simp [takeExponent?, he, hE]
  | @bare e ds he h =>
    obtain ⟨d, ds, rfl, hm, hp, hds⟩ := hdigits h
    simp [takeExponent?, he, hm, hp, hds]
  | @plus e ds he h =>
    obtain ⟨d, ds, rfl, hm, hp, hds⟩ := hdigits h
    simp [takeExponent?, he, hds]
  | @minus e ds he h =>
    obtain ⟨d, ds, rfl, hm, hp, hds⟩ := hdigits h
    simp [takeExponent?, he, hds]

/-- The parts of a number behind its sign. -/
theorem takeNumber?_append {n : Numeral} {fraction exponent : List Char} (hwhole : IsDigits n.whole)
    (hzero : n.whole.head? = some '0' → n.whole = ['0']) (hfraction : Fraction n.fraction fraction)
    (hexponent : Exponent n.exponent exponent) (hrest : Ends rest) :
    takeNumber? n.negative ((n.whole ++ (fraction ++ exponent)).map some ++ rest) =
      some (n, rest) := by
  obtain ⟨negative, whole, fraction?, exponent?⟩ := n
  have hafter : ∀ c, (exponent.map some ++ rest).head? = some (some c) →
      c.isDigit = false ∧ c ≠ '.' := by
    intro c hc
    cases hexponent with
    | none => exact ⟨(hrest c hc).1, (hrest c hc).2.1⟩
    | bare he | plus he | minus he =>
      simp only [List.map_cons, List.cons_append, List.head?_cons, Option.some.injEq] at hc
      rcases he with rfl | rfl <;> subst hc <;> decide
  have hbehind : ∀ c, (fraction.map some ++ (exponent.map some ++ rest)).head? = some (some c) →
      c.isDigit = false := by
    intro c hc
    cases hfraction with
    | none => exact (hafter c hc).1
    | some =>
      simp only [List.map_cons, List.cons_append, List.head?_cons, Option.some.injEq] at hc
      subst hc
      decide
  simp only [List.map_append, List.append_assoc, takeNumber?,
    takeWhole?_append hwhole hzero hbehind, takeFraction?_append hfraction hafter,
    takeExponent?_append hexponent hrest, Option.bind_eq_bind, Option.bind_some]

/-! ## Values -/

/-- Blanks in front of a value make no difference. -/
theorem takeValue?_skipBlanks (fuel : Nat) {r r' : Received} (h : skipBlanks r = skipBlanks r') :
    takeValue? fuel r = takeValue? fuel r' := by
  cases fuel with
  | zero => simp [takeValue?]
  | succ fuel => rw [takeValue?, takeValue?, h]

theorem takeValue?_of_numeral {n : Numeral} (h : n.Spells cs) (hrest : Ends rest) :
    takeValue? (fuel + 1) (cs.map some ++ rest) = some (number n, rest) := by
  obtain ⟨fraction, exponent, hfraction, hexponent, hcs⟩ := h.parts
  have htake := takeNumber?_append h.whole h.zero hfraction hexponent hrest
  cases hsign : n.negative with
  | true =>
    rw [hsign] at htake hcs
    simp only [if_true, List.singleton_append] at hcs
    subst hcs
    simpa [takeValue?, skipBlanks] using congrArg (Option.map fun p => (number p.1, p.2)) htake
  | false =>
    rw [hsign] at htake hcs
    simp only [Bool.false_eq_true, if_false, List.nil_append] at hcs
    obtain ⟨d, ds, hds⟩ := List.exists_cons_of_ne_nil h.whole.1
    have hd : d.isDigit = true := h.whole.2 d (by simp [hds])
    have hne {c : Char} (hc : c.isDigit = false) : d ≠ c := Number.ne_of_isDigit hd hc
    have hskip : skipBlanks (cs.map some ++ rest) = cs.map some ++ rest := by
      simp [hcs, hds, skipBlanks, hne (c := ' ') rfl, hne (c := '\n') rfl, hne (c := '\t') rfl,
        hne (c := '\r') rfl]
    rw [takeValue?, hskip, hcs, hds]
    rw [hds] at htake
    simpa [hne (c := '"') rfl, hne (c := '[') rfl, hne (c := '{') rfl, hne (c := 'n') rfl,
      hne (c := 't') rfl, hne (c := 'f') rfl, hne (c := '-') rfl]
      using congrArg (Option.map fun p => (number p.1, p.2)) htake

theorem takeItems?_skipBlanks (fuel : Nat) (first : Bool) {r r' : Received}
    (h : skipBlanks r = skipBlanks r') : takeItems? fuel first r = takeItems? fuel first r' := by
  cases fuel with
  | zero => simp [takeItems?]
  | succ fuel => unfold takeItems?; rw [h]

theorem takeMembers?_skipBlanks (fuel : Nat) (first : Bool) {r r' : Received}
    (h : skipBlanks r = skipBlanks r') : takeMembers? fuel first r = takeMembers? fuel first r' := by
  cases fuel with
  | zero => simp [takeMembers?]
  | succ fuel => unfold takeMembers?; rw [h]

/-- A value and the items behind it are the items of an array: no value starts with a bracket that
ends one. -/
theorem takeItems?_of_value {v : Raw} {vs : List Raw} {r r' : Received}
    (hv : takeValue? fuel r = some (v, r')) (hvs : takeItems? fuel false r' = some (vs, rest)) :
    takeItems? (fuel + 1) true r = some (v :: vs, rest) := by
  cases fuel with
  | zero => simp [takeValue?] at hv
  | succ fuel =>
    unfold takeItems?
    split
    · next hfirst =>
      rw [takeValue?, hfirst] at hv
      simp [takeNumber?, takeWhole?, takeDigits] at hv
    · rw [takeValue?_skipBlanks _ (skipBlanks_skipBlanks r), hv]
      simp [hvs]
    · next hfirst _ => cases hfirst
    · next hfirst _ _ => cases hfirst

/-- A name, a value and the members behind them are the members of an object. -/
theorem takeMembers?_of_value {v : Raw} {ms : List (Received × Raw)} {key : List Char}
    {r r' : Received} (hgap : IsGap gap) (hkey : Inside key)
    (hv : takeValue? fuel r = some (v, r')) (hms : takeMembers? fuel false r' = some (ms, rest)) :
    takeMembers? (fuel + 2) true
        (some '"' :: (key.map some ++ some '"' :: (gap.map some ++ some ':' :: r))) =
      some ((key.map some, v) :: ms, rest) := by
  simp [takeMembers?, takeMember?, skipBlanks, takeString?_of_inside hkey, skipBlanks_gap hgap, hv,
    hms]

/-- A comma in front of items is taken where items stood before. -/
theorem takeItems?_comma {v : Raw} {vs : List Raw} {r : Received}
    (h : takeItems? fuel true r = some (v :: vs, rest)) :
    takeItems? fuel false (some ',' :: r) = some (v :: vs, rest) := by
  cases fuel with
  | zero => simp [takeItems?] at h
  | succ fuel =>
    unfold takeItems? at h
    split at h
    · simp at h
    · rw [takeValue?_skipBlanks fuel (skipBlanks_skipBlanks r)] at h
      simpa [takeItems?, skipBlanks] using h
    · next hfirst _ => cases hfirst
    · cases h

/-- A comma in front of members is taken where members stood before. -/
theorem takeMembers?_comma {m : Received × Raw} {ms : List (Received × Raw)} {r : Received}
    (h : takeMembers? fuel true r = some (m :: ms, rest)) :
    takeMembers? fuel false (some ',' :: r) = some (m :: ms, rest) := by
  cases fuel with
  | zero => simp [takeMembers?] at h
  | succ fuel =>
    unfold takeMembers? at h
    split at h
    · simp at h
    · simpa [takeMembers?, skipBlanks] using h
    · next hfirst _ => cases hfirst
    · cases h

/-- The reader takes a piece off the front of a text. -/
def Taken (fuel : Nat) (r rest : Received) : Piece → Prop
  | .value v => takeValue? fuel r = some (v, rest)
  | .items vs => takeItems? fuel true r = some (vs, rest)
  | .moreItems vs => takeItems? fuel false r = some (vs, rest)
  | .members ms => takeMembers? fuel true r = some (ms, rest)
  | .moreMembers ms => takeMembers? fuel false r = some (ms, rest)

/-- What is left of an array or an object ends the number in front of it. -/
theorem ends_of_spells_more {piece : Piece} (h : Spells piece cs)
    (hmore : ∀ v vs ms, piece ≠ .value v ∧ piece ≠ .items vs ∧ piece ≠ .members ms)
    (rest : Received) : Ends (cs.map some ++ rest) := by
  have hgap {gap ds : List Char} {c : Char} (h : IsGap gap) (hc : c = ']' ∨ c = '}' ∨ c = ',') :
      Ends ((gap ++ c :: ds).map some ++ rest) := by
    cases gap with
    | nil => rcases hc with rfl | rfl | rfl <;> exact ends_cons (by decide)
    | cons b gap =>
      rcases h b (by simp) with rfl | rfl | rfl | rfl <;> exact ends_cons (by decide)
  cases h with
  | endItems h => exact hgap h (by simp)
  | nextItem h => exact hgap h (by simp)
  | endMembers h => exact hgap h (by simp)
  | nextMember h => exact hgap h (by simp)
  | null | true | false | number | string | array | object => exact absurd rfl (hmore _ [] []).1
  | noItem | item => exact absurd rfl (hmore .null _ []).2.1
  | noMember | member => exact absurd rfl (hmore .null [] _).2.2

theorem length_pos_of_spells {piece : Piece} (h : Spells piece cs) : 0 < cs.length := by
  induction h with
  | number h =>
    obtain ⟨fraction, exponent, -, -, rfl⟩ := h.parts
    have := List.length_pos_iff.2 h.whole.1
    simp only [List.length_append]
    omega
  | item _ _ _ ih =>
    simp only [List.length_append]
    omega
  | _ => simp only [List.length_append, List.length_cons, List.length_nil]; omega

theorem exists_fuel {piece : Piece} (h : Spells piece cs) (hfuel : cs.length ≤ fuel) :
    ∃ k, fuel = k + 1 := by
  have := length_pos_of_spells h
  exact ⟨fuel - 1, by omega⟩

/-- Every piece of a text is taken whole, with fuel for one step a character. -/
theorem taken_of_spells {piece : Piece} (h : Spells piece cs) (hfuel : cs.length ≤ fuel)
    (hrest : Ends rest) : Taken fuel (cs.map some ++ rest) rest piece := by
  induction h generalizing fuel rest with
  | number h =>
    obtain ⟨fuel, rfl⟩ := exists_fuel (.number h) hfuel
    exact takeValue?_of_numeral h hrest
  | null =>
    obtain ⟨fuel, rfl⟩ := exists_fuel .null hfuel
    simp [Taken, takeValue?, skipBlanks, takeWord?]
  | true =>
    obtain ⟨fuel, rfl⟩ := exists_fuel .true hfuel
    simp [Taken, takeValue?, skipBlanks, takeWord?]
  | false =>
    obtain ⟨fuel, rfl⟩ := exists_fuel .false hfuel
    simp [Taken, takeValue?, skipBlanks, takeWord?]
  | string h =>
    obtain ⟨fuel, rfl⟩ := exists_fuel (.string h) hfuel
    simp [Taken, takeValue?, skipBlanks, takeString?_of_inside h]
  | array h ih =>
    obtain ⟨fuel, rfl⟩ := exists_fuel (.array h) hfuel
    have hitems := ih (Nat.le_of_succ_le_succ hfuel) hrest
    simp only [Taken] at hitems
    simp [Taken, takeValue?, skipBlanks, hitems]
  | object h ih =>
    obtain ⟨fuel, rfl⟩ := exists_fuel (.object h) hfuel
    have hmembers := ih (Nat.le_of_succ_le_succ hfuel) hrest
    simp only [Taken] at hmembers
    simp [Taken, takeValue?, skipBlanks, hmembers]
  | noItem hgap =>
    obtain ⟨fuel, rfl⟩ := exists_fuel (.noItem hgap) hfuel
    simp [Taken, takeItems?, skipBlanks_gap hgap, skipBlanks]
  | endItems hgap =>
    obtain ⟨fuel, rfl⟩ := exists_fuel (.endItems hgap) hfuel
    simp [Taken, takeItems?, skipBlanks_gap hgap, skipBlanks]
  | noMember hgap =>
    obtain ⟨fuel, rfl⟩ := exists_fuel (.noMember hgap) hfuel
    simp [Taken, takeMembers?, skipBlanks_gap hgap, skipBlanks]
  | endMembers hgap =>
    obtain ⟨fuel, rfl⟩ := exists_fuel (.endMembers hgap) hfuel
    simp [Taken, takeMembers?, skipBlanks_gap hgap, skipBlanks]
  | @item v vs gap cs ds hgap h hs ih ihs =>
    obtain ⟨fuel, rfl⟩ := exists_fuel (.item hgap h hs) hfuel
    have hcs := length_pos_of_spells h
    have hds := length_pos_of_spells hs
    simp only [List.length_append] at hfuel
    have hvalue := ih (show cs.length ≤ fuel by omega) (ends_of_spells_more hs (by simp) rest)
    have hitems := takeItems?_of_value hvalue (ihs (show ds.length ≤ fuel by omega) hrest)
    simp only [Taken, List.map_append, List.append_assoc]
    rw [takeItems?_skipBlanks _ _ (skipBlanks_gap hgap _), hitems]
  | @nextItem vs gap cs hgap hne h ih =>
    obtain ⟨v, vs, rfl⟩ := List.exists_cons_of_ne_nil hne
    simp only [List.length_append, List.length_cons] at hfuel
    have hitems := takeItems?_comma (ih (show cs.length ≤ fuel by omega) hrest)
    simp only [Taken, List.map_append, List.append_assoc]
    rw [takeItems?_skipBlanks _ _ (skipBlanks_gap hgap _)]
    exact hitems
  | @member v ms gap key gap' gap'' cs ds hgap hkey hgap' hgap'' h hs ih ihs =>
    have hcs := length_pos_of_spells h
    have hds := length_pos_of_spells hs
    simp only [List.length_append, List.length_cons] at hfuel
    obtain ⟨fuel, rfl⟩ : ∃ k, fuel = k + 2 := ⟨fuel - 2, by omega⟩
    have hvalue := ih (show cs.length ≤ fuel by omega) (ends_of_spells_more hs (by simp) rest)
    rw [Taken, takeValue?_skipBlanks _ (skipBlanks_gap hgap'' _).symm] at hvalue
    have hmembers := takeMembers?_of_value hgap' hkey hvalue
      (ihs (show ds.length ≤ fuel by omega) hrest)
    simp only [Taken, List.map_append, List.map_cons, List.append_assoc, List.cons_append]
    rw [takeMembers?_skipBlanks _ _ (skipBlanks_gap hgap _)]
    exact hmembers
  | @nextMember ms gap cs hgap hne h ih =>
    obtain ⟨m, ms, rfl⟩ := List.exists_cons_of_ne_nil hne
    simp only [List.length_append, List.length_cons] at hfuel
    have hmembers := takeMembers?_comma (ih (show cs.length ≤ fuel by omega) hrest)
    simp only [Taken, List.map_append, List.append_assoc]
    rw [takeMembers?_skipBlanks _ _ (skipBlanks_gap hgap _)]
    exact hmembers

/-- A text of the grammar, between blanks, is read as the value it holds. -/
theorem read?_of_spells {v : Raw} {gap' : List Char} (hgap : IsGap gap)
    (h : Spells (.value v) cs) (hgap' : IsGap gap') :
    read? ((gap ++ (cs ++ gap')).map some) = some v := by
  have hends : Ends (gap'.map some) := by
    cases gap' with
    | nil => exact ends_nil
    | cons c gap' =>
      rcases hgap' c (by simp) with rfl | rfl | rfl | rfl <;> exact ends_cons (by decide)
  have hfuel : cs.length ≤ 3 * ((gap ++ (cs ++ gap')).map some).length + 3 := by
    simp only [List.length_map, List.length_append]
    omega
  have htaken := taken_of_spells h hfuel hends
  have hblank : skipBlanks (gap'.map some) = [] := by
    simpa [skipBlanks] using skipBlanks_gap hgap' []
  simp only [Taken] at htaken
  rw [read?]
  rw [List.map_append, takeValue?_skipBlanks _ (skipBlanks_gap hgap _)]
  simp only [List.map_append] at htaken ⊢
  rw [htaken]
  simp [hblank]

end SessionGuard.Json.Raw
