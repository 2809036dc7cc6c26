import SessionGuard.Proofs.Yaml.Tokens

/-!
# The entries of a mapping

An entry is written as its key, a colon and what is written for its value (`Page.named`).  At the
start of a line the lexer reads the key, opens a block mapping for it unless one is open there
(`run?_key`), and with a text behind it is at the start of the next line again (`goes_entry`).  A line
that lies less deep closes the mapping (`goes_close`).
-/

namespace SessionGuard.Yaml

/-- The characters of the keys here. -/
def isKeyChar (c : Char) : Bool := ('a' ≤ c && c ≤ 'z') || c = '_'

/-- A word that stands before a colon as it is. -/
structure IsKey (key : List Char) : Prop where
  ne_nil : key ≠ []
  chars : ∀ d ∈ key, isKeyChar d = true
  short : key.length ≤ 1024

/-- The signs that mean something where a key may start or inside of it. -/
theorem ne_of_isKeyChar {d e : Char} (h : isKeyChar d = true) (he : isKeyChar e = false) : d ≠ e := by
  rintro rfl
  rw [h] at he
  cases he

theorem not_mem_of_isKeyChar {d : Char} (h : isKeyChar d = true) (cs : List Char)
    (hcs : cs.any isKeyChar = false) : d ∉ cs := by
  rw [List.any_eq_false] at hcs
  exact fun hd => hcs d hd h

theorem isGap_of_isKeyChar {d : Char} (h : isKeyChar d = true) : isGap d = false := by
  have hne := fun e he => ne_of_isKeyChar (e := e) h he
  simp [isGap, isSpace, isBreak, hne ' ' rfl, hne '\t' rfl, hne '\n' rfl, hne '\r' rfl,
    hne '\u0085' rfl, hne '\u2028' rfl, hne '\u2029' rfl]

theorem isShown_of_isKeyChar {d : Char} (h : isKeyChar d = true) : isShown d = true := by
  simp only [isKeyChar, Bool.or_eq_true, Bool.and_eq_true, decide_eq_true_eq] at h
  rcases h with ⟨ha, hz⟩ | rfl
  · have ha : 97 ≤ d.toNat := ha
    have hz : d.toNat ≤ 122 := hz
    simp only [isShown, Bool.or_eq_true, Bool.and_eq_true, beq_iff_eq, bne_iff_ne,
      decide_eq_true_eq]
    omega
  · rfl

/-! ## On the page -/

namespace Page

variable {p : Page}

theorem spaced_indent (k : Nat) (p : Page) : (p.indent k).spaced = true := rfl

/-- Where an entry may start, its key stands as it is. -/
theorem chars_key (key : List Char) (hspaced : p.spaced = true) :
    ((p.plain key).sign [':'] false false false).chars = p.chars ++ (key ++ [':']) := by
  rw [chars_sign]
  simp [plain, hspaced, puts_eq, chars]

/-- The page up to its next line, which may have any blanks in front. -/
def Lines (p : Page) (cs : List Char) : Prop := ∀ j, (p.indent j).chars = cs ++ List.replicate j ' '

/-- Writes a name in a column and a value behind it. -/
def named (depth k : Nat) (p : Page) (e : String × Value) : Page :=
  e.2.write depth ⟨k, true, false⟩ (((p.indent k).plain e.1.toList).sign [':'] false false false)

/-- Writes an entry of a document. -/
def entry (p : Page) (e : String × Value) : Page :=
  let p := p.indent 0
  if (Value.string e.1).isSimpleKey then
    let p := ((Value.string e.1).write 1 ⟨0, true, true⟩ p).sign [':'] false false false
    e.2.write maxWriteDepth ⟨0, true, false⟩ p
  else
    let p := (Value.string e.1).write 1 ⟨0, true, false⟩ (p.sign ['?'] true false true)
    let p := (p.indent 0).sign [':'] true false true
    e.2.write maxWriteDepth ⟨0, true, false⟩ p

theorem render_eq {entries : List (String × Value)} (h : entries ≠ []) :
    render entries = ((entries.foldl entry .blank).indent 0).text := by
  have hempty : entries.isEmpty = false := by simpa using h
  unfold render
  simp only [hempty, Bool.false_eq_true, if_false]
  rfl

end Page

/-- A name that stands before a colon as it is, on the page and in the text. -/
structure IsName (name : String) : Prop where
  isKey : IsKey name.toList
  style : styleOf name true = .plain
  simple : (Value.string name).isSimpleKey = true

instance (key : List Char) : Decidable (IsKey key) :=
  decidable_of_iff (key ≠ [] ∧ key.all isKeyChar = true ∧ key.length ≤ 1024)
    ⟨fun ⟨hne, hchars, hshort⟩ => ⟨hne, List.all_eq_true.1 hchars, hshort⟩,
      fun h => ⟨h.ne_nil, List.all_eq_true.2 h.chars, h.short⟩⟩

instance (name : String) : Decidable (IsName name) :=
  decidable_of_iff
    (IsKey name.toList ∧ styleOf name true = .plain ∧ (Value.string name).isSimpleKey = true)
    ⟨fun ⟨hkey, hstyle, hsimple⟩ => ⟨hkey, hstyle, hsimple⟩, fun h => ⟨h.isKey, h.style, h.simple⟩⟩

theorem IsKey.isShown {key : List Char} (h : IsKey key) : ∀ d ∈ key, isShown d = true :=
  fun d hd => isShown_of_isKeyChar (h.chars d hd)

/-- The plain form of a name is a text and nothing else. -/
theorem IsName.isText {name : String} (h : IsName name) : Plain.ofText name = .string := by
  have hstyle := h.style
  unfold styleOf at hstyle
  simp only [Bool.not_true, Bool.and_false, Bool.true_and, Bool.false_eq_true, if_false,
    Bool.and_true] at hstyle
  split at hstyle
  · cases hstyle
  · split at hstyle
    · cases hstyle
    · split at hstyle
      · next hplain =>
        simp only [Bool.and_eq_true] at hplain
        exact (ofText_of_readsAsText hplain.1.1).1
      · split at hstyle <;> cases hstyle

namespace Page

theorem entry_eq {name : String} (h : IsName name) (v : Value) (p : Page) :
    p.entry (name, v) = p.named maxWriteDepth 0 (name, v) := by
  have hkey (p : Page) : (Value.string name).write 1 ⟨0, true, true⟩ p = p.plain name.toList := by
    show p.scalar 2 name (styleOf name true) = _
    rw [h.style, scalar]
  simp only [entry, named, h.simple, if_true, hkey]

end Page

/-! ## Keys in the text -/

namespace Cursor

variable {c : Cursor} {rest key tail : List Char}

@[simp] theorem rest_skipN (n : Nat) (c : Cursor) : (c.skipN n).rest = c.rest.drop n := by
  induction n generalizing c with
  | zero => rfl
  | succ n ih => simp [skipN, ih, skip]

@[simp] theorem line_skipN (n : Nat) (c : Cursor) : (c.skipN n).line = c.line := by
  induction n generalizing c with
  | zero => rfl
  | succ n ih => simp [skipN, ih, skip]

@[simp] theorem column_skipN (n : Nat) (c : Cursor) : (c.skipN n).column = c.column + n := by
  induction n generalizing c with
  | zero => rfl
  | succ n ih => simp only [skipN, ih, skip]; omega

@[simp] theorem index_skipN (n : Nat) (c : Cursor) : (c.skipN n).index = c.index + n := by
  induction n generalizing c with
  | zero => rfl
  | succ n ih => simp only [skipN, ih, skip]; omega

theorem skipN_skipN (m n : Nat) (c : Cursor) : (c.skipN m).skipN n = c.skipN (m + n) := by
  induction m generalizing c with
  | zero => simp [skipN]
  | succ m ih => rw [skipN, ih, Nat.add_right_comm, skipN]

/-- The word of a key ends before its colon. -/
theorem takePlainWord?_key {fuel : Nat} (hkey : ∀ d ∈ key, isKeyChar d = true)
    (htail : gapFirst tail = true) (hc : c.rest = key ++ ':' :: tail) (hfuel : key.length ≤ fuel) :
    takePlainWord? false fuel c = some (key, c.skipN key.length) := by
  induction key generalizing c fuel with
  | nil =>
    cases fuel with
    | zero => rfl
    | succ fuel =>
      have hblank : c.blankAt 1 = true := (blankAt_one hc).trans htail
      unfold takePlainWord?
      rw [hc]
      simp [isSpace, isBreak, hblank, skipN]
  | cons d key ih =>
    cases fuel with
    | zero => simp at hfuel
    | succ fuel =>
      have hd := hkey d (by simp)
      have hgap : isSpace d = false ∧ isBreak d = false := by
        simpa [isGap] using isGap_of_isKeyChar hd
      have hmore := ih (c := c.skip) (fun e he => hkey e (by simp [he])) (by simp [skip, hc])
        (Nat.le_of_succ_le_succ hfuel)
      unfold takePlainWord?
      rw [hc]
      simp [hgap, ne_of_isKeyChar hd (e := ':') rfl, hmore, skipN]

theorem atMarker_of_isKeyChar {mark d : Char} (hmark : isKeyChar mark = false)
    (hd : isKeyChar d = true) (hc : c.rest = d :: rest) : c.atMarker mark = false := by
  have := ne_of_isKeyChar hd hmark
  simp [atMarker, hc, this]

/-- A key is read up to its colon. -/
theorem takePlain?_key {fuel : Nat} (margin : Nat) (hkey : IsKey key) (htail : gapFirst tail = true)
    (hc : c.rest = key ++ ':' :: tail) (hfuel : 0 < fuel) :
    takePlain? false margin fuel c = some (key, c.skipN key.length, false) := by
  obtain ⟨fuel, rfl⟩ := Nat.exists_eq_add_one_of_ne_zero (Nat.pos_iff_ne_zero.1 hfuel)
  obtain ⟨d, ds, rfl⟩ := List.exists_cons_of_ne_nil hkey.ne_nil
  have hd := hkey.chars d (by simp)
  have hroom : (d :: ds).length ≤ c.rest.length + 1 := by
    rw [hc]
    simp only [List.length_append]
    omega
  have hword := takePlainWord?_key hkey.chars htail hc hroom
  have hrest : (c.skipN (d :: ds).length).rest = ':' :: tail := by simp [hc]
  have hmark : c.atAnyMarker = false := by
    simp only [atAnyMarker, Bool.or_eq_false_iff]
    exact ⟨atMarker_of_isKeyChar rfl hd hc, atMarker_of_isKeyChar rfl hd hc⟩
  have hnumber : (c.rest.head? == some '#') = false := by
    simp [hc, ne_of_isKeyChar hd (e := '#') rfl]
  generalize c.skipN (d :: ds).length = c' at hword hrest ⊢
  unfold takePlain?
  simp [hmark, hnumber, hword, hrest, isSpace, isBreak]

end Cursor

namespace Lexer

variable {l l' l'' : Lexer} {i : Int} {o : List Int} {j k : Nat} {key tail rest cs : List Char}
  {style : Style} {ts ts' : List Token}

/-- The lexer stands at the start of a line, in a column, with an indentation and those around it. -/
structure AtKey (l : Lexer) (indent : Int) (outer : List Int) (column : Nat) (rest : List Char) :
    Prop where
  rest_eq : l.cursor.rest = rest
  column_eq : l.cursor.column = column
  indent_eq : l.indent = indent
  outer_eq : l.outer = outer
  flow : l.flow = 0
  starts : l.starts = [none]
  keyAllowed : l.keyAllowed = true

theorem atKey_ofChars (h : cs = rest) : (ofChars cs).AtKey (-1) [] 0 rest :=
  ⟨h, rfl, rfl, rfl, rfl, rfl, rfl⟩

/-! ## Keys -/

/-- The sign of the block that a key opens in a column, unless that is the indentation. -/
def opening (indent : Int) (column : Nat) : List Token :=
  if indent < column then [.blockMapping] else []

theorem reverse_opening (indent : Int) (column : Nat) :
    (opening indent column).reverse = opening indent column := by
  unfold opening
  split <;> rfl

/-- The indentations around that of a key. -/
def enclosing (indent : Int) (column : Nat) (outer : List Int) : List Int :=
  if indent < column then indent :: outer else outer

/-- The lexer behind a key that may turn out to be none. -/
def behindKey (l : Lexer) (key : List Char) : Lexer where
  cursor := l.cursor.skipN key.length
  tokens := .scalar key .plain :: l.tokens
  count := l.count + 1
  indent := l.indent
  outer := l.outer
  flow := 0
  starts := [some
    { required := l.indent == l.cursor.column
      position := l.count
      line := l.cursor.line
      column := l.cursor.column
      index := l.cursor.index }]
  keyAllowed := false

/-- The lexer behind the colon of a key. -/
def afterKey (l : Lexer) (key : List Char) : Lexer where
  cursor := l.cursor.skipN (key.length + 1)
  tokens := .value :: .scalar key .plain :: .key :: (opening l.indent l.cursor.column ++ l.tokens)
  count := l.count + if l.indent < l.cursor.column then 4 else 3
  indent := l.cursor.column
  outer := enclosing l.indent l.cursor.column l.outer
  flow := 0
  starts := [none]
  keyAllowed := false

theorem starts_of_isKeyChar {d : Char} (h : isKeyChar d = true) : Starts (d :: rest) := by
  intro e he
  obtain rfl : d = e := by simpa using he
  exact ⟨isGap_of_isKeyChar h, ne_of_isKeyChar h rfl, ne_of_isKeyChar h rfl⟩

theorem token?_key (hkey : IsKey key) (htail : gapFirst tail = true)
    (h : l.AtKey i o k (key ++ ':' :: tail)) : l.token? = some (l.behindKey key) := by
  have hplain : l.plain? = some (l.behindKey key) := by
    have hread := Cursor.takePlain?_key (l.indent + 1).toNat hkey htail h.rest_eq
      (Nat.succ_pos l.cursor.rest.length)
    simp [plain?, saveStart?, dropStart?, h.keyAllowed, h.starts, h.flow, hread, allowKey, push,
      behindKey]
  obtain ⟨d, ds, rfl⟩ := List.exists_cons_of_ne_nil hkey.ne_nil
  have hd := hkey.chars d (by simp)
  have hc : l.cursor.rest = d :: (ds ++ ':' :: tail) := h.rest_eq
  have hsigns := not_mem_of_isKeyChar hd [' ', '\t', '\n', '\r', '\u0085', '\u2028', '\u2029', '%',
    '[', ']', '\x7b', '\x7d', ',', '-', '?', ':', '*', '&', '!', '|', '>', '\'', '"', '#', '@', '\x60']
    rfl
  simp only [List.mem_cons, List.not_mem_nil, or_false, not_or] at hsigns
  have hmark (mark : Char) (h : isKeyChar mark = false) : l.cursor.atMarker mark = false :=
    Cursor.atMarker_of_isKeyChar h hd hc
  have hstarts : startsPlain false l.cursor = true := by
    simp [startsPlain, hc, hsigns, isSpace, isBreak]
  unfold token?
  simp [hc, hsigns, hmark '-' rfl, hmark '.' rfl, h.flow, hstarts, hplain]

theorem token?_colon (htail : gapFirst tail = true) (hle : i ≤ k)
    (h : l.AtKey i o k (key ++ ':' :: tail)) :
    (l.behindKey key).token? = some (l.afterKey key) := by
  have hc : (l.behindKey key).cursor.rest = ':' :: tail := by simp [behindKey, h.rest_eq]
  have hblank : (l.behindKey key).cursor.blankAt 1 = true := (Cursor.blankAt_one hc).trans htail
  have hmark (mark : Char) (h : mark ≠ ':') : (l.behindKey key).cursor.atMarker mark = false := by
    simp [Cursor.atMarker, hc, Ne.symm h]
  have hvalue : (l.behindKey key).value? = some (l.afterKey key) := by
    have hindent := h.indent_eq
    have hcolumn := h.column_eq
    by_cases hlt : l.indent < l.cursor.column
    · have htwo : l.count + 1 + 1 - l.count = 2 := by omega
      simp [value?, behindKey, afterKey, insert, openBlock, opening, enclosing, hlt, htwo, allowKey,
        sign, push, skipN, Cursor.skipN_skipN]
    · have heq : l.indent = l.cursor.column := by omega
      simp [value?, behindKey, afterKey, insert, openBlock, opening, enclosing, heq, allowKey, sign,
        push, skipN, Cursor.skipN_skipN]
  unfold token?
  simp [hc, hblank, hmark '-' (by decide), hmark '.' (by decide), hvalue]

theorem run?_key (fuel : Nat) (hkey : IsKey key) (htail : gapFirst tail = true) (hle : i ≤ k)
    (h : l.AtKey i o k (key ++ ':' :: tail)) : run? (fuel + 2) l = run? fuel (l.afterKey key) := by
  obtain ⟨d, ds, hds⟩ := List.exists_cons_of_ne_nil hkey.ne_nil
  have hle' : l.indent ≤ l.cursor.column := by
    rw [h.column_eq, h.indent_eq]
    exact hle
  have hbehind : (l.behindKey key).indent ≤ (l.behindKey key).cursor.column := by
    simp only [behindKey, Cursor.column_skipN]
    omega
  have hexpire : (l.behindKey key).expireStarts? = some (l.behindKey key) := by
    simp [expireStarts?, expire?, behindKey, Nat.not_lt.2 hkey.short]
  have hc : (l.behindKey key).cursor.rest = ':' :: tail := by simp [behindKey, h.rest_eq]
  rw [run?_of_starts (fuel + 1) (by rw [h.rest_eq, hds, List.cons_append])
      (starts_of_isKeyChar (hkey.chars d (by simp [hds]))) (expireStarts?_of_starts h.starts) hle',
    token?_key hkey htail h, Option.bind_some,
    run?_of_starts fuel hc (by simp [Starts, isGap, isSpace, isBreak]) hexpire hbehind,
    token?_colon htail hle h, Option.bind_some]

/-! ## Entries -/

/-- The lexer goes on to a later one, and gives tokens on the way.  It gives no more of them than it
has characters. -/
structure Goes (l : Lexer) (ts : List Token) (l' : Lexer) : Prop where
  tokens : l'.tokens = ts.reverse ++ l.tokens
  run : ∃ steps, steps + l'.cursor.rest.length ≤ l.cursor.rest.length ∧
    ∀ fuel, run? (fuel + steps) l = run? fuel l'

theorem Goes.trans (h : l.Goes ts l') (h' : l'.Goes ts' l'') : l.Goes (ts ++ ts') l'' where
  tokens := by simp [h.tokens, h'.tokens]
  run := by
    obtain ⟨m, hm, hrun⟩ := h.run
    obtain ⟨n, hn, hrun'⟩ := h'.run
    refine ⟨n + m, by omega, fun fuel => ?_⟩
    rw [← Nat.add_assoc, hrun, hrun']

/-- The tokens of a key. -/
def keyTokens (key : List Char) : List Token := [.key, .scalar key .plain, .value]

/-- A key and the text behind its colon give the tokens of an entry, and the lexer goes on with the
next line. -/
theorem goes_entry (hkey : IsKey key) (hshows : style.Shows cs) (hrest : Starts rest) (hle : i ≤ k)
    (hj : j ≤ k)
    (h : l.AtKey i o k
      (key ++ ':' :: (line (k + 2) cs style ++ (List.replicate j ' ' ++ rest)))) :
    ∃ l', l.Goes (opening i k ++ keyTokens key ++ [.scalar cs style]) l' ∧
      l'.AtKey k (enclosing i k o) j rest := by
  obtain ⟨more, hmore⟩ := line_eq_cons (k + 2) cs style
  have htail : gapFirst (line (k + 2) cs style ++ (List.replicate j ' ' ++ rest)) = true := by
    rw [hmore]
    rfl
  have hat : (l.afterKey key).AtValue k
      (line (k + 2) cs style ++ (List.replicate j ' ' ++ rest)) := by
    have hcolumn := h.column_eq
    refine ⟨⟨by simp [afterKey, h.rest_eq], ?_⟩, by simp [afterKey, hcolumn], rfl, rfl, rfl⟩
    simp only [afterKey, Cursor.column_skipN]
    omega
  have hlength : (l.afterKey key).cursor.rest.length + 2 ≤ l.cursor.rest.length := by
    have := List.length_pos_iff.2 hkey.ne_nil
    simp only [afterKey, Cursor.rest_skipN, h.rest_eq, List.length_drop, List.length_append,
      List.length_cons]
    omega
  have hline : rest.length + 1 ≤ (l.afterKey key).cursor.rest.length := by
    rw [hat.inside.rest_eq, hmore]
    simp only [List.length_append, List.length_cons]
    omega
  obtain ⟨c', hr, hcolumn, hrun⟩ := run?_line hshows hrest hj hat
  have htokens : opening l.indent l.cursor.column = opening i k := by
    rw [h.indent_eq, h.column_eq]
  refine ⟨(l.afterKey key).after (.scalar cs style) c' true, ⟨?_, 3, ?_, fun fuel => ?_⟩, hr, hcolumn,
    ?_, ?_, rfl, rfl, rfl⟩
  · simp [after, afterKey, keyTokens, htokens, reverse_opening]
  · simp only [after, hr]
    omega
  · rw [← hrun]
    exact run?_key (fuel + 1) hkey htail hle h
  · simp [after, afterKey, h.column_eq]
  · simp [after, afterKey, h.indent_eq, h.column_eq, h.outer_eq]

/-- A key with a block on the lines behind it gives its own tokens only, and the lexer goes on with
the first of these lines. -/
theorem goes_parent (hkey : IsKey key) (hrest : Starts rest) (hle : i ≤ k)
    (h : l.AtKey i o k (key ++ ':' :: '\n' :: (List.replicate j ' ' ++ rest))) :
    ∃ l', l.Goes (opening i k ++ keyTokens key) l' ∧ l'.AtKey k (enclosing i k o) j rest := by
  have hc : (l.afterKey key).cursor.rest = '\n' :: (List.replicate j ' ' ++ rest) := by
    simp [afterKey, h.rest_eq]
  have hroom : j + 1 ≤ (l.afterKey key).cursor.rest.length + 1 := by
    simp only [hc, List.length_cons, List.length_append, List.length_replicate]
    omega
  obtain ⟨c', hskip, hr, hcolumn⟩ := skipGap_line (l := l.afterKey key) rfl hrest hroom hc
  have htokens : opening l.indent l.cursor.column = opening i k := by
    rw [h.indent_eq, h.column_eq]
  refine ⟨{ l.afterKey key with cursor := c', keyAllowed := true }, ⟨?_, 2, ?_, fun fuel => ?_⟩, hr,
    hcolumn, ?_, ?_, rfl, rfl, rfl⟩
  · simp [afterKey, keyTokens, htokens, reverse_opening]
  · simp only [hr, h.rest_eq, List.length_append, List.length_cons]
    omega
  · rw [run?_key fuel hkey rfl hle h]
    refine run?_congr fuel ?_
    rw [skipGap_starts (l := { l.afterKey key with cursor := c', keyAllowed := true }) _
      (by rw [hr]; exact hrest)]
    exact hskip
  · simp [afterKey, h.column_eq]
  · simp [afterKey, h.indent_eq, h.column_eq, h.outer_eq]

theorem starts_of_isKey (hkey : IsKey key) : Starts (key ++ rest) := by
  obtain ⟨d, ds, rfl⟩ := List.exists_cons_of_ne_nil hkey.ne_nil
  exact starts_of_isKeyChar (hkey.chars d (by simp))

/-! ## The end of a block -/

/-- The lexer with the innermost block closed. -/
def closed (l : Lexer) (i : Int) (o : List Int) : Lexer :=
  push .blockEnd { l with indent := i, outer := o }

theorem closeBlocks_closed {column : Int} (hflow : l.flow = 0) (houter : l.outer = i :: o)
    (hlt : column < l.indent) : l.closeBlocks column = (closed l i o).closeBlocks column := by
  have hclosed : (closed l i o).flow = 0 := hflow
  rw [closeBlocks, closeBlocks, hflow, hclosed, houter]
  exact if_pos hlt

/-- A line that lies less deep than a block closes it, and no token is read for that. -/
theorem goes_close {m : Nat} (hrest : Starts rest) (hj : j < m) (h : l.AtKey m (i :: o) j rest) :
    ∃ l', l.Goes [.blockEnd] l' ∧ l'.AtKey i o j rest := by
  have hstarts : Starts l.cursor.rest := by rwa [h.rest_eq]
  have hclose (column : Int) (hc : column ≤ j) :
      l.closeBlocks column = (closed l i o).closeBlocks column :=
    closeBlocks_closed h.flow h.outer_eq (by rw [h.indent_eq]; omega)
  refine ⟨closed l i o, ⟨rfl, 0, by simp [closed, push], fun fuel => ?_⟩,
    h.rest_eq, h.column_eq, rfl, rfl, h.flow, h.starts, h.keyAllowed⟩
  cases fuel with
  | zero => rfl
  | succ fuel =>
    have hgap := skipGap_starts (l := closed l i o) (l.cursor.rest.length + 1) hstarts
    have hexpire := expireStarts?_of_starts (l := closed l i o) h.starts
    have hcursor : (closed l i o).cursor = l.cursor := rfl
    have hcolumn : (l.cursor.column : Int) ≤ j := Int.ofNat_le.2 (Nat.le_of_eq h.column_eq)
    simp only [run?, skipGap_starts _ hstarts, expireStarts?_of_starts h.starts, hcursor, hgap, hexpire,
      Option.bind_eq_bind, Option.bind_some, hclose (-1) (by omega), hclose _ hcolumn]

/-! ## The end of the text -/

/-- At the end all blocks are closed. -/
theorem tokens_closeTo {l : Lexer} (h : ∀ x ∈ (l.indent :: o).dropLast, 0 ≤ x)
    (hlast : (l.indent :: o).getLast? = some (-1)) :
    ∃ l', closeTo (-1) o l = l' ∧ l'.starts = l.starts ∧
      l'.tokens = List.replicate o.length .blockEnd ++ l.tokens := by
  induction o generalizing l with
  | nil => exact ⟨l, rfl, rfl, rfl⟩
  | cons j o ih =>
    have hindent : l.indent > -1 := by
      have := h l.indent (by simp)
      omega
    obtain ⟨l', hl', hstarts, htokens⟩ := ih
      (l := push .blockEnd { l with indent := j, outer := o })
      (fun x hx => h x (by simpa using .inr hx)) (by simpa [push] using hlast)
    refine ⟨l', ?_, hstarts, ?_⟩
    · rw [closeTo, if_pos hindent]
      exact hl'
    · rw [htokens]
      simp [push, List.replicate_succ']

theorem run?_end (fuel : Nat) (h : l.AtKey i o j []) (hi : ∀ x ∈ (i :: o).dropLast, 0 ≤ x)
    (hlast : (i :: o).getLast? = some (-1)) :
    run? (fuel + 1) l =
      some (l.tokens.reverse ++ List.replicate o.length .blockEnd ++ [.streamEnd]) := by
  obtain ⟨l', hl', hstarts, htokens⟩ := tokens_closeTo (l := l) (o := o)
    (by rw [h.indent_eq]; exact hi) (by rw [h.indent_eq]; exact hlast)
  have hclose : l.closeBlocks (-1) = l' := by
    simp [closeBlocks, h.flow, h.outer_eq, hl']
  have hdrop : l'.dropStart? = some l' := by
    simp [dropStart?, hstarts, h.starts]
  rw [run?, skipGap_starts _ (by rw [h.rest_eq]; simp [Starts])]
  simp only [expireStarts?_of_starts h.starts, Option.bind_eq_bind, Option.bind_some]
  rw [h.rest_eq]
  simp [hclose, hdrop, htokens]

/-- The tokens of a text that the lexer goes through to the end. -/
theorem ofChars?_of_goes (hallowed : ∀ d ∈ cs, isAllowed d = true) (h : (ofChars cs).Goes ts l)
    (hend : l.AtKey i o j []) (hi : ∀ x ∈ (i :: o).dropLast, 0 ≤ x)
    (hlast : (i :: o).getLast? = some (-1)) :
    Token.ofChars? cs = some (ts ++ List.replicate o.length .blockEnd ++ [.streamEnd]) := by
  obtain ⟨steps, hsteps, hrun⟩ := h.run
  have hfuel : cs.length + 2 = (cs.length + 1 - steps) + 1 + steps := by
    have : steps ≤ cs.length := Nat.le_trans (Nat.le_add_right _ _) hsteps
    omega
  rw [Token.ofChars?, if_pos (List.all_eq_true.2 hallowed), hfuel, hrun, run?_end _ hend hi hlast,
    h.tokens]
  simp [ofChars]

end Lexer

end SessionGuard.Yaml
