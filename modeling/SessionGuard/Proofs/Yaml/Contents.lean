import SessionGuard.Proofs.Yaml.Decimal
import SessionGuard.Proofs.Yaml.Entries

/-!
# Blocks of names are read again

A content is what stands behind a name, with how it is written and that it is read again.  A scalar
is one (`Content.scalar`), and so is a block of names with contents (`Content.block`).  The text of a
document of names is read as the mapping of their contents (`Field.ofString?_render`).
-/

namespace SessionGuard.Yaml

/-- What stands behind a name, with how it is written and that it is read again. -/
structure Content where
  value : Value
  /-- How many mappings lie in each other. -/
  height : Nat
  /-- What stands on the page behind the colon of a name in a column. -/
  lines : Nat → List Char
  tokens : List Token
  /-- The node of the tokens, with its anchors by name. -/
  parsed : Node (List Char)
  node : Node Nat
  isWritable : ∀ depth, height < depth → value.isWritable depth = true
  /-- Behind a colon the writer leaves the lines. -/
  write : ∀ (depth k : Nat) {p : Page}, height < depth → p.spaced = false → p.fresh = false →
    (value.write depth ⟨k, true, false⟩ p).Lines (p.chars ++ lines k)
  isShown : ∀ k, ∀ d ∈ lines k, isShown d = true
  /-- Behind a key the lexer gives the tokens for the lines, and goes on with the next line. -/
  goes : ∀ {l : Lexer} {i : Int} {o : List Int} {j k : Nat} {key rest : List Char}, IsKey key →
    Lexer.Starts rest → i ≤ k → j ≤ k →
    l.AtKey i o k (key ++ ':' :: (lines k ++ (List.replicate j ' ' ++ rest))) →
    ∃ l', l.Goes (Lexer.opening i k ++ Lexer.keyTokens key ++ tokens) l' ∧
      l'.AtKey k (Lexer.enclosing i k o) j rest
  /-- The tokens are not taken for an entry without a value. -/
  present : ∀ ts, Node.endsEntry (tokens ++ ts) = false
  /-- The parser takes the tokens, and no more of what follows. -/
  take : ∀ (fuel : Nat) (flat : Bool) (ts : List Token), tokens.length ≤ fuel →
    Node.take? Node.commonHandles fuel true flat (tokens ++ ts) = some (parsed, ts)
  number : ∀ known, parsed.number? known = some (node, known)
  anchored : node.anchored = []
  /-- The node is read as the value. -/
  reads : ∀ (d : Document) {depth : Nat}, height ≤ depth → d.value depth false node = pure value

/-- A name that stands before a colon as it is, and what stands behind the colon. -/
structure Field where
  name : String
  isName : IsName name
  content : Content

namespace Field

def value (f : Field) : String × Value := (f.name, f.content.value)

/-- The name and the value as an entry of a mapping. -/
def pair (f : Field) : Value × Value := (.string f.name, f.content.value)

def tokens (f : Field) : List Token := Lexer.keyTokens f.name.toList ++ f.content.tokens

def parsed (f : Field) : Node (List Char) × Node (List Char) :=
  (.scalar .empty f.name.toList .plain, f.content.parsed)

def node (f : Field) : Node Nat × Node Nat :=
  (.scalar .empty f.name.toList .plain, f.content.node)

/-- What stands on the page for an entry in a column. -/
def lines (k : Nat) (f : Field) : List Char :=
  List.replicate k ' ' ++ (f.name.toList ++ ':' :: f.content.lines k)

/-- How many mappings lie in each other behind the names. -/
def height : List Field → Nat
  | [] => 0
  | f :: fs => max f.content.height (height fs)

variable {fs : List Field} {f : Field} {k : Nat}

theorem height_of_mem (h : f ∈ fs) : f.content.height ≤ height fs := by
  induction fs with
  | nil => cases h
  | cons g fs ih =>
    rcases List.mem_cons.1 h with rfl | h
    · exact Nat.le_max_left _ _
    · exact Nat.le_trans (ih h) (Nat.le_max_right _ _)

/-! ## On the page -/

theorem isShown_of_mem_lines (k : Nat) (f : Field) : ∀ d ∈ f.lines k, isShown d = true := by
  have hblanks : ∀ d ∈ List.replicate k ' ', isShown d = true := by
    intro d hd
    rw [List.eq_of_mem_replicate hd]
    rfl
  simp only [lines, List.forall_mem_append, List.forall_mem_cons]
  exact ⟨hblanks, f.isName.isKey.isShown, rfl, f.content.isShown k⟩

theorem lines_named {depth : Nat} {p : Page} {cs : List Char} (hheight : f.content.height < depth)
    (h : p.Lines cs) : (p.named depth k f.value).Lines (cs ++ f.lines k) := by
  have hkey := Page.chars_key f.name.toList (Page.spaced_indent k p)
  have hwrite := f.content.write depth k
    (p := ((p.indent k).plain f.name.toList).sign [':'] false false false) hheight rfl rfl
  rw [hkey, h k] at hwrite
  simpa [Page.named, value, lines] using hwrite

/-- What stands on the page for entries in a column. -/
theorem lines_names {depth : Nat} {p : Page} {cs : List Char} (hheight : height fs < depth)
    (h : p.Lines cs) :
    ((fs.map value).foldl (Page.named depth k) p).Lines (cs ++ fs.flatMap (lines k)) := by
  induction fs generalizing p cs with
  | nil => simpa using h
  | cons f fs ih =>
    obtain ⟨hf, hfs⟩ := Nat.max_lt.1 hheight
    simpa using ih hfs (lines_named hf h)

/-- A mapping of names in an entry stands on lines of its own. -/
theorem write_block (hne : fs ≠ []) (depth n : Nat) (p : Page) :
    (Value.mapping (fs.map pair)).write (depth + 2) ⟨n, true, false⟩ p =
      (fs.map value).foldl (Page.named (depth + 1) (n + 2)) p := by
  have hkey (f : Field) (p : Page) :
      (Value.string f.name).write (depth + 1) ⟨n + 2, true, true⟩ p = p.plain f.name.toList := by
    show p.scalar (n + 2 + 2) f.name (styleOf f.name true) = _
    rw [f.isName.style, Page.scalar]
  obtain ⟨f, fs, rfl⟩ := List.exists_cons_of_ne_nil hne
  show List.foldl _ p ((f :: fs).map pair) = _
  generalize f :: fs = fs
  induction fs generalizing p with
  | nil => rfl
  | cons f fs ih =>
    rw [List.map_cons, List.foldl_cons, List.map_cons, List.foldl_cons, ih]
    simp only [pair, f.isName.simple, if_true, hkey]
    rfl

theorem lines_block {depth : Nat} {p : Page} (hne : fs ≠ []) (hheight : height fs + 1 < depth)
    (hfresh : p.fresh = false) :
    ((Value.mapping (fs.map pair)).write depth ⟨k, true, false⟩ p).Lines
      (p.chars ++ '\n' :: fs.flatMap (lines (k + 2))) := by
  obtain ⟨depth, rfl⟩ : ∃ n, depth = n + 2 := ⟨depth - 2, by omega⟩
  have hline : p.Lines (p.chars ++ ['\n']) := fun j => by
    rw [Page.chars_indent_of_not_fresh hfresh]
    simp
  rw [write_block hne]
  simpa using lines_names (k := k + 2) (Nat.lt_of_succ_lt_succ hheight) hline

theorem isWritable_block {depth : Nat} (hheight : height fs + 1 < depth) :
    (Value.mapping (fs.map pair)).isWritable depth = true := by
  obtain ⟨depth, rfl⟩ : ∃ n, depth = n + 2 := ⟨depth - 2, by omega⟩
  have hpairs : ∀ f ∈ fs,
      f.pair.1.isWritable (depth + 1) = true ∧ f.pair.2.isWritable (depth + 1) = true :=
    fun f hf => ⟨rfl, f.content.isWritable _
      (Nat.lt_of_le_of_lt (height_of_mem hf) (Nat.lt_of_succ_lt_succ hheight))⟩
  match fs with
  | [] => rfl
  | [f] => simpa [Value.isWritable, pair, Value.isAwkwardKey] using hpairs f (by simp)
  | f :: g :: fs => simpa [Value.isWritable, pair] using hpairs

/-! ## In the text -/

section Lexing

open Lexer

variable {l : Lexer} {i : Int} {o : List Int} {j : Nat} {rest : List Char}

/-- Entries of one column give their tokens, and the lexer goes on with the next line. -/
theorem goes_lines (hrest : Starts rest) (hle : i ≤ k) (hj : j ≤ k)
    (h : l.AtKey i o k (f.name.toList ++ ':' :: (f.content.lines k ++
      (fs.flatMap (lines k) ++ (List.replicate j ' ' ++ rest))))) :
    ∃ l', l.Goes (opening i k ++ (f :: fs).flatMap tokens) l' ∧
      l'.AtKey k (enclosing i k o) j rest := by
  induction fs generalizing l i o f with
  | nil =>
    obtain ⟨l', hgoes, hat⟩ := f.content.goes f.isName.isKey hrest hle hj h
    exact ⟨l', by simpa [tokens] using hgoes, hat⟩
  | cons g fs ih =>
    have hkey : l.AtKey i o k (f.name.toList ++ ':' :: (f.content.lines k ++
        (List.replicate k ' ' ++ (g.name.toList ++ ':' :: (g.content.lines k ++
          (fs.flatMap (lines k) ++ (List.replicate j ' ' ++ rest))))))) := by
      simpa [lines] using h
    obtain ⟨l', hgoes, hat⟩ := f.content.goes f.isName.isKey (starts_of_isKey g.isName.isKey) hle
      (Nat.le_refl k) hkey
    obtain ⟨l'', hgoes', hat'⟩ := ih (Int.le_refl k) hat
    have hopening : opening k k = [] := if_neg (Int.lt_irrefl k)
    have henclosing : enclosing k k (enclosing i k o) = enclosing i k o := if_neg (Int.lt_irrefl k)
    rw [hopening] at hgoes'
    rw [henclosing] at hat'
    exact ⟨l'', by simpa [tokens] using hgoes.trans hgoes', hat'⟩

/-- A name with a block of entries behind it gives the tokens of the block, and the lexer goes on
with the next line, where the block is closed. -/
theorem goes_block {key : List Char} (hkey : IsKey key) (hrest : Starts rest) (hle : i ≤ k)
    (hj : j ≤ k)
    (h : l.AtKey i o k (key ++ ':' :: ('\n' :: (f :: fs).flatMap (lines (k + 2)) ++
      (List.replicate j ' ' ++ rest)))) :
    ∃ l', l.Goes (opening i k ++ keyTokens key ++
        .blockMapping :: ((f :: fs).flatMap tokens ++ [.blockEnd])) l' ∧
      l'.AtKey k (enclosing i k o) j rest := by
  have hparent : l.AtKey i o k (key ++ ':' :: '\n' :: (List.replicate (k + 2) ' ' ++
      (f.name.toList ++ ':' :: (f.content.lines (k + 2) ++ (fs.flatMap (lines (k + 2)) ++
        (List.replicate j ' ' ++ rest)))))) := by
    simpa [lines] using h
  have hlt : (k : Int) < (k + 2 : Nat) := by omega
  obtain ⟨l₁, hgoes₁, hat₁⟩ := goes_parent hkey (starts_of_isKey f.isName.isKey) hle hparent
  obtain ⟨l₂, hgoes₂, hat₂⟩ := goes_lines hrest (Int.le_of_lt hlt) (Nat.le_add_right_of_le hj) hat₁
  rw [opening, if_pos hlt] at hgoes₂
  rw [enclosing, if_pos hlt] at hat₂
  obtain ⟨l₃, hgoes₃, hat₃⟩ := goes_close hrest (by omega) hat₂
  exact ⟨l₃, by simpa using (hgoes₁.trans hgoes₂).trans hgoes₃, hat₃⟩

end Lexing

/-! ## Nodes -/

theorem length_flatMap_tokens (f : Field) (fs : List Field) :
    ((f :: fs).flatMap tokens).length =
      3 + f.content.tokens.length + (fs.flatMap tokens).length := by
  simp only [List.flatMap_cons, tokens, Lexer.keyTokens, List.length_append, List.length_cons,
    List.length_nil]

/-- The tokens of entries are parsed up to the end of their block. -/
theorem takeEntries?_tokens (fuel : Nat) (ts : List Token)
    (hfuel : (fs.flatMap tokens).length < fuel) :
    Node.takeEntries? Node.commonHandles fuel (fs.flatMap tokens ++ .blockEnd :: ts) =
      some (fs.map parsed, ts) := by
  induction fs generalizing fuel with
  | nil =>
    obtain ⟨fuel, rfl⟩ : ∃ n, fuel = n + 1 := ⟨fuel - 1, by omega⟩
    rfl
  | cons f fs ih =>
    rw [length_flatMap_tokens] at hfuel
    obtain ⟨fuel, rfl⟩ : ∃ n, fuel = n + 3 := ⟨fuel - 3, by omega⟩
    have hkey (ts : List Token) : Node.take? Node.commonHandles (fuel + 2) true true
        (.scalar f.name.toList .plain :: ts) = some (.scalar .empty f.name.toList .plain, ts) := rfl
    have htake := f.content.take (fuel + 1) true (fs.flatMap tokens ++ .blockEnd :: ts) (by omega)
    have hrest := ih (fuel + 2) (by omega)
    have hscalar (ts : List Token) :
        Node.endsEntry (.scalar f.name.toList .plain :: ts) = false := rfl
    simp [tokens, Lexer.keyTokens, Node.takeEntries?, Node.takeValue?, hscalar, hkey,
      f.content.present, htake, hrest, parsed]

/-- The tokens of a block are parsed as its mapping. -/
theorem take?_block {fuel : Nat} (flat : Bool) (ts : List Token)
    (hfuel : (fs.flatMap tokens).length + 1 < fuel) :
    Node.take? Node.commonHandles fuel true flat
        (.blockMapping :: (fs.flatMap tokens ++ .blockEnd :: ts)) =
      some (.mapping .empty (fs.map parsed), ts) := by
  obtain ⟨fuel, rfl⟩ : ∃ n, fuel = n + 1 := ⟨fuel - 1, by omega⟩
  have hentries := takeEntries?_tokens fuel ts (Nat.lt_of_succ_lt_succ hfuel)
  simp [Node.take?, Node.takeProps?, hentries]

theorem numberEntries?_parsed (known : List (List Char × Nat)) :
    Node.numberEntries? (fs.map parsed) known = some (fs.map node, known) := by
  induction fs with
  | nil => rfl
  | cons f fs ih =>
    have hkey : (Node.scalar Props.empty f.name.toList .plain).number? known =
        some (.scalar .empty f.name.toList .plain, known) := rfl
    simp [Node.numberEntries?, parsed, node, hkey, f.content.number, ih]

theorem anchoredEntries_node (fs : List Field) : Node.anchoredEntries (fs.map node) = [] := by
  induction fs with
  | nil => rfl
  | cons f fs ih =>
    have hkey : (Node.scalar Props.empty f.name.toList .plain).anchored = [] := rfl
    simp [Node.anchoredEntries, node, hkey, f.content.anchored, ih]

theorem number?_block (known : List (List Char × Nat)) :
    (Node.mapping .empty (fs.map parsed)).number? known =
      some (.mapping .empty (fs.map node), known) := by
  simp [Node.number?, Node.numberProps, Props.empty, numberEntries?_parsed]

theorem anchored_block (fs : List Field) : (Node.mapping .empty (fs.map node)).anchored = [] := by
  simp [Node.anchored, Node.anchoredHere, Props.empty, anchoredEntries_node]

/-! ## Values -/

/-- The key of an entry is read as its name. -/
theorem text_node (d : Document) (f : Field) : d.text f.node.1 = pure f.name := by
  show (pure (String.ofList f.name.toList) : Document.Reader String) = pure f.name
  rw [String.ofList_toList]

theorem value_scalar {s : String} {style : Style} {v : Value}
    (h : Document.scalarValue? none s style = some v) (d : Document) (depth : Nat) :
    d.value depth false (.scalar .empty s.toList style) = pure v := by
  have hvalue : d.value depth false (.scalar .empty s.toList style) =
      Document.value.scalarNode .empty s.toList style false := by
    cases depth <;> rfl
  rw [hvalue]
  simp [Document.value.scalarNode, Document.ownTag?, Props.empty, h, Document.value.wrap]

theorem value_name {name : String} (h : IsName name) (d : Document) (depth : Nat) :
    d.value depth false (.scalar .empty name.toList .plain) = pure (.string name) :=
  value_scalar (by simp [Document.scalarValue?, Document.plainValue?, h.isText]) d depth

/-- Entries that are read one by one are read together. -/
theorem mapM_node {β : Type} {read : Node Nat × Node Nat → Document.Reader β} {out : Field → β}
    (h : ∀ f ∈ fs, read f.node = pure (out f)) : (fs.map node).mapM read = pure (fs.map out) := by
  induction fs with
  | nil => rfl
  | cons f fs ih =>
    rw [List.map_cons, List.mapM_cons, h f (by simp), ih fun g hg => h g (by simp [hg])]
    simp

theorem distinct?_names (hnodup : (fs.map name).Nodup) :
    Document.distinct? (fs.map pair) = some (fs.map pair) := by
  induction fs with
  | nil => rfl
  | cons f fs ih =>
    obtain ⟨hmem, hfs⟩ := List.nodup_cons.1 hnodup
    have hsame (s t : String) : Value.same (2 * Document.maxDepth + 2) (.string s) (.string t) =
        (s == t) := rfl
    have hother : (fs.map pair).any
        (fun g => Value.same (2 * Document.maxDepth + 2) (.string f.name) g.1) = false := by
      simp only [List.any_map, List.any_eq_false, Function.comp_apply, pair, hsame, beq_iff_eq]
      exact fun g hg hf => hmem (List.mem_map.2 ⟨g, hg, hf.symm⟩)
    show Document.distinct? ((Value.string f.name, f.content.value) :: fs.map pair) = _
    rw [Document.distinct?, ih hfs, Option.bind_eq_bind, Option.bind_some, hother]
    rfl

/-- The mapping of a block is read as the mapping of its values. -/
theorem value_block {depth : Nat} (hnodup : (fs.map name).Nodup) (d : Document)
    (hheight : height fs ≤ depth) :
    d.value (depth + 1) false (.mapping .empty (fs.map node)) = pure (.mapping (fs.map pair)) := by
  have hpairs : ((fs.map node).mapM fun e => do
      let k ← d.value depth false e.1
      let v ← d.value depth false e.2
      pure (k, v)) = (pure (fs.map pair) : Document.Reader _) :=
    mapM_node fun f hf => by
      have hle := Nat.le_trans (height_of_mem hf) hheight
      simp [node, pair, value_name f.isName, f.content.reads d hle]
  have hfollow : d.follow (.mapping .empty (fs.map node)) =
      pure (.mapping .empty (fs.map node)) := rfl
  rw [Document.value, hfollow, pure_bind]
  simp only [Document.ownTag?, Props.empty, ite_self, Option.isSome_none, Bool.or_false, hpairs,
    pure_bind, distinct?_names hnodup, Document.value.wrap]

end Field

namespace Content

/-! ## Scalars -/

theorem write_scalar {v : Value} {s : String} {style : Style}
    (h : v.scalar? false = some (s, style)) (depth k : Nat) (p : Page) :
    v.write (depth + 1) ⟨k, true, false⟩ p = p.scalar (k + 2) s style := by
  cases v with
  | null | int | real | string =>
    obtain ⟨rfl, rfl⟩ := Prod.mk.inj (Option.some.inj h)
    rfl
  | bool b => cases b <;> (obtain ⟨rfl, rfl⟩ := Prod.mk.inj (Option.some.inj h); rfl)
  | sequence | mapping | tagged => cases h

/-- A scalar whose text is shown in its style and is read as it. -/
def scalar (v : Value) (s : String) (style : Style) (hwritten : v.scalar? false = some (s, style))
    (hshows : style.Shows s.toList) (hread : Document.scalarValue? none s style = some v) :
    Content where
  value := v
  height := 0
  lines k := line (k + 2) s.toList style
  tokens := [.scalar s.toList style]
  parsed := .scalar .empty s.toList style
  node := .scalar .empty s.toList style
  isWritable depth hdepth := by
    obtain ⟨depth, rfl⟩ : ∃ n, depth = n + 1 := ⟨depth - 1, by omega⟩
    cases v with
    | null | bool | int | real | string => rfl
    | sequence | mapping | tagged => cases hwritten
  write depth k p hdepth hspaced _ := by
    obtain ⟨depth, rfl⟩ : ∃ n, depth = n + 1 := ⟨depth - 1, by omega⟩
    rw [write_scalar hwritten]
    intro j
    rw [Page.chars_scalar (Nat.succ_pos _) hspaced hshows, List.append_assoc]
  isShown _ := isShown_of_mem_line hshows
  goes hkey hrest hle hj h := Lexer.goes_entry hkey hshows hrest hle hj h
  present _ := rfl
  take fuel flat ts hfuel := by
    obtain ⟨fuel, rfl⟩ := Nat.exists_eq_add_of_le' hfuel
    rfl
  number _ := rfl
  anchored := rfl
  reads d depth _ := Field.value_scalar hread d depth

/-- A text that its style keeps is read as a text. -/
theorem scalarValue?_of_keeps {s : String} {style : Style} (hkeeps : style.Keeps s.toList) :
    Document.scalarValue? none s style = some (.string s) := by
  have htext := hkeeps.isText
  rw [String.ofList_toList] at htext
  cases style with
  | plain => simp [Document.scalarValue?, Document.plainValue?, htext]
  | _ => rfl

def text (s : String) : Content :=
  .scalar (.string s) s (styleOf s false) rfl (keeps_styleOf s).shows
    (scalarValue?_of_keeps (keeps_styleOf s))

/-- An integer that fits in 64 bits, with a sign or without one. -/
def integer (n : Int) (hlow : -(Nat.pow 2 63 : Int) ≤ n) (hhigh : n < UInt64.size) : Content :=
  .scalar (.int n) (toString n) .plain rfl (shows_toString n)
    (by
      rw [Document.scalarValue?, if_pos rfl, Document.plainValue?,
        ofText_of_int? (int?_toString hlow hhigh)])

/-- The word for a boolean. -/
def flagWord (b : Bool) : String := if b then "true" else "false"

theorem shows_word {s : String} (hne : s.toList ≠ []) (h : (traits s.toList).plain = true) :
    Style.plain.Shows s.toList :=
  ⟨hne, traits_plain h⟩

def flag (b : Bool) : Content :=
  .scalar (.bool b) (flagWord b) .plain (by cases b <;> rfl)
    (by cases b <;> exact shows_word (by decide) (by decide)) (by cases b <;> rfl)

/-! ## Blocks -/

variable {fs : List Field}

/-- Names, each once, with their contents on lines of their own. -/
def block (fs : List Field) (hne : fs ≠ []) (hnodup : (fs.map Field.name).Nodup) : Content where
  value := .mapping (fs.map Field.pair)
  height := Field.height fs + 1
  lines k := '\n' :: fs.flatMap (Field.lines (k + 2))
  tokens := .blockMapping :: (fs.flatMap Field.tokens ++ [.blockEnd])
  parsed := .mapping .empty (fs.map Field.parsed)
  node := .mapping .empty (fs.map Field.node)
  isWritable _ hdepth := Field.isWritable_block hdepth
  write _ _ _ hdepth _ hfresh := Field.lines_block hne hdepth hfresh
  isShown k := by
    simp only [List.forall_mem_cons, List.mem_flatMap]
    exact ⟨rfl, fun d ⟨f, _, hd⟩ => Field.isShown_of_mem_lines (k + 2) f d hd⟩
  goes hkey hrest hle hj h := by
    obtain ⟨f, fs, rfl⟩ := List.exists_cons_of_ne_nil hne
    exact Field.goes_block hkey hrest hle hj h
  present _ := rfl
  take fuel flat ts hfuel := by
    simp only [List.length_cons, List.length_append, List.length_nil] at hfuel
    simpa using Field.take?_block flat ts (Nat.lt_of_succ_le hfuel)
  number known := Field.number?_block known
  anchored := Field.anchored_block fs
  reads d depth hdepth := by
    obtain ⟨depth, rfl⟩ := Nat.exists_eq_add_of_le' hdepth
    exact Field.value_block hnodup d (Nat.le_add_left _ _)

end Content

/-! ## Documents -/

namespace Field

variable {fs : List Field}

theorem foldl_entry (fs : List Field) (p : Page) :
    (fs.map value).foldl Page.entry p = (fs.map value).foldl (Page.named maxWriteDepth 0) p := by
  induction fs generalizing p with
  | nil => rfl
  | cons f fs ih =>
    rw [List.map_cons, List.foldl_cons, List.foldl_cons, ih, value, Page.entry_eq f.isName]

/-- The text of a document of names. -/
theorem toList_render (hne : fs ≠ []) (hheight : height fs < maxWriteDepth) :
    (render (fs.map value)).toList = fs.flatMap (lines 0) := by
  have hblank : Page.blank.Lines [] := fun _ => Page.chars_indent_of_spaced rfl rfl rfl
  have hlines := lines_names (k := 0) hheight hblank 0
  rw [Page.render_eq (by simpa using hne), foldl_entry, Page.text, String.toList_ofList]
  simpa [Page.chars] using hlines

theorem isShown_of_mem_render (hne : fs ≠ []) (hheight : height fs < maxWriteDepth) :
    ∀ d ∈ (render (fs.map value)).toList, isShown d = true := by
  rw [toList_render hne hheight]
  intro d hd
  obtain ⟨f, -, hd⟩ := List.mem_flatMap.1 hd
  exact isShown_of_mem_lines 0 f d hd

theorem ofChars?_render (hne : fs ≠ []) (hheight : height fs < maxWriteDepth) :
    Token.ofChars? (render (fs.map value)).toList =
      some (.blockMapping :: (fs.flatMap tokens ++ [.blockEnd, .streamEnd])) := by
  have hallowed : ∀ d ∈ (render (fs.map value)).toList, isAllowed d = true :=
    fun d hd => isAllowed_of_isShown (isShown_of_mem_render hne hheight d hd)
  have htext := toList_render hne hheight
  obtain ⟨f, fs, rfl⟩ := List.exists_cons_of_ne_nil hne
  have hstart : (Lexer.ofChars (render ((f :: fs).map value)).toList).AtKey (-1) [] (0 : Nat)
      (f.name.toList ++ ':' :: (f.content.lines 0 ++
        (fs.flatMap (lines 0) ++ (List.replicate 0 ' ' ++ [])))) :=
    Lexer.atKey_ofChars (by simpa [lines] using htext)
  obtain ⟨l, hgoes, hat⟩ := goes_lines (by simp [Lexer.Starts]) (by decide) (Nat.le_refl 0) hstart
  rw [Lexer.ofChars?_of_goes hallowed hgoes hat (by decide) (by decide)]
  simp [Lexer.opening, Lexer.enclosing]

/-- The text of a document of names is read as the mapping of its entries. -/
theorem ofString?_render (hne : fs ≠ []) (hheight : height fs < maxWriteDepth) :
    ∃ limit, Document.ofString? (render (fs.map value)) =
      some ⟨some (.mapping .empty (fs.map node)), [], limit⟩ := by
  have hroot : Node.ofTokens? (.blockMapping :: (fs.flatMap tokens ++ [.blockEnd, .streamEnd])) =
      some (some (.mapping .empty (fs.map parsed))) := by
    have htake : Node.take? Node.commonHandles
        (4 * (Token.blockMapping :: (fs.flatMap tokens ++ [.blockEnd, .streamEnd])).length + 4) true
        false (.blockMapping :: (fs.flatMap tokens ++ [.blockEnd, .streamEnd])) =
          some (.mapping .empty (fs.map parsed), [.streamEnd]) :=
      take?_block false [.streamEnd] (by simp only [List.length_cons, List.length_append]; omega)
    simp only [Node.ofTokens?, htake]
    rfl
  rw [Document.ofString?, ofChars?_render hne hheight]
  simp [hroot, number?_block, anchored_block]

end Field

end SessionGuard.Yaml
