import SessionGuard.Yaml.Value

/-!
# Writing YAML

Collections are written as blocks, two blanks deeper each, except that a sequence in a mapping
keeps the indentation and an empty collection is `[]` or `\x7b\x7d`.  A text is quoted where its plain
form would be read as something else.
-/

namespace SessionGuard.Yaml

/-! ## Texts -/

/-- The characters that are written as they are. -/
def isShown (c : Char) : Bool :=
  let n := c.toNat
  n == 10 || (0x20 ≤ n && n ≤ 0x7E) || (0xA0 ≤ n && n ≤ 0xFFFD && n != 0xFEFF)

/-- What matters for the way to write a text. -/
structure Traits where
  /-- It has line breaks. -/
  multiline : Bool
  /-- Its plain form is a scalar of a block. -/
  plain : Bool
  /-- Its single-quoted form keeps it. -/
  single : Bool
  /-- Its literal form keeps it. -/
  literal : Bool
  deriving DecidableEq

/-- The signs that a plain scalar does not start with. -/
def isOpening (c : Char) : Bool :=
  c ∈ ['#', ',', '[', ']', '\x7b', '\x7d', '&', '*', '!', '|', '>', '\'', '"', '%', '@', '\x60']

/-- Whether a character is a blank or a line break. -/
def isGap (c : Char) : Bool := isSpace c || isBreak c

/-- Whether a blank or the end comes first. -/
def gapFirst : List Char → Bool
  | [] => true
  | c :: _ => isGap c

/-- Whether a colon stands before a blank, or a number sign after one. -/
def hasIndicator : Bool → List Char → Bool
  | _, [] => false
  | afterGap, c :: rest =>
    (c = ':' && gapFirst rest) || (c = '#' && afterGap) || hasIndicator (isGap c) rest

/-- Whether a text starts like something that is no plain scalar. -/
def opensOtherwise (cs : List Char) : Bool :=
  cs.take 3 == ['-', '-', '-'] || cs.take 3 == ['.', '.', '.'] ||
    match cs with
    | [] => false
    | c :: rest => isOpening c || ((c = '?' || c = ':' || c = '-') && gapFirst rest)

/-- Whether two neighbours are of two classes. -/
def hasPair (p q : Char → Bool) : List Char → Bool
  | c :: d :: rest => (p c && q d) || hasPair p q (d :: rest)
  | _ => false

def traits (cs : List Char) : Traits :=
  let blank := fun c => c == ' '
  let multiline := cs.any isBreak
  let edge := fun c => blank c || isBreak c
  let ends := (cs.head?.map edge).getD false || (cs.getLast?.map edge).getD false
  let breakBlank := hasPair isBreak blank cs
  let hidden := hasPair blank isBreak cs || !cs.all isShown
  let lastBlank := cs.getLast? == some ' '
  { multiline := multiline
    plain := !(ends || breakBlank || hidden || multiline || opensOtherwise cs
      || (match cs with
        | [] => false
        | c :: rest => hasIndicator (isGap c) rest))
    single := !(breakBlank || hidden)
    literal := !(cs.isEmpty || lastBlank || hidden) }

/-- Whether the plain form of a text is read as the text. -/
def readsAsText (s : String) : Bool :=
  match Plain.ofText s with
  | .string => !Plain.hasLeadingZero s.toList
  | _ => false

/-- The way to write a text; as a key it has to fit on one line. -/
def styleOf (s : String) (asKey : Bool) : Style :=
  let t := traits s.toList
  let quoted := if t.single then Style.singleQuoted else .doubleQuoted
  if '\n' ∈ s.toList then
    if t.literal && !asKey then .literal else .doubleQuoted
  else if asKey && t.multiline then .doubleQuoted
  else if readsAsText s && t.plain && !(s.isEmpty && asKey) then .plain
  else quoted

/-! ## The page -/

/-- What is written, latest first, the column, and what may follow: whether a blank or the start of
a line is in front (`spaced`), and whether only indentation is on the line (`fresh`). -/
structure Page where
  written : List Char
  column : Nat
  spaced : Bool
  fresh : Bool

namespace Page

def blank : Page := ⟨[], 0, true, true⟩

def text (p : Page) : String := String.ofList p.written.reverse

/-- A character that is no line break. -/
def put (c : Char) (p : Page) : Page := { p with written := c :: p.written, column := p.column + 1 }

def puts (cs : List Char) (p : Page) : Page := cs.foldl (fun p c => p.put c) p

def putBreak (c : Char) (p : Page) : Page := { p with written := c :: p.written, column := 0 }

/-- Blanks up to an indentation, on a new line unless it can be reached on this one. -/
def indent (n : Nat) (p : Page) : Page :=
  let p := if !p.fresh || p.column > n || (p.column == n && !p.spaced) then p.putBreak '\n' else p
  { p.puts (List.replicate (n - p.column) ' ') with spaced := true, fresh := true }

/-- A sign.  `apart` asks for a blank in front, `spaced` says that none is needed behind it, and
`fresh` that it counts for indentation. -/
def sign (cs : List Char) (apart spaced fresh : Bool) (p : Page) : Page :=
  let p := if apart && !p.spaced then p.put ' ' else p
  { p.puts cs with spaced := spaced, fresh := p.fresh && fresh }

/-- The inside of a plain scalar. -/
def plain (cs : List Char) (p : Page) : Page :=
  let p := if !p.spaced && !cs.isEmpty then p.put ' ' else p
  { p.puts cs with spaced := false, fresh := false }

/-- The inside of a single-quoted scalar; `broken` tells that a line break is in front. -/
def singleInside (n : Nat) : Bool → List Char → Page → Page
  | broken, [], p => if broken then p.indent n else p
  | broken, c :: rest, p =>
    if isBreak c then
      singleInside n true rest { (if !broken && c = '\n' then p.putBreak '\n' else p).putBreak c with
        fresh := true }
    else if c = ' ' then singleInside n broken rest (p.put ' ')
    else
      let p := if broken then p.indent n else p
      let p := if c = '\'' then p.put '\'' else p
      singleInside n false rest { p.put c with fresh := false }

def singleQuoted (n : Nat) (cs : List Char) (p : Page) : Page :=
  let p := p.sign ['\''] true false false
  (singleInside n false cs p).sign ['\''] false false false

/-- A number to base sixteen with capital digits, zeros in front up to a width. -/
def capitalHex (width n : Nat) : List Char :=
  let digits := (Nat.toDigits 16 n).map Char.toUpper
  List.replicate (width - digits.length) '0' ++ digits

/-- A character inside double quotes. -/
def escape (c : Char) : List Char :=
  if isShown c && c != '"' && c != '\\' && !isBreak c then [c]
  else
    match c with
    | '\x00' => ['\\', '0']
    | '\x07' => ['\\', 'a']
    | '\x08' => ['\\', 'b']
    | '\t' => ['\\', 't']
    | '\n' => ['\\', 'n']
    | '\x0b' => ['\\', 'v']
    | '\x0c' => ['\\', 'f']
    | '\r' => ['\\', 'r']
    | '\x1b' => ['\\', 'e']
    | '"' => ['\\', '"']
    | '\\' => ['\\', '\\']
    | '\u0085' => ['\\', 'N']
    | '\u2028' => ['\\', 'L']
    | '\u2029' => ['\\', 'P']
    | c =>
      if c.toNat ≤ 0xFF then '\\' :: 'x' :: capitalHex 2 c.toNat
      else if c.toNat ≤ 0xFFFF then '\\' :: 'u' :: capitalHex 4 c.toNat
      else '\\' :: 'U' :: capitalHex 8 c.toNat

def doubleQuoted (cs : List Char) (p : Page) : Page :=
  ((p.sign ['"'] true false false).puts (cs.flatMap escape)).sign ['"'] false false false

/-- The signs of a literal: the indentation where the text starts with a gap, and what to do with
the line breaks at its end. -/
def literalSigns (cs : List Char) : List Char :=
  let start :=
    match cs with
    | c :: _ => if c = ' ' || isBreak c then ['2'] else []
    | [] => []
  let chomp :=
    match cs.reverse with
    | [] => ['-']
    | [c] => if isBreak c then ['+'] else ['-']
    | c :: d :: _ => if !isBreak c then ['-'] else if isBreak d then ['+'] else []
  start ++ chomp

def literalInside (n : Nat) : Bool → List Char → Page → Page
  | _, [], p => p
  | broken, c :: rest, p =>
    if isBreak c then literalInside n true rest { p.putBreak c with fresh := true }
    else
      let p := if broken then p.indent n else p
      literalInside n false rest { p.put c with fresh := false }

def literal (n : Nat) (cs : List Char) (p : Page) : Page :=
  let p := ((p.sign ['|'] true false false).sign (literalSigns cs) false false false).putBreak '\n'
  literalInside n true cs { p with spaced := true, fresh := true }

/-- A text in a style, its lines indented to `n`. -/
def scalar (n : Nat) (s : String) (style : Style) (p : Page) : Page :=
  match style with
  | .plain => p.plain s.toList
  | .singleQuoted => p.singleQuoted n s.toList
  | .doubleQuoted => p.doubleQuoted s.toList
  | .literal | .folded => p.literal n s.toList

end Page

/-! ## Values -/

/-- The text of a real number. -/
def Real.text : Real → List Char
  | .finite x => x.text
  | .infinite false => ['.', 'i', 'n', 'f']
  | .infinite true => ['-', '.', 'i', 'n', 'f']
  | .notANumber => ['.', 'n', 'a', 'n']

/-- The characters of a tag that are written as they are. -/
def isTagChar (c : Char) : Bool :=
  isWordChar c || c ∈ [';', '/', '?', ':', '@', '&', '=', '+', '$', ',', '.', '!', '~', '*', '\'',
    '(', ')', '[', ']']

/-- A tag as it is written. -/
def tagText (tag : String) : List Char :=
  '!' :: tag.toList.flatMap fun c =>
    if isTagChar c then [c]
    else (String.ofList [c]).toUTF8.data.toList.flatMap fun b => '%' :: Page.capitalHex 2 b.toNat

namespace Value

/-- The tag of a value and the value behind it. -/
def untag : Value → Option String × Value
  | tagged t v => (some t, v)
  | v => (none, v)

/-- The text of a scalar and the way to write it. -/
def scalar? (asKey : Bool) : Value → Option (String × Style)
  | null => some ("null", .plain)
  | bool true => some ("true", .plain)
  | bool false => some ("false", .plain)
  | int n => some (toString n, .plain)
  | real r => some (String.ofList r.text, .plain)
  | string s => some (s, styleOf s asKey)
  | _ => none

/-- The length of a tag as it is written. -/
def tagLength : Option String → Nat
  | some t => t.utf8ByteSize + 1
  | none => 0

/-- Whether a value can be a key without a question mark: it is a scalar or an empty collection of
one line and at most 128 bytes. -/
def isSimpleKey (v : Value) : Bool :=
  let (tag, v) := v.untag
  match v with
  | sequence items => items.isEmpty && tagLength tag ≤ 128
  | mapping entries => entries.isEmpty && tagLength tag ≤ 128
  | string s => !s.toList.any isBreak && tagLength tag + s.utf8ByteSize ≤ 128
  | _ => true

/-- Where a value stands: its indentation, whether it belongs to an entry of a mapping, and whether
it is a key without a question mark. -/
structure Place where
  indent : Nat
  inMapping : Bool
  asKey : Bool

/-- Writes a value of at most `depth` levels. -/
def write : Nat → Place → Value → Page → Page
  | 0, _, _, p => p
  | depth + 1, place, v, p =>
    let (tag, v) := v.untag
    let p :=
      match tag with
      | some t => p.sign (tagText t) true false false
      | none => p
    match v with
    | sequence [] => p.sign ['[', ']'] true false false
    | mapping [] => p.sign ['\x7b', '\x7d'] true false false
    | sequence items =>
      let n := if place.inMapping && !p.fresh then place.indent else place.indent + 2
      items.foldl (fun p item =>
        write depth ⟨n, false, false⟩ item ((p.indent n).sign ['-'] true false true)) p
    | mapping entries =>
      let n := place.indent + 2
      entries.foldl (fun p (k, v) =>
        let p := p.indent n
        if k.isSimpleKey then
          let p := (write depth ⟨n, true, true⟩ k p).sign [':'] false false false
          write depth ⟨n, true, false⟩ v p
        else
          let p := write depth ⟨n, true, false⟩ k (p.sign ['?'] true false true)
          let p := (p.indent n).sign [':'] true false true
          write depth ⟨n, true, false⟩ v p) p
    | v =>
      match v.scalar? place.asKey with
      | some (s, style) => p.scalar (place.indent + 2) s style
      | none => p

/-- Whether a key makes a mapping of one entry impossible to write: it is a mapping of one entry
itself, or tagged. -/
def isAwkwardKey : Value → Bool
  | mapping [_] => true
  | tagged _ _ => true
  | _ => false

/-- Whether a value of at most `depth` levels can be written. -/
def isWritable : Nat → Value → Bool
  | 0, _ => false
  | depth + 1, v =>
    match v with
    | tagged _ (mapping entries) =>
      entries.all fun e => isWritable depth e.1 && isWritable depth e.2
    | tagged _ v => isWritable depth v
    | mapping [(k, v)] => !isAwkwardKey k && isWritable depth k && isWritable depth v
    | mapping entries => entries.all fun e => isWritable depth e.1 && isWritable depth e.2
    | sequence items => items.all (isWritable depth)
    | _ => true

end Value

/-- How deep a value to write may be. -/
def maxWriteDepth : Nat := 1024

/-- The text of a document that is a mapping from texts. -/
def render (entries : List (String × Value)) : String :=
  let p := Page.blank
  let p :=
    if entries.isEmpty then p.sign ['\x7b', '\x7d'] true false false
    else
      entries.foldl (fun p (k, v) =>
        let p := p.indent 0
        if (Value.string k).isSimpleKey then
          let p := ((Value.string k).write 1 ⟨0, true, true⟩ p).sign [':'] false false false
          v.write maxWriteDepth ⟨0, true, false⟩ p
        else
          let p := (Value.string k).write 1 ⟨0, true, false⟩ (p.sign ['?'] true false true)
          let p := (p.indent 0).sign [':'] true false true
          v.write maxWriteDepth ⟨0, true, false⟩ p) p
  (p.indent 0).text

end SessionGuard.Yaml
