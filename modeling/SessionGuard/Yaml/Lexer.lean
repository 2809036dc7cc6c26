import SessionGuard.Yaml.Scalar

/-!
# From text to tokens

The lexer keeps the indentation of the open block collections and, for each flow collection, the
place where a key without a question mark may have started.  When a colon shows that it was a key,
its tokens are put in front of it.
-/

namespace SessionGuard.Yaml

/-- Where a key may have started, and how many tokens came before it.  A `required` one has to
turn out to be a key. -/
structure KeyStart where
  required : Bool
  position : Nat
  line : Nat
  column : Nat
  index : Nat

/-- The lexer: tokens latest first, the open indentations innermost first, and the possible key of
each flow collection innermost first. -/
structure Lexer where
  cursor : Cursor
  tokens : List Token
  count : Nat
  indent : Int
  outer : List Int
  flow : Nat
  starts : List (Option KeyStart)
  keyAllowed : Bool

namespace Lexer

def ofChars (cs : List Char) : Lexer where
  cursor := .ofChars cs
  tokens := []
  count := 0
  indent := -1
  outer := []
  flow := 0
  starts := [none]
  keyAllowed := true

def push (t : Token) (l : Lexer) : Lexer := { l with tokens := t :: l.tokens, count := l.count + 1 }

/-- A token put behind the first `position` tokens. -/
def insert (position : Nat) (t : Token) (l : Lexer) : Lexer :=
  let later := l.count - position
  { l with
    tokens := l.tokens.take later ++ t :: l.tokens.drop later
    count := l.count + 1 }

def allowKey (allowed : Bool) (l : Lexer) : Lexer := { l with keyAllowed := allowed }

def skipN (n : Nat) (l : Lexer) : Lexer := { l with cursor := l.cursor.skipN n }

/-- Forgets a possible key that ended on an earlier line or is longer than 1024 characters. -/
def expire? (c : Cursor) : Option KeyStart → Option (Option KeyStart)
  | none => some none
  | some k =>
    if k.line < c.line || k.index + 1024 < c.index then if k.required then none else some none
    else some (some k)

def expireStarts? (l : Lexer) : Option Lexer := do
  let starts ← l.starts.mapM (expire? l.cursor)
  some { l with starts := starts }

/-- Forgets the possible key of the innermost collection. -/
def dropStart? (l : Lexer) : Option Lexer :=
  match l.starts with
  | some k :: rest => if k.required then none else some { l with starts := none :: rest }
  | _ => some l

/-- Remembers that a key may start here. -/
def saveStart? (l : Lexer) : Option Lexer :=
  if l.keyAllowed then do
    let l ← l.dropStart?
    let c := l.cursor
    let k : KeyStart :=
      { required := l.flow == 0 && l.indent == c.column
        position := l.count
        line := c.line
        column := c.column
        index := c.index }
    some { l with starts := some k :: l.starts.drop 1 }
  else some l

/-- Opens a block collection at a column, if it lies deeper; its token comes behind the first
`position` tokens. -/
def openBlock (column : Nat) (position : Nat) (t : Token) (l : Lexer) : Lexer :=
  if l.flow == 0 && l.indent < column then
    insert position t { l with indent := column, outer := l.indent :: l.outer }
  else l

/-- Ends the block collections deeper than a column. -/
def closeTo (column : Int) : List Int → Lexer → Lexer
  | [], l => l
  | i :: outer, l =>
    if l.indent > column then
      closeTo column outer (push .blockEnd { l with indent := i, outer := outer })
    else l

def closeBlocks (column : Int) (l : Lexer) : Lexer :=
  if l.flow == 0 then closeTo column l.outer l else l

/-! ## Between tokens -/

/-- Blanks, comments and line breaks in front.  A tab may not stand where a key may start. -/
def skipGap : Nat → Lexer → Lexer
  | 0, l => l
  | fuel + 1, l =>
    let c := l.cursor
    match c.rest with
    | [] => l
    | d :: _ =>
      if d = '\uFEFF' && c.column == 0 then skipGap fuel { l with cursor := c.skip }
      else if d = ' ' || (d = '\t' && (l.flow != 0 || !l.keyAllowed)) then
        skipGap fuel { l with cursor := c.skip }
      else if d = '#' then skipGap fuel { l with cursor := c.skipLineRest }
      else if isBreak d then
        skipGap fuel
          { l with cursor := c.takeBreak.2, keyAllowed := l.flow == 0 || l.keyAllowed }
      else l

/-! ## Directives, anchors and tags -/

/-- A decimal number of at most nine digits in front. -/
def takeVersionNumber? (c : Cursor) : Option (Nat × Cursor) :=
  let (ds, c) := c.takeRun Char.isDigit
  if ds.isEmpty || ds.length > 9 then none
  else some (ds.foldl (fun n d => 10 * n + (d.toNat - 48)) 0, c)

/-- The handle of a tag: an exclamation mark, and a word with another one if there is any.  In a
directive a word has to end so. -/
def takeHandle? (directive : Bool) (c : Cursor) : Option (List Char × Cursor) :=
  match c.rest with
  | '!' :: _ =>
    let (word, c) := c.skip.takeRun isWordChar
    match c.rest with
    | '!' :: _ => some ('!' :: word ++ ['!'], c.skip)
    | _ => if directive && !word.isEmpty then none else some ('!' :: word, c)
  | _ => none

def isUriChar (verbatim : Bool) (c : Char) : Bool :=
  isWordChar c || c ∈ [';', '/', '?', ':', '@', '&', '=', '+', '$', '.', '%', '!', '~', '*', '\'',
    '(', ')'] || (verbatim && (c = ',' || c = '[' || c = ']'))

/-- The number of bytes of a character, by its first byte. -/
def octetCount? (b : Nat) : Option Nat :=
  if b < 0x80 then some 1
  else if b / 32 == 6 then some 2
  else if b / 16 == 14 then some 3
  else if b / 8 == 30 then some 4
  else none

/-- The number of the escaped byte in front. -/
def octet? : List Char → Option Nat
  | '%' :: rest => Cursor.hexNumber? 2 rest
  | _ => none

/-- The value of the bytes that continue a character. -/
def continued? : Nat → Nat → List Char → Option Nat
  | 0, bits, _ => some bits
  | n + 1, bits, cs => do
    let b ← octet? cs
    if b / 64 == 2 then continued? n (bits * 64 + b % 64) (cs.drop 3) else none

/-- The character of escaped bytes in front, and their number. -/
def uriEscape? (cs : List Char) : Option (Char × Nat) := do
  let b ← octet? cs
  let count ← octetCount? b
  let first := if count = 1 then b else b % Nat.pow 2 (7 - count)
  let n ← continued? (count - 1) first (cs.drop 3)
  some (Char.ofNat n, count)

/-- The characters of a tag in front. -/
def takeUri? (verbatim : Bool) : Nat → Cursor → Option (List Char × Cursor)
  | 0, c => some ([], c)
  | fuel + 1, c =>
    match c.rest with
    | [] => some ([], c)
    | d :: _ =>
      if !isUriChar verbatim d then some ([], c)
      else if d = '%' then do
        let (e, count) ← uriEscape? c.rest
        let (uri, c) ← takeUri? verbatim fuel (c.skipN (3 * count))
        some (e :: uri, c)
      else do
        let (uri, c) ← takeUri? verbatim fuel c.skip
        some (d :: uri, c)

/-- The characters of a tag in front, at least one. -/
def takeUriSome? (verbatim : Bool) (c : Cursor) : Option (List Char × Cursor) := do
  let (uri, c) ← takeUri? verbatim (c.rest.length + 1) c
  if uri.isEmpty then none else some (uri, c)

/-- A tag after its first exclamation mark has been seen: its handle and its suffix. -/
def takeTag? (c : Cursor) : Option (List Char × List Char × Cursor) :=
  if c.rest[1]? == some '<' then do
    let (uri, c) ← takeUriSome? true (c.skipN 2)
    match c.rest with
    | '>' :: _ => some ([], uri, c.skip)
    | _ => none
  else do
    let (handle, c) ← takeHandle? false c
    if 1 < handle.length && handle.getLast? == some '!' then
      let (uri, c) ← takeUriSome? false c
      some (handle, uri, c)
    else
      let (uri, c) ← takeUri? false (c.rest.length + 1) c
      let suffix := handle.drop 1 ++ uri
      if suffix.isEmpty then some ([], ['!'], c) else some (['!'], suffix, c)

/-- A directive after its percent sign. -/
def takeDirective? (c : Cursor) : Option (Token × Cursor) := do
  let (name, c) := c.takeRun isWordChar
  if !c.blankAt 0 then none
  else if String.ofList name = "YAML" then do
    let (major, c) ← takeVersionNumber? c.skipSpaces
    match c.rest with
    | '.' :: _ =>
      let (minor, c) ← takeVersionNumber? c.skip
      some (.version major minor, c)
    | _ => none
  else if String.ofList name = "TAG" then do
    let (handle, c) ← takeHandle? true c.skipSpaces
    if !(c.rest.head?.map isSpace).getD false then none
    else
      let (uri, c) ← takeUriSome? true c.skipSpaces
      if c.blankAt 0 then some (.handle handle uri, c) else none
  else none

/-- The name of an anchor or an alias after its sign. -/
def takeName? (c : Cursor) : Option (List Char × Cursor) :=
  let (name, c) := c.takeRun isWordChar
  if name.isEmpty then none
  else if c.blankAt 0 then some (name, c)
  else
    match c.rest with
    | d :: _ =>
      if d ∈ ['?', ':', ',', ']', '\x7d', '%', '@', '\x60'] then some (name, c) else none
    | [] => some (name, c)

/-! ## Tokens -/

/-- A sign of one character. -/
def sign (t : Token) (l : Lexer) : Lexer := (l.push t).skipN 1

def openFlow? (t : Token) (l : Lexer) : Option Lexer := do
  let l ← l.saveStart?
  some (({ l with flow := l.flow + 1, starts := none :: l.starts }.allowKey true).sign t)

def closeFlow? (t : Token) (l : Lexer) : Option Lexer := do
  let l ← l.dropStart?
  let l :=
    if l.flow == 0 then l else { l with flow := l.flow - 1, starts := l.starts.drop 1 }
  some ((l.allowKey false).sign t)

def comma? (l : Lexer) : Option Lexer := do
  let l ← l.dropStart?
  some ((l.allowKey true).sign .comma)

def entry? (l : Lexer) : Option Lexer := do
  if l.flow == 0 && !l.keyAllowed then none
  else
    let l := l.openBlock l.cursor.column l.count .blockSequence
    let l ← l.dropStart?
    some ((l.allowKey true).sign .entry)

def key? (l : Lexer) : Option Lexer := do
  if l.flow == 0 && !l.keyAllowed then none
  else
    let l := l.openBlock l.cursor.column l.count .blockMapping
    let l ← l.dropStart?
    some ((l.allowKey (l.flow == 0)).sign .key)

/-- A colon: what came since a possible key is one, or else it follows a key of its own. -/
def value? (l : Lexer) : Option Lexer :=
  match l.starts with
  | some k :: rest =>
    let l := l.insert k.position .key
    let l := l.openBlock k.column k.position .blockMapping
    some (({ l with starts := none :: rest }.allowKey false).sign .value)
  | _ =>
    if l.flow == 0 && !l.keyAllowed then none
    else
      let l := l.openBlock l.cursor.column l.count .blockMapping
      some ((l.allowKey (l.flow == 0)).sign .value)

/-- A token that may be a key, read by a function from the cursor. -/
def content? (l : Lexer) (read : Cursor → Option (Token × Cursor)) : Option Lexer := do
  let l ← l.saveStart?
  let (t, c) ← read l.cursor
  some ({ l.allowKey false with cursor := c }.push t)

def block? (literal : Bool) (l : Lexer) : Option Lexer := do
  let l ← l.dropStart?
  let (text, c) ← l.cursor.skip.takeBlock? literal l.indent
  let style := if literal then Style.literal else .folded
  some ({ l.allowKey true with cursor := c }.push (.scalar text style))

def plain? (l : Lexer) : Option Lexer := do
  let l ← l.saveStart?
  let c := l.cursor
  let (text, c, broken) ←
    c.takePlain? (l.flow != 0) (l.indent + 1).toNat (c.rest.length + 1)
  some ({ l.allowKey broken with cursor := c }.push (.scalar text .plain))

/-- The end of the blocks, at the end of the text or before a document marker or a directive. -/
def closeAll? (l : Lexer) : Option Lexer := do
  let l ← (l.closeBlocks (-1)).dropStart?
  some (l.allowKey false)

def marker? (t : Token) (l : Lexer) : Option Lexer := do
  let l ← l.closeAll?
  some ((l.push t).skipN 3)

def directive? (l : Lexer) : Option Lexer := do
  let l ← l.closeAll?
  let (t, c) ← takeDirective? l.cursor.skip
  let c ← c.skipComment?
  some ({ l with cursor := c.takeBreak.2 }.push t)

/-- Whether a plain scalar may start here. -/
def startsPlain (flow : Bool) (c : Cursor) : Bool :=
  match c.rest with
  | [] => false
  | d :: rest =>
    let spaceNext := (rest.head?.map isSpace).getD false
    if d = '-' then !spaceNext
    else if d = '?' || d = ':' then !flow && !c.blankAt 1
    else !(isSpace d || isBreak d || d ∈ [',', '[', ']', '\x7b', '\x7d', '#', '&', '*', '!', '|',
      '>', '\'', '"', '%', '@', '\x60'])

/-- The next token, and those that go before it.  The cursor stands on its first character. -/
def token? (l : Lexer) : Option Lexer :=
  let c := l.cursor
  let flow := l.flow != 0
  match c.rest with
  | [] => none
  | d :: _ =>
    if c.column == 0 && d = '%' then l.directive?
    else if c.atMarker '-' then l.marker? .documentStart
    else if c.atMarker '.' then l.marker? .documentEnd
    else if d = '[' then l.openFlow? .flowSequence
    else if d = '\x7b' then l.openFlow? .flowMapping
    else if d = ']' then l.closeFlow? .flowSequenceEnd
    else if d = '\x7d' then l.closeFlow? .flowMappingEnd
    else if d = ',' then l.comma?
    else if d = '-' && c.blankAt 1 then l.entry?
    else if d = '?' && (flow || c.blankAt 1) then l.key?
    else if d = ':' && (flow || c.blankAt 1) then l.value?
    else if d = '*' then
      l.content? fun c => (takeName? c.skip).map fun (name, c) => (.reference name, c)
    else if d = '&' then
      l.content? fun c => (takeName? c.skip).map fun (name, c) => (.anchor name, c)
    else if d = '!' then
      l.content? fun c => do
        let (handle, suffix, c) ← takeTag? c
        if c.blankAt 0 || (flow && c.rest.head? == some ',') then some (.tag handle suffix, c)
        else none
    else if d = '|' && !flow then l.block? true
    else if d = '>' && !flow then l.block? false
    else if d = '\'' then
      l.content? fun c =>
        (c.skip.takeSingleQuoted? (c.rest.length + 1)).map fun (text, c) =>
          (.scalar text .singleQuoted, c)
    else if d = '"' then
      l.content? fun c =>
        (c.skip.takeDoubleQuoted? (c.rest.length + 1)).map fun (text, c) =>
          (.scalar text .doubleQuoted, c)
    else if startsPlain flow c then l.plain?
    else none

/-- The tokens up to the end of the text, latest first. -/
def run? : Nat → Lexer → Option (List Token)
  | 0, _ => none
  | fuel + 1, l => do
    let l := l.skipGap (l.cursor.rest.length + 1)
    let l ← l.expireStarts?
    match l.cursor.rest with
    | [] =>
      let l ← (l.closeBlocks (-1)).dropStart?
      some (l.tokens.reverse ++ [.streamEnd])
    | _ :: _ =>
      let l := l.closeBlocks l.cursor.column
      run? fuel (← l.token?)

end Lexer

/-- The tokens of a text. -/
def Token.ofChars? (cs : List Char) : Option (List Token) :=
  if cs.all isAllowed then (Lexer.ofChars cs).run? (cs.length + 2) else none

end SessionGuard.Yaml
