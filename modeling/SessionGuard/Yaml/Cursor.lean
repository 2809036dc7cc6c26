/-!
# A place in a YAML text

A `Cursor` is what is left of a text, with the line, the column and the number of characters
before it.  A line break is one of LF, CR, CR LF, NEL, LS and PS.
-/

namespace SessionGuard.Yaml

/-- The characters a text may hold. -/
def isAllowed (c : Char) : Bool :=
  let n := c.toNat
  n == 9 || n == 10 || n == 13 || (0x20 ≤ n && n ≤ 0x7E) || n == 0x85
    || (0xA0 ≤ n && n ≤ 0xFFFD) || 0x10000 ≤ n

def isBreak (c : Char) : Bool :=
  c = '\n' || c = '\r' || c = '\u0085' || c = '\u2028' || c = '\u2029'

def isSpace (c : Char) : Bool := c = ' ' || c = '\t'

/-- The characters of the names of anchors, handles and directives. -/
def isWordChar (c : Char) : Bool := c.isAlphanum || c = '-' || c = '_'

structure Cursor where
  rest : List Char
  line : Nat
  column : Nat
  index : Nat

namespace Cursor

def ofChars (cs : List Char) : Cursor := ⟨cs, 0, 0, 0⟩

/-- The cursor after one character that is no line break. -/
def skip (c : Cursor) : Cursor :=
  ⟨c.rest.drop 1, c.line, c.column + 1, c.index + 1⟩

def skipN : Nat → Cursor → Cursor
  | 0, c => c
  | n + 1, c => skipN n c.skip

/-- The cursor after a line break, and the break as it counts in a scalar. -/
def takeBreak (c : Cursor) : List Char × Cursor :=
  match c.rest with
  | '\r' :: '\n' :: rest => (['\n'], ⟨rest, c.line + 1, 0, c.index + 2⟩)
  | d :: rest =>
    if d = '\n' || d = '\r' || d = '\u0085' then (['\n'], ⟨rest, c.line + 1, 0, c.index + 1⟩)
    else if isBreak d then ([d], ⟨rest, c.line + 1, 0, c.index + 1⟩)
    else ([], c)
  | [] => ([], c)

/-- The longest run of a class that holds no line break, and the cursor after it. -/
def takeRun (p : Char → Bool) (c : Cursor) : List Char × Cursor :=
  let run := c.rest.takeWhile fun d => p d && !isBreak d
  (run, ⟨c.rest.dropWhile fun d => p d && !isBreak d, c.line, c.column + run.length,
    c.index + run.length⟩)

def skipSpaces (c : Cursor) : Cursor := (c.takeRun isSpace).2

/-- The cursor at the end of the line. -/
def skipLineRest (c : Cursor) : Cursor := (c.takeRun fun _ => true).2

/-- The cursor at the end of the line, if only blanks and a comment are left on it. -/
def skipComment? (c : Cursor) : Option Cursor :=
  let c := c.skipSpaces
  match c.rest with
  | [] => some c
  | d :: _ => if d = '#' then some c.skipLineRest else if isBreak d then some c else none

/-- Whether a blank, a line break or the end comes after `n` characters. -/
def blankAt (n : Nat) (c : Cursor) : Bool :=
  match c.rest[n]? with
  | none => true
  | some d => isSpace d || isBreak d

/-- Whether three characters that end or start a document begin the line. -/
def atMarker (mark : Char) (c : Cursor) : Bool :=
  c.column == 0 && c.rest.take 3 == [mark, mark, mark] && c.blankAt 3

/-- Whether the line begins with either document marker. -/
def atAnyMarker (c : Cursor) : Bool := c.atMarker '-' || c.atMarker '.'

/-! ## Gaps

Between two words of a scalar stand blanks, or line breaks with blanks around them. -/

/-- Blanks before the first line break, and the breaks. -/
structure Gap where
  blanks : List Char
  breaks : List Char

/-- What a gap counts for: its blanks; or of its breaks one less, a single one for a blank. -/
def Gap.text (g : Gap) : List Char :=
  match g.breaks with
  | [] => g.blanks
  | ['\n'] => [' ']
  | '\n' :: more => more
  | other => other

/-- A gap in front.  Behind a line break, a tab left of `margin` is refused. -/
def takeGap? (margin : Nat) : Nat → Bool → Cursor → Option (Gap × Cursor)
  | 0, _, c => some (⟨[], []⟩, c)
  | fuel + 1, broken, c =>
    match c.rest with
    | [] => some (⟨[], []⟩, c)
    | d :: _ =>
      if isSpace d then
        if broken && d = '\t' && c.column < margin then none
        else do
          let (g, c) ← takeGap? margin fuel broken c.skip
          some (if broken then g else ⟨d :: g.blanks, g.breaks⟩, c)
      else if isBreak d then do
        let (line, c) := c.takeBreak
        let (g, c) ← takeGap? margin fuel true c
        some (⟨[], line ++ g.breaks⟩, c)
      else some (⟨[], []⟩, c)

end Cursor

end SessionGuard.Yaml
