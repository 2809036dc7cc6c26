import SessionGuard.Yaml.Cursor
import SessionGuard.Yaml.Token

/-!
# Reading scalars

Each function reads one way to write a scalar: between single or double quotes, plain, or as a
block.  Lines of a quoted or plain scalar are folded: one break counts for a blank.
-/

namespace SessionGuard.Yaml.Cursor

/-! ## Escapes -/

/-- The character of an escape of one letter. -/
def shortEscape? (c : Char) : Option Char :=
  match c with
  | '0' => some '\x00'
  | 'a' => some '\x07'
  | 'b' => some '\x08'
  | 't' => some '\t'
  | '\t' => some '\t'
  | 'n' => some '\n'
  | 'v' => some '\x0b'
  | 'f' => some '\x0c'
  | 'r' => some '\r'
  | 'e' => some '\x1b'
  | ' ' => some ' '
  | '"' => some '"'
  | '/' => some '/'
  | '\\' => some '\\'
  | 'N' => some '\u0085'
  | '_' => some '\u00A0'
  | 'L' => some '\u2028'
  | 'P' => some '\u2029'
  | _ => none

/-- The number of digits after the letter of a numeric escape. -/
def escapeDigits? (c : Char) : Option Nat :=
  match c with
  | 'x' => some 2
  | 'u' => some 4
  | 'U' => some 8
  | _ => none

def hexValue? (c : Char) : Option Nat :=
  if c.isDigit then some (c.toNat - 48)
  else if 'a' ≤ c && c ≤ 'f' then some (c.toNat - 87)
  else if 'A' ≤ c && c ≤ 'F' then some (c.toNat - 55)
  else none

/-- The number of `count` hexadecimal digits in front. -/
def hexNumber? (count : Nat) (cs : List Char) : Option Nat :=
  if cs.length < count then none
  else (cs.take count).foldlM (fun n c => (hexValue? c).map (16 * n + ·)) 0

/-- The character of the escape after a backslash, and the cursor behind it. -/
def takeEscape? (c : Cursor) : Option (Char × Cursor) :=
  match c.rest with
  | [] => none
  | letter :: digits =>
    match shortEscape? letter with
    | some d => some (d, c.skip)
    | none => do
      let count ← escapeDigits? letter
      let n ← hexNumber? count digits
      if (0xD800 ≤ n && n ≤ 0xDFFF) || n > 0x10FFFF then none
      else some (Char.ofNat n, skipN (count + 1) c)

/-! ## Quoted scalars -/

/-- A word of a scalar in double quotes, up to a quote, a blank or a line break.  The flag tells
that an escaped line break ended it. -/
def takeDoubleWord? : Nat → Cursor → Option (List Char × Bool × Cursor)
  | 0, _ => none
  | fuel + 1, c =>
    match c.rest with
    | [] => some ([], false, c)
    | d :: rest =>
      if isSpace d || isBreak d || d = '"' then some ([], false, c)
      else if d = '\\' then
        if (rest.head?.map isBreak).getD false then some ([], true, c.skip.takeBreak.2)
        else do
          let (e, c) ← takeEscape? c.skip
          let (word, escaped, c) ← takeDoubleWord? fuel c
          some (e :: word, escaped, c)
      else do
        let (word, escaped, c) ← takeDoubleWord? fuel c.skip
        some (d :: word, escaped, c)

/-- The text of a scalar after its opening double quote, and the cursor behind the closing one. -/
def takeDoubleQuoted? : Nat → Cursor → Option (List Char × Cursor)
  | 0, _ => none
  | fuel + 1, c =>
    if c.atAnyMarker then none
    else do
      let (word, escaped, c) ← takeDoubleWord? (c.rest.length + 1) c
      if !escaped && c.rest.head? == some '"' then some (word, c.skip)
      else if !escaped && c.rest.isEmpty then none
      else do
        let (gap, c) ← takeGap? 0 (c.rest.length + 1) escaped c
        let (text, c) ← takeDoubleQuoted? fuel c
        some (word ++ (if escaped then gap.breaks else gap.text) ++ text, c)

/-- A word of a scalar in single quotes. -/
def takeSingleWord : Nat → Cursor → List Char × Cursor
  | 0, c => ([], c)
  | fuel + 1, c =>
    match c.rest with
    | [] => ([], c)
    | '\'' :: '\'' :: _ =>
      let (word, c) := takeSingleWord fuel c.skip.skip
      ('\'' :: word, c)
    | d :: _ =>
      if isSpace d || isBreak d || d = '\'' then ([], c)
      else
        let (word, c) := takeSingleWord fuel c.skip
        (d :: word, c)

/-- The text of a scalar after its opening single quote, and the cursor behind the closing one. -/
def takeSingleQuoted? : Nat → Cursor → Option (List Char × Cursor)
  | 0, _ => none
  | fuel + 1, c =>
    if c.atAnyMarker then none
    else
      let (word, c) := takeSingleWord (c.rest.length + 1) c
      match c.rest with
      | [] => none
      | '\'' :: _ => some (word, c.skip)
      | _ => do
        let (gap, c) ← takeGap? 0 (c.rest.length + 1) false c
        let (text, c) ← takeSingleQuoted? fuel c
        some (word ++ gap.text ++ text, c)

/-! ## Plain scalars -/

def isFlowSign (c : Char) : Bool :=
  c = ',' || c = '[' || c = ']' || c = '\x7b' || c = '\x7d'

/-- A word of a plain scalar: up to a blank, a colon before a blank and, in a flow collection, a
sign of it.  There, a colon before a sign is refused. -/
def takePlainWord? (inFlow : Bool) : Nat → Cursor → Option (List Char × Cursor)
  | 0, c => some ([], c)
  | fuel + 1, c =>
    match c.rest with
    | [] => some ([], c)
    | d :: rest =>
      if isSpace d || isBreak d then some ([], c)
      else if inFlow && d = ':'
          && (rest.head?.map fun e => isFlowSign e || e = '?').getD false then none
      else if (d = ':' && c.blankAt 1) || (inFlow && isFlowSign d) then some ([], c)
      else do
        let (word, c) ← takePlainWord? inFlow fuel c.skip
        some (d :: word, c)

/-- A plain scalar, the cursor behind it and whether line breaks follow its last word.  Lines after
the first are indented by `margin` at least, except in a flow collection. -/
def takePlain? (inFlow : Bool) (margin : Nat) : Nat → Cursor →
    Option (List Char × Cursor × Bool)
  | 0, _ => none
  | fuel + 1, c =>
    if c.atAnyMarker || c.rest.head? == some '#' then some ([], c, false)
    else do
      let (word, c) ← takePlainWord? inFlow (c.rest.length + 1) c
      if !(c.rest.head?.map fun d => isSpace d || isBreak d).getD false then
        some (word, c, false)
      else do
        let (gap, c) ← takeGap? margin (c.rest.length + 1) false c
        let broken := !gap.breaks.isEmpty
        if !inFlow && c.column < margin then some (word, c, broken)
        else do
          let (more, c, after) ← takePlain? inFlow margin fuel c
          if more.isEmpty then some (word, c, broken || after)
          else some (word ++ gap.text ++ more, c, after)

/-! ## Block scalars -/

/-- What happens to the line breaks at the end of a block. -/
inductive Chomping
  | strip
  | clip
  | keep
  deriving DecidableEq

/-- The chomping sign in front, if there is one. -/
def takeChomping? (c : Cursor) : Option (Chomping × Cursor) :=
  match c.rest with
  | '+' :: _ => some (.keep, c.skip)
  | '-' :: _ => some (.strip, c.skip)
  | _ => none

/-- The indentation sign in front: nothing, or a digit other than zero. -/
def takeIndentation? (c : Cursor) : Option (Option Nat × Cursor) :=
  match c.rest with
  | d :: _ =>
    if d = '0' then none
    else if d.isDigit then some (some (d.toNat - 48), c.skip)
    else some (none, c)
  | [] => some (none, c)

/-- The signs after the mark of a block, in either order. -/
def takeBlockSigns? (c : Cursor) : Option (Chomping × Option Nat × Cursor) :=
  match takeChomping? c with
  | some (chomping, c) => do
    let (indentation, c) ← takeIndentation? c
    some (chomping, indentation, c)
  | none => do
    let (indentation, c) ← takeIndentation? c
    match indentation, takeChomping? c with
    | some _, some (chomping, c) => some (chomping, indentation, c)
    | _, _ => some (.clip, indentation, c)

/-- Spaces in front, up to a column if one is given. -/
def takeIndent (column : Option Nat) : Nat → Cursor → Cursor
  | 0, c => c
  | fuel + 1, c =>
    if c.rest.head? == some ' ' && (column.map fun n => decide (c.column < n)).getD true then
      takeIndent column fuel c.skip
    else c

/-- Empty lines in front: their breaks, the widest indentation seen, and the cursor. A tab in place
of indentation is refused. -/
def takeEmptyLines? (column : Option Nat) : Nat → Nat → Cursor →
    Option (List Char × Nat × Cursor)
  | 0, widest, c => some ([], widest, c)
  | fuel + 1, widest, c =>
    let c := takeIndent column (c.rest.length + 1) c
    let widest := max widest c.column
    match c.rest with
    | [] => some ([], widest, c)
    | d :: _ =>
      if d = '\t' && (column.map fun n => decide (c.column < n)).getD true then none
      else if isBreak d then do
        let (line, c) := c.takeBreak
        let (lines, widest, c) ← takeEmptyLines? column fuel widest c
        some (line ++ lines, widest, c)
      else some ([], widest, c)

/-- The lines of a block.  `pending` is the break after the last line and `empty` the breaks of the
empty lines after it; `blank` tells whether the last line starts with a blank. -/
def takeBlockLines? (literal : Bool) (column : Nat) : Nat → List Char → List Char → Bool →
    Cursor → Option (List Char × List Char × List Char × Cursor)
  | 0, _, _, _, _ => none
  | fuel + 1, pending, empty, blank, c =>
    match c.rest with
    | [] => some ([], pending, empty, c)
    | d :: _ =>
      if c.column ≠ column then some ([], pending, empty, c)
      else
        let blankNow := isSpace d
        let joint :=
          if !literal && pending.head? == some '\n' && !blank && !blankNow then
            if empty.isEmpty then [' '] else empty
          else pending ++ empty
        let (line, c) := c.takeRun fun _ => true
        let (pending, c) := c.takeBreak
        do
          let (empty, _, c) ← takeEmptyLines? (some column) (c.rest.length + 1) 0 c
          let (more, pending, empty, c) ←
            takeBlockLines? literal column fuel pending empty blankNow c
          some (joint ++ line ++ more, pending, empty, c)

/-- The text of a block after its mark, inside an indentation (-1 outside of every collection). -/
def takeBlock? (literal : Bool) (indent : Int) (c : Cursor) : Option (List Char × Cursor) := do
  let (chomping, indentation, c) ← takeBlockSigns? c
  let c ← skipComment? c
  let c := c.takeBreak.2
  let given := indentation.map fun n => if 0 ≤ indent then indent.toNat + n else n
  let (empty, widest, c) ← takeEmptyLines? given (c.rest.length + 1) 0 c
  let column := given.getD (max (max widest (indent + 1).toNat) 1)
  let (text, pending, empty, c) ←
    takeBlockLines? literal column (c.rest.length + 1) [] empty false c
  let tail :=
    match chomping with
    | .strip => []
    | .clip => pending
    | .keep => pending ++ empty
  some (text ++ tail, c)

end SessionGuard.Yaml.Cursor
