import SessionGuard.Number.Shortest
import SessionGuard.Yaml.Document

/-!
# YAML values

A plain scalar without a tag may be null, a boolean, an integer or a real number; `Plain.ofText`
says which.  A tag of the document's own, one that starts with an exclamation mark, stays with its
value.
-/

namespace SessionGuard.Yaml

/-- A real number as YAML knows it. -/
inductive Real
  | finite (value : Binary64)
  | infinite (negative : Bool)
  | notANumber
  deriving DecidableEq

inductive Value
  | null
  | bool (value : Bool)
  | int (value : Int)
  | real (value : Real)
  | string (value : String)
  | sequence (items : List Value)
  | mapping (entries : List (Value × Value))
  | tagged (tag : String) (value : Value)

/-! ## Plain scalars -/

/-- What a plain scalar says. -/
inductive Plain
  | null
  | bool (value : Bool)
  | int (value : Int)
  | tooWide (value : Int)
  | real (value : Real)
  | string

namespace Plain

def isNull (s : String) : Bool := s = "null" || s = "Null" || s = "NULL" || s = "~"

def bool? (s : String) : Option Bool :=
  if s = "true" || s = "True" || s = "TRUE" then some true
  else if s = "false" || s = "False" || s = "FALSE" then some false
  else none

/-- The number of digits to a base, with the sign taken off. -/
def digits? (base : Nat) (cs : List Char) : Option Nat :=
  if cs.isEmpty then none
  else cs.foldlM (fun n c =>
    match Cursor.hexValue? c with
    | some d => if d < base then some (n * base + d) else none
    | none => none) 0

/-- Whether digits start with a zero that does not stand alone: no number is written so. -/
def hasLeadingZero (cs : List Char) : Bool :=
  let digits :=
    match cs with
    | '+' :: rest => rest
    | '-' :: rest => rest
    | rest => rest
  match digits with
  | '0' :: d :: rest => (d :: rest).all Char.isDigit
  | _ => false

/-- An integer without a minus sign: to base 16, 8 or 2 behind its mark, to base ten otherwise. -/
def natural? (cs : List Char) : Option Nat :=
  let bare := if cs.head? == some '+' then cs.drop 1 else cs
  match bare with
  | '0' :: 'x' :: rest => digits? 16 rest
  | '0' :: 'o' :: rest => digits? 8 rest
  | '0' :: 'b' :: rest => digits? 2 rest
  | _ => if hasLeadingZero cs then none else digits? 10 bare

/-- The magnitude of an integer with a minus sign. -/
def negative? : List Char → Option Nat
  | '-' :: '0' :: 'x' :: rest => digits? 16 rest
  | '-' :: '0' :: 'o' :: rest => digits? 8 rest
  | '-' :: '0' :: 'b' :: rest => digits? 2 rest
  | '-' :: rest => if hasLeadingZero rest then none else digits? 10 rest
  | _ => none

/-- An integer, and whether it fits in 64 bits. -/
def int? (cs : List Char) : Option (Int × Bool) :=
  match natural? cs with
  | some n => if n < Nat.pow 2 128 then some (n, n < UInt64.size) else none
  | none =>
    match negative? cs with
    | some n => if n ≤ Nat.pow 2 127 then some (-(n : Int), n ≤ Nat.pow 2 63) else none
    | none => none

/-- The double of a decimal with digits, a point and an exponent; `none` if it is infinite. -/
def decimal? (cs : List Char) : Option Binary64 := do
  let (negative, cs) :=
    match cs with
    | '-' :: rest => (true, rest)
    | '+' :: rest => (false, rest)
    | rest => (false, rest)
  let whole := cs.takeWhile Char.isDigit
  let cs := cs.dropWhile Char.isDigit
  let (fraction, cs) :=
    match cs with
    | '.' :: rest => (rest.takeWhile Char.isDigit, rest.dropWhile Char.isDigit)
    | rest => ([], rest)
  if whole.isEmpty && fraction.isEmpty then none
  else
    let exponent ←
      match cs with
      | [] => some (0 : Int)
      | e :: rest =>
        if e = 'e' || e = 'E' then
          match rest with
          | '-' :: ds => (digits? 10 ds).map fun n => -(n : Int)
          | '+' :: ds => (digits? 10 ds).map fun n => (n : Int)
          | ds => (digits? 10 ds).map fun n => (n : Int)
        else none
    let digits ← digits? 10 (whole ++ fraction)
    Binary64.ofDecimal? negative digits (exponent - (fraction.length : Int))

/-- A real number: an infinity, not a number, or a finite decimal. -/
def real? (s : String) : Option Real :=
  let cs := s.toList
  if s = ".nan" || s = ".NaN" || s = ".NAN" then some .notANumber
  else if s = "-.inf" || s = "-.Inf" || s = "-.INF" then some (.infinite true)
  else
    let bare := if cs.head? == some '+' then cs.drop 1 else cs
    if bare = ".inf".toList || bare = ".Inf".toList || bare = ".INF".toList then
      some (.infinite false)
    else if cs.head? == some '+' && (bare.head? == some '+' || bare.head? == some '-') then none
    else (decimal? bare).map .finite

/-- What a plain scalar says. -/
def ofText (s : String) : Plain :=
  let cs := s.toList
  if s.isEmpty || isNull s then null
  else
    match bool? s with
    | some b => bool b
    | none =>
      match int? cs with
      | some (n, true) => int n
      | some (n, false) => tooWide n
      | none =>
        if hasLeadingZero cs then string
        else
          match real? s with
          | some r => real r
          | none => string

end Plain

/-! ## Equality -/

namespace Real

/-- Equality of numbers: the zeros are equal, and so are those that are not numbers. -/
def same : Real → Real → Bool
  | finite x, finite y => x == y || (x.mantissa == 0 && y.mantissa == 0)
  | infinite x, infinite y => x == y
  | notANumber, notANumber => true
  | _, _ => false

end Real

/-- Equality of values at most `fuel` collections deep; the order of the entries of a mapping does
not count. -/
def Value.same : Nat → Value → Value → Bool
  | 0, _, _ => false
  | fuel + 1, a, b =>
    match a, b with
    | .null, .null => true
    | .bool x, .bool y => x == y
    | .int x, .int y => x == y
    | .real x, .real y => x.same y
    | .string x, .string y => x == y
    | .tagged s x, .tagged t y => s == t && Value.same fuel x y
    | .sequence xs, .sequence ys =>
      xs.length == ys.length && (xs.zip ys).all fun p => Value.same fuel p.1 p.2
    | .mapping xs, .mapping ys =>
      xs.length == ys.length
        && xs.all fun x => ys.any fun y => Value.same fuel x.1 y.1 && Value.same fuel x.2 y.2
    | _, _ => false

namespace Value

mutual

/-- Whether two values are built alike. -/
def alike : Value → Value → Bool
  | null, null => true
  | bool x, bool y => x == y
  | int x, int y => x == y
  | real x, real y => x == y
  | string x, string y => x == y
  | sequence xs, sequence ys => alikeItems xs ys
  | mapping xs, mapping ys => alikeEntries xs ys
  | tagged s x, tagged t y => s == t && alike x y
  | _, _ => false

def alikeItems : List Value → List Value → Bool
  | [], [] => true
  | x :: xs, y :: ys => alike x y && alikeItems xs ys
  | _, _ => false

def alikeEntries : List (Value × Value) → List (Value × Value) → Bool
  | [], [] => true
  | (k, v) :: xs, (l, w) :: ys => alike k l && alike v w && alikeEntries xs ys
  | _, _ => false

end

mutual

theorem alike_iff (x y : Value) : alike x y = true ↔ x = y := by
  cases x <;> cases y <;> simp [alike, alikeItems_iff, alikeEntries_iff, alike_iff]

theorem alikeItems_iff (xs ys : List Value) : alikeItems xs ys = true ↔ xs = ys := by
  cases xs <;> cases ys <;> simp [alikeItems, alike_iff, alikeItems_iff]

theorem alikeEntries_iff (xs ys : List (Value × Value)) :
    alikeEntries xs ys = true ↔ xs = ys := by
  rcases xs with _ | ⟨⟨k, v⟩, xs⟩ <;> rcases ys with _ | ⟨⟨l, w⟩, ys⟩ <;>
    simp [alikeEntries, alike_iff, alikeEntries_iff]

end

instance : DecidableEq Value := fun x y => decidable_of_iff _ (alike_iff x y)

end Value

/-! ## Reading -/

namespace Document

/-- The tag of the document's own that a node has, without its mark. -/
def ownTag? {α : Type} (props : Props α) : Option String :=
  match props.tag with
  | some ('!' :: rest) => some (String.ofList (if rest.isEmpty then ['!'] else rest))
  | _ => none

/-- The tags of YAML's own types. -/
def coreTag (name : String) : List Char := "tag:yaml.org,2002:".toList ++ name.toList

/-- The value of a plain scalar without a tag. -/
def plainValue? (text : String) : Option Value :=
  match Plain.ofText text with
  | .null => some .null
  | .bool b => some (.bool b)
  | .int n => some (.int n)
  | .tooWide _ => none
  | .real r => some (.real r)
  | .string => some (.string text)

/-- The value of a scalar.  A tag of one of YAML's own types has to fit. -/
def scalarValue? (tag : Option (List Char)) (text : String) (style : Style) : Option Value :=
  match tag with
  | some tag =>
    if tag = coreTag "bool" then (Plain.bool? text).map .bool
    else if tag = coreTag "int" then
      match Plain.int? text.toList with
      | some (n, true) => some (.int n)
      | _ => none
    else if tag = coreTag "float" then (Plain.real? text).map .real
    else if tag = coreTag "null" then if Plain.isNull text then some .null else none
    else if tag.head? == some '!' && style = .plain then plainValue? text
    else some (.string text)
  | none => if style = .plain then plainValue? text else some (.string text)

/-- How deep the collections of a document may lie in each other. -/
def maxDepth : Nat := 128

/-- The entries of a mapping, each key once. -/
def distinct? : List (Value × Value) → Option (List (Value × Value))
  | [] => some []
  | (k, v) :: rest => do
    let rest ← distinct? rest
    if rest.any fun e => Value.same (2 * maxDepth + 2) k e.1 then none else some ((k, v) :: rest)

/-- The value of a node, at most `depth` collections deep.  The tag of a node counts unless it has
been taken already, as it has for the keys of a tagged mapping. -/
def value (d : Document) : Nat → Bool → Node Nat → Reader Value
  | 0, taken, node => do
    match ← d.follow node with
    | .scalar props text style => scalarNode props text style taken
    | _ => fail
  | depth + 1, taken, node => do
    match ← d.follow node with
    | .scalar props text style => scalarNode props text style taken
    | .sequence props items =>
      let own := if taken then none else ownTag? props
      let items ← items.mapM (value d depth false)
      pure (wrap own (.sequence items))
    | .mapping props entries =>
      let own := if taken then none else ownTag? props
      let entries ← entries.mapM fun (k, v) => do
        let k ← value d depth (taken || own.isSome) k
        let v ← value d depth false v
        pure (k, v)
      match distinct? entries with
      | some entries => pure (wrap own (.mapping entries))
      | none => fail
    | .reference _ => fail
where
  wrap : Option String → Value → Value
    | some tag, v => .tagged tag v
    | none, v => v
  scalarNode (props : Props Nat) (text : List Char) (style : Style) (taken : Bool) :
      Reader Value :=
    let own := if taken then none else ownTag? props
    let tag := if taken || own.isSome then none else props.tag
    match scalarValue? tag (String.ofList text) style with
    | some v => pure (wrap own v)
    | none => fail

/-- The entries of a mapping; an empty scalar counts for a mapping without entries. -/
def entries (d : Document) (node : Node Nat) : Reader (List (Node Nat × Node Nat)) := do
  match ← d.follow node with
  | .mapping _ entries => pure entries
  | .scalar _ [] .plain => pure []
  | _ => fail

/-- The entries of the mapping at the root. -/
def rootEntries (d : Document) : Reader (List (Node Nat × Node Nat)) :=
  match d.root with
  | none => pure []
  | some root => d.entries root

end Document

end SessionGuard.Yaml
