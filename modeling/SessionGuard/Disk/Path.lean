import SessionGuard.Text.Trim

/-!
# Paths

A path is a text; its parts stand between slashes.  Empty parts, and dots behind the first part,
do not count.
-/

namespace SessionGuard.Path

/-- The parts of a path as written. -/
def parts (path : String) : List (List Char) := Text.splitAt '/' path.toList

def isAbsolute (path : String) : Bool := path.toList.head? == some '/'

/-- Whether the part at an index counts. -/
def counts (index : Nat) (part : List Char) : Bool :=
  !part.isEmpty && (part != ['.'] || index == 0)

/-- The indices of the parts that count, ascending. -/
def countedIndices (parts : List (List Char)) : List Nat :=
  (List.range parts.length).filter fun i => counts i (parts.getD i [])

/-- The parts put together again. -/
def ofParts (parts : List (List Char)) : String := String.ofList (['/'].intercalate parts)

/-- The path without its last part; `none` where no part counts. -/
def parent? (path : String) : Option String :=
  let parts := parts path
  match (countedIndices parts).reverse with
  | [] => none
  | [_] => some (if isAbsolute path then "/" else "")
  | _ :: before :: _ => some (ofParts (parts.take (before + 1)))

/-- The path of a name in a directory. -/
def join (directory name : String) : String :=
  if directory.isEmpty then name
  else if directory.toList.getLast? == some '/' then directory ++ name
  else directory ++ "/" ++ name

example : parent? "a/b.yaml" = some "a" := by decide

example : parent? "///x///y///" = some "///x" := by decide

example : parent? "//" = none := by decide

end SessionGuard.Path
