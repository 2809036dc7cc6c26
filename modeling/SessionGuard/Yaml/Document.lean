import SessionGuard.Yaml.Lexer
import SessionGuard.Yaml.Node

/-!
# Documents and their aliases

Anchors are numbered: an anchor gets the number of different names seen before it, and an alias
the number its name has at that place.  The node of a number is the last one that got it.
-/

namespace SessionGuard.Yaml

namespace Node

mutual

/-- A node with its anchors numbered, and the names known after it. -/
def number? : Node (List Char) → List (List Char × Nat) →
    Option (Node Nat × List (List Char × Nat))
  | scalar props text style, known =>
    let (props, known) := numberProps props known
    some (scalar props text style, known)
  | reference name, known => do
    let found ← known.find? fun k => k.1 == name
    some (reference found.2, known)
  | sequence props items, known => do
    let (props, known) := numberProps props known
    let (items, known) ← numberItems? items known
    some (sequence props items, known)
  | mapping props entries, known => do
    let (props, known) := numberProps props known
    let (entries, known) ← numberEntries? entries known
    some (mapping props entries, known)

/-- The properties of a node with the anchor numbered. -/
def numberProps : Props (List Char) → List (List Char × Nat) → Props Nat × List (List Char × Nat)
  | ⟨none, tag⟩, known => (⟨none, tag⟩, known)
  | ⟨some name, tag⟩, known =>
    let n := known.length
    (⟨some n, tag⟩, (name, n) :: known.filter fun k => k.1 != name)

def numberItems? : List (Node (List Char)) → List (List Char × Nat) →
    Option (List (Node Nat) × List (List Char × Nat))
  | [], known => some ([], known)
  | item :: items, known => do
    let (item, known) ← number? item known
    let (items, known) ← numberItems? items known
    some (item :: items, known)

def numberEntries? : List (Node (List Char) × Node (List Char)) → List (List Char × Nat) →
    Option (List (Node Nat × Node Nat) × List (List Char × Nat))
  | [], known => some ([], known)
  | (k, v) :: entries, known => do
    let (k, known) ← number? k known
    let (v, known) ← number? v known
    let (entries, known) ← numberEntries? entries known
    some ((k, v) :: entries, known)

end

/-- An anchored node under its number, if it has one. -/
def anchoredHere (node : Node Nat) (props : Props Nat) : List (Nat × Node Nat) :=
  match props.anchor with
  | some n => [(n, node)]
  | none => []

mutual

/-- The anchored nodes with their numbers, in the order they start. -/
def anchored : Node Nat → List (Nat × Node Nat)
  | scalar props text style => anchoredHere (scalar props text style) props
  | reference _ => []
  | sequence props items => anchoredHere (sequence props items) props ++ anchoredItems items
  | mapping props entries => anchoredHere (mapping props entries) props ++ anchoredEntries entries

def anchoredItems : List (Node Nat) → List (Nat × Node Nat)
  | [] => []
  | item :: items => anchored item ++ anchoredItems items

def anchoredEntries : List (Node Nat × Node Nat) → List (Nat × Node Nat)
  | [] => []
  | (k, v) :: entries => anchored k ++ anchored v ++ anchoredEntries entries

end

mutual

/-- The size of a node: collections count for their start and their end. -/
def size : Node Nat → Nat
  | scalar .. => 1
  | reference _ => 1
  | sequence _ items => 2 + sizeItems items
  | mapping _ entries => 2 + sizeEntries entries

def sizeItems : List (Node Nat) → Nat
  | [] => 0
  | item :: items => size item + sizeItems items

def sizeEntries : List (Node Nat × Node Nat) → Nat
  | [] => 0
  | (k, v) :: entries => size k + size v + sizeEntries entries

end

end Node

/-- A document: its root if there is one, and the nodes of its anchors. -/
structure Document where
  root : Option (Node Nat)
  nodes : List (Nat × Node Nat)
  /-- How many aliases may be followed while the document is read. -/
  limit : Nat

namespace Document

/-- The document of a text. -/
def ofString? (text : String) : Option Document := do
  let tokens ← Token.ofChars? text.toList
  match ← Node.ofTokens? tokens with
  | none => some ⟨none, [], 0⟩
  | some root =>
    let (root, _) ← root.number? []
    some ⟨some root, root.anchored, 100 * root.size⟩

/-- A reader counts the aliases it follows and may fail. -/
abbrev Reader := StateT Nat Option

def fail {α : Type} : Reader α := fun _ => none

/-- A node, an alias replaced by what it stands for. -/
def follow (d : Document) (node : Node Nat) : Reader (Node Nat) := fun followed =>
  match node with
  | .reference n =>
    if followed + 1 > d.limit then none
    else ((d.nodes.reverse.find? fun e => e.1 == n).map fun e => (e.2, followed + 1))
  | node => some (node, followed)

/-- The text of a scalar. -/
def text (d : Document) (node : Node Nat) : Reader String := do
  match ← d.follow node with
  | .scalar _ text _ => pure (String.ofList text)
  | _ => fail

/-- Runs a reader on the document. -/
def run {α : Type} (read : Reader α) : Option α := (read 0).map (·.1)

end Document

end SessionGuard.Yaml
