import SessionGuard.Sorted
import SessionGuard.Text.Trim
import SessionGuard.Yaml.Printer

/-!
# The session file

The file is a YAML mapping from texts; the token stands under one key, and whatever is under the
others stays.  `decode?` reads it and `encode` writes it.
-/

namespace SessionGuard.SessionFile

open Yaml (Value Document)

/-- What a session file holds, sorted by key. -/
abbrev Entries := List (String × Value)

/-- The key of the token. -/
def tokenKey : String := "access_token"

/-- The entries of a document; of those with one key the last counts. -/
def entriesOf (d : Document) : Document.Reader Entries := do
  let entries ← d.rootEntries
  let entries ← entries.mapM fun (k, v) => do
    let k ← d.text k
    let v ← d.value (Document.maxDepth - 1) false v
    pure (k, v)
  pure (Sorted.ofList entries)

/-- The entries of a text; a blank text has none. -/
def decode? (text : String) : Option Entries :=
  if Text.trim text = "" then some []
  else do
    let d ← Document.ofString? text
    Document.run (entriesOf d)

/-- Why entries cannot be written: a mapping has a key that opens like a tag. -/
def unwritable : String := "expected SCALAR, SEQUENCE-START, MAPPING-START, or ALIAS"

/-- The text of entries. -/
def encode (entries : Entries) : Except String String :=
  if entries.all fun e => e.2.isWritable Yaml.maxWriteDepth then .ok (Yaml.render entries)
  else .error unwritable

end SessionGuard.SessionFile
