/-!
# The tokens of a YAML text

Indentation has become tokens of its own: a block collection opens with `blockSequence` or
`blockMapping` and ends with `blockEnd`.
-/

namespace SessionGuard.Yaml

/-- How a scalar is written. -/
inductive Style
  | plain
  | singleQuoted
  | doubleQuoted
  | literal
  | folded
  deriving DecidableEq

inductive Token
  | version (major minor : Nat)
  | handle (handle uri : List Char)
  | documentStart
  | documentEnd
  | blockSequence
  | blockMapping
  | blockEnd
  | flowSequence
  | flowSequenceEnd
  | flowMapping
  | flowMappingEnd
  | entry
  | comma
  | key
  | value
  | reference (name : List Char)
  | anchor (name : List Char)
  | tag (handle suffix : List Char)
  | scalar (text : List Char) (style : Style)
  | streamEnd
  deriving DecidableEq

end SessionGuard.Yaml
