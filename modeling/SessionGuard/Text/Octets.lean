/-!
# Bytes read as UTF-8

`Octets.read` turns bytes into characters.  A run of bytes that belongs to no character, the
longest that starts one and stops short, is kept as a single `none`, so that a reader may decide
for itself where it refuses such a run.
-/

namespace SessionGuard.Text

/-- Characters as received; `none` stands for bytes that are no character. -/
abbrev Received := List (Option Char)

namespace Octets

/-- A character begun: the bits so far, the bytes owed, and the range of the next byte. -/
structure Partial where
  bits : Nat
  owed : Nat
  low : Nat
  high : Nat

/-- The beginning that a first byte makes; `none` for a byte that starts no longer character. -/
def Partial.start? (b : Nat) : Option Partial :=
  if 0xC2 ≤ b && b ≤ 0xDF then some ⟨b - 0xC0, 1, 0x80, 0xBF⟩
  else if b == 0xE0 then some ⟨0, 2, 0xA0, 0xBF⟩
  else if b == 0xED then some ⟨0xD, 2, 0x80, 0x9F⟩
  else if 0xE1 ≤ b && b ≤ 0xEF then some ⟨b - 0xE0, 2, 0x80, 0xBF⟩
  else if b == 0xF0 then some ⟨0, 3, 0x90, 0xBF⟩
  else if 0xF1 ≤ b && b ≤ 0xF3 then some ⟨b - 0xF0, 3, 0x80, 0xBF⟩
  else if b == 0xF4 then some ⟨4, 3, 0x80, 0x8F⟩
  else none

/-- The characters of bytes, after a character begun. -/
def readFrom : Option Partial → List UInt8 → Received
  | none, [] => []
  | some _, [] => [none]
  | none, b :: rest =>
    if b.toNat < 0x80 then some (Char.ofNat b.toNat) :: readFrom none rest
    else
      match Partial.start? b.toNat with
      | some p => readFrom (some p) rest
      | none => none :: readFrom none rest
  | some p, b :: rest =>
    if p.low ≤ b.toNat && b.toNat ≤ p.high then
      let bits := p.bits * 64 + (b.toNat - 0x80)
      if p.owed ≤ 1 then some (Char.ofNat bits) :: readFrom none rest
      else readFrom (some ⟨bits, p.owed - 1, 0x80, 0xBF⟩) rest
    else if b.toNat < 0x80 then none :: some (Char.ofNat b.toNat) :: readFrom none rest
    else
      match Partial.start? b.toNat with
      | some q => none :: readFrom (some q) rest
      | none => none :: none :: readFrom none rest

/-- The characters of bytes. -/
def read (bytes : List UInt8) : Received := readFrom none bytes

/-- The bytes of a text. -/
def ofString (s : String) : List UInt8 := s.toUTF8.data.toList

end Octets

namespace Received

/-- The text, if every byte belongs to a character. -/
def text? (r : Received) : Option String := (r.mapM id).map String.ofList

/-- The text with the replacement character for bytes that are none. -/
def lossy (r : Received) : String := String.ofList (r.map fun c => c.getD '\uFFFD')

/-- A text as received. -/
def ofString (s : String) : Received := s.toList.map some

end Received

end SessionGuard.Text
