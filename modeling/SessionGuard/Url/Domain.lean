import SessionGuard.Text.Punycode
import SessionGuard.Text.Trim

/-!
# Names of hosts

The name of a host is compared without regard to case, and what is not ASCII in one of its parts
is sent in Punycode.  `Domain.ofText?` refuses a name with a character that no name may hold.
Characters that are put together or taken apart are not made one, and any that has no number in ASCII
may stand in a name unless it is known to be unfit.
-/

namespace SessionGuard.Domain

/-- The characters of ASCII that no name may hold. -/
def isForbidden (c : Char) : Bool :=
  c ≤ ' ' || c = '\x7f' || "%#/:<>?@[\\]^|".toList.contains c

/-- The characters that are left out of a name. -/
def isIgnored (c : Char) : Bool :=
  let n := c.toNat
  n == 0xAD || n == 0x34F || n == 0x180B || n == 0x180C || n == 0x180D || n == 0x180F
    || n == 0x200B || n == 0x2060 || n == 0x2064 || n == 0xFEFF || (0xFE00 ≤ n && n ≤ 0xFE0F)
    || (0x1BCA0 ≤ n && n ≤ 0x1BCA3) || (0xE0100 ≤ n && n ≤ 0xE01EF)

/-- The characters beyond ASCII that no name may hold: blanks, those that control the flow of a
text, and those that are set aside. -/
def isUnfit (c : Char) : Bool :=
  let n := c.toNat
  n < 0xA0 || Text.isBlank c || (0x200C ≤ n && n ≤ 0x200F) || (0x202A ≤ n && n ≤ 0x202E)
    || (0x2061 ≤ n && n ≤ 0x206F) || (0xE000 ≤ n && n ≤ 0xF8FF) || (0xFDD0 ≤ n && n ≤ 0xFDEF)
    || (0xFFF0 ≤ n && n ≤ 0xFFFF) || n % 0x10000 ≥ 0xFFFE || 0xE0000 ≤ n

/-- The characters that separate the parts of a name as a point does. -/
def isPoint (c : Char) : Bool := c = '.' || c = '\u3002' || c = '\uff61'

/-- The small letter for a capital one of the Latin, Greek and Cyrillic alphabets. -/
def lower (c : Char) : Char :=
  let n := c.toNat
  let pairs := fun (first last : Nat) => first ≤ n && n ≤ last && n % 2 == first % 2
  if 0x41 ≤ n && n ≤ 0x5A then Char.ofNat (n + 32)
  else if n < 0xC0 then c
  else if n ≤ 0xDE && n ≠ 0xD7 then Char.ofNat (n + 32)
  else if pairs 0x100 0x136 || pairs 0x139 0x147 || pairs 0x14A 0x176 || pairs 0x179 0x17D then
    Char.ofNat (n + 1)
  else if n = 0x178 then Char.ofNat 0xFF
  else if 0x391 ≤ n && n ≤ 0x3AB then Char.ofNat (n + 32)
  else if 0x400 ≤ n && n ≤ 0x40F then Char.ofNat (n + 80)
  else if 0x410 ≤ n && n ≤ 0x42F then Char.ofNat (n + 32)
  else c

/-- The character of ordinary width for a wide one. -/
def narrow (c : Char) : Char :=
  if 0xFF01 ≤ c.toNat && c.toNat ≤ 0xFF5E then Char.ofNat (c.toNat - 0xFEE0) else c

/-- What a character becomes in a name, if a name may hold it. -/
def mapped? (c : Char) : Option (List Char) :=
  if isIgnored c then some []
  else
    let c := lower (narrow c)
    if isPoint c then some ['.']
    else if c.toNat < 128 then if isForbidden c then none else some [c]
    else if isUnfit c then none
    else some [c]

/-- A part of a name in ASCII.  A part that is in Punycode has to stand for one that is not in
ASCII. -/
def part? (cs : List Char) : Option (List Char) :=
  if cs.take 4 = ['x', 'n', '-', '-'] then
    match Text.Punycode.decode? (cs.drop 4) with
    | some decoded =>
      if decoded.any (128 ≤ ·.toNat) && decoded.all fun c => mapped? c == some [c] then some cs
      else none
    | none => none
  else if cs.all (·.toNat < 128) then some cs
  else some (['x', 'n', '-', '-'] ++ Text.Punycode.encode cs)

/-- The name of a host in ASCII. -/
def ofText? (cs : List Char) : Option (List Char) := do
  let mapped ← cs.mapM mapped?
  let parts ← (Text.splitAt '.' mapped.flatten).mapM part?
  some (List.intercalate ['.'] parts)

end SessionGuard.Domain
