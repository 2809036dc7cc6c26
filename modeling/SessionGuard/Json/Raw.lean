import SessionGuard.Text.Octets

/-!
# JSON as written

`Raw.read?` reads a text by the grammar of JSON and keeps strings and numbers as they are
written, so that each reader judges only the parts it uses.  `Raw.decode?` resolves the escapes
of a string.
-/

namespace SessionGuard.Json

open SessionGuard.Text (Received)

/-- A number as written: sign, digits before the point, digits after it, and the exponent with
its sign. -/
structure Numeral where
  negative : Bool
  whole : List Char
  fraction : Option (List Char)
  exponent : Option (Bool × List Char)
  deriving DecidableEq

/-- A value as written. -/
inductive Raw
  | null
  | bool (value : Bool)
  | number (numeral : Numeral)
  | string (written : Received)
  | array (items : List Raw)
  | object (members : List (Received × Raw))

namespace Raw

/-- The text without the blanks in front. -/
def skipBlanks : Received → Received
  | some c :: rest =>
    if c = ' ' || c = '\n' || c = '\t' || c = '\r' then skipBlanks rest else some c :: rest
  | none :: rest => none :: rest
  | [] => []

/-- The digits in front, and the rest. -/
def takeDigits : Received → List Char × Received
  | some c :: rest =>
    if c.isDigit then
      let r := takeDigits rest
      (c :: r.1, r.2)
    else ([], some c :: rest)
  | none :: rest => ([], none :: rest)
  | [] => ([], [])

/-- A fraction in front, if a point is there. -/
def takeFraction? : Received → Option (Option (List Char) × Received)
  | some '.' :: rest =>
    match takeDigits rest with
    | ([], _) => none
    | (ds, rest) => some (some ds, rest)
  | r => some (none, r)

/-- An exponent in front, if its mark is there. -/
def takeExponent? : Received → Option (Option (Bool × List Char) × Received)
  | some c :: rest =>
    if c = 'e' || c = 'E' then
      let signed : Bool × Received :=
        match rest with
        | some '-' :: rest => (true, rest)
        | some '+' :: rest => (false, rest)
        | rest => (false, rest)
      match takeDigits signed.2 with
      | ([], _) => none
      | (ds, rest) => some (some (signed.1, ds), rest)
    else some (none, some c :: rest)
  | r => some (none, r)

/-- The digits before the point: a zero alone, or digits that start with another. -/
def takeWhole? (r : Received) : Option (List Char × Received) :=
  match takeDigits r with
  | ([], _) => none
  | ('0' :: _ :: _, _) => none
  | (ds, rest) => some (ds, rest)

/-- A number after its sign. -/
def takeNumber? (negative : Bool) (r : Received) : Option (Numeral × Received) := do
  let (whole, r) ← takeWhole? r
  let (fraction, r) ← takeFraction? r
  let (exponent, r) ← takeExponent? r
  some (⟨negative, whole, fraction, exponent⟩, r)

def isHex (c : Char) : Bool :=
  c.isDigit || ('a' ≤ c && c ≤ 'f') || ('A' ≤ c && c ≤ 'F')

/-- A string after its quote, escapes left as they are; the rest follows the closing quote. -/
def takeString? : Received → Option (Received × Received)
  | some '"' :: rest => some ([], rest)
  | some '\\' :: some 'u' :: some a :: some b :: some c :: some d :: rest =>
    if isHex a && isHex b && isHex c && isHex d then
      (takeString? rest).map fun (s, r) =>
        (some '\\' :: some 'u' :: some a :: some b :: some c :: some d :: s, r)
    else none
  | some '\\' :: some c :: rest =>
    if c ∈ ['"', '\\', '/', 'b', 'f', 'n', 'r', 't'] then
      (takeString? rest).map fun (s, r) => (some '\\' :: some c :: s, r)
    else none
  | some c :: rest =>
    if c.toNat < 32 || c = '\\' then none
    else (takeString? rest).map fun (s, r) => (some c :: s, r)
  | none :: rest => (takeString? rest).map fun (s, r) => (none :: s, r)
  | [] => none

/-- The text after a word in front. -/
def takeWord? : List Char → Received → Option Received
  | [], r => some r
  | c :: cs, some d :: rest => if c = d then takeWord? cs rest else none
  | _, _ => none

mutual

/-- A value in front, blanks before it skipped. -/
def takeValue? : Nat → Received → Option (Raw × Received)
  | 0, _ => none
  | fuel + 1, r =>
    match skipBlanks r with
    | some '"' :: rest => (takeString? rest).map fun (s, r) => (string s, r)
    | some '[' :: rest => (takeItems? fuel true rest).map fun (vs, r) => (array vs, r)
    | some '{' :: rest => (takeMembers? fuel true rest).map fun (ms, r) => (object ms, r)
    | some 'n' :: rest => (takeWord? ['u', 'l', 'l'] rest).map fun r => (null, r)
    | some 't' :: rest => (takeWord? ['r', 'u', 'e'] rest).map fun r => (bool true, r)
    | some 'f' :: rest => (takeWord? ['a', 'l', 's', 'e'] rest).map fun r => (bool false, r)
    | some '-' :: rest => (takeNumber? true rest).map fun (n, r) => (number n, r)
    | r => (takeNumber? false r).map fun (n, r) => (number n, r)

/-- The items of an array up to its bracket; `first` where none has come yet. -/
def takeItems? : Nat → Bool → Received → Option (List Raw × Received)
  | 0, _, _ => none
  | fuel + 1, first, r =>
    match first, skipBlanks r with
    | _, some ']' :: rest => some ([], rest)
    | true, r => do
      let (v, r) ← takeValue? fuel r
      let (vs, r) ← takeItems? fuel false r
      some (v :: vs, r)
    | false, some ',' :: rest => do
      let (v, r) ← takeValue? fuel rest
      let (vs, r) ← takeItems? fuel false r
      some (v :: vs, r)
    | false, _ => none

/-- The members of an object up to its brace; `first` where none has come yet. -/
def takeMembers? : Nat → Bool → Received → Option (List (Received × Raw) × Received)
  | 0, _, _ => none
  | fuel + 1, first, r =>
    match first, skipBlanks r with
    | _, some '}' :: rest => some ([], rest)
    | true, r => takeMember? fuel r
    | false, some ',' :: rest => takeMember? fuel (skipBlanks rest)
    | false, _ => none

/-- A member in front and those after it. -/
def takeMember? : Nat → Received → Option (List (Received × Raw) × Received)
  | 0, _ => none
  | fuel + 1, r =>
    match r with
    | some '"' :: rest => do
      let (k, r) ← takeString? rest
      match skipBlanks r with
      | some ':' :: rest =>
        let (v, r) ← takeValue? fuel rest
        let (ms, r) ← takeMembers? fuel false r
        some ((k, v) :: ms, r)
      | _ => none
    | _ => none

end

/-- The value a text holds, with blanks around it. -/
def read? (r : Received) : Option Raw :=
  match takeValue? (3 * r.length + 3) r with
  | some (v, rest) => if (skipBlanks rest).isEmpty then some v else none
  | none => none

/-! ## Strings -/

def hexValue (c : Char) : Nat :=
  if c.isDigit then c.toNat - 48
  else if 'a' ≤ c && c ≤ 'f' then c.toNat - 87
  else c.toNat - 55

/-- The number of four hexadecimal digits. -/
def hexNumber (a b c d : Char) : Nat :=
  ((hexValue a * 16 + hexValue b) * 16 + hexValue c) * 16 + hexValue d

/-- The character of a short escape. -/
def unescaped (c : Char) : Char :=
  if c = 'n' then '\n'
  else if c = 't' then '\t'
  else if c = 'r' then '\r'
  else if c = 'b' then '\x08'
  else if c = 'f' then '\x0c'
  else c

/-- The characters of a string as written.  Refused are bytes that are no character and halves of
a surrogate pair that stand alone. -/
def decodeChars? : Received → Option (List Char)
  | some '\\' :: some 'u' :: some a :: some b :: some c :: some d :: rest =>
    let n := hexNumber a b c d
    if n < 0xD800 || 0xE000 ≤ n then (decodeChars? rest).map (Char.ofNat n :: ·)
    else if 0xDC00 ≤ n then none
    else
      match rest with
      | some '\\' :: some 'u' :: some a :: some b :: some c :: some d :: rest =>
        let m := hexNumber a b c d
        if 0xDC00 ≤ m && m < 0xE000 then
          (decodeChars? rest).map
            (Char.ofNat (0x10000 + (n - 0xD800) * 0x400 + (m - 0xDC00)) :: ·)
        else none
      | _ => none
  | some '\\' :: some c :: rest => (decodeChars? rest).map (unescaped c :: ·)
  | some c :: rest => (decodeChars? rest).map (c :: ·)
  | none :: _ => none
  | [] => some []

/-- The text of a string as written. -/
def decode? (written : Received) : Option String := (decodeChars? written).map String.ofList

end Raw

end SessionGuard.Json
