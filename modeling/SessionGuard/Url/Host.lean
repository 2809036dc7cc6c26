import SessionGuard.Text.Percent
import SessionGuard.Url.Domain

/-!
# Hosts

A host is named or given by its number, of 32 bits in four parts or of 128 in eight.  A name whose
last part is a number is such a number.
-/

namespace SessionGuard

/-- Why a text is no address. -/
inductive UrlError
  | relative
  | emptyHost
  | invalidDomain
  | invalidCharacter
  | invalidPort
  | invalidIpv4
  | invalidIpv6
  deriving DecidableEq

def UrlError.message : UrlError → String
  | relative => "relative URL without a base"
  | emptyHost => "empty host"
  | invalidDomain => "invalid international domain name"
  | invalidCharacter => "invalid domain character"
  | invalidPort => "invalid port number"
  | invalidIpv4 => "invalid IPv4 address"
  | invalidIpv6 => "invalid IPv6 address"

inductive Host
  | name (text : String)
  | ipv4 (number : Nat)
  | ipv6 (parts : List Nat)
  deriving DecidableEq

namespace Host

/-! ## Numbers of 32 bits -/

/-- The value of digits in a base, if they are digits. -/
def value? (base : Nat) (cs : List Char) : Option Nat :=
  cs.foldlM (fun n c => do
    let d ← Text.Percent.hexValue? c
    if d < base then some (base * n + d) else none) 0

/-- A part of a number: hexadecimal after `0x`, octal after `0`, or else decimal. -/
def part? : List Char → Option Nat
  | [] => none
  | '0' :: 'x' :: rest => value? 16 rest
  | '0' :: 'X' :: rest => value? 16 rest
  | '0' :: c :: rest => value? 8 (c :: rest)
  | cs => value? 10 cs

/-- The parts of a name, a point at its end aside. -/
def partsOf (cs : List Char) : List (List Char) :=
  let parts := Text.splitAt '.' cs
  if parts.getLast? = some [] then parts.dropLast else parts

/-- Whether the last part of a name is a number. -/
def endsInNumber (cs : List Char) : Bool :=
  match (partsOf cs).getLast? with
  | none => false
  | some part => (!part.isEmpty && part.all Char.isDigit) || (part? part).isSome

/-- The number of a name that ends in one: its last part has all the bits that the others leave. -/
def number? (cs : List Char) : Option Nat := do
  let parts ← (partsOf cs).mapM part?
  let last ← parts.getLast?
  let first := parts.dropLast
  if first.length < 4 && last < Nat.pow 256 (4 - first.length) && first.all (· < 256) then
    some (first.foldl (fun n p => 256 * n + p) 0 * Nat.pow 256 (4 - first.length) + last)
  else none

/-! ## Numbers of 128 bits -/

/-- The four parts of a decimal number at the end of a longer one. -/
def decimalParts? (cs : List Char) : Option (List Nat) :=
  let parts := Text.splitAt '.' cs
  if parts.length ≠ 4 then none
  else
    parts.mapM fun part => do
      if part.isEmpty || (1 < part.length && part.head? == some '0') then none
      else
        let n ← value? 10 part
        if n < 256 then some n else none

/-- The parts from where one begins: `parts` are those before, and `gap` of them stand before the
gap. -/
def partsFrom? (parts : List Nat) (gap : Option Nat) : Nat → List Char → Option (List Nat × Option Nat)
  | 0, _ => none
  | _, [] => some (parts, gap)
  | fuel + 1, ':' :: rest =>
    if parts.length < 8 ∧ gap = none then
      partsFrom? (parts ++ [0]) (some (parts.length + 1)) fuel rest
    else none
  | fuel + 1, cs =>
    if 8 ≤ parts.length then none
    else
      let digits := (cs.take 4).takeWhile fun c => (Text.Percent.hexValue? c).isSome
      match cs.drop digits.length with
      | [] => (value? 16 digits).map fun n => (parts ++ [n], gap)
      | '.' :: _ =>
        if digits.isEmpty || 6 < parts.length then none
        else
          match decimalParts? cs with
          | some [a, b, c, d] => some (parts ++ [256 * a + b, 256 * c + d], gap)
          | _ => none
      | ':' :: rest =>
        if rest.isEmpty then none
        else do
          let n ← value? 16 digits
          partsFrom? (parts ++ [n]) gap fuel rest
      | _ => none

/-- The eight parts of a number; zeros fill the gap. -/
def parts? (cs : List Char) : Option (List Nat) := do
  let (parts, gap) ←
    match cs with
    | ':' :: ':' :: rest => partsFrom? [0] (some 1) (cs.length + 1) rest
    | ':' :: _ => none
    | _ => partsFrom? [] none (cs.length + 1) cs
  match gap with
  | none => if parts.length = 8 then some parts else none
  | some gap => some (parts.take gap ++ List.replicate (8 - parts.length) 0 ++ parts.drop gap)

/-- The digits of a number in a base below 17, in small letters. -/
def digits (base n : Nat) : List Char := Nat.toDigits base n

/-- Where the first of the longest runs of zeros begins, and its length. -/
def longestGap : List Nat → Nat × Nat
  | [] => (0, 0)
  | p :: rest =>
    let here := ((p :: rest).takeWhile (· == 0)).length
    let (start, length) := longestGap rest
    if length ≤ here then (0, here) else (start + 1, length)

/-- The text of the parts of a number; the first of the longest runs of two zeros or more is left
out. -/
def partsText (parts : List Nat) : List Char :=
  let list := fun (ps : List Nat) => List.intercalate [':'] (ps.map (digits 16))
  let (start, length) := longestGap parts
  if length < 2 then list parts
  else list (parts.take start) ++ [':', ':'] ++ list (parts.drop (start + length))

/-! ## Hosts as text -/

def text : Host → List Char
  | name text => text.toList
  | ipv4 n =>
    List.intercalate ['.'] ([n / 16777216, n / 65536 % 256, n / 256 % 256, n % 256].map (digits 10))
  | ipv6 parts => '[' :: partsText parts ++ [']']

/-- The text between brackets, if there are any. -/
def bracketed? : List Char → Option (Option (List Char))
  | '[' :: rest => some (if rest.getLast? = some ']' then some rest.dropLast else none)
  | _ => none

/-- The host of an address on the web. -/
def ofText? (cs : List Char) : Except UrlError Host :=
  match bracketed? cs with
  | some inner? =>
    match inner?.bind parts? with
    | some parts => .ok (ipv6 parts)
    | none => .error .invalidIpv6
  | none =>
    let text? := String.fromUTF8? ⟨(Text.Percent.decode cs).toArray⟩
    match text?.bind fun s => Domain.ofText? s.toList with
    | none => .error .invalidDomain
    | some [] => .error .emptyHost
    | some domain =>
      if endsInNumber domain then
        match number? domain with
        | some n => .ok (ipv4 n)
        | none => .error .invalidIpv4
      else .ok (name (String.ofList domain))

/-- The host of any other address: its name is not interpreted. -/
def ofPlainText? (cs : List Char) : Except UrlError Host :=
  match bracketed? cs with
  | some inner? =>
    match inner?.bind parts? with
    | some parts => .ok (ipv6 parts)
    | none => .error .invalidIpv6
  | none =>
    if cs.any fun c => "\x00\t\n\r #/:<>?@[\\]^|".toList.contains c then .error .invalidCharacter
    else .ok (name (String.ofList (Text.Percent.encode (fun _ => false) cs)))

/-- Whether a host is named by nothing. -/
def isEmpty : Host → Bool
  | name text => text.isEmpty
  | _ => false

end Host

end SessionGuard
