import SessionGuard.Number.Binary64

/-!
# The shortest decimal of a double

Of the decimals that read back as a double, `Binary64.shortest` has the fewest digits, and of
those it is the nearest.  `Binary64.text` writes it: positional from `1e-5` up to sixteen digits
before the point, with an exponent elsewhere.
-/

namespace SessionGuard.Binary64

/-- The interval of the reals that round to a double, and the double itself, over one scale:
the numbers are multiples of `2 ^ (exponent - 2)`. -/
structure Interval where
  low : Nat
  value : Nat
  high : Nat
  closed : Bool

def interval (x : Binary64) : Interval where
  low := if x.mantissa = Nat.pow 2 52 && x.exponent > -1074 then 4 * x.mantissa - 1
    else 4 * x.mantissa - 2
  value := 4 * x.mantissa
  high := 4 * x.mantissa + 2
  closed := x.mantissa % 2 = 0

/-- Whether `num` is in the interval. -/
def Interval.contains (i : Interval) (num den : Nat) : Bool :=
  if i.closed then i.low * den ≤ num && num ≤ i.high * den
  else i.low * den < num && num < i.high * den

/-- Of the two neighbours of `value` on the grid of multiples of `step / unit`, the one in the
interval, the nearer if both are, the even one on a tie. -/
def Interval.hit? (i : Interval) (unit step : Nat) : Option Nat :=
  let below := i.value * unit / step
  let above := below + 1
  let inBelow := i.contains (below * step) unit
  let inAbove := i.contains (above * step) unit
  let gapBelow := i.value * unit - below * step
  let gapAbove := above * step - i.value * unit
  if inBelow && inAbove then
    if gapBelow < gapAbove || (gapBelow == gapAbove && below % 2 == 0) then some below
    else some above
  else if inBelow then some below
  else if inAbove then some above
  else none

/-- The number `n` without the zeros at its end, and how many there were. -/
def stripZeros : Nat → Nat → Nat × Nat
  | 0, n => (n, 0)
  | fuel + 1, n =>
    if n ≠ 0 && n % 10 == 0 then
      let r := stripZeros fuel (n / 10)
      (r.1, r.2 + 1)
    else (n, 0)

/-- The first grid with a hit, from `left` digits more: the digits and their exponent.  The
numbers are `num / den` in units of `unit`; `place` is the exponent of the leading digit. -/
def search (i : Interval) (unit : Int → Nat × Nat) (place : Int) : Nat → Nat → Nat × Int
  | 0, _ => (0, 0)
  | left + 1, count =>
    let exponent := place - (count : Int)
    let grid := unit exponent
    match i.hit? grid.1 grid.2 with
    | some digits =>
      let r := stripZeros 20 digits
      (r.1, exponent + (r.2 : Int))
    | none => search i unit place left (count + 1)

/-- The shortest decimal `digits · 10 ^ exponent` of a magnitude that is not zero. -/
def shortest (x : Binary64) : Nat × Int :=
  let i := x.interval
  let e := x.exponent - 2
  -- a multiple of `2 ^ e` and a multiple of `10 ^ p`, over one unit
  let unit := fun (p : Int) =>
    let two := Nat.pow 2 e.natAbs
    let ten := Nat.pow 10 p.natAbs
    match decide (e < 0), decide (p < 0) with
    | true, true => (ten, two)
    | true, false => (1, ten * two)
    | false, true => (two * ten, 1)
    | false, false => (two, ten)
  let top := (Nat.toDigits 10 (x.ratio.1 / x.ratio.2)).length
  let place : Int :=
    if x.ratio.1 / x.ratio.2 > 0 then (top : Int) - 1
    else - (((Nat.toDigits 10 (x.ratio.2 / x.ratio.1)).length : Int))
  search i unit place 19 0

/-- The text of a decimal `digits · 10 ^ exponent` with the given digits. -/
def decimalText (digits : List Char) (exponent : Int) : List Char :=
  let count := digits.length
  let point := (count : Int) + exponent
  if 0 ≤ exponent && point ≤ 16 then
    digits ++ List.replicate exponent.toNat '0' ++ ['.', '0']
  else if 0 < point && point ≤ 16 then
    digits.take point.toNat ++ '.' :: digits.drop point.toNat
  else if -5 < point && point ≤ 0 then
    '0' :: '.' :: List.replicate (-point).toNat '0' ++ digits
  else
    let power := (toString (point - 1)).toList
    match digits with
    | [d] => d :: 'e' :: power
    | d :: rest => d :: '.' :: rest ++ 'e' :: power
    | [] => []

/-- The text of a double: its shortest decimal, always with a point or an exponent. -/
def text (x : Binary64) : List Char :=
  let magnitude :=
    if x.mantissa = 0 then ['0', '.', '0']
    else decimalText (Nat.toDigits 10 x.shortest.1) x.shortest.2
  if x.negative then '-' :: magnitude else magnitude

end SessionGuard.Binary64
