import SessionGuard.Json.Basic
import SessionGuard.Json.Raw

/-!
# The value of a number as written

An integer that fits in 64 bits is itself.  Every other number is a double: its leading digits, as
many as fit in 64 bits, scaled by a power of ten, each step rounded.
-/

namespace SessionGuard.Json.Numeral

/-- The number that digits spell. -/
def digitsValue (ds : List Char) : Nat := ds.foldl (fun n d => 10 * n + (d.toNat - 48)) 0

/-- The longest run of leading digits whose value, after `n`, fits in 64 bits: that value and the
digits left. -/
def fill (n : Nat) : List Char → Nat × List Char
  | [] => (n, [])
  | d :: ds =>
    let n' := 10 * n + (d.toNat - 48)
    if n' < UInt64.size then fill n' ds else (n, d :: ds)

/-- The double nearest to a power of ten. -/
def power? (k : Nat) : Option Binary64 := Binary64.ofDecimal? false 1 k

/-- A double scaled by a power of ten; `none` if it becomes infinite.  Powers above 308 are no
doubles, so the scale goes down in steps of 308. -/
def scale? : Nat → Binary64 → Int → Option Binary64
  | 0, x, _ => some x
  | fuel + 1, x, k =>
    if k.natAbs ≤ 308 then do
      let p ← power? k.natAbs
      if k < 0 then x.div? p else x.mul? p
    else if x.mantissa = 0 then some x
    else if k > 0 then none
    else do
      let p ← power? 308
      scale? fuel (← x.div? p) (k + 308)

/-- The exponent as written, at most `2 ^ 31` away from zero. -/
def exponentValue (n : Numeral) : Int :=
  match n.exponent with
  | none => 0
  | some (negative, ds) =>
    let e : Int := min (digitsValue ds) 0x80000000
    if negative then -e else e

/-- The double of a number. -/
def float? (n : Numeral) : Option Binary64 :=
  let (w, wholeLeft) := fill 0 n.whole
  let (digits, shift) :=
    match n.fraction with
    | none => (w, (wholeLeft.length : Int))
    | some fs =>
      let (f, fractionLeft) := fill w fs
      (f, (wholeLeft.length : Int) - ((fs.length - fractionLeft.length : Nat) : Int))
  do
    let x ← Binary64.ofDecimal? false digits 0
    let y ← scale? 8 x (shift + exponentValue n)
    if n.negative then some y.neg else some y

/-- The value of a number; `none` if it is too large. -/
def value? (n : Numeral) : Option JsonNumber :=
  match n.fraction, n.exponent with
  | none, none =>
    let w := digitsValue n.whole
    if n.negative then
      if 0 < w && w ≤ 0x8000000000000000 then some (.int (-(w : Int))) else n.float?.map .float
    else if w < UInt64.size then some (.int w)
    else n.float?.map .float
  | _, _ => n.float?.map .float

/-- The integer a number is, if it is written as one and fits in 64 bits with a sign. -/
def int64? (n : Numeral) : Option Int :=
  match n.value? with
  | some (.int v) => if -0x8000000000000000 ≤ v && v < 0x8000000000000000 then some v else none
  | _ => none

end SessionGuard.Json.Numeral
