/-!
# Double-precision numbers

A finite double is `± mantissa · 2 ^ exponent`.  `nearest?` rounds a quotient of naturals to the
nearest double, a tie to the even mantissa; it has no answer where the result would be infinite.
-/

namespace SessionGuard

/-- A finite double: sign, mantissa below `2 ^ 53`, and exponent from -1074 to 971. -/
structure Binary64 where
  negative : Bool
  mantissa : Nat
  exponent : Int
  deriving DecidableEq

namespace Binary64

def zero (negative : Bool) : Binary64 := ⟨negative, 0, -1074⟩

/-- The quotient `num · 2 ^ (-e) / den`, rounded to the nearest natural, a tie to the even one. -/
def scaledRound (num den : Nat) (e : Int) : Nat :=
  let n := if e < 0 then num * Nat.pow 2 e.natAbs else num
  let d := if e < 0 then den else den * Nat.pow 2 e.natAbs
  let q := n / d
  let r := n % d
  if 2 * r > d || (2 * r == d && q % 2 == 1) then q + 1 else q

/-- Whether `num / den` is below `2 ^ k`. -/
def belowPower (num den : Nat) (k : Int) : Bool :=
  if k < 0 then num * Nat.pow 2 k.natAbs < den else num < den * Nat.pow 2 k.natAbs

/-- The double nearest to `± num / den`; `none` if it is infinite. -/
def nearest? (negative : Bool) (num den : Nat) : Option Binary64 :=
  if num = 0 then some (zero negative)
  else
    let k : Int := (num.log2 : Int) - (den.log2 : Int)
    let k := if belowPower num den k then k - 1 else k
    let e := max (k - 52) (-1074)
    let m := scaledRound num den e
    let m' := if m = Nat.pow 2 53 then Nat.pow 2 52 else m
    let e' := if m = Nat.pow 2 53 then e + 1 else e
    if e' > 971 then none else some ⟨negative, m', e'⟩

/-- The magnitude as a quotient of naturals. -/
def ratio (x : Binary64) : Nat × Nat :=
  if x.exponent < 0 then (x.mantissa, Nat.pow 2 x.exponent.natAbs)
  else (x.mantissa * Nat.pow 2 x.exponent.natAbs, 1)

/-- The product, rounded. -/
def mul? (x y : Binary64) : Option Binary64 :=
  nearest? (x.negative != y.negative) (x.ratio.1 * y.ratio.1) (x.ratio.2 * y.ratio.2)

/-- The quotient by a number other than zero, rounded. -/
def div? (x y : Binary64) : Option Binary64 :=
  nearest? (x.negative != y.negative) (x.ratio.1 * y.ratio.2) (x.ratio.2 * y.ratio.1)

def neg (x : Binary64) : Binary64 := { x with negative := !x.negative }

/-- The double nearest to a decimal `± digits · 10 ^ exponent`; `none` if it is infinite. -/
def ofDecimal? (negative : Bool) (digits : Nat) (exponent : Int) : Option Binary64 :=
  if digits = 0 then some (zero negative)
  else if exponent > 400 then none
  else if exponent < -400 - (digits.log2 : Int) then some (zero negative)
  else if exponent < 0 then nearest? negative digits (Nat.pow 10 exponent.natAbs)
  else nearest? negative (digits * Nat.pow 10 exponent.natAbs) 1

example : nearest? false 1 1 = some ⟨false, Nat.pow 2 52, -52⟩ := by decide

end Binary64

end SessionGuard
