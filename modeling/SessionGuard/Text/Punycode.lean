/-!
# Punycode

A text is written in ASCII as its ASCII characters, a hyphen, and numbers that say which other
characters to insert where.  A number is written in 36 digits, the least first; the threshold below
which a digit is the last moves with the place and with a bias, which follows the numbers before.
-/

namespace SessionGuard.Text.Punycode

/-- The digit of a number below 36. -/
def digit (n : Nat) : Char := if n < 26 then Char.ofNat (97 + n) else Char.ofNat (22 + n)

/-- The number of a digit. -/
def value? (c : Char) : Option Nat :=
  if 'a' ≤ c && c ≤ 'z' then some (c.toNat - 97)
  else if 'A' ≤ c && c ≤ 'Z' then some (c.toNat - 65)
  else if '0' ≤ c && c ≤ '9' then some (c.toNat - 22)
  else none

/-- The threshold at a place. -/
def threshold (place bias : Nat) : Nat := min 26 (max 1 (place - bias))

theorem threshold_pos (place bias : Nat) : 0 < threshold place bias := by
  unfold threshold
  omega

/-- The bias for a number that has been halved and evened out. -/
def biasOf (n : Nat) : Nat :=
  if 455 < n then 36 + biasOf (n / 35) else 36 * n / (n + 38)
termination_by n

/-- The bias after a number, the text then having `length` characters. -/
def adapt (n length : Nat) (first : Bool) : Nat :=
  let n := if first then n / 700 else n / 2
  biasOf (n + n / length)

/-! ## Writing -/

/-- The digits of a number from a place on. -/
def number (bias place n : Nat) : List Char :=
  let t := threshold place bias
  if n < t then [digit n]
  else digit (t + (n - t) % (36 - t)) :: number bias (place + 36) ((n - t) / (36 - t))
termination_by n
decreasing_by
  have h := threshold_pos place bias
  exact Nat.lt_of_le_of_lt (Nat.div_le_self _ _) (by omega)

/-- How far the writing has come: the digits, how many characters were passed since the last
insertion, the bias, and how many characters stand already. -/
structure Writing where
  digits : List Char
  passed : Nat
  bias : Nat
  placed : Nat

/-- Passes a character of the text while the insertions of `n` are written. -/
def Writing.pass (ascii n : Nat) (w : Writing) (c : Char) : Writing :=
  if c.toNat < n then { w with passed := w.passed + 1 }
  else if c.toNat = n then
    ⟨w.digits ++ number w.bias 36 w.passed, 0,
      adapt w.passed (w.placed + 1) (w.placed == ascii), w.placed + 1⟩
  else w

/-- A text in ASCII. -/
def encode (cs : List Char) : List Char :=
  let ascii := cs.filter (·.toNat < 128)
  let others := ((cs.map Char.toNat).filter (128 ≤ ·)).mergeSort.eraseDups
  let start : Writing := ⟨[], 0, 72, ascii.length⟩
  let (w, _) := others.foldl (fun (w, next) n =>
    let w := { w with passed := w.passed + (n - next) * (w.placed + 1) }
    let w := cs.foldl (Writing.pass ascii.length n) w
    ({ w with passed := w.passed + 1 }, n + 1)) (start, 128)
  (if ascii.isEmpty then [] else ascii ++ ['-']) ++ w.digits

/-! ## Reading -/

/-- The number that digits start with, added to `sum`, and the digits after it. -/
def number? (bias place weight sum : Nat) : List Char → Option (Nat × List Char)
  | [] => none
  | c :: rest =>
    match value? c with
    | none => none
    | some d =>
      if d < threshold place bias then some (sum + d * weight, rest)
      else
        number? bias (place + 36) (weight * (36 - threshold place bias)) (sum + d * weight) rest

theorem length_number? {bias place weight sum : Nat} {cs : List Char} {r : Nat × List Char}
    (h : number? bias place weight sum cs = some r) : r.2.length < cs.length := by
  induction cs generalizing place weight sum with
  | nil => simp [number?] at h
  | cons c cs ih =>
    rw [number?] at h
    split at h
    · simp at h
    · split at h
      · simp only [Option.some.injEq] at h
        subst h
        simp
      · exact Nat.lt_succ_of_lt (ih h)

/-- Inserts the characters that digits say into a text: the last was put before place `at`, and
none below `n` is left. -/
def insertions? (bias n place : Nat) (out : List Char) : List Char → Option (List Char)
  | [] => some out
  | c :: cs =>
    match h : number? bias 36 1 place (c :: cs) with
    | none => none
    | some (i, rest) =>
      let length := out.length + 1
      let n := n + i / length
      let place' := i % length
      if n.isValidChar then
        insertions? (adapt (i - place) length (place == 0)) n (place' + 1)
          (out.insertIdx place' (Char.ofNat n)) rest
      else none
termination_by cs => cs.length
decreasing_by
  have := length_number? h
  simpa using this

/-- The text that an ASCII form stands for. -/
def decode? (cs : List Char) : Option (List Char) :=
  let tail := (cs.reverse.takeWhile (· != '-')).reverse
  let ascii := cs.take (cs.length - tail.length - 1)
  insertions? 72 128 0 ascii tail

end SessionGuard.Text.Punycode
