import SessionGuard.Json.Record
import SessionGuard.Proofs.Number.Digits

/-!
# The grammar of JSON

`Spells` says which texts are JSON and what they hold, rule by rule and apart from any reader;
`Writes` says which text the inside of a string stands for.  The reader takes every text of the grammar
and finds in it what it holds (`read?_of_spells`, `decode?_of_denotes`).
-/

namespace SessionGuard.Json

open SessionGuard.Text (Received)

/-! ## Tokens -/

/-- Blanks between tokens. -/
def IsGap (cs : List Char) : Prop := ∀ c ∈ cs, c = ' ' ∨ c = '\n' ∨ c = '\t' ∨ c = '\r'

theorem isGap_nil : IsGap [] := by simp [IsGap]

theorem isGap_blank : IsGap [' '] := by simp [IsGap]

/-- One digit or more. -/
def IsDigits (ds : List Char) : Prop := ds ≠ [] ∧ ∀ d ∈ ds, d.isDigit = true

/-- The point of a number and the digits after it, if there are any. -/
inductive Fraction : Option (List Char) → List Char → Prop
  | none : Fraction none []
  | some {ds : List Char} (h : IsDigits ds) : Fraction (some ds) ('.' :: ds)

/-- The exponent of a number, if there is one. -/
inductive Exponent : Option (Bool × List Char) → List Char → Prop
  | none : Exponent none []
  | bare {e : Char} {ds : List Char} (he : e = 'e' ∨ e = 'E') (h : IsDigits ds) :
      Exponent (some (false, ds)) (e :: ds)
  | plus {e : Char} {ds : List Char} (he : e = 'e' ∨ e = 'E') (h : IsDigits ds) :
      Exponent (some (false, ds)) (e :: '+' :: ds)
  | minus {e : Char} {ds : List Char} (he : e = 'e' ∨ e = 'E') (h : IsDigits ds) :
      Exponent (some (true, ds)) (e :: '-' :: ds)

/-- The text of a number: no zero stands in front of other digits. -/
structure Numeral.Spells (n : Numeral) (cs : List Char) : Prop where
  whole : IsDigits n.whole
  zero : n.whole.head? = some '0' → n.whole = ['0']
  parts : ∃ fraction exponent, Fraction n.fraction fraction ∧ Exponent n.exponent exponent ∧
    cs = (if n.negative then ['-'] else []) ++ (n.whole ++ (fraction ++ exponent))

/-- A hexadecimal digit, small or capital. -/
def HexDigit (c : Char) (n : Nat) : Prop :=
  "0123456789abcdef".toList[n]? = some c ∨ "0123456789ABCDEF".toList[n]? = some c

/-- The number of four hexadecimal digits. -/
def Hex4 (a b c d : Char) (n : Nat) : Prop :=
  ∃ w x y z, HexDigit a w ∧ HexDigit b x ∧ HexDigit c y ∧ HexDigit d z ∧
    n = ((w * 16 + x) * 16 + y) * 16 + z

/-- The characters that are escaped with one other character, behind those. -/
def shortEscapes : List (Char × Char) :=
  [('"', '"'), ('\\', '\\'), ('/', '/'), ('b', '\x08'), ('f', '\x0c'), ('n', '\n'), ('r', '\r'),
    ('t', '\t')]

/-- A character that stands for itself in a string. -/
structure IsPlain (c : Char) : Prop where
  printable : 32 ≤ c.toNat
  noQuote : c ≠ '"'
  noBackslash : c ≠ '\\'

/-- The inside of a string as written. -/
inductive Inside : List Char → Prop
  | nil : Inside []
  | plain {c : Char} {cs : List Char} (hc : IsPlain c) (h : Inside cs) : Inside (c :: cs)
  | short {e c : Char} {cs : List Char} (he : (e, c) ∈ shortEscapes) (h : Inside cs) :
      Inside ('\\' :: e :: cs)
  | number {a b c d : Char} {n : Nat} {cs : List Char} (hn : Hex4 a b c d n) (h : Inside cs) :
      Inside ('\\' :: 'u' :: a :: b :: c :: d :: cs)

/-- The inside of a string stands for a text.  A character above U+FFFF is escaped as two halves. -/
inductive Writes : List Char → List Char → Prop
  | nil : Writes [] []
  | plain {c : Char} {text cs : List Char} (hc : IsPlain c) (h : Writes text cs) :
      Writes (c :: text) (c :: cs)
  | short {e c : Char} {text cs : List Char} (he : (e, c) ∈ shortEscapes) (h : Writes text cs) :
      Writes (c :: text) ('\\' :: e :: cs)
  | number {a b c d char : Char} {text cs : List Char} (hn : Hex4 a b c d char.toNat)
      (h : Writes text cs) : Writes (char :: text) ('\\' :: 'u' :: a :: b :: c :: d :: cs)
  | halves {a b c d a' b' c' d' char : Char} {k : Nat} {text cs : List Char}
      (hchar : char.toNat = 0x10000 + k) (hhigh : Hex4 a b c d (0xD800 + k / 0x400))
      (hlow : Hex4 a' b' c' d' (0xDC00 + k % 0x400)) (h : Writes text cs) :
      Writes (char :: text)
        ('\\' :: 'u' :: a :: b :: c :: d :: '\\' :: 'u' :: a' :: b' :: c' :: d' :: cs)

/-- What stands for a text can stand inside a string. -/
theorem Writes.inside {text cs : List Char} (h : Writes text cs) : Inside cs := by
  induction h with
  | nil => exact .nil
  | plain hc _ ih => exact .plain hc ih
  | short he _ ih => exact .short he ih
  | number hn _ ih => exact .number hn ih
  | halves _ hhigh hlow _ ih => exact .number hhigh (.number hlow ih)

/-- A string as written stands for a text. -/
def Denotes (written : Received) (text : String) : Prop :=
  ∃ cs, written = cs.map some ∧ Writes text.toList cs

/-! ## Values -/

/-- What a piece of a text holds: a value, or what is left of an array or an object up to its closing
bracket, at its start or behind a part of it. -/
inductive Piece
  | value (v : Raw)
  | items (vs : List Raw)
  | moreItems (vs : List Raw)
  | members (ms : List (Received × Raw))
  | moreMembers (ms : List (Received × Raw))

/-- The texts of JSON. -/
inductive Spells : Piece → List Char → Prop
  | null : Spells (.value .null) ['n', 'u', 'l', 'l']
  | true : Spells (.value (.bool true)) ['t', 'r', 'u', 'e']
  | false : Spells (.value (.bool false)) ['f', 'a', 'l', 's', 'e']
  | number {n : Numeral} {cs : List Char} (h : n.Spells cs) : Spells (.value (.number n)) cs
  | string {cs : List Char} (h : Inside cs) :
      Spells (.value (.string (cs.map some))) ('"' :: (cs ++ ['"']))
  | array {vs : List Raw} {cs : List Char} (h : Spells (.items vs) cs) :
      Spells (.value (.array vs)) ('[' :: cs)
  | object {ms : List (Received × Raw)} {cs : List Char} (h : Spells (.members ms) cs) :
      Spells (.value (.object ms)) ('{' :: cs)
  | noItem {gap : List Char} (hgap : IsGap gap) : Spells (.items []) (gap ++ [']'])
  | item {v : Raw} {vs : List Raw} {gap cs ds : List Char} (hgap : IsGap gap)
      (h : Spells (.value v) cs) (hs : Spells (.moreItems vs) ds) :
      Spells (.items (v :: vs)) (gap ++ (cs ++ ds))
  | endItems {gap : List Char} (hgap : IsGap gap) : Spells (.moreItems []) (gap ++ [']'])
  | nextItem {vs : List Raw} {gap cs : List Char} (hgap : IsGap gap) (hne : vs ≠ [])
      (h : Spells (.items vs) cs) : Spells (.moreItems vs) (gap ++ ',' :: cs)
  | noMember {gap : List Char} (hgap : IsGap gap) : Spells (.members []) (gap ++ ['}'])
  | member {v : Raw} {ms : List (Received × Raw)} {gap key gap' gap'' cs ds : List Char}
      (hgap : IsGap gap) (hkey : Inside key) (hgap' : IsGap gap') (hgap'' : IsGap gap'')
      (h : Spells (.value v) cs) (hs : Spells (.moreMembers ms) ds) :
      Spells (.members ((key.map some, v) :: ms))
        (gap ++ '"' :: (key ++ '"' :: (gap' ++ ':' :: (gap'' ++ (cs ++ ds)))))
  | endMembers {gap : List Char} (hgap : IsGap gap) : Spells (.moreMembers []) (gap ++ ['}'])
  | nextMember {ms : List (Received × Raw)} {gap cs : List Char} (hgap : IsGap gap) (hne : ms ≠ [])
      (h : Spells (.members ms) cs) : Spells (.moreMembers ms) (gap ++ ',' :: cs)

/-! ## Integers -/

/-- An integer as written: its digits, behind a minus sign if it is below zero. -/
def Numeral.ofInt (n : Int) : Numeral := ⟨n < 0, Nat.toDigits 10 n.natAbs, none, none⟩

theorem Numeral.spells_ofInt (n : Int) : (Numeral.ofInt n).Spells (toString n).toList where
  whole := ⟨Nat.toDigits_ne_nil, fun _ hd => Nat.isDigit_of_mem_toDigits (by decide) (by decide) hd⟩
  zero := by
    intro hhead
    rcases Nat.eq_zero_or_pos n.natAbs with h | h
    · simp [ofInt, h]
    · exact absurd hhead (Number.head?_toDigits h)
  parts := by
    refine ⟨[], [], .none, .none, ?_⟩
    have hdigits (n : Nat) : (Nat.repr n).toList = Nat.toDigits 10 n := by simp [Nat.repr]
    cases n with
    | ofNat n => simp [ofInt, toString, Int.repr, hdigits]
    | negSucc n => simp [ofInt, Int.negSucc_lt_zero, toString, Int.repr, hdigits]

/-- An integer is read where it fits in 64 bits with a sign, and no other number is. -/
theorem Numeral.int64?_ofInt (n : Int) :
    (Numeral.ofInt n).int64? =
      if -0x8000000000000000 ≤ n ∧ n < 0x8000000000000000 then some n else none := by
  obtain ⟨w, hw⟩ : ∃ w, n.natAbs = w := ⟨_, rfl⟩
  have hvalue : digitsValue (Nat.toDigits 10 w) = w := Number.digitsValue_toDigits w
  have hsize : UInt64.size = 0x10000000000000000 := rfl
  by_cases hsign : n < 0
  · by_cases hfits : w ≤ 0x8000000000000000
    · have hpos : 0 < w := by omega
      have hback : -(w : Int) = n := by omega
      simp [int64?, value?, ofInt, hw, hvalue, hsign, hfits, hpos, hback]
    · have hout : ¬ (-0x8000000000000000 ≤ n ∧ n < 0x8000000000000000) := by omega
      rw [if_neg hout]
      simp [int64?, value?, ofInt, hw, hvalue, hsign, hfits]
  · by_cases hfits : w < UInt64.size
    · have hback : (w : Int) = n := by omega
      simp [int64?, value?, ofInt, hw, hvalue, hsign, hfits, hback]
    · have hout : ¬ (-0x8000000000000000 ≤ n ∧ n < 0x8000000000000000) := by omega
      rw [if_neg hout]
      simp [int64?, value?, ofInt, hw, hvalue, hsign, hfits]

/-- Only what is written as an integer is read as one. -/
theorem Numeral.eq_ofInt_of_int64? {n : Numeral} {cs : List Char} {value : Int} (hn : n.Spells cs)
    (h : n.int64? = some value) : n = ofInt value := by
  obtain ⟨negative, whole, fraction, exponent⟩ := n
  have hwhole : Nat.toDigits 10 (digitsValue whole) = whole :=
    Number.toDigits_digitsValue hn.whole.1 hn.whole.2 hn.zero
  have hvalue : Numeral.value? ⟨negative, whole, fraction, exponent⟩ = some (.int value) := by
    unfold int64? at h
    split at h
    · next v hv =>
      split at h
      · cases h
        exact hv
      · cases h
    · cases h
  unfold value? at hvalue
  split at hvalue
  · next hfraction hexponent =>
    simp only at hfraction hexponent
    subst hfraction hexponent
    simp only at hvalue
    split at hvalue
    · next hsign =>
      subst hsign
      split at hvalue
      · next hfits =>
        simp only [Bool.and_eq_true, decide_eq_true_eq] at hfits
        obtain rfl : -(digitsValue whole : Int) = value := by simpa using hvalue
        simp [ofInt, hwhole, hfits.1]
      · simp at hvalue
    · next hsign =>
      obtain rfl : negative = false := by simpa using hsign
      split at hvalue
      · obtain rfl : (digitsValue whole : Int) = value := by simpa using hvalue
        simp [ofInt, hwhole]
      · simp at hvalue
  · simp at hvalue

end SessionGuard.Json
