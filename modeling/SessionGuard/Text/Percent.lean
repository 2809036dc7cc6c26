import SessionGuard.Text.Octets

/-!
# Percent signs in addresses

A character that may not stand in a part of an address is written as the bytes of its UTF-8 form,
each as a percent sign and two digits.  Where the percent sign itself is written so, reading gives
back the bytes of the text.
-/

namespace SessionGuard.Text.Percent

/-- The digit of a number below 16. -/
def hexDigit (n : Nat) : Char := if n < 10 then Char.ofNat (48 + n) else Char.ofNat (55 + n)

/-- The number of a digit. -/
def hexValue? (c : Char) : Option Nat :=
  if '0' ≤ c && c ≤ '9' then some (c.toNat - 48)
  else if 'A' ≤ c && c ≤ 'F' then some (c.toNat - 55)
  else if 'a' ≤ c && c ≤ 'f' then some (c.toNat - 87)
  else none

theorem hexValue?_hexDigit : ∀ n < 16, hexValue? (hexDigit n) = some n := by decide

/-- Everything but the printable characters of ASCII. -/
def isControl (c : Char) : Bool := c.toNat < 0x20 || 0x7F ≤ c.toNat

/-- A byte as a percent sign and two digits. -/
def encodeByte (b : UInt8) : List Char := ['%', hexDigit (b.toNat / 16), hexDigit (b.toNat % 16)]

/-- A text with the characters of a class written with percent signs. -/
def encode (escaped : Char → Bool) (cs : List Char) : List Char :=
  cs.flatMap fun c =>
    if isControl c || escaped c then (String.utf8EncodeChar c).flatMap encodeByte else [c]

theorem mem_encodeByte {b : UInt8} {c : Char} (h : c ∈ encodeByte b) :
    c = '%' ∨ ∃ n < 16, c = hexDigit n := by
  have hb := UInt8.toNat_lt_size b
  have hs : UInt8.size = 256 := rfl
  simp only [encodeByte, List.mem_cons, List.not_mem_nil, or_false] at h
  rcases h with rfl | rfl | rfl
  · exact .inl rfl
  · exact .inr ⟨_, by omega, rfl⟩
  · exact .inr ⟨_, by omega, rfl⟩

/-- What is written is percent signs, digits and such characters of the text as may stand there. -/
theorem mem_encode {escaped : Char → Bool} {cs : List Char} {c : Char} (h : c ∈ encode escaped cs) :
    c = '%' ∨ (∃ n < 16, c = hexDigit n) ∨ (c ∈ cs ∧ isControl c = false ∧ escaped c = false) := by
  obtain ⟨d, hd, hc⟩ := List.mem_flatMap.1 h
  split at hc
  · obtain ⟨b, -, hc⟩ := List.mem_flatMap.1 hc
    exact (mem_encodeByte hc).imp_right .inl
  · next hplain =>
    obtain rfl := List.mem_singleton.1 hc
    simp only [Bool.or_eq_true, not_or, Bool.not_eq_true] at hplain
    exact .inr (.inr ⟨hd, hplain⟩)

theorem mem_encode_of_plain {escaped : Char → Bool} {cs : List Char} {c : Char} (h : c ∈ cs)
    (hcontrol : isControl c = false) (hplain : escaped c = false) : c ∈ encode escaped cs :=
  List.mem_flatMap.2 ⟨c, h, by simp [hcontrol, hplain]⟩

/-- The bytes of a text; a percent sign that no two digits follow stands for itself. -/
def decode : List Char → List UInt8
  | [] => []
  | '%' :: a :: b :: rest =>
    match hexValue? a, hexValue? b with
    | some m, some n => UInt8.ofNat (16 * m + n) :: decode rest
    | _, _ => 37 :: decode (a :: b :: rest)
  | c :: rest => String.utf8EncodeChar c ++ decode rest

theorem decode_cons_of_ne {c : Char} (h : c ≠ '%') (rest : List Char) :
    decode (c :: rest) = String.utf8EncodeChar c ++ decode rest := by
  rw [decode.eq_def]
  split
  · rename_i heq; cases heq
  · rename_i heq; cases heq; exact absurd rfl h
  · rename_i heq; cases heq; rfl

theorem decode_encodeByte (b : UInt8) (rest : List Char) :
    decode (encodeByte b ++ rest) = b :: decode rest := by
  have hb := UInt8.toNat_lt_size b
  have hs : UInt8.size = 256 := rfl
  have hh := hexValue?_hexDigit (b.toNat / 16) (by omega)
  have hl := hexValue?_hexDigit (b.toNat % 16) (by omega)
  have hn : 16 * (b.toNat / 16) + b.toNat % 16 = b.toNat := by omega
  simp [encodeByte, decode, hh, hl, hn]

theorem decode_flatMap_encodeByte (bs : List UInt8) (rest : List Char) :
    decode (bs.flatMap encodeByte ++ rest) = bs ++ decode rest := by
  induction bs with
  | nil => rfl
  | cons b bs ih => simp [List.append_assoc, decode_encodeByte, ih]

/-- Reading gives back the bytes, if the percent sign is in the class. -/
theorem decode_encode {escaped : Char → Bool} (h : escaped '%' = true) (cs rest : List Char) :
    decode (encode escaped cs ++ rest) = cs.flatMap String.utf8EncodeChar ++ decode rest := by
  induction cs with
  | nil => rfl
  | cons c cs ih =>
    unfold encode at ih ⊢
    rw [List.flatMap_cons, List.flatMap_cons, List.append_assoc, List.append_assoc]
    split
    · rw [decode_flatMap_encodeByte, ih]
    · next hc =>
      have hne : c ≠ '%' := by
        intro heq
        subst heq
        simp [h] at hc
      rw [List.singleton_append, decode_cons_of_ne hne, ih]

end SessionGuard.Text.Percent
