import SessionGuard.Text.Octets

/-!
# A text is read from its bytes

The first byte of a character tells how many follow and bounds the next one, so that no two ways
of writing a character are read: each character is read from its own bytes (`readFrom_encode`), and
a text from its bytes (`read_ofString`, `text?_read_ofString`).
-/

namespace SessionGuard.Text.Octets

deriving instance DecidableEq for Partial

/-! ## First bytes -/

theorem start?_of_two : ∀ k < 32, 2 ≤ k →
    Partial.start? (k + 0xC0) = some ⟨k, 1, 0x80, 0xBF⟩ := by decide

theorem start?_of_three : ∀ k < 16, Partial.start? (k + 0xE0) =
    some ⟨k, 2, if k = 0 then 0xA0 else 0x80, if k = 0xD then 0x9F else 0xBF⟩ := by decide

theorem start?_of_four : ∀ k < 5, Partial.start? (k + 0xF0) =
    some ⟨k, 3, if k = 0 then 0x90 else 0x80, if k = 4 then 0x8F else 0xBF⟩ := by decide

/-! ## Characters -/

variable {rest : List UInt8}

theorem readFrom_start {b : Nat} {p : Partial} (hb : 0x80 ≤ b) (hlt : b < 256)
    (h : Partial.start? b = some p) :
    readFrom none (UInt8.ofNat b :: rest) = readFrom (some p) rest := by
  have hnat : (UInt8.ofNat b).toNat = b := by simp [Nat.mod_eq_of_lt hlt]
  rw [readFrom, hnat, if_neg (by omega), h]

/-- A byte that belongs to a character adds its six bits. -/
theorem readFrom_next {p : Partial} {k : Nat} (hk : k < 64) (howed : 1 < p.owed)
    (hlow : p.low ≤ k + 0x80) (hhigh : k + 0x80 ≤ p.high) :
    readFrom (some p) (UInt8.ofNat (k + 0x80) :: rest) =
      readFrom (some ⟨p.bits * 64 + k, p.owed - 1, 0x80, 0xBF⟩) rest := by
  have hnat : (UInt8.ofNat (k + 0x80)).toNat = k + 0x80 := by simp; omega
  rw [readFrom, hnat, if_pos (by simp [hlow, hhigh]), if_neg (by omega), Nat.add_sub_cancel]

theorem readFrom_last {p : Partial} {k : Nat} (hk : k < 64) (howed : p.owed = 1)
    (hlow : p.low ≤ k + 0x80) (hhigh : k + 0x80 ≤ p.high) :
    readFrom (some p) (UInt8.ofNat (k + 0x80) :: rest) =
      some (Char.ofNat (p.bits * 64 + k)) :: readFrom none rest := by
  have hnat : (UInt8.ofNat (k + 0x80)).toNat = k + 0x80 := by simp; omega
  rw [readFrom, hnat, if_pos (by simp [hlow, hhigh]), if_pos (by omega), Nat.add_sub_cancel]

/-- A character is read from its bytes. -/
theorem readFrom_encode (c : Char) (rest : List UInt8) :
    readFrom none (String.utf8EncodeChar c ++ rest) = some c :: readFrom none rest := by
  have hvalid : c.val.toNat < 0xD800 ∨ 0xDFFF < c.val.toNat ∧ c.val.toNat < 0x110000 := c.valid
  have hchar : Char.ofNat c.val.toNat = c := Char.ofNat_toNat c
  unfold String.utf8EncodeChar
  generalize c.val.toNat = v at hvalid hchar ⊢
  have hback {n : Nat} (h : n = v) : Char.ofNat n = c := by rw [h, hchar]
  by_cases h1 : v ≤ 127
  · have hnat : (UInt8.ofNat v).toNat = v := by simp; omega
    simp only [h1, if_true, List.cons_append, List.nil_append]
    rw [readFrom, hnat, if_pos (by omega), hchar]
  by_cases h2 : v ≤ 2047
  · simp only [h1, h2, if_true, if_false, List.cons_append, List.nil_append]
    rw [readFrom_start (by omega) (by omega) (start?_of_two (v / 64 % 32) (by omega) (by omega)),
      readFrom_last (by omega) rfl (by simp) (by simp; omega), hback (by simp; omega)]
  by_cases h3 : v ≤ 65535
  · have hlow : (if v / 4096 % 16 = 0 then 0xA0 else 0x80) ≤ v / 64 % 64 + 0x80 := by
      split <;> omega
    have hhigh : v / 64 % 64 + 0x80 ≤ if v / 4096 % 16 = 0xD then 0x9F else 0xBF := by
      split <;> omega
    simp only [h1, h2, h3, if_true, if_false, List.cons_append, List.nil_append]
    rw [readFrom_start (by omega) (by omega) (start?_of_three (v / 4096 % 16) (by omega)),
      readFrom_next (by omega) (by simp) hlow hhigh,
      readFrom_last (by omega) rfl (by simp) (by simp; omega), hback (by simp; omega)]
  · have hlow : (if v / 262144 % 8 = 0 then 0x90 else 0x80) ≤ v / 4096 % 64 + 0x80 := by
      split <;> omega
    have hhigh : v / 4096 % 64 + 0x80 ≤ if v / 262144 % 8 = 4 then 0x8F else 0xBF := by
      split <;> omega
    simp only [h1, h2, h3, if_false, List.cons_append, List.nil_append]
    rw [readFrom_start (by omega) (by omega) (start?_of_four (v / 262144 % 8) (by omega)),
      readFrom_next (by omega) (by simp) hlow hhigh,
      readFrom_next (by omega) (by simp) (by simp) (by simp; omega),
      readFrom_last (by omega) rfl (by simp) (by simp; omega), hback (by simp; omega)]

/-- The bytes of a text are those of its characters. -/
theorem ofString_eq_flatMap (s : String) : ofString s = s.toList.flatMap String.utf8EncodeChar := by
  rw [ofString, String.toUTF8_eq_toByteArray, ← String.utf8Encode_toList, List.utf8Encode,
    List.data_toByteArray]

theorem read_ofString (s : String) : read (ofString s) = Received.ofString s := by
  rw [ofString_eq_flatMap, read, Received.ofString]
  induction s.toList with
  | nil => rfl
  | cons c cs ih => rw [List.flatMap_cons, readFrom_encode, ih, List.map_cons]

/-- A text is the text of its bytes. -/
theorem text?_read_ofString (s : String) : (read (ofString s)).text? = some s := by
  rw [read_ofString, Received.text?, Received.ofString, List.mapM_map]
  have hid : (id ∘ some : Char → Option Char) = fun c => pure c := rfl
  rw [hid, List.mapM_pure, List.map_id']
  simp

/-- Two texts with the same bytes are the same. -/
theorem ofString_inj {s t : String} : ofString s = ofString t ↔ s = t := by
  refine ⟨fun h => ?_, fun h => h ▸ rfl⟩
  have htext := congrArg (fun bytes => (read bytes).text?) h
  simpa [text?_read_ofString] using htext

end SessionGuard.Text.Octets
