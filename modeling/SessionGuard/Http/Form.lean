import SessionGuard.Text.Percent
import SessionGuard.Text.Trim

/-!
# Forms as text

The fields of a form, each a name and a value, stand between ampersands.  `Form.text` writes a
name or a value, in which a plus sign stands for a blank, and `Form.bytes` reads one.
-/

namespace SessionGuard.Http.Form

/-- Whether a character is written with percent signs; a blank is not. -/
def isEscaped (c : Char) : Bool :=
  !(c.isAlphanum || c = '*' || c = '-' || c = '.' || c = '_' || c = ' ')

/-- A name or a value as it is written. -/
def text (s : String) : List Char :=
  (Text.Percent.encode isEscaped s.toList).map fun c => if c = ' ' then '+' else c

/-- The fields of a form as text. -/
def encode (fields : List (String × String)) : List Char :=
  List.intercalate ['&'] (fields.map fun field => text field.1 ++ '=' :: text field.2)

/-- The bytes of a name or a value. -/
def bytes (cs : List Char) : List UInt8 :=
  Text.Percent.decode (cs.map fun c => if c = '+' then ' ' else c)

/-- The name and the value of a field, which the first equals sign separates. -/
def field (cs : List Char) : List UInt8 × List UInt8 :=
  (bytes (cs.takeWhile (· ≠ '=')), bytes ((cs.dropWhile (· ≠ '=')).drop 1))

/-- The fields of a text, in bytes. -/
def decode (cs : List Char) : List (List UInt8 × List UInt8) :=
  ((Text.splitAt '&' cs).filter fun part => !part.isEmpty).map field

/-- What is written is plain: neither a separator nor a blank. -/
theorem mem_text {s : String} {c : Char} (h : c ∈ text s) :
    c = '+' ∨ c = '%' ∨ (c ≠ ' ' ∧ isEscaped c = false) := by
  obtain ⟨d, hd, rfl⟩ := List.mem_map.1 h
  by_cases hb : d = ' '
  · simp [hb]
  · simp only [hb, if_false]
    rcases Text.Percent.mem_encode hd with hpercent | ⟨n, hn, rfl⟩ | ⟨-, -, hplain⟩
    · exact .inr (.inl hpercent)
    · have hdigit : ∀ n < 16, isEscaped (Text.Percent.hexDigit n) = false := by decide
      exact .inr (.inr ⟨hb, hdigit n hn⟩)
    · exact .inr (.inr ⟨hb, hplain⟩)

/-- A name or a value is read as it was written. -/
theorem bytes_text (s : String) : bytes (text s) = s.toList.flatMap String.utf8EncodeChar := by
  unfold bytes text
  have hback : ∀ cs : List Char, (∀ c ∈ cs, c ≠ '+') →
      (cs.map fun c => if c = ' ' then '+' else c).map (fun c => if c = '+' then ' ' else c) = cs := by
    intro cs hcs
    rw [List.map_map]
    conv => rhs; rw [← List.map_id cs]
    refine List.map_congr_left fun c hc => ?_
    by_cases hb : c = ' '
    · simp [hb]
    · simp [hb, hcs c hc]
  have hplus : ∀ c ∈ Text.Percent.encode isEscaped s.toList, c ≠ '+' := by
    intro c hc
    rcases Text.Percent.mem_encode hc with rfl | ⟨n, hn, rfl⟩ | ⟨-, -, hplain⟩
    · decide
    · have hdigit : ∀ n < 16, Text.Percent.hexDigit n ≠ '+' := by decide
      exact hdigit n hn
    · rintro rfl
      exact absurd hplain (by decide)
  rw [hback _ hplus]
  have := Text.Percent.decode_encode (show isEscaped '%' = true by decide) s.toList []
  simpa [Text.Percent.decode] using this

end SessionGuard.Http.Form
