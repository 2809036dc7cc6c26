import SessionGuard.Proofs.Text.Octets
import SessionGuard.Url

/-!
# Segments of a path

A text that is put into a path is one segment, in which no sign of an address stands
(`not_mem_segment`).  It is read again without the tabs and line breaks it had (`decode_segment`), and an
email address is a segment more of any path (`push?_segment`).
-/

namespace SessionGuard.Url

/-- A text without tabs and line breaks. -/
def unbroken (s : String) : String :=
  String.ofList (s.toList.filter fun c => c ≠ '\t' && c ≠ '\n' && c ≠ '\r')

/-- A text as the segment of a path that it becomes. -/
def segment (s : String) : List Char := Text.Percent.encode (inSegment true) (unbroken s).toList

variable {s t : String}

theorem unbroken_eq_self_iff :
    unbroken s = s ↔ ∀ c ∈ s.toList, c ≠ '\t' ∧ c ≠ '\n' ∧ c ≠ '\r' := by
  rw [unbroken, ← String.toList_inj, String.toList_ofList, List.filter_eq_self]
  simp [and_assoc]

/-- No sign that ends a segment stands in one. -/
theorem not_mem_segment {c : Char} (hc : inSegment true c = true)
    (hne : c ≠ '%' ∧ ∀ n < 16, c ≠ Text.Percent.hexDigit n) : c ∉ segment s := by
  intro h
  rcases Text.Percent.mem_encode h with hpercent | ⟨n, hn, hdigit⟩ | ⟨-, -, hplain⟩
  · exact hne.1 hpercent
  · exact hne.2 n hn hdigit
  · rw [hc] at hplain
    cases hplain

/-- The text of a segment is read again, but for the tabs and line breaks. -/
theorem decode_segment (s : String) :
    Text.Percent.decode (segment s) = Text.Octets.ofString (unbroken s) := by
  have h := Text.Percent.decode_encode (show inSegment true '%' = true by decide)
    (unbroken s).toList []
  simpa [segment, Text.Percent.decode, Text.Octets.ofString_eq_flatMap] using h

theorem segment_inj : segment s = segment t ↔ unbroken s = unbroken t := by
  constructor
  · intro h
    have hbytes := congrArg Text.Percent.decode h
    rwa [decode_segment, decode_segment, Text.Octets.ofString_inj] at hbytes
  · intro h
    rw [segment, segment, h]

/-- The sign that an email address has is kept, so that its segment stands for no directory. -/
theorem at_mem_segment (h : '@' ∈ s.toList) : '@' ∈ segment s := by
  refine Text.Percent.mem_encode_of_plain ?_ (by decide) (by decide)
  rw [unbroken, String.toList_ofList]
  exact List.mem_filter.2 ⟨h, by decide⟩

theorem not_isDot_of_mem {cs : List Char} (h : '@' ∈ cs) :
    isDoubleDot cs = false ∧ isSingleDot cs = false := by
  have hlower : '@' ∈ cs.map Char.toLower := List.mem_map.2 ⟨'@', h, by decide⟩
  have hnone {dots : List String} (hdots : ∀ t ∈ dots, '@' ∉ t.toList) :
      dots.contains (String.ofList (cs.map Char.toLower)) = false := by
    rw [List.contains_eq_mem, decide_eq_false_iff_not]
    exact fun hmem => hdots _ hmem (by simpa using hlower)
  exact ⟨hnone (by decide), hnone (by decide)⟩

/-- An email address is one segment more. -/
theorem push?_segment {u : Url} {path : List String} (h : '@' ∈ s.toList)
    (hpath : u.path = .segments path) (hne : path ≠ [""]) (hspecial : isSpecial u.scheme = true) :
    u.push? s = some { u with path := .segments (path ++ [String.ofList (segment s)]) } := by
  obtain ⟨hdouble, hsingle⟩ := not_isDot_of_mem (at_mem_segment h)
  have hdots : s ≠ "." ∧ s ≠ ".." := by
    refine ⟨?_, ?_⟩ <;> rintro rfl <;> exact absurd h (by decide)
  have hwritten : Text.Percent.encode (inSegment true)
      (s.toList.filter fun c => c ≠ '\t' && c ≠ '\n' && c ≠ '\r') = segment s := by
    rw [segment, unbroken, String.toList_ofList]
  simp only [push?, hpath, hspecial, Path.push?, hdots.1, hdots.2, or_self, if_false, hne,
    hwritten, append, hdouble, hsingle, Bool.false_eq_true, Option.map_some]

end SessionGuard.Url
