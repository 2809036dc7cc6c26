import SessionGuard.Http.Form
import SessionGuard.Proofs.Text.Octets
import SessionGuard.Proofs.Text.Pieces

/-!
# A form is read as it was written

Neither the sign between fields nor the one inside a field stands in a name or a value as written, so
the fields of a form are found again (`decode_encode`), and with them their texts (`read?_encode`).
-/

namespace SessionGuard.Http.Form

/-- A separator does not stand in a name or a value. -/
theorem not_mem_text {c : Char} (hc : isEscaped c = true) (hne : c ≠ '+' ∧ c ≠ '%') (s : String) :
    c ∉ text s := by
  intro h
  rcases mem_text h with h | h | ⟨-, h⟩
  · exact hne.1 h
  · exact hne.2 h
  · rw [hc] at h
    cases h

/-- A field is divided where its name ends. -/
theorem field_text (f : String × String) : field (text f.1 ++ '=' :: text f.2) =
    (Text.Octets.ofString f.1, Text.Octets.ofString f.2) := by
  have hname : ∀ c ∈ text f.1, decide (c ≠ '=') = true := by
    rintro c hc
    exact decide_eq_true fun h => not_mem_text (by decide) (by decide) f.1 (h ▸ hc)
  rw [field, List.takeWhile_append_of_pos hname, List.dropWhile_append_of_pos hname]
  simp [bytes_text, Text.Octets.ofString_eq_flatMap]

/-- The fields of a form are read in bytes as they were written. -/
theorem decode_encode (fields : List (String × String)) :
    decode (encode fields) =
      fields.map fun f => (Text.Octets.ofString f.1, Text.Octets.ofString f.2) := by
  rcases fields.eq_nil_or_concat with rfl | ⟨init, last, h⟩
  · rfl
  have hne : fields ≠ [] := by simp [h]
  let part (f : String × String) : List Char := text f.1 ++ '=' :: text f.2
  have hparts : ∀ p ∈ fields.map part, '&' ∉ p := by
    intro p hp
    obtain ⟨f, -, rfl⟩ := List.mem_map.1 hp
    have hname := not_mem_text (c := '&') (by decide) (by decide)
    simp [part, hname]
  have hfull : (fields.map part).filter (fun p => !p.isEmpty) = fields.map part := by
    refine List.filter_eq_self.2 fun p hp => ?_
    obtain ⟨f, -, rfl⟩ := List.mem_map.1 hp
    simp [part]
  rw [decode, encode, Text.splitAt_intercalate (by simpa using hne) hparts, hfull, List.map_map]
  exact List.map_congr_left fun f _ => field_text f

/-- The fields of a form as texts, if all bytes belong to characters. -/
def read? (cs : List Char) : Option (List (String × String)) :=
  (decode cs).mapM fun f => do
    some (← (Text.Octets.read f.1).text?, ← (Text.Octets.read f.2).text?)

/-- The fields of a form are read as they were written: no text changes, adds or hides another. -/
theorem read?_encode (fields : List (String × String)) : read? (encode fields) = some fields := by
  rw [read?, decode_encode, List.mapM_map]
  have hfields : ((fun f => do
      some (← (Text.Octets.read f.1).text?, ← (Text.Octets.read f.2).text?)) ∘
      fun f : String × String => (Text.Octets.ofString f.1, Text.Octets.ofString f.2)) =
      fun f => pure f := by
    funext f
    simp [Text.Octets.text?_read_ofString]
  rw [hfields, List.mapM_pure, List.map_id']
  rfl

end SessionGuard.Http.Form
