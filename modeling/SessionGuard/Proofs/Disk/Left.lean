import SessionGuard.Proofs.Disk.Written

/-!
# What a save that fails leaves

A file that was opened and could not be finished holds a part of the text (`Spoils.entry`).
Directories alone show no file at a path that shows none, unless the path goes up behind one of them
(`entry_of_gains`).
-/

namespace SessionGuard.Disk

open SessionGuard.Path (parent?)

variable {d d' d₁ : Disk} {l : Location} {path text : String} {content : ByteArray} {mode : Mode}
  {left : Disk}

/-! ## Spoilt files -/

namespace Spoils

/-- A spoilt file is there, with a part of the text. -/
theorem entry (h : d.Spoils path text left) :
    ∃ size mode, left.entry path = .ok (.file (text.toUTF8.extract 0 size) mode) := by
  obtain ⟨size, ho, -, -⟩ := h
  exact ⟨size, _, ho.entry_put⟩

end Spoils

/-! ## Files that come to be shown -/

/-- A path that goes up nowhere led to a file that is there still. -/
theorem locate_of_gains (hg : d.Gains d') (hs : ".." ∉ steps path)
    (ht : d'.locate path = .ok ⟨l, false⟩) (hf : d.find? l = some (.file content mode)) :
    d.locate path = .ok ⟨l, false⟩ := by
  obtain ⟨hp, -, init, last, l₁, hsteps, hdot, hdots, hslash, hl₁, rfl⟩ := locate_eq_name_iff.1 ht
  have hinit : ".." ∉ init := fun h => hs (by rw [hsteps]; simp [h])
  rw [start_congr hg.kept.current] at hl₁
  have hloc := eq_foldl_follow hl₁
  have hdir : d.find? l₁ = some .directory := by simpa using find?_dropLast hf
  obtain ⟨m, hm⟩ := exists_foldl_follow hinit (d.start path)
  refine locate_eq_name_iff.2 ⟨hp, find?_of_append (m := m) ?_, init, last, l₁, hsteps, hdot, hdots,
    hslash, ?_, rfl⟩
  · rw [← hm, ← hloc, hdir]
  · rw [hloc] at hdir ⊢
    exact foldlM_of_find? hinit hdir

/-- Directories that are made show no file at a path, unless it goes up behind one of them. -/
theorem entry_of_gains (hg : d.Gains d') (hway : ".." ∈ steps path → ∃ t, d.locate path = .ok t) :
    d'.entry path = .ok (.file content mode) ↔ d.entry path = .ok (.file content mode) := by
  refine ⟨fun h => ?_, entry_of_extends hg.kept⟩
  obtain ⟨l, ht, hf⟩ := entry_eq_file_iff.1 h
  rw [hg.file_iff] at hf
  refine entry_eq_file_iff.2 ⟨l, ?_, hf⟩
  by_cases hs : ".." ∈ steps path
  · obtain ⟨t, ht'⟩ := hway hs
    cases (locate_of_within hg.kept.within ht').symm.trans ht
    exact ht'
  · exact locate_of_gains hg hs ht hf

/-- Where directories alone have been made, a file is shown at the path only if it may not be
written, or if it was shown before. -/
theorem Stops.entry (h : d.Stops path left) (he : left.entry path = .ok (.file content mode)) :
    d.entry path = .ok (.file content mode) ∨ d.system.mayWrite mode = false := by
  obtain ⟨l, ht, hf⟩ := entry_eq_file_iff.1 he
  cases h with
  | noWay hp => exact absurd ht (locate_leftByParents hp _)
  | shut hp hno =>
    rw [(gains_makeParents hp).kept.system]
    exact .inr (by simpa using fun hw => hno _ _ (.there ht hf hw))

end SessionGuard.Disk
