import SessionGuard.Proofs.Store.Written

/-!
# Tokens that cannot be stored

A store in a file answers what its file says, if the user may read it (`get?_eq_some_iff`).  A token
that cannot be stored leaves all files as they were, and then the answer too, or it leaves the file
that had been opened with a part of its text (`missed_of_set`).
-/

namespace SessionGuard.Store

open SessionFile (Entries tokenKey)

variable {disk disk' left : Disk} {path : String} {token : Token}

/-! ## What a store in a file answers -/

/-- A store answers the same where its path shows the same. -/
theorem get?_of_spares (h : disk.Spares disk' path) :
    (file path disk').get? = (file path disk).get? := by
  have hentries : entries? disk' path = entries? disk path := by
    unfold entries?
    rw [h.pathExists]
    split
    · next hp => rw [h.readText hp]
    · rfl
  simp only [get?, hentries]

/-- Entries are those of a file that is there, or there are none because it is missing. -/
theorem entries?_eq_some {entries : Entries} (h : entries? disk path = some entries) :
    entries = [] ∧ disk.pathExists path = false ∨ ∃ text mode,
      disk.entry path = .ok (.file text.toUTF8 mode) ∧ disk.system.mayRead mode = true ∧
        SessionFile.decode? text = some entries := by
  unfold entries? at h
  split at h
  · split at h
    · next text hread =>
      obtain ⟨mode, hentry, hmay⟩ := Disk.readText_eq_ok_iff.1 hread
      exact .inr ⟨text, mode, hentry, hmay, h⟩
    · cases h
  · next hp =>
    cases h
    exact .inl ⟨rfl, by simpa using hp⟩

/-- The token among entries is a text that is not empty. -/
theorem tokenOf?_eq_some_iff {entries : Entries} :
    tokenOf? entries = some token ↔
      Sorted.get? tokenKey entries = some (.string token.text) ∧ token.text ≠ "" := by
  unfold tokenOf?
  split
  · next text ht =>
    rw [ht]
    by_cases he : text = ""
    · subst he
      simp
    · simp only [String.isEmpty_iff, he, if_false, Option.some.injEq, Yaml.Value.string.injEq]
      constructor
      · rintro rfl
        exact ⟨rfl, he⟩
      · rintro ⟨rfl, -⟩
        rfl
  · next ht =>
    constructor
    · nofun
    · rintro ⟨h, -⟩
      exact absurd h (ht _)

/-- A store holds a token exactly if the file at its path is a session file with one, and the user may
read it. -/
theorem get?_eq_some_iff :
    (file path disk).get? = some token ↔
      ∃ text mode entries, disk.entry path = .ok (.file text.toUTF8 mode) ∧
        disk.system.mayRead mode = true ∧ SessionFile.decode? text = some entries ∧
        Sorted.get? tokenKey entries = some (.string token.text) ∧ token.text ≠ "" := by
  constructor
  · intro h
    obtain ⟨entries, he, ht⟩ := Option.bind_eq_some_iff.1 h
    have hget := tokenOf?_eq_some_iff.1 ht
    rcases entries?_eq_some he with ⟨rfl, -⟩ | ⟨text, mode, hentry, hmay, hdecode⟩
    · cases hget.1
    · exact ⟨text, mode, entries, hentry, hmay, hdecode, hget⟩
  · rintro ⟨text, mode, entries, hentry, hmay, hdecode, hget⟩
    simp only [get?, entries?_of_entry hentry hmay, hdecode, Option.bind_some]
    exact tokenOf?_eq_some_iff.2 hget

/-- Where no other file is shown, the answer is the same. -/
theorem get?_of_file_iff (hs : disk.system = disk'.system)
    (h : ∀ content mode, disk'.entry path = .ok (.file content mode) ↔
      disk.entry path = .ok (.file content mode)) :
    (file path disk').get? = (file path disk).get? := by
  refine Option.ext fun token => ?_
  simp only [get?_eq_some_iff, h, hs]

/-! ## What is left of a store -/

/-- What a token that cannot be stored leaves of a store: directories at most have been made, or its
file has been opened and is left with a part of its text.  A path that goes up behind a directory that
is made may come to lead to a file; otherwise no directory changes the answer. -/
inductive Missed (token : Token) : Store → Store → Prop
  | untouched {path : String} {disk left : Disk} (hg : disk.Gains left)
      (hget : (".." ∈ Disk.steps path → ∃ t, disk.locate path = .ok t) →
        (file path left).get? = (file path disk).get?) :
      Missed token (file path disk) (file path left)
  | spoilt {path text : String} {disk made left : Disk} (hp : disk.makeParents path = .ok made)
      (he : SessionFile.encode (Sorted.insert tokenKey (.string token.text)
        ((entries? disk path).getD [])) = .ok text)
      (hs : made.Spoils path text left) : Missed token (file path disk) (file path left)

theorem missed_of_gains (hg : disk.Gains left) : Missed token (file path disk) (file path left) :=
  .untouched hg fun hway => get?_of_file_iff hg.kept.system fun _ _ => Disk.entry_of_gains hg hway

theorem missed_of_set {s : Store} {failed : Failed StoreError Store}
    (h : s.set token = .error failed) : Missed token s failed.left := by
  obtain ⟨path, disk, left, rfl, hset, hleft⟩ := set_eq_error h
  rw [hleft]
  cases save_eq_error hset with
  | noWay => exact missed_of_gains (Disk.madeAbove_leftByParents disk path).gains
  | noText hp | shut hp => exact missed_of_gains (Disk.gains_makeParents hp)
  | spoils hp he hs => exact .spoilt hp he hs

/-- All files but the one at the path of the store are as they were. -/
theorem Missed.file_iff_of_ne {l : Location} {content : ByteArray} {mode : Mode}
    (h : Missed token (file path disk) (file path left)) (hl : l ≠ disk.destination path) :
    left.find? l = some (.file content mode) ↔ disk.find? l = some (.file content mode) := by
  cases h with
  | untouched hg => exact hg.file_iff
  | spoilt hp _ hs =>
    cases hs with
    | intro size ho => exact (Disk.Touches.put hp ho).file_iff_of_ne hl

end SessionGuard.Store
