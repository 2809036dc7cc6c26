import SessionGuard.Proofs.Disk.Frame
import SessionGuard.Store

/-!
# What is written is read again

A session file that has been written holds its text, and the user may read it.  So a store reads again
what it has written, where the text of the entries stands for them (`Store.Keeps`): only then does a
token last, or go, for certain.
-/

namespace SessionGuard

namespace Store

open SessionFile (Entries tokenKey)

/-! ## Entries that have been saved -/

variable {disk disk' : Disk} {path : String} {entries : Entries}

theorem save_eq_ok_iff :
    save disk path entries = .ok disk' ↔
      ∃ text, SessionFile.encode entries = .ok text ∧ disk.save .before path text = .ok disk' := by
  unfold save Disk.save
  cases disk.makeParents path with
  | error e => simp
  | ok disk =>
    cases SessionFile.encode entries with
    | error reason => simp
    | ok text => cases h : disk.writeText .before path text <;> simp [h]

/-- What a save of entries that fails leaves: some of the directories, all of them where the entries
cannot be encoded or no file can be opened, or a spoilt file. -/
inductive Fails (disk : Disk) (path : String) (entries : Entries) : Disk → Prop
  | noWay {cause : FileError} (hp : disk.makeParents path = .error cause) :
      Fails disk path entries (disk.leftByParents path)
  | noText {made : Disk} {reason : String} (hp : disk.makeParents path = .ok made)
      (he : SessionFile.encode entries = .error reason) : Fails disk path entries made
  | shut {made : Disk} {text : String} (hp : disk.makeParents path = .ok made)
      (he : SessionFile.encode entries = .ok text) (hno : ∀ l mode?, ¬ made.Opens path l mode?) :
      Fails disk path entries made
  | spoils {made left : Disk} {text : String} (hp : disk.makeParents path = .ok made)
      (he : SessionFile.encode entries = .ok text) (hs : made.Spoils path text left) :
      Fails disk path entries left

theorem save_eq_error {failed : Failed StoreError Disk}
    (h : save disk path entries = .error failed) : Fails disk path entries failed.left := by
  unfold save at h
  cases hp : disk.makeParents path with
  | error e =>
    rw [hp] at h
    cases h
    exact .noWay hp
  | ok made =>
    rw [hp] at h
    cases he : SessionFile.encode entries with
    | error reason =>
      rw [he] at h
      cases h
      exact .noText hp he
    | ok text =>
      rw [he] at h
      simp only at h
      cases hw : made.writeText .before path text with
      | ok d => rw [hw] at h; cases h
      | error e =>
        rw [hw] at h
        cases h
        rcases Disk.writeText_eq_error hw with ⟨hleft, hno⟩ | ⟨hspoils, -⟩
        · rw [hleft]
          exact .shut hp he hno
        · exact .spoils hp he hspoils

theorem Fails.touches {left : Disk} (h : Fails disk path entries left) : disk.Touches path left := by
  cases h with
  | noWay hp => exact .noWay hp
  | noText hp | shut hp => exact .made hp
  | spoils hp _ hs => exact hs.touches hp

/-- Where open files are finished, a save that fails has made directories at most. -/
theorem Fails.gains_of_whole {left : Disk} (h : Fails disk path entries left)
    (hwhole : disk.Whole path) : disk.Gains left := by
  cases h with
  | noWay => exact (Disk.madeAbove_leftByParents disk path).gains
  | noText hp | shut hp => exact Disk.gains_makeParents hp
  | spoils hp _ hs => exact absurd hs (hwhole.not_spoils (Disk.gains_makeParents hp))

theorem touches_save (h : save disk path entries = .ok disk') : disk.Touches path disk' := by
  obtain ⟨text, -, hs⟩ := save_eq_ok_iff.1 h
  exact Disk.touches_save hs

theorem eq_render_of_encode {text : String} (h : SessionFile.encode entries = .ok text) :
    text = Yaml.render entries := by
  unfold SessionFile.encode at h
  split at h <;> cases h
  rfl

/-- The entries of a file are those of its text. -/
theorem entries?_of_entry {text : String} {mode : Mode}
    (h : disk.entry path = .ok (.file text.toUTF8 mode)) (hr : disk.system.mayRead mode = true) :
    entries? disk path = SessionFile.decode? text := by
  simp only [entries?, Disk.pathExists_of_entry h, if_true,
    Disk.readText_eq_ok_iff.2 ⟨mode, h, hr⟩]

/-- A file that has been saved holds its text, for its owner only. -/
theorem entry_save (h : save disk path entries = .ok disk') :
    disk'.entry path = .ok (.file (Yaml.render entries).toUTF8 .ownerOnly) := by
  obtain ⟨text, he, hs⟩ := save_eq_ok_iff.1 h
  rw [Disk.entry_save hs, eq_render_of_encode he]

/-- What has been saved is read as its text is. -/
theorem entries?_save (h : save disk path entries = .ok disk') :
    entries? disk' path = SessionFile.decode? (Yaml.render entries) :=
  entries?_of_entry (entry_save h) (by simp)

/-- Entries can be saved in a file and are read from it again. -/
def Keeps (disk : Disk) (path : String) (entries : Entries) : Prop :=
  ∃ disk', save disk path entries = .ok disk' ∧ entries? disk' path = some entries

theorem decode?_render_nil : SessionFile.decode? (Yaml.render []) = some [] := rfl

/-- No entries are read where none have been saved. -/
theorem entries?_save_nil (h : save disk path [] = .ok disk') : entries? disk' path = some [] :=
  (entries?_save h).trans decode?_render_nil

theorem keeps_nil (h : (save disk path []).isOk = true) : Keeps disk path [] := by
  cases hs : save disk path [] with
  | error e => rw [hs] at h; cases h
  | ok disk' => exact ⟨disk', hs, entries?_save_nil hs⟩

theorem tokenOf?_of_get?_eq_none (h : Sorted.get? tokenKey entries = none) :
    tokenOf? entries = none := by
  simp only [tokenOf?, h]

/-- A file that cannot be read is there. -/
theorem exists_locate_of_entries?_eq_none (he : entries? disk path = none) :
    ∃ t, disk.locate path = .ok t := by
  have hp : disk.pathExists path = true := by
    unfold entries? at he
    split at he
    · assumption
    · cases he
  unfold Disk.pathExists at hp
  cases hf : disk.entry path with
  | error e => rw [hf] at hp; cases hp
  | ok e =>
    obtain ⟨t, ht, -⟩ := Disk.entry_eq_ok_iff.1 hf
    exact ⟨t, ht⟩

/-- So are the directories that lead to it. -/
theorem makeParents_of_entries?_eq_none (he : entries? disk path = none) :
    disk.makeParents path = .ok disk := by
  obtain ⟨t, ht⟩ := exists_locate_of_entries?_eq_none he
  exact Disk.makeParents_of_locate ht

/-- A part of the text for no entries stands for none, or for nothing. -/
theorem decode?_part_of_render_nil {text : String} {size : Nat}
    (h : (Yaml.render []).toUTF8.extract 0 size = text.toUTF8) :
    SessionFile.decode? text = none ∨ SessionFile.decode? text = some [] := by
  have htext (part : String) (hpart : (Yaml.render []).toUTF8.extract 0 size = part.toUTF8) :
      text = part := String.toByteArray_inj.1 (h.symm.trans hpart)
  obtain rfl | rfl | rfl | hmore : size = 0 ∨ size = 1 ∨ size = 2 ∨ 3 ≤ size := by omega
  · rw [htext "" (by decide)]
    exact .inr rfl
  · rw [htext "\x7b" (by decide)]
    exact .inl (by decide)
  · rw [htext "\x7b\x7d" (by decide)]
    exact .inr (by decide)
  · have hall : max size (Yaml.render []).toUTF8.size = size := Nat.max_eq_left hmore
    rw [htext (Yaml.render []) (by rw [← hall, ByteArray.extract_zero_max_size])]
    exact .inr decode?_render_nil

/-- A file that cannot be read and cannot be emptied holds no entries. -/
theorem entries?_of_fails_nil {left : Disk} (he : entries? disk path = none)
    (h : Fails disk path [] left) : entries? left path = none ∨ entries? left path = some [] := by
  have hparents := makeParents_of_entries?_eq_none he
  cases h with
  | noWay hp => cases hparents.symm.trans hp
  | noText hp | shut hp => cases hparents.symm.trans hp; exact .inl he
  | spoils hp htext hs =>
    cases htext
    obtain ⟨size, mode, hentry⟩ := hs.entry
    unfold entries?
    rw [if_pos (Disk.pathExists_of_entry hentry)]
    split
    · next text hread =>
      obtain ⟨mode', hentry', -⟩ := Disk.readText_eq_ok_iff.1 hread
      obtain ⟨hpart, -⟩ := Entry.file.inj (Except.ok.inj (hentry.symm.trans hentry'))
      exact decode?_part_of_render_nil hpart
    · exact .inl rfl

/-- The file of a store does not keep its entries without the token. -/
def Clings (s : Store) : Prop :=
  ∃ path disk entries, s = .file path disk ∧ entries? disk path = some entries ∧
    ¬ Keeps disk path (Sorted.erase tokenKey entries)

theorem not_clings (he : entries? disk path = some entries)
    (hk : Keeps disk path (Sorted.erase tokenKey entries)) : ¬ (file path disk).Clings := by
  rintro ⟨path', disk', entries', h, he', hn⟩
  cases h
  rw [he] at he'
  cases he'
  exact hn hk

/-- The file of a store does not keep its entries with a token, or the token is empty. -/
def Loses (s : Store) (token : Token) : Prop :=
  ∃ path disk, s = .file path disk ∧ (token.text = "" ∨
    ¬ Keeps disk path (Sorted.insert tokenKey (.string token.text) ((entries? disk path).getD [])))

/-- A store has no token, and its file no entry for one. -/
def Bare : Store → Prop
  | memory token => token = none
  | file path disk => ∀ es, entries? disk path = some es → Sorted.get? tokenKey es = none

theorem Bare.get? {s : Store} (h : s.Bare) : s.get? = none := by
  cases s with
  | memory held => exact h
  | file path disk =>
    rw [Store.get?]
    cases he : entries? disk path with
    | none => rfl
    | some entries => exact tokenOf?_of_get?_eq_none (h entries he)

/-- A file that could not be read is bare after a clear, be it emptied or not. -/
theorem bare_clear_of_entries?_eq_none (he : entries? disk path = none) :
    (file path disk).clear.Bare := by
  simp only [clear, clearFile, he]
  cases hs : save disk path [] with
  | ok disk' =>
    rintro es hes
    cases (entries?_save_nil hs).symm.trans hes
    rfl
  | error f =>
    rintro es hes
    rcases entries?_of_fails_nil he (save_eq_error hs) with hleft | hleft
    · cases hleft.symm.trans hes
    · cases hleft.symm.trans hes
      rfl

/-- A file without an entry for a token is left alone by a clear. -/
theorem clear_of_get?_eq_none (he : entries? disk path = some entries)
    (hk : Sorted.get? tokenKey entries = none) : (file path disk).clear = file path disk := by
  simp only [clear, clearFile, he, hk]

/-- A cleared store is bare, unless its file clings to the token. -/
theorem bare_clear (s : Store) : s.clear.Bare ∨ s.Clings := by
  cases s with
  | memory held => exact .inl rfl
  | file path disk =>
    cases he : entries? disk path with
    | none => exact .inl (bare_clear_of_entries?_eq_none he)
    | some entries =>
      cases hk : Sorted.get? tokenKey entries with
      | none =>
        rw [clear_of_get?_eq_none he hk]
        left
        rintro es hes
        cases he.symm.trans hes
        exact hk
      | some value =>
        by_cases h : Keeps disk path (Sorted.erase tokenKey entries)
        · obtain ⟨disk', hs, hr⟩ := h
          left
          simp only [clear, clearFile, he, hk, hs]
          rintro es hes
          cases hr.symm.trans hes
          exact Sorted.get?_erase_self _ _
        · exact .inr ⟨path, disk, entries, rfl, he, h⟩

/-- A store that is bare stays so. -/
theorem Bare.clear {s : Store} (h : s.Bare) : s.clear.Bare := by
  cases s with
  | memory held => rfl
  | file path disk =>
    cases he : entries? disk path with
    | none => exact bare_clear_of_entries?_eq_none he
    | some entries => rwa [clear_of_get?_eq_none he (h entries he)]

/-- A cleared store holds no token, unless its file clings to it. -/
theorem get?_clear (s : Store) : s.clear.get? = none ∨ s.Clings :=
  (bare_clear s).imp_left Bare.get?

/-- A token that has been set is in the store, unless its file loses it. -/
theorem get?_of_set {s s' : Store} {token : Token} (h : s.set token = .ok s') :
    s'.get? = some token ∨ s.Loses token := by
  cases s with
  | memory held =>
    cases h
    exact .inl rfl
  | file path disk =>
    by_cases hk : Keeps disk path
        (Sorted.insert tokenKey (.string token.text) ((entries? disk path).getD []))
    · obtain ⟨disk', hs, hr⟩ := hk
      simp only [set, setFile, hs] at h
      cases h
      by_cases ht : token.text = ""
      · exact .inr ⟨path, disk, rfl, .inl ht⟩
      · left
        simp only [get?, hr, Option.bind_some, tokenOf?, Sorted.get?_insert_self]
        simp [ht]
    · exact .inr ⟨path, disk, rfl, .inr hk⟩

end Store

end SessionGuard
