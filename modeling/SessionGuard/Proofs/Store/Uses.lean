import SessionGuard.Proofs.Store.Missed
import SessionGuard.Proofs.Store.Refinement
import SessionGuard.Proofs.Yaml.Outlines

/-!
# The session file keeps what is not the token

A store in a file is read, set and cleared in any order.  A use that writes leaves the entries that
the file had at first, with the token of a `set` or without one (`Write.leaves`), whatever has been
written before it (`Standing`); a file that no use writes stays as it is.  So it does where entries
cannot be written, or where the file may not be opened: a clear is `Stuck` then.  What is left is read
again where the other entries are names with scalars and blocks of names (`legible_leaves_known`).
-/

namespace SessionGuard

namespace SessionFile

open Yaml (Document Field)

/-- What a session file holds is sorted by key. -/
theorem ascending_of_decode? {text : String} {entries : Entries} (h : decode? text = some entries) :
    Sorted.Ascending entries := by
  unfold decode? at h
  split at h
  · cases h
    exact List.Pairwise.nil
  · obtain ⟨d, -, hd⟩ := Option.bind_eq_some_iff.1 h
    obtain ⟨⟨found, followed⟩, hf, rfl⟩ := Option.map_eq_some_iff.1 hd
    obtain ⟨⟨root, n⟩, -, hf⟩ := Option.bind_eq_some_iff.1 hf
    obtain ⟨⟨pairs, m⟩, -, hf⟩ := Option.bind_eq_some_iff.1 hf
    cases hf
    exact Sorted.ascending_ofList pairs

/-- The text of entries can be written and stands for them. -/
def Legible (entries : Entries) : Prop :=
  ∃ text, encode entries = .ok text ∧ decode? text = some entries

/-- What is written of entries stands for them. -/
def ReadsBack (entries : Entries) : Prop :=
  ∀ text, encode entries = .ok text → decode? text = some entries

theorem Legible.readsBack {entries : Entries} (h : Legible entries) : ReadsBack entries := by
  obtain ⟨text, hencode, hdecode⟩ := h
  intro text' hencode'
  cases hencode.symm.trans hencode'
  exact hdecode

/-- An entry whose name stands as it is, and whose value is an outline. -/
def Readable (e : String × Yaml.Value) : Prop :=
  Yaml.IsName e.1 ∧ e.2.isOutline (Document.maxDepth - 1) = true

instance : DecidablePred Readable := fun _ => inferInstanceAs (Decidable (_ ∧ _))

theorem readable_token (s : String) : Readable (tokenKey, .string s) :=
  ⟨isName_tokenKey, rfl⟩

/-- Entries with outlines are read again. -/
theorem legible_of_readable {entries : Entries} (hasc : Sorted.Ascending entries)
    (h : ∀ e ∈ entries, Readable e) : Legible entries := by
  have hfields : ∀ e ∈ entries, ∃ f : Field,
      f.content.height ≤ Document.maxDepth - 1 ∧ f.value = e := by
    rintro ⟨name, v⟩ he
    obtain ⟨hname, hv⟩ := h (name, v) he
    obtain ⟨c, rfl, hc⟩ := Yaml.Content.exists_of_isOutline hv
    exact ⟨⟨name, hname, c⟩, hc, rfl⟩
  obtain ⟨fs, hheight, rfl⟩ := Field.exists_map_eq hfields
  have hread : Field.height fs < Document.maxDepth := Nat.lt_succ_of_le hheight
  have hdepth : Document.maxDepth < Yaml.maxWriteDepth := by decide
  by_cases hne : fs = []
  · subst hne
    exact ⟨_, rfl, Store.decode?_render_nil⟩
  · refine ⟨_, if_pos ?_, decode?_render hne hread hasc⟩
    simp only [List.all_map, List.all_eq_true, Function.comp_apply]
    exact fun f hf => f.content.isWritable _
      (Nat.lt_of_le_of_lt (Field.height_of_mem hf) (Nat.lt_trans hread hdepth))

end SessionFile

namespace Store

open SessionFile (Entries Legible ReadsBack tokenKey)

/-! ## Uses -/

/-- What is asked of a store. -/
inductive Use
  | get
  | write (w : Write)

/-- A store after a use, be it done or not. -/
def use (s : Store) : Use → Store
  | .get => s
  | .write w =>
    match s.write w with
    | .ok s => s
    | .error f => f.left

/-- A store after uses, one after the other. -/
def uses (s : Store) (us : List Use) : Store := us.foldl use s

/-- Entries after a write. -/
def Write.leaves (entries : Entries) : Write → Entries
  | .set token => Sorted.insert tokenKey (.string token.text) entries
  | .clear => Sorted.erase tokenKey entries

/-- The entries that a write means to put into a file with known entries, if it means to write. -/
def Write.puts? (known? : Option Entries) : Write → Option Entries
  | .set token => some (leaves (known?.getD []) (.set token))
  | .clear =>
    match known? with
    | some entries =>
      if (Sorted.get? tokenKey entries).isSome then some (leaves entries .clear) else none
    | none => some []

/-- A disk after a use, and the last use that has written the session file. -/
def track (path : String) (before : Disk × Option Write) : Use → Disk × Option Write
  | .get => before
  | .write w =>
    match w.puts? (entries? before.1 path) with
    | none => before
    | some entries =>
      match save before.1 path entries with
      | .ok disk => (disk, some w)
      | .error f => (f.left, before.2)

/-- A disk after uses, and the last of them that has written the session file, if any has. -/
def afterUses (path : String) (disk : Disk) (us : List Use) : Disk × Option Write :=
  us.foldl (track path) (disk, none)

/-- A use opens the session file and cannot finish it: it is not the user's own, or there is no room
for its text. -/
def Breaks (path : String) (disk : Disk) (u : Use) : Prop :=
  ∃ w entries text made left, u = .write w ∧ w.puts? (entries? disk path) = some entries ∧
    SessionFile.encode entries = .ok text ∧ disk.makeParents path = .ok made ∧
    made.Spoils path text left

/-- No use of some opens the session file and cannot finish it. -/
def Unbroken (path : String) (disk : Disk) (us : List Use) : Prop :=
  ∀ before u, before ++ [u] <+: us → ¬ Breaks path (afterUses path disk before).1 u

variable {disk d d' : Disk} {path : String} {last? : Option Write} {us : List Use}

/-- What a use makes of a disk is what a store in a file comes to. -/
theorem use_file (disk : Disk) (path : String) (last? : Option Write) (u : Use) :
    (file path disk).use u = file path (track path (disk, last?) u).1 := by
  cases u with
  | get => rfl
  | write w =>
    cases w with
    | set token =>
      simp only [use, write, set, setFile, track, Write.puts?, Write.leaves]
      cases save disk path _ <;> rfl
    | clear =>
      simp only [use, write, clear, clearFile, track, Write.puts?, Write.leaves]
      cases entries? disk path with
      | none =>
        simp only
        cases save disk path [] <;> rfl
      | some entries =>
        simp only
        cases Sorted.get? tokenKey entries with
        | none => rfl
        | some value =>
          simp only [Option.isSome_some, if_true]
          cases save disk path _ <;> rfl

/-- A clear that fails leaves what its save leaves. -/
theorem clear_of_save_error {entries : Entries} {f : Failed StoreError Disk}
    (hput : Write.clear.puts? (entries? d path) = some entries)
    (hs : save d path entries = .error f) : (file path d).clear = file path f.left := by
  have huse := use_file d path none (.write .clear)
  simpa only [use, write, track, hput, hs] using huse

theorem afterUses_concat (path : String) (disk : Disk) (us : List Use) (u : Use) :
    afterUses path disk (us ++ [u]) = track path (afterUses path disk us) u := by
  simp [afterUses]

theorem uses_file (disk : Disk) (path : String) (us : List Use) :
    (file path disk).uses us = file path (afterUses path disk us).1 := by
  induction us using List.reverseRecOn with
  | nil => rfl
  | append_singleton us u ih =>
    rw [afterUses_concat, ← use_file, ← ih]
    simp [uses]

theorem Unbroken.of_append {vs : List Use} (h : Unbroken path disk (us ++ vs)) :
    Unbroken path disk us :=
  fun before u hu => h before u (hu.trans (List.prefix_append _ _))

theorem Unbroken.not_breaks {u : Use} (h : Unbroken path disk (us ++ [u])) :
    ¬ Breaks path (afterUses path disk us).1 u :=
  h us u List.prefix_rfl

/-- A clear means to write only if the file has a value for the token or cannot be read. -/
theorem puts?_clear {known? : Option Entries} {entries : Entries}
    (h : Write.clear.puts? known? = some entries) :
    known? = none ∨ ∃ entries value, known? = some entries ∧
      Sorted.get? tokenKey entries = some value := by
  cases known? with
  | none => exact .inl rfl
  | some known =>
    cases hv : Sorted.get? tokenKey known with
    | none => simp [Write.puts?, hv] at h
    | some value => exact .inr ⟨known, value, rfl, hv⟩

/-! ## What a write leaves -/

/-- The entries that are known of a file: none if it is missing, blank or cannot be read. -/
def known (disk : Disk) (path : String) : Entries := (entries? disk path).getD []

theorem ascending_known (disk : Disk) (path : String) : Sorted.Ascending (known disk path) := by
  unfold known
  cases he : entries? disk path with
  | none => exact List.Pairwise.nil
  | some entries =>
    unfold entries? at he
    split at he
    · split at he
      · exact SessionFile.ascending_of_decode? he
      · cases he
    · cases he
      exact List.Pairwise.nil

theorem Write.get?_leaves_of_ne {k : String} (hk : k ≠ tokenKey) (entries : Entries) (w : Write) :
    Sorted.get? k (w.leaves entries) = Sorted.get? k entries := by
  cases w with
  | set token => exact Sorted.get?_insert_of_ne hk _ _
  | clear => exact Sorted.get?_erase_of_ne hk _

/-- A write leaves the same entries whatever has been written before it. -/
theorem Write.leaves_leaves {entries : Entries} (h : Sorted.Ascending entries) (v w : Write) :
    w.leaves (v.leaves entries) = w.leaves entries := by
  cases w with
  | set token =>
    cases v with
    | set old => exact Sorted.insert_insert _ _ _ _
    | clear => exact Sorted.insert_erase h _ _
  | clear =>
    cases v with
    | set old => exact Sorted.erase_insert _ _ _
    | clear => exact Sorted.erase_erase _ _

theorem Write.eq_leaves_of_puts? {known? : Option Entries} {w : Write} {entries : Entries}
    (h : w.puts? known? = some entries) : entries = w.leaves (known?.getD []) := by
  cases w with
  | set token =>
    cases h
    rfl
  | clear =>
    cases known? with
    | none =>
      cases h
      rfl
    | some old =>
      simp only [puts?] at h
      split at h
      · cases h
        rfl
      · cases h

/-- Where the other entries of a file are outlines, what a write leaves is read again, whatever the
token was and will be. -/
theorem legible_leaves_known {disk : Disk} {path : String}
    (h : ∀ e ∈ known disk path, e.1 ≠ tokenKey → SessionFile.Readable e) (w : Write) :
    Legible (w.leaves (known disk path)) := by
  have hasc : Sorted.Ascending (Sorted.erase tokenKey (known disk path)) :=
    (ascending_known disk path).filter _
  have hrest : ∀ e ∈ Sorted.erase tokenKey (known disk path), SessionFile.Readable e := by
    intro e he
    obtain ⟨hmem, hne⟩ := List.mem_filter.1 he
    exact h e hmem (by simpa using hne)
  cases w with
  | clear => exact SessionFile.legible_of_readable hasc hrest
  | set token =>
    have hinsert : Write.leaves (known disk path) (.set token) =
        Sorted.insert tokenKey (.string token.text) (Sorted.erase tokenKey (known disk path)) :=
      (Sorted.insert_erase (ascending_known disk path) _ _).symm
    rw [hinsert]
    refine SessionFile.legible_of_readable (Sorted.ascending_insert hasc _ _) fun e he => ?_
    rcases Sorted.mem_insert he with rfl | he
    · exact SessionFile.readable_token token.text
    · exact hrest e he

/-! ## Where a file stands -/

/-- The directories that lead to a file are there, and the file may not be opened for writing. -/
def Shut (d : Disk) (path : String) : Prop :=
  d.makeParents path = .ok d ∧ ∀ l mode?, ¬ d.Opens path l mode?

/-- A file with some entries at first is as it was, or as the last write has left it.  Where nothing
has been written another file may have come to be shown, but none that may be opened for writing. -/
inductive Standing (disk : Disk) (path : String) : Disk × Option Write → Prop
  | untouched {d : Disk} (hg : disk.Gains d) (hk : known d path = known disk path ∨ Shut d path) :
      Standing disk path (d, none)
  | written {d : Disk} {w : Write} (text : String)
      (hp : d.makeParents path = .ok d) (ho : ∃ l mode?, d.Opens path l mode?)
      (he : d.entry path = .ok (.file text.toUTF8 .ownerOnly))
      (ht : SessionFile.decode? text = some (w.leaves (known disk path))) :
      Standing disk path (d, some w)

theorem known_of_locate (h : ∀ t, d.locate path ≠ .ok t) : known d path = [] := by
  have hp : d.pathExists path = false := by
    unfold Disk.pathExists
    cases he : d.entry path with
    | error e => rfl
    | ok e =>
      obtain ⟨t, ht, -⟩ := Disk.entry_eq_ok_iff.1 he
      exact absurd ht (h t)
  simp [known, entries?, hp]

/-- Where the directories that lead to a file had to be made, only its token is to be written. -/
theorem encode_of_puts? {w : Write} {entries : Entries} (h : ∀ t, d.locate path ≠ .ok t)
    (hput : w.puts? (entries? d path) = some entries) :
    ∃ text, SessionFile.encode entries = .ok text := by
  cases w with
  | set token =>
    obtain rfl := Write.eq_leaves_of_puts? hput
    rw [← known, known_of_locate h]
    exact ⟨_, encode_entriesOf (some token)⟩
  | clear =>
    rcases puts?_clear hput with hnone | ⟨entries, value, hsome, hv⟩
    · obtain ⟨t, ht⟩ := exists_locate_of_entries?_eq_none hnone
      exact absurd ht (h t)
    · have hknown := known_of_locate h
      rw [known, hsome, Option.getD_some] at hknown
      rw [hknown] at hv
      cases hv

/-- What is read of a file has directories that lead to it. -/
theorem makeParents_of_entries? {entries : Entries} {value : Yaml.Value}
    (he : entries? d path = some entries) (hv : Sorted.get? tokenKey entries = some value) :
    d.makeParents path = .ok d := by
  rcases entries?_eq_some he with ⟨rfl, -⟩ | ⟨text, mode, hentry, -⟩
  · cases hv
  · obtain ⟨t, ht, -⟩ := Disk.entry_eq_ok_iff.1 hentry
    exact Disk.makeParents_of_locate ht

/-- A file has a token that a clear cannot take out: the other entries cannot be written, or the file
may not be opened. -/
def Stuck (d : Disk) (path : String) : Prop :=
  ∃ entries value, entries? d path = some entries ∧ Sorted.get? tokenKey entries = some value ∧
    ((∃ reason, SessionFile.encode (Sorted.erase tokenKey entries) = .error reason) ∨
      ∀ l mode?, ¬ d.Opens path l mode?)

/-- A clear that fails where nothing breaks leaves the disk as it is. -/
theorem left_of_clear {entries : Entries} {f : Failed StoreError Disk}
    (hput : Write.clear.puts? (entries? d path) = some entries)
    (hs : save d path entries = .error f) (hnb : ¬ Breaks path d (.write .clear)) :
    f.left = d ∧ (entries? d path = none ∨ Stuck d path) := by
  have hparents : d.makeParents path = .ok d := by
    rcases puts?_clear hput with hnone | ⟨known, value, hsome, hv⟩
    · exact makeParents_of_entries?_eq_none hnone
    · exact makeParents_of_entries? hsome hv
  have hstuck (hwhy : (∃ reason, SessionFile.encode entries = .error reason) ∨
      ∀ l mode?, ¬ d.Opens path l mode?) : entries? d path = none ∨ Stuck d path := by
    refine (puts?_clear hput).imp_right ?_
    rintro ⟨known, value, hsome, hv⟩
    refine ⟨known, value, hsome, hv, ?_⟩
    rw [hsome] at hput
    obtain rfl := Write.eq_leaves_of_puts? hput
    exact hwhy
  have hfails := save_eq_error hs
  generalize f.left = left at hfails
  cases hfails with
  | noWay hp => cases hparents.symm.trans hp
  | noText hp he => exact ⟨Except.ok.inj (hp.symm.trans hparents), hstuck (.inl ⟨_, he⟩)⟩
  | shut hp he hno =>
    obtain rfl := Except.ok.inj (hparents.symm.trans hp)
    exact ⟨rfl, hstuck (.inr hno)⟩
  | spoils hp he hs => exact absurd ⟨_, _, _, _, _, rfl, hput, he, hp, hs⟩ hnb

namespace Standing

variable {p : Disk × Option Write} {w : Write} {entries : Entries}

/-- A write leaves the same as it would have left at first. -/
theorem leaves_known (h : Standing disk path p) (hopen : ¬ Shut p.1 path) (w : Write) :
    w.leaves (known p.1 path) = w.leaves (known disk path) := by
  cases h with
  | untouched hg hk => rw [hk.resolve_right hopen]
  | written text hp ho he ht =>
    rw [known, entries?_of_entry he (by simp), ht, Option.getD_some,
      Write.leaves_leaves (ascending_known disk path)]

/-- What has been written stands in the file. -/
theorem of_save (h : Standing disk path p) (hput : w.puts? (entries? p.1 path) = some entries)
    (hs : save p.1 path entries = .ok d) (hback : ReadsBack (w.leaves (known disk path))) :
    Standing disk path (d, some w) := by
  obtain rfl := Write.eq_leaves_of_puts? hput
  obtain ⟨text, hencode, hsaved⟩ := save_eq_ok_iff.1 hs
  obtain ⟨made, l, mode?, hp, ho, -, rfl⟩ := Disk.save_eq_ok_iff.1 hsaved
  have hopen : ¬ Shut p.1 path := by
    rintro ⟨hparents, hno⟩
    cases hparents.symm.trans hp
    exact hno _ _ ho
  rw [← known, h.leaves_known hopen] at hencode
  exact .written text (Disk.makeParents_again hp (Disk.within_put ho.find?_ne))
    ⟨_, _, Disk.opens_put ho⟩ ho.entry_put (hback text hencode)

/-- Where the directories cannot be made, nothing has been written and nothing is. -/
theorem of_noWay (h : Standing disk path p) {cause : FileError}
    (hp : p.1.makeParents path = .error cause) :
    Standing disk path (p.1.leftByParents path, p.2) := by
  have hno (t : Disk.Target) : p.1.locate path ≠ .ok t := fun ht => by
    cases (Disk.makeParents_of_locate ht).symm.trans hp
  cases h with
  | written text hparents => cases hparents.symm.trans hp
  | @untouched d hg hk =>
    refine .untouched (hg.trans (Disk.madeAbove_leftByParents d path).gains) (.inl ?_)
    have hk := hk.resolve_right fun hshut => by cases hshut.1.symm.trans hp
    rw [known_of_locate (Disk.locate_leftByParents hp), ← hk, known_of_locate hno]

/-- A write that fails and breaks nothing leaves the file where it stood. -/
theorem of_fails (h : Standing disk path p) {left : Disk}
    (hput : w.puts? (entries? p.1 path) = some entries) (hf : Fails p.1 path entries left)
    (hnb : ¬ Breaks path p.1 (.write w)) : Standing disk path (left, p.2) := by
  cases hf with
  | noWay hp => exact h.of_noWay hp
  | @noText made reason hp he =>
    have hway : ∃ t, p.1.locate path = .ok t := by
      by_contra hno
      obtain ⟨text, htext⟩ := encode_of_puts? (fun t ht => hno ⟨t, ht⟩) hput
      cases htext.symm.trans he
    obtain ⟨t, ht⟩ := hway
    cases (Disk.makeParents_of_locate ht).symm.trans hp
    exact h
  | spoils hp he hs => exact absurd ⟨_, _, _, _, _, rfl, hput, he, hp, hs⟩ hnb
  | shut hp he hno =>
    cases h with
    | untouched hg =>
      exact .untouched (hg.trans (Disk.gains_makeParents hp))
        (.inr ⟨Disk.makeParents_again hp ⟨rfl, fun _ => id⟩, hno⟩)
    | written text hparents ho =>
      cases hparents.symm.trans hp
      obtain ⟨l, mode?, ho⟩ := ho
      exact absurd ho (hno l mode?)

theorem track (h : Standing disk path p) {u : Use}
    (hback : ∀ w, u = .write w → ReadsBack (w.leaves (known disk path)))
    (hnb : ¬ Breaks path p.1 u) : Standing disk path (track path p u) := by
  cases u with
  | get => exact h
  | write w =>
    simp only [Store.track]
    cases hput : w.puts? (entries? p.1 path) with
    | none => exact h
    | some entries =>
      simp only
      cases hs : save p.1 path entries with
      | ok d => exact h.of_save hput hs (hback w rfl)
      | error f => exact h.of_fails hput (save_eq_error hs) hnb

/-- A file that has been cleared is not changed by another clear, and has no token unless it is
stuck. -/
theorem track_clear (h : Standing disk path p)
    (hback : ReadsBack (Write.clear.leaves (known disk path)))
    (hnb : ¬ Breaks path p.1 (.write .clear)) :
    let s := file path (Store.track path p (.write .clear)).1
    s.clear = s ∧ (s.get? = none ∨ Stuck (Store.track path p (.write .clear)).1 path) := by
  simp only [Store.track]
  cases hput : Write.clear.puts? (entries? p.1 path) with
  | none =>
    cases he : entries? p.1 path with
    | none => rw [he] at hput; cases hput
    | some entries =>
      have hv : Sorted.get? tokenKey entries = none := by simpa [he, Write.puts?] using hput
      exact ⟨clear_of_get?_eq_none he hv, .inl (Bare.get? fun es hes => by
        cases he.symm.trans hes; exact hv)⟩
  | some entries =>
    simp only
    cases hs : save p.1 path entries with
    | ok d =>
      have hstands := h.of_save hput hs hback
      cases hstands with
      | written text hp ho he ht =>
        have hentries := (entries?_of_entry he (by simp)).trans ht
        have hv : Sorted.get? tokenKey (Write.clear.leaves (known disk path)) = none :=
          Sorted.get?_erase_self _ _
        exact ⟨clear_of_get?_eq_none hentries hv, .inl (Bare.get? fun es hes => by
          cases hentries.symm.trans hes; exact hv)⟩
    | error f =>
      simp only
      obtain ⟨hleft, hwhy⟩ := left_of_clear hput hs hnb
      have hclear := clear_of_save_error hput hs
      rw [hleft] at hclear ⊢
      refine ⟨hclear, hwhy.imp_left fun hnone => ?_⟩
      simp only [get?, hnone, Option.bind_none]

end Standing

theorem standing_afterUses (us : List Use)
    (hback : ∀ w, .write w ∈ us → ReadsBack (w.leaves (known disk path)))
    (hun : Unbroken path disk us) : Standing disk path (afterUses path disk us) := by
  induction us using List.reverseRecOn with
  | nil => exact .untouched (.refl disk) (.inl rfl)
  | append_singleton us u ih =>
    rw [afterUses_concat]
    refine (ih (fun w hw => hback w (List.mem_append_left _ hw)) hun.of_append).track ?_
      hun.not_breaks
    rintro w rfl
    exact hback w (by simp)

/-- Where every open file is finished, no use breaks it. -/
theorem unbroken_of_whole (hwhole : disk.Whole path) (us : List Use) : Unbroken path disk us := by
  have hkept : ∀ us, (afterUses path disk us).1.Whole path := by
    intro us
    induction us using List.reverseRecOn with
    | nil => exact hwhole
    | append_singleton us u ih =>
      rw [afterUses_concat]
      cases u with
      | get => exact ih
      | write w =>
        simp only [track]
        cases w.puts? (entries? (afterUses path disk us).1 path) with
        | none => exact ih
        | some entries =>
          simp only
          cases hs : save (afterUses path disk us).1 path entries with
          | ok d =>
            obtain ⟨text, -, hsaved⟩ := save_eq_ok_iff.1 hs
            exact ih.save hsaved
          | error f => exact ih.of_gains ((save_eq_error hs).gains_of_whole ih)
  rintro before u - ⟨w, entries, text, made, left, -, -, -, hp, hs⟩
  exact (hkept before).not_spoils (Disk.gains_makeParents hp) hs

/-- Whatever a file holds at first, whatever its permissions are, and however its store is used: a file
that is not written stays as it is, and one that is written is for its owner only and holds the entries
known at first with the token of the last write.  A cleared one holds no token and is not changed by
another clear, unless it is stuck with its token.  Entries that cannot be encoded again, and a file that
may not be opened, are not written; no open file is supposed to break. -/
theorem session_file_keeps_the_rest (us : List Use)
    (hback : ∀ w, .write w ∈ us → ReadsBack (w.leaves (known disk path)))
    (hun : Unbroken path disk us) :
    ∃ d last?, afterUses path disk us = (d, last?) ∧ (file path disk).uses us = file path d ∧
      (last? = none → disk.Gains d) ∧
      (∀ w, last? = some w → ∃ text, d.entry path = .ok (.file text.toUTF8 .ownerOnly) ∧
        SessionFile.decode? text = some (w.leaves (known disk path)) ∧
        ∀ k, k ≠ tokenKey →
          Sorted.get? k (w.leaves (known disk path)) = Sorted.get? k (known disk path)) ∧
      (us.getLast? = some (.write .clear) →
        (file path d).clear = file path d ∧ ((file path d).get? = none ∨ Stuck d path)) ∧
      (file path d).use .get = file path d ∧
      ∀ entries, Write.clear.puts? (entries? d path) = some entries →
        entries? d path = none ∨ ∃ entries value, entries? d path = some entries ∧
          Sorted.get? tokenKey entries = some value := by
  have hstanding := standing_afterUses us hback hun
  refine ⟨(afterUses path disk us).1, (afterUses path disk us).2, rfl, uses_file disk path us,
    ?_, ?_, ?_, rfl, fun _ => puts?_clear⟩
  · intro hlast
    generalize afterUses path disk us = p at hstanding hlast ⊢
    cases hstanding with
    | untouched hg => exact hg
    | written => cases hlast
  · intro w hlast
    generalize afterUses path disk us = p at hstanding hlast ⊢
    cases hstanding with
    | untouched => cases hlast
    | written text _ _ he ht =>
      cases hlast
      exact ⟨text, he, ht, fun k hk => w.get?_leaves_of_ne hk _⟩
  · intro hclear
    obtain ⟨before, rfl⟩ := List.getLast?_eq_some_iff.1 hclear
    have hbefore := standing_afterUses before (fun w hw => hback w (List.mem_append_left _ hw))
      hun.of_append
    rw [afterUses_concat]
    exact hbefore.track_clear (hback .clear (by simp)) hun.not_breaks

/-- A file with a number for a token and blocks of names beside it is for its owner only after a token
has been set and cleared, and nothing but the number is gone. -/
theorem session_file_keeps_blocks :
    let path := "session.yaml"
    let disk : Disk :=
      { entries := [([path],
          .file "access_token: 7\nroles:\n  admin: true\ntheme: dark\n".toUTF8 0o644)]
        current := [] }
    let us : List Use := [.get, .write (.set ⟨"null"⟩), .write .clear]
    (∀ w, .write w ∈ us → ReadsBack (w.leaves (known disk path))) ∧ Unbroken path disk us ∧
      ∃ d, (file path disk).uses us = file path d ∧ (file path d).get? = none ∧
        ∃ text, d.entry path = .ok (.file text.toUTF8 0o600) ∧
          SessionFile.decode? text = some
            [("roles", .mapping [(.string "admin", .bool true)]), ("theme", .string "dark")] := by
  intro path disk us
  have hknown : known disk path = [(tokenKey, .int 7),
      ("roles", .mapping [(.string "admin", .bool true)]), ("theme", .string "dark")] := by
    decide +kernel
  have hreadable : ∀ e ∈ known disk path, e.1 ≠ tokenKey → SessionFile.Readable e := by
    rw [hknown]
    decide +kernel
  have hback (w : Write) (_ : Use.write w ∈ us) : ReadsBack (w.leaves (known disk path)) :=
    (legible_leaves_known hreadable w).readsBack
  have hwhole : disk.Whole path := by
    refine Disk.whole_of_owned rfl fun x hx content mode he => ?_
    obtain rfl := List.mem_singleton.1 hx
    cases he
    rfl
  have hun : Unbroken path disk us := unbroken_of_whole hwhole us
  obtain ⟨d, last?, htrack, huses, -, hwritten, hcleared, -⟩ :=
    session_file_keeps_the_rest us hback hun
  have hlast : last? = some .clear :=
    (congrArg Prod.snd htrack).symm.trans (by decide +kernel)
  obtain ⟨text, he, ht, -⟩ := hwritten _ hlast
  have hdecode : SessionFile.decode? text = some
      [("roles", .mapping [(.string "admin", .bool true)]), ("theme", .string "dark")] := by
    rw [ht, hknown]
    decide +kernel
  have hentries : entries? d path = some
      [("roles", .mapping [(.string "admin", .bool true)]), ("theme", .string "dark")] :=
    (entries?_of_entry he (by simp)).trans hdecode
  refine ⟨hback, hun, d, huses, (hcleared rfl).2.resolve_right ?_, text, he, hdecode⟩
  rintro ⟨entries, value, hread, hv, -⟩
  cases hentries.symm.trans hread
  cases hv

/-- A session file keeps its token when it is cleared if another entry cannot be written or if it may
not be written itself; one that may not be read loses all the rest to a token that is set, and one that
is not the user's own is emptied by it. -/
theorem session_file_may_keep_token_or_lose_rest :
    let path := "session.yaml"
    let holding := fun (text : String) (mode : Mode) =>
      ({ entries := [([path], .file text.toUTF8 mode)], current := [] } : Disk)
    let awkward := holding "access_token: tok\nother:\n  ? \x7ba: 1\x7d\n  : 2\n" 0o644
    let fixed := holding "access_token: tok\n" 0o444
    let hidden := holding "access_token: tok\nroles: [a]\n" 0o200
    let shared := holding "access_token: tok\n" ⟨0o666, .other⟩
    ((file path awkward).uses [.write .clear]).get? = some ⟨"tok"⟩ ∧
      ((file path fixed).uses [.write .clear]).get? = some ⟨"tok"⟩ ∧
      (afterUses path hidden [.write (.set ⟨"new"⟩)]).1.readText path = .ok "access_token: new\n" ∧
      (afterUses path shared [.write (.set ⟨"new"⟩)]).1.readText path = .ok "" := by
  decide +kernel

end Store

end SessionGuard
