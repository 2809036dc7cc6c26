import SessionGuard.Proofs.Disk.Directories

/-!
# Files that are written

A file that can be opened (`Opens`) is written in full and given to its owner, or it is left with a
part of its text (`Spoils`).  A save does one of both once the directories are there
(`save_eq_ok_iff`, `stops_of_save_eq_error`).  There are disks where nothing can go wrong with an open
file (`Whole`).
-/

namespace SessionGuard

/-- The file at a location can take a text. -/
def System.Takes (s : System) (l : Location) (text : String) : Prop :=
  ∀ size ∈ s.room l, text.utf8ByteSize ≤ size

namespace Disk

variable {d d' d₁ : Disk} {l : Location} {path text text' : String} {mode? : Option Mode} {mode : Mode}
  {content : ByteArray} {f g : OpenFile} {care : Care} {failed : Failed FileError Disk}

/-! ## Files that are opened -/

/-- A file can be opened at a path: one that is there, with its permissions, or a new one. -/
inductive Opens (d : Disk) (path : String) : Location → Option Mode → Prop
  | there {l : Location} {content : ByteArray} {mode : Mode} (ht : d.locate path = .ok ⟨l, false⟩)
      (hf : d.find? l = some (.file content mode)) (hw : d.system.mayWrite mode = true) :
      Opens d path l (some mode)
  | new {l : Location} (ht : d.locate path = .ok ⟨l, false⟩) (hf : d.find? l = none)
      (hc : d.system.closed l.dropLast = false) : Opens d path l none

theorem openFile_eq_ok_iff {bits : Nat} :
    d.openFile path bits = .ok f ↔
      ∃ l mode?, d.Opens path l mode? ∧ f = ⟨d, l, .empty, mode?.getD (d.system.fresh bits)⟩ := by
  constructor
  · intro h
    unfold openFile at h
    cases ht : d.locate path with
    | error e => rw [ht] at h; cases h
    | ok t =>
      obtain ⟨l, asDirectory⟩ := t
      rw [ht] at h
      simp only [bind, Except.bind] at h
      split at h
      · cases h
      · next hf =>
        split at h
        · cases h
        · next ha =>
          split at h
          · next hw =>
            cases h
            simp only [Bool.not_eq_true] at ha
            exact ⟨l, _, .there (by rw [ht, ha]) hf hw, rfl⟩
          · cases h
      · next hf =>
        split at h
        · cases h
        · next ha =>
          split at h
          · cases h
          · next hc =>
            cases h
            simp only [Bool.not_eq_true] at ha hc
            exact ⟨l, _, .new (by rw [ht, ha]) hf hc, rfl⟩
  · rintro ⟨l, mode?, ho, rfl⟩
    cases ho with
    | there ht hf hw => simp [openFile, ht, hf, hw, bind, Except.bind]
    | new ht hf hc => simp [openFile, ht, hf, hc, bind, Except.bind]

namespace Opens

variable (h : d.Opens path l mode?)

include h

theorem locate : d.locate path = .ok ⟨l, false⟩ := by
  cases h <;> assumption

theorem find?_ne : d.find? l ≠ some .directory := by
  cases h with
  | there _ hf => simp [hf]
  | new _ hf => simp [hf]

theorem ne_nil : l ≠ [] := ne_nil_of_find? h.find?_ne

theorem find?_dropLast : d.find? l.dropLast = some .directory :=
  find?_dropLast_of_locate h.locate h.find?_ne

theorem eq_destination : l = d.destination path := (locate_eq_ok h.locate).2.2.1

/-- A file that is put where one has been opened is shown there. -/
theorem entry_put : (d.put l (.file content mode)).entry path = .ok (.file content mode) :=
  entry_eq_file_iff.2 ⟨l, locate_of_within (within_put h.find?_ne) h.locate,
    find?_put_self h.ne_nil h.find?_dropLast⟩

/-- There is one place to open a file at a path. -/
theorem unique {l' : Location} {mode?' : Option Mode} (h' : d.Opens path l' mode?') :
    l = l' ∧ mode? = mode?' := by
  cases h with
  | there ht hf hw =>
    cases h' with
    | there ht' hf' =>
      cases ht.symm.trans ht'
      cases hf.symm.trans hf'
      exact ⟨rfl, rfl⟩
    | new ht' hf' =>
      cases ht.symm.trans ht'
      cases hf.symm.trans hf'
  | new ht hf =>
    cases h' with
    | there ht' hf' =>
      cases ht.symm.trans ht'
      cases hf.symm.trans hf'
    | new ht' => exact ⟨by cases ht.symm.trans ht'; rfl, rfl⟩

end Opens

/-! ## Files that are finished -/

theorem write_eq_ok_iff :
    f.write text = .ok g ↔
      f.disk.system.Takes f.location text ∧ g = { f with content := text.toUTF8 } := by
  unfold OpenFile.write System.Takes
  cases f.disk.system.room f.location with
  | none => simp [eq_comm (b := g)]
  | some size => by_cases h : text.utf8ByteSize ≤ size <;> simp [h, eq_comm (b := g)]

theorem restrict_eq_ok_iff :
    f.restrict = .ok g ↔
      f.disk.system.mayChange f.mode = true ∧ g = { f with mode := .ownerOnly } := by
  unfold OpenFile.restrict
  by_cases h : f.disk.system.mayChange f.mode = true <;> simp [h, eq_comm (b := g)]

/-- In either order a file is finished where its permissions may be changed and there is room. -/
theorem finish_eq_ok_iff :
    f.finish text care = .ok g ↔
      f.disk.system.mayChange f.mode = true ∧ f.disk.system.Takes f.location text ∧
        g = ⟨f.disk, f.location, text.toUTF8, .ownerOnly⟩ := by
  cases care with
  | before =>
    cases hr : f.restrict with
    | error e =>
      have hno : f.disk.system.mayChange f.mode ≠ true := fun h => by
        rw [restrict_eq_ok_iff.2 ⟨h, rfl⟩] at hr
        cases hr
      simp [OpenFile.finish, hr, hno, bind, Except.bind]
    | ok f₁ =>
      obtain ⟨hc, rfl⟩ := restrict_eq_ok_iff.1 hr
      simp [OpenFile.finish, hr, hc, write_eq_ok_iff, bind, Except.bind]
  | after =>
    cases hw : f.write text with
    | error e =>
      have hno : ¬ f.disk.system.Takes f.location text := fun h => by
        rw [write_eq_ok_iff.2 ⟨h, rfl⟩] at hw
        cases hw
      simp [OpenFile.finish, hw, hno, bind, Except.bind]
    | ok f₁ =>
      obtain ⟨ht, rfl⟩ := write_eq_ok_iff.1 hw
      simp [OpenFile.finish, hw, ht, restrict_eq_ok_iff, bind, Except.bind]

theorem restrict_eq_error (h : f.restrict = .error failed) :
    failed.cause = .notPermitted ∧ f.disk.system.mayChange f.mode = false ∧
      failed.left = f.settled := by
  unfold OpenFile.restrict at h
  split at h
  · cases h
  · next hno =>
    cases h
    exact ⟨rfl, by simpa using hno, rfl⟩

theorem write_eq_error (h : f.write text = .error failed) :
    failed.cause = .noSpace ∧ ¬ f.disk.system.Takes f.location text ∧
      ∃ size, failed.left = OpenFile.settled { f with content := text.toUTF8.extract 0 size } := by
  unfold OpenFile.write at h
  split at h
  · cases h
  · next size hroom =>
    split at h
    · cases h
    · next hsize =>
      cases h
      exact ⟨rfl, fun ht => hsize (ht size hroom), _, rfl⟩

/-- A file that is not finished holds a part of the text: it cannot be given to its owner, or there is
no room. -/
theorem finish_eq_error (hf : f.content = .empty) (h : f.finish text care = .error failed) :
    (failed.cause = .notPermitted ∧ f.disk.system.mayChange f.mode = false ∨
        failed.cause = .noSpace ∧ ¬ f.disk.system.Takes f.location text) ∧
      ∃ size mode, (mode = f.mode ∨ mode = .ownerOnly) ∧
        failed.left = f.disk.put f.location (.file (text.toUTF8.extract 0 size) mode) := by
  have hempty : text.toUTF8.extract 0 0 = f.content := by rw [hf, ByteArray.extract_same]
  have hall : text.toUTF8.extract 0 text.toUTF8.size = text.toUTF8 := ByteArray.extract_zero_size
  cases care with
  | before =>
    cases hr : f.restrict with
    | error e =>
      simp only [OpenFile.finish, hr, bind, Except.bind] at h
      cases h
      obtain ⟨hcause, hno, hleft⟩ := restrict_eq_error hr
      exact ⟨.inl ⟨hcause, hno⟩, 0, f.mode, .inl rfl, by rw [hempty]; exact hleft⟩
    | ok f₁ =>
      obtain ⟨-, rfl⟩ := restrict_eq_ok_iff.1 hr
      simp only [OpenFile.finish, hr, bind, Except.bind] at h
      obtain ⟨hcause, hno, size, hleft⟩ := write_eq_error h
      exact ⟨.inr ⟨hcause, hno⟩, size, .ownerOnly, .inr rfl, hleft⟩
  | after =>
    cases hw : f.write text with
    | error e =>
      simp only [OpenFile.finish, hw, bind, Except.bind] at h
      cases h
      obtain ⟨hcause, hno, size, hleft⟩ := write_eq_error hw
      exact ⟨.inr ⟨hcause, hno⟩, size, f.mode, .inl rfl, hleft⟩
    | ok f₁ =>
      obtain ⟨-, rfl⟩ := write_eq_ok_iff.1 hw
      simp only [OpenFile.finish, hw, bind, Except.bind] at h
      obtain ⟨hcause, hno, hleft⟩ := restrict_eq_error h
      exact ⟨.inl ⟨hcause, hno⟩, _, f.mode, .inl rfl, by rw [hall]; exact hleft⟩

/-! ## Files that are saved -/

/-- A file can be finished once it is open: its permissions may be changed, and there is room for the
text. -/
def Finishes (d : Disk) (text : String) (l : Location) (mode? : Option Mode) : Prop :=
  (∀ mode ∈ mode?, d.system.mayChange mode = true) ∧ d.system.Takes l text

theorem mayChange_getD {bits : Nat} :
    d.system.mayChange (mode?.getD (d.system.fresh bits)) = true ↔
      ∀ mode ∈ mode?, d.system.mayChange mode = true := by
  cases mode? <;> simp

/-- A text can be written where a file can be opened and finished, in either order. -/
theorem writeText_eq_ok_iff :
    d.writeText care path text = .ok d' ↔
      ∃ l mode?, d.Opens path l mode? ∧ d.Finishes text l mode? ∧
        d' = d.put l (.file text.toUTF8 .ownerOnly) := by
  unfold writeText
  cases ho : d.openFile path care.bits with
  | error e =>
    simp only [reduceCtorEq, false_iff, not_exists, not_and]
    intro l mode? hopens
    rw [openFile_eq_ok_iff.2 ⟨l, mode?, hopens, rfl⟩] at ho
    cases ho
  | ok f =>
    obtain ⟨l, mode?, hopens, hf⟩ := openFile_eq_ok_iff.1 ho
    have hfinish {g : OpenFile} : f.finish text care = .ok g ↔
        d.Finishes text l mode? ∧ g = ⟨d, l, text.toUTF8, .ownerOnly⟩ := by
      rw [finish_eq_ok_iff, hf, Finishes, mayChange_getD, and_assoc]
    simp only [bind, Except.bind]
    constructor
    · intro h
      cases hg : f.finish text care with
      | error e => rw [hg] at h; cases h
      | ok g =>
        obtain ⟨hok, rfl⟩ := hfinish.1 hg
        rw [hg] at h
        cases h
        exact ⟨l, mode?, hopens, hok, rfl⟩
    · rintro ⟨l', mode?', hopens', hok, rfl⟩
      obtain ⟨rfl, rfl⟩ := hopens.unique hopens'
      rw [hfinish.2 ⟨hok, rfl⟩]
      rfl

/-- A file at a path is open and cannot be finished: it is left with a part of the text. -/
inductive Spoils (d : Disk) (path text : String) : Disk → Prop
  | intro {l : Location} {mode? : Option Mode} {mode : Mode} (size : Nat)
      (ho : d.Opens path l mode?) (hf : ¬ d.Finishes text l mode?)
      (hm : (∀ m ∈ mode?, mode = m) ∨ mode = .ownerOnly) :
      Spoils d path text (d.put l (.file (text.toUTF8.extract 0 size) mode))

/-- A text that cannot be written is not begun, or its file is spoilt: it cannot be given to its owner,
or there is no room. -/
theorem writeText_eq_error (h : d.writeText care path text = .error failed) :
    failed.left = d ∧ (∀ l mode?, ¬ d.Opens path l mode?) ∨
      d.Spoils path text failed.left ∧ ∃ l mode?, d.Opens path l mode? ∧
        (failed.cause = .notPermitted ∧ (¬ ∀ mode ∈ mode?, d.system.mayChange mode = true) ∨
          failed.cause = .noSpace ∧ ¬ d.system.Takes l text) := by
  have hno {l : Location} {mode? : Option Mode} (ho : d.Opens path l mode?) :
      ¬ d.Finishes text l mode? := fun hf => by
    rw [writeText_eq_ok_iff.2 ⟨l, mode?, ho, hf, rfl⟩] at h
    cases h
  unfold writeText at h
  cases ho : d.openFile path care.bits with
  | error e =>
    rw [ho] at h
    cases h
    refine .inl ⟨rfl, fun l mode? hopens => ?_⟩
    rw [openFile_eq_ok_iff.2 ⟨l, mode?, hopens, rfl⟩] at ho
    cases ho
  | ok f =>
    obtain ⟨l, mode?, hopens, hf⟩ := openFile_eq_ok_iff.1 ho
    rw [ho] at h
    simp only [bind, Except.bind] at h
    cases hg : f.finish text care with
    | ok g => rw [hg] at h; cases h
    | error e =>
      rw [hg] at h
      cases h
      obtain ⟨hcause, size, mode, hm, hleft⟩ := finish_eq_error (by rw [hf]) hg
      rw [hf] at hcause
      refine .inr ⟨?_, l, mode?, hopens, hcause.imp_left fun ⟨hc, hno⟩ => ⟨hc, fun hmay => ?_⟩⟩
      · rw [hleft, hf]
        refine .intro size hopens (hno hopens) (hm.imp_left ?_)
        rintro rfl m hm
        rw [hf, Option.mem_def.1 hm]
        rfl
      · rw [mayChange_getD.2 hmay] at hno
        cases hno

theorem save_eq_ok_iff :
    d.save care path text = .ok d' ↔
      ∃ d₁ l mode?, d.makeParents path = .ok d₁ ∧ d₁.Opens path l mode? ∧
        d₁.Finishes text l mode? ∧ d' = d₁.put l (.file text.toUTF8 .ownerOnly) := by
  unfold save
  cases d.makeParents path with
  | error e => simp
  | ok d₁ => simp [writeText_eq_ok_iff]

/-- What a save leaves that fails before a file is open: some of the directories, or all of them. -/
inductive Stops (d : Disk) (path : String) : Disk → Prop
  | noWay {cause : FileError} (hp : d.makeParents path = .error cause) :
      Stops d path (d.leftByParents path)
  | shut {d₁ : Disk} (hp : d.makeParents path = .ok d₁) (hno : ∀ l mode?, ¬ d₁.Opens path l mode?) :
      Stops d path d₁

theorem Stops.gains (h : d.Stops path d') : d.Gains d' := by
  cases h with
  | noWay hp => exact (madeAbove_leftByParents d path).gains
  | shut hp => exact gains_makeParents hp

/-- A save stops before a file is open, unless the file cannot be given to its owner or has no room. -/
theorem stops_of_save_eq_error (h : d.save care path text = .error failed)
    (hpermitted : failed.cause ≠ .notPermitted) (hspace : failed.cause ≠ .noSpace) :
    d.Stops path failed.left := by
  unfold save at h
  cases hp : d.makeParents path with
  | error e =>
    rw [hp] at h
    cases h
    exact .noWay hp
  | ok d₁ =>
    rw [hp] at h
    rcases writeText_eq_error h with ⟨hleft, hno⟩ | ⟨-, l, mode?, -, ⟨hc, -⟩ | ⟨hc, -⟩⟩
    · rw [hleft]
      exact .shut hp hno
    · exact absurd hc hpermitted
    · exact absurd hc hspace

/-! ## Where files can be written -/

/-- The file at a path can be written, and the directories that lead to it can be made. -/
def Writable (d : Disk) (path : String) : Prop := ∀ care text, ∃ d', d.save care path text = .ok d'

/-- A file that has been saved is there, with its text, for its owner only. -/
theorem entry_save (h : d.save care path text = .ok d') :
    d'.entry path = .ok (.file text.toUTF8 .ownerOnly) := by
  obtain ⟨d₁, l, mode?, -, ho, -, rfl⟩ := save_eq_ok_iff.1 h
  exact ho.entry_put

/-- Where a file is put that the user may change, it can be opened again. -/
theorem opens_put (h : d.Opens path l mode?) :
    (d.put l (.file content .ownerOnly)).Opens path l (some .ownerOnly) :=
  .there (locate_of_within (within_put h.find?_ne) h.locate)
    (find?_put_self h.ne_nil h.find?_dropLast) (by simp)

/-- A file that has been saved can be saved again, and then its disk is as if the first text had never
been written. -/
theorem exists_save_of_save (h : d.save care path text = .ok d')
    (ht : d.system.Takes (d.destination path) text') :
    ∃ d'', d.save care path text' = .ok d'' ∧ d'.save care path text' = .ok d'' := by
  obtain ⟨d₁, l, mode?, hp, ho, ⟨hc, -⟩, rfl⟩ := save_eq_ok_iff.1 h
  have hgains := (gains_makeParents hp).kept
  have htakes : d₁.system.Takes l text' := by
    rw [ho.eq_destination, destination_congr hgains.current, ← hgains.system]
    exact ht
  refine ⟨d₁.put l (.file text'.toUTF8 .ownerOnly), save_eq_ok_iff.2
    ⟨d₁, l, mode?, hp, ho, ⟨hc, htakes⟩, rfl⟩, save_eq_ok_iff.2 ⟨_, l, _,
      makeParents_again hp (within_put ho.find?_ne), opens_put ho, ⟨?_, htakes⟩, ?_⟩⟩
  · rintro m ⟨⟩
    simp
  · rw [put_put]

/-- What has been saved fitted. -/
theorem takes_of_save (h : d.save care path text = .ok d') :
    d.system.Takes (d.destination path) text := by
  obtain ⟨d₁, l, mode?, hp, ho, ⟨-, ht⟩, -⟩ := save_eq_ok_iff.1 h
  have hgains := (gains_makeParents hp).kept
  rwa [ho.eq_destination, destination_congr hgains.current, ← hgains.system] at ht

/-- After a save, another one does what it would have done in its place. -/
theorem save_save_iff (h : d.save care path text = .ok d') :
    d'.save care path text' = .ok d₁ ↔ d.save care path text' = .ok d₁ := by
  have hsystem : d'.system = d.system ∧ d'.destination path = d.destination path := by
    obtain ⟨d₂, l, mode?, hp, -, -, rfl⟩ := save_eq_ok_iff.1 h
    have hgains := (gains_makeParents hp).kept
    exact ⟨hgains.system.symm, destination_congr hgains.current path⟩
  constructor <;> intro hs <;> have htakes := takes_of_save hs
  · rw [hsystem.1, hsystem.2] at htakes
    obtain ⟨d₂, hone, htwo⟩ := exists_save_of_save h htakes
    rwa [Except.ok.inj (hs.symm.trans htwo)]
  · obtain ⟨d₂, hone, htwo⟩ := exists_save_of_save h htakes
    rwa [Except.ok.inj (hs.symm.trans hone)]

/-- Where one text has been saved, another one is saved unless there is no room for it. -/
theorem noSpace_of_save (h : d.save care path text = .ok d')
    (hs : d.save care path text' = .error failed) : failed.cause = .noSpace := by
  obtain ⟨d₁, l, mode?, hp, ho, ⟨hmay, -⟩, -⟩ := save_eq_ok_iff.1 h
  simp only [save, hp] at hs
  rcases writeText_eq_error hs with ⟨-, hno⟩ | ⟨-, l', mode?', ho', ⟨-, hno⟩ | ⟨hc, -⟩⟩
  · exact absurd ho (hno l mode?)
  · obtain ⟨rfl, rfl⟩ := ho.unique ho'
    exact absurd hmay hno
  · exact hc

/-- How a file comes to be for its owner only does not matter where it does. -/
theorem save_care (h : d.save care path text = .ok d') (care' : Care) :
    d.save care' path text = .ok d' :=
  save_eq_ok_iff.2 (save_eq_ok_iff.1 h)

theorem Writable.save (hw : d.Writable path) (h : d.save care path text = .ok d') :
    d'.Writable path := by
  intro care' text'
  obtain ⟨d'', htakes⟩ := hw care text'
  obtain ⟨d₃, -, hs⟩ := exists_save_of_save h (takes_of_save htakes)
  exact ⟨d₃, save_care hs care'⟩

/-! ## Disks where open files are finished -/

/-- Whatever is written to the file at a path is written in full, once the file is open. -/
structure Whole (d : Disk) (path : String) : Prop where
  room : d.system.room (d.destination path) = none
  owned : ∀ content mode, d.find? (d.destination path) = some (.file content mode) →
    d.system.mayWrite mode = true → d.system.mayChange mode = true

theorem Whole.takes (h : d.Whole path) (text : String) :
    d.system.Takes (d.destination path) text := by
  simp [System.Takes, h.room]

/-- On a disk with room everywhere, whose files are the user's own, every open file is finished. -/
theorem whole_of_owned (hroom : d.system.room (d.destination path) = none)
    (howned : ∀ x ∈ d.entries, ∀ content mode, x.2 = .file content mode → mode.user = .owner) :
    d.Whole path := by
  refine ⟨hroom, fun content mode hf _ => ?_⟩
  rcases mem_of_find? hf with hdir | hmem
  · cases hdir
  · simp [System.mayChange, howned _ hmem _ _ rfl]

theorem Whole.of_gains (h : d.Whole path) (hg : d.Gains d') : d'.Whole path := by
  have hsystem := hg.kept.system
  have hdest := destination_congr hg.kept.current path
  refine ⟨by rw [hdest, ← hsystem, h.room], fun content mode hf => ?_⟩
  rw [hdest, hg.file_iff] at hf
  rw [← hsystem]
  exact h.owned content mode hf

theorem Whole.finishes (h : d.Whole path) (ho : d.Opens path l mode?) : d.Finishes text l mode? := by
  have hl := ho.eq_destination
  refine ⟨?_, hl ▸ h.takes text⟩
  cases ho with
  | new => rintro m ⟨⟩
  | there ht hf hw =>
    rintro m ⟨⟩
    exact h.owned _ _ (hl ▸ hf) hw

theorem Whole.not_spoils (h : d.Whole path) (hg : d.Gains d₁) : ¬ d₁.Spoils path text d' := by
  rintro ⟨size, ho, hf, -⟩
  exact hf ((h.of_gains hg).finishes ho)

/-- Where a file can be opened, every text can be written then. -/
theorem Whole.writable (h : d.Whole path) (hp : d.makeParents path = .ok d₁)
    (ho : d₁.Opens path l mode?) : d.Writable path := fun _ _ =>
  ⟨_, save_eq_ok_iff.2 ⟨d₁, l, mode?, hp, ho, (h.of_gains (gains_makeParents hp)).finishes ho, rfl⟩⟩

theorem Whole.save (h : d.Whole path) (hs : d.save care path text = .ok d') : d'.Whole path := by
  obtain ⟨d₁, l, mode?, hp, ho, -, rfl⟩ := save_eq_ok_iff.1 hs
  have hwhole := h.of_gains (gains_makeParents hp)
  refine ⟨hwhole.room, fun content mode hf hw => ?_⟩
  have hdest : (d₁.put l (.file text.toUTF8 .ownerOnly)).destination path = l :=
    ho.eq_destination.symm
  rw [hdest, find?_put_self ho.ne_nil ho.find?_dropLast] at hf
  cases hf
  simp

end Disk

end SessionGuard
