import SessionGuard.Proofs.Disk.Left

/-!
# What a save leaves alone

A save puts a file at the destination of its path, and makes the directories that lead there.  Where
these are there, another path shows what it showed (`Touches.spares_of_leads`); where they are not, no
path into the same directory showed anything, and none but that of the file does afterwards
(`Touches.spares_of_beside`).  It makes no difference whether the save is done or fails.
-/

namespace SessionGuard

namespace Disk

open SessionGuard.Path (parent?)

variable {d d' d₁ left : Disk} {l : Location} {path other up text : String} {e : Entry} {care : Care}

/-- A path shows on a disk what it shows on another one, of the same system. -/
structure Spares (d d' : Disk) (path : String) : Prop where
  system : d.system = d'.system
  entry_iff : ∀ e, d'.entry path = .ok e ↔ d.entry path = .ok e

namespace Spares

theorem refl (d : Disk) (path : String) : d.Spares d path := ⟨rfl, fun _ => .rfl⟩

theorem trans (h : d.Spares d₁ path) (h' : d₁.Spares d' path) : d.Spares d' path :=
  ⟨h.system.trans h'.system, fun e => (h'.entry_iff e).trans (h.entry_iff e)⟩

theorem of_missing (hs : d.system = d'.system) (h : ∀ e, d.entry path ≠ .ok e)
    (h' : ∀ e, d'.entry path ≠ .ok e) : d.Spares d' path :=
  ⟨hs, fun e => ⟨fun he => absurd he (h' e), fun he => absurd he (h e)⟩⟩

theorem of_entry (hs : d.system = d'.system) (h : d.entry path = .ok e)
    (h' : d'.entry path = .ok e) : d.Spares d' path :=
  ⟨hs, fun found => by rw [h, h']⟩

theorem pathExists (h : d.Spares d' path) : d'.pathExists path = d.pathExists path := by
  unfold Disk.pathExists
  cases he : d.entry path with
  | ok e => rw [(h.entry_iff e).2 he]
  | error cause =>
    cases he' : d'.entry path with
    | ok e => rw [(h.entry_iff e).1 he'] at he; cases he
    | error cause => rfl

theorem readText (h : d.Spares d' path) (hp : d.pathExists path = true) :
    d'.readText path = d.readText path := by
  unfold Disk.pathExists at hp
  unfold Disk.readText
  cases he : d.entry path with
  | ok e => rw [(h.entry_iff e).2 he, h.system]
  | error cause => rw [he] at hp; cases hp

end Spares

/-- A file put in place of no directory changes what is shown by the paths to it alone. -/
theorem spares_put {content : ByteArray} {mode : Mode} (hl : d.find? l ≠ some .directory)
    (hup : d.find? l.dropLast = some .directory) (hne : d.destination path ≠ l) :
    d.Spares (d.put l (.file content mode)) path := by
  have hwithin : d.Within (d.put l (.file content mode)) := within_put hl
  have hback : (d.put l (.file content mode)).Within d := by
    refine ⟨rfl, fun m hm => ?_⟩
    by_cases hml : m = l
    · rw [hml, find?_put_self (ne_nil_of_find? hl) hup] at hm
      cases hm
    · rwa [find?_put_of_ne hl hml] at hm
  have hfind {t : Target} (ht : d.locate path = .ok t) :
      (d.put l (.file content mode)).find? t.location = d.find? t.location :=
    find?_put_of_ne hl (by rwa [(locate_eq_ok ht).2.2.1])
  refine ⟨rfl, fun e => ?_⟩
  rw [entry_eq_ok_iff, entry_eq_ok_iff]
  constructor
  · rintro ⟨t, ht, hf, ha⟩
    have ht := locate_of_within hback ht
    exact ⟨t, ht, by rwa [← hfind ht], ha⟩
  · rintro ⟨t, ht, hf, ha⟩
    exact ⟨t, locate_of_within hwithin ht, by rwa [hfind ht], ha⟩

/-! ## What a save touches -/

/-- What a save comes to, be it done or not: some of the directories, all of them, or all of them and
a file. -/
inductive Touches (d : Disk) (path : String) : Disk → Prop
  | noWay {cause : FileError} (hp : d.makeParents path = .error cause) :
      Touches d path (d.leftByParents path)
  | made {d₁ : Disk} (hp : d.makeParents path = .ok d₁) : Touches d path d₁
  | put {d₁ : Disk} {l : Location} {mode? : Option Mode} {content : ByteArray} {mode : Mode}
      (hp : d.makeParents path = .ok d₁) (ho : d₁.Opens path l mode?) :
      Touches d path (d₁.put l (.file content mode))

theorem touches_save (h : d.save care path text = .ok d') : d.Touches path d' := by
  obtain ⟨d₁, l, mode?, hp, ho, -, rfl⟩ := save_eq_ok_iff.1 h
  exact .put hp ho

theorem Spoils.touches (hs : d₁.Spoils path text left) (hp : d.makeParents path = .ok d₁) :
    d.Touches path left := by
  cases hs with
  | intro size ho => exact .put hp ho

namespace Touches

/-- Directories have been made, or a file has been put in place of no directory. -/
theorem cases_gains (h : d.Touches path d') :
    MadeAbove path d d' ∨ ∃ d₁ l mode? content mode, MadeAbove path d d₁ ∧
      d₁.Opens path l mode? ∧ d' = d₁.put l (.file content mode) := by
  cases h with
  | noWay => exact .inl (madeAbove_leftByParents d path)
  | made hp => exact .inl (madeAbove_makeParents hp)
  | put hp ho => exact .inr ⟨_, _, _, _, _, madeAbove_makeParents hp, ho, rfl⟩

/-- No directory is taken away. -/
theorem within (h : d.Touches path d') : d.Within d' := by
  rcases h.cases_gains with hm | ⟨d₁, l, mode?, content, mode, hm, ho, rfl⟩
  · exact hm.gains.kept.within
  · have hx := hm.gains.kept.within
    have hput := within_put (e := .file content mode) ho.find?_ne
    exact ⟨hx.1.trans hput.1, fun m hm => hput.2 m (hx.2 m hm)⟩

theorem system (h : d.Touches path d') : d.system = d'.system := by
  rcases h.cases_gains with hm | ⟨d₁, l, mode?, content, mode, hm, ho, rfl⟩ <;>
    exact hm.gains.kept.system

/-- All files but the one at the path are as they were. -/
theorem file_iff_of_ne {content : ByteArray} {mode : Mode} (h : d.Touches path d')
    (hl : l ≠ d.destination path) :
    d'.find? l = some (.file content mode) ↔ d.find? l = some (.file content mode) := by
  rcases h.cases_gains with hm | ⟨d₁, l', mode?, content', mode', hm, ho, rfl⟩
  · exact hm.gains.file_iff
  · rw [find?_put_of_ne ho.find?_ne, hm.gains.file_iff]
    rwa [ho.eq_destination, destination_congr hm.gains.kept.current]

/-- Other paths are spared, if they are by the directories that have been made. -/
theorem spares (h : d.Touches path d') (hne : d.destination other ≠ d.destination path)
    (hmade : ∀ d₁, MadeAbove path d d₁ → d.Spares d₁ other) : d.Spares d' other := by
  rcases h.cases_gains with hm | ⟨d₁, l, mode?, content, mode, hm, ho, rfl⟩
  · exact hmade _ hm
  · have hcurrent := hm.gains.kept.current
    refine (hmade _ hm).trans (spares_put ho.find?_ne ho.find?_dropLast ?_)
    rwa [ho.eq_destination, destination_congr hcurrent, destination_congr hcurrent]

/-- Files and directories that are there elsewhere are spared. -/
theorem entry_of_ne (h : d.Touches path d') (hne : d.destination other ≠ d.destination path)
    (he : d.entry other = .ok e) : d'.entry other = .ok e :=
  ((h.spares hne fun _ hm =>
    .of_entry hm.gains.kept.system he (entry_of_extends hm.gains.kept he)).entry_iff e).2 he

/-- Other paths are spared, if all directories on the way are there. -/
theorem spares_of_leads (h : d.Touches path d') (hway : ∀ up, parent? path = some up → d.Leads up)
    (hne : d.destination other ≠ d.destination path) : d.Spares d' other := by
  have hthere := makeParents_of_leads hway
  cases h with
  | noWay hp => cases hthere.symm.trans hp
  | made hp =>
    cases hthere.symm.trans hp
    exact .refl d other
  | put hp ho =>
    cases hthere.symm.trans hp
    exact spares_put ho.find?_ne ho.find?_dropLast (by rwa [ho.eq_destination])

end Touches

/-! ## Paths that start nowhere -/

theorem start_of_parent? (hup : parent? path = some up) : d.start up = d.start path := by
  simp only [start, (Path.parent?_eq_some hup).2]

theorem start_of_above (h : Above path up) : d.start up = d.start path := by
  induction h with
  | single hup => exact start_of_parent? hup
  | head hup _ ih => exact ih.trans (start_of_parent? hup)

/-- No directory is made on a path that starts in no directory. -/
theorem Makes.eq_of_start (h : d.Makes path d')
    (hstart : d.find? (d.start path) ≠ some .directory) : d' = d := by
  rcases h with hm | ⟨rfl, -⟩
  · obtain ⟨t, ht, -⟩ := makeDirectory_eq_ok hm
    exact absurd (locate_eq_ok ht).2.1 hstart
  · rfl

theorem makeDirectoriesWithin_of_start {fuel : Nat}
    (h : makeDirectoriesWithin fuel d path = .ok d')
    (hstart : d.find? (d.start path) ≠ some .directory) : d' = d := by
  induction fuel generalizing d' path with
  | zero => cases h
  | succ fuel ih =>
    rcases makeDirectoriesWithin_cases h with hmakes | ⟨up, d₁, hup, hu, hmakes⟩
    · exact hmakes.eq_of_start hstart
    · obtain rfl := ih hu (by rwa [start_of_parent? hup])
      exact hmakes.eq_of_start hstart

/-- Nor is any file written. -/
theorem Touches.eq_of_start (h : d.Touches path d')
    (hstart : d.find? (d.start path) ≠ some .directory) : d' = d := by
  have hmade {d₁ : Disk} (hm : MadeAbove path d d₁) : d₁ = d := by
    rcases hm with rfl | ⟨up, fuel, hup, hm⟩
    · rfl
    · exact makeDirectoriesWithin_of_start hm (by rwa [start_of_above hup])
  rcases h.cases_gains with hm | ⟨d₁, l, mode?, content, mode, hm, ho, rfl⟩
  · exact hmade hm
  · obtain rfl := hmade hm
    exact absurd (locate_eq_ok ho.locate).2.1 hstart

/-! ## Paths into one directory -/

/-- A path that goes up nowhere leads into a directory, by the path above it. -/
structure Beside (d : Disk) (path : String) (l : Location) : Prop where
  straight : ".." ∉ steps path
  above : ∃ up, parent? path = some up ∧ d.destination up = l
  name : ∃ name, d.destination path = l ++ [name]

/-- A path with no steps but dots leads to where it starts. -/
theorem exists_locate_of_dots (hp : path.isEmpty = false)
    (hstart : d.find? (d.start path) = some .directory) (h : ∀ t ∈ steps path, t = ".") :
    ∃ t, d.locate path = .ok t := by
  have hfold (parts : List String) (h : ∀ t ∈ parts, t = ".") (l : Location) :
      parts.foldlM d.enter l = .ok l := by
    induction parts with
    | nil => rfl
    | cons part parts ih =>
      rw [List.foldlM_cons, h part (by simp)]
      exact ih fun t ht => h t (by simp [ht])
  exact exists_locate hp hstart
    (hfold _ (fun t ht => h t ((List.dropLast_sublist _).subset ht)) _)

theorem not_entry_empty (e : Entry) : d.entry "" ≠ .ok e := nofun

theorem beside_of_parent? (hup : parent? path = some up) (hs : ".." ∉ steps path)
    (hn : ∃ t ∈ steps path, t ≠ ".") : d.Beside path (d.destination up) := by
  refine ⟨hs, ⟨up, hup, rfl⟩, ?_⟩
  obtain ⟨t, ht, hne⟩ := hn
  rcases (destination_of_parent? hup hs).2 with ⟨hdots, -⟩ | hname
  · exact absurd (hdots t ht) hne
  · exact hname

/-- Nothing is in a directory that is missing. -/
theorem Beside.find?_eq_none (h : d.Beside path l) (hl : d.find? l ≠ some .directory) :
    d.find? (d.destination path) = none := by
  obtain ⟨name, hname⟩ := h.name
  cases hf : d.find? (d.destination path) with
  | none => rfl
  | some e =>
    have hdir := find?_dropLast hf
    rw [hname, List.dropLast_concat] at hdir
    exact absurd hdir hl

/-- The other paths into the directory of a file are spared. -/
theorem Touches.spares_of_beside (h : d.Touches path d') (hp : d.Beside path l)
    (ho : d.Beside other l) (hne : d.destination other ≠ d.destination path) :
    d.Spares d' other := by
  obtain ⟨up, hup, rfl⟩ := hp.above
  obtain ⟨hsup, -⟩ := destination_of_parent? (d := d) hup hp.straight
  by_cases hdir : d.find? (d.destination up) = some .directory
  · refine h.spares_of_leads (fun up' hup' => ?_) hne
    cases hup.symm.trans hup'
    exact leads_of_find? hsup hdir
  · have hnone := ho.find?_eq_none hdir
    refine h.spares hne fun d₁ hm => .of_missing hm.gains.kept.system (entry_ne_ok hnone)
      (entry_ne_ok ?_)
    rw [destination_congr hm.gains.kept.current]
    rcases hm with rfl | ⟨top, fuel, htop, hmade⟩
    · exact hnone
    · cases hf : d₁.find? (d.destination other) with
      | none => rfl
      | some e =>
        -- the directories that are made end above the other path
        have htop' : ".." ∉ steps top ∧ d.destination top <+: d.destination up := by
          cases htop with
          | single hup' =>
            cases hup.symm.trans hup'
            exact ⟨hsup, List.prefix_rfl⟩
          | head hup' htop =>
            cases hup.symm.trans hup'
            exact destination_of_above htop hsup
        rcases find?_makeDirectoriesWithin hmade htop'.1 hf with hold | ⟨-, hmade⟩
        · rw [hnone] at hold
          cases hold
        · obtain ⟨name, hname⟩ := ho.name
          have hlength := (hmade.trans htop'.2).length_le
          rw [hname, List.length_append, List.length_singleton] at hlength
          omega

end Disk

end SessionGuard
