import SessionGuard.Proofs.Disk.Lookup

/-!
# Making directories

Making directories takes nothing away (`Extends`) and makes nothing else (`Gains`), on the way of the
path and nowhere else (`find?_makeDirectoriesWithin`).  Where a directory cannot be made, those that
lead to some path above it may have been made (`madeAbove_leftByParents`).
-/

namespace SessionGuard.Disk

open SessionGuard.Path (parent?)

variable {d d' d'' : Disk} {l : Location} {path up : String} {e : Entry} {content : ByteArray}
  {mode : Mode} {fuel : Nat} {cause : FileError}

/-! ## Disks with more on them -/

/-- All entries of a disk are on another one, of the same system. -/
structure Extends (d d' : Disk) : Prop where
  current : d.current = d'.current
  system : d.system = d'.system
  find? : ∀ l e, d.find? l = some e → d'.find? l = some e

theorem Extends.refl (d : Disk) : d.Extends d := ⟨rfl, rfl, fun _ _ h => h⟩

theorem Extends.trans (h : d.Extends d') (h' : d'.Extends d'') : d.Extends d'' :=
  ⟨h.current.trans h'.current, h.system.trans h'.system,
    fun l e hl => h'.find? l e (h.find? l e hl)⟩

theorem Extends.within (h : d.Extends d') : d.Within d' :=
  ⟨h.current, fun l => h.find? l .directory⟩

theorem extends_put (h : d.find? l = none) : d.Extends (d.put l e) := by
  refine ⟨rfl, rfl, fun m e' hm => ?_⟩
  rwa [find?_put_of_ne (by simp [h])]
  rintro rfl
  rw [h] at hm
  cases hm

theorem entry_of_extends (h : d.Extends d') (he : d.entry path = .ok e) : d'.entry path = .ok e := by
  obtain ⟨t, ht, hf, ha⟩ := entry_eq_ok_iff.1 he
  exact entry_eq_ok_iff.2 ⟨t, locate_of_within h.within ht, h.find? _ _ hf, ha⟩

/-- A disk has gained directories and nothing else. -/
structure Gains (d d' : Disk) : Prop where
  kept : d.Extends d'
  gained : ∀ l e, d'.find? l = some e → d.find? l = some e ∨ e = .directory

namespace Gains

theorem refl (d : Disk) : d.Gains d := ⟨.refl d, fun _ _ h => .inl h⟩

theorem trans (h : d.Gains d') (h' : d'.Gains d'') : d.Gains d'' := by
  refine ⟨h.kept.trans h'.kept, fun l e hl => ?_⟩
  rcases h'.gained l e hl with hl | he
  · exact h.gained l e hl
  · exact .inr he

/-- The files are the same. -/
theorem file_iff (h : d.Gains d') :
    d'.find? l = some (.file content mode) ↔ d.find? l = some (.file content mode) := by
  refine ⟨fun hl => ?_, h.kept.find? l _⟩
  rcases h.gained l _ hl with hl | he
  · exact hl
  · cases he

end Gains

/-! ## Directories that are made -/

theorem makeDirectory_eq_ok (h : d.makeDirectory path = .ok d') :
    ∃ t, d.locate path = .ok t ∧ d.find? t.location = none ∧
      d' = d.put t.location .directory := by
  unfold makeDirectory at h
  cases ht : d.locate path with
  | error e => rw [ht] at h; cases h
  | ok t =>
    rw [ht] at h
    simp only [bind, Except.bind] at h
    split at h
    · cases h
    · next hf =>
      split at h
      · cases h
      · cases h
        exact ⟨t, rfl, hf, rfl⟩

/-- A directory is made at a path, or there is nothing to make. -/
def Makes (d : Disk) (path : String) (d' : Disk) : Prop :=
  d.makeDirectory path = .ok d' ∨ d' = d ∧ (path.isEmpty = true ∨ d.isDirectory path = true)

theorem Makes.extends (h : d.Makes path d') :
    d.Extends d' ∧ (path.isEmpty = true ∨ d'.isDirectory path = true) := by
  rcases h with hm | ⟨rfl, hd⟩
  · obtain ⟨t, ht, hf, rfl⟩ := makeDirectory_eq_ok hm
    have hx : d.Extends (d.put t.location .directory) := extends_put hf
    have hne : d.find? t.location ≠ some .directory := by simp [hf]
    refine ⟨hx, .inr ?_⟩
    rw [isDirectory_iff, entry_eq_directory_iff]
    exact ⟨t, locate_of_within hx.within ht,
      find?_put_self (ne_nil_of_find? hne) (find?_dropLast_of_locate ht hne)⟩
  · exact ⟨.refl d', hd⟩

theorem Makes.find? (h : d.Makes path d') (hl : d'.find? l = some e) :
    d.find? l = some e ∨ e = .directory ∧ l <+: d.destination path := by
  rcases h with h | ⟨rfl, -⟩
  · obtain ⟨t, ht, hf, rfl⟩ := makeDirectory_eq_ok h
    have hne : d.find? t.location ≠ some .directory := by simp [hf]
    rw [← (locate_eq_ok ht).2.2.1]
    by_cases hlt : l = t.location
    · subst hlt
      rw [find?_put_self (ne_nil_of_find? hne) (find?_dropLast_of_locate ht hne)] at hl
      cases hl
      exact .inr ⟨rfl, List.prefix_rfl⟩
    · rw [find?_put_of_ne hne hlt] at hl
      exact .inl hl
  · exact .inl hl

theorem Makes.gains (h : d.Makes path d') : d.Gains d' :=
  ⟨h.extends.1, fun _ _ hl => (h.find? hl).imp_right And.left⟩

/-- A directory is made on the disk as it is, or where those above it have been made. -/
theorem makeDirectoriesWithin_cases (h : makeDirectoriesWithin (fuel + 1) d path = .ok d') :
    d.Makes path d' ∨ ∃ up d₁, parent? path = some up ∧
      makeDirectoriesWithin fuel d up = .ok d₁ ∧ d₁.Makes path d' := by
  unfold makeDirectoriesWithin at h
  split at h
  · next hp =>
    cases h
    exact .inl (.inr ⟨rfl, .inl hp⟩)
  · split at h
    · next hm =>
      cases h
      exact .inl (.inl hm)
    · split at h
      · cases h
      · next up hup =>
        cases hu : makeDirectoriesWithin fuel d up with
        | error e => rw [hu] at h; cases h
        | ok d₁ =>
          rw [hu] at h
          refine .inr ⟨up, d₁, hup, hu, ?_⟩
          simp only [bind, Except.bind] at h
          split at h
          · next hm =>
            cases h
            exact .inl hm
          · split at h
            · next hd =>
              cases h
              exact .inr ⟨rfl, .inr hd⟩
            · cases h
    · split at h
      · next hd =>
        cases h
        exact .inl (.inr ⟨rfl, .inr hd⟩)
      · cases h

/-- Making directories leads to a directory. -/
theorem isDirectory_of_makeDirectoriesWithin (h : makeDirectoriesWithin fuel d path = .ok d') :
    path.isEmpty = true ∨ d'.isDirectory path = true := by
  cases fuel with
  | zero => cases h
  | succ fuel =>
    rcases makeDirectoriesWithin_cases h with hmakes | ⟨up, d₁, -, -, hmakes⟩
    · exact hmakes.extends.2
    · exact hmakes.extends.2

theorem gains_makeDirectoriesWithin (h : makeDirectoriesWithin fuel d path = .ok d') :
    d.Gains d' := by
  induction fuel generalizing d d' path with
  | zero => cases h
  | succ fuel ih =>
    rcases makeDirectoriesWithin_cases h with hmakes | ⟨up, d₁, -, hu, hmakes⟩
    · exact hmakes.gains
    · exact (ih hu).trans hmakes.gains

/-- Directories are made on the way of the path. -/
theorem find?_makeDirectoriesWithin (h : makeDirectoriesWithin fuel d path = .ok d')
    (hs : ".." ∉ steps path) (hl : d'.find? l = some e) :
    d.find? l = some e ∨ e = .directory ∧ l <+: d.destination path := by
  induction fuel generalizing d d' path with
  | zero => cases h
  | succ fuel ih =>
    rcases makeDirectoriesWithin_cases h with hmakes | ⟨up, d₁, hup, hu, hmakes⟩
    · exact hmakes.find? hl
    · obtain ⟨hsup, hdest⟩ := destination_of_parent? (d := d) hup hs
      have hprefix : d.destination up <+: d.destination path := by
        rcases hdest with ⟨-, hdest⟩ | ⟨name, hdest⟩
        · exact hdest ▸ List.prefix_rfl
        · exact hdest ▸ List.prefix_append _ _
      have hcurrent := (gains_makeDirectoriesWithin hu).kept.current
      rcases hmakes.find? hl with hold | hnew
      · exact (ih hu hsup hold).imp_right fun h => ⟨h.1, h.2.trans hprefix⟩
      · rw [destination_congr hcurrent] at hnew
        exact .inr hnew

/-- Nothing is to be done for a directory that is there. -/
theorem makeDirectories_of_isDirectory (h : path.isEmpty = true ∨ d.isDirectory path = true) :
    d.makeDirectories path = .ok d := by
  unfold makeDirectories makeDirectoriesWithin
  by_cases hp : path.isEmpty = true
  · rw [if_pos hp]
  · have hd := h.resolve_left hp
    obtain ⟨t, ht, hf⟩ := entry_eq_directory_iff.1 (isDirectory_iff.1 hd)
    have hm : d.makeDirectory path = .error .alreadyExists := by
      simp [makeDirectory, ht, hf, bind, Except.bind]
    simp only [if_neg hp, hm, hd, if_true]

theorem gains_makeParents (h : d.makeParents path = .ok d') : d.Gains d' := by
  unfold makeParents at h
  split at h
  · exact gains_makeDirectoriesWithin h
  · cases h
    exact .refl d

/-- The directories that lead to a path are there once they have been made. -/
theorem makeParents_again (h : d.makeParents path = .ok d') (hx : d'.Within d'') :
    d''.makeParents path = .ok d'' := by
  unfold makeParents at h ⊢
  split
  · next up hup =>
    rw [hup] at h
    refine makeDirectories_of_isDirectory ?_
    exact (isDirectory_of_makeDirectoriesWithin h).imp_right (isDirectory_of_within hx)
  · rfl

theorem makeParents_of_leads (h : ∀ up, parent? path = some up → d.Leads up) :
    d.makeParents path = .ok d := by
  unfold makeParents
  cases hup : parent? path with
  | none => rfl
  | some up =>
    refine makeDirectories_of_isDirectory ?_
    cases hp : up.isEmpty with
    | true => exact .inl rfl
    | false => exact .inr (isDirectory_of_leads hp (h up hup))

/-- The directories that lead to an entry are there. -/
theorem makeParents_of_locate {t : Target} (ht : d.locate path = .ok t) :
    d.makeParents path = .ok d :=
  makeParents_of_leads fun _ => leads_of_locate ht

/-! ## Directories that cannot be made -/

/-- One path is above another one. -/
inductive Above : String → String → Prop
  | single {path up : String} (h : parent? path = some up) : Above path up
  | head {path up top : String} (h : parent? path = some up) (htop : Above up top) : Above path top

/-- A disk is as another one, or that with the directories that lead to some path above. -/
def MadeAbove (path : String) (d d' : Disk) : Prop :=
  d' = d ∨ ∃ up fuel, Above path up ∧ makeDirectoriesWithin fuel d up = .ok d'

theorem MadeAbove.gains (h : MadeAbove path d d') : d.Gains d' := by
  rcases h with rfl | ⟨up, fuel, -, h⟩
  · exact .refl _
  · exact gains_makeDirectoriesWithin h

theorem madeAbove_leftByDirectories (fuel : Nat) (d : Disk) (path : String) :
    MadeAbove path d (leftByDirectories fuel d path) := by
  induction fuel generalizing path with
  | zero => exact .inl rfl
  | succ fuel ih =>
    unfold leftByDirectories
    split
    · next up hm hup =>
      split
      · next d' hu => exact .inr ⟨up, fuel, .single hup, hu⟩
      · refine (ih up).imp_right ?_
        rintro ⟨top, fuel', htop, h⟩
        exact ⟨top, fuel', .head hup htop, h⟩
    · exact .inl rfl

theorem madeAbove_leftByParents (d : Disk) (path : String) :
    MadeAbove path d (d.leftByParents path) := by
  unfold leftByParents
  cases hup : parent? path with
  | none => exact .inl rfl
  | some up =>
    refine (madeAbove_leftByDirectories _ d up).imp_right ?_
    rintro ⟨top, fuel, htop, h⟩
    exact ⟨top, fuel, .head hup htop, h⟩

theorem madeAbove_makeParents (h : d.makeParents path = .ok d') : MadeAbove path d d' := by
  unfold makeParents at h
  split at h
  · next up hup => exact .inr ⟨up, _, .single hup, h⟩
  · cases h
    exact .inl rfl

/-- A path above one that goes up nowhere leads to it. -/
theorem destination_of_above (h : Above path up) (hs : ".." ∉ steps path) :
    ".." ∉ steps up ∧ d.destination up <+: d.destination path := by
  have hparent {path up : String} (hup : parent? path = some up) (hs : ".." ∉ steps path) :
      ".." ∉ steps up ∧ d.destination up <+: d.destination path := by
    obtain ⟨hsup, ⟨-, hdest⟩ | ⟨name, hdest⟩⟩ := destination_of_parent? (d := d) hup hs
    · exact ⟨hsup, hdest ▸ List.prefix_rfl⟩
    · exact ⟨hsup, hdest ▸ List.prefix_append _ _⟩
  induction h with
  | single hup => exact hparent hup hs
  | head hup _ ih =>
    obtain ⟨hsup, hwhole⟩ := hparent hup hs
    exact (ih hsup).imp_right fun h => h.trans hwhole

/-- A path has no more steps than characters. -/
theorem length_steps_le (path : String) : (steps path).length ≤ path.length := by
  suffices h : ∀ cs : List Char, (Path.shown (Text.splitAt '/' cs)).length ≤ cs.length from
    h path.toList
  intro cs
  induction cs with
  | nil => simp [Text.splitAt, Path.shown]
  | cons c cs ih =>
    obtain ⟨piece, pieces, hsplit⟩ := List.exists_cons_of_ne_nil (Text.splitAt_ne_nil '/' cs)
    rw [Text.splitAt]
    split
    · simp only [Path.shown, List.length_map, List.length_cons, List.filter_cons] at ih ⊢
      simp
      omega
    · rw [hsplit] at ih ⊢
      simp only [Path.shown, List.length_map, List.length_cons, List.filter_cons, List.isEmpty_cons,
        Bool.not_false, if_true] at ih ⊢
      split at ih
      · rw [List.length_cons] at ih
        omega
      · omega

/-- The path above has fewer steps. -/
theorem length_steps_lt (h : parent? path = some up) :
    (steps up).length < (steps path).length := by
  obtain ⟨⟨dots, name, dots', hsteps, -⟩, -⟩ := Path.parent?_eq_some h
  rw [hsteps]
  simp only [List.length_append, List.length_cons]
  omega

/-- No directory is where one cannot be made for a directory that is missing. -/
theorem isDirectory_of_missing (h : d.makeDirectory path = .error .missing) :
    d.isDirectory path = false := by
  rw [Bool.eq_false_iff, Ne, isDirectory_iff, entry_eq_directory_iff]
  rintro ⟨t, ht, hf⟩
  simp [makeDirectory, ht, hf, bind, Except.bind] at h

/-- A directory cannot be made and is not there afterwards, or the one above cannot be made. -/
theorem makeDirectoriesWithin_eq_error (h : makeDirectoriesWithin (fuel + 1) d path = .error cause) :
    path.isEmpty = false ∧
      ((leftByDirectories (fuel + 1) d path).isDirectory path = false ∨
        ∃ up cause', parent? path = some up ∧ makeDirectoriesWithin fuel d up = .error cause' ∧
          leftByDirectories (fuel + 1) d path = leftByDirectories fuel d up) := by
  unfold makeDirectoriesWithin at h
  rw [leftByDirectories]
  split at h
  · cases h
  · next hp =>
    refine ⟨by simpa using hp, ?_⟩
    split at h
    · cases h
    · next hm =>
      split at h
      · next hup => exact .inl (by simp only [hm, hup, isDirectory_of_missing hm])
      · next up hup =>
        simp only [hm, hup]
        cases hu : makeDirectoriesWithin fuel d up with
        | error cause' => exact .inr ⟨up, cause', rfl, hu, rfl⟩
        | ok d₁ =>
          rw [hu] at h
          simp only [bind, Except.bind] at h
          split at h
          · cases h
          · split at h
            · cases h
            · next hdir => exact .inl (by simpa using hdir)
    · next e hne hm =>
      split at h
      · cases h
      · next hdir =>
        rw [hm]
        cases e with
        | missing => exact absurd rfl hne
        | _ => exact .inl (by simpa using hdir)

/-- Where a directory cannot be made, there is none afterwards. -/
theorem isDirectory_leftByDirectories (hfuel : (steps path).length < fuel)
    (h : makeDirectoriesWithin fuel d path = .error cause) :
    path.isEmpty = false ∧ (leftByDirectories fuel d path).isDirectory path = false := by
  induction fuel generalizing path cause with
  | zero => cases hfuel
  | succ fuel ih =>
    obtain ⟨hp, hnot | ⟨up, cause', hup, hu, hleft⟩⟩ := makeDirectoriesWithin_eq_error h
    · exact ⟨hp, hnot⟩
    · have hlt := length_steps_lt hup
      obtain ⟨hempty, hnot⟩ := ih (by omega) hu
      refine ⟨hp, ?_⟩
      -- a path to a directory leads through the one above it
      rw [hleft, Bool.eq_false_iff, Ne, isDirectory_iff, entry_eq_directory_iff]
      rintro ⟨t, ht, -⟩
      rw [isDirectory_of_leads hempty (leads_of_locate ht hup)] at hnot
      cases hnot

/-- Where the directories that lead to a path cannot be made, the path leads nowhere afterwards. -/
theorem locate_leftByParents (h : d.makeParents path = .error cause) (t : Target) :
    (d.leftByParents path).locate path ≠ .ok t := by
  intro ht
  cases hup : parent? path with
  | none => simp [makeParents, hup] at h
  | some up =>
    simp only [makeParents, hup, makeDirectories] at h
    simp only [leftByParents, hup] at ht
    have hlength := length_steps_le up
    obtain ⟨hempty, hnot⟩ := isDirectory_leftByDirectories (by omega) h
    rw [isDirectory_of_leads hempty (leads_of_locate ht hup)] at hnot
    cases hnot

end SessionGuard.Disk
