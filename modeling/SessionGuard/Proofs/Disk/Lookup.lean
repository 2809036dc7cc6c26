import SessionGuard.Proofs.Disk.Entries
import SessionGuard.Proofs.Disk.Path

/-!
# Where paths lead

A path leads to its `destination` if it leads anywhere (`locate_eq_ok`), by directories, and what is
there stands in one (`find?_dropLast_of_locate`).  A path that goes up nowhere leads as far as there
are directories (`leads_of_find?`).  It leads to the same place on every disk that has these
directories (`locate_of_within`).
-/

namespace SessionGuard.Disk

open SessionGuard.Path (parent?)

variable {d d' : Disk} {l l' : Location} {path up part : String} {parts : List String}
  {t : Target} {e : Entry}

/-! ## Destinations -/

/-- Where a step leads, if it can be made. -/
def follow (l : Location) (part : String) : Location :=
  if part = "." then l else if part = ".." then l.dropLast else l ++ [part]

/-- Where a path leads, if all directories on its way are there. -/
def destination (d : Disk) (path : String) : Location := (steps path).foldl follow (d.start path)

/-- A path starts in a directory, and all its steps lead to directories. -/
def Leads (d : Disk) (path : String) : Prop :=
  d.find? (d.start path) = some .directory ∧
    ∃ l, (steps path).foldlM d.enter (d.start path) = .ok l

theorem start_congr (h : d.current = d'.current) (path : String) : d'.start path = d.start path := by
  simp only [start, h]

theorem destination_congr (h : d.current = d'.current) (path : String) :
    d'.destination path = d.destination path := by
  simp only [destination, start_congr h]

theorem follow_dot (l : Location) : follow l "." = l := rfl

theorem follow_name (hdot : part ≠ ".") (hdots : part ≠ "..") (l : Location) :
    follow l part = l ++ [part] := by
  simp [follow, hdot, hdots]

/-- A step stays, goes up, or goes on to a directory. -/
theorem enter_cases (h : d.enter l part = .ok l') :
    part = "." ∧ l' = l ∨ part = ".." ∧ l' = l.dropLast ∨
      part ≠ "." ∧ part ≠ ".." ∧ l' = l ++ [part] ∧ d.find? (l ++ [part]) = some .directory := by
  unfold enter at h
  split at h
  · next hp =>
    cases h
    exact .inl ⟨hp, rfl⟩
  · next hdot =>
    split at h
    · next hp =>
      cases h
      exact .inr (.inl ⟨hp, rfl⟩)
    · next hdots =>
      split at h
      · next hf =>
        cases h
        exact .inr (.inr ⟨hdot, hdots, rfl, hf⟩)
      · cases h
      · cases h

theorem eq_follow_of_enter (h : d.enter l part = .ok l') : l' = follow l part := by
  rcases enter_cases h with ⟨rfl, rfl⟩ | ⟨rfl, rfl⟩ | ⟨hdot, hdots, rfl, -⟩
  · rfl
  · rfl
  · rw [follow_name hdot hdots]

/-- A step from a directory leads to one. -/
theorem find?_of_enter (hl : d.find? l = some .directory) (h : d.enter l part = .ok l') :
    d.find? l' = some .directory := by
  rcases enter_cases h with ⟨-, rfl⟩ | ⟨-, rfl⟩ | ⟨-, -, rfl, hf⟩
  · exact hl
  · exact find?_dropLast hl
  · exact hf

theorem foldlM_enter_append {l₂ : Location} {more : List String}
    (h : (parts ++ more).foldlM d.enter l = .ok l₂) :
    ∃ l₁, parts.foldlM d.enter l = .ok l₁ ∧ more.foldlM d.enter l₁ = .ok l₂ := by
  rw [List.foldlM_append] at h
  cases hl : parts.foldlM d.enter l with
  | error e => rw [hl] at h; cases h
  | ok l₁ =>
    rw [hl] at h
    exact ⟨l₁, rfl, h⟩

theorem foldlM_enter_cons (h : (part :: parts).foldlM d.enter l = .ok l') :
    ∃ l₁, d.enter l part = .ok l₁ ∧ parts.foldlM d.enter l₁ = .ok l' := by
  have happend : ([part] ++ parts).foldlM d.enter l = .ok l' := h
  obtain ⟨l₁, hpart, hmore⟩ := foldlM_enter_append happend
  exact ⟨l₁, by simpa using hpart, hmore⟩

theorem eq_foldl_follow (h : parts.foldlM d.enter l = .ok l') : l' = parts.foldl follow l := by
  induction parts generalizing l with
  | nil => cases h; rfl
  | cons part parts ih =>
    obtain ⟨l₁, henter, hmore⟩ := foldlM_enter_cons h
    rw [ih hmore, eq_follow_of_enter henter, List.foldl_cons]

theorem find?_of_foldlM (hl : d.find? l = some .directory) (h : parts.foldlM d.enter l = .ok l') :
    d.find? l' = some .directory := by
  induction parts generalizing l with
  | nil => cases h; exact hl
  | cons part parts ih =>
    obtain ⟨l₁, henter, hmore⟩ := foldlM_enter_cons h
    exact ih (find?_of_enter hl henter) hmore

/-- Where nothing goes up, steps lead on. -/
theorem exists_foldl_follow (hs : ".." ∉ parts) (l : Location) :
    ∃ m, parts.foldl follow l = l ++ m := by
  induction parts generalizing l with
  | nil => exact ⟨[], by simp⟩
  | cons part parts ih =>
    simp only [List.mem_cons, not_or] at hs
    obtain ⟨m, hm⟩ := ih hs.2 (follow l part)
    rw [List.foldl_cons, hm]
    by_cases hdot : part = "."
    · exact ⟨m, by rw [hdot, follow_dot]⟩
    · exact ⟨part :: m, by simp [follow_name hdot (Ne.symm hs.1)]⟩

/-- Where nothing goes up, a way to a directory is a way by directories. -/
theorem foldlM_of_find? (hs : ".." ∉ parts) (h : d.find? (parts.foldl follow l) = some .directory) :
    parts.foldlM d.enter l = .ok (parts.foldl follow l) := by
  induction parts generalizing l with
  | nil => rfl
  | cons part parts ih =>
    simp only [List.mem_cons, not_or] at hs
    have hmore := ih hs.2 h
    have henter : d.enter l part = .ok (follow l part) := by
      by_cases hdot : part = "."
      · subst hdot
        rfl
      · have hname := follow_name hdot (Ne.symm hs.1) l
        obtain ⟨m, hm⟩ := exists_foldl_follow hs.2 (follow l part)
        rw [List.foldl_cons, hm] at h
        have hf := find?_of_append h
        rw [hname] at hf ⊢
        simp only [enter, hdot, Ne.symm hs.1, if_false, hf]
    rw [List.foldlM_cons, henter]
    exact hmore

theorem leads_of_find? (hs : ".." ∉ steps path)
    (h : d.find? (d.destination path) = some .directory) : d.Leads path := by
  obtain ⟨m, hm⟩ := exists_foldl_follow hs (d.start path)
  refine ⟨find?_of_append (m := m) ?_, _, foldlM_of_find? hs h⟩
  rwa [← hm]

/-! ## Look-ups -/

/-- A path that leads somewhere starts in a directory and leads to its destination, by
directories. -/
theorem locate_eq_ok (h : d.locate path = .ok t) :
    path.isEmpty = false ∧ d.find? (d.start path) = some .directory ∧
      t.location = d.destination path ∧
        ∃ l, (steps path).dropLast.foldlM d.enter (d.start path) = .ok l := by
  unfold locate at h
  split at h
  · cases h
  · next hp =>
    simp only [Bool.or_eq_true, bne_iff_ne, not_or, Bool.not_eq_true, Decidable.not_not] at hp
    refine ⟨hp.1, hp.2, ?_⟩
    simp only at h
    unfold destination
    split at h
    · next hlast =>
      cases h
      rw [List.getLast?_eq_none_iff.1 hlast]
      exact ⟨rfl, _, rfl⟩
    · next last hlast =>
      obtain ⟨init, hinit⟩ := List.getLast?_eq_some_iff.1 hlast
      rw [hinit, List.dropLast_concat] at h ⊢
      change (init.foldlM d.enter (d.start path) >>= _) = _ at h
      cases hl : init.foldlM d.enter (d.start path) with
      | error e => rw [hl] at h; cases h
      | ok l =>
        rw [hl] at h
        refine ⟨?_, l, rfl⟩
        rw [List.foldl_append, ← eq_foldl_follow hl]
        simp only [bind, Except.bind] at h
        simp only [List.foldl_cons, List.foldl_nil, follow]
        split at h
        · next hd => cases h; rw [if_pos hd]
        · next hd =>
          rw [if_neg hd]
          split at h
          · next hd => cases h; rw [if_pos hd]
          · next hd => cases h; rw [if_neg hd]

theorem exists_locate (hp : path.isEmpty = false) (hstart : d.find? (d.start path) = some .directory)
    (h : (steps path).dropLast.foldlM d.enter (d.start path) = .ok l) :
    ∃ t, d.locate path = .ok t := by
  unfold locate
  simp only [hp, hstart, bne_self_eq_false, Bool.or_self, Bool.false_eq_true, if_false]
  split
  · exact ⟨_, rfl⟩
  · rw [h]
    simp only [bind, Except.bind]
    split
    · exact ⟨_, rfl⟩
    · split <;> exact ⟨_, rfl⟩

/-- A path that may lead to a file ends in a name. -/
theorem locate_eq_name_iff :
    d.locate path = .ok ⟨l, false⟩ ↔
      path.isEmpty = false ∧ d.find? (d.start path) = some .directory ∧
        ∃ init last l₁, steps path = init ++ [last] ∧ last ≠ "." ∧ last ≠ ".." ∧
          path.toList.getLast? ≠ some '/' ∧ init.foldlM d.enter (d.start path) = .ok l₁ ∧
            l = l₁ ++ [last] := by
  constructor
  · intro h
    obtain ⟨hp, hstart, -⟩ := locate_eq_ok h
    refine ⟨hp, hstart, ?_⟩
    unfold locate at h
    simp only [hp, hstart, bne_self_eq_false, Bool.or_self, Bool.false_eq_true, if_false] at h
    split at h
    · cases h
    · next last hlast =>
      obtain ⟨init, hinit⟩ := List.getLast?_eq_some_iff.1 hlast
      rw [hinit, List.dropLast_concat] at h
      cases hl : init.foldlM d.enter (d.start path) with
      | error e => rw [hl] at h; cases h
      | ok l₁ =>
        rw [hl] at h
        simp only [bind, Except.bind] at h
        split at h
        · cases h
        · next hdot =>
          split at h
          · cases h
          · next hdots =>
            injection h with h
            injection h with hloc hslash
            exact ⟨init, last, l₁, hinit, hdot, hdots, by simpa using hslash, hl, hloc.symm⟩
  · rintro ⟨hp, hstart, init, last, l₁, hsteps, hdot, hdots, hslash, hl, rfl⟩
    have hslash : (path.toList.getLast? == some '/') = false := by simpa using hslash
    simp [locate, hp, hstart, hsteps, hl, hdot, hdots, hslash, bind, Except.bind]

/-- What is no directory stands in one where a path leads to it. -/
theorem find?_dropLast_of_locate (ht : d.locate path = .ok t)
    (hf : d.find? t.location ≠ some .directory) :
    d.find? t.location.dropLast = some .directory := by
  obtain ⟨-, hstart, hloc, l, hl⟩ := locate_eq_ok ht
  have hdir := find?_of_foldlM hstart hl
  rw [hloc] at hf ⊢
  unfold destination at hf ⊢
  rcases List.eq_nil_or_concat (steps path) with hnil | ⟨init, last, hsteps⟩
  · rw [hnil] at hf
    exact absurd hstart hf
  · rw [List.concat_eq_append] at hsteps
    rw [hsteps, List.dropLast_concat] at hl
    rw [hsteps, List.foldl_append, ← eq_foldl_follow hl] at hf ⊢
    simp only [List.foldl_cons, List.foldl_nil] at hf ⊢
    unfold follow at hf ⊢
    split
    · next hdot =>
      rw [if_pos hdot] at hf
      exact absurd hdir hf
    · next hdot =>
      rw [if_neg hdot] at hf
      split
      · next hdots =>
        rw [if_pos hdots] at hf
        exact absurd (find?_dropLast hdir) hf
      · rwa [List.dropLast_concat]

theorem ne_nil_of_find? (hf : d.find? l ≠ some .directory) : l ≠ [] := by
  rintro rfl
  exact hf rfl

theorem entry_eq_ok_iff :
    d.entry path = .ok e ↔ ∃ t, d.locate path = .ok t ∧ d.find? t.location = some e ∧
      (t.asDirectory = true → e = .directory) := by
  unfold entry
  cases d.locate path with
  | error cause => simp [bind, Except.bind]
  | ok t =>
    cases hf : d.find? t.location with
    | none => simp [bind, Except.bind, hf]
    | some found =>
      cases found with
      | directory =>
        simp only [bind, Except.bind, hf, Except.ok.injEq, exists_eq_left', Option.some.injEq]
        exact ⟨fun h => ⟨h, fun _ => h.symm⟩, fun h => h.1⟩
      | file content mode =>
        cases ha : t.asDirectory
        · simp [bind, Except.bind, hf, ha]
        · simp only [bind, Except.bind, hf, ha, if_true, Except.ok.injEq, exists_eq_left',
            Option.some.injEq, true_implies]
          constructor
          · intro h; cases h
          · rintro ⟨h, rfl⟩; cases h

theorem entry_eq_file_iff {content : ByteArray} {mode : Mode} :
    d.entry path = .ok (.file content mode) ↔
      ∃ l, d.locate path = .ok ⟨l, false⟩ ∧ d.find? l = some (.file content mode) := by
  rw [entry_eq_ok_iff]
  constructor
  · rintro ⟨⟨l, asDirectory⟩, ht, hf, ha⟩
    cases asDirectory with
    | false => exact ⟨l, ht, hf⟩
    | true => cases ha rfl
  · rintro ⟨l, ht, hf⟩
    exact ⟨_, ht, hf, nofun⟩

theorem entry_eq_directory_iff :
    d.entry path = .ok .directory ↔
      ∃ t, d.locate path = .ok t ∧ d.find? t.location = some .directory := by
  simp [entry_eq_ok_iff]

theorem isDirectory_iff : d.isDirectory path = true ↔ d.entry path = .ok .directory := by
  unfold isDirectory
  split <;> simp_all

theorem pathExists_of_entry (h : d.entry path = .ok e) : d.pathExists path = true := by
  rw [pathExists, h]
  rfl

/-- What is not there is not shown. -/
theorem entry_ne_ok (h : d.find? (d.destination path) = none) (e : Entry) : d.entry path ≠ .ok e := by
  intro he
  obtain ⟨t, ht, hf, -⟩ := entry_eq_ok_iff.1 he
  rw [(locate_eq_ok ht).2.2.1, h] at hf
  cases hf

theorem toUTF8_of_fromUTF8? {content : ByteArray} {text : String}
    (h : String.fromUTF8? content = some text) : content = text.toUTF8 := by
  unfold String.fromUTF8? at h
  split at h
  · cases h
    rfl
  · cases h

/-- A text is read from the file that holds it, by those who may read it. -/
theorem readText_eq_ok_iff {text : String} :
    d.readText path = .ok text ↔
      ∃ mode, d.entry path = .ok (.file text.toUTF8 mode) ∧ d.system.mayRead mode = true := by
  unfold readText
  cases he : d.entry path with
  | error e => simp [bind, Except.bind]
  | ok e =>
    cases e with
    | directory => simp [bind, Except.bind]
    | file content mode =>
      simp only [bind, Except.bind, Except.ok.injEq, Entry.file.injEq]
      constructor
      · intro h
        split at h
        · next hr =>
          split at h
          · next found hf =>
            cases h
            exact ⟨mode, ⟨toUTF8_of_fromUTF8? hf, rfl⟩, hr⟩
          · cases h
        · cases h
      · rintro ⟨_, ⟨rfl, rfl⟩, hr⟩
        simp [hr, String.fromUTF8?, String.isValidUTF8, String.fromUTF8]

/-! ## Directories on the way -/

/-- A path by directories leads to one. -/
theorem isDirectory_of_leads (hp : path.isEmpty = false) (h : d.Leads path) :
    d.isDirectory path = true := by
  obtain ⟨hstart, l, hl⟩ := h
  have hf := find?_of_foldlM hstart hl
  have hinit : ∃ l₁, (steps path).dropLast.foldlM d.enter (d.start path) = .ok l₁ := by
    have hsplit : steps path = (steps path).dropLast ++ (steps path).drop ((steps path).length - 1) := by
      rw [List.dropLast_eq_take, List.take_append_drop]
    rw [hsplit] at hl
    exact (foldlM_enter_append hl).imp fun l₁ h => h.1
  obtain ⟨l₁, hinit⟩ := hinit
  obtain ⟨t, ht⟩ := exists_locate hp hstart hinit
  rw [isDirectory_iff, entry_eq_directory_iff]
  refine ⟨t, ht, ?_⟩
  rw [(locate_eq_ok ht).2.2.1, destination, ← eq_foldl_follow hl]
  exact hf

/-- A path that leads somewhere does so from the path above it. -/
theorem leads_of_locate (ht : d.locate path = .ok t) (hup : parent? path = some up) : d.Leads up := by
  obtain ⟨-, hstart, -, l, hl⟩ := locate_eq_ok ht
  obtain ⟨⟨dots, name, dots', hsteps, -, -⟩, habsolute⟩ := Path.parent?_eq_some hup
  have hup : d.start up = d.start path := by simp only [start, habsolute]
  rw [hsteps, List.append_assoc, List.dropLast_append_of_ne_nil (by simp)] at hl
  obtain ⟨l₁, hl₁, -⟩ := foldlM_enter_append hl
  rw [Leads, hup]
  exact ⟨hstart, l₁, hl₁⟩

theorem foldl_follow_of_dots (h : ∀ t ∈ parts, t = ".") (l : Location) :
    parts.foldl follow l = l := by
  induction parts with
  | nil => rfl
  | cons part parts ih =>
    rw [List.foldl_cons, h part (by simp), follow_dot]
    exact ih fun t ht => h t (by simp [ht])

/-- Where nothing goes up, a path leads into the directory that the path above leads to, or there. -/
theorem destination_of_parent? (hup : parent? path = some up) (hs : ".." ∉ steps path) :
    ".." ∉ steps up ∧ ((∀ t ∈ steps path, t = ".") ∧ d.destination path = d.destination up ∨
      ∃ name, d.destination path = d.destination up ++ [name]) := by
  obtain ⟨⟨dots, name, dots', hsteps, hdots, hname⟩, habsolute⟩ := Path.parent?_eq_some hup
  have hfold (parts : List String) (h : ∀ t ∈ parts, t ∈ dots ++ dots') (l : Location) :
      parts.foldl follow l = l := foldl_follow_of_dots (fun t ht => hdots t (h t ht)) l
  have hdest : d.destination path = follow (d.destination up) name := by
    simp only [destination, start, hsteps, habsolute, List.foldl_append, List.foldl_cons]
    rw [hfold dots (fun t ht => by simp [ht]), hfold dots' (fun t ht => by simp [ht])]
  rw [hsteps] at hs
  simp only [List.mem_append, List.mem_cons, not_or] at hs
  refine ⟨hs.1.1, ?_⟩
  by_cases hdot : name = "."
  · obtain ⟨hnil, rfl⟩ := hname hdot
    refine .inl ⟨fun t ht => ?_, by rw [hdest, hdot, follow_dot]⟩
    rw [hsteps, hnil] at ht
    simp only [List.nil_append, List.append_nil, List.mem_cons] at ht
    rcases ht with rfl | ht
    · exact hdot
    · exact hdots t (by simp [ht])
  · exact .inr ⟨name, by rw [hdest, follow_name hdot (Ne.symm hs.2.1)]⟩

/-! ## Disks with the same directories -/

/-- The directories of a disk are directories of another one. -/
def Within (d d' : Disk) : Prop :=
  d.current = d'.current ∧ ∀ l, d.find? l = some .directory → d'.find? l = some .directory

theorem enter_of_within (h : d.Within d') (he : d.enter l part = .ok l') :
    d'.enter l part = .ok l' := by
  rcases enter_cases he with ⟨rfl, rfl⟩ | ⟨rfl, rfl⟩ | ⟨hdot, hdots, rfl, hf⟩
  · rfl
  · rfl
  · simp only [enter, hdot, hdots, if_false, h.2 _ hf]

theorem foldlM_enter_of_within (h : d.Within d') :
    ∀ {l}, parts.foldlM d.enter l = .ok l' → parts.foldlM d'.enter l = .ok l' := by
  induction parts with
  | nil => exact id
  | cons part parts ih =>
    intro l hl
    obtain ⟨l₁, henter, hmore⟩ := foldlM_enter_cons hl
    rw [List.foldlM_cons, enter_of_within h henter]
    exact ih hmore

/-- A path leads to the same place where all directories are still there. -/
theorem locate_of_within (h : d.Within d') (ht : d.locate path = .ok t) :
    d'.locate path = .ok t := by
  obtain ⟨hp, hstart, -, l, hl⟩ := locate_eq_ok ht
  have hl' := foldlM_enter_of_within h hl
  unfold locate at ht ⊢
  simp only [start_congr h.1, hp, hstart, h.2 _ hstart, bne_self_eq_false, Bool.or_self,
    Bool.false_eq_true, if_false] at ht ⊢
  split at ht
  · exact ht
  · rw [hl] at ht
    rw [hl']
    exact ht

/-- A directory stays one where all directories are still there. -/
theorem isDirectory_of_within (h : d.Within d') (hd : d.isDirectory path = true) :
    d'.isDirectory path = true := by
  rw [isDirectory_iff, entry_eq_directory_iff] at hd ⊢
  obtain ⟨t, ht, hf⟩ := hd
  exact ⟨t, locate_of_within h ht, h.2 _ hf⟩

/-- Nothing that is put in place of no directory takes one away. -/
theorem within_put (h : d.find? l ≠ some .directory) : d.Within (d.put l e) := by
  refine ⟨rfl, fun m hm => ?_⟩
  rwa [find?_put_of_ne h]
  rintro rfl
  exact h hm

end SessionGuard.Disk
