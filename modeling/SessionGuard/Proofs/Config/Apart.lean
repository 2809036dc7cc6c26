import SessionGuard.Proofs.Config.RoundTrip
import SessionGuard.Proofs.Disk.Frame

/-!
# The configuration and the session file apart

A configuration and its session file do not disturb each other where they are two files
(`Config.Apart`): a save of one spares the other, be it done or not (`Apart.spares_of_touches`,
`Apart.load_of_touches`).  Where there is no configuration yet, the session file is the one beside it,
and both come to be in one directory (`beside_of_missing`).
-/

namespace SessionGuard.Config

open Disk (steps)
open SessionGuard.Path (parent?)

variable {disk disk' : Disk} {path up : String} {c : Config}

/-- A configuration and its session file lead to two places.  What is missing is not looked for above a
missing directory. -/
structure Apart (disk : Disk) (path tokenPath : String) : Prop where
  elsewhere : disk.destination tokenPath ≠ disk.destination path
  straight : (∃ t, disk.locate path = .ok t) ∨ ".." ∉ steps path

theorem load_of_spares (h : disk.Spares disk' path) : load disk' path = load disk path := by
  unfold load
  rw [h.pathExists]
  cases hp : disk.pathExists path with
  | false => rfl
  | true => rw [h.readText hp]

/-- A configuration is missing and has its defaults, or it is read from a file. -/
theorem cases_of_load (h : load disk path = .ok c) :
    (∀ e, disk.entry path ≠ .ok e) ∧ c = default ∨
      ∃ content mode, disk.entry path = .ok (.file content mode) := by
  unfold load at h
  cases he : disk.entry path with
  | error cause =>
    rw [Disk.pathExists, he] at h
    cases h
    exact .inl ⟨fun e => by simp, rfl⟩
  | ok e =>
    cases e with
    | file content mode => exact .inr ⟨content, mode, rfl⟩
    | directory =>
      have hr : disk.readText path = .error .isDirectory := by
        rw [Disk.readText, he]
        rfl
      rw [Disk.pathExists_of_entry he, hr] at h
      cases h

/-! ## Where there is no configuration -/

theorem steps_sessionFileName : steps sessionFileName = [sessionFileName] := by decide +kernel

theorem isAbsolute_sessionFileName : Path.isAbsolute sessionFileName = false := by decide +kernel

theorem tokenPath_of_parent? (hup : parent? path = some up) :
    default.tokenPath path = Path.join up sessionFileName := by
  simp only [tokenPath, default, hup]

theorem steps_tokenPath (hup : parent? path = some up) :
    steps (default.tokenPath path) = steps up ++ [sessionFileName] := by
  rw [tokenPath_of_parent? hup, Path.steps_join, steps_sessionFileName]

theorem start_tokenPath (hup : parent? path = some up) (disk : Disk) :
    disk.start (default.tokenPath path) = disk.start up := by
  rw [tokenPath_of_parent? hup, Disk.start, Disk.start,
    Path.isAbsolute_join up isAbsolute_sessionFileName]

theorem isEmpty_of_steps (h : steps path ≠ []) : path.isEmpty = false := by
  cases hp : path.isEmpty with
  | false => rfl
  | true =>
    rw [String.isEmpty_iff] at hp
    exact absurd (by rw [hp]; rfl) h

/-- The session file beside a missing configuration can be looked for where the configuration can
be. -/
theorem exists_locate_tokenPath {t : Disk.Target} (ht : disk.locate path = .ok t)
    (hmissing : ∀ e, disk.entry path ≠ .ok e) :
    ∃ t, disk.locate (default.tokenPath path) = .ok t := by
  cases hup : parent? path with
  | none =>
    -- the root is there
    obtain ⟨hempty, hstart, hlocation, -⟩ := Disk.locate_eq_ok ht
    rcases Path.parent?_eq_none hup with rfl | ⟨-, hdots⟩
    · cases hempty
    · rw [Disk.destination, Disk.foldl_follow_of_dots hdots] at hlocation
      refine absurd (Disk.entry_eq_ok_iff.2 ⟨t, ht, ?_, fun _ => rfl⟩) (hmissing .directory)
      rw [hlocation, hstart]
  | some up =>
    obtain ⟨hstart, l, hl⟩ := Disk.leads_of_locate ht hup
    have hsteps := steps_tokenPath hup
    have hne : steps (default.tokenPath path) ≠ [] := by simp [hsteps]
    refine Disk.exists_locate (l := l) (isEmpty_of_steps hne) ?_ ?_
    · rw [start_tokenPath hup]
      exact hstart
    · rw [hsteps, List.dropLast_concat, start_tokenPath hup]
      exact hl

/-- The session file is in the directory above the configuration. -/
theorem beside_tokenPath (hup : parent? path = some up) (hs : ".." ∉ steps path) :
    disk.Beside (default.tokenPath path) (disk.destination up) := by
  have hsession : sessionFileName ≠ "." ∧ sessionFileName ≠ ".." := by decide +kernel
  have hsteps := steps_tokenPath hup
  have hdest : disk.destination (default.tokenPath path) =
      disk.destination up ++ [sessionFileName] := by
    rw [Disk.destination, hsteps, start_tokenPath hup, List.foldl_append]
    exact Disk.follow_name hsession.1 hsession.2 _
  have hsup := (Disk.destination_of_parent? (d := disk) hup hs).1
  have hstraight : ".." ∉ steps (default.tokenPath path) := by
    rw [hsteps]
    simp [hsup, Ne.symm hsession.2]
  have hmem : sessionFileName ∈ steps (default.tokenPath path) := by simp [hsteps]
  cases hup' : parent? (default.tokenPath path) with
  | none =>
    rcases Path.parent?_eq_none hup' with h | ⟨-, hdots⟩
    · have hnil : steps (default.tokenPath path) = [] := by rw [h]; rfl
      simp [hsteps] at hnil
    · exact absurd (hdots _ hmem) hsession.1
  | some up' =>
    have hbeside : disk.Beside _ (disk.destination up') :=
      Disk.beside_of_parent? hup' hstraight ⟨_, hmem, hsession.1⟩
    obtain ⟨name, hname⟩ := hbeside.name
    rw [hdest] at hname
    rwa [(List.append_inj' hname rfl).1]

/-- A configuration that cannot be looked for and its session file would be in one directory. -/
theorem beside_of_missing (hp : path ≠ "")
    (hstart : disk.find? (disk.start path) = some .directory)
    (hl : ¬ ∃ t, disk.locate path = .ok t) (hs : ".." ∉ steps path) :
    ∃ l, disk.Beside path l ∧ disk.Beside (default.tokenPath path) l := by
  have hempty : path.isEmpty = false := by simpa [String.isEmpty_iff] using hp
  have hn : ∃ t ∈ steps path, t ≠ "." := by
    refine Decidable.byContradiction fun hn => hl (Disk.exists_locate_of_dots hempty hstart ?_)
    simpa using hn
  cases hup : parent? path with
  | none =>
    rcases Path.parent?_eq_none hup with h | ⟨-, hdots⟩
    · exact absurd h hp
    · exact absurd (Disk.exists_locate_of_dots hempty hstart hdots) hl
  | some up => exact ⟨_, Disk.beside_of_parent? hup hs hn, beside_tokenPath hup hs⟩

/-- Where a missing configuration starts in no directory, so does the session file beside it. -/
theorem start_default_tokenPath (hp : path ≠ "")
    (hstart : disk.find? (disk.start path) ≠ some .directory) :
    disk.start (default.tokenPath path) = disk.start path := by
  cases hup : parent? path with
  | none =>
    rcases Path.parent?_eq_none hup with h | ⟨habsolute, -⟩
    · exact absurd h hp
    · rw [Disk.start, if_pos habsolute] at hstart
      exact absurd (Disk.find?_nil disk) hstart
  | some up => rw [start_tokenPath hup, Disk.start_of_parent? hup]

/-! ## Saves -/

namespace Apart

/-- A configuration that is saved, or cannot be, spares its session file. -/
theorem spares_of_touches (h : Apart disk path (c.tokenPath path)) (hc : load disk path = .ok c)
    (ht : disk.Touches path disk') : disk.Spares disk' (c.tokenPath path) := by
  by_cases hl : ∃ t, disk.locate path = .ok t
  · obtain ⟨t, hl⟩ := hl
    exact ht.spares_of_leads (fun up => Disk.leads_of_locate hl) h.elsewhere
  · by_cases hstart : disk.find? (disk.start path) = some .directory
    · rcases cases_of_load hc with ⟨-, rfl⟩ | ⟨content, mode, he⟩
      · by_cases hp : path = ""
        · refine ht.spares_of_leads (fun up hup => ?_) h.elsewhere
          rw [hp] at hup
          cases hup
        · obtain ⟨l, hpath, hsession⟩ :=
            beside_of_missing hp hstart hl (h.straight.resolve_left hl)
          exact ht.spares_of_beside hpath hsession h.elsewhere
      · obtain ⟨l, hl', -⟩ := Disk.entry_eq_file_iff.1 he
        exact absurd ⟨_, hl'⟩ hl
    · rw [ht.eq_of_start hstart]
      exact .refl _ _

/-- A session file that is saved, or cannot be, leaves the configuration as it was. -/
theorem load_of_touches (h : Apart disk path (c.tokenPath path)) (hc : load disk path = .ok c)
    (ht : disk.Touches (c.tokenPath path) disk') : load disk' path = .ok c := by
  rw [← hc]
  rcases cases_of_load hc with ⟨hmissing, rfl⟩ | ⟨content, mode, he⟩
  · refine load_of_spares ?_
    by_cases hl : ∃ t, disk.locate path = .ok t
    · obtain ⟨t, hl⟩ := hl
      obtain ⟨t', hl'⟩ := exists_locate_tokenPath hl hmissing
      exact ht.spares_of_leads (fun up => Disk.leads_of_locate hl') h.elsewhere.symm
    · by_cases hp : path = ""
      · subst hp
        exact .of_missing ht.system Disk.not_entry_empty Disk.not_entry_empty
      · by_cases hstart : disk.find? (disk.start path) = some .directory
        · obtain ⟨l, hpath, hsession⟩ :=
            beside_of_missing hp hstart hl (h.straight.resolve_left hl)
          exact ht.spares_of_beside hsession hpath h.elsewhere.symm
        · rw [ht.eq_of_start (by rwa [start_default_tokenPath hp hstart])]
          exact .refl _ _
  · exact load_of_spares (.of_entry ht.system he (ht.entry_of_ne h.elsewhere.symm he))

/-- A session file and a configuration stay apart where one of them is saved or cannot be. -/
theorem of_touches {tokenPath other : String} (h : Apart disk path tokenPath)
    (ht : disk.Touches other disk') : Apart disk' path tokenPath := by
  have hwithin := ht.within
  refine ⟨?_, ?_⟩
  · rw [Disk.destination_congr hwithin.1, Disk.destination_congr hwithin.1]
    exact h.elsewhere
  · exact h.straight.imp_left fun ⟨t, ht⟩ => ⟨t, Disk.locate_of_within hwithin ht⟩

end Apart

end SessionGuard.Config
