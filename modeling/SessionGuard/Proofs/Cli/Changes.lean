import SessionGuard.Cli.Run
import SessionGuard.Proofs.Config.Limit
import SessionGuard.Proofs.Config.RoundTrip

/-!
# Commands that change the configuration

A change of the configuration loads it, replaces something, and saves it (`changeConfig_eq_ok`); what
has been saved is what is loaded then (`loadConfig_changeConfig`).  The commands that make changes do
so, or refuse their argument (`run_of_configures`).
-/

namespace SessionGuard.Cli

variable {s : Surroundings} {o : Options} {disk : Disk} {path report text : String} {c : Config}
  {f : Config → Config} {command : Command}

-- a host is no constant to be compared with a prefix by computation
attribute [local irreducible] validHost

/-! ## One change -/

theorem loadConfig_eq_ok_iff :
    loadConfig s o disk = .ok (path, c) ↔ configPath s o = .ok path ∧ Config.load disk path = .ok c := by
  unfold loadConfig
  cases configPath s o with
  | error e => simp [bind, Except.bind]
  | ok found =>
    cases hl : Config.load disk found with
    | error e =>
      simp only [bind, Except.bind, hl, Except.ok.injEq]
      constructor
      · nofun
      · rintro ⟨rfl, h⟩
        rw [hl] at h
        cases h
    | ok config =>
      simp only [bind, Except.bind, hl, Except.ok.injEq, Prod.mk.injEq]
      constructor
      · rintro ⟨rfl, rfl⟩
        exact ⟨rfl, hl⟩
      · rintro ⟨rfl, h⟩
        rw [hl] at h
        cases h
        exact ⟨rfl, rfl⟩

/-- A change that succeeds is reported with its report. -/
theorem snd_changeConfig (h : (changeConfig s o disk f report).2 = .ok text) : text = report := by
  unfold changeConfig at h
  split at h
  · cases h
  · split at h <;> cases h
    rfl

theorem changeConfig_eq_ok (h : (changeConfig s o disk f report).2 = .ok text) :
    ∃ path c, loadConfig s o disk = .ok (path, c) ∧
      (f c).save disk path = .ok (changeConfig s o disk f report).1 := by
  unfold changeConfig at h ⊢
  cases hc : loadConfig s o disk with
  | error e => rw [hc] at h; cases h
  | ok found =>
    obtain ⟨path, c⟩ := found
    rw [hc] at h
    simp only at h ⊢
    cases hs : (f c).save disk path with
    | error e => rw [hs] at h; cases h
    | ok after => exact ⟨path, c, rfl, hs⟩

theorem changeConfig_of_save {after : Disk} (hload : loadConfig s o disk = .ok (path, c))
    (hs : (f c).save disk path = .ok after) (report : String) :
    changeConfig s o disk f report = (after, .ok report) := by
  unfold changeConfig
  simp only [hload, hs]

theorem changeConfig_of_not_save {failed : Failed ConfigError Disk}
    (hload : loadConfig s o disk = .ok (path, c)) (hs : (f c).save disk path = .error failed)
    (report : String) :
    changeConfig s o disk f report = (failed.left, .error (.config failed.cause)) := by
  unfold changeConfig
  simp only [hload, hs]

theorem fst_changeConfig (report report' : String) :
    (changeConfig s o disk f report).1 = (changeConfig s o disk f report').1 := by
  unfold changeConfig
  cases loadConfig s o disk with
  | error e => rfl
  | ok found => cases hs : (f found.2).save disk found.1 <;> simp only [hs]

/-- A change that succeeds is what is loaded afterwards, from a file for its owner only. -/
theorem loadConfig_changeConfig (hf : ∀ c, (f c).session = c.session)
    (h : (changeConfig s o disk f report).2 = .ok text) :
    text = report ∧ ∃ path c, loadConfig s o disk = .ok (path, c) ∧
      (f c).save disk path = .ok (changeConfig s o disk f report).1 ∧
      loadConfig s o (changeConfig s o disk f report).1 = .ok (path, f c) ∧
      ∃ content, (changeConfig s o disk f report).1.entry path =
        .ok (.file content .ownerOnly) := by
  obtain ⟨path, c, hload, hs⟩ := changeConfig_eq_ok h
  refine ⟨snd_changeConfig h, path, c, hload, hs, ?_, _, Config.entry_save hs⟩
  obtain ⟨hpath, hc⟩ := loadConfig_eq_ok_iff.1 hload
  obtain ⟨hpos, hfits⟩ := Config.timeout_of_load hc
  rw [← hf c] at hpos hfits
  have hsaved := Config.load_of_entry hfits (Config.entry_save hs)
  rw [if_neg (by omega)] at hsaved
  exact loadConfig_eq_ok_iff.2 ⟨hpath, hsaved⟩

/-! ## Commands -/

/-- Whether a command is there to change the configuration. -/
def Command.configures : Command → Bool
  | setHost _ | setSignupPolicy _ => true
  | _ => false

/-- The change to another host, if it can be configured. -/
def hostChange? (url : String) : Option (Config → Config) :=
  match validHost url with
  | .ok host => some fun c => { c with apiHost := some host }
  | .error _ => none

/-- What a command changes of the configuration, if its argument can be configured. -/
def Command.change? : Command → Option (Config → Config)
  | setHost url => hostChange? url
  | setSignupPolicy policy => some fun c => { c with signupPolicy := policy }
  | _ => none

theorem hostChange?_eq_some {url : String} (hf : hostChange? url = some f) :
    ∃ host, f = fun c => { c with apiHost := some host } := by
  unfold hostChange? at hf
  split at hf
  · next host _ =>
    cases hf
    exact ⟨host, rfl⟩
  · cases hf

/-- A change leaves the session file and the settings of the session alone, and making it twice is
making it once. -/
theorem rest_of_change? (hf : command.change? = some f) :
    (∀ c, (f c).tokenFile = c.tokenFile) ∧ (∀ c, (f c).session = c.session) ∧ f ∘ f = f := by
  cases command with
  | setHost url =>
    obtain ⟨host, rfl⟩ := hostChange?_eq_some hf
    exact ⟨fun _ => rfl, fun _ => rfl, rfl⟩
  | setSignupPolicy policy =>
    cases hf
    exact ⟨fun _ => rfl, fun _ => rfl, rfl⟩
  | _ => cases hf

/-- A command that changes the configuration refuses its argument, or makes the change and tells of it
in a line. -/
theorem run_of_configures (s : Surroundings) (o : Options) (hc : command.configures = true) :
    (command.change? = none ∧ ∃ e, ∀ disk, command.run s o disk = pure (disk, .error e)) ∨
      ∃ f words, command.change? = some f ∧ ∀ disk, command.run s o disk =
        pure (changeConfig s o disk f (Display.lines [(s.display o.format).tick ++ words])) := by
  unfold Command.run
  cases command with
  | setHost url =>
    cases hv : validHost url with
    | error e =>
      have hf : hostChange? url = none := by simp only [hostChange?, hv]
      exact .inl ⟨hf, .config e, fun _ => by simp only [hv]⟩
    | ok host =>
      have hf : hostChange? url = some fun c => { c with apiHost := some host } := by
        simp only [hostChange?, hv]
      refine .inr ⟨_, " Backend set to " ++ (s.display o.format).paint .cyan host, hf, fun _ => ?_⟩
      simp only [hv, Report.hostSet, String.append_assoc]
  | setSignupPolicy policy =>
    refine .inr ⟨_, " Signup policy set to " ++ (s.display o.format).paint .bold policy.name, rfl,
      fun _ => ?_⟩
    simp only [Report.policySet, String.append_assoc]
  | _ => cases hc

end SessionGuard.Cli
