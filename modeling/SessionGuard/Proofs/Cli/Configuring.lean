import SessionGuard.Proofs.Cli.Separation

/-!
# Changes of the configuration

A change that succeeds saves the configuration with one field replaced; one that fails leaves all
files alone, unless it fails with the file open (`files_changeConfig`).  A change after another one
does what both do at once (`changeConfig_changeConfig`).  So changes of two fields come to the same in
either order, and a change made again to nothing new (`config_changes_one_field_or_nothing`).
-/

namespace SessionGuard.Cli

open Http (Exchange)

variable {s : Surroundings} {o : Options} {disk : Disk} {path report text text' : String} {c : Config}
  {f g : Config → Config} {command : Command}

-- a host is no constant to be compared with a prefix by computation
attribute [local irreducible] validHost

/-! ## A change that fails -/

/-- The file was open when the failure came: it could not be given to its owner, or had no room. -/
def Interrupted (e : Failure) : Prop :=
  e = .config (.file .notPermitted) ∨ e = .config (.file .noSpace)

/-- A change that fails leaves all files as they were, unless it comes to writing.  The path of the
configuration shows no other file than before, unless it comes to show one that may not be written. -/
theorem files_changeConfig {e : Failure} (h : (changeConfig s o disk f report).2 = .error e)
    (he : ¬ Interrupted e) :
    disk.Gains (changeConfig s o disk f report).1 ∧
      ∀ path, configPath s o = .ok path → ∀ content mode,
        (changeConfig s o disk f report).1.entry path = .ok (.file content mode) →
          disk.entry path = .ok (.file content mode) ∨ disk.system.mayWrite mode = false := by
  cases hload : loadConfig s o disk with
  | error cause =>
    unfold changeConfig
    rw [hload]
    exact ⟨.refl disk, fun _ _ _ _ h => .inl h⟩
  | ok found =>
    obtain ⟨path, c⟩ := found
    cases hs : (f c).save disk path with
    | ok after => rw [changeConfig_of_save hload hs] at h; cases h
    | error failed =>
      rw [changeConfig_of_not_save hload hs] at h ⊢
      cases h
      obtain ⟨cause, hcause, hsave⟩ := Config.save_eq_error hs
      rw [hcause] at he
      have hstops : disk.Stops path failed.left := Disk.stops_of_save_eq_error hsave
        (fun hc => he (.inl (congrArg (fun e => Failure.config (.file e)) hc)))
        (fun hc => he (.inr (congrArg (fun e => Failure.config (.file e)) hc)))
      refine ⟨hstops.gains, fun path' hpath content mode => ?_⟩
      cases hpath.symm.trans (loadConfig_eq_ok_iff.1 hload).1
      exact hstops.entry

/-! ## One change after the other -/

/-- Once a change has been made, another one comes to what both do at once. -/
theorem changeConfig_changeConfig (hf : ∀ c, (f c).session = c.session)
    (h : (changeConfig s o disk f report).2 = .ok text) (report' : String)
    (hboth : (changeConfig s o (changeConfig s o disk f report).1 g report').2 = .ok text' ∨
      (changeConfig s o disk (g ∘ f) report').2 = .ok text') :
    changeConfig s o (changeConfig s o disk f report).1 g report' =
        changeConfig s o disk (g ∘ f) report' ∧
      (changeConfig s o disk (g ∘ f) report').2 = .ok report' := by
  obtain ⟨-, path, c, hload, hs, hafter, -⟩ := loadConfig_changeConfig hf h
  have hiff (d : Disk) : (g (f c)).save (changeConfig s o disk f report).1 path = .ok d ↔
      (g (f c)).save disk path = .ok d := by
    simp only [Config.save_eq_ok_iff]
    exact Disk.save_save_iff (Config.save_eq_ok_iff.1 hs)
  obtain ⟨d, hd⟩ : ∃ d, (g (f c)).save disk path = .ok d := by
    rcases hboth with hsecond | honce
    · obtain ⟨path', c', hload', hs'⟩ := changeConfig_eq_ok hsecond
      cases hafter.symm.trans hload'
      exact ⟨_, (hiff _).1 hs'⟩
    · obtain ⟨path', c', hload', hs'⟩ := changeConfig_eq_ok honce
      cases hload.symm.trans hload'
      exact ⟨_, hs'⟩
  rw [changeConfig_of_save (f := g ∘ f) hload hd report',
    changeConfig_of_save hafter ((hiff d).2 hd) report']
  exact ⟨rfl, rfl⟩

/-- Where one change succeeds, any other one would, if there is room for it. -/
theorem changeConfig_of_changeConfig (h : (changeConfig s o disk f report).2 = .ok text)
    (g : Config → Config) (report' : String) :
    (changeConfig s o disk g report').2 = .ok report' ∨
      (changeConfig s o disk g report').2 = .error (.config (.file .noSpace)) := by
  obtain ⟨path, c, hload, hs⟩ := changeConfig_eq_ok h
  cases hg : (g c).save disk path with
  | ok d =>
    rw [changeConfig_of_save hload hg]
    exact .inl rfl
  | error failed =>
    obtain ⟨cause, hcause, hsave⟩ := Config.save_eq_error hg
    have hroom := Disk.noSpace_of_save (Config.save_eq_ok_iff.1 hs) hsave
    rw [changeConfig_of_not_save hload hg, hcause]
    exact .inr (congrArg (fun e => Except.error (Failure.config (.file e))) hroom)

/-! ## Commands -/

/-- Two commands change different fields of the configuration. -/
inductive Command.Differ : Command → Command → Prop
  | host (url : String) (policy : SignupPolicy) : Differ (.setHost url) (.setSignupPolicy policy)
  | policy (url : String) (policy : SignupPolicy) : Differ (.setSignupPolicy policy) (.setHost url)

theorem Command.Differ.comp {other : Command} (h : command.Differ other)
    (hf : command.change? = some f) (hg : other.change? = some g) : g ∘ f = f ∘ g := by
  cases h with
  | host url policy =>
    obtain ⟨host, rfl⟩ := hostChange?_eq_some hf
    cases hg
    rfl
  | policy url policy =>
    obtain ⟨host, rfl⟩ := hostChange?_eq_some hg
    cases hf
    rfl

theorem pure_inj {x y : Ending} (h : (pure x : Exchange Ending) = pure y) : x = y := by
  injection h

/-- A command that has succeeded in changing the configuration has made its change. -/
theorem exists_change_of_ok (hc : command.configures = true) {ending : Ending}
    (hrun : command.run s o disk = pure ending) (h : ending.2 = .ok text) :
    ∃ f report, command.change? = some f ∧ ending = changeConfig s o disk f report ∧
      ∀ disk, command.run s o disk = pure (changeConfig s o disk f report) := by
  rcases run_of_configures s o hc with ⟨-, e, hruns⟩ | ⟨f, words, hf, hruns⟩
  · cases pure_inj (hrun.symm.trans (hruns disk))
    cases h
  · exact ⟨f, _, hf, pure_inj (hrun.symm.trans (hruns disk)), hruns⟩

/-- A command that changes the configuration sends no requests.  If it succeeds, the configuration is
loaded afterwards as it was before but for the one field, from a file for its owner only, and the
command does nothing new when it is run again.  If it fails before a file is open, all files are as they
were; the path of the configuration shows what it has shown, or a file now that may not be written.
Commands that change different fields and succeed one after the other come to the same disk in the other
order, where the first of them can fail only for want of room. -/
theorem config_changes_one_field_or_nothing (s : Surroundings) (o : Options) (disk : Disk) :
    (∀ command : Command, command.configures = true →
      ∃ ending, command.run s o disk = pure ending ∧
        (∀ text, ending.2 = .ok text → ∃ path c f, loadConfig s o disk = .ok (path, c) ∧
          command.change? = some f ∧ loadConfig s o ending.1 = .ok (path, f c) ∧
          (∃ content, ending.1.entry path = .ok (.file content .ownerOnly)) ∧
          command.run s o ending.1 = pure ending) ∧
        (∀ e, ending.2 = .error e → ¬ Interrupted e →
          (∀ l content mode, ending.1.find? l = some (.file content mode) ↔
            disk.find? l = some (.file content mode)) ∧
          ∀ path, configPath s o = .ok path → ∀ content mode,
            (disk.entry path = .ok (.file content mode) →
              ending.1.entry path = .ok (.file content mode)) ∧
            (ending.1.entry path = .ok (.file content mode) →
              disk.entry path = .ok (.file content mode) ∨ disk.system.mayWrite mode = false))) ∧
    ∀ (one two : Command) (first second : Ending) (text text' : String), one.Differ two →
      one.run s o disk = pure first → first.2 = .ok text →
      two.run s o first.1 = pure second → second.2 = .ok text' →
      ∃ other, two.run s o disk = pure other ∧
        (other.2 = .ok text' ∧ one.run s o other.1 = pure (second.1, .ok text) ∨
          other.2 = .error (.config (.file .noSpace))) := by
  refine ⟨fun command hc => ?_,
    fun one two first second text text' hdiffer hone hfirst htwo hsecond => ?_⟩
  · rcases run_of_configures s o hc with ⟨-, e, hruns⟩ | ⟨f, words, hf, hruns⟩
    · refine ⟨_, hruns disk, ?_, fun _ _ _ => ⟨fun _ _ _ => Iff.rfl, fun _ _ _ _ => ⟨id, .inl⟩⟩⟩
      rintro text ⟨⟩
    · refine ⟨_, hruns disk, fun text htext => ?_, fun e he hnot => ?_⟩
      · obtain ⟨-, hsession, htwice⟩ := rest_of_change? hf
        obtain ⟨-, path, c, hload, -, hafter, hentry⟩ := loadConfig_changeConfig hsession htext
        refine ⟨path, c, f, hload, hf, hafter, hentry, ?_⟩
        have hagain := changeConfig_changeConfig (g := f) hsession htext
          (Display.lines [(s.display o.format).tick ++ words]) (.inr (by rwa [htwice]))
        rw [hruns, hagain.1, htwice]
      · obtain ⟨hgains, hpath⟩ := files_changeConfig he hnot
        exact ⟨fun l content mode => hgains.file_iff, fun path hp content mode =>
          ⟨Disk.entry_of_extends hgains.kept, hpath path hp content mode⟩⟩
  · have hconfigures : one.configures = true ∧ two.configures = true := by
      cases hdiffer <;> exact ⟨rfl, rfl⟩
    obtain ⟨f, report, hf, rfl, hones⟩ := exists_change_of_ok hconfigures.1 hone hfirst
    obtain ⟨g, report', hg, rfl, htwos⟩ := exists_change_of_ok hconfigures.2 htwo hsecond
    obtain ⟨rfl, -⟩ := loadConfig_changeConfig (rest_of_change? hf).2.1 hfirst
    obtain ⟨rfl, -⟩ := loadConfig_changeConfig (rest_of_change? hg).2.1 hsecond
    obtain ⟨hends, hsuccess⟩ :=
      changeConfig_changeConfig (g := g) (rest_of_change? hf).2.1 hfirst text' (.inl hsecond)
    refine ⟨_, htwos disk, ?_⟩
    rcases changeConfig_of_changeConfig hfirst g text' with hother | hroom
    · refine .inl ⟨hother, (hones _).trans (congrArg pure (Prod.ext ?_ ?_))⟩
      all_goals
        have honce : (changeConfig s o disk (f ∘ g) text).2 = .ok text := by
          rw [← hdiffer.comp hf hg]
          obtain ⟨path, c, hload, hs⟩ := changeConfig_eq_ok hsuccess
          rw [changeConfig_of_save hload hs]
        have hswapped :=
          changeConfig_changeConfig (g := f) (rest_of_change? hg).2.1 hother text (.inr honce)
      · rw [hends, hswapped.1, hdiffer.comp hf hg]
        exact fst_changeConfig _ _
      · rw [hswapped.1, hswapped.2]
    · exact .inr hroom

/-- A host and a policy are configured in either order beside a setting of the file, which stays. -/
theorem config_changes_one_field_beside_setting :
    let s : Surroundings := ⟨none, false, 0, ""⟩
    let o : Options := ⟨.pretty, some "config.yaml", none⟩
    let disk : Disk :=
      { entries := [(["config.yaml"],
          .file "session: \x7bcheck_token_expiry: false\x7d\n".toUTF8 0o644)]
        current := [] }
    let host := Command.setHost " http://h/ "
    let signup := Command.setSignupPolicy .autoLogin
    ∃ first second other, host.run s o disk = pure first ∧
      signup.run s o first.1 = pure second ∧ signup.run s o disk = pure other ∧
      host.run s o other.1 = pure (second.1, first.2) ∧ host.run s o first.1 = pure first ∧
      loadConfig s o second.1 =
        .ok ("config.yaml", ⟨some "http://h", none, .autoLogin, ⟨10, false⟩⟩) := by
  intro s o disk host signup
  let c : Config := ⟨none, none, .redirectToLogin, ⟨10, false⟩⟩
  obtain ⟨hchanges, hcommutes⟩ := config_changes_one_field_or_nothing s o disk
  have hloaded : loadConfig s o disk = .ok ("config.yaml", c) := by decide +kernel
  have hchange : host.change?.map (· c) = some { c with apiHost := some "http://h" } := by
    decide +kernel
  have hok : ((host.run s o disk).result []).2.isOk = true := by decide +kernel
  have hok' : ((signup.run s o ((host.run s o disk).result []).1).result []).2.isOk = true := by
    decide +kernel
  have hother : ((signup.run s o disk).result []).2.isOk = true := by decide +kernel
  have hresult (e : Ending) : (pure e : Exchange Ending).result [] = e := rfl
  have hreport {e : Ending} (h : e.2.isOk = true) : ∃ text, e.2 = .ok text := by
    cases he : e.2 with
    | error cause => rw [he] at h; cases h
    | ok text => exact ⟨text, rfl⟩
  obtain ⟨first, hfirst, hsuccess, -⟩ := hchanges host rfl
  obtain ⟨second, hsecond, hsuccess', -⟩ :=
    (config_changes_one_field_or_nothing s o first.1).1 signup rfl
  rw [hfirst, hresult] at hok hok'
  rw [hsecond, hresult] at hok'
  obtain ⟨text, htext⟩ := hreport hok
  obtain ⟨text', htext'⟩ := hreport hok'
  obtain ⟨path, before, f, hbefore, hf, hafter, -, hagain⟩ := hsuccess text htext
  obtain ⟨path', middle, g, hmiddle, hg, hlast, -⟩ := hsuccess' text' htext'
  obtain ⟨rfl, rfl⟩ := Prod.mk.inj (Except.ok.inj (hbefore.symm.trans hloaded))
  obtain ⟨rfl, rfl⟩ := Prod.mk.inj (Except.ok.inj (hmiddle.symm.trans hafter))
  rw [hf] at hchange
  have hhost : f c = { c with apiHost := some "http://h" } := Option.some.inj hchange
  rw [hhost, ← Option.some.inj hg] at hlast
  obtain ⟨other, hrun, ⟨-, hend⟩ | hroom⟩ :=
    hcommutes host signup first second text text' (.host _ _) hfirst htext hsecond htext'
  · exact ⟨first, second, other, hfirst, hsecond, hrun, by rw [htext, hend], hagain, hlast⟩
  · rw [hrun, hresult, hroom] at hother
    cases hother

end SessionGuard.Cli
