import SessionGuard.Proofs.Cli.Configuring
import SessionGuard.Proofs.Text.Trim

/-!
# The host that is configured

A host that can be configured is stored trimmed and without the slashes at its end, and it is stored
once trimmed only: blanks in front of these slashes come to its end (`getLast?_validHost`).  Where there
are none, the stored host is one that is stored as it is (`set_host_settles_iff`).
-/

namespace SessionGuard.Cli

variable {url host : String} {s : Surroundings} {o : Options} {disk : Disk}

/-- A text begins as an address on the web does. -/
def NamesScheme (host : String) : Prop :=
  "http://".toList <+: host.toList ∨ "https://".toList <+: host.toList

/-- A blank stands right in front of the slashes that end a text, blanks behind them aside. -/
def BlankBeforeSlashes (text : String) : Prop :=
  ∃ front blank slashes blanks, text.toList = front ++ blank :: (slashes ++ blanks) ∧
    Text.isBlank blank = true ∧ slashes ≠ [] ∧ (∀ c ∈ slashes, c = '/') ∧
    ∀ c ∈ blanks, Text.isBlank c = true

/-! ## What is stored -/

theorem validHost_eq_ok_iff :
    validHost url = .ok host ↔ host = Text.dropSlashes (Text.trim url) ∧ NamesScheme host := by
  simp only [validHost, Bool.or_eq_true, List.isPrefixOf_iff_prefix]
  split
  · next hscheme =>
    rw [Except.ok.injEq]
    constructor
    · rintro rfl
      exact ⟨rfl, hscheme⟩
    · rintro ⟨rfl, -⟩
      rfl
  · next hscheme =>
    constructor
    · nofun
    · rintro ⟨rfl, h⟩
      exact absurd h hscheme

-- a host is no constant to be compared with a prefix by computation
attribute [local irreducible] validHost

theorem NamesScheme.ne_nil (h : NamesScheme host) : host.toList ≠ [] := by
  intro hnil
  rcases h with h | h <;> simp [hnil] at h

/-- A host that is stored begins with no blank and ends in no slash. -/
theorem ends_of_validHost (h : validHost url = .ok host) :
    (∀ c, host.toList.head? = some c → Text.isBlank c = false) ∧
      ∀ c, host.toList.getLast? = some c → c ≠ '/' := by
  obtain ⟨rfl, -⟩ := validHost_eq_ok_iff.1 h
  rw [Text.toList_dropSlashes]
  constructor
  · intro c hc
    exact Text.isBlank_of_head?_trim (Text.head?_dropTrailing hc)
  · intro c hc
    simpa using Text.dropTrailing_getLast hc

/-- Without its blanks and its slashes at the end, a text is the host that is stored, behind blanks. -/
theorem exists_lead (h : validHost url = .ok host) :
    ∃ lead, Text.dropTrailing (· == '/') (Text.dropTrailing Text.isBlank url.toList) =
      lead ++ host.toList := by
  obtain ⟨hhost, hscheme⟩ := validHost_eq_ok_iff.1 h
  have hslashes : host.toList = Text.dropTrailing (· == '/') (Text.trim url).toList := by
    rw [hhost, Text.toList_dropSlashes]
  have hne := hscheme.ne_nil
  rw [hslashes] at hne
  have htrim : Text.dropTrailing Text.isBlank (url.toList.dropWhile Text.isBlank) ≠ [] := by
    rw [← Text.toList_trim]
    intro hnil
    rw [hnil] at hne
    exact hne rfl
  refine ⟨url.toList.takeWhile Text.isBlank, ?_⟩
  have hurl : url.toList = url.toList.takeWhile Text.isBlank ++ url.toList.dropWhile Text.isBlank :=
    List.takeWhile_append_dropWhile.symm
  rw [hslashes, ← Text.dropTrailing_append_of_ne_nil hne, Text.toList_trim,
    ← Text.dropTrailing_append_of_ne_nil htrim, ← hurl]

/-- A host that is stored ends in a blank exactly where one stood in front of the slashes. -/
theorem getLast?_validHost (h : validHost url = .ok host) :
    (∃ c, host.toList.getLast? = some c ∧ Text.isBlank c = true) ↔ BlankBeforeSlashes url := by
  obtain ⟨lead, hlead⟩ := exists_lead h
  obtain ⟨-, hscheme⟩ := validHost_eq_ok_iff.1 h
  constructor
  · rintro ⟨blank, hlast, hblank⟩
    obtain ⟨front, hfront⟩ := List.getLast?_eq_some_iff.1 hlast
    obtain ⟨blanks, hblanks, hallBlanks⟩ := Text.dropTrailing_append Text.isBlank url.toList
    obtain ⟨slashes, hslashes, hallSlashes⟩ :=
      Text.dropTrailing_append (· == '/') (Text.dropTrailing Text.isBlank url.toList)
    rw [hlead, hfront] at hslashes
    refine ⟨lead ++ front, blank, slashes, blanks, ?_, hblank, ?_, fun c hc => ?_, hallBlanks⟩
    · rw [hblanks, hslashes]
      simp
    · -- otherwise the text without its last blanks would end in a blank
      rintro rfl
      have hlast : (Text.dropTrailing Text.isBlank url.toList).getLast? = some blank := by
        rw [hslashes]
        simp
      rw [Text.dropTrailing_getLast hlast] at hblank
      cases hblank
    · simpa using hallSlashes c hc
  · rintro ⟨front, blank, slashes, blanks, hurl, hblank, hne, hslashes, hblanks⟩
    have hbehind : Text.dropTrailing Text.isBlank (slashes ++ blanks) = slashes := by
      rw [Text.dropTrailing_append_run hblanks]
      refine Text.dropTrailing_eq_self fun c hc => ?_
      rw [hslashes c (List.mem_of_getLast? hc)]
      decide
    have htrim : Text.dropTrailing Text.isBlank url.toList = front ++ [blank] ++ slashes := by
      rw [hurl, List.append_cons, Text.dropTrailing_append_of_ne_nil (by rwa [hbehind]), hbehind]
    have hcut : Text.dropTrailing (· == '/') (front ++ [blank] ++ slashes) = front ++ [blank] := by
      rw [Text.dropTrailing_append_run fun c hc => by simp [hslashes c hc]]
      refine Text.dropTrailing_eq_self fun c hc => ?_
      obtain rfl : blank = c := by simpa using hc
      rw [beq_eq_false_iff_ne]
      rintro rfl
      exact absurd hblank (by decide)
    rw [htrim, hcut] at hlead
    rcases List.eq_nil_or_concat host.toList with hnil | ⟨init, c, hc⟩
    · exact absurd hnil hscheme.ne_nil
    · rw [hc, List.concat_eq_append, ← List.append_assoc] at hlead
      obtain rfl : blank = c := by simpa using (List.append_inj' hlead rfl).2
      exact ⟨blank, by rw [hc]; simp, hblank⟩

/-- A host that is stored is stored as it is exactly if it ends in no blank. -/
theorem validHost_self_iff (h : validHost url = .ok host) :
    validHost host = .ok host ↔ ∀ c, host.toList.getLast? = some c → Text.isBlank c = false := by
  constructor
  · intro hself c hc
    -- the cuts leave the whole host, so they have taken nothing away
    obtain ⟨lead, hlead⟩ := exists_lead hself
    obtain ⟨blanks, hblanks, -⟩ := Text.dropTrailing_append Text.isBlank host.toList
    obtain ⟨slashes, hslashes, -⟩ :=
      Text.dropTrailing_append (· == '/') (Text.dropTrailing Text.isBlank host.toList)
    have hlength := congrArg List.length hblanks
    have hlength' := congrArg List.length hslashes
    rw [hlead] at hlength'
    simp only [List.length_append] at hlength hlength'
    obtain rfl : blanks = [] := List.length_eq_zero_iff.1 (by omega)
    rw [List.append_nil] at hblanks
    rw [hblanks] at hc
    exact Text.dropTrailing_getLast hc
  · intro hlast
    obtain ⟨-, hscheme⟩ := validHost_eq_ok_iff.1 h
    obtain ⟨hfirst, hslash⟩ := ends_of_validHost h
    refine validHost_eq_ok_iff.2 ⟨?_, hscheme⟩
    rw [Text.trim_eq_self hfirst hlast, ← String.toList_inj, Text.toList_dropSlashes,
      Text.dropTrailing_eq_self fun c hc => by simpa using hslash c hc]

theorem forall_last_iff : (∀ c, host.toList.getLast? = some c → Text.isBlank c = false) ↔
    ¬ ∃ c, host.toList.getLast? = some c ∧ Text.isBlank c = true := by
  simp

/-! ## Storing it -/

theorem run_setHost (h : validHost url = .ok host) (s : Surroundings) (o : Options) (disk : Disk) :
    (Command.setHost url).run s o disk =
      pure (changeConfig s o disk (fun c => { c with apiHost := some host })
        (Report.hostSet (s.display o.format) host)) := by
  unfold Command.run
  simp only [h]

/-- Where a host is stored successfully, it is loaded afterwards. -/
theorem exists_stored {path : String} {c : Config} (h : validHost url = .ok host)
    (hload : loadConfig s o disk = .ok (path, c))
    (hok : ((Command.setHost url).run s o disk |>.result []).2.isOk = true) :
    ∃ ending text, (Command.setHost url).run s o disk = pure ending ∧ ending.2 = .ok text ∧
      loadConfig s o ending.1 = .ok (path, { c with apiHost := some host }) := by
  rw [run_setHost h] at hok ⊢
  have hsession : ∀ c : Config, ({ c with apiHost := some host } : Config).session = c.session :=
    fun _ => rfl
  generalize hending : changeConfig s o disk (fun c => { c with apiHost := some host })
    (Report.hostSet (s.display o.format) host) = ending at hok ⊢
  cases htext : ending.2 with
  | error e => exact nomatch (congrArg Except.isOk htext).symm.trans hok
  | ok text =>
    rw [← hending] at htext
    obtain ⟨-, path', c', hload', -, hafter, -⟩ := loadConfig_changeConfig hsession htext
    cases hload.symm.trans hload'
    exact ⟨ending, text, rfl, hending ▸ htext, hending ▸ hafter⟩

/-- The host that is stored is the one that is asked, where no other is named. -/
theorem host_of_validHost (h : validHost url = .ok host) (c : Config) :
    ({ c with apiHost := some host } : Config).host none = host := by
  obtain ⟨-, hslash⟩ := ends_of_validHost h
  show Text.dropSlashes host = host
  rw [← String.toList_inj, Text.toList_dropSlashes,
    Text.dropTrailing_eq_self fun c hc => by simpa using hslash c hc]

/-- A command that has stored a host comes to the same when it is given the stored host, exactly if that
is stored as it is. -/
theorem run_setHost_again_iff (h : validHost url = .ok host) {ending : Ending} {text : String}
    (hrun : (Command.setHost url).run s o disk = pure ending) (htext : ending.2 = .ok text) :
    (Command.setHost host).run s o ending.1 = pure ending ↔ validHost host = .ok host := by
  obtain rfl := pure_inj (hrun.symm.trans (run_setHost h s o disk))
  have hsession (host : String) :
      ∀ c : Config, ({ c with apiHost := some host } : Config).session = c.session := fun _ => rfl
  constructor
  · intro hagain
    cases hv : validHost host with
    | error e =>
      unfold Command.run at hagain
      simp only [hv] at hagain
      rw [← pure_inj hagain] at htext
      cases htext
    | ok host' =>
      obtain ⟨-, path, c, -, -, hafter, -⟩ := loadConfig_changeConfig (hsession host) htext
      rw [run_setHost hv] at hagain
      have hsame := pure_inj hagain
      rw [← hsame] at htext
      obtain ⟨-, path', c', -, -, hafter', -⟩ := loadConfig_changeConfig (hsession host') htext
      rw [hsame, hafter] at hafter'
      have hhost := congrArg (fun found => found.map fun x => x.2.apiHost) hafter'
      simp only [Except.map, Except.ok.injEq, Option.some.injEq] at hhost
      rw [hhost]
  · intro hagain
    have hboth := (changeConfig_changeConfig (g := fun c => { c with apiHost := some host })
      (hsession host) htext (Report.hostSet (s.display o.format) host) (.inr htext)).1
    rw [run_setHost hagain, hboth]
    rfl

/-- A host that is accepted is stored with its scheme in front, without a blank at its beginning and
without a slash at its end; it is what the user is told and what is asked after the next start.  It ends
in no blank, and is stored again as it is and without any other change, exactly if no blank stood in
front of the slashes at the end of what was given. -/
theorem set_host_settles_iff (h : validHost url = .ok host) :
    (NamesScheme host ∧ (∀ c, host.toList.head? = some c → Text.isBlank c = false) ∧
      ∀ c, host.toList.getLast? = some c → c ≠ '/') ∧
    ((∀ c, host.toList.getLast? = some c → Text.isBlank c = false) ↔ ¬ BlankBeforeSlashes url) ∧
    (validHost host = .ok host ↔ ¬ BlankBeforeSlashes url) ∧
    ∀ (s : Surroundings) (o : Options) (disk : Disk) (ending : Ending) (text : String),
      (Command.setHost url).run s o disk = pure ending → ending.2 = .ok text →
      text = Report.hostSet (s.display o.format) host ∧
      (∃ path c, let c' : Config := { c with apiHost := some host }
        loadConfig s o disk = .ok (path, c) ∧ loadConfig s o ending.1 = .ok (path, c') ∧
          c'.host none = host) ∧
      ((Command.setHost host).run s o ending.1 = pure ending ↔ ¬ BlankBeforeSlashes url) := by
  have hself : validHost host = .ok host ↔ ¬ BlankBeforeSlashes url := by
    rw [validHost_self_iff h, forall_last_iff, getLast?_validHost h]
  refine ⟨⟨(validHost_eq_ok_iff.1 h).2, ends_of_validHost h⟩, ?_, hself,
    fun s o disk ending text hrun htext => ?_⟩
  · rw [forall_last_iff, getLast?_validHost h]
  have hagain := run_setHost_again_iff h hrun htext
  rw [hself] at hagain
  obtain rfl := pure_inj (hrun.symm.trans (run_setHost h s o disk))
  have hsession : ∀ c : Config, ({ c with apiHost := some host } : Config).session = c.session :=
    fun _ => rfl
  obtain ⟨hreport, path, c, hload, -, hafter, -⟩ := loadConfig_changeConfig hsession htext
  exact ⟨hreport, ⟨path, c, hload, hafter, host_of_validHost h c⟩, hagain⟩

/-- Blanks around a host and slashes at its end are cut off, and it is stored a second time without a
change. -/
theorem set_host_settles_between_blanks :
    let s : Surroundings := ⟨none, false, 0, ""⟩
    let o : Options := ⟨.json, some "config.yaml", none⟩
    let disk : Disk :=
      { entries := [(["config.yaml"], .file "signup_policy: auto_login\n".toUTF8 0o644)], current := [] }
    let url := "\u3000https://h// \t"
    validHost url = .ok "https://h" ∧ validHost "https://h" = .ok "https://h" ∧
      ¬ BlankBeforeSlashes url ∧ ∃ ending, (Command.setHost url).run s o disk = pure ending ∧
        (Command.setHost "https://h").run s o ending.1 = pure ending ∧
        loadConfig s o ending.1 =
          .ok ("config.yaml", ⟨some "https://h", none, .autoLogin, ⟨10, true⟩⟩) := by
  intro s o disk url
  have h : validHost url = .ok "https://h" := by decide +kernel
  have hself : validHost "https://h" = .ok "https://h" := by decide +kernel
  have hload : loadConfig s o disk = .ok ("config.yaml", ⟨none, none, .autoLogin, ⟨10, true⟩⟩) := by
    decide +kernel
  have hok : ((Command.setHost url).run s o disk |>.result []).2.isOk = true := by decide +kernel
  obtain ⟨-, -, hiff, hruns⟩ := set_host_settles_iff h
  have htidy := hiff.1 hself
  obtain ⟨ending, text, hrun, htext, hafter⟩ := exists_stored h hload hok
  exact ⟨h, hself, htidy, ending, hrun, (hruns s o disk ending text hrun htext).2.2.2 htidy, hafter⟩

/-- A blank in front of a slash is stored at the end of the host.  Stored again, the host is another one,
or is refused where nothing but the scheme stood in front of the blank. -/
theorem set_host_stores_blank :
    let s : Surroundings := ⟨none, false, 0, ""⟩
    let o : Options := ⟨.pretty, some "config.yaml", none⟩
    let disk : Disk := { entries := [], current := [] }
    (∃ stored again, (Command.setHost "http://h /").run s o disk = pure stored ∧
      loadConfig s o stored.1 =
        .ok ("config.yaml", { Config.default with apiHost := some "http://h " }) ∧
      (Command.setHost "http://h ").run s o stored.1 = pure again ∧
      loadConfig s o again.1 =
        .ok ("config.yaml", { Config.default with apiHost := some "http://h" })) ∧
    validHost "http:// /" = .ok "http:// " ∧ (validHost "http:// ").isOk = false := by
  intro s o disk
  have h : validHost "http://h /" = .ok "http://h " := by decide +kernel
  have h' : validHost "http://h " = .ok "http://h" := by decide +kernel
  have hload : loadConfig s o disk = .ok ("config.yaml", .default) := by decide +kernel
  have hok : ((Command.setHost "http://h /").run s o disk |>.result []).2.isOk = true := by
    decide +kernel
  have hok' : ((Command.setHost "http://h ").run s o
      ((Command.setHost "http://h /").run s o disk |>.result []).1 |>.result []).2.isOk = true := by
    decide +kernel
  obtain ⟨stored, text, hrun, htext, hafter⟩ := exists_stored h hload hok
  rw [hrun] at hok'
  obtain ⟨again, -, hrun', -, hafter'⟩ := exists_stored h' hafter hok'
  exact ⟨⟨stored, again, hrun, hafter, hrun', hafter'⟩, by decide +kernel⟩

end SessionGuard.Cli
