import SessionGuard.Proofs.Backend.Lasting
import SessionGuard.Proofs.Cli.Changes
import SessionGuard.Proofs.Cli.Opening
import SessionGuard.Proofs.Config.Apart
import SessionGuard.Proofs.Store.Missed

/-!
# Configuration and session through runs

Where the configuration and the session file are two files, no command that works on one of them
disturbs the other.  A run that judges, sets or clears a token saves the session file and nothing
else (`always_run`); a change of the configuration saves the configuration.
-/

namespace SessionGuard.Cli

open Http (Delivery Exchange)
open Store (Lasting On)

variable {P : Store → Prop} {Q : Disk → Prop} {s : Surroundings} {o : Options} {disk : Disk}
  {path : String}

/-! ## The session file -/

namespace Desk

theorem always_perform (hP : Lasting P) {d : Desk} (hd : P d.app.store) (op : Operation) :
    (d.perform op).Always fun x => P x.1.app.store :=
  (Backend.always_run hP hd d.now op).bind fun _ hp => Exchange.always_done hp

theorem always_restore (hP : Lasting P) {d : Desk} (hd : P d.app.store) :
    d.restore.Always fun d' => P d'.app.store :=
  (always_perform hP hd .restore).bind fun _ hx => Exchange.always_done hx

theorem always_enter (hP : Lasting P) {d : Desk} (hd : P d.app.store) (route : Route) :
    (d.enter route).Always fun x => P x.1.app.store := by
  refine (always_perform hP hd (.visit route)).bind fun x hx => ?_
  refine (always_restore hP hx).bind fun d' hd' => Exchange.always_done ?_
  exact (App.moves_wake (.visiting route) d'.app).lasting hP hd'

theorem disk_of_on {d : Desk} (h : On path Q d.app.store) (before : Disk) : Q (d.disk before) := by
  obtain ⟨after, hs, hQ⟩ := h
  rw [Desk.disk, hs]
  exact hQ

end Desk

theorem always_withForm (hP : Lasting (On path Q)) {d : Desk}
    (hload : Desk.load s o disk = .ok d) (hd : On path Q d.app.store) (name : String)
    (screen : Route) (fill : Except Failure Operation) (report : Desk → Outcome → Except Failure String) :
    (withForm s o disk name screen fill report).Always fun ending => Q ending.1 := by
  simp only [withForm, withDesk_of_load hload]
  refine (Desk.always_enter hP hd screen).bind fun x hx => ?_
  obtain ⟨d₁, decision⟩ := x
  cases decision with
  | redirect target => exact Exchange.always_done (Desk.disk_of_on hx disk)
  | render | loading =>
    cases fill with
    | error e => exact Exchange.always_done (Desk.disk_of_on hx disk)
    | ok op =>
      refine (Desk.always_perform hP hx op).bind fun y hy => ?_
      exact Exchange.always_done (Desk.disk_of_on hy disk)

/-- All that a command does to the disk, unless it changes the configuration, is to save the session
file, or to try. -/
theorem always_run (hP : Lasting (On path Q)) {d : Desk} (hload : Desk.load s o disk = .ok d)
    (hpath : d.tokenPath = path) (hQ : Q disk)
    {command : Command} (hc : command.configures = false) :
    (command.run s o disk).Always fun ending => Q ending.1 := by
  have hd : On path Q d.app.store := ⟨disk, by rw [Desk.store_of_load hload, hpath], hQ⟩
  unfold Command.run
  cases command with
  | login | signup | recover | resetPassword => exact always_withForm hP hload hd _ _ _ _
  | logout =>
    simp only [withDesk_of_load hload]
    refine (Desk.always_perform hP hd .logout).bind fun x hx => ?_
    exact Exchange.always_done (Desk.disk_of_on hx disk)
  | status =>
    simp only [withDesk_of_load hload]
    refine (Desk.always_restore hP hd).bind fun d' hd' => ?_
    exact Exchange.always_done (Desk.disk_of_on hd' disk)
  | visit target =>
    simp only [withDesk_of_load hload]
    refine (Desk.always_enter hP hd _).bind fun x hx => ?_
    exact Exchange.always_done (Desk.disk_of_on hx disk)
  | routes | completion => exact Exchange.always_done hQ
  | showConfig =>
    simp only
    split <;> exact Exchange.always_done hQ
  | setHost | setSignupPolicy => cases hc

/-! ## The configuration -/

/-- A change of the configuration saves it, with another host or another policy. -/
theorem exists_save_of_configures {command : Command} (hc : command.configures = true)
    {replies : List Delivery} {text : String}
    (h : ((command.run s o disk).result replies).2 = .ok text) :
    ∃ (path : String) (c c' : Config), loadConfig s o disk = .ok (path, c) ∧
      c'.tokenFile = c.tokenFile ∧ c'.session = c.session ∧
      c'.save disk path = .ok ((command.run s o disk).result replies).1 := by
  rcases run_of_configures s o hc with ⟨-, e, hruns⟩ | ⟨f, words, hf, hruns⟩
  · rw [hruns] at h
    cases h
  · rw [hruns] at h ⊢
    obtain ⟨path, c, hload, hs⟩ := changeConfig_eq_ok h
    obtain ⟨hfile, hsession, -⟩ := rest_of_change? hf
    exact ⟨path, c, f c, hload, hfile c, hsession c, hs⟩

/-- Where the configuration and the session file are apart, a change of the configuration leaves the
stored token and the place of its file as they were, and every other command, whatever the backend
answers, leaves the configuration as it was. -/
theorem config_and_session_apart {c : Config} (hload : loadConfig s o disk = .ok (path, c))
    (h : Config.Apart disk path (c.tokenPath path)) (command : Command) (replies : List Delivery) :
    let ending := (command.run s o disk).result replies
    (command.configures = true → ∀ text, ending.2 = .ok text →
      ∃ c', loadConfig s o ending.1 = .ok (path, c') ∧ c'.tokenPath path = c.tokenPath path ∧
        (Store.file (c.tokenPath path) ending.1).get? =
          (Store.file (c.tokenPath path) disk).get?) ∧
      (command.configures = false → loadConfig s o ending.1 = .ok (path, c)) := by
  obtain ⟨hpath, hc⟩ := loadConfig_eq_ok_iff.1 hload
  refine ⟨fun hconfigures text htext => ?_, fun hconfigures => ?_⟩
  · obtain ⟨path', c₁, c', hload', hfile, hsession, hs⟩ := exists_save_of_configures hconfigures htext
    rw [hload] at hload'
    cases hload'
    obtain ⟨hpos, hfits⟩ := Config.timeout_of_load hc
    rw [← hsession] at hpos hfits
    have hsaved := Config.load_of_entry hfits (Config.entry_save hs)
    rw [if_neg (by omega)] at hsaved
    refine ⟨c', loadConfig_eq_ok_iff.2 ⟨hpath, hsaved⟩, by simp only [Config.tokenPath, hfile], ?_⟩
    exact Store.get?_of_spares
      (h.spares_of_touches hc (Disk.touches_save (Config.save_eq_ok_iff.1 hs)))
  · obtain ⟨d, hd, -, -, htoken, -⟩ := Desk.load_of_loadConfig hload
    have hlasting : Lasting (On (c.tokenPath path) fun disk =>
        Config.Apart disk path (c.tokenPath path) ∧ Config.load disk path = .ok c) :=
      Store.lasting_on fun disk after hdisk ht =>
        ⟨hdisk.1.of_touches ht, hdisk.1.load_of_touches hdisk.2 ht⟩
    have hkept := (always_run hlasting hd htoken ⟨h, hc⟩ hconfigures).result replies
    exact loadConfig_eq_ok_iff.2 ⟨hpath, hkept.2⟩

/-- Another host is configured beside a session, and a session whose token is refused is cleared
beside the configuration. -/
theorem config_and_session_apart_in_a_directory :
    let s : Surroundings := ⟨none, false, 0, ""⟩
    let o : Options := ⟨.pretty, some "conf/config.yaml", none⟩
    let c : Config := { Config.default with signupPolicy := .autoLogin }
    let disk : Disk :=
      { entries := [(["conf"], .directory),
          (["conf", "config.yaml"], .file "signup_policy: auto_login\n".toUTF8 0o644),
          (["conf", "session.yaml"], .file "access_token: tok\nother: 1\n".toUTF8 0o600)]
        current := [] }
    let refused : List Delivery := [.answered ⟨401, none⟩]
    loadConfig s o disk = .ok ("conf/config.yaml", c) ∧
      Config.Apart disk "conf/config.yaml" (c.tokenPath "conf/config.yaml") ∧
      (Store.file "conf/session.yaml" ((Command.setHost "http://h/").run s o disk |>.result []).1).get? =
        some ⟨"tok"⟩ ∧
      (Store.file "conf/session.yaml" ((Command.status.run s o disk).result refused).1).get? = none ∧
      loadConfig s o ((Command.status.run s o disk).result refused).1 = .ok ("conf/config.yaml", c) := by
  intro s o c disk refused
  have hload : loadConfig s o disk = .ok ("conf/config.yaml", c) := by decide +kernel
  have hlocate : disk.locate "conf/config.yaml" = .ok ⟨["conf", "config.yaml"], false⟩ := by rfl
  have happart : Config.Apart disk "conf/config.yaml" (c.tokenPath "conf/config.yaml") :=
    ⟨by decide +kernel, .inl ⟨_, hlocate⟩⟩
  have htoken : c.tokenPath "conf/config.yaml" = "conf/session.yaml" := by decide +kernel
  have hheld : (Store.file "conf/session.yaml" disk).get? = some ⟨"tok"⟩ := by decide +kernel
  have hok : ((Command.setHost "http://h/").run s o disk |>.result []).2.isOk = true := by
    decide +kernel
  obtain ⟨hset, -⟩ := config_and_session_apart hload happart (.setHost "http://h/") []
  obtain ⟨-, hstatus⟩ := config_and_session_apart hload happart .status refused
  refine ⟨hload, happart, ?_, by decide +kernel, hstatus rfl⟩
  cases hreport : ((Command.setHost "http://h/").run s o disk |>.result []).2 with
  | error e => rw [hreport] at hok; cases hok
  | ok text =>
    obtain ⟨c', -, -, hget⟩ := hset rfl text hreport
    rw [htoken] at hget
    exact hget.trans hheld

/-- In one file, a change of the configuration takes the token away, and a token that is cleared takes
the configuration away.  A change of a configuration above a missing directory makes the directory,
and with it the session file is found. -/
theorem config_and_session_disturb_each_other :
    let s : Surroundings := ⟨none, false, 0, ""⟩
    let o := fun (path : String) => (⟨.pretty, some path, none⟩ : Options)
    let disk : Disk :=
      { entries := [(["session.yaml"], .file "access_token: tok\n".toUTF8 0o600)], current := [] }
    let sets := fun path => ((Command.setHost "http://h").run s (o path) disk).result []
    let shared : Disk :=
      { entries := [(["config.yaml"], .file
          "api_host: http://h\ntoken_file: config.yaml\nother: \x7ba: 1, a: 2\x7d\n".toUTF8 0o600)]
        current := [] }
    (loadConfig s (o "session.yaml") disk = .ok ("session.yaml", .default) ∧
      Config.default.tokenPath "session.yaml" = "session.yaml" ∧
      (Store.file "session.yaml" disk).get? = some ⟨"tok"⟩ ∧ (sets "session.yaml").2.isOk = true ∧
      (Store.file "session.yaml" (sets "session.yaml").1).get? = none) ∧
    (loadConfig s (o "config.yaml") shared =
        .ok ("config.yaml", { Config.default with apiHost := "http://h", tokenFile := "config.yaml" }) ∧
      loadConfig s (o "config.yaml") ((Command.logout.run s (o "config.yaml") shared).result []).1 =
        .ok ("config.yaml", .default)) ∧
    (loadConfig s (o "new/../config.yaml") disk = .ok ("new/../config.yaml", .default) ∧
      Config.default.tokenPath "new/../config.yaml" = "new/../session.yaml" ∧
      (Store.file "new/../session.yaml" disk).get? = none ∧
      (sets "new/../config.yaml").2.isOk = true ∧
      (Store.file "new/../session.yaml" (sets "new/../config.yaml").1).get? = some ⟨"tok"⟩) := by
  decide +kernel

end SessionGuard.Cli
