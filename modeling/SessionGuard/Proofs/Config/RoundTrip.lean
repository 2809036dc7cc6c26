import SessionGuard.Config
import SessionGuard.Proofs.Store.Written
import SessionGuard.Proofs.Yaml.Contents

/-!
# A configuration that is saved is loaded again

The text of a configuration is read as the configuration, whatever its texts are and where they are
missing (`decode?_encode`).  So a saved configuration is loaded again, unless its time limit is zero
(`load_of_entry`).
-/

namespace SessionGuard.Config

open Yaml

/-! ## The document -/

/-- How a token is judged, as entries of a document. -/
def sessionContents (s : SessionSettings) (hs : s.timeoutSeconds < UInt64.size) : List Field :=
  [⟨"validation_timeout_secs", by decide +kernel, .integer s.timeoutSeconds (by omega) (by omega)⟩,
    ⟨"check_token_expiry", by decide +kernel, .flag s.checkExpiry⟩]

theorem nodup_sessionContents (s : SessionSettings) (hs : s.timeoutSeconds < UInt64.size) :
    ((sessionContents s hs).map Field.name).Nodup := by
  show ["validation_timeout_secs", "check_token_expiry"].Nodup
  decide

/-- The fields of a configuration as entries of a document. -/
def contents (c : Config) (hc : c.session.timeoutSeconds < UInt64.size) : List Field :=
  (c.apiHost.map fun s => ⟨"api_host", by decide +kernel, .text s⟩).toList ++
    (c.tokenFile.map fun s => ⟨"token_file", by decide +kernel, .text s⟩).toList ++
    [⟨"signup_policy", by decide +kernel, .text c.signupPolicy.name⟩,
      ⟨"session", by decide +kernel,
        .block (sessionContents c.session hc) (List.cons_ne_nil _ _)
          (nodup_sessionContents c.session hc)⟩]

variable {c : Config}

theorem entries_eq (hc : c.session.timeoutSeconds < UInt64.size) :
    c.entries = (c.contents hc).map Field.value := by
  obtain ⟨host, file, policy, session⟩ := c
  cases host <;> cases file <;> rfl

theorem nodup_contents (hc : c.session.timeoutSeconds < UInt64.size) :
    ((c.contents hc).map Field.name).Nodup := by
  obtain ⟨host, file, policy, session⟩ := c
  cases host <;> cases file <;> simp [contents]

theorem height_contents (hc : c.session.timeoutSeconds < UInt64.size) :
    Field.height (c.contents hc) = 1 := by
  obtain ⟨host, file, policy, session⟩ := c
  cases host <;> cases file <;> rfl

/-- The text of a configuration is read as the mapping of its fields. -/
theorem ofString?_encode (hc : c.session.timeoutSeconds < UInt64.size) :
    ∃ limit, Document.ofString? c.encode =
      some ⟨some (.mapping .empty ((c.contents hc).map Field.node)), [], limit⟩ := by
  have hne : c.contents hc ≠ [] := by simp [contents]
  rw [encode, entries_eq hc]
  exact Field.ofString?_render hne (by rw [height_contents]; decide)

/-! ## Reading -/

section Reading

variable {d : Document}

/-- A text that its style keeps is no null. -/
theorem optionalText_scalar (s : String) :
    optionalText d (.scalar .empty s.toList (styleOf s false)) = pure (some s) := by
  have hkeeps := keeps_styleOf s
  generalize styleOf s false = style at hkeeps
  have hread : optionalText d (.scalar .empty s.toList style) =
      if style != Style.plain then pure (some (String.ofList s.toList))
      else if (String.ofList s.toList).isEmpty || Plain.isNull (String.ofList s.toList) then pure none
      else pure (some (String.ofList s.toList)) := rfl
  have hisText := hkeeps.isText
  rw [hread]
  rw [String.ofList_toList] at hisText ⊢
  by_cases hplain : style = .plain
  · have htext := hisText hplain
    have hnull : (s.isEmpty || Plain.isNull s) = false := by
      unfold Plain.ofText at htext
      split at htext
      · cases htext
      · next h => simpa using h
    rw [hnull, hplain]
    rfl
  · have hne : (style != Style.plain) = true := by simpa using hplain
    rw [if_pos hne]

theorem natural_scalar {n : Nat} (hn : n < UInt64.size) :
    natural d (.scalar .empty (toString (n : Int)).toList .plain) = pure n := by
  have hfollow (cs : List Char) : d.follow (.scalar .empty cs .plain) =
      pure (.scalar .empty cs .plain) := rfl
  have hbare (tag : Option (List Char)) : isBare "int" tag .plain = true := rfl
  simp only [natural, toList_toString, hfollow, pure_bind, hbare, if_true, natural?_toDigits, hn]

theorem boolean_scalar (b : Bool) :
    boolean d (.scalar .empty (Content.flagWord b).toList .plain) = pure b := by
  cases b <;> rfl

theorem policy_scalar (p : SignupPolicy) (style : Style) :
    policy d (.scalar .empty p.name.toList style) = pure p := by
  cases p <;> rfl

/-- Of names that stand once each, one has no more than one value. -/
theorem filter_name {fs : List Field} (hnodup : (fs.map Field.name).Nodup) (name : String) :
    (fs.map fun f => (f.name, f.content.node)).filter (fun e => e.1 == name) =
      ((fs.find? fun f => f.name == name).map fun f => (f.name, f.content.node)).toList := by
  induction fs with
  | nil => rfl
  | cons f fs ih =>
    obtain ⟨hmem, hnodup⟩ := List.nodup_cons.1 hnodup
    by_cases hf : f.name = name
    · have hnone : (fs.find? fun g => g.name == name) = none :=
        List.find?_eq_none.2 fun g hg hname => hmem (List.mem_map.2 ⟨g, hg, by simp_all⟩)
      simpa [hf, hnone] using ih hnodup
    · simpa [hf] using ih hnodup

/-- Of names that stand once each, what stands behind them is found. -/
theorem fields_node {fs : List Field} (hnodup : (fs.map Field.name).Nodup) (names : List String) :
    fields d names (fs.map Field.node) =
      pure (names.map fun name => (fs.find? fun f => f.name == name).map fun f => f.content.node) := by
  have hnamed : ((fs.map Field.node).mapM fun e => do
      let k ← d.text e.1
      pure (k, e.2)) = (pure (fs.map fun f => (f.name, f.content.node)) : Document.Reader _) :=
    Field.mapM_node fun f _ => by
      rw [Field.text_node]
      rfl
  rw [fields, hnamed, pure_bind]
  refine (congrArg (fun read => names.mapM read) (funext fun name => ?_)).trans List.mapM_pure
  rw [filter_name hnodup]
  cases fs.find? fun f => f.name == name <;> rfl

theorem settings_block (s : SessionSettings) (hs : s.timeoutSeconds < UInt64.size) :
    settings d (.mapping .empty ((sessionContents s hs).map Field.node)) = pure s := by
  have hentries : d.entries (.mapping .empty ((sessionContents s hs).map Field.node)) =
      pure ((sessionContents s hs).map Field.node) := rfl
  rw [settings, hentries, pure_bind, fields_node (nodup_sessionContents s hs), pure_bind]
  show (do
    let timeout ← natural d (.scalar .empty (toString (s.timeoutSeconds : Int)).toList .plain)
    let check ← boolean d (.scalar .empty (Content.flagWord s.checkExpiry).toList .plain)
    pure (SessionSettings.mk timeout check)) = pure s
  rw [natural_scalar hs, boolean_scalar]
  rfl

/-- The document of a configuration is read as the configuration. -/
theorem run_ofDocument (hc : c.session.timeoutSeconds < UInt64.size)
    (hroot : d.root = some (.mapping .empty ((c.contents hc).map Field.node))) :
    Document.run (ofDocument d) = some c := by
  have hentries : d.rootEntries = pure ((c.contents hc).map Field.node) := by
    rw [Document.rootEntries, hroot]
    rfl
  have hfields : fields d ["api_host", "token_file", "signup_policy", "session"]
      ((c.contents hc).map Field.node) =
        pure [c.apiHost.map fun s => .scalar .empty s.toList (styleOf s false),
          c.tokenFile.map fun s => .scalar .empty s.toList (styleOf s false),
          some (.scalar .empty c.signupPolicy.name.toList (styleOf c.signupPolicy.name false)),
          some (.mapping .empty ((sessionContents c.session hc).map Field.node))] := by
    rw [fields_node (nodup_contents hc)]
    obtain ⟨host, file, signup, session⟩ := c
    cases host <;> cases file <;> rfl
  have htext (value : Option String) : fieldOr none (optionalText d)
      (value.map fun s => .scalar .empty s.toList (styleOf s false)) = pure value := by
    cases value with
    | none => rfl
    | some s => exact optionalText_scalar s
  simp only [ofDocument, hentries, pure_bind, hfields, htext]
  simp only [fieldOr, policy_scalar, settings_block, pure_bind]
  rfl

end Reading

/-- The text of a configuration is read as the configuration. -/
theorem decode?_encode (hc : c.session.timeoutSeconds < UInt64.size) : decode? c.encode = some c := by
  obtain ⟨limit, hdoc⟩ := ofString?_encode hc
  rw [decode?, hdoc]
  exact run_ofDocument hc rfl

/-! ## Files -/

variable {disk disk' : Disk} {path : String}

/-- A configuration is saved where a file can be written. -/
theorem save_eq_ok_iff :
    c.save disk path = .ok disk' ↔ disk.save .after path c.encode = .ok disk' := by
  unfold save
  cases disk.save .after path c.encode <;> simp

/-- A configuration cannot be saved where its text cannot. -/
theorem save_eq_error {failed : Failed ConfigError Disk} (h : c.save disk path = .error failed) :
    ∃ cause, failed.cause = .file cause ∧
      disk.save .after path c.encode = .error ⟨cause, failed.left⟩ := by
  unfold save at h
  cases hs : disk.save .after path c.encode with
  | ok disk' => rw [hs] at h; cases h
  | error e =>
    rw [hs] at h
    cases h
    exact ⟨e.cause, rfl, rfl⟩

/-- A configuration that has been saved is the text of its file, for its owner only. -/
theorem entry_save (h : c.save disk path = .ok disk') :
    disk'.entry path = .ok (.file c.encode.toUTF8 .ownerOnly) :=
  Disk.entry_save (save_eq_ok_iff.1 h)

/-- The file of a configuration is loaded as it, unless its time limit is zero. -/
theorem load_of_entry (hc : c.session.timeoutSeconds < UInt64.size)
    (h : disk.entry path = .ok (.file c.encode.toUTF8 .ownerOnly)) :
    load disk path = if c.session.timeoutSeconds = 0 then .error .zeroTimeout else .ok c := by
  have hread : disk.readText path = .ok c.encode :=
    Disk.readText_eq_ok_iff.2 ⟨_, h, System.mayRead_ownerOnly _⟩
  simp only [load, Disk.pathExists_of_entry h, Bool.not_true, Bool.false_eq_true, if_false, hread,
    decode?_encode hc]

/-- Whatever its texts are, a configuration that has been saved is loaded again as it was, and saved
again it leaves the same bytes.  The file is for its owner only, whatever was there before.  Only a
time limit of zero is not loaded. -/
theorem saved_config_loads_again (c : Config) (disk : Disk) (path : String)
    (hw : disk.Writable path) (hc : c.session.timeoutSeconds < UInt64.size) :
    ∃ disk', c.save disk path = .ok disk' ∧
      disk'.entry path = .ok (.file c.encode.toUTF8 .ownerOnly) ∧
      (c.session.timeoutSeconds = 0 → load disk' path = .error .zeroTimeout) ∧
      (0 < c.session.timeoutSeconds → load disk' path = .ok c) ∧
      ∀ c', load disk' path = .ok c' →
        ∃ disk'', c'.save disk' path = .ok disk'' ∧ disk''.entry path = disk'.entry path := by
  obtain ⟨disk', hsave⟩ := hw .after c.encode
  have hsave : c.save disk path = .ok disk' := save_eq_ok_iff.2 hsave
  have hentry := entry_save hsave
  have hload := load_of_entry hc hentry
  refine ⟨disk', hsave, hentry, fun h0 => by rw [hload, if_pos h0],
    fun hpos => by rw [hload, if_neg (by omega)], fun c' hc' => ?_⟩
  obtain rfl : c = c' := by
    rw [hload] at hc'
    split at hc'
    · cases hc'
    · exact Except.ok.inj hc'
  obtain ⟨disk'', hagain⟩ := hw.save (save_eq_ok_iff.1 hsave) .after c.encode
  have hagain : c.save disk' path = .ok disk'' := save_eq_ok_iff.2 hagain
  exact ⟨disk'', hagain, (entry_save hagain).trans hentry.symm⟩

/-- Over a file that anyone can read, a configuration is saved whose host is the word for null and
whose file has a colon, a quote, a number sign and a line break in its name. -/
theorem awkward_config_loads_again :
    let disk : Disk :=
      { entries := [(["config.yaml"], .file "api_host: x\n".toUTF8 0o644)], current := [] }
    let c : Config := ⟨some "null", some " a: '#\n", .autoLogin, ⟨18446744073709551615, false⟩⟩
    disk.Writable "config.yaml" ∧ c.session.timeoutSeconds < UInt64.size ∧
      ∃ disk', c.save disk "config.yaml" = .ok disk' ∧ load disk' "config.yaml" = .ok c := by
  intro disk c
  have hparents : disk.makeParents "config.yaml" = .ok disk := by rfl
  have hfile : disk.find? ["config.yaml"] = some (.file "api_host: x\n".toUTF8 0o644) := by rfl
  have hopens : disk.Opens "config.yaml" ["config.yaml"] (some 0o644) :=
    .there (by rfl) hfile (by decide)
  have hwhole : disk.Whole "config.yaml" := by
    refine Disk.whole_of_owned rfl fun x hx content mode he => ?_
    obtain rfl := List.mem_singleton.1 hx
    cases he
    rfl
  have hw : disk.Writable "config.yaml" := hwhole.writable hparents hopens
  have hc : c.session.timeoutSeconds < UInt64.size := by decide
  obtain ⟨disk', hsave, -, -, hload, -⟩ := saved_config_loads_again c disk "config.yaml" hw hc
  exact ⟨hw, hc, disk', hsave, hload (by decide)⟩

end SessionGuard.Config
