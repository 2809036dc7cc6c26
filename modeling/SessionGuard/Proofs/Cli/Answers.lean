import SessionGuard.Proofs.Cli.Changes
import SessionGuard.Proofs.Http.Transcript
import SessionGuard.Proofs.Json.Writing

/-!
# Answers for programs

With documents asked for, a command that has done its work prints one document and nothing else, and
one that fails prints nothing — unless it changes the configuration: then it prints a line for a reader
all the same (`json_answers_iff`).
-/

namespace SessionGuard.Cli

open Http (Delivery Exchange)
open Json (Denotes Raw Spells)

variable {s : Surroundings} {o : Options} {disk : Disk} {command : Command} {name : String}

/-- A text is one JSON document and a line break: an object of `data` and `meta`, where `command`
names the command. -/
def IsAnswer (name text : String) : Prop :=
  ∃ cs k data k' about key command, text.toList = cs ++ ['\n'] ∧
    Spells (.value (.object [(k, data), (k', .object about)])) cs ∧
    Denotes k "data" ∧ Denotes k' "meta" ∧
    (key, .string command) ∈ about ∧ Denotes key "command" ∧ Denotes command name

/-! ## Documents -/

theorem denotes_escaped (s : String) : Denotes ((Json.escaped s).map some) s :=
  ⟨_, rfl, Json.writes_escaped s⟩

theorem isAnswer_document (d : Display) (name : String) {data : Json} (h : data.IsExact) :
    IsAnswer name (d.document name data) := by
  obtain ⟨raw, hraw⟩ := Option.isSome_iff_exists.1 h
  have hdocument := Json.spells_pretty (v := Envelope.wrap name d.stamp data) (by
    simp [Envelope.wrap, Raw.ofJson?, Raw.ofMembers?, hraw]
    rfl)
  refine ⟨_, _, raw, _, _, _, _, ?_, hdocument, denotes_escaped _, denotes_escaped _,
    List.mem_cons_self, denotes_escaped _, denotes_escaped _⟩
  simp [Display.document, Envelope.text]

theorem isAnswer_report {d : Display} (hd : d.format = .json) (name : String) {data : Json}
    (h : data.IsExact) (list : List String) : IsAnswer name (d.report name data list) := by
  rw [Display.report, hd]
  exact isAnswer_document d name h

@[simp] theorem isExact_profile (user : UserProfile) : user.toJson.IsExact := by
  unfold UserProfile.toJson
  cases user.fullName <;> simp

@[simp] theorem isExact_userJson (user : Option UserProfile) : (userJson user).IsExact := by
  cases user <;> simp [userJson]

theorem isExact_configFields (c : Config) : ∀ m ∈ configFields c, m.2.IsExact := by
  unfold configFields
  cases c.apiHost <;> cases c.tokenFile <;> simp

/-! ## Commands that answer -/

/-- A report that a command makes is an answer of it. -/
def Answers (name : String) (e : Except Failure String) : Prop :=
  ∀ text, e = .ok text → IsAnswer name text

theorem answers_error (name : String) (e : Failure) : Answers name (.error e) := by
  rintro text ⟨⟩

theorem answers_ok {text : String} (h : IsAnswer name text) : Answers name (.ok text) := by
  rintro _ ⟨⟩
  exact h

theorem answers_messageReport {d : Display} (hd : d.format = .json) (name : String)
    (outcome : Outcome) : Answers name (messageReport d name outcome) := by
  unfold messageReport
  split
  · exact answers_ok (isAnswer_report hd _ (by simp [Message.toJson]) _)
  · exact answers_error _ _
  · exact answers_error _ _

theorem answers_withDesk {run : Desk → Exchange Ending}
    (h : ∀ desk, (run desk).Always fun e => Answers name e.2) :
    (withDesk s o disk run).Always fun e => Answers name e.2 := by
  unfold withDesk
  split
  · exact Exchange.always_done (answers_error _ _)
  · exact h _

theorem answers_withForm (ho : o.format = .json) {screen : Route} {fill : Except Failure Operation}
    {report : Desk → Outcome → Except Failure String}
    (h : ∀ desk outcome, Answers name (report desk outcome)) :
    (withForm s o disk name screen fill report).Always fun e => Answers name e.2 := by
  refine answers_withDesk fun desk => (Exchange.always_true _).bind fun entered _ => ?_
  obtain ⟨desk, decision⟩ := entered
  cases decision with
  | redirect =>
    exact Exchange.always_done (answers_ok (isAnswer_report ho _ (by simp [signedInJson, routeJson]) _))
  | render | loading =>
    cases fill with
    | error e => exact Exchange.always_done (answers_error _ _)
    | ok op =>
      refine (Exchange.always_true _).bind fun performed _ => Exchange.always_done ?_
      obtain ⟨desk, progress⟩ := performed
      cases progress with
      | finished outcome => exact h desk outcome
      | waiting => exact answers_error _ _

/-- Every command but for changes of the configuration answers in a document. -/
theorem answers_run (ho : o.format = .json) (hc : command.configures = false)
    (hshell : ∀ shell, command ≠ .completion shell) :
    (command.run s o disk).Always fun e => Answers command.name e.2 := by
  have hd : (s.display o.format).format = .json := ho
  unfold Command.run
  cases command with
  | login =>
    refine answers_withForm ho fun desk outcome => ?_
    split
    · exact answers_ok (isAnswer_report hd _ (by simp [signedInJson, routeJson]) _)
    · exact answers_error _ _
    · exact answers_error _ _
  | signup =>
    refine answers_withForm ho fun desk outcome => ?_
    split
    · exact answers_ok (isAnswer_report hd _ (by simp) _)
    · exact answers_error _ _
    · exact answers_error _ _
  | recover | resetPassword =>
    exact answers_withForm ho fun desk outcome => answers_messageReport hd _ outcome
  | logout =>
    refine answers_withDesk fun desk => (Exchange.always_true _).bind fun _ _ => Exchange.always_done ?_
    exact answers_ok (isAnswer_report hd _ (by simp [routeJson]) _)
  | status =>
    refine answers_withDesk fun desk => (Exchange.always_true _).bind fun restored _ =>
      Exchange.always_done ?_
    refine answers_ok (isAnswer_report hd _ ?_ _)
    cases restored.app.tokenExpiry? <;> simp [sessionFields]
  | visit path =>
    refine answers_withDesk fun desk => (Exchange.always_true _).bind fun entered _ =>
      Exchange.always_done ?_
    obtain ⟨desk, decision⟩ := entered
    refine answers_ok (isAnswer_report hd _ ?_ _)
    cases hr : decision.route? <;> simp [sessionFields, routeJson, decisionJson, navigationJson, hr]
  | routes =>
    exact Exchange.always_done (answers_ok (isAnswer_report hd _ (by simp) _))
  | showConfig =>
    dsimp only
    split
    · exact Exchange.always_done (answers_error _ _)
    · next path config _ =>
      refine Exchange.always_done (answers_ok (isAnswer_report hd _ ?_ _))
      simp only [Json.isExact_object, List.forall_mem_append]
      exact ⟨by simp, isExact_configFields config⟩
  | setHost | setSignupPolicy => cases hc
  | completion shell => exact absurd rfl (hshell shell)

/-! ## Changes of the configuration -/

/-- A line that tells of something done is no document. -/
theorem not_isAnswer_tick (d : Display) (rest : String) :
    ¬ IsAnswer name (Display.lines [d.tick ++ rest]) := by
  rintro ⟨cs, k, data, k', about, key, command, htext, hspells, -⟩
  have hbrace : cs.head? = some '\x7b' := by
    cases hspells
    rfl
  have hhead : (cs ++ ['\n']).head? = some '\x7b' := by rw [List.head?_append, hbrace]; rfl
  rw [← htext] at hhead
  cases hs : d.styled <;>
    simp [Display.lines, Display.tick, Display.paint, Text.Style.paint, Text.Style.start, hs] at hhead

/-- A change of the configuration never answers in a document. -/
theorem not_answers_run (hc : command.configures = true) :
    (command.run s o disk).Always fun e => ∀ text, e.2 = .ok text → ¬ IsAnswer name text := by
  rcases run_of_configures s o hc with ⟨-, e, hruns⟩ | ⟨f, words, -, hruns⟩
  · rw [hruns]
    exact Exchange.always_done fun text h => by cases h
  · rw [hruns]
    refine Exchange.always_done fun text h => ?_
    rw [snd_changeConfig h]
    exact not_isAnswer_tick _ words

/-- With documents asked for, on the command line or by the environment, a run of a command ends in
one of two ways, whatever the files and the replies.  It fails and prints nothing, or it succeeds, and
then it prints one document with the name of the command, exactly if it does not change the
configuration. -/
theorem json_answers_iff {environment : List (String × String)} {arguments : List String}
    {i : Invocation} (hread : Invocation.read environment arguments = .ok i)
    (hformat : i.options.format = .json) (hshell : ∀ shell, i.command ≠ .completion shell)
    (s : Surroundings) (disk : Disk) (replies : List Delivery) :
    ∃ exchange, run s environment arguments disk = .ok exchange ∧
      let e := exchange.result replies
      e.exitCode = 1 ∧ e.stdout = "" ∨
        e.exitCode = 0 ∧ (IsAnswer i.command.name e.stdout ↔ i.command.configures = false) := by
  refine ⟨i.command.run s i.options disk, by rw [run, hread]; rfl, ?_⟩
  intro e
  cases he : e.2 with
  | error cause => exact .inl ⟨by simp [Ending.exitCode, he], by simp [Ending.stdout, he]⟩
  | ok text =>
    have hout : e.stdout = text := by simp [Ending.stdout, he]
    refine .inr ⟨by simp [Ending.exitCode, he], ?_⟩
    rw [hout]
    cases hc : i.command.configures with
    | false => simpa using (answers_run hformat hc hshell).result replies text he
    | true => simpa using (not_answers_run hc).result replies text he

/-- The screens are listed in a document, to a program that asks by the environment. -/
theorem json_answers_for_routes :
    let s : Surroundings := ⟨none, false, 0, "2024-02-29T00:00:00+00:00"⟩
    let disk : Disk := { entries := [], current := [] }
    ∃ exchange, run s [("SESSIONGATE_FORMAT", "json")] ["routes"] disk = .ok exchange ∧
      (exchange.result []).exitCode = 0 ∧ IsAnswer "routes" (exchange.result []).stdout := by
  intro s disk
  have hread : Invocation.read [("SESSIONGATE_FORMAT", "json")] ["routes"] =
      .ok ⟨⟨.json, none, none⟩, .routes⟩ := by rfl
  obtain ⟨exchange, hrun, h⟩ :=
    json_answers_iff hread rfl (fun shell => Command.noConfusion) s disk []
  refine ⟨exchange, hrun, ?_⟩
  obtain rfl : exchange = Command.routes.run s ⟨.json, none, none⟩ disk := by
    rw [run, hread] at hrun
    exact (Except.ok.inj hrun).symm
  rcases h with ⟨hexit, -⟩ | ⟨hexit, hiff⟩
  · cases hexit
  · exact ⟨hexit, hiff.2 rfl⟩

/-- A host is set with a line for a reader, though a document is asked for. -/
theorem set_host_answers_in_a_line :
    let s : Surroundings := ⟨none, false, 0, "2024-02-29T00:00:00+00:00"⟩
    let disk : Disk := { entries := [], current := [] }
    let arguments :=
      ["config", "set-host", "http://h", "--config", "config.yaml", "--format", "json"]
    ∃ i, Invocation.read [] arguments = .ok i ∧ i.options.format = .json ∧
      let e := (i.command.run s i.options disk).result []
      e.exitCode = 0 ∧ e.stdout = "✓ Backend set to http://h\n" ∧
        ¬ IsAnswer i.command.name e.stdout := by
  intro s disk arguments
  have hread : Invocation.read [] arguments =
      .ok ⟨⟨.json, some "config.yaml", none⟩, .setHost "http://h"⟩ := by rfl
  have hended : (((Command.setHost "http://h").run s ⟨.json, some "config.yaml", none⟩
      disk).result []).exitCode = 0 := by decide +kernel
  have hprinted : (((Command.setHost "http://h").run s ⟨.json, some "config.yaml", none⟩
      disk).result []).stdout = "✓ Backend set to http://h\n" := by decide +kernel
  refine ⟨_, hread, rfl, hended, hprinted, ?_⟩
  dsimp only
  rw [hprinted]
  exact not_isAnswer_tick (s.display .json) " Backend set to http://h"

end SessionGuard.Cli
