import HostPrereqs.Proofs.CommandLine.Bodies
import HostPrereqs.Proofs.Loading.Written
import Mathlib

/-!
# Command line — how runs end

A run that comes to a task ends with what came of the task's body (`Ends`): a finding is written on
the output after the dialogues of the questions, a failure is told on the error stream, and the
status says which of them it was.  A finding that the output does not take ends the run as a crash.

`ends_run` says so of all such runs.  The statuses of a user's failure are kept for refusals, and
whatever happens, nothing is bound to the records after a resolution.
-/

namespace HostPrereqs

/-! ### The text of a failure -/

namespace Report

/-- The text of a failure begins with its message on the first lines. -/
theorem exists_errorText (message : String) (details : List String) (suggestion : Option String) :
    ∃ rest, errorText message details suggestion ++ "\n" =
      "Error: " ++ message ++ "\n" ++ rest := by
  unfold errorText
  rw [List.cons_append]
  cases hlines : details.map ("  " ++ ·) ++
      (suggestion.filter (· != "")).toList.map ("Suggestion: " ++ ·) with
  | nil =>
      refine ⟨"", ?_⟩
      rw [String.intercalate_singleton, String.append_empty]
      rfl
  | cons line lines =>
      refine ⟨"\n".intercalate (line :: lines) ++ "\n", ?_⟩
      rw [String.intercalate_cons_cons, String.append_assoc]
      rfl

theorem status_of_user {report : Report} (hkind : report.kind = .user) :
    report.status = if report.message ∈ unsupportedMessages then .unsupported else .failure := by
  unfold status isUnsupportedPlatform
  rw [hkind]
  simp

theorem status_of_ne {report : Report} (hkind : report.kind ≠ .user) :
    report.status = .usage := by
  unfold status
  split
  · rename_i heq
    exact absurd heq hkind
  · rfl

/-- Escape sequences of the message are left out. -/
theorem exists_errorOutput (report : Report) :
    ∃ rest, report.errorOutput = "Error: " ++ Text.stripEscapes report.message ++ "\n" ++ rest := by
  obtain ⟨rest, htext⟩ := exists_errorText report.message report.details report.suggestion
  refine ⟨Text.stripEscapes rest, ?_⟩
  have hchars : ("Error: " ++ report.message ++ "\n" ++ rest).toList =
      "Error: ".toList ++ (report.message.toList ++ '\n' :: rest.toList) := by
    simp [String.toList_append]
  rw [errorOutput, htext, Text.stripEscapes, hchars, Text.dropEscapes_append (by decide),
    Text.dropEscapes_line]
  refine String.toList_inj.1 ?_
  simp [Text.stripEscapes, String.toList_append]

end Report

namespace CommandLine

variable {files : Files} {locations : Settings.Locations} {args : List String} {h : Host}
  {choices : HostChoices} {b : Beginning}

/-! ### Endings -/

namespace Finding

/-- What a task tells reaches the output as it is. -/
theorem shown_text (finding : Finding) (h : Host) : h.shown finding.text = finding.text := by
  have hbasic : IsBasic finding.text.toList := by
    cases finding with
    | answer holds => cases holds <;> decide
    | requirements result format =>
        rw [text, String.toList_append]
        exact isBasic_append.2 ⟨format.isBasic_render result.textual_toValue, by decide⟩
  unfold Host.shown
  split
  · rfl
  · exact stripEscapes_of_isBasic hbasic

end Finding

/-- A failure is told on the error stream, beginning with its message, and by a status: one for
failures by which the user says that the system is not supported, one for other failures of the
user, and one for all others. -/
structure IsTold (report : Report) (outcome : Outcome) : Prop where
  errors : ∃ rest,
    outcome.errors = "Error: " ++ Text.stripEscapes report.message ++ "\n" ++ rest
  unsupported : outcome.status.code = 3 ↔
    report.kind = .user ∧ report.message ∈ Report.unsupportedMessages
  failure : outcome.status.code = 1 ↔
    report.kind = .user ∧ report.message ∉ Report.unsupportedMessages
  usage : outcome.status.code = 2 ↔ report.kind ≠ .user
  crash : outcome.crash = none

/-- How a run ends whose body has come to a result on a host: the outcome, and all that is on the
output.  The result is told after what was written before; nothing more is written if there is none.
Where the output does not take all of what is told, the run crashes. -/
inductive Ends (h : Host) : Except Stop Finding → Outcome → String → Prop where
  | holds {outcome : Outcome} (takes : h.stops? "true\n" = none)
      (status : outcome.status.code = 0) (errors : outcome.errors = "")
      (crash : outcome.crash = none) :
      Ends h (.ok (.answer true)) outcome (h.written ++ "true\n")
  | fails {outcome : Outcome} (takes : h.stops? "false\n" = none)
      (status : outcome.status.code = 1) (errors : outcome.errors = "")
      (crash : outcome.crash = none) :
      Ends h (.ok (.answer false)) outcome (h.written ++ "false\n")
  | requires {outcome : Outcome} {result : Requirements} {format : OutputFormat}
      (takes : h.stops? (format.render result.toValue ++ "\n") = none)
      (status : outcome.status.code = 0) (errors : outcome.errors = "")
      (crash : outcome.crash = none) :
      Ends h (.ok (.requirements result format)) outcome
        (h.written ++ (format.render result.toValue ++ "\n"))
  | cutShort {outcome : Outcome} {finding : Finding} {n : Nat}
      (stops : h.stops? finding.text = some n) (status : outcome.status.code = 1)
      (errors : outcome.errors = "") (crash : outcome.crash = some (.host .output)) :
      Ends h (.ok finding) outcome (h.written ++ String.ofList (finding.text.toList.take n))
  | failed {outcome : Outcome} {report : Report} (told : IsTold report outcome) :
      Ends h (.error (.failure report)) outcome h.written
  | crashed {outcome : Outcome} {cause : Crash} (status : outcome.status.code = 1)
      (errors : outcome.errors = "") (crash : outcome.crash = some cause) :
      Ends h (.error (.crash cause)) outcome h.written

theorem isTold_of (display : Log.Display) (report : Report) :
    IsTold report (.of display (.error (.failure report))) := by
  have hstatus : (Outcome.of display (.error (.failure report))).status = report.status := rfl
  by_cases hkind : report.kind = .user
  · have hcode := Report.status_of_user hkind
    by_cases hmessage : report.message ∈ Report.unsupportedMessages
    · rw [if_pos hmessage] at hcode
      refine ⟨report.exists_errorOutput, ?_, ?_, ?_, rfl⟩ <;>
        simp [hstatus, hcode, hkind, hmessage, ExitStatus.code]
    · rw [if_neg hmessage] at hcode
      refine ⟨report.exists_errorOutput, ?_, ?_, ?_, rfl⟩ <;>
        simp [hstatus, hcode, hkind, hmessage, ExitStatus.code]
  · have hcode := Report.status_of_ne hkind
    refine ⟨report.exists_errorOutput, ?_, ?_, ?_, rfl⟩ <;>
      simp [hstatus, hcode, hkind, ExitStatus.code]

/-- Telling a finding is writing its text, and what stops it is the output. -/
theorem run_announce (finding : Finding) (h : Host) : announce finding h =
    match h.stops? finding.text with
    | none => (.ok finding.status, h.wrote finding.text)
    | some n => (.error (.crash (.host .output)), h.wroteStart finding.text n) := by
  rw [announce, Host.run_bind, printed, Host.run_adapt, Host.write]
  cases h.stops? finding.text <;> rfl

/-- How a run ends that does nothing else but tell a result. -/
theorem ends_announce {x : Except Stop Finding} (hx : ∀ stop, x = .error stop → stop.Told)
    (display : Log.Display) (h : Host) (log : List Log.Record) :
    Ends h x
      (.of display ((MonadExcept.ofExcept x >>= announce : Step ExitStatus) { h with log }).1)
      ((MonadExcept.ofExcept x >>= announce : Step ExitStatus) { h with log }).2.written := by
  rw [Host.run_bind, Host.run_ofExcept]
  cases x with
  | ok finding =>
      dsimp only
      have hstops : ({ h with log } : Host).stops? finding.text = h.stops? finding.text := rfl
      have hshown := finding.shown_text { h with log }
      rw [run_announce, hstops]
      cases htaken : h.stops? finding.text with
      | some n =>
          dsimp only
          rw [Host.wroteStart, hshown]
          exact .cutShort htaken rfl rfl rfl
      | none =>
          dsimp only
          rw [Host.wrote, hshown]
          cases finding with
          | answer holds =>
              cases holds with
              | true => exact .holds htaken rfl rfl rfl
              | false => exact .fails htaken rfl rfl rfl
          | requirements result format => exact .requires htaken rfl rfl rfl
  | error stop =>
      cases hx stop rfl with
      | failure report => exact .failed (isTold_of display report)
      | crash cause => exact .crashed rfl rfl rfl

theorem Ends.of_requirements {written : String} {result : Requirements} {format : OutputFormat}
    {outcome : Outcome} (hends : Ends h (.ok (.requirements result format)) outcome written)
    (htakes : h.stops? (format.render result.toValue ++ "\n") = none) :
    outcome.status.code = 0 ∧ outcome.errors = "" ∧ outcome.crash = none ∧
      written = h.written ++ (format.render result.toValue ++ "\n") := by
  cases hends with
  | requires _ status errors crash => exact ⟨status, errors, crash, rfl⟩
  | cutShort stops => cases htakes.symm.trans stops

/-- A run that comes to a task with a body ends with what comes of it. -/
theorem Begins.ends (hb : Begins files locations args h b) {body : Step Finding}
    (hbody : b.task.body? b.settings files = some body) :
    Ends (body b.host).2 (body b.host).1 (run files locations args h).1
      (run files locations args h).2.written := by
  obtain ⟨log, hperform⟩ := Task.perform_eq hbody b.host
  rw [hb.run_eq, hperform]
  exact ends_announce (Task.failsWith_body hbody b.host) _ (body b.host).2 log

def refusingText : String :=
  "[\x7b\"condition\": [\"is_os\", \"linux\"], \"error\": \"OS unsupported\"\x7d]"

def refusingData : Value :=
  .list [.record [("condition", .strs ["is_os", "linux"]), ("error", .str "OS unsupported")]]

def refusingEntry : Entry where
  condition := .words [.str "is_os", .str "linux"]
  prereqs := none
  phase := "runtime"
  relation := "requires"
  error := some "OS unsupported"

/-- Where there are no settings files and no variables, the settings are the usual ones. -/
theorem loadSettings_usual {files : Files} {h : Host} (henvironment : h.environment = [])
    (hproject : files.isThere "/p/dynreqs.yaml" = false)
    (huser : files.isThere "/h/.config/dynreqs/config.yaml" = false) :
    loadSettings files ⟨"/p", "/h"⟩ none h = (.ok Settings.usual, h) := by
  have hlayer : Settings.environmentLayer h.environment = .ok [] := by
    rw [henvironment]
    rfl
  have hgiven : (⟨[], [], []⟩ : Settings.Layers).Given files ⟨"/p", "/h"⟩ none h :=
    ⟨hlayer, fun host => congrArg Prod.fst (Settings.fileLayer_of_absent hproject host),
      fun host => congrArg Prod.fst (Settings.fileLayer_of_absent huser host)⟩
  have hmerged : (⟨[], [], []⟩ : Settings.Layers).merged = [] := by
    simp [Settings.Layers.merged, Settings.overlay_nil]
  have hread : Settings.ofMapping [] = .ok Settings.usual := by rfl
  obtain ⟨h', hload⟩ := Settings.load_of_given hgiven (by simp) (by simp [hmerged])
    (hmerged ▸ hread)
  exact loadSettings_of_load hload

/-- What is recorded of loading the document. -/
def loadingRecord : Log.Record :=
  ⟨.debug, Loading.logger, "loading_document", [("path", .str (Path.normal "d.json"))]⟩

theorem loadFile_refusing {files : Files} (h : Host)
    (hbytes : files.readBytes "d.json" = .ok refusingText.toUTF8) :
    loadFile files "d.json" false h =
      (.ok (.empty, ⟨1, [refusingEntry]⟩), { h with log := h.log ++ [loadingRecord] }) := by
  have hsuffix : Path.suffix "d.json" = ".json" := by decide +kernel
  have hnormal : Path.normal "d.json" = "d.json" := by decide +kernel
  have hjson : Json.read refusingText = .ok refusingData := by cbv
  have hholds : files.Holds "d.json" refusingText :=
    Files.holds_of_not_mem (by decide +kernel) (hnormal ▸ hbytes)
  have hread : Loading.readData files "d.json" = .ok refusingData := by
    rw [Loading.readData_of_holds hholds, hnormal, Loading.readText, if_pos hsuffix, hjson]
    rfl
  have hdocument : Document.ofValue refusingData = .ok ⟨1, [refusingEntry]⟩ := by cbv
  have hof : (do Loading.documentOf "d.json" (← Loading.readData files "d.json") :
      Except LoadError Document) = .ok ⟨1, [refusingEntry]⟩ := by
    rw [hread]
    change Loading.documentOf "d.json" refusingData = _
    rw [Loading.documentOf, hdocument]
    rfl
  have hload : Loading.loadDocument files "d.json" h =
      (.ok ⟨1, [refusingEntry]⟩, { h with log := h.log ++ [loadingRecord] }) := by
    rw [Loading.loadDocument, hof]
    rfl
  rw [loadFile_document, hload]
  rfl

theorem parse_refusing : Condition.parse (Entry.conditionValue refusingEntry) =
    .ok (.command "is_os" ["linux"] false) := by
  change Condition.parse (.list [.str "is_os", .str "linux"]) = _
  rw [Condition.parse_of_itemsOf rfl]
  rfl

/-- The document comes to one command. -/
theorem resolutionVisits_refusing (r : Resolver) (h : Host) :
    r.resolutionVisits (.document ⟨1, [refusingEntry]⟩) .null h =
      [⟨⟨"is_os", ["linux"]⟩, h⟩] := by
  have hentries : Entry.ofValues [.entry refusingEntry] = .ok [refusingEntry] := by rfl
  have hcome : r.evaluationVisits (Entry.conditionValue refusingEntry) h =
      [⟨⟨"is_os", ["linux"]⟩, h⟩] := by
    rw [Resolver.evaluationVisits, Condition.evaluationVisits, parse_refusing]
    rfl
  rw [Resolver.resolutionVisits]
  dsimp only [Resolver.seedOf, Resolver.elementsOf, List.map]
  rw [hentries]
  dsimp only
  rw [Resolver.entryVisits, hcome]
  cases r.apply 0 refusingEntry h with
  | mk x h₁ => cases x <;> rfl

end CommandLine

end HostPrereqs
