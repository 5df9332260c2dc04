import HostPrereqs.Proofs.CommandLine.Endings
import HostPrereqs.Proofs.Loading.Written
import HostPrereqs.Proofs.Requirements.Copying
import HostPrereqs.Proofs.Resolution.Building
import HostPrereqs.Proofs.Resolution.Influence

/-!
# Command line — requirements that are fed back

What was printed as JSON can be used as the seed of another run.  The seed is read back as it was
(`readSeed_of_holdsJson`), it is copied when it is merged into nothing (`prepare_of_seed`), and a
document of which no entry applies adds nothing to it (`fst_resolved_of_noneApply`); so the run
prints the seed (`Begins.prints_seed`).

`Built.feeds_back` says so of all requirements that can be built: their text is read back as the
same requirements, and where none of them is empty, the run prints the text again.
-/

namespace HostPrereqs

namespace CommandLine

variable {files : Files} {locations : Settings.Locations} {args : List String} {h h₁ : Host}
  {b : Beginning} {settings : Settings} {choices : HostChoices} {file path : String}
  {r : Requirements} {document : Document}

/-! ### The seed of a run -/

/-- A file into which tidy requirements were written gives them as the seed. -/
theorem readSeed_of_holdsJson (hr : r.Tidy)
    (hfile : files.HoldsJson path (OutputFormat.json.render r.toValue)) :
    readSeed files path = .ok r := by
  have hvalue := hr.ofValue_toValue
  rw [readSeed, hr.readData hfile]
  rw [Requirements.toValue_eq] at hvalue ⊢
  change (Requirements.ofValue _).mapError LoadError.badSeed = .ok r
  rw [hvalue]
  rfl

/-- A document without requirements of its own is resolved over the seed of the other file. -/
theorem prepare_of_seed (hload : loadFile files file false h = (.ok (.empty, document), h₁))
    (hseed : readSeed files path = .ok r) (hmerge : Requirements.empty.merge [r] = .ok r) :
    prepare files file false (some path) h = (.ok (r, document), h₁) := by
  rw [prepare, Host.run_bind_of_ok _ hload]
  dsimp only
  rw [hseed]
  change (do
    let start ← stopped RangeError.report? (fun e => .resolution (.badRange e))
      (Requirements.empty.merge [r])
    return (start, document) : Step _) h₁ = _
  rw [hmerge]
  rfl

/-! ### Documents of which nothing applies -/

/-- The document of a file can be loaded, its entries are good, and none of them applies where the
document is resolved. -/
def NoneApply (settings : Settings) (files : Files) (choices : HostChoices) (file : String)
    (start : Requirements) (h : Host) : Prop :=
  ∃ document h₁, loadFile files file false h = (.ok (.empty, document), h₁) ∧
    Entry.ofValues (document.expressions.map .entry) = .ok document.expressions ∧
    ∀ p ∈ (resolverOf settings choices start).fates 0 document.expressions
      (takeDefaults settings choices h₁).2, p.2 = .skipped

/-- Where nothing applies, the seed comes out. -/
theorem fst_resolved_of_noneApply (hnone : NoneApply settings files choices file r h)
    (hseed : readSeed files path = .ok r) (hmerge : Requirements.empty.merge [r] = .ok r) :
    (resolved settings files file false (some path) choices h).1 = .ok r := by
  obtain ⟨document, h₁, hload, hvalid, hskipped⟩ := hnone
  obtain ⟨log, hover⟩ := run_resolveOver settings choices r document h₁
  have hresolved := Resolver.resolve_of_skipped hvalid hskipped
  rw [resolved, Host.run_bind_of_ok _ (prepare_of_seed hload hseed hmerge)]
  dsimp only
  rw [hover]
  dsimp only
  rw [hresolved]
  rfl

/-- A run that resolves a document of which nothing applies over a seed prints the seed, after the
dialogues of questions, if the output takes it. -/
theorem Begins.prints_seed {format : Option OutputFormat} (hb : Begins files locations args h b)
    (htask : b.task = .resolve file false (some path) format choices)
    (hnone : NoneApply b.settings files choices file r b.host)
    (hseed : readSeed files path = .ok r) (hmerge : Requirements.empty.merge [r] = .ok r) :
    ∃ xss h', Conversation Builtin.registry (settingOf b.settings choices) b.host
        (b.task.visits b.settings files b.host) xss h' ∧
      (h'.stops? ((format.getD b.settings.outputFormat).render r.toValue ++ "\n") = none →
        (run files locations args h).1.status.code = 0 ∧
        (run files locations args h).1.errors = "" ∧
        (run files locations args h).1.crash = none ∧
        (run files locations args h).2.written = b.host.written ++
          b.host.transcript xss.flatten ++
            ((format.getD b.settings.outputFormat).render r.toValue ++ "\n")) := by
  have hbody : b.task.body? b.settings files =
      some ((.requirements · (format.getD b.settings.outputFormat)) <$>
        resolved b.settings files file false (some path) choices) := by
    rw [htask]
    rfl
  have hfound : (((.requirements · (format.getD b.settings.outputFormat)) <$>
      resolved b.settings files file false (some path) choices : Step Finding) b.host).1 =
      .ok (.requirements r (format.getD b.settings.outputFormat)) := by
    rw [Host.run_map, fst_resolved_of_noneApply hnone hseed hmerge]
    rfl
  obtain ⟨xss, hxss⟩ := Task.converses_body (by rw [htask]; rfl) hbody b.host
  have hends := hb.ends hbody
  rw [hfound] at hends
  refine ⟨xss, _, hxss, fun htakes => ?_⟩
  rw [← hxss.written.1]
  exact hends.of_requirements htakes

end CommandLine

namespace Requirements

open CommandLine

variable {r : Requirements} {files : Files} {path : String}

/-- The JSON text of requirements that can be built is read back from a file as the data that they
are shown as, and these are read as the same requirements, in the same order and with the same
empty relations; so they have the same text.  Where nothing is empty, a run that takes the file for
its seed and resolves a document of which no entry applies ends well, and all that it prints after
the dialogues of questions is this text, if the output takes it. -/
theorem Built.feeds_back (hr : r.Built)
    (hfile : files.HoldsJson path (OutputFormat.json.render r.toValue)) :
    Loading.readData files path = .ok r.toValue ∧ Requirements.ofValue r.toValue = .ok r ∧
      r.same r = true ∧
      ∀ {locations args h b file format choices}, r.Full → Begins files locations args h b →
        b.task = .resolve file false (some path) format choices →
        format.getD b.settings.outputFormat = .json →
        NoneApply b.settings files choices file r b.host →
        ∃ xss h', Conversation Builtin.registry (settingOf b.settings choices) b.host
            (b.task.visits b.settings files b.host) xss h' ∧
          (h'.stops? (OutputFormat.json.render r.toValue ++ "\n") = none →
            (run files locations args h).1.status.code = 0 ∧
            (run files locations args h).1.errors = "" ∧
            (run files locations args h).1.crash = none ∧
            (run files locations args h).2.written = b.host.written ++
              b.host.transcript xss.flatten ++ (OutputFormat.json.render r.toValue ++ "\n")) := by
  have htidy := hr.tidy
  refine ⟨htidy.readData hfile, htidy.ofValue_toValue, htidy.same_self, ?_⟩
  intro locations args h b file format choices hfull hb htask hformat hnone
  have hprints := hb.prints_seed htask hnone (readSeed_of_holdsJson htidy hfile)
    (htidy.merge_empty hfull)
  rwa [hformat] at hprints

/-! ### A document that applies to another system -/

/-- Requirements of modules with a quotation mark, a line feed and a character beyond the
sixteen-bit ones in their names. -/
def oddlyNamed : Requirements :=
  ⟨[("runtime", [("requires", [("Foo \"x\"", ">= 1.0"), ("🐍\n", "2")])])]⟩

theorem ofValue_oddlyNamed : Requirements.ofValue oddlyNamed.toValue = .ok oddlyNamed :=
  Result.toOption_eq_some.1 (by decide +kernel)

theorem tidy_oddlyNamed : oddlyNamed.Tidy := tidy_ofValue ofValue_oddlyNamed

theorem full_oddlyNamed : oddlyNamed.Full := by decide

/-- The file of the seed ends in a line feed. -/
def feedingFiles : Files :=
  ⟨[("d.json", .bytes refusingText.toUTF8),
    ("s.json", .bytes (OutputFormat.json.render oddlyNamed.toValue ++ "\n").toUTF8)]⟩

/-- A host on another system than the one that the document refuses. -/
def otherHost : Host := { Host.bare with machine := { Host.bare.machine with osName := "win32" } }

def feedingBeginning : Beginning where
  choices := ⟨none, 0, false⟩
  command := .resolve
  arguments := ⟨[⟨.seed, "s.json"⟩], ["d.json"]⟩
  task := .resolve "d.json" false (some "s.json") none ⟨none, [], false⟩
  settings := Settings.usual
  host := otherHost

theorem begins_feeding : Begins feedingFiles ⟨"/p", "/h"⟩ ["resolve", "d.json", "--seed", "s.json"]
    otherHost feedingBeginning :=
  ⟨⟨["d.json", "--seed", "s.json"], rfl, rfl⟩, rfl, rfl,
    loadSettings_usual rfl (by decide +kernel) (by decide +kernel)⟩

theorem holdsJson_feeding :
    feedingFiles.HoldsJson "s.json" (OutputFormat.json.render oddlyNamed.toValue) := by
  have hnormal : Path.normal "s.json" = "s.json" := by decide +kernel
  have hsuffix : Path.suffix "s.json" = ".json" := by decide +kernel
  have hend : String.ofList (List.replicate 1 '\n') = "\n" := rfl
  refine ⟨hnormal.symm ▸ hsuffix, 1, ?_⟩
  rw [hnormal, hend]
  rfl

theorem noneApply_feeding : NoneApply Settings.usual feedingFiles ⟨none, [], false⟩ "d.json"
    oddlyNamed otherHost := by
  have hfate : (resolverOf Settings.usual ⟨none, [], false⟩ oddlyNamed).fate 0 refusingEntry
      (takeDefaults Settings.usual ⟨none, [], false⟩ { otherHost with log := [loadingRecord] }).2 =
        .skipped := by
    rw [Resolver.fate_eq_skipped, Resolver.evaluate, Condition.evaluate_of_parse parse_refusing]
    rfl
  refine ⟨_, _, loadFile_refusing otherHost rfl, rfl, ?_⟩
  change ∀ p ∈ Resolver.fates _ 0 [refusingEntry] (takeDefaults Settings.usual
    ⟨none, [], false⟩ { otherHost with log := [loadingRecord] }).2, p.2 = .skipped
  rw [Resolver.fates, hfate, if_neg (by decide)]
  exact List.forall_mem_singleton.2 rfl

/-- No question is come to. -/
theorem visits_feeding :
    ∀ v ∈ feedingBeginning.task.visits Settings.usual feedingFiles otherHost,
      v.call.predicate ≠ "y_n" := by
  intro v hv
  have hprepare := prepare_of_seed (loadFile_refusing otherHost rfl)
    (readSeed_of_holdsJson tidy_oddlyNamed holdsJson_feeding)
    (tidy_oddlyNamed.merge_empty full_oddlyNamed)
  rw [feedingBeginning, Task.visits, hprepare] at hv
  dsimp only at hv
  rw [resolutionVisits_refusing] at hv
  rw [List.mem_singleton.1 hv]
  decide

/-- What was printed with odd names is the seed of a run on another system, and printed again. -/
theorem Built.feeds_back_oddlyNamed : Built oddlyNamed ∧ oddlyNamed.Full ∧
    feedingFiles.HoldsJson "s.json" (OutputFormat.json.render oddlyNamed.toValue) ∧
    Begins feedingFiles ⟨"/p", "/h"⟩ ["resolve", "d.json", "--seed", "s.json"] otherHost
      feedingBeginning ∧
    Loading.readData feedingFiles "s.json" = .ok oddlyNamed.toValue ∧
    let r := run feedingFiles ⟨"/p", "/h"⟩ ["resolve", "d.json", "--seed", "s.json"] otherHost
    r.1.status.code = 0 ∧ r.2.written = OutputFormat.json.render oddlyNamed.toValue ++ "\n" := by
  have hbuilt : Built oddlyNamed := .ofValue ofValue_oddlyNamed
  obtain ⟨hread, -, -, hruns⟩ := hbuilt.feeds_back holdsJson_feeding
  obtain ⟨xss, h', hall, hprints⟩ :=
    hruns full_oddlyNamed begins_feeding rfl rfl noneApply_feeding
  obtain ⟨hbefore, hstreams⟩ := hall.written
  have htakes : h'.stops? (OutputFormat.json.render oddlyNamed.toValue ++ "\n") = none := by
    rw [Host.stops?, hstreams]
    rfl
  obtain ⟨hstatus, -, -, hwritten⟩ := hprints htakes
  refine ⟨hbuilt, full_oddlyNamed, holdsJson_feeding, begins_feeding, hread, hstatus, ?_⟩
  rw [hwritten, hall.eq_nil_of_ne visits_feeding, Host.transcript_nil, String.append_empty]
  exact String.empty_append

end Requirements

end HostPrereqs
