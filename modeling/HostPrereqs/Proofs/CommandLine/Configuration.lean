import HostPrereqs.Proofs.CommandLine.Tasks
import Mathlib

/-!
# Command line — the configuration of a task

A definition gives a key the text after its first equals sign (`Defines`), and of several
definitions of a key the last one counts (`find?_definitions`).

`Consults` says where the value of a key comes from when a condition asks for it: from the last
definition of the key, or else from the first layer of the settings that names it, or else from what
the interpreter was built with.  `consults_of_load` says this of every task, together with what the
settings are loaded as.
-/

namespace HostPrereqs.CommandLine

open Settings (Layers TextMap configText)
open Value (find?)

variable {files : Files} {locations : Settings.Locations} {config : Option String} {h h' : Host}
  {settings : Settings} {command : Command} {a : Arguments} {task : Task} {choices : HostChoices}
  {key value text : String} {texts : List String}

/-! ### Definitions -/

/-- A text that defines a key has the key before its first equals sign and the value after it. -/
def Defines (text key value : String) : Prop :=
  '=' ∉ key.toList ∧ text.toList = key.toList ++ '=' :: value.toList

theorem splitValue_of_defines (h : Defines text key value) :
    Arguments.splitValue text.toList = (key, some value) := by
  obtain ⟨hkey, htext⟩ := h
  have hpos : ∀ c ∈ key.toList, decide (c ≠ '=') = true :=
    fun c hc => decide_eq_true fun heq => hkey (heq ▸ hc)
  unfold Arguments.splitValue
  rw [htext, List.takeWhile_append_of_pos hpos, List.dropWhile_append_of_pos hpos,
    List.takeWhile_cons_of_neg (by simp), List.dropWhile_cons_of_neg (by simp), List.append_nil]
  simp only [String.ofList_toList]

/-- What is read as a definition defines its key. -/
theorem defines_of_readDefine (h : readDefine text = some (key, value)) :
    Defines text key value := by
  unfold readDefine Arguments.splitValue at h
  have hsplit := List.takeWhile_append_dropWhile (p := fun c => decide (c ≠ '=')) (l := text.toList)
  have hhead := List.head?_dropWhile_not (fun c => decide (c ≠ '=')) text.toList
  generalize hbefore : text.toList.takeWhile (fun c => decide (c ≠ '=')) = before at h hsplit
  generalize text.toList.dropWhile (fun c => decide (c ≠ '=')) = after at h hsplit hhead
  cases after with
  | nil => cases h
  | cons c rest =>
      have hc : c = '=' := by simpa using hhead
      subst hc
      dsimp only at h
      split at h
      · cases h
      · cases h
        refine ⟨fun hmem => ?_, ?_⟩
        · rw [String.toList_ofList, ← hbefore] at hmem
          simpa using List.all_eq_true.1 List.all_takeWhile '=' hmem
        · rw [String.toList_ofList, String.toList_ofList, hsplit]

/-- A definition that can be read defines one key. -/
theorem readDefine_of_defines (hread : (readDefine text).isSome) (h : Defines text key value) :
    readDefine text = some (key, value) := by
  obtain ⟨⟨key', value'⟩, hsome⟩ := Option.isSome_iff_exists.1 hread
  have heq := splitValue_of_defines (defines_of_readDefine hsome)
  rw [splitValue_of_defines h, Prod.mk.injEq, Option.some.injEq] at heq
  obtain ⟨rfl, rfl⟩ := heq
  exact hsome

/-- None of these texts defines a key. -/
def Undefined (texts : List String) (key : String) : Prop := ∀ t ∈ texts, ∀ v, ¬ Defines t key v

/-- The last of these texts that defines a key gives it a value. -/
def DefinesLast (texts : List String) (key value : String) : Prop :=
  ∃ before text after, texts = before ++ text :: after ∧ Defines text key value ∧
    Undefined after key

/-- The overrides that definitions give. -/
def definitions (texts : List String) : List (Value × Value) :=
  (texts.filterMap readDefine).map fun (key, value) => (.str key, .str value)

/-- The last definition of a key is found first from the end. -/
theorem find?_definitions (hread : ∀ t ∈ texts, (readDefine t).isSome) (key : String) :
    (∃ value, DefinesLast texts key value ∧
        find? (definitions texts).reverse key = some (.str value)) ∨
      Undefined texts key ∧ find? (definitions texts).reverse key = none := by
  induction texts with
  | nil => exact .inr ⟨fun t ht => absurd ht List.not_mem_nil, rfl⟩
  | cons t texts ih =>
      obtain ⟨ht, hread⟩ := List.forall_mem_cons.1 hread
      obtain ⟨⟨key', value'⟩, hsome⟩ := Option.isSome_iff_exists.1 ht
      have hfind : find? (definitions (t :: texts)).reverse key =
          (find? (definitions texts).reverse key).or (find? [(.str key', .str value')] key) := by
        rw [definitions, List.filterMap_cons_some hsome, List.map_cons, List.reverse_cons,
          Value.find?_append]
        rfl
      rw [hfind]
      rcases ih hread with ⟨value, ⟨before, text, after, rfl, hlast⟩, hrest⟩ | ⟨hnone, hrest⟩
      · refine .inl ⟨value, ⟨t :: before, text, after, rfl, hlast⟩, ?_⟩
        rw [hrest, Option.some_or]
      · rw [hrest, Option.none_or, Value.find?_cons]
        by_cases hkey : key' = key
        · subst hkey
          refine .inl ⟨value', ⟨[], t, texts, rfl, defines_of_readDefine hsome, hnone⟩, ?_⟩
          rw [if_pos (Value.sameKey_str.2 rfl)]
        · refine .inr ⟨List.forall_mem_cons.2 ⟨fun v hdefines => hkey ?_, hnone⟩, ?_⟩
          · have heq := hsome.symm.trans (readDefine_of_defines ht hdefines)
            exact (Prod.mk.inj (Option.some.inj heq)).1
          · rw [if_neg fun hsame => hkey (Value.str.inj (Value.sameKey_str.1 hsame))]
            rfl

/-! ### Choices -/

/-- Values that were checked are right. -/
theorem valueFault?_of_checkValues (h : checkValues files a = .ok ()) {g : Given}
    (hg : g ∈ a.given) : valueFault? files a g.switch = none := by
  have hall := Result.of_forM_eq_ok h g hg
  split at hall
  · cases hall
  · assumption

/-- Definitions that were checked can be read. -/
theorem isSome_readDefine (h : checkValues files a = .ok ()) :
    ∀ t ∈ a.values .define, (readDefine t).isSome := by
  intro t ht
  obtain ⟨g, hg, -⟩ := List.mem_map.1 ht
  obtain ⟨hmem, hswitch⟩ := List.mem_filter.1 hg
  have hfault := valueFault?_of_checkValues h hmem
  rw [of_decide_eq_true hswitch, valueFault?, Option.map_eq_none_iff, List.find?_eq_none] at hfault
  simpa [Option.isSome_iff_ne_none] using hfault t ht

/-- The choices of a task are those of its arguments, which were checked. -/
theorem Task.choices_of_ofArguments (htask : Task.ofArguments files command a = .ok task)
    (hchoices : task.choices? = some choices) :
    checkValues files a = .ok () ∧ choices = .ofArguments a := by
  unfold Task.ofArguments at htask
  obtain ⟨⟨⟩, hcheck, hrest⟩ := Result.bind_eq_ok.1 htask
  refine ⟨hcheck, ?_⟩
  cases command with
  | check =>
      dsimp only at hrest
      split at hrest
      · cases hrest
      · cases hrest
        exact (Option.some.inj hchoices).symm
  | predicates =>
      obtain ⟨-, -, hrest⟩ := Result.bind_eq_ok.1 hrest
      cases hrest
      cases hchoices
  | resolve =>
      dsimp only at hrest
      split at hrest
      · cases hrest
      · split at hrest
        · cases hrest
        · obtain ⟨-, -, hrest⟩ := Result.bind_eq_ok.1 hrest
          cases hrest
          exact (Option.some.inj hchoices).symm

/-! ### What is consulted -/

/-- Where the value of a key comes from: the first of the definitions on the command line, the
layers of the settings and the interpreter that has one. -/
inductive Consults (texts : List String) (l : Layers) (m : Machine) (key : String) : Value → Prop
  | defined {value : String} (last : DefinesLast texts key value) :
      Consults texts l m key (.str value)
  | configured {v : Value} (undefined : Undefined texts key) (named : l.config? key = some v) :
      Consults texts l m key (.str (configText v))
  | builtIn (undefined : Undefined texts key) (unnamed : l.config? key = none) :
      Consults texts l m key ((m.buildValues.lookup key).getD .null)

theorem consults_get {l : Layers} {settings : Settings}
    (hconfig : ∀ key, find? settings.buildConfig key = (l.config? key).map fun v =>
      .str (configText v))
    (hread : ∀ t ∈ a.values .define, (readDefine t).isSome) (m : Machine) (key : String) :
    Consults (a.values .define) l m key
      ((settingOf settings (.ofArguments a)).config.get m key) := by
  have hfind : find? (settingOf settings (.ofArguments a)).config.overrides key =
      (find? (definitions (a.values .define)).reverse key).or (find? settings.buildConfig key) :=
    Value.find?_foldl_insert _
  unfold BuildConfig.get
  rw [hfind, hconfig]
  rcases find?_definitions hread key with ⟨value, hlast, hdefined⟩ | ⟨hundefined, hnone⟩
  · rw [hdefined]
    exact .defined hlast
  · rw [hnone, Option.none_or]
    cases hnamed : l.config? key with
    | none => exact .builtIn hundefined hnamed
    | some v => exact .configured hundefined hnamed

/-- `config_enabled` says whether the value of its key is on. -/
theorem result_configEnabled {v : Visit} {s : Setting}
    (hcall : v.call = ⟨"config_enabled", [key]⟩) :
    v.result Builtin.registry s = .ok (Host.isOn (s.config.get v.host.machine key)) := by
  have hget : Builtin.registry.get? "config_enabled" = some (Builtin.unary "config_enabled"
      "Named build-configuration flag is true" Builtin.configEnabled) := by
    rfl
  rw [Visit.result, hcall, Condition.call_of_takes hget rfl]
  rfl

/-- Settings are loaded from the environment, the project's file and the user's file: those that are
single values from the first that names them, and the build configuration key by key.  In every task
`config_enabled` asks for the value of the last definition of its key, else of the first layer that
names it, else of the interpreter, and says whether that value is on. -/
theorem consults_of_load (hload : Settings.load files locations config h = (.ok settings, h')) :
    ∃ l : Layers, l.Given files locations config h ∧ l.Decide settings ∧ (l.Plain →
      l.Unite settings.buildConfig ∧
      ∀ (command : Command) (a : Arguments) (task : Task) (choices : HostChoices),
        Task.ofArguments files command a = .ok task → task.choices? = some choices →
        ∀ (host : Host), ∀ v ∈ task.visits settings files host, ∀ key : String,
          v.call = ⟨"config_enabled", [key]⟩ → ∃ value,
            (settingOf settings choices).config.get v.host.machine key = value ∧
            v.result Builtin.registry (settingOf settings choices) = .ok (Host.isOn value) ∧
            Consults (a.values .define) l host.machine key value) := by
  obtain ⟨-, l, hgiven, hsound, hread⟩ := Settings.load_spec hload
  refine ⟨l, hgiven, hsound.decide hread, fun hplain => ?_⟩
  obtain ⟨-, -, hconfig, -, -⟩ := Settings.ofMapping_eq_ok hread
  have hunite := hsound.unite hplain hconfig
  refine ⟨hunite, fun command a task choices htask hchoices host v hv key hcall => ?_⟩
  obtain ⟨hcheck, rfl⟩ := Task.choices_of_ofArguments htask hchoices
  have hmachine : v.host.machine = host.machine :=
    (Prod.mk.inj (Task.surroundings_visit hchoices hv)).1
  refine ⟨_, rfl, result_configEnabled hcall, ?_⟩
  rw [hmachine]
  exact consults_get hunite.find?_eq (isSome_readDefine hcheck) host.machine key

/-! ### Layers that turn off -/

/-- A project's file. -/
def projectText : String := "use_default: true\nbuild_config: \x7bcc: clang\x7d\n"

def projectFiles : Files := ⟨[("/p/dynreqs.yaml", .bytes projectText.toUTF8)]⟩

/-- A host whose environment turns off what the project's file sets. -/
def contraryHost : Host :=
  { Host.bare with
    environment := [("DYNREQS_USE_DEFAULT", "no"), ("DYNREQS_BUILD_CONFIG__CC", "")] }

def contraryLayers : Layers where
  environment :=
    [(.str "use_default", .str "no"), (.str "build_config", .map [(.str "cc", .str "")])]
  project :=
    [(.str "use_default", .bool true), (.str "build_config", .map [(.str "cc", .str "clang")])]
  user := []

def contrarySettings : Settings := { Settings.usual with buildConfig := [(.str "cc", .str "")] }

open Yaml in
theorem read_projectText : Yaml.read projectText = .ok (.map contraryLayers.project) := by
  have htokens : tokens projectText.toList = .ok [.blockMappingStart, .key,
      .scalar "use_default" true, .value, .scalar "true" true, .key, .scalar "build_config" true,
      .value, .flowMappingStart, .key, .scalar "cc" true, .value, .scalar "clang" true,
      .flowMappingEnd, .blockEnd] := Result.toOption_eq_some.1 (by decide +kernel)
  have hname : Tag.ofPlain "use_default" = .str := by decide +kernel
  have htrue : Tag.ofPlain "true" = .bool := by decide +kernel
  have hconfig : Tag.ofPlain "build_config" = .str := by decide +kernel
  have hkey : Tag.ofPlain "cc" = .str := by decide +kernel
  have hvalue : Tag.ofPlain "clang" = .str := by decide +kernel
  have hnode : Node.ofTokens? [.blockMappingStart, .key, .scalar "use_default" true, .value,
      .scalar "true" true, .key, .scalar "build_config" true, .value, .flowMappingStart, .key,
      .scalar "cc" true, .value, .scalar "clang" true, .flowMappingEnd, .blockEnd] =
        .ok (some (.mapping .map [(.scalar .str "use_default", .scalar .bool "true"),
          (.scalar .str "build_config",
            .mapping .map [(.scalar .str "cc", .scalar .str "clang")])])) := by
    simp [Node.ofTokens?, Node.node, Node.takeProperties, Node.tagName, Node.blockPairs,
      Node.optional, Node.stopsPart, Node.flowPairs, Node.flowPair, Node.afterEntry,
      Node.stopsFlowKey, Node.stopsFlowValue, Node.onlyEnds, bind, Except.bind,
      Node.collectionTag, Node.scalarTag, pure, Except.pure, hname, htrue, hconfig, hkey, hvalue]
  rw [Yaml.read, htokens]
  dsimp only [bind, Except.bind]
  rw [hnode]
  cbv

theorem given_contraryLayers :
    contraryLayers.Given projectFiles ⟨"/p", "/h"⟩ none contraryHost := by
  have hthere : projectFiles.isThere "/p/dynreqs.yaml" = true := by decide +kernel
  have habsent : projectFiles.isThere "/h/.config/dynreqs/config.yaml" = false := by decide +kernel
  have hfile : Settings.readFile projectFiles "/p/dynreqs.yaml" = .ok projectText :=
    Result.toOption_eq_some.1 (by decide +kernel)
  exact ⟨by rfl,
    fun host => congrArg Prod.fst (Settings.fileLayer_of_read hthere hfile read_projectText host),
    fun host => congrArg Prod.fst (Settings.fileLayer_of_absent habsent host)⟩

/-- The environment turns the project's settings off. -/
theorem load_contrary : ∃ h', Settings.load projectFiles ⟨"/p", "/h"⟩ none contraryHost =
    (.ok contrarySettings, h') := by
  have hmerged : contraryLayers.merged =
      [(.str "use_default", .str "no"), (.str "build_config", .map [(.str "cc", .str "")])] := by
    cbv
  refine Settings.load_of_given given_contraryLayers (by simp) ?_ ?_
  · rw [hmerged]
    decide
  · rw [hmerged]
    cbv

/-- A check whether a key is on that the environment empties. -/
def contraryArguments : Arguments := ⟨[⟨.define, "ld=a=b"⟩], ["config_enabled", "cc"]⟩

def contraryTask : Task := .check contraryArguments.operands (.ofArguments contraryArguments)

theorem consults_of_load_contrary :
    (∃ h', Settings.load projectFiles ⟨"/p", "/h"⟩ none contraryHost = (.ok contrarySettings, h')) ∧
    contraryLayers.Decide contrarySettings ∧ contraryLayers.Unite contrarySettings.buildConfig ∧
    ∃ v ∈ contraryTask.visits contrarySettings projectFiles contraryHost,
      v.call = ⟨"config_enabled", ["cc"]⟩ ∧
      v.result Builtin.registry (settingOf contrarySettings (.ofArguments contraryArguments)) =
        .ok false ∧
      Consults (contraryArguments.values .define) contraryLayers contraryHost.machine "cc"
        (.str "") := by
  obtain ⟨h', hload⟩ := load_contrary
  obtain ⟨l, hgiven, hdecide, hplain⟩ := consults_of_load hload
  obtain rfl := hgiven.unique given_contraryLayers
  have hsingle : ∀ s : String, Settings.Plain [(.str "cc", .str s)] := by simp [Settings.Plain]
  have hall : contraryLayers.Plain := ⟨hsingle "", hsingle "clang", nofun⟩
  obtain ⟨hunite, hconsults⟩ := hplain hall
  have hparse : Condition.parse (conditionOf contraryArguments.operands) =
      .ok (.command "config_enabled" ["cc"] false) := by
    change Condition.parse (.list [.str "config_enabled", .str "cc"]) = _
    rw [Condition.parse_of_itemsOf rfl]
    rfl
  have hvisit : (⟨⟨"config_enabled", ["cc"]⟩,
      { contraryHost with defaultsOnly := false }⟩ : Visit) ∈
        contraryTask.visits contrarySettings projectFiles contraryHost := by
    rw [contraryTask, Task.visits, Resolver.evaluationVisits, Condition.evaluationVisits, hparse]
    exact List.mem_singleton.2 rfl
  obtain ⟨value, hget, hresult, hfrom⟩ := hconsults .check contraryArguments contraryTask
    (.ofArguments contraryArguments) rfl rfl contraryHost _ hvisit "cc" rfl
  obtain rfl : value = .str "" := hget.symm.trans rfl
  exact ⟨⟨h', hload⟩, hdecide, hunite, _, hvisit, rfl, hresult, hfrom⟩

end HostPrereqs.CommandLine
