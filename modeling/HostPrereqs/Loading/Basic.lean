import HostPrereqs.Entry.Document
import HostPrereqs.File.Basic
import HostPrereqs.Host.Basic
import HostPrereqs.Yaml.Reader

/-!
# Loading — documents in files

A file whose name ends in `.json` is read as JSON and any other as YAML.  A document is the whole
file, or stands in the metadata of a distribution under a key of its own, beside the
requirements that are the seed.
-/

namespace HostPrereqs

/-- What is wrong with a file. -/
inductive LoadFault where
  | unreadable (cause : FileFault)
  | badJson (cause : Json.SyntaxError)
  | badYaml (cause : Yaml.Fault)
  | notADocument (cause : DocumentFault)
  | metadataNotMapping
  | prereqsNotMapping
  | seedNotMapping
deriving DecidableEq, Repr

namespace LoadFault

def message : LoadFault → String
  | unreadable cause => s!"cannot read file: {cause.message}"
  | badJson cause => s!"invalid document: {cause.message}"
  | badYaml cause => s!"invalid document: {cause.message}"
  | notADocument cause => cause.message
  | metadataNotMapping => "metadata must be a mapping"
  | prereqsNotMapping => "'prereqs' must be a mapping"
  | seedNotMapping => "seed prerequisites must be a mapping"

end LoadFault

/-- What loading a file can fail at. -/
inductive LoadError where
  | inFile (path : String) (fault : LoadFault)
  | badSeed (cause : FragmentError)
  /-- The name of the file is one that no file can have. -/
  | noFileName (cause : FileFault)
  /-- The bytes are no text. -/
  | notText
  /-- A value that does not exist, which is no fault of the text. -/
  | noSuchValue (cause : Yaml.Fault)
  | hugeNumber (cause : Json.Problem)

namespace Loading

def logger : String := "dynreqs.prereqs.document"

/-- The value of a text in a file of that name. -/
def readText (path text : String) : Except LoadError Value :=
  if Path.suffix path = ".json" then
    (Json.read text).mapError fun e =>
      if e.problem.isOfText then .inFile path (.badJson e) else .hugeNumber e.problem
  else
    (Yaml.read text).mapError fun e =>
      if e.isOfText then .inFile path (.badYaml e) else .noSuchValue e

/-- Reads a data file. -/
def readData (files : Files) (path : String) : Except LoadError Value := do
  let path := Path.normal path
  let content ← (files.readBytes path).mapError fun e =>
    if e.isOfFile then LoadError.inFile path (.unreadable e) else .noFileName e
  match Files.textOf? content with
  | some text => readText path text
  | none => throw .notText

def documentOf (path : String) (v : Value) : Except LoadError Document :=
  (Document.ofValue v).mapError fun e => .inFile (Path.normal path) (.notADocument e)

/-- Loads a document from a file. -/
def loadDocument (files : Files) (path : String) : ExceptT LoadError OnHost Document := do
  Host.report ⟨.debug, logger, "loading_document", [("path", .str (Path.normal path))]⟩
  MonadExcept.ofExcept do documentOf path (← readData files path)

/-- The key of a document in the metadata of a distribution. -/
def metadataKey : String := "x_dynamic_prerequisites"

/-- The mapping that the seed is listed in; nothing counts as an empty one. -/
def seedData (path : String) (metadata : List (Value × Value)) : Except LoadError Value := do
  let v := (Value.find? metadata "prereqs").getD .null
  if !v.truthy then return .map []
  if Requirements.isMapping v then return v
  throw (.inFile (Path.normal path) .prereqsNotMapping)

/-- Loads the seed and the document from the metadata of a distribution. -/
def loadMetadata (files : Files) (path : String) :
    ExceptT LoadError OnHost (Requirements × Document) := do
  let .map metadata ← MonadExcept.ofExcept (readData files path)
    | throw (.inFile (Path.normal path) .metadataNotMapping)
  let seed ← MonadExcept.ofExcept (seedData path metadata)
  let dynamic ← match (Value.find? metadata metadataKey).getD .null with
    | .null => do
        Host.report ⟨.info, logger, "no_dynamic_prerequisites", [("path", .str (Path.normal path))]⟩
        pure (.map [])
    | v => pure v
  let requirements ← MonadExcept.ofExcept ((Requirements.ofValue seed).mapError LoadError.badSeed)
  let document ← MonadExcept.ofExcept (documentOf path dynamic)
  return (requirements, document)

end Loading

end HostPrereqs
