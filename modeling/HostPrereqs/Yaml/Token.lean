/-!
# Yaml — tokens

A text is read as tokens: indicators, scalars, and marks for where a block collection starts and
ends, which the text shows by indentation alone.
-/

namespace HostPrereqs.Yaml

/-- A directive at the head of a document. -/
inductive Directive where
  | version (major : Nat)
  | tagHandle (handle taken : String)
  | other
deriving DecidableEq, Repr

inductive Token where
  | directive (d : Directive)
  | documentStart
  | documentEnd
  | blockSequenceStart
  | blockMappingStart
  | blockEnd
  | flowSequenceStart
  | flowSequenceEnd
  | flowMappingStart
  | flowMappingEnd
  | blockEntry
  | flowEntry
  | key
  | value
  | alias (name : String)
  | anchor (name : String)
  | tag (handle : Option String) (suffix : String)
  | scalar (text : String) (plain : Bool)
deriving DecidableEq, Repr

end HostPrereqs.Yaml
