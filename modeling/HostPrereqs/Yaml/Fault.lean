/-!
# Yaml — what a text can fail at

Most faults are faults of the text and are told as such (`Fault.isOfText`).  The others come from
values that only an explicit tag, a date or an escape can ask for, such as the thirteenth month;
they are not told as faults of the text.
-/

namespace HostPrereqs.Yaml

/-- Why a text is no document. -/
inductive Fault where
  /-- A character that may not stand in a text at all. -/
  | badCharacter
  /-- A token that cannot be read. -/
  | badToken
  /-- A token where another is expected. -/
  | badStructure
  /-- An alias without its anchor, or an anchor given twice. -/
  | badAnchor
  /-- More than one document. -/
  | moreDocuments
  /-- A value that its tag does not allow. -/
  | badValue
  /-- A number, date or code point that does not exist. -/
  | noSuchValue (reason : String)
  /-- A word that is no truth value under a tag that asks for one. -/
  | noTruthValue
  /-- A number without digits. -/
  | noDigits
  /-- A text that is no date under a tag that asks for one. -/
  | noDate
  /-- A number beyond those that the machine works with. -/
  | tooBig
deriving DecidableEq, Repr

namespace Fault

/-- Whether the fault is told as a fault of the text. -/
def isOfText : Fault → Bool
  | badCharacter | badToken | badStructure | badAnchor | moreDocuments | badValue => true
  | noSuchValue _ | noTruthValue | noDigits | noDate | tooBig => false

def message : Fault → String
  | badCharacter  => "special characters are not allowed"
  | badToken      => "found a character that cannot start any token"
  | badStructure  => "did not find expected node content"
  | badAnchor     => "found an undefined alias or a duplicate anchor"
  | moreDocuments => "expected a single document in the stream"
  | badValue      => "could not determine a constructor for the value"
  | noSuchValue reason => reason
  | noTruthValue | noDigits | noDate | tooBig => ""

end Fault

end HostPrereqs.Yaml
