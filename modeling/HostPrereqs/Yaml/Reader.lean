import HostPrereqs.Yaml.Making
import HostPrereqs.Yaml.Tokens

/-!
# Yaml — reading

`read` reads the one document of a text; an empty text is null.
-/

namespace HostPrereqs.Yaml

/-- The value of a text. -/
def read (text : String) : Except Fault Value := do
  match ← Node.ofTokens? (← tokens text.toList) with
  | none => return .null
  | some n => n.toValue

end HostPrereqs.Yaml
