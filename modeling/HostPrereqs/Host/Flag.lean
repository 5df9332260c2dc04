import HostPrereqs.Value.Basic

/-!
# Host — flags

A configuration value or environment variable is a flag that is on unless it is missing, empty,
zero or false.  Of the texts only the empty one and `0` are off.
-/

namespace HostPrereqs.Host

/-- Whether a text is a flag that is on. -/
def isOnText (s : String) : Bool := s != "" && s != "0"

/-- Whether a value is a flag that is on. -/
def isOn : Value → Bool
  | .str s => isOnText s
  | v      => v.truthy

/-- Whether a variable is set to a flag that is on. -/
def isOnVariable : Option String → Bool
  | some s => isOnText s
  | none   => false

theorem isOn_str (s : String) : isOn (.str s) = isOnVariable (some s) := rfl

end HostPrereqs.Host
