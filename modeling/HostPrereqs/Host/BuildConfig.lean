import HostPrereqs.Host.Basic

/-!
# Host — build configuration

The build configuration answers for a key from the overrides first, even where the override is
null, and otherwise with what the interpreter was built with.
-/

namespace HostPrereqs

/-- Overrides of the build configuration, in the order they were given. -/
structure BuildConfig where
  overrides : List (Value × Value)

namespace BuildConfig

/-- The value of a key, null if it has none. -/
def get (c : BuildConfig) (m : Machine) (key : String) : Value :=
  match Value.find? c.overrides key with
  | some v => v
  | none => (m.buildValues.lookup key).getD .null

/-- The configuration with more overrides, of which the new ones win. -/
def withValues (c : BuildConfig) (more : List (Value × Value)) : BuildConfig :=
  ⟨more.foldl (fun es (k, v) => Value.insert k v es) c.overrides⟩

/-- The configuration as it is shown in messages. -/
def literal (c : BuildConfig) : String := s!"BuildConfig({(Value.map c.overrides).literal})"

end BuildConfig

end HostPrereqs
