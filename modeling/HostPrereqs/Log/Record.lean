import HostPrereqs.Value.Literal

/-!
# Log — records

A record says that something happened (`Record`): the event, the part of the program that
reports it, how important it is, and the event's own fields.
-/

namespace HostPrereqs.Log

/-- How important a record is. -/
inductive Level where
  | debug
  | info
  | warning
  | error
  | critical
deriving DecidableEq, Repr

namespace Level

/-- The number of a level; a greater one is more important. -/
def number : Level → Nat
  | debug    => 10
  | info     => 20
  | warning  => 30
  | error    => 40
  | critical => 50

def name : Level → String
  | debug    => "debug"
  | info     => "info"
  | warning  => "warning"
  | error    => "error"
  | critical => "critical"

end Level

/-- One record. -/
structure Record where
  level : Level
  logger : String
  event : String
  fields : List (String × Value)

end HostPrereqs.Log
