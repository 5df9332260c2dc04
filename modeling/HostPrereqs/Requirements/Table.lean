/-!
# Requirements — tables

A table gives values to names, in the order in which the names were first set.
-/

namespace HostPrereqs

/-- Values by name, in the order of the names' first setting. -/
abbrev Table (α : Type) := List (String × α)

namespace Table

variable {α : Type}

/-- The value of a name. -/
def get? (t : Table α) (name : String) : Option α := List.lookup name t

/-- Sets the value of a name to what a function makes of the old one. -/
def alter (name : String) (f : Option α → α) : Table α → Table α
  | []          => [(name, f none)]
  | (k, v) :: t => if k = name then (k, f (some v)) :: t else (k, v) :: alter name f t

/-- Sets the value of a name. -/
def put (t : Table α) (name : String) (value : α) : Table α := alter name (fun _ => value) t

def names (t : Table α) : List String := t.map (·.1)

/-- Whether two tables give the same values to the same names, in whatever order. -/
def sameBy (same : α → α → Bool) (t u : Table α) : Bool :=
  t.length = u.length && t.all fun (k, v) => (get? u k).any (same v)

end Table

end HostPrereqs
