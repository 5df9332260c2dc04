import HostPrereqs.Host.Basic

/-!
# Host — described machines

A machine can be described by a mapping.  What the description does not name is as on a bare
system: nothing is installed, and every compilation succeeds.  Nothing goes wrong on a described
machine, and its compilers leave the input alone.
-/

namespace HostPrereqs.Machine

/-- The names that a description lists with their data. -/
def named : Option Value → List (String × Value)
  | some (.map es) => es.filterMap fun (k, v) => k.str?.map (·, v)
  | _ => []

/-- The texts of a list. -/
def texts : Value → List String
  | .list vs => vs.filterMap (·.str?)
  | _ => []

/-- What a description says of looking for a module. -/
def searchOf : Value → ModuleSearch
  | .bool true => .found
  | .str reason => .fails reason
  | _ => .missing

/-- What a description says of running the compiler. -/
def compilationOf : Option Value → Compilation
  | some (.str "timeout") => .timesOut
  | some (.str _) => .cannotStart "cannot execute"
  | some (.int status) => .exits status "fatal error"
  | _ => .exits 0 ""

/-- The machine of a description. -/
def ofDescription (d : Value) : Machine where
  osName := ((d.get? "os").bind (·.str?)).getD "linux"
  interpreterVersion := ((d.get? "python").bind (·.str?)).getD "3.12.1"
  commands := texts ((d.get? "commands").getD .null)
  distributions := (named (d.get? "dists")).map fun (name, v) => (name, .installed v.str?)
  providers := some ((named (d.get? "packages")).map fun (name, v) => (name, texts v))
  modules := (named (d.get? "specs")).map fun (name, v) => (name, searchOf v)
  buildValues := named (d.get? "sysconfig")
  includeDirectory := "<include>"
  scratchDirectory := "<tmp>"
  compilation := fun _ => compilationOf (d.get? "compile")
  compilerLeaves := fun _ input => input

end HostPrereqs.Machine
