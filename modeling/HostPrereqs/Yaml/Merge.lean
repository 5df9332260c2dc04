import HostPrereqs.Yaml.Node

/-!
# Yaml — pairs taken over

A mapping may take pairs over from another, or from several, under the key `<<`.  `Node.merged`
puts these pairs before its own; afterwards no key asks for pairs any more.  A mapping that asks
something else for pairs becomes a node that no value can be made of.
-/

namespace HostPrereqs.Yaml.Node

def tag : Node → Tag
  | scalar t _   => t
  | sequence t _ => t
  | mapping t _  => t

/-- The pairs that a list of mappings gives, of which the first wins and so comes last. -/
def givenByAll? : List Node → Option (List (Node × Node))
  | []                    => some []
  | mapping _ pairs :: ns => (givenByAll? ns).map (· ++ pairs)
  | _ :: _                => none

/-- The pairs that a node gives to a mapping. -/
def given? : Node → Option (List (Node × Node))
  | mapping _ pairs  => some pairs
  | sequence _ items => givenByAll? items
  | scalar _ _       => none

/-- A node that no value can be made of. -/
def unmade : Node := scalar .map ""

mutual

/-- The node with all pairs that it takes over. -/
def merged : Node → Node
  | scalar t s       => scalar t s
  | sequence t items => sequence t (mergedAll items)
  | mapping t pairs  =>
      match mergedPairs pairs with
      | some (taken, own) => mapping t (taken ++ own)
      | none => unmade

def mergedAll : List Node → List Node
  | []      => []
  | n :: ns => merged n :: mergedAll ns

/-- The pairs that are taken over, and the mapping's own. -/
def mergedPairs : List (Node × Node) → Option (List (Node × Node) × List (Node × Node))
  | [] => some ([], [])
  | (k, v) :: ps =>
      match mergedPairs ps with
      | some (taken, own) =>
          if k.tag = .merge then (given? (merged v)).map fun given => (given ++ taken, own)
          else some (taken, (merged k, merged v) :: own)
      | none => none

end

end HostPrereqs.Yaml.Node
