import HostPrereqs.Yaml.Merge
import HostPrereqs.Yaml.Scalar

/-!
# Yaml — values of nodes

A node without faults is made into a value (`Node.data`).  Collections are made empty first and
filled later, level by level, so that of several faults the one nearest to the root is told, and
of those at one level the first (`Node.fault?`).  A collection cannot be a key.
-/

namespace HostPrereqs.Yaml

/-- The tags of values that are filled after they are made. -/
def Tag.isCollection : Tag → Bool
  | omap | pairs | set | seq | map => true
  | _ => false

namespace Node

/-- A key; the sign for a default value is a text there. -/
def asKey : Node → Node
  | scalar .value s => scalar .str s
  | n               => n

mutual

/-- The text that stands for a node where a scalar is asked for. -/
def scalarText? : Node → Option String
  | scalar _ s      => some s
  | sequence _ _    => none
  | mapping _ pairs => defaultText? pairs

/-- The text of the default value of a mapping. -/
def defaultText? : List (Node × Node) → Option String
  | []           => none
  | (k, v) :: ps => if k.tag = .value then scalarText? v else defaultText? ps

end

/-- The value of a node whose tag asks for a scalar. -/
def scalarValue (n : Node) : Except Fault Value :=
  match n.scalarText? with
  | some s => Scalar.value n.tag s
  | none   => .error .badValue

/-! ### Faults -/

/-- What making a value fails at before it is filled. -/
def ownFault? (n : Node) : Option Fault :=
  if n.tag.isCollection then none
  else
    match n.scalarValue with
    | .ok _    => none
    | .error e => some e

/-- What a key fails at. -/
def keyFault? (k : Node) : Option Fault :=
  if k.tag.isCollection then some .badValue else (asKey k).ownFault?

/-- What an item that has to be a mapping with one pair fails at. -/
def singleFault? : Node → Option Fault
  | mapping _ [(k, v)] => k.ownFault? <|> v.ownFault?
  | _ => some .badValue

/-- What filling a collection fails at, as long as its parts are not filled. -/
def fillingFault? : Node → Option Fault
  | sequence .seq items              => items.findSome? ownFault?
  | sequence .omap items             => items.findSome? singleFault?
  | sequence .pairs items            => items.findSome? singleFault?
  | mapping .map ps | mapping .set ps => ps.findSome? fun (k, v) => keyFault? k <|> ownFault? v
  | n => if n.tag.isCollection then some .badValue else none

/-- The faults of two parts, level by level; the first part comes first. -/
def besides : List (Option Fault) → List (Option Fault) → List (Option Fault)
  | a :: as, b :: bs => (a <|> b) :: besides as bs
  | [], bs           => bs
  | as, []           => as

mutual

/-- What filling a node fails at on each level. -/
def levels : Node → List (Option Fault)
  | scalar t s => [fillingFault? (scalar t s)]
  | sequence t items =>
      fillingFault? (sequence t items)
        :: (if t = .seq then levelsOfAll items
          else if t.isCollection then levelsOfSingles items
          else [])
  | mapping t pairs =>
      fillingFault? (mapping t pairs) :: (if t.isCollection then levelsOfPairs pairs else [])

def levelsOfAll : List Node → List (Option Fault)
  | []      => []
  | n :: ns => besides (levels n) (levelsOfAll ns)

def levelsOfSingles : List Node → List (Option Fault)
  | []                    => []
  | mapping _ pairs :: ns => besides (levelsOfPairs pairs) (levelsOfSingles ns)
  | _ :: ns               => levelsOfSingles ns

def levelsOfPairs : List (Node × Node) → List (Option Fault)
  | []           => []
  | (k, v) :: ps => besides (levels k) (besides (levels v) (levelsOfPairs ps))

end

/-- What making the value of a node fails at. -/
def fault? (n : Node) : Option Fault := n.ownFault? <|> n.levels.findSome? id

/-! ### Values -/

/-- The entries of a mapping that sets pairs one after the other. -/
def entriesOf (ps : List (Value × Value)) : List (Value × Value) :=
  ps.foldl (fun es (k, v) => Value.insert k v es) []

mutual

/-- The value of a node without faults. -/
def data : Node → Value
  | scalar t s       => ((scalar t s).scalarValue.toOption).getD .null
  | sequence t items =>
      if t = .seq then .list (dataOfAll items)
      else .list ((dataOfSingles items).map fun (k, v) => .tuple [k, v])
  | mapping t pairs  =>
      match t with
      | .map => .map (entriesOf (dataOfPairs pairs))
      | .set => .set ((entriesOf (dataOfPairs pairs)).map (·.1))
      | _    => ((mapping t pairs).scalarValue.toOption).getD .null

def dataOfAll : List Node → List Value
  | []      => []
  | n :: ns => data n :: dataOfAll ns

def dataOfSingles : List Node → List (Value × Value)
  | []                         => []
  | mapping _ [(k, v)] :: ns   => (data k, data v) :: dataOfSingles ns
  | _ :: ns                    => dataOfSingles ns

def dataOfPairs : List (Node × Node) → List (Value × Value)
  | []           => []
  | (k, v) :: ps =>
      let key := match k with
        | scalar .value s => .str s
        | k               => data k
      (key, data v) :: dataOfPairs ps

end

/-- The value of a node. -/
def toValue (n : Node) : Except Fault Value :=
  match n.merged.fault? with
  | some e => .error e
  | none   => .ok n.merged.data

end Node

end HostPrereqs.Yaml
