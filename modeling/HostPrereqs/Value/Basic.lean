import HostPrereqs.Condition.Basic
import HostPrereqs.Number.Double

/-!
# Value — data of any shape

Documents, settings and conditions come as data whose shape is checked by whoever uses it
(`Value`): what a data file can hold, and besides it conditions and entries that are already
built.  Mappings are lists of pairs in the order of insertion; `insert` keeps a key where it
stands, and the numbers `1`, `1.0` and true are one key (`sameKey`).
-/

namespace HostPrereqs

/-- A day. -/
structure Date where
  year : Nat
  month : Nat
  day : Nat
deriving DecidableEq, Repr

/-- A day and a time of day, with the distance from universal time in seconds if it is known. -/
structure Moment where
  date : Date
  hour : Nat
  minute : Nat
  second : Nat
  microsecond : Nat
  offset : Option Int
deriving DecidableEq, Repr

/-- A condition as it is written in an entry: one text, or a list of words. -/
inductive Phrase (α : Type) where
  | text (s : String)
  | words (items : List α)

/-- An entry: a condition, what is required where it holds or the error that is then raised, and
where the requirements belong. -/
structure EntryOf (α : Type) where
  condition : Phrase α
  prereqs : Option (List (String × α))
  phase : String
  relation : String
  error : Option String

/-- Data. -/
inductive Value where
  | null
  | bool (b : Bool)
  | int (i : Int)
  | float (x : Double)
  | str (s : String)
  | bytes (bs : List UInt8)
  | date (d : Date)
  | moment (m : Moment)
  | list (items : List Value)
  | tuple (items : List Value)
  | set (items : List Value)
  | map (entries : List (Value × Value))
  | condition (c : Condition)
  | entry (e : EntryOf Value)

/-- An entry over data. -/
abbrev Entry := EntryOf Value

namespace Value

instance : Inhabited Value := ⟨null⟩

/-- The word for the kind of data in messages. -/
def kindName : Value → String
  | null                       => "NoneType"
  | bool _                     => "bool"
  | int _                      => "int"
  | float _                    => "float"
  | str _                      => "str"
  | bytes _                    => "bytes"
  | date _                     => "date"
  | moment _                   => "datetime"
  | list _                     => "list"
  | tuple _                    => "tuple"
  | set _                      => "set"
  | map _                      => "dict"
  | condition (.command ..)    => "Command"
  | condition (.combinator ..) => "Combinator"
  | entry _                    => "ExpressionEntry"

/-- Whether data counts as something: null, false, zero and whatever is empty do not. -/
def truthy : Value → Bool
  | null => false
  | bool b => b
  | int i => i ≠ 0
  | float x => !x.isZero
  | str s => !s.isEmpty
  | bytes bs => !bs.isEmpty
  | list xs | tuple xs | set xs => !xs.isEmpty
  | map es => !es.isEmpty
  | date _ | moment _ | condition _ | entry _ => true

/-- The text of textual data. -/
def str? : Value → Option String
  | str s => some s
  | _     => none

/-! ### Keys -/

/-- The integer that a number or truth value equals. -/
def whole? : Value → Option Int
  | bool b  => some (if b then 1 else 0)
  | int i   => some i
  | float x => x.toInt?
  | _       => none

/-- Whether two values are the same key. -/
def sameKey (a b : Value) : Bool :=
  match a, b with
  | null, null => true
  | str s, str t => s = t
  | bytes s, bytes t => s = t
  | date d, date e => d = e
  | moment m, moment n => m = n
  | condition c, condition d => c = d
  | float x, float y => !x.isNaN && (x = y || x.isZero && y.isZero)
  | _, _ =>
      match a.whole?, b.whole? with
      | some i, some j => i = j
      | _, _ => false

/-- Sets a key: in its place if it is there, else at the end. -/
def insert (key value : Value) : List (Value × Value) → List (Value × Value)
  | []          => [(key, value)]
  | (k, v) :: r => if k.sameKey key then (k, value) :: r else (k, v) :: insert key value r

/-- The mapping that sets pairs one after the other. -/
def ofPairs (pairs : List (Value × Value)) : Value :=
  map (pairs.foldl (fun es (k, v) => insert k v es) [])

/-- The value of a key. -/
def find? (entries : List (Value × Value)) (key : String) : Option Value :=
  (entries.find? fun (k, _) => k.sameKey (str key)).map (·.2)

/-- A mapping from names. -/
def record (fields : List (String × Value)) : Value :=
  map (fields.map fun (k, v) => (str k, v))

/-- A list of texts. -/
def strs (texts : List String) : Value := list (texts.map str)

/-- The value under a name in a mapping. -/
def get? : Value → String → Option Value
  | map es, key => find? es key
  | _, _        => none

end Value

end HostPrereqs
