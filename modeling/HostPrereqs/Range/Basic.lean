import HostPrereqs.Range.Clause

/-!
# Range — ranges of versions

A range is a list of clauses, no two of them the same, that do not contradict each other
(`Range`); a version lies in the range when every clause admits it, and the range without
clauses is the whole of all versions.

Contradictions are looked for in three places (`Conflict`): two different exact versions, an
exact version that another clause leaves out, and a greatest minimum that is beyond the least
maximum.

The *canonical* clauses of a range are its exact version if it has one; otherwise its tightest
minimum, its tightest maximum, and its exclusions in order.
-/

namespace HostPrereqs

/-- Why clauses contradict each other. -/
inductive Conflict where
  | differentPins
  | pinExcluded (pin : Version)
  | crossedBounds (low high : Version)
deriving DecidableEq, Repr

namespace Clause

/-- Appends the clauses that are not the same as an earlier one. -/
def distinct (cs : List Clause) : List Clause :=
  cs.foldl (fun kept c => if kept.any (·.same c) then kept else kept ++ [c]) []

/-- `b` is a tighter lower bound than `a`. -/
def tighterLower (a b : Clause) : Bool :=
  a.bound.before b.bound
    || (a.bound.same b.bound && a.comparison ≠ .above && b.comparison = .above)

/-- `b` is a tighter upper bound than `a`. -/
def tighterUpper (a b : Clause) : Bool :=
  b.bound.before a.bound
    || (a.bound.same b.bound && a.comparison ≠ .below && b.comparison = .below)

/-- The first element that none after it beats. -/
def best (beats : Clause → Clause → Bool) : List Clause → Option Clause
  | []      => none
  | c :: cs => some (cs.foldl (fun a b => if beats a b then b else a) c)

/-- The tightest lower bound among the clauses. -/
def lowest? (cs : List Clause) : Option Clause :=
  best tighterLower (cs.filter (·.comparison.isLower))

/-- The tightest upper bound among the clauses. -/
def highest? (cs : List Clause) : Option Clause :=
  best tighterUpper (cs.filter (·.comparison.isUpper))

/-- The exact versions among the clauses. -/
def pins (cs : List Clause) : List Clause := cs.filter (·.comparison = .exactly)

/-- No version can be beyond `low` and within `high`. -/
def crossed (low high : Clause) : Bool :=
  high.bound.before low.bound
    || (low.bound.same high.bound && (low.comparison = .above || high.comparison = .below))

/-- The first contradiction among the clauses. -/
def conflict? (cs : List Clause) : Option Conflict :=
  match pins cs with
  | pin :: more =>
      if more.any (!·.bound.same pin.bound) then some .differentPins
      else if cs.all (·.admits pin.bound) then none
      else some (.pinExcluded pin.bound)
  | [] =>
      match lowest? cs, highest? cs with
      | some low, some high =>
          if crossed low high then some (.crossedBounds low.bound high.bound) else none
      | _, _ => none

/-- The clauses that the others follow from, in the order they are written in. -/
def canonical (cs : List Clause) : List Clause :=
  match pins cs with
  | [] =>
      (lowest? cs).toList ++ (highest? cs).toList
        ++ (cs.filter (·.comparison = .not)).mergeSort fun a b => a.bound.upTo b.bound
  | pins => pins

end Clause

/-- A satisfiable-looking set of clauses. -/
structure Range where
  clauses : List Clause
  distinct : clauses.Pairwise fun a b => a.same b = false
  consistent : Clause.conflict? clauses = none
deriving DecidableEq

namespace Clause

theorem distinct_pairwise (cs : List Clause) :
    (distinct cs).Pairwise fun a b => a.same b = false := by
  suffices h : ∀ (kept : List Clause), kept.Pairwise (fun a b => a.same b = false) →
      (cs.foldl (fun kept c => if kept.any (·.same c) then kept else kept ++ [c]) kept).Pairwise
        fun a b => a.same b = false from h [] .nil
  induction cs with
  | nil => exact fun _ h => h
  | cons c cs ih =>
      intro kept h
      refine ih _ ?_
      dsimp only
      split
      · exact h
      · rename_i hc
        rw [List.pairwise_append]
        refine ⟨h, by simp, fun a ha b hb => ?_⟩
        obtain rfl := List.mem_singleton.1 hb
        simpa using fun hs => hc (List.any_eq_true.2 ⟨a, ha, hs⟩)

end Clause

namespace Range

/-- The range of all versions. -/
def any : Range := ⟨[], .nil, rfl⟩

/-- The range with the given clauses. -/
def ofClauses (cs : List Clause) : Except Conflict Range :=
  match h : Clause.conflict? (Clause.distinct cs) with
  | some conflict => .error conflict
  | none => .ok ⟨Clause.distinct cs, Clause.distinct_pairwise cs, h⟩

/-- Whether the range has no clauses. -/
def isAny (r : Range) : Bool := r.clauses.isEmpty

/-- Whether a version lies in the range. -/
def admits (r : Range) (w : Version) : Bool := r.clauses.all (·.admits w)

/-- Whether the version that a text denotes lies in the range.  A text that is no version lies
only in the range of all versions, for which the text is not read. -/
def accepts (r : Range) (text : String) : Except Numeral.Excess Bool :=
  if r.isAny then .ok true
  else
    (Version.read text).map fun
      | some w => r.admits w
      | none => false

/-- The clauses of a range that it is written with. -/
def canonical (r : Range) : List Clause := Clause.canonical r.clauses

/-- The canonical text of a range: a lone minimum is written as its version, and the range of
all versions as zero. -/
def text (r : Range) : String :=
  match r.canonical with
  | [] => "0"
  | [c] => if c.comparison = .atLeast then c.bound.text else c.text
  | cs => ", ".intercalate (cs.map Clause.text)

instance : ToString Range := ⟨text⟩

end Range

end HostPrereqs
