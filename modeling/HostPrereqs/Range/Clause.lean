import HostPrereqs.Version.Limit

/-!
# Range — clauses

A clause compares versions with a bound (`Clause`).  The numbers of the bound can be written, a
local part may stand only in the bound of an equality or an exclusion, and a minimum of zero says
nothing and is no clause; all this is kept by the type.

`Clause.admits` says which versions a clause lets in.  Pre-releases are versions like any
other.  Four rules go beyond the order:

* a bound without a local part is compared with versions stripped of theirs, except by `>=`,
  where it makes no difference;
* `< v` leaves out the pre-releases of `v` when `v` is none itself;
* `> v` leaves out `v` with a local part;
* `> v` leaves out the post-releases of `v` when `v` is neither one nor a development release.
-/

namespace HostPrereqs

/-- How a clause compares a version with its bound. -/
inductive Comparison where
  | atLeast
  | above
  | atMost
  | below
  | not
  | exactly
deriving DecidableEq, Repr

namespace Comparison

/-- The sign that a comparison is written with. -/
def sign : Comparison → String
  | atLeast => ">="
  | above   => ">"
  | atMost  => "<="
  | below   => "<"
  | not     => "!="
  | exactly => "=="

/-- Comparisons that bound a range from below. -/
def isLower (c : Comparison) : Bool := c = atLeast || c = above

/-- Comparisons that bound a range from above. -/
def isUpper (c : Comparison) : Bool := c = atMost || c = below

/-- Comparisons whose bound may have a local part. -/
def takesLocal (c : Comparison) : Bool := c = not || c = exactly

end Comparison

/-- A constraint on versions. -/
structure Clause where
  comparison : Comparison
  bound : Version
  fits : bound.Fits
  local_ok : bound.localPart = [] ∨ comparison.takesLocal = true
  not_trivial : ¬ (comparison = .atLeast ∧ bound.same .zero = true)
deriving DecidableEq, Repr

namespace Clause

/-- Equality up to the spelling of the bound: `== 1` and `== 1.0`. -/
def same (a b : Clause) : Bool := a.comparison = b.comparison && a.bound.same b.bound

/-- `w` is a post-release of `v`, which is none. -/
def isPostReleaseOf (w v : Version) : Bool := w.post.isSome && w.beforePosts.same v

/-- Whether the clause lets a version in. -/
def admits (c : Clause) (w : Version) : Bool :=
  match c.comparison with
  | .atLeast => c.bound.upTo w
  | .atMost  => w.withoutLocal.upTo c.bound
  | .below   => w.before c.bound.earliest
  | .above   => c.bound.before w.withoutLocal && !isPostReleaseOf w c.bound
  | .exactly => if c.bound.localPart.isEmpty then w.withoutLocal.same c.bound else w.same c.bound
  | .not     => !(if c.bound.localPart.isEmpty then w.withoutLocal.same c.bound
                  else w.same c.bound)

/-- A clause with its sign, a space and its bound. -/
def text (c : Clause) : String := c.comparison.sign ++ " " ++ c.bound.text

end Clause

end HostPrereqs
