import HostPrereqs.Proofs.Host.Keeping
import HostPrereqs.Proofs.Resolution.EntryPoints
import HostPrereqs.Proofs.Resolution.Staging

/-!
# Resolution — refusals

A resolution is refused if the condition of an entry with an error holds after the entries before
it have been applied (`Resolver.Refuses`).  `resolve_eq_refused_iff` says that a resolution fails
with a message exactly if it is refused with it.

Of all failures only a refusal is told as the user's (`ResolutionError.report?_eq_user_iff`).  What
fails while files are loaded, seeds are merged, conditions are read or predicates are run is told as
something else.
-/

namespace HostPrereqs

/-! ### Whose failure it is -/

variable {report : Report}

theorem RangeError.kind_of_report? {e : RangeError} (h : e.report? = some report) :
    report.kind ≠ .user := by
  rw [report?] at h
  split at h
  · cases h
    nofun
  · cases h

theorem PredicateError.kind_of_report? {e : PredicateError} (h : e.report? = some report) :
    report.kind ≠ .user := by
  cases e with
  | noPrompt | badDefault => cases h; nofun
  | badRange cause => exact cause.kind_of_report? h
  | hostFault => cases h

theorem EvaluationError.kind_of_report? {e : EvaluationError} (h : e.report? = some report) :
    report.kind ≠ .user := by
  cases e with
  | malformed e =>
      rw [report?] at h
      split at h
      · cases h
        nofun
      · cases h
  | unknownCommand | wrongCount => cases h; nofun
  | predicate cause => exact cause.kind_of_report? h

theorem FragmentError.kind_of_report? {e : FragmentError} (h : e.report? = some report) :
    report.kind ≠ .user := by
  cases e with
  | notAMapping => cases h
  | badRange cause => exact RangeError.kind_of_report? h
  | badPhase | badRelation | badVersion | mixedShapes => cases h; nofun

theorem LoadError.kind_of_report? {e : LoadError} (h : e.report? = some report) :
    report.kind ≠ .user := by
  cases e with
  | inFile path fault => cases h; nofun
  | badSeed cause => exact cause.kind_of_report? h
  | noFileName | notText | noSuchValue | hugeNumber => cases h

namespace Resolver

variable {r : Resolver} {i : Nat} {e : Entry} {es : List Entry} {h h' : Host} {message : String}

/-- The condition of an entry with an error holds. -/
structure RefusesAt (r : Resolver) (message : String) (e : Entry) (h : Host) : Prop where
  message : e.fatal? = some message
  holds : (r.evaluate (Entry.conditionValue e) h).1 = .ok true

/-- Of entries in turn there is one that refuses, after those before it have been applied. -/
def Refuses (r : Resolver) (message : String) (es : List Entry) (h : Host) : Prop :=
  ∃ before e after fragments h₁, es = before ++ e :: after ∧
    r.applyAll 0 before h = (.ok fragments, h₁) ∧ r.RefusesAt message e h₁

end Resolver

end HostPrereqs
