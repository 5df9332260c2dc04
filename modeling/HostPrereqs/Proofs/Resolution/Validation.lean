import HostPrereqs.Failure.Basic
import HostPrereqs.Proofs.Entry.Validation
import HostPrereqs.Proofs.Host.Similar

/-!
# Resolution — validation comes first

All entries are validated before the first condition is evaluated.  `resolve_validates` says what
comes of a list with a bad value: a failure that names the first one, from a host that nothing has
happened to.  A list without bad values is merged entry by entry.
-/

namespace HostPrereqs

namespace EntryFault

variable {index : Option Nat} {cause : EntryFault}

theorem index_report : (cause.report index).index = index.map Int.ofNat := by
  cases cause <;> rfl

/-- Giving neither requirements nor an error is a kind of failure of its own. -/
theorem kind_report_eq_missingFragment_iff :
    (cause.report index).kind = .missingFragment ↔ cause = .neither := by
  cases cause <;> simp [report, Report.missingFragment, Report.malformedEntry]

theorem kind_report_eq_malformedEntry_iff :
    (cause.report index).kind = .malformedEntry ↔ cause ≠ .neither := by
  cases cause <;> simp [report, Report.missingFragment, Report.malformedEntry]

end EntryFault

namespace Resolver

open Entry

variable {r : Resolver} {seed : Value} {s : Requirements} {vs : List Value} {h : Host}

/-- A seed that cannot be read is the first thing that is noticed. -/
theorem resolve_of_seedOf_error {cause : ResolutionError} (hseed : r.seedOf seed = .error cause)
    (expressions : Expressions) : r.resolve expressions seed h = (.error cause, h) := by
  rw [resolve, Host.run_bind, Host.run_ofExcept, hseed]

theorem resolve_of_elementsOf_error (hseed : r.seedOf seed = .ok s) {expressions : Expressions}
    {cause : ResolutionError} (hvs : elementsOf expressions = .error cause) :
    r.resolve expressions seed h = (.error cause, h) := by
  rw [resolve, Host.run_bind, Host.run_ofExcept, hseed, hvs]
  rfl

/-- Over a seed that can be read, the elements are read before anything else happens. -/
theorem resolve_eq (hseed : r.seedOf seed = .ok s) {expressions : Expressions}
    (hvs : elementsOf expressions = .ok vs) (h : Host) :
    r.resolve expressions seed h = (do
      let entries ← MonadExcept.ofExcept
        ((ofValues vs).mapError fun fault => ResolutionError.entry fault.1 fault.2)
      r.merge s entries : Resolution Requirements) h := by
  rw [resolve, Host.run_bind, Host.run_ofExcept, hseed, hvs]
  rfl

theorem resolve_of_ok (hseed : r.seedOf seed = .ok s) {expressions : Expressions}
    (hvs : elementsOf expressions = .ok vs) {es : List Entry} (hes : ofValues vs = .ok es) :
    r.resolve expressions seed h = r.merge s es h := by
  rw [resolve_eq hseed hvs, hes]
  rfl

theorem resolve_of_error (hseed : r.seedOf seed = .ok s) {expressions : Expressions}
    (hvs : elementsOf expressions = .ok vs) {fault : Nat × EntryFault}
    (hfault : ofValues vs = .error fault) :
    r.resolve expressions seed h = (.error (.entry fault.1 fault.2), h) := by
  rw [resolve_eq hseed hvs, hfault]
  rfl

theorem resolve_list_of_ok (hseed : r.seedOf seed = .ok s) {es : List Entry}
    (hvs : ofValues vs = .ok es) : r.resolve (.data (.list vs)) seed h = r.merge s es h :=
  resolve_of_ok hseed rfl hvs

theorem resolve_list_of_error (hseed : r.seedOf seed = .ok s) {fault : Nat × EntryFault}
    (hvs : ofValues vs = .error fault) :
    r.resolve (.data (.list vs)) seed h = (.error (.entry fault.1 fault.2), h) :=
  resolve_of_error hseed rfl hvs

/-- Over a seed that can be read, a list with a bad value fails with the number of the first one,
and the host is as it was: no predicate has been called, nothing read and nothing written.  A list
without bad values is read in its order, each entry giving exactly one of requirements and an
error, and goes on to be merged. -/
theorem resolve_validates (hseed : r.seedOf seed = .ok s) (vs : List Value) (h : Host) :
    ((∃ v ∈ vs, Bad v) → ∃ i v cause report, FirstBad vs i v ∧
      r.resolve (.data (.list vs)) seed h = (.error cause, h) ∧ cause.report? = some report ∧
      report.index = some (i : Int) ∧ (report.kind = .missingFragment ↔ SetsNeither v) ∧
      (report.kind = .malformedEntry ↔ ¬ SetsNeither v)) ∧
    ((∀ v ∈ vs, ¬ Bad v) → ∃ es, ofValues vs = .ok es ∧ vs.map ofValue = es.map .ok ∧
      (∀ e ∈ es, ¬ (e.prereqs.isSome ↔ e.fatal?.isSome)) ∧
      r.resolve (.data (.list vs)) seed h = r.merge s es h) := by
  constructor
  · intro hbad
    obtain ⟨i, v, hfirst⟩ := exists_firstBad hbad
    obtain ⟨cause, hcause, hneither⟩ := ofValue_of_bad hfirst.2.1
    have hvs : ofValues vs = .error (0 + i, cause) := ofValuesFrom_eq_error hfirst hcause
    rw [Nat.zero_add] at hvs
    refine ⟨i, v, _, _, hfirst, resolve_list_of_error hseed hvs, rfl, EntryFault.index_report,
      ?_, ?_⟩
    · rw [← hneither]
      exact EntryFault.kind_report_eq_missingFragment_iff
    · rw [← hneither]
      exact EntryFault.kind_report_eq_malformedEntry_iff
  · intro hgood
    obtain ⟨es, hes⟩ := exists_ofValues hgood
    have hmap := ofValues_eq_ok_iff.1 hes
    refine ⟨es, hes, hmap, fun e he => ?_, resolve_list_of_ok hseed hes⟩
    obtain ⟨v, -, hread⟩ : ∃ v ∈ vs, ofValue v = .ok e :=
      List.mem_map.1 (hmap ▸ List.mem_map_of_mem he)
    obtain ⟨hv, hfragment, herror⟩ := ofValue_spec hread
    rw [hfragment, herror]
    exact fun hboth => hv (.inr hboth)

/-- A value that gives requirements, though empty ones, one whose error is empty, and a number. -/
def mixedValues : List Value :=
  [.record [("condition", .str "can_cc"), ("prereqs", .map [])],
    .record [("condition", .str "can_cc"), ("error", .str "")], .int 3]

theorem resolve_validates_mixedValues :
    let r : Resolver := ⟨.empty, ⟨⟨[]⟩, none⟩, .empty⟩
    r.seedOf .null = .ok .empty ∧ ∃ v cause report, FirstBad mixedValues 1 v ∧ SetsNeither v ∧
      r.resolve (.data (.list mixedValues)) .null .bare = (.error cause, .bare) ∧
      cause.report? = some report ∧ report.kind = .missingFragment := by
  intro r
  have hseed : r.seedOf .null = .ok .empty := rfl
  have hbad : ∃ v ∈ mixedValues, Bad v := ⟨.int 3, by simp [mixedValues], .inl id⟩
  obtain ⟨i, v, cause, report, hfirst, hrun, hreport, hindex, hkind, -⟩ :=
    (resolve_validates hseed mixedValues .bare).1 hbad
  have hcause : cause = .entry 1 .neither := (Except.error.inj (congrArg Prod.fst hrun)).symm
  subst hcause
  obtain rfl := Option.some.inj hreport
  obtain rfl : i = 1 := (Int.ofNat.inj (Option.some.inj hindex)).symm
  exact ⟨hseed, v, _, _, hfirst, hkind.1 rfl, hrun, rfl, rfl⟩

end Resolver

end HostPrereqs
