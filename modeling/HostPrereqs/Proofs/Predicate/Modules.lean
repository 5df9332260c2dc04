import HostPrereqs.Proofs.Predicate.History
import HostPrereqs.Proofs.Predicate.Outcomes
import HostPrereqs.Proofs.Range.SideBySide

/-!
# Predicate — modules in ranges

`has_module` looks for a module in three ways: whether it is installed at all, without a range or
for the range of all versions, and otherwise whether it is installed at a version in the range.
Where it has a version, the range decides whether this is accepted, and otherwise only the range of
all versions is left (`Host.isInstalledIn_eq_ok_true`).

* `answer_hasModule`: on every host, a range that says nothing is no range, a range only narrows,
  two ranges side by side are both, and a range that cannot be read is an error, of which a report
  is made unless reading breaks off.
-/

namespace HostPrereqs

namespace Host

variable {m : Machine} {module : String} {wanted : Range}

theorem isInstalledIn_of_isAny (h : wanted.isAny = true) :
    isInstalledIn m module wanted = isInstalled m module := if_pos h

theorem isInstalled_eq_ok_true : isInstalled m module = .ok true ↔
    (∃ version, installedVersion m module = .ok (some version)) ∨
      installedVersion m module = .ok none ∧ imported m module = .found := by
  rw [isInstalled]
  rcases installedVersion m module with cause | _ | version
  · simp [bind, Except.bind]
  · cases imported m module <;>
      simp [bind, Except.bind, pure, Except.pure, throw, throwThe, MonadExceptOf.throw]
  · simp [bind, Except.bind, pure, Except.pure]

/-- A module is installed in a range if it has a version that the range accepts.  Without a version
it may only be in the range of all of them. -/
theorem isInstalledIn_eq_ok_true : isInstalledIn m module wanted = .ok true ↔
    (∃ version, installedVersion m module = .ok (some version) ∧
      wanted.accepts version = .ok true) ∨
    (installedVersion m module = .ok none ∧ imported m module = .found) ∧ wanted.clauses = [] := by
  rw [isInstalledIn, ← Range.isAny_iff]
  cases hany : wanted.isAny with
  | true =>
      have haccepts : ∀ version, wanted.accepts version = .ok true := fun _ => if_pos hany
      simp only [if_true, isInstalled_eq_ok_true, haccepts, and_true]
  | false =>
      rcases installedVersion m module with cause | _ | version
      · simp [bind, Except.bind]
      · simp [bind, Except.bind, pure, Except.pure]
      · simp only [Bool.false_eq_true, if_false, and_false, or_false, Except.ok.injEq,
          Option.some.injEq, exists_eq_left']
        exact Result.mapError_eq_ok

/-- A module is installed in a range only if it is installed at all. -/
theorem isInstalled_of_isInstalledIn (h : isInstalledIn m module wanted = .ok true) :
    isInstalled m module = .ok true := by
  rw [isInstalled_eq_ok_true]
  rcases isInstalledIn_eq_ok_true.1 h with ⟨version, hversion, -⟩ | ⟨hfound, -⟩
  · exact .inl ⟨version, hversion⟩
  · exact .inr hfound

/-- A module is installed in a range that has the clauses of two if it is installed in both. -/
theorem isInstalledIn_iff_of_alike {a b : Range}
    (h : Clause.Alike wanted.clauses (a.clauses ++ b.clauses)) :
    isInstalledIn m module wanted = .ok true ↔
      isInstalledIn m module a = .ok true ∧ isInstalledIn m module b = .ok true := by
  have haccepts : ∀ version, wanted.accepts version = .ok true ↔
      a.accepts version = .ok true ∧ b.accepts version = .ok true := by
    intro version
    cases hversion : Version.parse? version with
    | none =>
        simp only [Range.accepts_of_parse?_none hversion, h.eq_nil_iff, List.append_eq_nil_iff]
    | some w =>
        simp only [Range.accepts_of_parse? hversion, h.admits_iff, List.forall_mem_append]
  simp only [isInstalledIn_eq_ok_true, haccepts, h.eq_nil_iff, List.append_eq_nil_iff]
  grind

end Host

namespace Builtin

open Condition

variable {module range : String}

/-- What the command of a name and arguments comes out as on a host. -/
def answer (s : Setting) (h : Host) (name : String) (args : List String) :
    Except EvaluationError Bool := (evaluate registry s (.strs (name :: args)) h).1

/-- The predicate for modules. -/
theorem exists_hasModule : ∃ p ∈ registry.predicates, p.name = "has_module" ∧
    (p.takes 1 = true ∧ ∀ s module, p.run s [module] = hasModule module) ∧
    (p.takes 2 = true ∧ ∀ s module range, p.run s [module, range] = hasModuleAt module range) :=
  ⟨all[4], List.getElem_mem (by decide), rfl, ⟨rfl, fun _ _ => rfl⟩, rfl, fun _ _ _ => rfl⟩

/-- Without a range it is asked whether the module is installed. -/
theorem answer_hasModule_nil (s : Setting) (h : Host) (module : String) :
    answer s h "has_module" [module] = ((Host.isInstalled h.machine module).mapError
      PredicateError.hostFault).mapError .predicate := by
  obtain ⟨p, hp, hname, ⟨htakes, hrun⟩, -⟩ := exists_hasModule
  have hresult := (wellNamed_registry.callable hp s [module] h).result htakes
  rw [hname, hrun, fst_hasModule] at hresult
  exact hresult

/-- With a range this is read, and then it is asked whether the module is installed in it. -/
theorem answer_hasModule_pair (s : Setting) (h : Host) (module range : String) :
    answer s h "has_module" [module, range] =
      (lookUp range (Host.isInstalledIn h.machine module)).mapError .predicate := by
  obtain ⟨p, hp, hname, -, htakes, hrun⟩ := exists_hasModule
  have hresult := (wellNamed_registry.callable hp s [module, range] h).result htakes
  rw [hname, hrun, fst_hasModuleAt] at hresult
  exact hresult

theorem answer_hasModule_of_parse {r : Range} (hr : Range.parse range = .ok r) (s : Setting)
    (h : Host) (module : String) :
    answer s h "has_module" [module, range] = ((Host.isInstalledIn h.machine module r).mapError
      PredicateError.hostFault).mapError .predicate := by
  rw [answer_hasModule_pair, lookUp, hr]
  rfl

/-- A range that cannot be read fails, whatever is installed. -/
theorem answer_hasModule_of_error {e : RangeError} (hr : Range.parse range = .error e)
    (s : Setting) (h : Host) (module : String) :
    answer s h "has_module" [module, range] = .error (.predicate (.badRange e)) := by
  rw [answer_hasModule_pair, lookUp, hr]
  rfl

/-- What is looked for on a host comes out as true or false unless it breaks. -/
theorem exists_ok_iff_not_error {x : Except HostFault Bool} :
    (∃ b, (x.mapError PredicateError.hostFault).mapError EvaluationError.predicate = .ok b) ↔
      ¬ ∃ cause, x = .error cause := by
  simp only [Result.mapError_eq_ok]
  cases x <;> simp

/-- What `has_module` says of a module agrees between ranges, on every host: the range of all
versions says what no range says, a range that can be read holds only where the module is installed
at all, and two ranges that are not blank hold side by side if each of them does.  It is true or
false unless looking for the module breaks, or it has a version with a numeral that is too long.  A
range that cannot be read is an error, whether or not the module is installed, and a report is made
of it unless reading breaks off. -/
theorem answer_hasModule (s : Setting) (h : Host) (module : String) :
    ((∃ b, answer s h "has_module" [module] = .ok b) ↔ ¬ Host.SearchBreaks h.machine module) ∧
    (∀ range r, Range.parse range = .ok r →
      ((∃ b, answer s h "has_module" [module, range] = .ok b) ↔
        ¬ Host.SearchBreaksIn h.machine module r) ∧
      (r.isAny = true →
        answer s h "has_module" [module, range] = answer s h "has_module" [module]) ∧
      (answer s h "has_module" [module, range] = .ok true →
        answer s h "has_module" [module] = .ok true)) ∧
    (∀ range range' a b r, Text.strip range ≠ "" → Text.strip range' ≠ "" →
      Range.parse range = .ok a → Range.parse range' = .ok b →
      Range.parse (range ++ ", " ++ range') = .ok r →
      (answer s h "has_module" [module, range ++ ", " ++ range'] = .ok true ↔
        answer s h "has_module" [module, range] = .ok true ∧
        answer s h "has_module" [module, range'] = .ok true)) ∧
    ∀ range e, Range.parse range = .error e → ∃ cause,
      answer s h "has_module" [module, range] = .error cause ∧
        ((∀ n, ¬ Range.BreaksOff range n) →
          cause.report? = some (.versionRange e.message (some e.range))) ∧
        ∀ n, Range.BreaksOff range n → cause.report? = none := by
  refine ⟨?_, fun range r hr => ?_, fun range range' a b r hne hne' ha hb hr => ?_,
    fun range e he => ?_⟩
  · rw [answer_hasModule_nil, exists_ok_iff_not_error]
    simp only [Host.isInstalled_eq_error, exists_eq_left]
  · rw [answer_hasModule_of_parse hr, answer_hasModule_nil, exists_ok_iff_not_error,
      Host.exists_isInstalledIn_eq_error]
    refine ⟨.rfl, fun hany => ?_, fun htrue => ?_⟩
    · rw [Host.isInstalledIn_of_isAny hany]
    · simp only [Result.mapError_eq_ok] at htrue ⊢
      exact Host.isInstalled_of_isInstalledIn htrue
  · have halike := Range.alike_of_sideBySide ha hb hr hne hne'
    simp only [answer_hasModule_of_parse ha, answer_hasModule_of_parse hb,
      answer_hasModule_of_parse hr, Result.mapError_eq_ok]
    exact Host.isInstalledIn_iff_of_alike halike
  · -- the range is read before anything is looked up
    have hreported := Range.exists_breaksOff_iff he
    refine ⟨_, answer_hasModule_of_error he s h module, fun hshort => ?_, fun n hlong => ?_⟩
    · have hreport : e.isReported = true := by
        rw [← Bool.not_eq_false, ← hreported]
        exact fun ⟨n, hn⟩ => hshort n hn
      exact if_pos hreport
    · have hnone := hreported.1 ⟨n, hlong⟩
      exact if_neg (by simp [hnone])

/-- A host on which a package is provided by a distribution of another name. -/
def yamlHost : Host :=
  { Host.bare with machine := { Host.bare.machine with
      distributions := [("PyYAML", .installed (some "6.0"))],
      providers := some [("yaml", ["PyYAML"])] } }

theorem answer_hasModule_yaml :
    let s : Setting := ⟨⟨[]⟩, none⟩
    (∃ a b r, Text.strip ">= 5.0" ≠ "" ∧ Text.strip "< 7.0" ≠ "" ∧
      Range.parse ">= 5.0" = .ok a ∧ Range.parse "< 7.0" = .ok b ∧
      Range.parse ">= 5.0, < 7.0" = .ok r ∧
      answer s yamlHost "has_module" ["yaml", ">= 5.0, < 7.0"] = .ok true ∧
      answer s yamlHost "has_module" ["yaml"] = .ok true) ∧
    (∃ r, Range.parse " 0 " = .ok r ∧ r.isAny = true ∧
      answer s yamlHost "has_module" ["absent", " 0 "] =
        answer s yamlHost "has_module" ["absent"]) ∧
    ∃ e, Range.parse "=> 5.0" = .error e ∧ ∃ cause,
      answer s yamlHost "has_module" ["absent", "=> 5.0"] = .error cause ∧
        cause.report?.map (·.kind) = some .versionRange := by
  intro s
  obtain ⟨-, hread, hboth, -⟩ := answer_hasModule s yamlHost "yaml"
  obtain ⟨-, habsent, -, hunread⟩ := answer_hasModule s yamlHost "absent"
  have hlow : answer s yamlHost "has_module" ["yaml", ">= 5.0"] = .ok true :=
    (answer_hasModule_of_parse rfl s yamlHost "yaml").trans rfl
  have hhigh : answer s yamlHost "has_module" ["yaml", "< 7.0"] = .ok true :=
    (answer_hasModule_of_parse rfl s yamlHost "yaml").trans rfl
  have htrue := (hboth ">= 5.0" "< 7.0" _ _ _ (by decide) (by decide) rfl rfl rfl).2 ⟨hlow, hhigh⟩
  refine ⟨⟨_, _, _, by decide, by decide, rfl, rfl, rfl, htrue, (hread _ _ rfl).2.2 htrue⟩,
    ⟨_, rfl, rfl, (habsent _ _ rfl).2.1 rfl⟩, _, rfl, ?_⟩
  have hsign : Range.parse "=> 5.0" = .error (.unreadableClause "=> 5.0" "=> 5.0") := rfl
  obtain ⟨cause, hfails, hreport, -⟩ := hunread _ _ hsign
  have hshort : ∀ n, ¬ Range.BreaksOff "=> 5.0" n := fun n hlong => by
    cases (Range.exists_breaksOff_iff hsign).1 ⟨n, hlong⟩
  exact ⟨cause, hfails, by rw [hreport hshort]; rfl⟩

/-- A range that is not read, of which no report is made. -/
theorem not_reported_hasModule : (∃ e, Range.parse (String.ofList Range.ones) = .error e) ∧
    ∃ cause, answer ⟨⟨[]⟩, none⟩ .bare "has_module" ["Foo", String.ofList Range.ones] =
      .error cause ∧ cause.report? = none := by
  obtain ⟨n, hlong⟩ := Range.exists_breaksOff_ones
  have hread := Range.parse_of_breaksOff hlong
  exact ⟨⟨_, hread⟩, _, answer_hasModule_of_error hread _ _ _, rfl⟩

end Builtin

end HostPrereqs
