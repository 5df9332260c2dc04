import HostPrereqs.Proofs.Host.Logging
import HostPrereqs.Proofs.Resolution.EntryPoints
import HostPrereqs.Proofs.Resolution.Influence

/-!
# Resolution — flat and listed requirements

The requirements of an entry may be flat, and then they belong to the phase and relation of the
entry; or they are listed by phase and relation themselves (`Entry.listed`), and then the phase and
relation of the entry have no influence.  `resolve_of_rewritten` says that entries may be rewritten
from the first form to the second, and given any phase and relation after that: what is resolved
and how it fails is the same, and so is the host, but for the places in the records of the entries
that apply (`Log.Record.unplaced`).

What is read is the same because both forms are read through the second
(`Requirements.ofFragment_listed`).  The step is `Resolver.alike_apply`, and the run over a list of
entries is `Resolver.alike_applyAll`.
-/

namespace HostPrereqs

open Host (Alike)

/-- A record without the phase and relation of an entry that applies. -/
def Log.Record.unplaced (r : Log.Record) : Log.Record :=
  if r.event = "entry_matched" then
    { r with fields := r.fields.filter fun (name, _) => name ≠ "phase" && name ≠ "relation" }
  else r

namespace Condition

variable {look : Log.Record → Log.Record} {j : Junction} {cs : List Condition}

theorem alike_call (r : Registry) (s : Setting) (name : String) (args : List String)
    (negated : Bool) : Alike look (call r s name args negated) (call r s name args negated) := by
  unfold call
  cases r.get? name with
  | none => exact .throw _
  | some p =>
      by_cases htakes : p.takes args.length = true
      · simp only [htakes, Bool.not_true, Bool.false_eq_true, if_false]
        refine .bind (.modify fun h k heq => ?_) fun _ => (Alike.aside _).adapt _
        exact congrArg (fun h : Host => { h with calls := h.calls ++ [Call.mk name args] }) heq
      · simp only [htakes]
        exact .throw _

theorem alike_joined {r : Registry} {s : Setting}
    (hcs : ∀ c ∈ cs, Alike look (holds r s c) (holds r s c)) :
    Alike look (joined r s j cs) (joined r s j cs) := by
  induction cs with
  | nil =>
      rw [joined_nil]
      exact .pure _
  | cons c cs ih =>
      obtain ⟨hc, hcs⟩ := List.forall_mem_cons.1 hcs
      rw [joined_cons]
      refine .bind hc fun b => ?_
      split
      · exact ih hcs
      · exact .pure _

theorem alike_holds (r : Registry) (s : Setting) (c : Condition) :
    Alike look (holds r s c) (holds r s c) := by
  induction c using induct with
  | command name args negated =>
      rw [holds]
      exact .bind (alike_call r s name args negated) fun _ => .pure _
  | combinator junction operands negated ih =>
      rw [holds_combinator]
      exact .bind (alike_joined ih) fun _ => .pure _

/-- Evaluating a condition does not read the log. -/
theorem alike_evaluate (r : Registry) (s : Setting) (v : Value) :
    Alike look (evaluate r s v) (evaluate r s v) := by
  unfold evaluate
  cases parse v with
  | error e => exact .throw _
  | ok c => exact .bind (alike_holds r s c) fun _ => .bind (.report rfl) fun _ => .pure _

end Condition

namespace Requirements

/-- Requirements that are listed under a phase and relation are read as the flat ones are that
belong there, and what they belong to has no influence. -/
theorem ofFragment_listed {v : Value} (hflat : isNested v = .ok false)
    (phase relation phase' relation' : String) :
    ofFragment (.record [(phase, .record [(relation, v)])]) phase' relation' =
      ofFragment v phase relation := by
  have hnested : isNested (.record [(phase, .record [(relation, v)])]) = .ok true := rfl
  rw [ofFragment, ofFragment, hflat, hnested]
  rfl

end Requirements

namespace Entry

variable {e e' : Entry} {es es' : List Entry}

/-- The entry with its requirements listed under its phase and relation, and with others in the
place of these. -/
def listed (e : Entry) (phase relation : String) : Entry :=
  { e with
    prereqs := e.prereqs.map fun modules =>
      [(e.phase, .record [(e.relation, .record modules)])]
    phase := phase
    relation := relation }

/-- The second entry is the first one, or the first one is flat and is listed in the second. -/
inductive Rewritten : Entry → Entry → Prop where
  | same (e : Entry) : Rewritten e e
  | listed {e : Entry} {modules : List (String × Value)} (given : e.prereqs = some modules)
      (flat : Requirements.isNested (.record modules) = .ok false) (phase relation : String) :
      Rewritten e (e.listed phase relation)

namespace Rewritten

theorem condition_eq (h : Rewritten e e') : e'.condition = e.condition := by
  cases h <;> rfl

theorem error_eq (h : Rewritten e e') : e'.error = e.error := by
  cases h <;> rfl

theorem isSome_prereqs (h : Rewritten e e') : e'.prereqs.isSome = e.prereqs.isSome := by
  cases h with
  | same => rfl
  | listed => exact Option.isSome_map

/-- What is read as the requirements is the same. -/
theorem ofFragment_eq (h : Rewritten e e') :
    Requirements.ofFragment (.record (e'.prereqs.getD [])) e'.phase e'.relation =
      Requirements.ofFragment (.record (e.prereqs.getD [])) e.phase e.relation := by
  cases h with
  | same => rfl
  | listed given flat phase relation =>
      rw [Entry.listed, given]
      exact Requirements.ofFragment_listed flat _ _ _ _

/-- An entry that is rewritten gives one of requirements and an error, as it did before. -/
theorem checked_eq_ok (h : Rewritten e e') (hchecked : e.checked = .ok e) :
    e'.checked = .ok e' := by
  obtain ⟨-, hone⟩ := checked_eq_ok_iff.1 hchecked
  refine checked_eq_ok_iff.2 ⟨rfl, ?_⟩
  rwa [h.isSome_prereqs, fatal?, h.error_eq]

end Rewritten

theorem ofValues_rewritten (hes : ofValues (es.map .entry) = .ok es)
    (h : List.Forall₂ Rewritten es es') : ofValues (es'.map .entry) = .ok es' := by
  have hentry : ∀ e : Entry, ofValue (.entry e) = e.checked := fun _ => rfl
  rw [ofValues_eq_ok_iff] at hes ⊢
  induction h with
  | nil => rfl
  | cons hfirst _ ih =>
      simp only [List.map_cons, hentry] at hes ⊢
      obtain ⟨he, hes⟩ := List.cons.inj hes
      rw [hfirst.checked_eq_ok he, ih hes]

end Entry

namespace Resolver

open Entry (Rewritten)

variable {r : Resolver} {i : Nat} {e e' : Entry} {es es' : List Entry}

theorem fragmentOf_rewritten (h : Rewritten e e') : fragmentOf i e' = fragmentOf i e := by
  rw [fragmentOf, fragmentOf, h.ofFragment_eq]

/-- The records of entries that apply differ in the phase and relation alone. -/
theorem unplaced_matched (fragment : Requirements) :
    (matched i e fragment).unplaced = (matched i e' fragment).unplaced := rfl

/-- An entry that is rewritten comes to the same. -/
theorem alike_apply (h : Rewritten e e') :
    Alike Log.Record.unplaced (r.apply i e) (r.apply i e') := by
  unfold apply
  rw [conditionValue_congr h.condition_eq, Entry.fatal?, Entry.fatal?, h.error_eq,
    fragmentOf_rewritten h]
  -- from here on the two differ in the last record alone
  refine .bind ((Condition.alike_evaluate _ _ _).adapt _) fun b => ?_
  cases b with
  | false => exact .bind (.report rfl) fun _ => .pure _
  | true =>
      cases e.error.filter (· != "") with
      | some message => exact .bind (.report rfl) fun _ => .throw _
      | none =>
          exact .bind (.ofExcept _) fun fragment => .bind (.forM_report _) fun _ =>
            .bind (.report (unplaced_matched fragment)) fun _ => .pure _

theorem alike_applyAll (hes : List.Forall₂ Rewritten es es') :
    Alike Log.Record.unplaced (r.applyAll i es) (r.applyAll i es') := by
  induction hes generalizing i with
  | nil => exact .pure _
  | cons h _ ih =>
      rw [applyAll, applyAll]
      exact .bind (alike_apply h) fun _ => .bind ih fun _ => .pure _

theorem alike_merge (seed : Requirements) (hes : List.Forall₂ Rewritten es es') :
    Alike Log.Record.unplaced (r.merge seed es) (r.merge seed es') := by
  unfold merge
  refine .bind (alike_applyAll hes) fun fragments => ?_
  split
  · exact .pure _
  · exact .ofExcept _

/-- Entries with flat requirements may be rewritten to list these under their phase and relation,
and be given any others in the place of these.  They can be read after that, and however they are
given, they are resolved to the same requirements or fail with the same error.  The same predicates
are called, the same input is read and the same text is written; what is logged differs at most in
the phases and relations of the entries that apply. -/
theorem resolve_of_rewritten (r : Resolver) (seed : Value) {x : Expressions} {vs : List Value}
    (hvs : elementsOf x = .ok vs) (hread : Entry.ofValues vs = .ok es)
    (hes : List.Forall₂ Rewritten es es') (h : Host) :
    Entry.ofValues (es'.map .entry) = .ok es' ∧
    ∀ x' vs', elementsOf x' = .ok vs' → Entry.ofValues vs' = .ok es' →
      (r.resolve x' seed h).1 = (r.resolve x seed h).1 ∧
      (r.resolve x' seed h).2.unlogged = (r.resolve x seed h).2.unlogged ∧
      (r.resolve x' seed h).2.log.map Log.Record.unplaced =
        (r.resolve x seed h).2.log.map Log.Record.unplaced := by
  refine ⟨Entry.ofValues_rewritten ((Entry.ofValues_iff_readEntries 0).1 hread).2 hes,
    fun x' vs' hvs' hread' => ?_⟩
  cases hseed : r.seedOf seed with
  | error cause =>
      rw [resolve_of_seedOf_error hseed, resolve_of_seedOf_error hseed]
      exact ⟨rfl, rfl, rfl⟩
  | ok s =>
      rw [resolve_of_ok hseed hvs hread, resolve_of_ok hseed hvs' hread']
      obtain ⟨hresult, hhost⟩ := alike_merge s hes h h rfl
      obtain ⟨hunlogged, hlog⟩ := Host.seenBy_eq_iff.1 hhost
      exact ⟨hresult.symm, hunlogged.symm, hlog.symm⟩

/-- An entry with flat requirements, one with none, and one that is not rewritten. -/
def flatValues : List Value :=
  [.record [("condition", .list [.str "yes"]), ("phase", .str "test"),
      ("prereqs", .record [("Foo", .str " 1.0 "), ("Bar", .int 2)])],
    .record [("condition", .list [.str "yes"]), ("prereqs", .record [])],
    .record [("condition", .list [.str "no"]), ("error", .str "never")]]

/-- The same requirements listed under their phases and relations, in entries with others. -/
def listedValues : List Value :=
  [.record [("condition", .list [.str "yes"]), ("phase", .str "later"), ("relation", .str "wants"),
      ("prereqs", .record [("test", .record [("requires",
        .record [("Foo", .str " 1.0 "), ("Bar", .int 2)])])])],
    .record [("condition", .list [.str "yes"]), ("phase", .null), ("relation", .str "wants"),
      ("prereqs", .record [("runtime", .record [("requires", .record [])])])],
    .record [("condition", .list [.str "no"]), ("error", .str "never")]]

theorem resolve_of_rewritten_listedValues :
    let flat : Entry := ⟨.words [.str "yes"], some [("Foo", .str " 1.0 "), ("Bar", .int 2)],
      "test", "requires", none⟩
    let empty : Entry := ⟨.words [.str "yes"], some [], "runtime", "requires", none⟩
    let skipped := ending (.words [.str "no"]) "never"
    let listed := decisive.resolve (.data (.list listedValues)) .null .bare
    Entry.ofValues flatValues = .ok [flat, empty, skipped] ∧
      Entry.ofValues listedValues =
        .ok [flat.listed "later" "wants", empty.listed "runtime" "wants", skipped] ∧
      List.Forall₂ Rewritten [flat, empty, skipped]
        [flat.listed "later" "wants", empty.listed "runtime" "wants", skipped] ∧
      listed.1 = .ok ⟨[("test", [("requires", [("Foo", "1.0"), ("Bar", "2")])])]⟩ ∧
      listed.2.unlogged =
        (decisive.resolve (.data (.list flatValues)) .null .bare).2.unlogged := by
  intro flat empty skipped listed
  have hyes : Condition.parse (.list [.str "yes"]) = .ok (.command "yes" [] false) := by
    rw [Condition.parse_of_itemsOf rfl]
    rfl
  have hno : Condition.parse (.list [.str "no"]) = .ok (.command "no" [] false) := by
    rw [Condition.parse_of_itemsOf rfl]
    rfl
  have hread : Entry.ofValues flatValues = .ok [flat, empty, skipped] := rfl
  have hread' : Entry.ofValues listedValues =
      .ok [flat.listed "later" "wants", empty.listed "runtime" "wants", skipped] := rfl
  have hes : List.Forall₂ Rewritten [flat, empty, skipped]
      [flat.listed "later" "wants", empty.listed "runtime" "wants", skipped] :=
    .cons (.listed rfl rfl _ _) (.cons (.listed rfl rfl _ _) (.cons (.same _) .nil))
  have hflat : (decisive.resolve (.data (.list flatValues)) .null .bare).1 =
      .ok ⟨[("test", [("requires", [("Foo", "1.0"), ("Bar", "2")])])]⟩ := by
    rw [resolve_list_of_ok rfl hread]
    refine Result.toOption_eq_some.1 ?_
    simp only [merge, applyAll, apply, evaluate, Entry.conditionValue, flat, empty, skipped, ending,
      Condition.evaluate_of_parse hyes, Condition.evaluate_of_parse hno]
    decide +kernel
  obtain ⟨-, hsame⟩ :=
    resolve_of_rewritten decisive .null (x := .data (.list flatValues)) rfl hread hes .bare
  obtain ⟨hresult, hunlogged, -⟩ := hsame (.data (.list listedValues)) _ rfl hread'
  exact ⟨hread, hread', hes, hresult.trans hflat, hunlogged⟩

end Resolver

end HostPrereqs
